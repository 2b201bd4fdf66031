import VirtioMem.Host.Finality

/-!
# A request is accounted from its own start

The result of an executed request measures how far the device has moved since the command started. The
allocation it started from is saved in the intent, and the intent is rewritten many times before the
device converges: by extensions of a shrink, by settlements, by refusals and by restarts. None of these
touches it (`Recorded`), and the request is not admitted a second time in between, so the resolution
measures from the allocation the request was admitted at.
-/

namespace VirtioMem.Host

open VirtioMem.Core VirtioMem.Effect VirtioMem.Word

variable {pool : Option Nat} {configs : List HostConfig} {config : HostConfig} {W : HostWorld}
  {index : Nat} {process : Option HostRuntime} {request : MemoryRequest} {w : VmWorld} {started : Nat}

/-- How far a device has moved in the direction of an operation. -/
def movement (operation : MemoryOperation) (started reached : Nat) : Nat :=
  match operation with
  | .add => reached - started
  | .remove => started - reached

/-- The file starts the command of a new request. -/
def Admits (w : VmWorld) (file : CheckpointFile) (request : MemoryRequest) : Prop :=
  w.control.intent = none ∧ file.control.intent.isSome ∧
    file.control.journal.request = some request

/-- The file ends the command of the journalled request, and not because the sink has refused it. -/
def Resolves (w : VmWorld) (file : CheckpointFile) (request : MemoryRequest) : Prop :=
  w.phase = .idle ∧ w.control.intent.isSome ∧ file.control.intent = none ∧
    file.control.journal.request = some request

/-! ## The starting allocation is kept -/

/-- The request is not ahead of the journal, and as long as it is the one in it, its intent still holds
the allocation it started from. -/
structure Recorded (request : MemoryRequest) (started : Nat) (control : DurableControlState) :
    Prop where
  behind : ∃ last, control.journal.request = some last ∧
    request.issuedUnixMillis ≤ last.issuedUnixMillis
  prior : control.journal.request = some request →
    ∀ intent, control.intent = some intent → intent.priorCurrentBytes = started

/-- Without an intent only the journal's request matters. -/
theorem Recorded.ended {control after : DurableControlState} (h : Recorded request started control)
    (hrequest : after.journal.request = control.journal.request) (hidle : after.intent = none) :
    Recorded request started after where
  behind := hrequest ▸ h.behind
  prior := fun _ intent hintent => by rw [hidle] at hintent; cases hintent

/-- An intent may be rewritten, but not where it started. -/
theorem Recorded.rewritten {control after : DurableControlState} {intent : CommandIntent}
    (h : Recorded request started control) (hintent : control.intent = some intent)
    (hrequest : after.journal.request = control.journal.request)
    (hprior : ∀ other, after.intent = some other →
      other.priorCurrentBytes = intent.priorCurrentBytes) : Recorded request started after where
  behind := hrequest ▸ h.behind
  prior := by
    intro hsame other hother
    rw [hprior other hother]
    exact h.prior (hrequest ▸ hsame) intent hintent

/-- Another request takes its place, and it was issued later. -/
theorem Recorded.overtaken {control after : DurableControlState} {new : MemoryRequest}
    (h : Recorded request started control) (hnew : after.journal.request = some new)
    (hahead : control.journal.Ahead new) : Recorded request started after := by
  obtain ⟨last, hlast, hle⟩ := h.behind
  have hlt := lt_of_le_of_lt hle (hahead last hlast).1
  refine ⟨⟨new, hnew, hlt.le⟩, ?_⟩
  intro hsame
  rw [hnew] at hsame
  cases hsame
  exact absurd hlt (lt_irrefl _)

/-- **No write forgets where the request started.** -/
theorem Recorded.writes {stage : Stage} {control : DurableControlState}
    (h : Recorded request started w.control) (hwrites : Writes config stage w control) :
    Recorded request started control := by
  cases hwrites with
  | resolve _ _ _ _ _ _ _ _ hjournal => exact h.ended (recorded hjournal).2.1 rfl
  | latch _ _ hjournal =>
      have hrequest : ∀ {journal : MemoryRequestJournal}, Latches w.control.journal journal →
          journal.request = w.control.journal.request := by
        rintro _ (⟨rfl, -⟩ | ⟨_, _, _, _, _, hrecord⟩)
        · rfl
        · exact (recorded hrecord).2.1
      cases hintent : w.control.intent with
      | none => exact h.ended (hrequest hjournal) hintent
      | some intent =>
          refine h.rewritten hintent (hrequest hjournal) ?_
          intro other hother
          rw [hintent] at hother
          cases hother
          rfl
  | begin _ _ _ _ _ _ _ _ hahead => exact h.overtaken rfl hahead
  | release _ _ _ hjournal => exact h.ended (recorded hjournal).2.1 rfl
  | unexecuted _ _ hidle hahead _ hjournal =>
      exact h.overtaken (recorded hjournal).1 hahead
  | extend _ _ hintent => exact h.rewritten hintent rfl (by rintro _ ⟨⟩; rfl)
  | restore _ _ hintent => exact h.rewritten hintent rfl (by rintro _ ⟨⟩; rfl)
  | settle _ _ hintent => exact h.rewritten hintent rfl (by rintro _ ⟨⟩; rfl)

theorem Recorded.next {stage : Stage} {committed : Nat} {op : VmOp}
    (h : Recorded request started w.control) (hmay : w.May config stage committed op)
    (answer : VmAns op) : Recorded request started (w.next op answer).control := by
  rcases w.control_next answer with hsame | ⟨file, rfl, hfile⟩
  · rw [hsame]
    exact h
  · rw [hfile]
    exact h.writes hmay

theorem Recorded.operate {op : VmOp} (h : Recorded request started w.control)
    (hinv : ControlInv w.control) (hmay : w.MayOperate op) (answer : VmAns op) :
    Recorded request started (w.next op answer).control := by
  rcases w.control_next answer with hsame | ⟨file, rfl, hfile⟩
  · rw [hsame]
    exact h
  · obtain ⟨live, now, reason, journal, -, -, -, hcleared, hcontrol⟩ := hmay
    rw [hfile, hcontrol]
    exact h.ended (hinv.of_cleared hcleared).2 rfl

/-- No run forgets it. -/
theorem Lawful.recorded {labels : List Label} (h : Lawful pool configs W labels)
    (hinv : ControlInv (W index).control) (hrecorded : Recorded request started (W index).control) :
    Recorded request started (HostWorld.after W labels index).control :=
  (@Lawful.invariant _ _ _ _ _ (fun w => ControlInv w.control ∧ Recorded request started w.control)
    (fun _ h => h) (fun _ h => h)
    (fun _ _ _ _ _ answer _ h hmay => ⟨h.1.next hmay answer, h.2.next hmay answer⟩)
    (fun _ _ answer h hmay => ⟨h.1.operate hmay answer, h.2.operate h.1 hmay answer⟩)
    h ⟨hinv, hrecorded⟩).2

/-! ## Admission and resolution -/

/-- A new command is saved with the allocation that was read. -/
theorem Admits.recorded {stage : Stage} {committed : Nat} {file : CheckpointFile}
    (h : Admits w file request) (hmay : w.May config stage committed (.persist file)) :
    ∃ live, w.live = some live ∧ w.fresh = true ∧ live.requestedBytes = live.currentBytes ∧
      Recorded request live.currentBytes file.control := by
  obtain ⟨hidle, hstarts, hrequest⟩ := h
  have hcases : Writes config stage w file.control := hmay
  generalize file.control = control at hcases hstarts hrequest
  cases hcases with
  | resolve => cases hstarts
  | latch => rw [hidle] at hstarts; cases hstarts
  | @begin _ live _ _ _ _ _ _ _ hlive hfresh hconverged _ _ _ _ _ _ _ _ _ hprior =>
      cases hrequest
      exact ⟨live, hlive, hfresh, hconverged, ⟨_, rfl, le_rfl⟩, by rintro _ _ ⟨⟩; exact hprior⟩
  | release => cases hstarts
  | unexecuted => rw [hidle] at hstarts; cases hstarts
  | extend _ _ hintent => rw [hidle] at hintent; cases hintent
  | restore _ _ hintent => rw [hidle] at hintent; cases hintent
  | settle _ _ hintent => rw [hidle] at hintent; cases hintent

/-- A resolution measures from the saved allocation to the one that was read. -/
theorem Resolves.accounted {stage : Stage} {committed : Nat} {file : CheckpointFile}
    (h : Resolves w file request) (hmay : w.May config stage committed (.persist file))
    (hrecorded : Recorded request started w.control) :
    ∃ live result, w.live = some live ∧ w.fresh = true ∧
      live.requestedBytes = live.currentBytes ∧
      file.control.journal = ⟨some request, some result⟩ ∧
      result.actualBytes =
        min request.bytes (movement request.operation started live.currentBytes) ∧
      result.outcome =
        (if result.actualBytes = request.bytes then .completed else .partialMove) ∧
      result.validateFor request = .ok () := by
  obtain ⟨hphase, hpending, hidle, hrequest⟩ := h
  have hcases : Writes config stage w file.control := hmay
  generalize file.control = control at hcases hidle hrequest ⊢
  -- Of the writes only a resolution ends an intent over a pending request.
  cases hcases with
  | @resolve intent live now result journal _ _ hintent hlive hfresh hrequested hcurrent hresult
      hjournal =>
      obtain ⟨hheld, rfl, hvalid, -⟩ := MemoryRequestJournal.recordResult_ok hjournal
      have hsame : w.control.journal.request = some request := hrequest
      rw [hheld] at hsame
      cases hsame
      have hprior := hrecorded.prior hheld intent hintent
      obtain ⟨other, hother, hmeasured⟩ := Option.map_eq_some_iff.mp hresult
      rw [hheld] at hother
      cases hother
      refine ⟨live, _, hlive, hfresh, hrequested.trans hcurrent.symm, by rw [← hheld], ?_, ?_, hvalid⟩
      · show result.actualBytes = _
        rw [← hmeasured]
        show moved result.request intent live = _
        rw [moved, hprior, min_comm]
        rfl
      · show result.outcome = if result.actualBytes = _ then _ else _
        rw [← hmeasured]
  | latch => rw [hidle] at hpending; cases hpending
  | begin => cases hidle
  | release _ hrefused => rw [hphase] at hrefused; cases hrefused
  | unexecuted _ _ hnone => rw [hnone] at hpending; cases hpending
  | extend => cases hidle
  | restore => cases hidle
  | settle => cases hidle

/-- **Executed requests are accounted from their own start.** Between the write that admits a request
and the one that resolves it lies any part of a run, restarts included. The result is the movement from
the allocation read at the one to the allocation read, converged, at the other, at most what was asked;
it is completed exactly if that is all of it, and it is a valid result for the request. -/
theorem executed_accounted {before mid after : List Label} {begun ended : CheckpointFile}
    {saved saved' : Saved}
    (h : HostRun pool configs (before ++ .event ⟨.vm index (.persist begun), saved⟩ ::
      (mid ++ .event ⟨.vm index (.persist ended), saved'⟩ :: after)) process)
    (hadmits : Admits (HostWorld.after .initial before index) begun request)
    (hsaved : ((HostWorld.after .initial before index).persist begun saved).control = begun.control)
    (hresolves : Resolves (HostWorld.after .initial
      (before ++ .event ⟨.vm index (.persist begun), saved⟩ :: mid) index) ended request) :
    ∃ start live result,
      (HostWorld.after .initial before index).live = some start ∧
      start.requestedBytes = start.currentBytes ∧
      (HostWorld.after .initial
        (before ++ .event ⟨.vm index (.persist begun), saved⟩ :: mid) index).live = some live ∧
      live.requestedBytes = live.currentBytes ∧
      ended.control.journal = ⟨some request, some result⟩ ∧
      result.actualBytes = min request.bytes
        (movement request.operation start.currentBytes live.currentBytes) ∧
      result.outcome =
        (if result.actualBytes = request.bytes then .completed else .partialMove) ∧
      result.validateFor request = .ok () := by
  obtain ⟨hbefore, hbegun, hrest⟩ := lawful_append.mp (hostRun_lawful h).1
  obtain ⟨hmid, hended, -⟩ := lawful_append.mp hrest
  obtain ⟨config, stage, committed, -, hmay⟩ := hbegun.may
  obtain ⟨start, hstart, -, hstill, hrecorded⟩ := hadmits.recorded hmay
  -- From the admission on the starting allocation is on record.
  have hinv : ControlInv (HostWorld.after .initial before index).control :=
    hbefore.controlInv controlInv_fresh
  have hkept : Recorded request start.currentBytes (HostWorld.after .initial
      (before ++ .event ⟨.vm index (.persist begun), saved⟩ :: mid) index).control := by
    rw [HostWorld.after_append]
    apply hmid.recorded
    · rw [HostWorld.step_self]
      exact hinv.next hmay saved
    · rw [HostWorld.step_self]
      show Recorded _ _ ((HostWorld.after .initial before index).persist begun saved).control
      rw [hsaved]
      exact hrecorded
  obtain ⟨config', stage', committed', -, hmay'⟩ := hended.may
  rw [HostWorld.after_append] at hkept hresolves ⊢
  obtain ⟨live, result, hlive, -, hconverged, hjournal, hactual, houtcome, hvalid⟩ :=
    hresolves.accounted hmay' hkept
  exact ⟨start, live, result, hstart, hstill, hlive, hconverged, hjournal, hactual, houtcome, hvalid⟩

/-! ## A removal that is extended

A removal of 1 GiB from 4 GiB stalls half way. The extension asks for one block more than the goal, and
the guest releases all of it before the next poll. -/

def exampleRemove : MemoryRequest := exampleRequest .remove (2 ^ 30) 100000

def extendedRemoval : List Script :=
  let script := exampleScript (examplePublication (8 * 2 ^ 30) exampleRemove)
  [script, { script with plugged := [7 * 2 ^ 29] }, { script with instant := 1000000000 },
    { script with plugged := [3 * 2 ^ 30 - 2 ^ 21], instant := 2000000000 }]

def fourGiB : Devices := fun _ => exampleDevice (2 ^ 32) (2 ^ 32)

def extended : List Label × HostRuntime × Devices :=
  Script.rounds extendedRemoval exampleRuntime fourGiB

def extendedLabels : List Label := [.started] ++ extended.1

theorem extended_run :
    HostRun none [exampleConfig] extendedLabels (some extended.2.1) ∧
      Follows fourGiB extended.1 extended.2.2 :=
  Script.playable_run exampleRuntime_run (by decide +kernel)

/-- The file a label has written. -/
def writtenFile (index : Nat) : Label → Option CheckpointFile
  | .event ⟨.vm other (.persist file), .written⟩ => if other = index then some file else none
  | _ => none

theorem writtenFile_eq_some {label : Label} {file : CheckpointFile}
    (h : writtenFile index label = some file) :
    label = .event ⟨.vm index (.persist file), .written⟩ := by
  unfold writtenFile at h
  split at h
  · split_ifs at h with hindex
    cases h
    subst hindex
    rfl
  · cases h

def exampleFile (control : DurableControlState) : CheckpointFile :=
  ({ vmName := "guest", deviceAlias := "memory0", compatibilityFingerprint := "",
     lastLatchClearReason := none } : Checkpoint).file control

theorem extended_accounted : ∃ ended result, ended ∈ extendedLabels.filterMap (writtenFile 0) ∧
    ended.control.journal = ⟨some exampleRemove, some result⟩ ∧ result.actualBytes = 2 ^ 30 := by
  obtain ⟨begins, hbegins, hfirst⟩ := @split_at _ _ (writtenFile 0) extendedLabels
    (exampleFile ⟨none, some ⟨"1-1", 100000, .shrink, 2 ^ 32, 2 ^ 32, 3 * 2 ^ 30⟩,
      ⟨some exampleRemove, none⟩⟩) 10 (by decide +kernel)
  obtain ⟨ends, hends, hsecond⟩ := @split_at _ _ (writtenFile 0) (extendedLabels.drop 11)
    (exampleFile ⟨none, none, ⟨some exampleRemove,
      some ⟨exampleRemove, .completed, 2 ^ 30, 100000, none⟩⟩⟩) 29 (by decide +kernel)
  cases writtenFile_eq_some hbegins
  cases writtenFile_eq_some hends
  have hrun := extended_run.1
  rw [hfirst, hsecond] at hrun
  obtain ⟨start, live, result, hstart, -, hlive, -, hjournal, hactual, -⟩ := executed_accounted hrun
    ⟨by decide +kernel, rfl, rfl⟩ rfl ⟨by decide +kernel, by decide +kernel, rfl, rfl⟩
  refine ⟨_, result, List.mem_filterMap.mpr ⟨_, ?_, hends⟩, hjournal, ?_⟩
  · rw [hfirst, hsecond]
    simp
  · rw [hactual]
    have hfour : start = exampleDevice (2 ^ 32) (2 ^ 32) := by
      apply Option.some.inj
      rw [← hstart]
      decide +kernel
    have hthree : live = exampleDevice (3 * 2 ^ 30 - 2 ^ 21) (3 * 2 ^ 30 - 2 ^ 21) := by
      apply Option.some.inj
      rw [← hlive]
      decide +kernel
    rw [hfour, hthree]
    rfl

end VirtioMem.Host
