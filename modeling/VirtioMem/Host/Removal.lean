import VirtioMem.Host.Accounting
import VirtioMem.Host.WriteAhead

/-!
# How far a removal may go

A removal is asked to take `b` bytes from the allocation `c` it starts from, so the device should never
come below `c - b`, nor below what leaves the guest its minimum. The command itself respects both, and
so does every settlement, which asks for what is plugged. As long as no more than that is asked of the
device, it stays above that floor until the request is resolved (`removal_bounded`).

An extension asks for less than the goal, to move a stalled driver on, and relies on being settled in
time. The guest need not wait for that: `extendedLabels` is such a run, and since the result counts at
most what was asked, it does not show there.
-/

namespace VirtioMem.Host

open VirtioMem.Core VirtioMem.Effect VirtioMem.Word

variable {pool : Option Nat} {configs : List HostConfig} {config : HostConfig} {index : Nat}
  {process : Option HostRuntime} {request : MemoryRequest} {w : VmWorld} {d d' : VirtioMemState}
  {low : Nat} {stage : Stage} {committed : Nat}

/-- The journal holds the request, and no terminal result for it. -/
def Unresolved (request : MemoryRequest) (w : VmWorld) : Prop :=
  w.control.journal.request = some request ∧
    ∀ result, w.control.journal.result = some result → result.terminal = false

theorem Unresolved.of_journal (h : w.control.journal = ⟨some request, none⟩) : Unresolved request w := by
  unfold Unresolved
  rw [h]
  exact ⟨rfl, nofun⟩

/-- Every retarget asks for what is plugged, or is refused. -/
def notExtending : (op : VmOp) → VmAns op → Prop
  | .retargetPending expected target, answer =>
      target = expected.currentBytes ∨ VmWorld.refused answer = true
  | _, _ => True

/-! ## The reading agrees with the device -/

/-- The device has moved on from the last reading of this round at most by itself. -/
def Agrees (w : VmWorld) (d : VirtioMemState) : Prop :=
  w.fresh = true → ∃ live, w.live = some live ∧ Drifts live d

theorem Agrees.other {w' : VmWorld} (h : Agrees w d) (hfresh : w'.fresh = w.fresh)
    (hlive : w'.live = w.live) : Agrees w' d := by
  unfold Agrees
  rw [hfresh, hlive]
  exact h

theorem Agrees.read (h : Agrees w d) {answer : Except String VirtioMemState}
    (hanswer : ∀ state, answer = .ok state → state = d) : Agrees (w.read answer) d := by
  rcases w.read_cases answer with hread | ⟨state, hok, -, hread⟩
  · rw [hread]
    exact h.other rfl rfl
  · cases hanswer state hok
    rw [hread]
    exact fun _ => ⟨d, rfl, .refl _⟩

theorem Agrees.drift (h : Agrees w d) (hdrifts : Drifts d d') : Agrees w d' := by
  intro hfresh
  obtain ⟨live, hlive, hlast⟩ := h hfresh
  exact ⟨live, hlive, hlast.trans hdrifts⟩

/-- After a command the reading stands only if it was refused. -/
theorem Agrees.command (h : Agrees w d) {answer : Except ResizeSinkError Unit} {target : Nat}
    (happlies : Applies d target answer d') {w' : VmWorld}
    (hfresh : w'.fresh = (w.fresh && VmWorld.refused answer)) (hlive : w'.live = w.live) :
    Agrees w' d' := by
  intro hread
  rw [hfresh, Bool.and_eq_true] at hread
  rw [happlies.refused hread.2, hlive]
  exact h hread.1

/-- A converged device was read as it is, so widening it leaves it as it is. -/
theorem Agrees.widen (h : Agrees w d) {expected : VirtioMemState} {answer : Except ResizeSinkError Unit}
    (hlive : w.live = some expected) (hfresh : w.fresh = true)
    (hconverged : expected.requestedBytes = expected.currentBytes)
    (hwidens : Widens d expected answer d') : Agrees (w.widen answer) d' := by
  obtain ⟨rfl, -⟩ := still_of_read h hfresh hlive hconverged
  match answer with
  | .ok () =>
      cases hwidens
      exact h
  | .error (.rejected _) =>
      cases hwidens
      exact h
  | .error (.commandUnknown _) => exact nofun

/-- **The reading agrees with the device over every run**, widenings included. -/
theorem agrees_keptBy : KeptBy configs index (fun _ _ => True) Agrees where
  drift _ _ _ h hdrifts := h.drift hdrifts
  restart _ _ _ := nofun
  stale _ _ _ := nofun
  next _ _ _ w _ op answer _ _ h hmay _ hanswers := by
    cases op with
    | memoryState =>
        obtain ⟨rfl, htrue⟩ := hanswers
        exact h.read htrue
    | persist file =>
        cases hanswers
        exact h.other (by exact w.persist_fresh file answer) (by exact w.persist_live file answer)
    | requestResize _ _ target _ => exact h.command hanswers rfl rfl
    | retargetPending _ target => exact h.command hanswers rfl rfl
    | widenUsableRegion expected =>
        obtain ⟨-, hlive, hfresh, hconverged, -⟩ := hmay
        exact h.widen hlive hfresh hconverged hanswers
    | _ =>
        cases hanswers
        exact h
  operate w _ op answer _ h hmay hanswers := by
    cases op with
    | memoryState =>
        obtain ⟨rfl, htrue⟩ := hanswers
        exact h.read htrue
    | persist file =>
        cases hanswers
        exact h.other (by exact w.persist_fresh file answer) (by exact w.persist_live file answer)
    | retargetPending _ target => exact h.command hanswers rfl rfl
    | nowUnixMillis =>
        cases hanswers
        exact h
    | _ => cases hmay

/-! ## The floor of a removal -/

/-- The device is above the floor, and so is everything it may still be asked to go to. -/
structure Bounds (low : Nat) (w : VmWorld) (d : VirtioMemState) : Prop where
  current : low ≤ d.currentBytes
  requested : low ≤ d.requestedBytes
  read : w.fresh = true → ∀ live, w.live = some live → low ≤ live.currentBytes

theorem Bounds.drift (h : Bounds low w d) (hdrifts : Drifts d d') : Bounds low w d' := by
  obtain ⟨-, -, hrequested, hcurrent⟩ := hdrifts
  have hlow := h.current
  have hlow' := h.requested
  exact ⟨by omega, by omega, h.read⟩

theorem Bounds.other {w' : VmWorld} (h : Bounds low w d) (hfresh : w'.fresh = w.fresh)
    (hlive : w'.live = w.live) : Bounds low w' d :=
  ⟨h.current, h.requested, by rw [hfresh, hlive]; exact h.read⟩

theorem Bounds.readDevice (h : Bounds low w d) {answer : Except String VirtioMemState}
    (hanswer : ∀ state, answer = .ok state → state = d) : Bounds low (w.read answer) d := by
  rcases w.read_cases answer with hread | ⟨state, hok, -, hread⟩
  · rw [hread]
    exact h.other rfl rfl
  · cases hanswer state hok
    rw [hread]
    exact ⟨h.current, h.requested, by rintro _ _ ⟨⟩; exact h.current⟩

/-- A command to no less than the floor keeps it, and one that was refused. -/
theorem Bounds.command (h : Bounds low w d) {answer : Except ResizeSinkError Unit} {target : Nat}
    (happlies : Applies d target answer d')
    (htarget : low ≤ target ∨ VmWorld.refused answer = true) {w' : VmWorld}
    (hfresh : w'.fresh = (w.fresh && VmWorld.refused answer)) (hlive : w'.live = w.live) :
    Bounds low w' d' := by
  have hread : w'.fresh = true → ∀ live, w'.live = some live → low ≤ live.currentBytes := by
    intro hread
    rw [hfresh, Bool.and_eq_true] at hread
    rw [hlive]
    exact h.read hread.1
  rcases htarget with htarget | hrefused
  · match answer with
    | .ok () =>
        cases happlies
        exact ⟨h.current, htarget, hread⟩
    | .error (.rejected _) =>
        cases happlies
        exact ⟨h.current, h.requested, hread⟩
    | .error (.commandUnknown _) =>
        rcases happlies with rfl | rfl
        · exact ⟨h.current, h.requested, hread⟩
        · exact ⟨h.current, htarget, hread⟩
  · cases happlies.refused hrefused
    exact ⟨h.current, h.requested, hread⟩

/-- **While the request is open, no step but an extension takes the device below the floor.** -/
theorem Bounds.next {op : VmOp} {answer : VmAns op} (h : Bounds low w d) (hinv : ControlInv w.control)
    (hpassed : Passed request w) (hopen : Unresolved request w)
    (hmay : w.May config stage committed op) (hallow : notExtending op answer)
    (hanswers : Answers d op answer d') : Bounds low (w.next op answer) d' := by
  cases op with
  | memoryState =>
      obtain ⟨rfl, htrue⟩ := hanswers
      exact h.readDevice htrue
  | persist file =>
      cases hanswers
      exact h.other (w.persist_fresh file answer) (w.persist_live file answer)
  | requestResize other expected target authorize =>
      -- The request was resized for already, and another one is not in the journal.
      have hsame : other = request := by
        obtain ⟨-, -, -, -, -, hjournal, -⟩ := hmay
        have hheld := hopen.1
        rw [hjournal] at hheld
        exact Option.some.inj hheld
      subst hsame
      exact absurd hmay hpassed.no_resize
  | retargetPending expected target =>
      obtain ⟨-, hlive, hfresh, -⟩ := hmay
      refine h.command hanswers ?_ rfl rfl
      rcases hallow with rfl | hrefused
      · exact .inl (h.read hfresh expected hlive)
      · exact .inr hrefused
  | widenUsableRegion expected =>
      -- Nothing is widened while a command is recorded.
      obtain ⟨-, -, -, -, hidle⟩ := hmay
      obtain ⟨result, hresult, hterminal⟩ := hinv.settled hidle request hopen.1
      rw [hopen.2 result hresult] at hterminal
      cases hterminal
  | _ =>
      cases hanswers
      exact h.other rfl rfl

theorem Bounds.operate {op : VmOp} {answer : VmAns op} (h : Bounds low w d) (hmay : w.MayOperate op)
    (hanswers : Answers d op answer d') : Bounds low (w.next op answer) d' := by
  cases op with
  | memoryState =>
      obtain ⟨rfl, htrue⟩ := hanswers
      exact h.readDevice htrue
  | nowUnixMillis =>
      cases hanswers
      exact h.other rfl rfl
  | persist file =>
      cases hanswers
      exact h.other (w.persist_fresh file answer) (w.persist_live file answer)
  | retargetPending expected target =>
      obtain ⟨hlive, hfresh, -, rfl⟩ := hmay
      exact h.command hanswers (.inl (h.read hfresh expected hlive)) rfl rfl
  | _ => cases hmay

/-! ## From the command to its resolution -/

/-- A write leaves a request unresolved only if it was so before: the request's own results are
terminal, and a new request takes its place for good. -/
theorem Unresolved.before {file : CheckpointFile} {saved : Saved} (hpassed : Passed request w)
    (hwrites : Writes config stage w file.control)
    (h : Unresolved request (w.persist file saved)) : Unresolved request w := by
  rcases w.control_persist saved with hsame | hfile
  · unfold Unresolved at h ⊢
    rw [hsame] at h
    exact h
  unfold Unresolved at h
  rw [hfile] at h
  have hcases := hwrites
  obtain ⟨hrequest, hresult⟩ := h
  generalize file.control = control at hcases hrequest hresult
  -- A request that is ahead of the journal is not the one that is behind it.
  have hovertaken : ∀ new, w.control.journal.Ahead new → new ≠ request := by
    rintro new hahead rfl
    obtain ⟨last, hlast, hle, -⟩ := hpassed
    exact absurd (hahead last hlast).1 (not_lt.mpr hle)
  -- A terminal result that was recorded is there.
  have hended : ∀ {journal after : MemoryRequestJournal} {result : MemoryResult},
      journal.recordResult result = (.ok (), after) → result.terminal = true →
      (∀ kept, after.result = some kept → kept.terminal = false) → False := by
    intro journal after result hrecord hterminal hopen
    obtain ⟨-, -, kept, hkept, houtcome, -⟩ := recorded hrecord
    have hkeptterminal := hopen kept hkept
    rw [MemoryResult.terminal, houtcome, ← MemoryResult.terminal, hterminal] at hkeptterminal
    cases hkeptterminal
  cases hcases with
  | resolve _ _ _ _ _ _ _ hmeasured hjournal =>
      exact (hended hjournal (movementResult_eq_some hmeasured).2 hresult).elim
  | latch _ _ hjournal =>
      rcases hjournal with ⟨rfl, -⟩ | ⟨other, now, reason, hheld, hnone, hrecord⟩
      · exact ⟨hrequest, hresult⟩
      · have hkept : w.control.journal.request = some request :=
          (recorded hrecord).2.1.symm.trans hrequest
        exact ⟨hkept, fun result h => by rw [hnone] at h; cases h⟩
  | begin _ _ _ _ _ _ _ _ hahead =>
      exact absurd (Option.some.inj hrequest) (hovertaken _ hahead)
  | release _ _ _ hjournal => exact (hended hjournal rfl hresult).elim
  | unexecuted _ _ _ _ hterminal hjournal => exact (hended hjournal hterminal hresult).elim
  | extend => exact ⟨hrequest, hresult⟩
  | restore => exact ⟨hrequest, hresult⟩
  | settle => exact ⟨hrequest, hresult⟩

/-- What is kept from the command on: as long as the request is open, the device is above the floor. -/
structure Removing (request : MemoryRequest) (low : Nat) (w : VmWorld) (d : VirtioMemState) :
    Prop where
  inv : ControlInv w.control
  passed : Passed request w
  bounds : Unresolved request w → Bounds low w d

/-- **Every step but an extension keeps a removal above its floor.** -/
theorem removing_keptBy : KeptBy configs index notExtending (Removing request low) where
  drift _ _ _ h hdrifts := ⟨h.inv, h.passed, fun hopen => (h.bounds hopen).drift hdrifts⟩
  restart _ _ h := ⟨h.inv, h.passed.restart, fun hopen =>
    ⟨(h.bounds hopen).current, (h.bounds hopen).requested, nofun⟩⟩
  stale _ _ h := ⟨h.inv, h.passed, fun hopen =>
    ⟨(h.bounds hopen).current, (h.bounds hopen).requested, nofun⟩⟩
  next config _ _ w _ op answer _ _ h hmay hallow hanswers := by
    refine ⟨h.inv.next hmay answer, h.passed.next hmay answer, fun hopen => ?_⟩
    have hbefore : Unresolved request w := by
      by_cases hop : ∃ file, op = .persist file
      · obtain ⟨file, rfl⟩ := hop
        exact Unresolved.before h.passed hmay hopen
      · rcases w.control_next answer with hsame | ⟨file, rfl, -⟩
        · unfold Unresolved at hopen ⊢
          rw [hsame] at hopen
          exact hopen
        · exact absurd ⟨file, rfl⟩ hop
    exact (h.bounds hbefore).next h.inv h.passed hbefore hmay hallow hanswers
  operate w _ op answer _ h hmay hanswers := by
    refine ⟨h.inv.operate hmay answer, h.passed.operate h.inv hmay answer, fun hopen => ?_⟩
    rcases w.control_next answer with hsame | ⟨file, rfl, hfile⟩
    · refine (h.bounds ?_).operate hmay hanswers
      unfold Unresolved at hopen ⊢
      rw [hsame] at hopen
      exact hopen
    · -- What is cleared is settled.
      have hinv := h.inv.operate hmay answer
      obtain ⟨live, now, reason, journal, -, -, -, -, hcontrol⟩ := hmay
      obtain ⟨result, hresult, hterminal⟩ := hinv.settled (by rw [hfile, hcontrol]) request hopen.1
      rw [hopen.2 result hresult] at hterminal
      cases hterminal

/-- The floor of a removal as the host computed it: what was asked below the start, and the guest's
minimum over the memory that is not the device's. -/
def removalFloor (config : HostConfig) (request : MemoryRequest) (started totalBytes : Nat) : Nat :=
  max (started - request.bytes) ((config.minRam : Nat) - (totalBytes - started))

/-- The command itself respects the floor. -/
theorem Bounds.of_resize {expected : VirtioMemState} {target : Nat} {authorize : Authorization}
    {envelope : RawTelemetryEnvelope} (hagrees : Agrees w d)
    (hmay : w.May config stage committed (.requestResize request expected target authorize))
    (hguest : w.guest = some envelope) (hremove : request.operation = .remove)
    {answer : VmAns (.requestResize request expected target authorize)}
    (hanswers : Answers d (.requestResize request expected target authorize) answer d') :
    Bounds (removalFloor config request expected.currentBytes envelope.memory.physicalTotalBytes)
      (w.next (.requestResize request expected target authorize) answer) d' := by
  obtain ⟨-, -, hlive, hfresh, hconverged, -, -, -, -, other, ceiling, hother, -, hgranted⟩ := hmay
  rw [hguest] at hother
  cases hother
  obtain ⟨hlower, hbytes, hminimum⟩ := hgranted.remove hremove
  have hstill := (still_of_read hagrees hfresh hlive hconverged).1
  subst hstill
  have hfloor : removalFloor config request d.currentBytes envelope.memory.physicalTotalBytes ≤
      target := by
    unfold removalFloor
    omega
  have hbounds : Bounds (removalFloor config request d.currentBytes
      envelope.memory.physicalTotalBytes) w d := by
    refine ⟨by omega, by omega, ?_⟩
    intro _ live hread
    rw [hlive] at hread
    cases hread
    omega
  exact hbounds.command hanswers (.inl hfloor) rfl rfl

/-- Writes do not touch the device. -/
theorem Bounds.writes {D D' : Devices} {last : List Label}
    (hlast : ∀ label ∈ last, ∃ file saved, label = .event ⟨.vm index (.persist file), saved⟩)
    (hfollows : Follows D last D') (h : Bounds low w (D index)) : Bounds low w (D' index) := by
  induction hfollows with
  | done hdrifts => exact h.drift (hdrifts index)
  | @label D D₁ D₂ D' label labels hdrifts hobeys _ ih =>
      obtain ⟨file, saved, rfl⟩ := hlast label List.mem_cons_self
      refine ih (fun label hmem => hlast label (List.mem_cons_of_mem _ hmem)) ?_
      cases hobeys with
      | event hanswers =>
          cases hanswers
          rw [Function.update_self]
          exact h.drift (hdrifts index)

/-- **A removal that is not extended takes no more than was asked.** From the command on, over every run
and every device that follows it, the device stays above the floor as long as the request is unresolved,
and still while its resolution is written. -/
theorem removal_bounded {labels before mid last : List Label} {expected : VirtioMemState} {target : Nat}
    {authorize : Authorization} {answer : VmAns (.requestResize request expected target authorize)}
    {envelope : RawTelemetryEnvelope} {D D' : Devices} (h : HostRun pool configs labels process)
    (hlabels : labels = before ++
      .event ⟨.vm index (.requestResize request expected target authorize), answer⟩ :: (mid ++ last))
    (hconfig : configs[index]? = some config)
    (hguest : (HostWorld.after .initial before index).guest = some envelope)
    (hremove : request.operation = .remove) (hanswered : Answered index notExtending mid)
    (hopen : Unresolved request (HostWorld.after .initial (before ++
      .event ⟨.vm index (.requestResize request expected target authorize), answer⟩ :: mid) index))
    (hlast : ∀ label ∈ last, ∃ file saved, label = .event ⟨.vm index (.persist file), saved⟩)
    (hfollows : Follows D labels D') :
    removalFloor config request expected.currentBytes envelope.memory.physicalTotalBytes ≤
      (D' index).currentBytes := by
  subst hlabels
  obtain ⟨hbefore, hcommand, hrest⟩ := lawful_append.mp (hostRun_lawful h).1
  obtain ⟨other, stage, committed, hother, hmay⟩ := hcommand.may
  rw [hconfig] at hother
  cases hother
  obtain ⟨D₁, hfirst, hsecond⟩ := follows_append.mp hfollows
  obtain ⟨D₂, hbegun, hthird⟩ := follows_append.mp (List.singleton_append ▸ hsecond)
  obtain ⟨D₃, hmid, hend⟩ := follows_append.mp hthird
  have hagrees : Agrees (HostWorld.after .initial before index) (D₁ index) :=
    agrees_keptBy.follows hbefore (fun _ _ _ => trivial) hfirst nofun
  have hinv : ControlInv (HostWorld.after .initial before index).control :=
    hbefore.controlInv controlInv_fresh
  -- Behind the command the device is above the floor.
  have hbegan : Removing request
      (removalFloor config request expected.currentBytes envelope.memory.physicalTotalBytes)
      ((HostWorld.after .initial before index).next (.requestResize request expected target authorize)
        answer) (D₂ index) := by
    refine ⟨hinv.next hmay answer, .of_resize hmay answer, fun _ => ?_⟩
    cases hbegun with
    | label hdrifts hobeys hdone =>
        cases hobeys with
        | event hanswers =>
            cases hdone with
            | done hdrifts' =>
                have hbounds := Bounds.of_resize (hagrees.drift (hdrifts index)) hmay
                  hguest hremove hanswers
                refine Bounds.drift ?_ (hdrifts' index)
                rw [Function.update_self]
                exact hbounds
  have hkept := (@removing_keptBy configs index request _).follows
    (W := HostWorld.step (HostWorld.after .initial before)
      (.event ⟨.vm index (.requestResize request expected target authorize), answer⟩))
    (lawful_append.mp hrest).1 hanswered hmid (by rw [HostWorld.step_self]; exact hbegan)
  rw [HostWorld.after_append] at hopen
  exact ((hkept.bounds hopen).writes hlast hend).current

/-! ## A removal with and without its extension -/

/-- The removal before its extension. -/
def stalled : List Label × HostRuntime × Devices :=
  Script.rounds (extendedRemoval.take 2) exampleRuntime fourGiB

/-- The removal up to its extension. -/
def extending : List Label × HostRuntime × Devices :=
  Script.rounds (extendedRemoval.take 3) exampleRuntime fourGiB

def stalledLabels : List Label := [.started] ++ stalled.1

def extendingLabels : List Label := [.started] ++ extending.1

theorem stalled_run : HostRun none [exampleConfig] stalledLabels (some stalled.2.1) ∧
    Follows fourGiB stalled.1 stalled.2.2 :=
  Script.playable_run exampleRuntime_run (by decide +kernel)

theorem extending_run : HostRun none [exampleConfig] extendingLabels (some extending.2.1) ∧
    Follows fourGiB extending.1 extending.2.2 :=
  Script.playable_run exampleRuntime_run (by decide +kernel)

/-- The command of the removal. -/
def removeCommand : Command :=
  .resize exampleRemove (exampleDevice (2 ^ 32) (2 ^ 32)) (3 * 2 ^ 30) ⟨2 ^ 32, 3 * 2 ^ 30, 0, 0⟩

theorem stalled_bounded : 3 * 2 ^ 30 ≤ (stalled.2.2 0).currentBytes := by
  obtain ⟨hrun, hfollows⟩ := stalled_run
  have hfollows' : Follows fourGiB stalledLabels stalled.2.2 :=
    .label (fun _ => .refl _) .started hfollows
  obtain ⟨answer, hsplit⟩ := @command_split 0 stalledLabels removeCommand 11
    (by decide +kernel)
  have hopen : Unresolved exampleRemove (HostWorld.after .initial stalledLabels 0) :=
    .of_journal (by decide +kernel)
  have hend : stalledLabels = stalledLabels.take 11 ++ .event ⟨.vm 0 removeCommand.op, answer⟩ ::
      (stalledLabels.drop (11 + 1) ++ []) := by
    rw [List.append_nil]
    exact hsplit
  have hguest : (HostWorld.after .initial (stalledLabels.take 11) 0).guest =
      some (examplePublication (8 * 2 ^ 30) exampleRemove) := by decide +kernel
  -- Nothing is retargeted in this run.
  have hanswered : Answered 0 notExtending (stalledLabels.drop (11 + 1)) := by
    intro op answer hmem
    have hnever : (stalledLabels.drop (11 + 1)).all
        (fun label => !label.command.any (·.2.isRetarget)) = true := by decide +kernel
    have hlabel := List.all_eq_true.mp hnever _ hmem
    cases op with
    | retargetPending expected target => cases hlabel
    | _ => trivial
  rw [hsplit] at hopen
  have hlast : ∀ label ∈ ([] : List Label), ∃ file saved,
      label = .event ⟨.vm 0 (.persist file), saved⟩ := fun _ hmem => absurd hmem List.not_mem_nil
  exact le_of_eq_of_le (by decide +kernel)
    (removal_bounded hrun hend rfl hguest rfl hanswered hopen hlast hfollows')

/-- **An extension takes more than was asked.** The guest releases a block more than 1 GiB while the
request is unresolved. -/
theorem extension_unbounded : ¬ ∀ (pool : Option Nat) (configs : List HostConfig)
    (config : HostConfig) (index : Nat) (process : Option HostRuntime) (request : MemoryRequest)
    (before mid : List Label) (expected : VirtioMemState) (target : Nat) (authorize : Authorization)
    (answer : VmAns (.requestResize request expected target authorize))
    (envelope : RawTelemetryEnvelope) (D D' : Devices),
    HostRun pool configs (before ++
      .event ⟨.vm index (.requestResize request expected target authorize), answer⟩ :: mid) process →
    configs[index]? = some config →
    (HostWorld.after .initial before index).guest = some envelope →
    request.operation = .remove →
    Unresolved request (HostWorld.after .initial (before ++
      .event ⟨.vm index (.requestResize request expected target authorize), answer⟩ :: mid) index) →
    Follows D (before ++
      .event ⟨.vm index (.requestResize request expected target authorize), answer⟩ :: mid) D' →
    removalFloor config request expected.currentBytes envelope.memory.physicalTotalBytes ≤
      (D' index).currentBytes := by
  intro hclaim
  obtain ⟨hrun, hfollows⟩ := extending_run
  -- The device comes down to what the extension has asked for.
  have hreleased : ∀ index, Drifts (extending.2.2 index) (Function.update extending.2.2 0
      (exampleDevice (3 * 2 ^ 30 - 2 ^ 21) (3 * 2 ^ 30 - 2 ^ 21)) index) := by
    intro index
    by_cases hindex : index = 0
    · subst hindex
      decide +kernel
    · rw [Function.update_of_ne hindex]
      exact .refl _
  have hfollows' : Follows fourGiB extendingLabels (Function.update extending.2.2 0
      (exampleDevice (3 * 2 ^ 30 - 2 ^ 21) (3 * 2 ^ 30 - 2 ^ 21))) := by
    rw [← List.append_nil extendingLabels]
    exact follows_append.mpr ⟨_, .label (fun _ => .refl _) .started hfollows, .done hreleased⟩
  have hopen : Unresolved exampleRemove (HostWorld.after .initial extendingLabels 0) :=
    .of_journal (by decide +kernel)
  obtain ⟨answer, hsplit⟩ := @command_split 0 extendingLabels removeCommand 11 (by decide +kernel)
  rw [hsplit] at hrun hfollows' hopen
  have hfloor := hclaim _ _ exampleConfig 0 _ _ _ _ _ _ _ _
    (examplePublication (8 * 2 ^ 30) exampleRemove) _ _ hrun rfl (by decide +kernel) rfl
    hopen hfollows'
  rw [Function.update_self] at hfloor
  exact absurd hfloor (by decide +kernel)

end VirtioMem.Host
