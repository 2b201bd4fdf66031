import VirtioMem.Host.Devices

/-!
# A request is executed once

The journal is the host's watermark. Once its request was issued at or after `r`, and no command for
it is about to be sent, `r` is behind the host for good (`Passed`): nothing a lawful run does brings it
back. A resize puts its own request there, so no request is resized twice; and so does every result
that is in the journal, so what was published from there is final.

A refusal of a *new* request is only published. It leaves the journal alone, and the same request may
be admitted by a later round; `refusedThenResized` is such a run.
-/

namespace VirtioMem.Host

open VirtioMem.Core VirtioMem.Effect VirtioMem.Word

variable {pool : Option Nat} {configs : List HostConfig} {config : HostConfig} {W : HostWorld}
  {index : Nat} {labels : List Label} {process : Option HostRuntime} {request : MemoryRequest}
  {w : VmWorld}

/-- On whose behalf the VM is resized. -/
def resizeRequestOf (index : Nat) : Label → Option MemoryRequest
  | .event ⟨.vm other (.requestResize request _ _ _), _⟩ => if other = index then some request else none
  | _ => none

/-- The request is behind the journal: what the journal holds was issued later, or is about no command
still to be sent. -/
def Passed (request : MemoryRequest) (w : VmWorld) : Prop :=
  ∃ last, w.control.journal.request = some last ∧
    request.issuedUnixMillis ≤ last.issuedUnixMillis ∧
    (w.phase = .armed → request.issuedUnixMillis < last.issuedUnixMillis)

/-- A write keeps the journal's request and starts nothing, or moves on to one that is ahead. -/
theorem Writes.journalRequest {stage : Stage} {control : DurableControlState}
    (h : Writes config stage w control) :
    (control.journal.request = w.control.journal.request ∧
      (w.control.intent = none → control.intent = none)) ∨
    ∃ new, control.journal.request = some new ∧ w.control.journal.Ahead new := by
  cases h with
  | resolve _ _ _ _ _ _ _ _ hjournal => exact .inl ⟨(recorded hjournal).2.1, fun _ => rfl⟩
  | latch _ _ hjournal =>
      refine .inl ⟨?_, id⟩
      rcases hjournal with ⟨rfl, -⟩ | ⟨_, _, _, _, _, hrecord⟩
      · rfl
      · exact (recorded hrecord).2.1
  | begin _ _ _ _ _ _ _ _ hahead => exact .inr ⟨_, rfl, hahead⟩
  | release _ _ _ hjournal => exact .inl ⟨(recorded hjournal).2.1, fun _ => rfl⟩
  | unexecuted _ _ _ hahead _ hjournal => exact .inr ⟨_, (recorded hjournal).1, hahead⟩
  | extend _ _ hintent => exact .inl ⟨rfl, fun hidle => by rw [hidle] at hintent; cases hintent⟩
  | restore _ _ hintent => exact .inl ⟨rfl, fun hidle => by rw [hidle] at hintent; cases hintent⟩
  | settle _ _ hintent => exact .inl ⟨rfl, fun hidle => by rw [hidle] at hintent; cases hintent⟩

/-- A write that keeps the journal's request and starts nothing keeps what is behind it. -/
theorem Passed.persist {file : CheckpointFile} (h : Passed request w) (saved : Saved)
    (hrequest : file.control.journal.request = w.control.journal.request)
    (hidle : w.control.intent = none → file.control.intent = none) :
    Passed request (w.persist file saved) := by
  obtain ⟨last, hlast, hle, -⟩ := h
  refine ⟨last, ?_, hle, ?_⟩
  · rcases w.control_persist saved with hsame | hfile
    · rw [hsame]
      exact hlast
    · rw [hfile, hrequest]
      exact hlast
  · intro harmed
    obtain ⟨-, hnone, hsome⟩ := VmWorld.armed_persist harmed
    rw [hidle hnone] at hsome
    cases hsome

theorem Passed.other (h : Passed request w) {op : VmOp} (hop : ∀ file, op ≠ .persist file)
    (answer : VmAns op) : Passed request (w.next op answer) := by
  obtain ⟨last, hlast, hle, hlt⟩ := h
  refine ⟨last, ?_, hle, fun harmed => hlt (VmWorld.armed_next hop harmed)⟩
  rcases w.control_next answer with hsame | ⟨file, heq, -⟩
  · rw [hsame]
    exact hlast
  · exact absurd heq (hop file)

/-- **What is behind the journal stays behind**: one step. -/
theorem Passed.next {stage : Stage} {committed : Nat} {op : VmOp} (h : Passed request w)
    (hmay : w.May config stage committed op) (answer : VmAns op) :
    Passed request (w.next op answer) := by
  by_cases hop : ∃ file, op = .persist file
  swap
  · exact h.other (fun file heq => hop ⟨file, heq⟩) answer
  obtain ⟨file, rfl⟩ := hop
  rcases Writes.journalRequest hmay with ⟨hrequest, hidle⟩ | ⟨new, hnew, hahead⟩
  · exact h.persist answer hrequest hidle
  obtain ⟨last, hlast, hle, hlt⟩ := h
  have hlater := (hahead last hlast).1
  show Passed request (w.persist file answer)
  by_cases harmed : (w.persist file answer).phase = .armed
  · refine ⟨new, ?_, hle.trans hlater.le, fun _ => lt_of_le_of_lt hle hlater⟩
    rw [(VmWorld.armed_persist harmed).1]
    exact hnew
  rcases w.control_persist answer with hsame | hfile
  · exact ⟨last, by rw [hsame]; exact hlast, hle, fun h => absurd h harmed⟩
  · exact ⟨new, by rw [hfile]; exact hnew, hle.trans hlater.le, fun h => absurd h harmed⟩

theorem Passed.operate {op : VmOp} (h : Passed request w) (hinv : ControlInv w.control)
    (hmay : w.MayOperate op) (answer : VmAns op) : Passed request (w.next op answer) := by
  by_cases hop : ∃ file, op = .persist file
  swap
  · exact h.other (fun file heq => hop ⟨file, heq⟩) answer
  obtain ⟨file, rfl⟩ := hop
  obtain ⟨live, now, reason, journal, -, -, -, hcleared, hcontrol⟩ := hmay
  apply h.persist answer
  · rw [hcontrol]
    exact (hinv.of_cleared hcleared).2
  · intro _
    rw [hcontrol]

theorem Passed.restart (h : Passed request w) : Passed request w.restart := by
  obtain ⟨last, hlast, hle, -⟩ := h
  exact ⟨last, hlast, hle, nofun⟩

/-- A command is about the request in the journal, so never about one behind it. -/
theorem Passed.no_resize {stage : Stage} {committed target : Nat} {expected : VirtioMemState}
    {authorize : Authorization} (h : Passed request w) :
    ¬ w.May config stage committed (.requestResize request expected target authorize) := by
  intro hmay
  obtain ⟨harmed, -, -, -, -, hjournal, -⟩ := hmay
  obtain ⟨last, hlast, -, hlt⟩ := h
  rw [hjournal] at hlast
  cases hlast
  exact lt_irrefl _ (hlt harmed)

/-- A command puts its request behind the journal. -/
theorem Passed.of_resize {stage : Stage} {committed target : Nat} {expected : VirtioMemState}
    {authorize : Authorization}
    (hmay : w.May config stage committed (.requestResize request expected target authorize))
    (answer : VmAns (.requestResize request expected target authorize)) :
    Passed request (w.next (.requestResize request expected target authorize) answer) := by
  obtain ⟨-, -, -, -, -, hjournal, -⟩ := hmay
  refine ⟨request, congrArg MemoryRequestJournal.request hjournal, le_rfl, ?_⟩
  intro harmed
  change (if _ then Phase.rejected else Phase.idle) = .armed at harmed
  split at harmed <;> cases harmed

/-! ## Along a run -/

theorem resizeRequestOf_eq_some {label : Label} (h : resizeRequestOf index label = some request) :
    ∃ expected target authorize answer,
      label = .event ⟨.vm index (.requestResize request expected target authorize), answer⟩ := by
  unfold resizeRequestOf at h
  split at h
  · split_ifs at h with hindex
    cases h
    subst hindex
    exact ⟨_, _, _, _, rfl⟩
  · cases h

/-- A command of a run stands somewhere in it. -/
theorem Lawful.resized (h : Lawful pool configs W labels)
    (hmem : request ∈ labels.filterMap (resizeRequestOf index)) :
    ∃ before after expected target authorize answer, labels = before ++
        .event ⟨.vm index (.requestResize request expected target authorize), answer⟩ :: after ∧
      ∃ config stage committed, configs[index]? = some config ∧
        (HostWorld.after W before index).May config stage committed
          (.requestResize request expected target authorize) := by
  obtain ⟨label, hlabel, hresize⟩ := List.mem_filterMap.mp hmem
  obtain ⟨expected, target, authorize, answer, rfl⟩ := resizeRequestOf_eq_some hresize
  obtain ⟨before, after, rfl⟩ := List.append_of_mem hlabel
  exact ⟨before, after, expected, target, authorize, answer, rfl, (lawful_append.mp h).2.1.may⟩

/-- **No run resizes for what is behind the journal.** -/
theorem Lawful.not_resized (h : Lawful pool configs W labels) (hinv : ControlInv (W index).control)
    (hpassed : Passed request (W index)) : request ∉ labels.filterMap (resizeRequestOf index) := by
  intro hmem
  obtain ⟨before, after, expected, target, authorize, answer, rfl, config, stage, committed, -, hmay⟩ :=
    h.resized hmem
  have hkept := @Lawful.invariant _ _ _ index _
    (fun w => ControlInv w.control ∧ Passed request w) (fun _ h => ⟨h.1, h.2.restart⟩)
    (fun _ h => h) (fun _ _ _ _ _ answer _ h hmay => ⟨h.1.next hmay answer, h.2.next hmay answer⟩)
    (fun _ _ answer h hmay => ⟨h.1.operate hmay answer, h.2.operate h.1 hmay answer⟩)
    (lawful_append.mp h).1 ⟨hinv, hpassed⟩
  exact hkept.2.no_resize hmay

/-- **No request is resized for twice.** -/
theorem Lawful.resized_nodup (h : Lawful pool configs W labels) (hinv : ControlInv (W index).control) :
    (labels.filterMap (resizeRequestOf index)).Nodup := by
  induction labels generalizing W with
  | nil => exact List.nodup_nil
  | cons label labels ih =>
      have hfirst : Lawful pool configs W [label] := ⟨h.1, trivial⟩
      have hrest := ih h.2 (hfirst.controlInv hinv)
      cases hresize : resizeRequestOf index label with
      | none =>
          rw [List.filterMap_cons_none hresize]
          exact hrest
      | some request =>
          rw [List.filterMap_cons_some hresize]
          refine List.nodup_cons.mpr ⟨?_, hrest⟩
          obtain ⟨expected, target, authorize, answer, rfl⟩ := resizeRequestOf_eq_some hresize
          obtain ⟨config, stage, committed, -, hmay⟩ := h.1.may
          refine h.2.not_resized (hfirst.controlInv hinv) ?_
          rw [HostWorld.step_self]
          exact .of_resize hmay answer

/-- **At most one resize per request, and a sound record of it.** Over every run of the host, whatever
its operations are answered, however it is cut and restarted, and whatever the operator clears in
between, each VM is resized for a request at most once, and what is on disk always satisfies
`ControlInv`. -/
theorem resized_at_most_once (h : HostRun pool configs labels process) (index : Nat) :
    (labels.filterMap (resizeRequestOf index)).Nodup ∧
      ControlInv (HostWorld.after .initial labels index).control :=
  ⟨(hostRun_lawful h).1.resized_nodup controlInv_fresh,
    (hostRun_lawful h).1.controlInv controlInv_fresh⟩

/-! ## What was published -/

/-- The result that is published. -/
def publishedResult (index : Nat) : Label → Option MemoryResult
  | .event ⟨.vm other (.publishStatus status), _⟩ => if other = index then status.result else none
  | _ => none

/-- No later round can execute the request: the journal has covered it, it is no request for this VM
at any time, or this VM's requests are only observed. -/
def Final (config : HostConfig) (w : VmWorld) (request : MemoryRequest) : Prop :=
  (∃ last, w.control.journal.request = some last ∧
    request.issuedUnixMillis ≤ last.issuedUnixMillis) ∨
  (∀ now tolerance, request.validateAt config.vmName config.rawTelemetryServiceName now tolerance ≠
    .ok ()) ∨
  config.observeOnly = true

/-- The result in the journal is final. -/
theorem ControlInv.final (h : ControlInv w.control) {result : MemoryResult}
    (hresult : w.control.journal.result = some result) : Final config w result.request :=
  .inl ⟨result.request, h.own result hresult, le_rfl⟩

/-- **A published result is final** where it is the journal's, or its request can not come back: no
command is sent on its behalf later. -/
theorem published_final {before after : List Label} {status : HostMemoryStatus}
    {answer : VmAns (.publishStatus status)} {result : MemoryResult}
    (h : HostRun pool configs
      (before ++ .event ⟨.vm index (.publishStatus status), answer⟩ :: after) process)
    (hconfig : configs[index]? = some config) (hresult : status.result = some result)
    (hfinal : status.result = (HostWorld.after .initial before index).control.journal.result ∨
      Final config (HostWorld.after .initial before index) result.request) :
    result.request ∉ after.filterMap (resizeRequestOf index) := by
  obtain ⟨hbefore, hpublish, hafter⟩ := lawful_append.mp (hostRun_lawful h).1
  have hinv := @Lawful.controlInv _ _ _ index _ hbefore controlInv_fresh
  have hfinal : Final config (HostWorld.after .initial before index) result.request :=
    hfinal.elim (fun h => hinv.final (h ▸ hresult)) id
  obtain ⟨_, stage, committed, -, hphase⟩ := hpublish.may
  have hsame := @HostWorld.step_self index (HostWorld.after .initial before) _ answer
  have hinv' : ControlInv (HostWorld.step (HostWorld.after .initial before)
      (.event ⟨.vm index (.publishStatus status), answer⟩) index).control := by
    rw [hsame]
    exact hinv
  rcases hfinal with ⟨last, hlast, hle⟩ | hrefused
  · apply hafter.not_resized hinv'
    rw [hsame]
    refine ⟨last, hlast, hle, ?_⟩
    intro harmed
    exact absurd (hphase.symm.trans harmed) nofun
  · -- The command itself would need a valid request and a VM that is not only observed.
    intro hmem
    obtain ⟨_, _, _, _, _, _, -, config', _, _, hconfig', hmay⟩ := hafter.resized hmem
    rw [hconfig] at hconfig'
    cases hconfig'
    obtain ⟨-, hactive, -, -, -, -, -, ⟨now, tolerance, hvalid⟩, -⟩ := hmay
    rcases hrefused with hinvalid | hobserved
    · exact hinvalid now tolerance hvalid
    · rw [hactive] at hobserved
      cases hobserved

/-! ## Examples

A request that is issued beyond what the host tolerates is refused at first; the refusal is published,
and once the clock has caught up, the request is executed. A request that nothing is free for gets a
result in the journal instead, which is only published again. -/

theorem publishedResult_split {result : MemoryResult} (k : Nat)
    (h : labels[k]?.bind (publishedResult index) = some result) :
    ∃ status answer, status.result = some result ∧ labels = labels.take k ++
      .event ⟨.vm index (.publishStatus status), answer⟩ :: labels.drop (k + 1) := by
  obtain ⟨label, hpublished, hsplit⟩ := split_at k h
  unfold publishedResult at hpublished
  split at hpublished
  · split_ifs at hpublished with hindex
    subst hindex
    exact ⟨_, _, hpublished, hsplit⟩
  · cases hpublished

/-- At 90 s the request is from the future, at 100 s it is not. -/
def refusedThenResized : List Script :=
  [{ exampleScript (examplePublication (6 * 2 ^ 30) exampleAdd) with unixMillis := 90000 },
    exampleScript (examplePublication (6 * 2 ^ 30) exampleAdd)]

def refusedThenResizedLabels : List Label :=
  [.started] ++ (Script.rounds refusedThenResized exampleRuntime
    fun _ => exampleDevice (2 ^ 31) (2 ^ 31)).1

theorem refusedThenResized_run :
    ∃ process, HostRun none [exampleConfig] refusedThenResizedLabels process :=
  ⟨_, (Script.playable_run exampleRuntime_run (by decide +kernel)).1⟩

theorem refusedThenResized_once :
    refusedThenResizedLabels.filterMap (resizeRequestOf 0) = [exampleAdd] ∧
      (refusedThenResizedLabels.filterMap (resizeRequestOf 0)).Nodup ∧
      ControlInv (HostWorld.after .initial refusedThenResizedLabels 0).control := by
  obtain ⟨process, hrun⟩ := refusedThenResized_run
  exact ⟨by decide +kernel, resized_at_most_once hrun 0⟩

/-- **Not every published terminal result is final.** -/
theorem refusal_not_final : ¬ ∀ (pool : Option Nat) (configs : List HostConfig)
    (before after : List Label) (index : Nat) (status : HostMemoryStatus)
    (answer : VmAns (.publishStatus status)) (result : MemoryResult) (process : Option HostRuntime),
    HostRun pool configs
      (before ++ .event ⟨.vm index (.publishStatus status), answer⟩ :: after) process →
    status.result = some result → result.terminal = true →
    result.request ∉ after.filterMap (resizeRequestOf index) := by
  intro hclaim
  obtain ⟨process, hrun⟩ := refusedThenResized_run
  obtain ⟨status, answer, hresult, hsplit⟩ := @publishedResult_split 0 refusedThenResizedLabels
    (.rejected exampleAdd 90000 "memory request is expired or from the future") 7 (by decide +kernel)
  rw [hsplit] at hrun
  exact hclaim _ _ _ _ _ _ _ _ _ hrun hresult rfl (by decide +kernel)

/-- Nothing is free for the request, in two rounds. -/
def poolEmpty : List Script := List.replicate 2
  { exampleScript (examplePublication (6 * 2 ^ 30) exampleAdd) with availableBytes := 0 }

def poolEmptyLabels : List Label :=
  [.started] ++ (Script.rounds poolEmpty exampleRuntime fun _ => exampleDevice (2 ^ 31) (2 ^ 31)).1

theorem poolEmpty_final : exampleAdd ∉ (poolEmptyLabels.drop 13).filterMap (resizeRequestOf 0) := by
  have hrun : HostRun none [exampleConfig] poolEmptyLabels _ :=
    (Script.playable_run exampleRuntime_run (by decide +kernel)).1
  obtain ⟨status, answer, hresult, hsplit⟩ := @publishedResult_split 0 poolEmptyLabels
    (VmController.nothingGranted exampleAdd 100000) 12 (by decide +kernel)
  rw [hsplit] at hrun
  refine published_final hrun rfl hresult (.inl ?_)
  rw [hresult]
  decide +kernel

end VirtioMem.Host
