import VirtioMem.Host.Charges

/-!
# The host does what it was asked

What a run of the host owes to the publications it read. A device is resized for a request only after
a publication with that request was read (`Lawful.read_before`), and for later and later requests
(`Lawful.resized_later`). A device is never told to grow but by such a resize, so all a VM can have
gained is what it was resized for (`Lawful.grown`).
-/

namespace VirtioMem.Host

open VirtioMem.Core VirtioMem.Effect VirtioMem.Word

variable {pool : Option Nat} {configs : List HostConfig} {config : HostConfig} {W : HostWorld}
  {index : Nat} {labels : List Label} {label : Label} {process : Option HostRuntime}
  {request later : MemoryRequest} {w : VmWorld} {stage : Stage} {committed : Nat}
  {envelope : RawTelemetryEnvelope} {D D' : Devices} {d d' : VirtioMemState} {bound : Nat}

/-! ## What was read before -/

/-- Only a reading of the guest makes a publication the last one. -/
theorem VmWorld.guest_next {op : VmOp} (answer : VmAns op)
    (h : (w.next op answer).guest = some envelope) :
    w.guest = some envelope ∨ (⟨op, answer⟩ : Event VmAns) = ⟨.readGuest, .ok envelope⟩ := by
  cases op with
  | readGuest =>
      change answer.toOption = some envelope at h
      cases answer with
      | error => cases h
      | ok read =>
          cases h
          exact .inr rfl
  | memoryState =>
      rcases w.read_cases answer with hread | ⟨_, -, -, hread⟩ <;>
      · change (w.read answer).guest = _ at h
        rw [hread] at h
        exact .inl h
  | persist file =>
      left
      change (w.persist file answer).guest = _ at h
      match answer, h with
      | .written, h | .failed _ true, h | .failed _ false, h => exact h
  | widenUsableRegion expected =>
      left
      change (w.widen answer).guest = _ at h
      unfold VmWorld.widen at h
      split at h <;> exact h
  | _ => exact .inl h

theorem HostWorld.step_event (W : HostWorld) {vm : Nat} {op : VmOp} (answer : VmAns op) :
    HostWorld.step W (.event ⟨.vm vm op, answer⟩) = Function.update W vm ((W vm).next op answer) :=
  rfl

theorem HostWorld.step_operated (W : HostWorld) {vm : Nat} {op : VmOp} (answer : VmAns op) :
    HostWorld.step W (.operated vm ⟨op, answer⟩) = Function.update W vm ((W vm).next op answer) :=
  rfl

/-- **A publication that a command rests on was read before.** -/
theorem Lawful.read_before (h : Lawful pool configs .initial labels)
    (hguest : (HostWorld.after .initial labels index).guest = some envelope) :
    .event ⟨.vm index .readGuest, .ok envelope⟩ ∈ labels := by
  induction labels using List.reverseRecOn with
  | nil => cases hguest
  | append_singleton labels label ih =>
      obtain ⟨hbefore, hallowed, -⟩ := lawful_append.mp h
      have hkept : (HostWorld.after .initial labels index).guest = some envelope →
          .event ⟨.vm index .readGuest, .ok envelope⟩ ∈ labels ++ [label] :=
        fun hsame => List.mem_append_left _ (ih hbefore hsame)
      rw [HostWorld.after_append] at hguest
      change (HostWorld.step (HostWorld.after .initial labels) label index).guest = _ at hguest
      cases label with
      | started => cases hguest
      | round => exact hkept hguest
      | event event =>
          obtain ⟨_ | ⟨vm, op⟩, answer⟩ := event
          · exact hkept hguest
          rw [HostWorld.step_event] at hguest
          by_cases hvm : index = vm
          · subst hvm
            rw [Function.update_self] at hguest
            rcases VmWorld.guest_next answer hguest with hsame | hread
            · exact hkept hsame
            · cases hread
              exact List.mem_append_right _ List.mem_cons_self
          · rw [Function.update_of_ne hvm] at hguest
            exact hkept hguest
      | operated vm event =>
          obtain ⟨op, answer⟩ := event
          rw [HostWorld.step_operated] at hguest
          by_cases hvm : index = vm
          · subst hvm
            rw [Function.update_self] at hguest
            rcases VmWorld.guest_next answer hguest with hsame | hread
            · exact hkept hsame
            · -- The operator reads no publication.
              cases hread
              exact hallowed.elim
          · rw [Function.update_of_ne hvm] at hguest
            exact hkept hguest

/-! ## In which order -/

/-- A command is for a request later than all that are behind the journal. -/
theorem Passed.resize_later {target : Nat} {expected : VirtioMemState} {authorize : Authorization}
    (h : Passed request w)
    (hmay : w.May config stage committed (.requestResize later expected target authorize)) :
    request.issuedUnixMillis < later.issuedUnixMillis := by
  obtain ⟨harmed, -, -, -, -, hjournal, -⟩ := hmay
  obtain ⟨last, hlast, -, hlt⟩ := h
  rw [hjournal] at hlast
  cases hlast
  exact hlt harmed

theorem Lawful.resized_after (h : Lawful pool configs W labels) (hinv : ControlInv (W index).control)
    (hpassed : Passed request (W index)) (hmem : later ∈ labels.filterMap (resizeRequestOf index)) :
    request.issuedUnixMillis < later.issuedUnixMillis := by
  obtain ⟨before, after, expected, target, authorize, answer, rfl, config, stage, committed, -, hmay⟩ :=
    h.resized hmem
  have hkept := @Lawful.invariant _ _ _ index _
    (fun w => ControlInv w.control ∧ Passed request w) (fun _ h => ⟨h.1, h.2.restart⟩)
    (fun _ h => h) (fun _ _ _ _ _ answer _ h hmay => ⟨h.1.next hmay answer, h.2.next hmay answer⟩)
    (fun _ _ answer h hmay => ⟨h.1.operate hmay answer, h.2.operate h.1 hmay answer⟩)
    (lawful_append.mp h).1 ⟨hinv, hpassed⟩
  exact hkept.2.resize_later hmay

/-- **A VM is resized for later and later requests.** -/
theorem Lawful.resized_later (h : Lawful pool configs W labels)
    (hinv : ControlInv (W index).control) :
    (labels.filterMap (resizeRequestOf index)).Pairwise fun first second =>
      first.issuedUnixMillis < second.issuedUnixMillis := by
  induction labels generalizing W with
  | nil => exact .nil
  | cons label labels ih =>
      have hfirst : Lawful pool configs W [label] := ⟨h.1, trivial⟩
      have hrest := ih h.2 (hfirst.controlInv hinv)
      cases hresize : resizeRequestOf index label with
      | none =>
          rw [List.filterMap_cons_none hresize]
          exact hrest
      | some request =>
          rw [List.filterMap_cons_some hresize]
          refine List.pairwise_cons.mpr ⟨fun later hmem => ?_, hrest⟩
          obtain ⟨expected, target, authorize, answer, rfl⟩ := resizeRequestOf_eq_some hresize
          obtain ⟨config, stage, committed, -, hmay⟩ := h.1.may
          refine h.2.resized_after (hfirst.controlInv hinv) ?_ hmem
          rw [HostWorld.step_self]
          exact .of_resize hmay answer

/-! ## How much -/

/-- What a request adds at most. -/
def addedBy (request : MemoryRequest) : Nat :=
  match request.operation with
  | .add => request.bytes
  | .remove => 0

/-- What the device has and is told to have is within the bound, and so is what was read of it. -/
structure Under (bound : Nat) (w : VmWorld) (d : VirtioMemState) : Prop where
  current : d.currentBytes ≤ bound
  requested : d.requestedBytes ≤ bound
  read : w.fresh = true → ∀ live, w.live = some live →
    live.currentBytes ≤ bound ∧ live.requestedBytes ≤ bound

theorem Under.mono (h : Under bound w d) {more : Nat} (hmore : bound ≤ more) : Under more w d :=
  ⟨h.current.trans hmore, h.requested.trans hmore, fun hfresh live hlive =>
    ⟨(h.read hfresh live hlive).1.trans hmore, (h.read hfresh live hlive).2.trans hmore⟩⟩

theorem Under.drift (h : Under bound w d) (hdrifts : Drifts d d') : Under bound w d' := by
  obtain ⟨-, -, hrequested, hcurrent⟩ := hdrifts
  have hhigh := h.current
  have hhigh' := h.requested
  exact ⟨by omega, by omega, h.read⟩

theorem Under.other {w' : VmWorld} (h : Under bound w d) (hfresh : w'.fresh = w.fresh)
    (hlive : w'.live = w.live) : Under bound w' d :=
  ⟨h.current, h.requested, by rw [hfresh, hlive]; exact h.read⟩

theorem Under.readDevice (h : Under bound w d) {answer : Except String VirtioMemState}
    (hanswer : ∀ state, answer = .ok state → state = d) : Under bound (w.read answer) d := by
  rcases w.read_cases answer with hread | ⟨state, hok, -, hread⟩
  · rw [hread]
    exact h.other rfl rfl
  · cases hanswer state hok
    rw [hread]
    exact ⟨h.current, h.requested, by rintro _ _ ⟨⟩; exact ⟨h.current, h.requested⟩⟩

/-- A command to a target within the bound. -/
theorem Under.command (h : Under bound w d) {answer : Except ResizeSinkError Unit} {target : Nat}
    (happlies : Applies d target answer d') (htarget : target ≤ bound) {w' : VmWorld}
    (hfresh : w'.fresh = (w.fresh && VmWorld.refused answer)) (hlive : w'.live = w.live) :
    Under bound w' d' := by
  have hread : w'.fresh = true → ∀ live, w'.live = some live →
      live.currentBytes ≤ bound ∧ live.requestedBytes ≤ bound := by
    intro hread
    rw [hfresh, Bool.and_eq_true] at hread
    rw [hlive]
    exact h.read hread.1
  match answer with
  | .ok () =>
      cases happlies
      exact ⟨h.current, htarget, hread⟩
  | .error (.rejected _) =>
      cases happlies
      exact ⟨h.current, h.requested, hread⟩
  | .error (.commandUnknown _) =>
      rcases happlies with rfl | rfl
      · exact ⟨h.current, h.requested, hread⟩
      · exact ⟨h.current, htarget, hread⟩

/-- A widening that ends leaves what was requested. -/
theorem Under.widen (h : Under bound w d) {expected : VirtioMemState}
    {answer : Except ResizeSinkError Unit} (hlive : w.live = some expected) (hfresh : w.fresh = true)
    (hclean : cleanWidening (.widenUsableRegion expected) answer)
    (hwidens : Widens d expected answer d') : Under bound (w.widen answer) d' := by
  match answer with
  | .ok () =>
      cases hwidens
      exact ⟨h.current, (h.read hfresh expected hlive).2, h.read⟩
  | .error (.rejected _) =>
      cases hwidens
      exact h
  | .error (.commandUnknown _) => exact hclean.elim

/-- **One step**: only a resize raises the bound, and by no more than its request asks for. -/
theorem Under.next {op : VmOp} {answer : VmAns op} (h : Under bound w d)
    (hmay : w.May config stage committed op) (hclean : cleanWidening op answer)
    (hanswers : Answers d op answer d') :
    Under (bound + ((resizeRequestOf index (.event ⟨.vm index op, answer⟩)).map addedBy).getD 0)
      (w.next op answer) d' := by
  cases op with
  | memoryState =>
      obtain ⟨rfl, htrue⟩ := hanswers
      exact h.readDevice htrue
  | persist file =>
      cases hanswers
      exact h.other (w.persist_fresh file answer) (w.persist_live file answer)
  | requestResize request expected target authorize =>
      obtain ⟨-, -, hlive, hfresh, -, -, -, -, -, _, _, -, -, hgranted⟩ := hmay
      have hread := (h.read hfresh expected hlive).1
      have hadded : ((resizeRequestOf index (.event ⟨.vm index (.requestResize request expected target
          authorize), answer⟩)).map addedBy).getD 0 = addedBy request := by
        simp [resizeRequestOf]
      rw [hadded]
      refine (h.mono (Nat.le_add_right _ _)).command hanswers ?_ rfl rfl
      cases hoperation : request.operation with
      | add =>
          obtain ⟨-, hgrows, -⟩ := hgranted.add hoperation
          rw [show addedBy request = request.bytes by rw [addedBy, hoperation]]
          omega
      | remove =>
          obtain ⟨hshrinks, -⟩ := hgranted.remove hoperation
          omega
  | retargetPending expected target =>
      obtain ⟨-, hlive, hfresh, -, intent, -, -, hretargets⟩ := hmay
      obtain ⟨hcurrent, hrequested⟩ := h.read hfresh expected hlive
      refine h.command hanswers ?_ rfl rfl
      -- A retarget only goes down.
      cases hretargets with
      | settle htarget => exact htarget ▸ hcurrent
      | extend _ hlower => exact hlower.le.trans hrequested
  | widenUsableRegion expected =>
      obtain ⟨-, hlive, hfresh, -⟩ := hmay
      exact h.widen hlive hfresh hclean hanswers
  | _ =>
      cases hanswers
      exact h.other rfl rfl

theorem Under.operate {op : VmOp} {answer : VmAns op} (h : Under bound w d) (hmay : w.MayOperate op)
    (hanswers : Answers d op answer d') : Under bound (w.next op answer) d' := by
  cases op with
  | memoryState =>
      obtain ⟨rfl, htrue⟩ := hanswers
      exact h.readDevice htrue
  | nowUnixMillis =>
      cases hanswers
      exact h.other rfl rfl
  | persist file =>
      cases hanswers
      exact h.other (w.persist_fresh file answer) (w.persist_live file answer)
  | retargetPending expected target =>
      obtain ⟨hlive, hfresh, -, rfl⟩ := hmay
      exact h.command hanswers (h.read hfresh expected hlive).1 rfl rfl
  | _ => cases hmay

theorem Under.step (h : Under bound (W index) (D index)) (hallowed : Allowed pool configs W label)
    (hclean : Answered index cleanWidening [label]) (hobeys : Obeys D label D') :
    Under (bound + ((resizeRequestOf index label).map addedBy).getD 0) (HostWorld.step W label index)
      (D' index) := by
  cases hobeys with
  | started => exact ⟨h.current, h.requested, nofun⟩
  | round => exact ⟨h.current, h.requested, nofun⟩
  | stopRequested => exact h
  | @event vm op answer d hanswers =>
      obtain ⟨committed, ⟨config, stage, -, hmay⟩, -⟩ := hallowed
      rw [HostWorld.step_event]
      by_cases hvm : index = vm
      · subst hvm
        rw [Function.update_self, Function.update_self]
        exact h.next hmay (hclean op answer (List.mem_singleton_self _)) hanswers
      · rw [Function.update_of_ne hvm, Function.update_of_ne hvm]
        exact h.mono (Nat.le_add_right _ _)
  | @operated vm op answer d hanswers =>
      rw [HostWorld.step_operated]
      by_cases hvm : index = vm
      · subst hvm
        rw [Function.update_self, Function.update_self]
        exact h.operate hallowed hanswers
      · rw [Function.update_of_ne hvm, Function.update_of_ne hvm]
        exact h

/-- **A device gains no more than its VM was resized for.** -/
theorem Lawful.grown (hlawful : Lawful pool configs W labels)
    (hclean : Answered index cleanWidening labels) (hfollows : Follows D labels D')
    (h : Under bound (W index) (D index)) :
    Under (bound + ((labels.filterMap (resizeRequestOf index)).map addedBy).sum)
      (HostWorld.after W labels index) (D' index) := by
  induction hfollows generalizing W bound with
  | done hdrifts => exact h.drift (hdrifts index)
  | @label D D₁ D₂ D' label labels hdrifts hobeys _ ih =>
      have hfirst : Answered index cleanWidening [label] := by
        intro op answer hmem
        exact hclean op answer (List.mem_singleton.mp hmem ▸ List.mem_cons_self)
      have hrest := ih hlawful.2 (fun op answer hmem => hclean op answer (List.mem_cons_of_mem _ hmem))
        ((h.drift (hdrifts index)).step hlawful.1 hfirst hobeys)
      rw [Nat.add_assoc] at hrest
      show Under _ (HostWorld.after (HostWorld.step W label) labels index) _
      cases hresize : resizeRequestOf index label <;> simpa [hresize] using hrest

end VirtioMem.Host
