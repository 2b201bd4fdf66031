import VirtioMem.Host.Devices
import VirtioMem.Host.Steady

/-!
# Extensions of a shrink are bounded

A shrink that has stalled is asked for more: its target moves down by a step that doubles while every
step is released in full, and never past the goal. The step is remembered in the process alone, it is
cut by three bounds, and the floor it respects moves with what the guest reports.

`Extends` says what one extension comes to, whatever is remembered, and `Fits` that nothing in it
overflows. Every extension lowers the target by a block at least, and the target is what is saved; so
the extensions of one operation that are not refused are counted by how far it can go down, over any
rounds and restarts (`extensions_bounded`). An extension that is refused has its target put back and is
sent again, as often as it is refused (`refused_issued_again`).
-/

namespace VirtioMem.Host

open VirtioMem.Core VirtioMem.Effect VirtioMem.Word

/-! ## One extension -/

/-- The extension of a shrink, if there is one: what `extendShrink` computes before it asks or tells
anything. -/
def VmController.nextExtension (self : VmController) (state : VirtioMemState) (baseRam : Nat) :
    Option Nat :=
  match self.control.intent with
  | none => none
  | some intent =>
    let floor := shrinkFloor self.config state.blockSizeBytes baseRam
    let goal := shrinkGoal self.control.journal intent.priorCurrentBytes state.blockSizeBytes floor
    if state.currentBytes ≤ goal then none
    else extensionTarget state (extensionBytes
      (extensionStep self.extension intent.operationId state) goal state) floor

/-- **What an extension comes to.** -/
structure Extends (state : VirtioMemState) (floor goal target : Nat) : Prop where
  pending : goal < state.currentBytes
  aligned : target % state.blockSizeBytes = 0
  floor_le : floor ≤ target
  lower : target < state.requestedBytes
  step_le : state.requestedBytes - target ≤
    max state.blockSizeBytes VmController.maxExtensionBytes
  goal_le : state.requestedBytes - target ≤
    divCeil (state.currentBytes - goal) state.blockSizeBytes * state.blockSizeBytes

/-- What this process remembers of the last extension is a step it may have taken. -/
def Remembers (block : Nat) (vm : VmController) : Prop :=
  ∀ operation start step, vm.extension = some (operation, start, step) →
    step ≤ max (VmController.maxExtensionBytes / block) 1

/-- Every product and every sum of an extension is in the range of a word: the guard on what is
remembered, its doubling, the step, the way to the goal. -/
structure Fits (vm : VmController) (state : VirtioMemState) (operationId : String) (goal : Nat) :
    Prop where
  guard : ∀ operation start step, vm.extension = some (operation, start, step) →
    step * state.blockSizeBytes ≤ maximum
  doubled : ∀ operation start step, vm.extension = some (operation, start, step) → step * 2 ≤ maximum
  step : VmController.extensionStep vm.extension operationId state * state.blockSizeBytes ≤ maximum
  rest : divCeil (state.currentBytes - goal) state.blockSizeBytes * state.blockSizeBytes ≤ maximum

variable {config : HostConfig} {state : VirtioMemState} {vm vm' : VmController} {block base goal : Nat}
  {operationId : String} {α β : Type}

/-- A step is one block, or no more than the largest extension. -/
theorem extensionStep_le (extension : Option (String × Nat × Nat)) :
    VmController.extensionStep extension operationId state ≤
      max (VmController.maxExtensionBytes / state.blockSizeBytes) 1 := by
  unfold VmController.extensionStep
  split
  · split_ifs
    · exact min_le_right _ _
    · exact le_max_right _ _
  · exact le_max_right _ _

theorem mul_block_le {step : Nat}
    (h : step ≤ max (VmController.maxExtensionBytes / block) 1) :
    step * block ≤ max block VmController.maxExtensionBytes := by
  refine (Nat.mul_le_mul_right block h).trans ?_
  rcases le_total 1 (VmController.maxExtensionBytes / block) with hle | hle
  · rw [max_eq_left hle]
    exact (Nat.div_mul_le_self _ _).trans (le_max_right _ _)
  · rw [max_eq_right hle, Nat.one_mul]
    exact le_max_left _ _

/-- The way to the goal, in whole blocks, is within what is plugged. -/
theorem goalBytes_le (hvalid : state.Valid) :
    divCeil (state.currentBytes - goal) state.blockSizeBytes * state.blockSizeBytes ≤
      state.currentBytes := by
  have hpos := hvalid.block_pos
  obtain ⟨count, hcount⟩ := Nat.dvd_of_mod_eq_zero hvalid.current_mod
  have hlt := @divCeil_mul_lt (state.currentBytes - goal) state.blockSizeBytes hpos
  rw [hcount, Nat.mul_comm state.blockSizeBytes] at hlt ⊢
  refine Nat.mul_le_mul_right _ (Nat.lt_succ_iff.mp ?_)
  refine Nat.lt_of_mul_lt_mul_right (hlt.trans_le ?_)
  rw [Nat.succ_mul]
  omega

/-- **An extension is bounded**, whatever is remembered. -/
theorem extends_of_target {extension : Option (String × Nat × Nat)} {target : Nat}
    (hvalid : state.Valid) (hrange : state.sizeBytes ≤ maximum) (hpending : goal < state.currentBytes)
    (h : VmController.extensionTarget state (VmController.extensionBytes
        (VmController.extensionStep extension operationId state) goal state)
      (VmController.shrinkFloor config state.blockSizeBytes base) = some target) :
    Extends state (VmController.shrinkFloor config state.blockSizeBytes base) goal target := by
  have hdvd := extensionTarget_dvd hvalid hrange h
  obtain ⟨hlower, hfloor⟩ := extensionTarget_eq_some h
  obtain ⟨stepped, hstepped, hmax⟩ :=
    Option.map_eq_some_iff.mp (Option.filter_eq_some_iff.mp h).1
  have hsum := checkedSub_eq_some.mp hstepped
  have hstep := mul_block_le (@extensionStep_le state operationId extension)
  have hle : stepped ≤ target := hmax ▸ le_max_left _ _
  have hbytes := @min_le_left _ _ (VmController.extensionStep extension operationId state *
    state.blockSizeBytes) (divCeil (state.currentBytes - goal) state.blockSizeBytes *
    state.blockSizeBytes)
  have hgoal := @min_le_right _ _ (VmController.extensionStep extension operationId state *
    state.blockSizeBytes) (divCeil (state.currentBytes - goal) state.blockSizeBytes *
    state.blockSizeBytes)
  unfold VmController.extensionBytes at hsum
  exact ⟨hpending, Nat.mod_eq_zero_of_dvd hdvd, hfloor, hlower, by omega, by omega⟩

/-- **Nothing overflows**, if what is remembered was a step. -/
theorem fits_of_remembers (hvalid : state.Valid) (hrange : state.sizeBytes ≤ maximum)
    (h : Remembers state.blockSizeBytes vm) : Fits vm state operationId goal := by
  have hblock := hvalid.block_le
  have hcurrent := hvalid.current_le
  have hword : VmController.maxExtensionBytes * 2 ≤ maximum := by decide
  have hbound : max state.blockSizeBytes VmController.maxExtensionBytes ≤ maximum := by
    refine max_le (hblock.trans hrange) ?_
    omega
  have hquotient := Nat.div_le_self VmController.maxExtensionBytes state.blockSizeBytes
  have hpos : 1 ≤ VmController.maxExtensionBytes := by decide
  refine ⟨fun operation start step hsome => ?_, fun operation start step hsome => ?_, ?_, ?_⟩
  · exact (mul_block_le (h operation start step hsome)).trans hbound
  · have := h operation start step hsome
    omega
  · exact (mul_block_le (extensionStep_le _)).trans hbound
  · exact (goalBytes_le hvalid).trans (hcurrent.trans hrange)

/-! ## What leaves the extensions alone

Most of the code neither moves the target of a shrink nor remembers a step. `Frame` is what an
invariant has to satisfy to be kept by all of it. -/

/-- The readings are of one device: its block size stays, and its size is a word. -/
def ofDevice (block : Nat) : (op : VmOp) → VmAns op → Prop
  | .memoryState, .ok state => state.blockSizeBytes = block ∧ state.sizeBytes ≤ maximum
  | _, _ => True

def reads (block : Nat) {W : Type} : Reliance W VmOp VmAns := fun _ => ofDevice block

/-- Neither a write nor a change of the target. -/
def VmOp.quiet : VmOp → Bool
  | .persist _ | .retargetPending _ _ => false
  | _ => true

/-- Whether a shrink is recorded. -/
def shrinking (control : DurableControlState) : Bool :=
  control.intent.any fun intent => intent.direction == .shrink

structure Frame {W : Type} (M : Monitor W VmOp VmAns) (I : VmController → W → Prop) : Prop where
  /-- Only the configuration, the intent and what is remembered matter. -/
  stable : ∀ {vm vm' w}, I vm w → vm'.config = vm.config →
    vm'.control.intent = vm.control.intent → vm'.extension = vm.extension → I vm' w
  /-- A shrink may end or be settled at any time. -/
  ended : ∀ {vm vm' w}, I vm w → vm'.config = vm.config → shrinking vm'.control = false →
    vm'.extension = vm.extension → I vm' w
  quiet : ∀ w op, op.quiet = true → M.may w op ∧ ∀ answer, M.next w op answer = w
  saves : ∀ {vm w file}, I vm w → file.control = vm.control →
    M.may w (.persist file) ∧ ∀ saved, I vm (M.next w (.persist file) saved)

/-- What is no shrink may be settled at what is plugged. -/
def MaySettle {W : Type} (M : Monitor W VmOp VmAns) (I : VmController → W → Prop)
    (state : VirtioMemState) : Prop :=
  ∀ {vm w file}, I vm w → file.control = vm.control → shrinking vm.control = false →
    M.may (M.next w (.persist file) .written) (.retargetPending state state.currentBytes) ∧
    ∀ answer, I vm (M.next (M.next w (.persist file) .written)
      (.retargetPending state state.currentBytes) answer)

/-- The controller once an extension is saved, which it remembers. -/
def VmController.extended (vm : VmController) (state : VirtioMemState) (operationId : String)
    (target stepBytes : Nat) : VmController :=
  { vm.aimed target with
    pendingProgress := none
    extension := some (operationId, state.currentBytes, stepBytes / state.blockSizeBytes) }

/-- The controller with its intent settled. -/
def VmController.settling (vm : VmController) (operationId : String) (now : Nat)
    (direction : CommandDirection) (state : VirtioMemState) : VmController :=
  { vm with control := { vm.control with
    intent := some (settlement operationId now direction state vm.control.intent) } }

section Frame

variable {W : Type} {A : Reliance W VmOp VmAns} {M : Monitor W VmOp VmAns}
  {I : VmController → W → Prop}

/-- The action of a VM keeps the invariant. -/
abbrev Keeps (A : Reliance W VmOp VmAns) (M : Monitor W VmOp VmAns) (I : VmController → W → Prop)
    (action : VmAction α) : Prop :=
  Action.Keeps A M I action

theorem keeps_bind {action : VmAction α} {next : α → VmAction β} (h : Keeps A M I action)
    (hnext : ∀ value, Keeps A M I (next value)) : Keeps A M I (action >>= next) :=
  Action.keeps_bind h hnext

theorem keeps_pure (value : α) : Keeps A M I (pure value) := Action.keeps_pure value

theorem keeps_get : Keeps A M I get := Action.keeps_get

theorem keeps_controllerError (answer : Except String α) :
    Keeps A M I (controllerError answer) := Action.keeps_ofExcept _

/-- The action ends in `Q`; an error ends the process, so nothing is asked of one. -/
abbrev Relies (A : Reliance W VmOp VmAns) (M : Monitor W VmOp VmAns) (action : VmAction α)
    (Q : α → VmController → W → Prop) (vm : VmController) (w : W) : Prop :=
  Action.relying A M action Q (fun _ _ _ => True) vm w

section Rules

variable {Q : α → VmController → W → Prop} {U : Unit → VmController → W → Prop} {w : W}

theorem relies_bind {action : VmAction α} {next : α → VmAction β} {Q : β → VmController → W → Prop}
    (h : Relies A M action (fun value vm w => Relies A M (next value) Q vm w) vm w) :
    Relies A M (action >>= next) Q vm w :=
  (Action.relying_bind action next).mpr h

theorem relies_keeps {action : VmAction α} (h : Keeps A M I action) (hI : I vm w)
    (hQ : ∀ value vm' w', I vm' w' → Q value vm' w') : Relies A M action Q vm w :=
  Action.relying_mono (h vm w hI) hQ fun _ _ _ _ => trivial

theorem relies_get {Q : VmController → VmController → W → Prop} (h : Q vm vm w) :
    Relies A M get Q vm w :=
  h

theorem relies_modify {f : VmController → VmController} {U : PUnit → VmController → W → Prop}
    (h : U () (f vm) w) : Relies A M (modify f) U vm w :=
  h

theorem relies_setControl {f : DurableControlState → DurableControlState}
    (h : U () { vm with control := f vm.control } w) :
    Relies A M (VmController.setControl f) U vm w :=
  h

theorem relies_ask {op : VmOp} {Q : VmAns op → VmController → W → Prop} (hmay : M.may w op)
    (h : ∀ answer, A w op answer → Q answer vm (M.next w op answer)) :
    Relies A M (ask op) Q vm w :=
  ⟨hmay, h⟩

/-- Only a write that succeeds goes on. -/
theorem relies_save (hmay : M.may w (.persist (vm.checkpoint.file vm.control)))
    (h : U () vm (M.next w (.persist (vm.checkpoint.file vm.control)) .written)) :
    Relies A M VmController.save U vm w := by
  apply relies_bind
  apply relies_get
  apply relies_bind
  refine relies_ask hmay fun saved _ => ?_
  match saved with
  | .written => exact h
  | .failed error written => trivial

end Rules

theorem keeps_tolerance : Keeps A M I VmController.futureToleranceMillis := by
  unfold VmController.futureToleranceMillis
  exact keeps_bind keeps_get fun _ => keeps_controllerError _

variable (hframe : Frame M I)
include hframe

theorem keeps_ask {op : VmOp} (hquiet : op.quiet = true) : Keeps A M I (ask op) := by
  refine Action.keeps_perform fun vm w h => ?_
  obtain ⟨hmay, hnext⟩ := hframe.quiet w op hquiet
  refine ⟨hmay, fun answer _ => ?_⟩
  rw [hnext answer]
  exact h

theorem keeps_modify {f : VmController → VmController} (hconfig : ∀ vm, (f vm).config = vm.config)
    (hintent : ∀ vm, (f vm).control.intent = vm.control.intent)
    (hextension : ∀ vm, (f vm).extension = vm.extension) :
    Keeps A M I (modify f) :=
  Action.keeps_modify fun vm _ h => hframe.stable h (hconfig vm) (hintent vm) (hextension vm)

theorem keeps_setControl {f : DurableControlState → DurableControlState}
    (hintent : ∀ control, (f control).intent = control.intent) :
    Keeps A M I (VmController.setControl f) :=
  keeps_modify hframe (fun _ => rfl) (fun vm => hintent vm.control) fun _ => rfl

theorem keeps_save : Keeps A M I VmController.save := by
  intro vm w h
  obtain ⟨hmay, hnext⟩ := hframe.saves h (rfl : (vm.checkpoint.file vm.control).control = vm.control)
  exact ⟨hmay, fun saved _ => keeps_controllerError _ _ _ (hnext saved)⟩

theorem keeps_now : Keeps A M I VmController.now := by
  unfold VmController.now
  exact keeps_bind (keeps_ask hframe rfl) keeps_controllerError

theorem keeps_recordResult (result : MemoryResult) :
    Keeps A M I (VmController.recordResult result) := by
  unfold VmController.recordResult
  refine keeps_bind keeps_get fun _ => keeps_bind ?_ fun _ => keeps_controllerError _
  exact keeps_setControl hframe fun _ => rfl

theorem keeps_recordUncertain (reason : String) :
    Keeps A M I (VmController.recordUncertain reason) := by
  unfold VmController.recordUncertain
  refine keeps_bind keeps_get fun _ => ?_
  split
  · exact keeps_bind (keeps_now hframe) fun _ => keeps_recordResult hframe _
  · exact keeps_pure _

theorem keeps_latch (reason : String) : Keeps A M I (VmController.latch reason) := by
  unfold VmController.latch
  refine keeps_bind keeps_get fun _ => ?_
  split
  · exact keeps_pure _
  · refine keeps_bind (keeps_setControl hframe fun _ => rfl) fun _ => ?_
    exact keeps_bind (keeps_recordUncertain hframe _) fun _ => keeps_save hframe

theorem keeps_convergenceTimeout (operation : String) :
    Keeps A M I (VmController.convergenceTimeout operation) := by
  unfold VmController.convergenceTimeout
  exact keeps_bind (keeps_latch hframe _) fun _ => keeps_bind keeps_get fun _ => keeps_pure _

theorem keeps_publish (refusal : Option MemoryResult) :
    Keeps A M I (VmController.publish state refusal) := by
  unfold VmController.publish
  refine keeps_bind (keeps_ask hframe rfl) fun answer => ?_
  split
  · exact keeps_pure _
  · refine keeps_bind keeps_get fun _ => keeps_bind (keeps_ask hframe rfl) fun _ => keeps_pure _

theorem keeps_nextOperationId : Keeps A M I VmController.nextOperationId := by
  unfold VmController.nextOperationId
  refine keeps_bind (keeps_modify hframe (fun _ => rfl) (fun _ => rfl) fun _ => rfl) fun _ => ?_
  exact keeps_bind keeps_get fun _ => keeps_pure _

theorem relies_commandStalled {Q : Bool → VmController → W → Prop} {w : W}
    (h : ∀ stalled progress, Q stalled { vm with pendingProgress := progress } w) :
    Relies A M (VmController.commandStalled state) Q vm w := by
  obtain ⟨hmay, hnext⟩ := hframe.quiet w .instantNow rfl
  apply relies_bind
  apply relies_get
  apply relies_bind
  refine relies_ask hmay fun now _ => ?_
  rw [hnext now]
  split
  · split
    · exact h _ vm.pendingProgress
    · apply relies_bind
      exact relies_modify (h _ _)
  · apply relies_bind
    exact relies_modify (h _ _)

theorem keeps_pendingElapsed : Keeps A M I VmController.pendingElapsed := by
  have hstart : Keeps A M I VmController.pendingStart := by
    unfold VmController.pendingStart
    refine keeps_bind keeps_get fun _ => ?_
    split
    · exact keeps_pure _
    · refine keeps_bind (keeps_ask hframe rfl) fun _ => keeps_bind ?_ fun _ => keeps_pure _
      exact keeps_modify hframe (fun _ => rfl) (fun _ => rfl) fun _ => rfl
  unfold VmController.pendingElapsed
  refine keeps_bind keeps_get fun _ => ?_
  split
  · exact keeps_pure _
  · refine keeps_bind (keeps_ask hframe rfl) fun _ => ?_
    split
    · exact keeps_pure _
    · exact keeps_bind hstart fun _ => keeps_bind (keeps_ask hframe rfl) fun _ => keeps_pure _

theorem keeps_minimumStalled : Keeps A M I VmController.minimumStalled := by
  unfold VmController.minimumStalled
  refine keeps_bind keeps_get fun _ => ?_
  split
  · exact keeps_pure _
  · exact keeps_bind (keeps_ask hframe rfl) fun _ => keeps_pure _

/-- A settlement is written before the command, and it is no shrink any more. -/
theorem keeps_settleShort (hsettles : MaySettle M I state) (direction : CommandDirection) :
    Keeps A M I (VmController.settleShort direction state) := by
  unfold VmController.settleShort
  refine keeps_bind (keeps_ask hframe rfl) fun stopped => ?_
  split
  · exact keeps_pure _
  refine keeps_bind (keeps_nextOperationId hframe) fun operationId => ?_
  refine keeps_bind (keeps_now hframe) fun now => fun vm w h => ?_
  -- From here on it is a settlement, whichever direction it had.
  have hsettled : shrinking (vm.settling operationId now direction state).control = false := by
    unfold shrinking VmController.settling VmController.settlement
    dsimp only
    split <;> rfl
  have hafter : I (vm.settling operationId now direction state) w := hframe.ended h rfl hsettled rfl
  have hfile : ((vm.settling operationId now direction state).checkpoint.file
      (vm.settling operationId now direction state).control).control =
        (vm.settling operationId now direction state).control := rfl
  apply relies_bind
  apply relies_setControl
  apply relies_bind
  apply relies_save (hframe.saves hafter hfile).1
  obtain ⟨hsends, hsent⟩ := hsettles hafter hfile hsettled
  apply relies_bind
  apply relies_modify
  apply relies_bind
  refine relies_ask hsends fun answer _ => ?_
  have hlatched : I { vm.settling operationId now direction state with pendingSince := none } _ :=
    hframe.stable (hsent answer) rfl rfl rfl
  match answer with
  | .ok () => exact hlatched
  | .error error =>
      apply relies_bind
      exact relies_keeps (keeps_latch hframe _) hlatched fun _ _ _ h => h

theorem keeps_observeGrow (hsettles : MaySettle M I state) (intent : CommandIntent) :
    Keeps A M I (VmController.observeGrow state intent) := by
  unfold VmController.observeGrow
  refine keeps_bind keeps_get fun _ => ?_
  split
  · refine keeps_bind (fun vm w h => ?_) fun _ => ?_
    · exact relies_commandStalled hframe fun _ _ => hframe.stable h rfl rfl rfl
    split
    · exact keeps_settleShort hframe hsettles _
    · exact keeps_pure _
  · exact keeps_pure _

theorem keeps_resolveConverged (intent : CommandIntent) :
    Keeps A M I (VmController.resolveConverged intent state) := by
  unfold VmController.resolveConverged
  refine keeps_bind (Action.keeps_modify fun vm w h => ?_) fun _ => ?_
  · exact hframe.ended h rfl rfl rfl
  refine keeps_bind (keeps_now hframe) fun _ => keeps_bind keeps_get fun _ => ?_
  split
  · exact keeps_save hframe
  · refine keeps_bind (keeps_modify hframe (fun _ => rfl) (fun _ => rfl) fun _ => rfl) fun _ => ?_
    exact keeps_bind (keeps_recordResult hframe _) fun _ => keeps_save hframe

theorem keeps_resolveIntent : Keeps A M I (VmController.resolveIntent state) := by
  unfold VmController.resolveIntent
  refine keeps_bind keeps_get fun _ => ?_
  split
  case h_4 =>
    split
    · exact keeps_pure _
    · exact keeps_resolveConverged hframe _
  case h_5 => exact keeps_latch hframe _
  case h_6 => exact keeps_latch hframe _
  all_goals exact keeps_pure _

theorem keeps_widenIfDue : Keeps A M I (VmController.widenIfDue state) := by
  have hwiden : Keeps A M I (VmController.widenUsableRegion state) := by
    unfold VmController.widenUsableRegion
    refine keeps_bind (keeps_modify hframe (fun _ => rfl) (fun _ => rfl) fun _ => rfl) fun _ => ?_
    refine keeps_bind keeps_get fun _ => ?_
    split
    · exact keeps_pure _
    refine keeps_bind (keeps_ask hframe rfl) fun _ => ?_
    split
    · exact keeps_pure _
    refine keeps_bind (keeps_modify hframe (fun _ => rfl) (fun _ => rfl) fun _ => rfl) fun _ => ?_
    refine keeps_bind (keeps_ask hframe rfl) fun command => ?_
    split
    · exact keeps_pure _
    · exact keeps_pure _
    · exact keeps_bind (keeps_latch hframe _) fun _ => keeps_pure _
  unfold VmController.widenIfDue
  refine keeps_bind keeps_get fun _ => ?_
  split
  · exact hwiden
  · exact keeps_pure _

theorem keeps_readRequest : Keeps A M I (VmController.readRequest state) := by
  have hforward : ∀ envelope, Keeps A M I (VmController.forwardTelemetry envelope) := by
    intro envelope
    unfold VmController.forwardTelemetry
    refine keeps_bind keeps_get fun _ => ?_
    split
    · exact keeps_pure _
    · exact keeps_bind (keeps_ask hframe rfl) fun _ => keeps_pure _
  unfold VmController.readRequest
  refine keeps_bind (keeps_ask hframe rfl) fun answer => ?_
  split
  · exact keeps_pure _
  · exact keeps_bind (hforward _) fun _ => keeps_pure _

theorem keeps_admission (held : Observed) (request : MemoryRequest) (baseRam : Nat) :
    Keeps A M I (VmController.admission state held request baseRam) := by
  unfold VmController.admission
  refine keeps_bind (keeps_now hframe) fun _ => keeps_bind keeps_tolerance fun _ => ?_
  refine keeps_bind keeps_get fun _ => ?_
  dsimp only
  split
  · exact keeps_bind (keeps_publish hframe _) fun _ => keeps_pure _
  split_ifs
  · exact keeps_bind (keeps_publish hframe _) fun _ => keeps_pure _
  · exact keeps_bind (keeps_publish hframe _) fun _ => keeps_pure _
  · exact keeps_pure _

theorem keeps_observeConverged (held : Observed) :
    Keeps A M I (VmController.observeConverged state held) := by
  unfold VmController.observeConverged
  refine keeps_bind (keeps_modify hframe (fun _ => rfl) (fun _ => rfl) fun _ => rfl) fun _ => ?_
  refine keeps_bind (keeps_widenIfDue hframe) fun step => ?_
  split
  · exact keeps_pure _
  refine keeps_bind (keeps_readRequest hframe) fun request => ?_
  split
  · exact keeps_bind (keeps_publish hframe _) fun _ => keeps_pure _
  · exact keeps_admission hframe _ _ _

/-- A live reading is valid, and one of this device. -/
theorem relies_liveState {Q : Except String VirtioMemState → VmController → W → Prop} {w : W}
    (hI : I vm w) (h : ∀ answer, (∀ state, answer = .ok state → state.Valid ∧
      state.blockSizeBytes = block ∧ state.sizeBytes ≤ maximum) → I vm w → Q answer vm w) :
    Relies (reads block) M VmController.liveState Q vm w := by
  obtain ⟨hmay, hnext⟩ := hframe.quiet w .memoryState rfl
  apply relies_bind
  refine relies_ask hmay fun answer hanswer => ?_
  rw [hnext answer]
  cases answer with
  | error error => exact h _ (fun _ hok => by cases hok) hI
  | ok state =>
      dsimp only
      cases hvalidate : state.validate with
      | error error => exact h _ (fun _ hok => by cases hok) hI
      | ok _ =>
          refine h _ ?_ hI
          rintro _ ⟨⟩
          exact ⟨VirtioMemState.validate_eq_ok.mp hvalidate, hanswer⟩

theorem keeps_remember : Keeps A M I (VmController.remember state) :=
  keeps_modify hframe (fun _ => rfl) (fun _ => rfl) fun _ => rfl

theorem keeps_observeUnread (error : String) :
    Keeps A M I (VmController.observeUnread error) := by
  unfold VmController.observeUnread
  refine keeps_bind keeps_get fun _ => ?_
  split
  · exact keeps_bind (keeps_latch hframe _) fun _ => keeps_bind keeps_get fun _ => keeps_pure _
  · exact keeps_pure _

theorem keeps_observeStopped : Keeps (reads block) M I VmController.observeStopped := by
  intro vm w h
  apply relies_bind
  refine relies_liveState hframe h fun answer _ hI => ?_
  cases answer with
  | error error => exact hI
  | ok state =>
      exact keeps_bind (keeps_remember hframe) (fun _ => keeps_bind keeps_get fun _ => keeps_pure _)
        vm w hI

/-! ## What moves a target -/

/-- An extension is written before it is sent, and taken back when it was refused. -/
theorem relies_sendExtension {target stepBytes : Nat} {w : W} {file : CheckpointFile}
    (hfile : file = vm.checkpoint.file (vm.aimed target).control) (h : I (vm.aimed target) w)
    (hsend : M.may (M.next w (.persist file) .written) (.retargetPending state target))
    (hsent : ∀ answer, I (vm.extended state operationId target stepBytes)
      (M.next (M.next w (.persist file) .written) (.retargetPending state target) answer))
    (hrestored : ∀ reason, I ((vm.extended state operationId target stepBytes).aimed
        state.requestedBytes)
      (M.next (M.next w (.persist file) .written) (.retargetPending state target)
        (.error (.rejected reason)))) :
    Relies A M (VmController.sendExtension state operationId target stepBytes)
      (fun _ vm w => I vm w) vm w := by
  subst hfile
  apply relies_bind
  apply relies_setControl
  apply relies_bind
  apply relies_save (hframe.saves h rfl).1
  apply relies_bind
  apply relies_modify
  apply relies_bind
  refine relies_ask hsend fun answer _ => ?_
  match answer with
  | .ok () => exact hsent (.ok ())
  -- Nothing ran, so the target from before is written again.
  | .error (.rejected reason) =>
      apply relies_bind
      apply relies_setControl
      apply relies_bind
      exact relies_keeps (keeps_save hframe) (hrestored reason) fun _ _ _ h => h
  | .error (.commandUnknown reason) =>
      apply relies_bind
      exact relies_keeps (keeps_latch hframe _) (hsent (.error (.commandUnknown reason)))
        fun _ _ _ h => h

/-- An extension where there is one, else a settlement or nothing. -/
theorem relies_extendShrink {w : W} {intent : CommandIntent}
    (hintent : vm.control.intent = some intent) (hI : I vm w) (hforgets : I { vm with extension := none } w)
    (hsettles : vm.nextExtension state base = none → MaySettle M I state)
    (hsends : ∀ target goal, vm.nextExtension state base = some target →
      Relies A M (VmController.sendExtension state intent.operationId target
        (VmController.extensionBytes (VmController.extensionStep vm.extension intent.operationId state)
          goal state)) (fun _ vm w => I vm w) { vm with extension := none } w) :
    Relies A M (VmController.extendShrink state base) (fun _ vm w => I vm w) vm w := by
  unfold VmController.nextExtension at hsettles hsends
  rw [hintent] at hsettles hsends
  dsimp only at hsettles hsends
  apply relies_bind
  apply relies_get
  rw [hintent]
  dsimp only
  split
  · next hreached =>
    rw [if_pos hreached] at hsettles
    exact keeps_settleShort hframe (hsettles rfl) _ _ _ hI
  next hpending =>
  rw [if_neg hpending] at hsettles hsends
  apply relies_bind
  apply relies_modify
  -- No lower target: a shrink that has stalled is settled, any other one waits.
  split
  · next hnone =>
    apply relies_bind
    refine relies_keeps (keeps_minimumStalled hframe) hforgets fun stalled vm' w' h => ?_
    split
    · exact keeps_settleShort hframe (hsettles hnone) _ _ _ h
    · exact h
  · next target htarget =>
    obtain ⟨hmay, hnext⟩ := hframe.quiet w .stopRequested rfl
    apply relies_bind
    refine relies_ask hmay fun stopped _ => ?_
    rw [hnext stopped]
    split
    · exact hforgets
    · exact hsends target _ htarget

variable (hextend : ∀ {state : VirtioMemState} {base : Nat} {vm : VmController} {w : W}
  {intent : CommandIntent}, state.Valid → state.blockSizeBytes = block → state.sizeBytes ≤ maximum →
  I vm w → vm.control.intent = some intent → intent.direction = .shrink →
  intent.targetBytes = state.requestedBytes →
  Relies (reads block) M (VmController.extendShrink state base) (fun _ vm w => I vm w) vm w)
include hextend

/-- Everything about a pending device is kept if the extensions are. -/
theorem keeps_observePending (hsettles : MaySettle M I state) (hvalid : state.Valid)
    (hblock : state.blockSizeBytes = block) (hrange : state.sizeBytes ≤ maximum) :
    Keeps (reads block) M I (VmController.observePending state) := by
  have hdeadline : ∀ operation, Keeps (reads block) M I (do
      if ← VmController.pendingElapsed then
        let error ← VmController.convergenceTimeout operation
        return Step.stop error
      else return Step.wait) := by
    intro operation
    refine keeps_bind (keeps_pendingElapsed hframe) fun _ => ?_
    split
    · exact keeps_bind (keeps_convergenceTimeout hframe _) fun _ => keeps_pure _
    · exact keeps_pure _
  intro vm w h
  apply relies_bind
  apply relies_get
  split
  · exact h
  next intent hfilter =>
  obtain ⟨hintent, howned⟩ := Option.filter_eq_some_iff.mp hfilter
  rw [beq_iff_eq] at howned
  dsimp only
  split
  · split
    · exact keeps_observeGrow hframe hsettles _ _ _ h
    · exact h
  · next hdirection =>
    split
    · -- A held shrink.
      unfold VmController.observeShrink
      obtain ⟨hmay, hnext⟩ := hframe.quiet w .readGuest rfl
      apply relies_bind
      refine relies_ask hmay fun answer _ => ?_
      rw [hnext answer]
      split
      · exact h
      split_ifs
      · exact keeps_settleShort hframe hsettles _ _ _ h
      split
      · exact h
      apply relies_bind
      refine relies_commandStalled hframe fun stalled progress => ?_
      -- The clock of the stall is no part of what is kept.
      have hstalled : I { vm with pendingProgress := progress } w := hframe.stable h rfl rfl rfl
      split
      · exact hextend hvalid hblock hrange hstalled hintent hdirection howned
      · exact hstalled
    · exact h
  · exact hdeadline _ _ _ h
  · exact hdeadline _ _ _ h

theorem keeps_observed (hsettles : ∀ state, MaySettle M I state) :
    Keeps (reads block) M I VmController.observed := by
  have hlive : Keeps (reads block) M I VmController.observe := by
    intro vm w h
    apply relies_bind
    refine relies_liveState hframe h fun answer hanswer hI => ?_
    cases answer with
    | error error => exact keeps_observeUnread hframe _ _ _ hI
    | ok state =>
        obtain ⟨hvalid, hblock, hrange⟩ := hanswer state rfl
        refine keeps_bind (keeps_remember hframe) (fun _ => keeps_bind keeps_get fun _ => ?_) vm w hI
        refine keeps_bind (keeps_resolveIntent hframe) fun _ => ?_
        split
        · refine keeps_bind
            (keeps_observePending hframe hextend (hsettles state) hvalid hblock hrange) fun step => ?_
          refine keeps_bind (keeps_publish hframe _) fun _ => ?_
          split <;> exact keeps_pure _
        · exact keeps_observeConverged hframe _
  unfold VmController.observed
  refine keeps_bind keeps_get fun _ => keeps_bind ?_ fun seen => ?_
  · split
    · exact keeps_observeStopped hframe
    · exact hlive
  split
  · refine keeps_bind (keeps_modify hframe (fun _ => rfl) (fun _ => rfl) fun _ => rfl) fun _ => ?_
    exact keeps_bind (keeps_observeStopped hframe) fun _ => keeps_pure _
  · exact keeps_pure _

end Frame

/-! ## The commands of one call -/

/-- A law of the operations alone. -/
def opLaw (may : VmOp → Prop) : Monitor Unit VmOp VmAns := ⟨fun _ op => may op, fun w _ _ => w⟩

theorem opLaw_accepts {may : VmOp → Prop} {events : List (Event VmAns)}
    (h : (opLaw may).Accepts () events) : ∀ event ∈ events, may event.1 := by
  induction events with
  | nil => simp
  | cons event events ih =>
      intro other hmem
      rcases List.mem_cons.mp hmem with rfl | hmem
      · exact h.1
      · exact ih h.2 other hmem

theorem expects_true {may : VmOp → Prop} {events : List (Event VmAns)} :
    (opLaw may).Expects (fun _ _ _ => True) () events := by
  induction events with
  | nil => trivial
  | cons event events ih => exact ⟨trivial, ih⟩

/-- The device is asked to go to this target, if to any. -/
def VmOp.asks (state : VirtioMemState) (target : Nat) : VmOp → Prop
  | .retargetPending expected asked => expected = state ∧ asked = target
  | _ => True

section Call

variable {target : Nat}

theorem sent_frame : Frame (opLaw (VmOp.asks state target)) (fun _ _ => True) where
  stable _ _ _ _ := trivial
  ended _ _ _ _ := trivial
  quiet _ op hquiet := by
    refine ⟨?_, fun _ => rfl⟩
    cases op <;> trivial
  saves _ _ := ⟨trivial, fun _ => trivial⟩

/-- **One call sends one command at most**: to the next extension, or to what is plugged if there is
none. -/
theorem extendShrink_sends {events : List (Event VmAns)}
    {result : Option (Except HostRuntimeError Step × VmController)}
    (hruns : (VmController.extendShrink state base vm).Runs events result)
    {expected : VirtioMemState} {answer : Except ResizeSinkError Unit}
    (hmem : ⟨.retargetPending expected target, answer⟩ ∈ events) :
    expected = state ∧ target = (vm.nextExtension state base).getD state.currentBytes := by
  have hrelies : Relies (fun _ _ _ => True)
      (opLaw (VmOp.asks state ((vm.nextExtension state base).getD state.currentBytes)))
      (VmController.extendShrink state base) (fun _ _ _ => True) vm () := by
    cases hintent : vm.control.intent with
    | none =>
        apply relies_bind
        apply relies_get
        rw [hintent]
        trivial
    | some intent =>
        refine relies_extendShrink sent_frame hintent trivial trivial ?_ ?_
        · intro hnone _ _ _ _ _ _
          rw [hnone]
          exact ⟨⟨rfl, rfl⟩, fun _ => trivial⟩
        · intro target goal hsome
          rw [hsome]
          exact relies_sendExtension sent_frame rfl trivial ⟨rfl, rfl⟩ (fun _ => trivial)
            fun _ => trivial
  exact opLaw_accepts (Prog.SafeIf.accepts hrelies hruns expects_true).1 _ hmem

end Call

/-! ## The extensions of an operation -/

/-- An extension that was sent: what the device was expected to be, where it was to go, and whether the
sink refused the command. -/
structure Extension where
  expected : VirtioMemState
  target : Nat
  refused : Bool

/-- What is known of an operation from outside: what a restart would resume, and every extension that
was sent. -/
structure Issued where
  durable : DurableControlState
  issued : List Extension

namespace Issued

/-- The extensions that were carried out, or may have been. -/
def extended (w : Issued) : List Extension := w.issued.filter fun extension => !extension.refused

def command (w : Issued) (expected : VirtioMemState) (target : Nat)
    (answer : Except ResizeSinkError Unit) : Issued :=
  if shrinking w.durable then
    { w with issued := w.issued ++ [⟨expected, target, VmWorld.refused answer⟩] }
  else w

def next (w : Issued) : (op : VmOp) → VmAns op → Issued
  | .persist file, .written | .persist file, .failed _ true => { w with durable := file.control }
  | .retargetPending expected target, answer => w.command expected target answer
  | _, _ => w

/-- There is room for one block less per extension that was not refused, below where the operation
began. -/
def Room (block initial : Nat) (w : Issued) (control : DurableControlState) : Prop :=
  ∀ intent, control.intent = some intent → intent.direction = .shrink →
    intent.targetBytes + w.extended.length * block ≤ initial

@[simp] theorem command_durable (w : Issued) (expected : VirtioMemState) (target : Nat)
    (answer : Except ResizeSinkError Unit) : (w.command expected target answer).durable = w.durable := by
  unfold command
  split <;> rfl

@[simp] theorem extended_nil (durable : DurableControlState) :
    (⟨durable, []⟩ : Issued).extended = [] := rfl

/-- A command of a shrink adds to the extensions that count unless it is refused. -/
theorem command_extended {w : Issued} {expected : VirtioMemState} {target : Nat}
    {answer : Except ResizeSinkError Unit} (h : shrinking w.durable = true) :
    (w.command expected target answer).extended = w.extended ++
      if VmWorld.refused answer then [] else [⟨expected, target, VmWorld.refused answer⟩] := by
  unfold command extended
  rw [if_pos h, List.filter_append]
  cases VmWorld.refused answer <;> rfl

end Issued

/-- An extension of a device with this block size, above some floor. -/
def Sent (config : HostConfig) (block : Nat) (state : VirtioMemState) (target : Nat) : Prop :=
  state.Valid ∧ state.blockSizeBytes = block ∧
    ∃ base goal, Extends state (VmController.shrinkFloor config block base) goal target

/-- Every extension is bounded and has room. -/
def extensionLaw (config : HostConfig) (block initial : Nat) : Monitor Issued VmOp VmAns where
  may w
    | .persist file => w.Room block initial file.control
    | .retargetPending expected target => shrinking w.durable = true →
        (∀ intent, w.durable.intent = some intent → intent.targetBytes = target) ∧
          Sent config block expected target ∧ target + (w.extended.length + 1) * block ≤ initial
    | _ => True
  next := Issued.next

/-- What a controller and its file have in common while an operation goes on. -/
structure Extending (config : HostConfig) (block initial : Nat) (vm : VmController) (w : Issued) :
    Prop where
  configured : vm.config = config
  remembers : Remembers block vm
  memory : w.Room block initial vm.control
  durable : w.Room block initial w.durable

theorem room_of_unshrinking {block initial : Nat} {w : Issued} {control : DurableControlState}
    (h : shrinking control = false) : w.Room block initial control := by
  intro intent hintent hdirection
  unfold shrinking at h
  rw [hintent, Option.any_some, hdirection] at h
  cases h

theorem extending_frame {initial : Nat} :
    Frame (extensionLaw config block initial) (Extending config block initial) where
  stable := by
    intro vm vm' w h hconfig hintent hextension
    refine ⟨hconfig.trans h.configured, ?_, ?_, h.durable⟩
    · unfold Remembers
      rw [hextension]
      exact h.remembers
    · unfold Issued.Room
      rw [hintent]
      exact h.memory
  ended := by
    intro vm vm' w h hconfig hended hextension
    refine ⟨hconfig.trans h.configured, ?_, room_of_unshrinking hended, h.durable⟩
    unfold Remembers
    rw [hextension]
    exact h.remembers
  quiet w op hquiet := by
    cases op <;> first | exact ⟨trivial, fun _ => rfl⟩ | cases hquiet
  saves := by
    intro vm w file h hfile
    have hroom : w.Room block initial file.control := hfile ▸ h.memory
    refine ⟨hroom, fun saved => ?_⟩
    rcases saved with _ | ⟨error, _ | _⟩
    -- The file is the new one where the write is reported, or was made all the same.
    · exact ⟨h.configured, h.remembers, h.memory, hroom⟩
    · exact h
    · exact ⟨h.configured, h.remembers, h.memory, hroom⟩

theorem extending_settles {initial : Nat} (state : VirtioMemState) :
    MaySettle (extensionLaw config block initial) (Extending config block initial) state := by
  intro vm w file h hfile hended
  have hshrinking : shrinking file.control = false := hfile ▸ hended
  constructor
  · intro hsome
    change shrinking file.control = true at hsome
    rw [hshrinking] at hsome
    cases hsome
  · intro answer
    show Extending config block initial vm
      (Issued.command { w with durable := file.control } _ _ answer)
    unfold Issued.command
    rw [hshrinking]
    exact ⟨h.configured, h.remembers, h.memory, room_of_unshrinking hshrinking⟩

/-- What is remembered of an extension is a step. -/
theorem extensionBytes_div_le {extension : Option (String × Nat × Nat)} (hvalid : state.Valid) :
    VmController.extensionBytes (VmController.extensionStep extension operationId state) goal state /
      state.blockSizeBytes ≤ max (VmController.maxExtensionBytes / state.blockSizeBytes) 1 := by
  refine le_trans ?_ (@extensionStep_le state operationId extension)
  unfold VmController.extensionBytes
  refine (Nat.div_le_div_right (min_le_left _ _)).trans ?_
  rw [Nat.mul_div_cancel _ hvalid.block_pos]

theorem nextExtension_extends {target : Nat} {intent : CommandIntent} (hvalid : state.Valid)
    (hrange : state.sizeBytes ≤ maximum) (hintent : vm.control.intent = some intent)
    (h : vm.nextExtension state base = some target) :
    Extends state (VmController.shrinkFloor vm.config state.blockSizeBytes base)
      (VmController.shrinkGoal vm.control.journal intent.priorCurrentBytes state.blockSizeBytes
        (VmController.shrinkFloor vm.config state.blockSizeBytes base)) target := by
  unfold VmController.nextExtension at h
  rw [hintent] at h
  dsimp only at h
  split_ifs at h with hreached
  exact extends_of_target hvalid hrange (not_le.mp hreached) h

/-- **An extension finds room and leaves less.** -/
theorem extending_extendShrink {initial : Nat} {w : Issued} {intent : CommandIntent}
    (hvalid : state.Valid) (hblock : state.blockSizeBytes = block) (hrange : state.sizeBytes ≤ maximum)
    (h : Extending config block initial vm w) (hintent : vm.control.intent = some intent)
    (hdirection : intent.direction = .shrink) (howned : intent.targetBytes = state.requestedBytes) :
    Relies (reads block) (extensionLaw config block initial) (VmController.extendShrink state base)
      (fun _ vm w => Extending config block initial vm w) vm w := by
  subst hblock
  -- What was remembered of the last extension is dropped first, and counted nowhere.
  have hforgets : Extending config state.blockSizeBytes initial { vm with extension := none } w :=
    ⟨h.configured, fun _ _ _ hnone => (by cases hnone), h.memory, h.durable⟩
  refine relies_extendShrink extending_frame hintent h hforgets
    (fun _ => extending_settles state) fun target goal hsome => ?_
  have hextends := nextExtension_extends hvalid hrange hintent hsome
  rw [h.configured] at hextends
  have hroom := h.memory intent hintent hdirection
  rw [howned] at hroom
  -- Both targets are whole blocks, so the new one is a block lower at least.
  have hlower : target + state.blockSizeBytes ≤ state.requestedBytes := by
    obtain ⟨asked, hasked⟩ := Nat.dvd_of_mod_eq_zero hvalid.requested_mod
    obtain ⟨reached, hreached⟩ := Nat.dvd_of_mod_eq_zero hextends.aligned
    have hlt := hextends.lower
    rw [hasked, hreached] at hlt ⊢
    have := Nat.mul_le_mul_left state.blockSizeBytes (Nat.lt_of_mul_lt_mul_left hlt)
    rw [Nat.mul_succ] at this
    omega
  have haimed : ∀ asked, (vm.aimed asked).control.intent =
      some { intent with targetBytes := asked } := by
    intro asked
    unfold VmController.aimed
    rw [hintent]
    rfl
  have hmemory : ∀ {control : DurableControlState} {asked : Nat} (issued : Issued),
      control.intent = some { intent with targetBytes := asked } →
      asked + issued.extended.length * state.blockSizeBytes ≤ initial →
      issued.Room state.blockSizeBytes initial control := by
    intro control asked issued hcontrol hle other hother _
    rw [hcontrol] at hother
    cases hother
    exact hle
  have hshrinking : shrinking (vm.aimed target).control = true := by
    unfold shrinking
    rw [haimed]
    simp [hdirection]
  let saved : Issued := { w with durable := (vm.aimed target).control }
  have hbefore : target + w.extended.length * state.blockSizeBytes ≤ initial := by omega
  have hissued : target + (w.extended.length + 1) * state.blockSizeBytes ≤ initial := by
    rw [Nat.add_mul, Nat.one_mul]
    omega
  have hremembers : Remembers state.blockSizeBytes (vm.extended state intent.operationId target
      (VmController.extensionBytes
        (VmController.extensionStep vm.extension intent.operationId state) goal state)) := by
    rintro operation start step ⟨⟩
    exact extensionBytes_div_le hvalid
  refine relies_sendExtension extending_frame rfl ?_ ?_ ?_ ?_
  · exact ⟨h.configured, hforgets.remembers, hmemory _ (haimed _) hbefore, h.durable⟩
  · refine fun _ => ⟨fun other hother => ?_, ⟨hvalid, rfl, base, _, hextends⟩, hissued⟩
    cases (haimed target).symm.trans hother
    rfl
  · intro answer
    show Extending config state.blockSizeBytes initial _ (saved.command state target answer)
    have hextended := @Issued.command_extended saved state target answer hshrinking
    have hleft : target + (saved.command state target answer).extended.length * state.blockSizeBytes ≤
        initial := by
      rw [hextended, show saved.extended = w.extended from rfl]
      cases VmWorld.refused answer with
      | true => simpa using hbefore
      | false => simpa using hissued
    refine ⟨h.configured, hremembers, hmemory _ (haimed _) hleft, hmemory _ ?_ hleft⟩
    rw [Issued.command_durable]
    exact haimed target
  · -- The target is put back where it was, and the refused extension takes up no room.
    intro reason
    show Extending config state.blockSizeBytes initial _
      (saved.command state target (.error (.rejected reason)))
    have hextended : (saved.command state target (.error (.rejected reason))).extended = w.extended := by
      rw [Issued.command_extended hshrinking]
      exact List.append_nil _
    have hputBack : state.requestedBytes + (saved.command state target
        (.error (.rejected reason))).extended.length * state.blockSizeBytes ≤ initial := by
      rwa [hextended]
    refine ⟨h.configured, hremembers, hmemory _ ?_ hputBack, hmemory _ ?_ (by rwa [hextended])⟩
    · exact congrArg (Option.map fun intent => { intent with targetBytes := state.requestedBytes })
        (haimed target)
    · rw [Issued.command_durable]
      exact haimed target

/-! ## Whole operations -/

/-- The controllers of a VM whose device has this block size: what a new process starts with, and what
its rounds make of it. -/
inductive Serves (config : HostConfig) (block : Nat) : VmController → Prop
  | new (process : Nat) (opened : Checkpoint × DurableControlState) :
      Serves config block (VmController.new config process opened)
  | observed {vm vm' : VmController} {events : List (Event VmAns)}
      {seen : Observed × Option HostRuntimeError} (h : Serves config block vm)
      (hruns : (VmController.observed vm).Runs events (some (.ok seen, vm')))
      (hreads : ∀ event ∈ events, ofDevice block event.1 event.2) : Serves config block vm'
  | acted {vm vm' : VmController} {events : List (Event VmAns)} {ready : Ready}
      {ceiling : Option Nat} {committed : Nat} {outcome : Option HostRuntimeError × Nat}
      (h : Serves config block vm)
      (hruns : (VmController.acted ready ceiling committed vm).Runs events
        (some (.ok outcome, vm'))) : Serves config block vm'

/-- What the events of a run add to what is known of the operation. -/
def Issued.after (w : Issued) (events : List (Event VmAns)) : Issued :=
  events.foldl (fun w event => w.next event.1 event.2) w

/-- **One operation**: from a recorded shrink with this target, over any number of rounds that observe
the VM, and over restarts that cut a round anywhere. -/
inductive Operation (config : HostConfig) (block initial : Nat) : VmController → Issued → Prop
  | begun {vm : VmController} {intent : CommandIntent} (h : Serves config block vm)
      (hintent : vm.control.intent = some intent) (hdirection : intent.direction = .shrink)
      (htarget : intent.targetBytes = initial) :
      Operation config block initial vm ⟨vm.control, []⟩
  | observed {vm vm' : VmController} {w : Issued} {events : List (Event VmAns)}
      {seen : Observed × Option HostRuntimeError} (h : Operation config block initial vm w)
      (hruns : (VmController.observed vm).Runs events (some (.ok seen, vm')))
      (hreads : ∀ event ∈ events, ofDevice block event.1 event.2) :
      Operation config block initial vm' (w.after events)
  | restarted {vm : VmController} {w : Issued} {events : List (Event VmAns)}
      {result : Option (Except HostRuntimeError (Observed × Option HostRuntimeError) × VmController)}
      (h : Operation config block initial vm w)
      (hruns : (VmController.observed vm).Runs events result)
      (hreads : ∀ event ∈ events, ofDevice block event.1 event.2) (process : Nat)
      (checkpoint : Checkpoint) :
      Operation config block initial
        (VmController.new config process (checkpoint, (w.after events).durable)) (w.after events)

theorem expects_reads {W : Type} {M : Monitor W VmOp VmAns} {w : W} {events : List (Event VmAns)}
    (h : ∀ event ∈ events, ofDevice block event.1 event.2) : M.Expects (reads block) w events := by
  induction events generalizing w with
  | nil => trivial
  | cons event events ih =>
      exact ⟨h event List.mem_cons_self, ih fun other hmem => h other (List.mem_cons_of_mem _ hmem)⟩

/-- Every extension of the law is bounded, and the last that was not refused leaves room for all of
these. -/
structure Issued.Bounded (config : HostConfig) (block initial : Nat) (w : Issued) : Prop where
  durable : w.Room block initial w.durable
  sent : ∀ extension ∈ w.issued, Sent config block extension.expected extension.target
  last : ∀ extension, w.extended.getLast? = some extension →
    extension.target + w.extended.length * block ≤ initial

theorem Issued.Bounded.next {initial : Nat} {w : Issued} {op : VmOp}
    (h : w.Bounded config block initial) (hmay : (extensionLaw config block initial).may w op)
    (answer : VmAns op) : (w.next op answer).Bounded config block initial := by
  cases op with
  | persist file =>
      rcases answer with _ | ⟨error, _ | _⟩
      · exact ⟨hmay, h.sent, h.last⟩
      · exact h
      · exact ⟨hmay, h.sent, h.last⟩
  | retargetPending expected target =>
      show Issued.Bounded config block initial (w.command expected target answer)
      by_cases hshrinking : shrinking w.durable = true
      · obtain ⟨hsaved, hsent, hroom⟩ := hmay hshrinking
        have hextended := @Issued.command_extended w expected target answer hshrinking
        refine ⟨?_, ?_, ?_⟩
        · intro intent hintent hdirection
          rw [Issued.command_durable] at hintent
          rw [hextended, hsaved intent hintent]
          have hbefore : target + w.extended.length * block ≤ initial := by
            rw [Nat.add_mul] at hroom
            omega
          -- Refused, it takes up no room; else the law has seen to it.
          cases VmWorld.refused answer with
          | true => simpa using hbefore
          | false => simpa using hroom
        · intro extension hmem
          unfold Issued.command at hmem
          rw [if_pos hshrinking] at hmem
          rcases List.mem_append.mp hmem with hmem | hmem
          · exact h.sent extension hmem
          · rw [List.mem_singleton.mp hmem]
            exact hsent
        · rw [hextended]
          cases VmWorld.refused answer with
          | true =>
              rw [if_pos rfl, List.append_nil]
              exact h.last
          | false =>
              rw [if_neg Bool.false_ne_true]
              intro extension hlast
              rw [List.getLast?_concat] at hlast
              cases hlast
              simpa using hroom
      · unfold Issued.command
        rwa [if_neg hshrinking]
  | _ => exact h

theorem Issued.Bounded.accepts {initial : Nat} {w : Issued} {events : List (Event VmAns)}
    (h : w.Bounded config block initial)
    (haccepts : (extensionLaw config block initial).Accepts w events) :
    (w.after events).Bounded config block initial := by
  induction events generalizing w with
  | nil => exact h
  | cons event events ih => exact ih (h.next haccepts.1 event.2) haccepts.2

/-! ## What is remembered -/

/-- The second phase does not touch what is remembered. -/
theorem remembers_frame : Frame (opLaw fun _ => True)
    (fun vm _ => vm.config = config ∧ Remembers block vm) where
  stable h hconfig _ hextension := by
    unfold Remembers
    rw [hconfig, hextension]
    exact h
  ended h hconfig _ hextension := by
    unfold Remembers
    rw [hconfig, hextension]
    exact h
  quiet _ _ _ := ⟨trivial, fun _ => rfl⟩
  saves h _ := ⟨trivial, fun _ => h⟩

/-- The action keeps what is remembered. -/
abbrev KeepsStep (config : HostConfig) (block : Nat) (action : VmAction α) : Prop :=
  Keeps (fun _ _ _ => True) (opLaw fun _ => True)
    (fun vm _ => vm.config = config ∧ Remembers block vm) action

theorem keepsStep_modify {f : VmController → VmController}
    (hconfig : ∀ vm, (f vm).config = vm.config) (hextension : ∀ vm, (f vm).extension = vm.extension) :
    KeepsStep config block (modify f) := by
  refine Action.keeps_modify fun vm _ h => ?_
  unfold Remembers
  rw [hconfig vm, hextension vm]
  exact h

theorem keepsStep_ask (op : VmOp) : KeepsStep config block (ask op) :=
  Action.keeps_perform fun _ _ h => ⟨trivial, fun _ _ => h⟩

theorem keepsStep_admitIfNew (admission : RequestAdmission) (request : MemoryRequest) (now : Nat) :
    KeepsStep config block (VmController.admitIfNew admission request now) := by
  unfold VmController.admitIfNew
  split
  · unfold VmController.admitNew
    refine keeps_bind keeps_tolerance fun _ => keeps_bind keeps_get fun _ => ?_
    exact keeps_bind (keepsStep_modify (fun _ => rfl) fun _ => rfl) fun _ => keeps_controllerError _
  · exact keeps_pure _

theorem keepsStep_recordUnexecuted (admission : RequestAdmission) (result : MemoryResult) :
    KeepsStep config block (VmController.recordUnexecuted state admission result) := by
  unfold VmController.recordUnexecuted
  refine keeps_bind (keepsStep_admitIfNew _ _ _) fun _ => ?_
  refine keeps_bind (keeps_recordResult remembers_frame _) fun _ => ?_
  refine keeps_bind (keeps_save remembers_frame) fun _ => ?_
  exact keeps_bind (keeps_publish remembers_frame _) fun _ => keeps_pure _

theorem keepsStep_refuse (ready : Ready) (reason : String) :
    KeepsStep config block (VmController.refuse ready reason) := by
  unfold VmController.refuse
  refine keeps_bind (keeps_now remembers_frame) fun _ => ?_
  split
  · exact keeps_bind (keeps_publish remembers_frame _) fun _ => keeps_pure _
  · exact keepsStep_recordUnexecuted _ _

theorem keepsStep_grantFor (ready : Ready) (ceiling : Option Nat) (committed : Nat) :
    KeepsStep config block (VmController.grantFor ready ceiling committed) := by
  unfold VmController.grantFor
  refine keeps_bind keeps_get fun _ => ?_
  split
  · refine keeps_bind (keepsStep_ask _) fun _ => keeps_bind ?_ fun _ => keeps_pure _
    exact Action.keeps_ofExcept _
  · exact keeps_pure _

theorem keepsStep_settleCommand (ready : Ready) (now : Nat) (answer : Except ResizeSinkError Unit) :
    KeepsStep config block (VmController.settleCommand ready now answer) := by
  unfold VmController.settleCommand
  split
  · refine keeps_bind (keepsStep_ask _) fun _ => ?_
    refine keeps_bind (keepsStep_modify (fun _ => rfl) fun _ => rfl) fun _ => ?_
    exact keeps_bind (keeps_publish remembers_frame _) fun _ => keeps_pure _
  · refine keeps_bind (keepsStep_modify (fun _ => rfl) fun _ => rfl) fun _ => ?_
    exact keeps_bind (keepsStep_modify (fun _ => rfl) fun _ => rfl) fun _ => keepsStep_recordUnexecuted _ _
  · refine keeps_bind (keeps_latch remembers_frame _) fun _ => ?_
    exact keeps_bind (keeps_publish remembers_frame _) fun _ => keeps_pure _

theorem keepsStep_execute (ready : Ready) (now grant committed : Nat) :
    KeepsStep config block (VmController.execute ready now grant committed) := by
  unfold VmController.execute
  refine keeps_bind (keepsStep_ask _) fun _ => ?_
  split
  · exact keeps_pure _
  refine keeps_bind (keeps_nextOperationId remembers_frame) fun _ => ?_
  refine keeps_bind (keepsStep_admitIfNew _ _ _) fun _ => ?_
  refine keeps_bind (keepsStep_modify (fun _ => rfl) fun _ => rfl) fun _ => ?_
  refine keeps_bind (keeps_save remembers_frame) fun _ => ?_
  unfold VmController.sendResize
  refine keeps_bind (keepsStep_modify (fun _ => rfl) fun _ => rfl) fun _ => keeps_bind keeps_get fun _ => ?_
  refine keeps_bind (keepsStep_ask _) fun _ => ?_
  exact keeps_bind (keepsStep_settleCommand _ _ _) fun _ => keeps_pure _

theorem keepsStep_acted (ready : Ready) (ceiling : Option Nat) (committed : Nat) :
    KeepsStep config block (VmController.acted ready ceiling committed) := by
  have huncommitted : ∀ {action : VmAction Step}, KeepsStep config block action →
      KeepsStep config block (VmController.uncommitted committed action) :=
    fun h => keeps_bind h fun _ => keeps_pure _
  unfold VmController.acted
  refine keeps_bind ?_ fun outcome => ?_
  · unfold VmController.act
    refine keeps_bind (keeps_now remembers_frame) fun _ => keeps_bind keeps_tolerance fun _ => ?_
    refine keeps_bind keeps_get fun _ => ?_
    split
    · exact huncommitted (keepsStep_refuse _ _)
    split
    · exact huncommitted (keepsStep_refuse _ _)
    refine keeps_bind (keepsStep_grantFor _ _ _) fun _ => ?_
    split_ifs
    · exact huncommitted (keepsStep_refuse _ _)
    · exact huncommitted (keepsStep_recordUnexecuted _ _)
    · exact keepsStep_execute _ _ _ _
  split
  · exact keeps_bind (keepsStep_modify (fun _ => rfl) fun _ => rfl) fun _ => keeps_pure _
  · exact keeps_pure _

/-- The first phase keeps what is remembered, and room for the extensions. -/
theorem extending_observed {initial : Nat} :
    Keeps (reads block) (extensionLaw config block initial) (Extending config block initial)
      VmController.observed :=
  keeps_observed extending_frame extending_extendShrink extending_settles

/-- **What is remembered was a step**, in every controller a process can come to. -/
theorem Serves.remembers (h : Serves config block vm) : vm.config = config ∧ Remembers block vm := by
  induction h with
  | new process opened => exact ⟨rfl, fun _ _ _ hnone => (by cases hnone)⟩
  | @observed vm vm' events seen _ hruns hreads ih =>
      -- With room enough for what is recorded.
      have hroom : Issued.Room block ((vm.control.intent.map CommandIntent.targetBytes).getD 0)
          ⟨vm.control, []⟩ vm.control := by
        intro intent hintent _
        simp [hintent]
      have hafter := (extending_observed.runs ⟨ih.1, ih.2, hroom, hroom⟩ hruns
        (expects_reads hreads)).2 _ _ rfl
      exact ⟨hafter.configured, hafter.remembers⟩
  | acted _ hruns ih =>
      exact ((keepsStep_acted _ _ _).runs ih hruns expects_true).2 _ _ rfl

/-- **The account of an operation.** Whatever happens in it, its extensions are bounded and have left
room. -/
theorem Operation.extending {initial : Nat} {w : Issued} (h : Operation config block initial vm w) :
    Extending config block initial vm w ∧ w.Bounded config block initial := by
  have hrun : ∀ {vm : VmController} {w : Issued} {events : List (Event VmAns)}
      {result : Option (Except HostRuntimeError (Observed × Option HostRuntimeError) × VmController)},
      Extending config block initial vm w ∧ w.Bounded config block initial →
      (VmController.observed vm).Runs events result →
      (∀ event ∈ events, ofDevice block event.1 event.2) →
      (w.after events).Bounded config block initial ∧ ∀ seen vm', result = some (.ok seen, vm') →
        Extending config block initial vm' (w.after events) := by
    intro vm w events result ih hruns hreads
    obtain ⟨haccepts, hpost⟩ := extending_observed.runs ih.1 hruns (expects_reads hreads)
    exact ⟨ih.2.accepts haccepts, hpost⟩
  induction h with
  | @begun vm intent h hintent hdirection htarget =>
      have hroom : Issued.Room block initial ⟨vm.control, []⟩ vm.control := by
        intro other hother _
        cases hintent.symm.trans hother
        simp [htarget]
      obtain ⟨hconfig, hremembers⟩ := h.remembers
      exact ⟨⟨hconfig, hremembers, hroom, hroom⟩, hroom, by simp, by simp⟩
  | observed _ hruns hreads ih =>
      obtain ⟨hbounded, hextending⟩ := hrun ih hruns hreads
      exact ⟨hextending _ _ rfl, hbounded⟩
  -- A new process knows what is on disk, and has remembered no extension yet.
  | restarted _ hruns hreads process checkpoint ih =>
      have hbounded := (hrun ih hruns hreads).1
      exact ⟨⟨rfl, fun _ _ _ hnone => (by cases hnone), hbounded.durable, hbounded.durable⟩, hbounded⟩

/-- The extensions of an operation that are not refused are counted by how far its target can go down. -/
theorem Issued.Bounded.count {initial low : Nat} {w : Issued} (h : w.Bounded config block initial)
    (hlow : ∀ extension ∈ w.extended, low ≤ extension.target) :
    w.extended.length ≤ (initial - low) / block := by
  cases hlast : w.extended.getLast? with
  | none =>
      rw [List.getLast?_eq_none_iff.mp hlast]
      simp
  | some extension =>
      -- The last one has left a block for every one before it, and is not below `low`.
      have hmem := List.mem_of_getLast? hlast
      obtain ⟨hvalid, hblock, -⟩ := h.sent extension (List.mem_of_mem_filter hmem)
      have hroom := h.last extension hlast
      have hle := hlow extension hmem
      rw [Nat.le_div_iff_mul_le (hblock ▸ hvalid.block_pos)]
      omega

/-- **Extensions are bounded and well formed.** Whatever is remembered, the next extension of a valid
device is a whole number of blocks, above the floor and below what is requested, by no more than the
largest step and the way to the goal; it is the only command of its call, or there is none and the call
settles at what is plugged, if it does anything. Nothing in it overflows in a controller a process can
come to. Every extension of an operation is of this kind, and those that are not refused are no more than
there are blocks between where it began and the lowest they went, over any rounds and restarts. -/
theorem extensions_bounded {config : HostConfig} {block : Nat} :
    (∀ (vm : VmController) (state : VirtioMemState) (base : Nat) (intent : CommandIntent),
      state.Valid → state.sizeBytes ≤ maximum → vm.control.intent = some intent →
      (∀ target, vm.nextExtension state base = some target →
        Extends state (VmController.shrinkFloor vm.config state.blockSizeBytes base)
          (VmController.shrinkGoal vm.control.journal intent.priorCurrentBytes state.blockSizeBytes
            (VmController.shrinkFloor vm.config state.blockSizeBytes base)) target) ∧
      (∀ events result, (VmController.extendShrink state base vm).Runs events result →
        ∀ expected target answer, ⟨.retargetPending expected target, answer⟩ ∈ events →
          expected = state ∧ target = (vm.nextExtension state base).getD state.currentBytes) ∧
      (Serves config state.blockSizeBytes vm → Fits vm state intent.operationId
        (VmController.shrinkGoal vm.control.journal intent.priorCurrentBytes state.blockSizeBytes
          (VmController.shrinkFloor vm.config state.blockSizeBytes base)))) ∧
    ∀ (initial low : Nat) (vm : VmController) (w : Issued), Operation config block initial vm w →
      (∀ extension ∈ w.issued, Sent config block extension.expected extension.target) ∧
      ((∀ extension ∈ w.extended, low ≤ extension.target) →
        w.extended.length ≤ (initial - low) / block) := by
  constructor
  · intro vm state base intent hvalid hrange hintent
    refine ⟨fun target h => nextExtension_extends hvalid hrange hintent h, ?_, fun h => ?_⟩
    · intro events result hruns expected target answer hmem
      exact extendShrink_sends hruns hmem
    · exact fits_of_remembers hvalid hrange h.remembers.2
  · intro initial low vm w h
    obtain ⟨-, hbounded⟩ := h.extending
    exact ⟨hbounded.sent, hbounded.count⟩

/-! ## A shrink that stalls -/

/-- A removal of 2 GiB from 4 GiB, with 3 GiB asked for so far. -/
def slowController (config : HostConfig) : VmController :=
  .new config 1 (⟨"guest", "memory0", "", none⟩,
    ⟨none, some ⟨"1-1", 100000, .shrink, 2 ^ 32, 2 ^ 32, 3 * 2 ^ 30⟩,
      ⟨some (exampleRequest .remove (2 ^ 31) 100000), none⟩⟩)

/-- The device stays at three and a half. -/
def slowState : VirtioMemState := exampleDevice (3 * 2 ^ 30) (7 * 2 ^ 29)

/-- Everything is answered at this instant, every write succeeds, and every command ends like this. -/
def slowAnswer (sent : Except ResizeSinkError Unit) (instant : Nat) : (op : VmOp) → VmAns op
  | .stopRequested => false
  | .instantNow => instant
  | .nowUnixMillis => .ok 101000
  | .memoryState => .ok slowState
  | .readGuest => .ok (examplePublication (15 * 2 ^ 29) (exampleRequest .remove (2 ^ 31) 100000))
  | .writeTelemetry _ _ => .ok ()
  | .publishStatus _ => .ok ()
  | .availableBytes => .ok 0
  | .persist _ => .written
  | .requestResize _ _ _ _ => ⟨[], .ok ()⟩
  | .retargetPending _ _ => sent
  | .widenUsableRegion _ => .ok ()

/-- A round that observes the VM at this instant. -/
def slowRound (sent : Except ResizeSinkError Unit) (instant : Nat) (vm : VmController) :
    List (Event VmAns) ×
      (Except HostRuntimeError (Observed × Option HostRuntimeError) × VmController) :=
  let (events, outcome, _) := (VmController.observed vm).simulate
    (fun _ op => (slowAnswer sent instant op, ())) ()
  (events, outcome)

theorem slowRound_operation {config : HostConfig} {initial : Nat} {vm : VmController} {w : Issued}
    (sent : Except ResizeSinkError Unit) (instant : Nat)
    (h : Operation config (2 ^ 21) initial vm w)
    (hok : (slowRound sent instant vm).2.1.isOk = true) :
    Operation config (2 ^ 21) initial (slowRound sent instant vm).2.2
      (w.after (slowRound sent instant vm).1) := by
  obtain ⟨seen, hseen⟩ : ∃ seen, (slowRound sent instant vm).2.1 = .ok seen := by
    cases hresult : (slowRound sent instant vm).2.1 with
    | error _ => rw [hresult] at hok; cases hok
    | ok seen => exact ⟨seen, rfl⟩
  have hruns : (VmController.observed vm).Runs (slowRound sent instant vm).1
      (some (.ok seen, (slowRound sent instant vm).2.2)) := by
    rw [← hseen]
    exact Prog.simulate_runs _ _ _
  refine .observed h hruns ?_
  · have hdevice : ∀ op, ofDevice (2 ^ 21) op (slowAnswer sent instant op) := by
      intro op
      cases op with
      | memoryState => exact ⟨rfl, by decide⟩
      | _ => trivial
    have hall : ∀ (_ : Unit) op, ofDevice (2 ^ 21) op (slowAnswer sent instant op, ()).1 :=
      fun _ op => hdevice op
    exact Prog.simulate_answers hall (VmController.observed vm) ()

/-- What comes of two more polls, a second apart, and what was sent until then. -/
def slowPolls (sent : Except ResizeSinkError Unit) (instant : Nat) (before : VmController × Issued) :
    VmController × Issued :=
  let first := slowRound sent instant before.1
  let second := slowRound sent (instant + 1000000000) first.2.2
  (second.2.2, (before.2.after first.1).after second.1)

theorem slowPolls_operation {config : HostConfig} {initial instant : Nat}
    {before : VmController × Issued} {sent : Except ResizeSinkError Unit}
    (h : Operation config (2 ^ 21) initial before.1 before.2)
    (hfirst : (slowRound sent instant before.1).2.1.isOk = true)
    (hsecond : (slowRound sent (instant + 1000000000) (slowRound sent instant before.1).2.2).2.1.isOk =
      true) :
    Operation config (2 ^ 21) initial (slowPolls sent instant before).1
      (slowPolls sent instant before).2 :=
  slowRound_operation sent _ (slowRound_operation sent instant h hfirst) hsecond

/-- Before the first poll. -/
def slowStart (config : HostConfig) : VmController × Issued :=
  (slowController config, ⟨(slowController config).control, []⟩)

theorem slowStart_operation (config : HostConfig) :
    Operation config (2 ^ 21) (3 * 2 ^ 30) (slowStart config).1 (slowStart config).2 :=
  .begun (.new 1 _) rfl rfl rfl

/-- The extension is sent when the device has stalled for a poll. -/
def slowExtended : VmController × Issued := slowPolls (.ok ()) 0 (slowStart exampleConfig)

theorem slow_operation :
    Operation exampleConfig (2 ^ 21) (3 * 2 ^ 30) slowExtended.1 slowExtended.2 :=
  slowPolls_operation (slowStart_operation exampleConfig) (by decide +kernel) (by decide +kernel)

theorem slow_bounded :
    slowExtended.2.extended.map Extension.target = [3 * 2 ^ 30 - 2 ^ 21] ∧
    Extends slowState 0 (2 ^ 31) (3 * 2 ^ 30 - 2 ^ 21) ∧
    slowExtended.2.extended.length ≤ (3 * 2 ^ 30 - (3 * 2 ^ 30 - 2 ^ 21)) / 2 ^ 21 := by
  have htargets : slowExtended.2.extended.map Extension.target = [3 * 2 ^ 30 - 2 ^ 21] := by
    decide +kernel
  refine ⟨htargets, ?_, ?_⟩
  · have hvalid : slowState.Valid := VirtioMemState.validate_eq_ok.mp (by decide)
    have htarget : (slowController exampleConfig).nextExtension slowState (2 ^ 32) =
        some (3 * 2 ^ 30 - 2 ^ 21) := by
      decide +kernel
    have hextends := ((@extensions_bounded exampleConfig slowState.blockSizeBytes).1
      (slowController exampleConfig) slowState (2 ^ 32) _ hvalid (by decide) rfl).1 _ htarget
    have hfloor : VmController.shrinkFloor exampleConfig slowState.blockSizeBytes (2 ^ 32) = 0 := by
      decide +kernel
    rw [show (slowController exampleConfig).config = exampleConfig from rfl, hfloor] at hextends
    exact hextends
  · refine ((@extensions_bounded exampleConfig (2 ^ 21)).2 _ (3 * 2 ^ 30 - 2 ^ 21) _ _
      slow_operation).2 fun extension hmem => ?_
    have htarget := List.mem_map_of_mem (f := Extension.target) hmem
    rw [htargets, List.mem_singleton] at htarget
    rw [htarget]

/-- With the minimum a block below what is asked for. -/
def tightConfig : HostConfig := { exampleConfig with minRam := 7 * 2 ^ 30 - 2 ^ 21 }

/-- Two extensions that the sink refuses. -/
def slowRefused : VmController × Issued :=
  slowPolls (.error (.rejected "busy")) 2000000000
    (slowPolls (.error (.rejected "busy")) 0 (slowStart tightConfig))

/-- **A refused extension is sent again.** Its target is put back, so the next stall leads to the same
extension: two are sent here, where there is room for one. And a step that no process comes to remember
would overflow. -/
theorem refused_issued_again :
    Operation tightConfig (2 ^ 21) (3 * 2 ^ 30) slowRefused.1 slowRefused.2 ∧
      VmController.shrinkFloor tightConfig (2 ^ 21) (2 ^ 32) = 3 * 2 ^ 30 - 2 ^ 21 ∧
      slowRefused.2.issued.map Extension.target = [3 * 2 ^ 30 - 2 ^ 21, 3 * 2 ^ 30 - 2 ^ 21] ∧
      (3 * 2 ^ 30 - (3 * 2 ^ 30 - 2 ^ 21)) / 2 ^ 21 < slowRefused.2.issued.length ∧
      ¬Fits { slowController tightConfig with extension := some ("1-1", 0, maximum) } slowState "1-1"
        (3 * 2 ^ 30 - 2 ^ 21) := by
  refine ⟨?_, by decide +kernel, by decide +kernel, by decide +kernel, fun hfits => ?_⟩
  · refine slowPolls_operation (slowPolls_operation (slowStart_operation tightConfig) ?_ ?_) ?_ ?_
    all_goals decide +kernel
  · exact absurd (hfits.guard "1-1" 0 maximum rfl) (by decide +kernel)

end VirtioMem.Host
