import VirtioMem.Host.Observing
import VirtioMem.Lib.Rely

/-!
# What is written can be reported, and what is done does not fail

Two properties of the code of one VM that rest on the same facts about its control state. Whatever is
answered, every checkpoint it writes holds a record that a reader can make sense of: a valid journal,
texts that can be shown, a target in blocks of the device (`Records`). And if the world is dependable,
no step of it leaves with an error (`Steady`).

Dependable means that the file can be written, the clock and the host's memory read, and that the clock
does not contradict what the journal holds (`Expected`). Both are proved in one walk over the code; the
parameter `reliable` says whether the world is to be depended on, and an error may only be left with
where it is not.
-/

namespace VirtioMem.Host

open VirtioMem.Core VirtioMem.Effect VirtioMem.Word VirtioMem.Text

/-! ## What is written -/

/-- Longest identity and longest reason of a report, in bytes. -/
def maxIdentityBytes : Nat := 256

/-- A control state that a report can show. -/
structure Reportable (control : DurableControlState) : Prop where
  journal : control.journal.Valid
  operation : ∀ intent, control.intent = some intent →
    unreadable maxIdentityBytes intent.operationId = false
  latched : ∀ reason, control.latchReason = some reason → unreadable maxReasonBytes reason = false

/-- The checkpoint is that of the VM, and what it says about the last clearing can be shown. -/
structure Stamped (config : HostConfig) (checkpoint : Checkpoint) : Prop where
  vmName : checkpoint.vmName = config.vmName
  deviceAlias : checkpoint.deviceAlias = config.deviceAlias
  cleared : ∀ reason, checkpoint.lastLatchClearReason = some reason →
    unreadable maxReasonBytes reason = false

/-- A file that can be loaded and reported. -/
structure Durable (config : HostConfig) (file : CheckpointFile) : Prop where
  version : file.version = checkpointVersion
  vmName : file.vmName = config.vmName
  deviceAlias : file.deviceAlias = config.deviceAlias
  cleared : ∀ reason, file.lastLatchClearReason = some reason →
    unreadable maxReasonBytes reason = false
  control : Reportable file.control

/-- The target of the intent is a whole number of blocks of the device as it was read, unless the
intent was on file before. -/
def Aligned (w : VmWorld) (intent : Option CommandIntent) : Prop :=
  ∀ recorded, intent = some recorded → w.control.intent = some recorded ∨
    ∃ live, w.live = some live ∧ live.blockSizeBytes ∣ recorded.targetBytes

/-- **What every write of the checkpoint keeps.** -/
structure Records (config : HostConfig) (w : VmWorld) (file : CheckpointFile) : Prop
    extends Durable config file where
  aligned : Aligned w file.control.intent

theorem Stamped.durable {config : HostConfig} {checkpoint : Checkpoint} {control : DurableControlState}
    (h : Stamped config checkpoint) (hreportable : Reportable control) :
    Durable config (checkpoint.file control) :=
  ⟨rfl, h.vmName, h.deviceAlias, h.cleared, hreportable⟩

theorem Durable.load {config : HostConfig} {file : CheckpointFile} (h : Durable config file) :
    load (some file) config.vmName config.deviceAlias = .ok (some file) := by
  have hblank : (file.control.intent.any fun intent => isBlank intent.operationId) = false := by
    cases hintent : file.control.intent with
    | none => rfl
    | some intent =>
        have hreadable := h.control.operation intent hintent
        simp only [unreadable, Bool.or_eq_false_iff] at hreadable
        exact hreadable.1.1
  simp [Host.load, h.version, h.vmName, h.deviceAlias,
    MemoryRequestJournal.validate_eq_ok.mpr h.control.journal, hblank]

/-! ## A dependable world -/

/-- The clock does not contradict the journal: where the device was read converged to the recorded
target, it has not gone back behind a result that is already recorded. -/
def VmWorld.Punctual (w : VmWorld) (now : Nat) : Prop :=
  ∀ live intent result, w.fresh = true → w.live = some live → w.control.intent = some intent →
    live.requestedBytes = intent.targetBytes → live.currentBytes = intent.targetBytes →
    w.control.journal.result = some result → result.observedUnixMillis ≤ now

/-- The answers a VM's code is written for. Sizes are always in range; the rest is expected of a world
that is reliable. -/
def Expected (reliable : Prop) : Reliance VmWorld VmOp VmAns := fun w op answer =>
  match op, answer with
  | .memoryState, answer => ∀ state, answer = .ok state → state.sizeBytes ≤ maximum
  | .nowUnixMillis, answer => reliable → ∃ now, answer = .ok now ∧ 0 < now ∧ w.Punctual now
  | .persist _, saved => reliable → saved = .written
  | .availableBytes, answer => reliable → ∃ bytes, answer = .ok bytes
  | _, _ => True

/-- Every write has to be one that can be reported. -/
def recordLaw (config : HostConfig) : Monitor VmWorld VmOp VmAns where
  may w
    | .persist file => Records config w file
    | _ => True
  next := VmWorld.next

/-- The action writes only what can be reported, returns in `Q`, and leaves with an error only where
the world is not to be depended on. -/
abbrev Steady (config : HostConfig) (reliable : Prop) {α : Type} (action : VmAction α)
    (Q : α → VmController → VmWorld → Prop) (vm : VmController) (w : VmWorld) : Prop :=
  Action.relying (Expected reliable) (recordLaw config) action Q (fun _ _ _ => ¬reliable) vm w

variable {α β : Type} {config : HostConfig} {reliable : Prop} {state : VirtioMemState}
  {vm vm' : VmController} {w w' : VmWorld}

/-! ## The rules of the small steps -/

section Rules

variable {Q : α → VmController → VmWorld → Prop} {U : Unit → VmController → VmWorld → Prop}

theorem steady_bind {action : VmAction α} {next : α → VmAction β}
    {Q : β → VmController → VmWorld → Prop}
    (h : Steady config reliable action
      (fun value vm w => Steady config reliable (next value) Q vm w) vm w) :
    Steady config reliable (action >>= next) Q vm w :=
  (Action.relying_bind action next).mpr h

theorem steady_get {Q : VmController → VmController → VmWorld → Prop} (h : Q vm vm w) :
    Steady config reliable get Q vm w :=
  h

theorem steady_modify {f : VmController → VmController}
    {U : PUnit → VmController → VmWorld → Prop} (h : U () (f vm) w) :
    Steady config reliable (modify f) U vm w :=
  h

theorem steady_setControl {f : DurableControlState → DurableControlState}
    (h : U () { vm with control := f vm.control } w) :
    Steady config reliable (VmController.setControl f) U vm w :=
  h

/-- An operation that is no write. -/
theorem steady_ask {op : VmOp} {Q : VmAns op → VmController → VmWorld → Prop}
    (hmay : (recordLaw config).may w op)
    (h : ∀ answer, Expected reliable w op answer → Q answer vm (w.next op answer)) :
    Steady config reliable (ask op) Q vm w :=
  ⟨hmay, h⟩

theorem steady_ofExcept {answer : Except HostRuntimeError α}
    (hok : reliable → ∃ value, answer = .ok value) (h : ∀ value, answer = .ok value → Q value vm w) :
    Steady config reliable (Action.ofExcept answer) Q vm w := by
  refine (Action.relying_ofExcept _).mpr ⟨h, ?_⟩
  intro error herror hreliable
  obtain ⟨value, hvalue⟩ := hok hreliable
  rw [hvalue] at herror
  cases herror

theorem steady_controllerError {answer : Except String α}
    (hok : reliable → ∃ value, answer = .ok value) (h : ∀ value, answer = .ok value → Q value vm w) :
    Steady config reliable (controllerError answer) Q vm w := by
  apply steady_ofExcept
  · intro hreliable
    obtain ⟨value, rfl⟩ := hok hreliable
    exact ⟨value, rfl⟩
  · intro value hvalue
    exact h value (Result.mapError_eq_ok.mp hvalue)

theorem steady_now {Q : Nat → VmController → VmWorld → Prop}
    (h : ∀ now, (reliable → 0 < now ∧ w.Punctual now) → Q now vm w) :
    Steady config reliable VmController.now Q vm w := by
  apply steady_bind
  refine steady_ask trivial fun answer hanswer => ?_
  apply steady_controllerError
  · intro hreliable
    obtain ⟨now, hnow, -⟩ := hanswer hreliable
    exact ⟨now, hnow⟩
  · rintro now rfl
    apply h
    intro hreliable
    obtain ⟨_, ⟨⟩, hpos, hpunctual⟩ := hanswer hreliable
    exact ⟨hpos, hpunctual⟩

theorem steady_tolerance {Q : Nat → VmController → VmWorld → Prop}
    (htolerance : reliable → vm.config.rawTelemetryFutureTolerance / 1000000 ≤ maximum)
    (h : Q (vm.config.rawTelemetryFutureTolerance / 1000000) vm w) :
    Steady config reliable VmController.futureToleranceMillis Q vm w := by
  apply steady_bind
  apply steady_get
  apply steady_controllerError
  · intro hreliable
    exact ⟨_, if_pos (htolerance hreliable)⟩
  · intro tolerance hok
    split at hok <;> cases hok
    exact h

theorem steady_save (hrecords : Records config w (vm.checkpoint.file vm.control))
    (h : U () vm (w.persist (vm.checkpoint.file vm.control) .written)) :
    Steady config reliable VmController.save U vm w := by
  apply steady_bind
  apply steady_get
  apply steady_bind
  refine steady_ask hrecords fun saved hsaved => ?_
  apply steady_controllerError
  · intro hreliable
    rw [hsaved hreliable]
    exact ⟨(), rfl⟩
  · intro _ hok
    cases saved with
    | written => exact h
    | failed error written => cases hok

theorem steady_recordResult {result : MemoryResult}
    (hok : reliable → (vm.control.journal.recordResult result).1 = .ok ())
    (h : ∀ journal, vm.control.journal.recordResult result = (.ok (), journal) →
      U () { vm with control := { vm.control with journal := journal } } w) :
    Steady config reliable (VmController.recordResult result) U vm w := by
  apply steady_bind
  apply steady_get
  apply steady_bind
  apply steady_setControl
  apply steady_controllerError
  · exact fun hreliable => ⟨(), hok hreliable⟩
  · intro _ hrecorded
    exact h _ (Prod.ext hrecorded rfl)

theorem steady_publish {state : VirtioMemState} {refusal : Option MemoryResult} (h : U () vm w) :
    Steady config reliable (VmController.publish state refusal) U vm w := by
  apply steady_bind
  refine steady_ask trivial fun answer _ => ?_
  cases answer with
  | error error => exact h
  | ok now => exact ⟨trivial, fun _ _ => h⟩

end Rules

/-! ## Between two operations -/

/-- A block size that the pool accepts. -/
def ValidBlock (block : Nat) : Prop := block ≠ 0 ∧ isPowerOfTwo block = true

/-- Everything about a controller but its control state. -/
structure Fit (config : HostConfig) (reliable : Prop) (vm : VmController) : Prop where
  configured : vm.config = config
  /-- A process id has 32 bits. -/
  process : vm.process < 2 ^ 32
  counter : vm.operationCounter ≤ maximum
  checkpoint : Stamped config vm.checkpoint
  tolerance : reliable → config.rawTelemetryFutureTolerance / 1000000 ≤ maximum
  block : ∀ charge, vm.lastCharge = some charge → ValidBlock charge.2

/-- A controller between two operations: its control state is the saved one, satisfies the invariant
and can be reported. -/
structure Sound (config : HostConfig) (reliable : Prop) (vm : VmController) (w : VmWorld) : Prop
    extends Fit config reliable vm where
  control : vm.control = w.control
  inv : ControlInv vm.control
  reportable : Reportable vm.control

/-- The same with the device read as `state`. -/
structure Viewed (config : HostConfig) (reliable : Prop) (state : VirtioMemState)
    (vm : VmController) (w : VmWorld) : Prop extends Sound config reliable vm w where
  live : w.live = some state
  valid : state.Valid
  range : state.sizeBytes ≤ maximum

/-- What a controller remembers of the devices takes no part in it. -/
theorem Fit.other (h : Fit config reliable vm) (hconfig : vm'.config = vm.config)
    (hprocess : vm'.process = vm.process) (hcounter : vm'.operationCounter = vm.operationCounter)
    (hcheckpoint : vm'.checkpoint = vm.checkpoint) (hcharge : vm'.lastCharge = vm.lastCharge) :
    Fit config reliable vm' where
  configured := hconfig.trans h.configured
  process := hprocess ▸ h.process
  counter := hcounter ▸ h.counter
  checkpoint := hcheckpoint ▸ h.checkpoint
  tolerance := h.tolerance
  block := hcharge ▸ h.block

theorem Sound.other (h : Sound config reliable vm w) (hfit : Fit config reliable vm')
    (hcontrol : vm'.control = vm.control) : Sound config reliable vm' w where
  toFit := hfit
  control := hcontrol.trans h.control
  inv := hcontrol ▸ h.inv
  reportable := hcontrol ▸ h.reportable

theorem Viewed.other (h : Viewed config reliable state vm w) (hfit : Fit config reliable vm')
    (hcontrol : vm'.control = vm.control) : Viewed config reliable state vm' w :=
  ⟨h.toSound.other hfit hcontrol, h.live, h.valid, h.range⟩

/-- Only what is on file matters of the world. -/
theorem Sound.world (h : Sound config reliable vm w) (hcontrol : w'.control = w.control) :
    Sound config reliable vm w' :=
  ⟨h.toFit, h.control.trans hcontrol.symm, h.inv, h.reportable⟩

theorem Viewed.world (h : Viewed config reliable state vm w) (hcontrol : w'.control = w.control)
    (hlive : w'.live = w.live) : Viewed config reliable state vm w' :=
  ⟨h.toSound.world hcontrol, hlive.trans h.live, h.valid, h.range⟩

/-- A command only makes the reading old. -/
theorem Viewed.command (h : Viewed config reliable state vm w)
    (answer : Except ResizeSinkError Unit) : Viewed config reliable state vm (w.command answer) :=
  h.world rfl rfl

theorem Viewed.widen (h : Viewed config reliable state vm w)
    (answer : Except ResizeSinkError Unit) : Viewed config reliable state vm (w.widen answer) := by
  apply h.world
  · unfold VmWorld.widen
    split <;> rfl
  · unfold VmWorld.widen
    split <;> rfl

section Latching

variable {U : Unit → VmController → VmWorld → Prop}

/-- A write of a control state that satisfies the invariant and can be reported. -/
theorem steady_saveSound (hfit : Fit config reliable vm) (hinv : ControlInv vm.control)
    (hreportable : Reportable vm.control) (haligned : Aligned w vm.control.intent)
    (h : ∀ w', Sound config reliable vm w' → w'.live = w.live → U () vm w') :
    Steady config reliable VmController.save U vm w := by
  apply steady_save ⟨hfit.checkpoint.durable hreportable, haligned⟩
  exact h _ ⟨hfit, rfl, hinv, hreportable⟩ rfl

/-- An unresolved request can always be given an uncertain result. -/
theorem steady_recordUncertain {reason : String} (hvalid : vm.control.journal.Valid)
    (h : ∀ journal, Latches vm.control.journal journal → journal.Valid →
      U () { vm with control := { vm.control with journal := journal } } w) :
    Steady config reliable (VmController.recordUncertain reason) U vm w := by
  apply steady_bind
  apply steady_get
  split
  · next request hrequest hresult =>
      apply steady_bind
      apply steady_now
      intro now hnow
      apply steady_recordResult
      · intro hreliable
        apply MemoryRequestJournal.recordResult_isOk hvalid hrequest (hnow hreliable).1.ne'
          (Nat.zero_le _) rfl
        intro previous hprevious
        rw [hresult] at hprevious
        cases hprevious
      · intro journal hjournal
        exact h journal (.inr ⟨request, now, reason, hrequest, hresult, hjournal⟩)
          (hvalid.recorded hjournal)
  · next hother =>
      apply h vm.control.journal _ hvalid
      refine .inl ⟨rfl, fun request hrequest => ?_⟩
      cases hresult : vm.control.journal.result with
      | none => exact absurd hresult (hother request hrequest)
      | some result => rfl

/-- A latch bounds its reason, whatever caused it. -/
theorem steady_latch {reason : String} (h : Sound config reliable vm w)
    (hU : ∀ vm' w', Sound config reliable vm' w' → w'.live = w.live →
      vm'.control.latched = true → U () vm' w') :
    Steady config reliable (VmController.latch reason) U vm w := by
  apply steady_bind
  apply steady_get
  split
  · next hlatched => exact hU vm w h rfl hlatched
  apply steady_bind
  apply steady_setControl
  apply steady_bind
  apply steady_recordUncertain
  · exact h.reportable.journal
  intro journal hlatches hvalid
  have hfit : Fit config reliable { vm with control := { vm.control with
      latchReason := some (boundedReason reason), journal := journal } } :=
    h.toFit.other rfl rfl rfl rfl rfl
  apply steady_saveSound hfit (h.inv.of_latch hlatches)
  · refine ⟨hvalid, h.reportable.operation, ?_⟩
    rintro _ ⟨⟩
    exact MemoryResult.boundedReason_readable reason
  · intro intent hintent
    exact .inl (h.control ▸ hintent)
  · intro w' hsound hlive
    exact hU _ w' hsound hlive rfl

theorem steady_latchViewed {reason : String} (h : Viewed config reliable state vm w)
    (hU : ∀ vm' w', Viewed config reliable state vm' w' → U () vm' w') :
    Steady config reliable (VmController.latch reason) U vm w :=
  steady_latch h.toSound fun vm' w' hsound hlive _ =>
    hU vm' w' ⟨hsound, hlive.trans h.live, h.valid, h.range⟩

end Latching

/-! ## A resize that is under way -/

section Pending

variable {intent : CommandIntent} {Q : Step → VmController → VmWorld → Prop}

theorem steady_commandStalled {Q : Bool → VmController → VmWorld → Prop}
    (h : ∀ stalled progress, Q stalled { vm with pendingProgress := progress } w) :
    Steady config reliable (VmController.commandStalled state) Q vm w := by
  apply steady_bind
  apply steady_get
  apply steady_bind
  refine steady_ask trivial fun now _ => ?_
  split
  · split
    · exact h _ vm.pendingProgress
    · exact h false _
  · exact h false _

theorem steady_pendingElapsed {Q : Bool → VmController → VmWorld → Prop}
    (h : ∀ elapsed since, Q elapsed { vm with pendingSince := since } w) :
    Steady config reliable VmController.pendingElapsed Q vm w := by
  apply steady_bind
  apply steady_get
  split
  · exact h true vm.pendingSince
  apply steady_bind
  refine steady_ask trivial fun answer _ => ?_
  split
  · exact h true vm.pendingSince
  apply steady_bind
  apply steady_bind
  apply steady_get
  split
  · apply steady_bind
    refine steady_ask trivial fun now _ => ?_
    exact h _ vm.pendingSince
  · apply steady_bind
    refine steady_ask trivial fun since _ => ?_
    apply steady_bind
    apply steady_modify
    apply steady_bind
    refine steady_ask trivial fun now _ => ?_
    exact h _ _

theorem steady_minimumStalled {Q : Bool → VmController → VmWorld → Prop}
    (h : ∀ stalled, Q stalled vm w) :
    Steady config reliable VmController.minimumStalled Q vm w := by
  apply steady_bind
  apply steady_get
  split
  · exact h false
  · apply steady_bind
    refine steady_ask trivial fun now _ => ?_
    exact h _

/-- An operation id is short and printable. -/
theorem operationId_readable {process counter : Nat} (hprocess : process < 2 ^ 32)
    (hcounter : counter ≤ maximum) :
    unreadable maxIdentityBytes s!"{process}-{counter}" = false := by
  have htext : (s!"{process}-{counter}").toList =
      (toString process).toList ++ '-' :: (toString counter).toList := by
    simp [toString]
  have hsize : ∀ n < 2 ^ 64, (toString n).toList.length ≤ 20 := by
    intro n hn
    rw [Nat.toString_eq_repr, Nat.toList_repr,
      Nat.length_toDigits_le_iff (by decide) (by decide)]
    exact lt_of_lt_of_le hn (by decide)
  apply readable_graphic
  · intro c hc
    rw [htext, List.mem_append, List.mem_cons] at hc
    rcases hc with hc | rfl | hc
    · exact graphic_repr _ c hc
    · decide
    · exact graphic_repr _ c hc
  · rw [htext]
    simp
  · have hp := hsize process (lt_of_lt_of_le hprocess (by decide))
    have hc := hsize counter (lt_of_le_of_lt hcounter (by decide))
    rw [htext, List.length_append, List.length_cons]
    unfold maxIdentityBytes
    omega

theorem steady_nextOperationId {Q : String → VmController → VmWorld → Prop}
    (h : Fit config reliable vm)
    (hQ : ∀ id vm', Fit config reliable vm' → vm'.control = vm.control →
      unreadable maxIdentityBytes id = false → Q id vm' w) :
    Steady config reliable VmController.nextOperationId Q vm w := by
  have hfit : Fit config reliable
      { vm with operationCounter := saturatingAdd vm.operationCounter 1 } :=
    ⟨h.configured, h.process, min_le_right _ _, h.checkpoint, h.tolerance, h.block⟩
  exact hQ _ _ hfit rfl (operationId_readable h.process (min_le_right _ _))

/-- A settlement requests what is plugged, which is whole blocks. -/
theorem steady_settleShort {direction : CommandDirection} (h : Viewed config reliable state vm w)
    (hintent : vm.control.intent = some intent)
    (hQ : ∀ vm' w', Viewed config reliable state vm' w' → Q .wait vm' w') :
    Steady config reliable (VmController.settleShort direction state) Q vm w := by
  apply steady_bind
  refine steady_ask trivial fun stopped _ => ?_
  split
  · exact hQ vm w h
  apply steady_bind
  apply steady_nextOperationId h.toFit
  intro operationId vm' hfit hcontrol hreadable
  apply steady_bind
  apply steady_now
  intro now _
  apply steady_bind
  apply steady_setControl
  have hsettling : Fit config reliable { vm' with control := { vm'.control with
      intent := some (VmController.settlement operationId now direction state
        vm'.control.intent) } } := hfit.other rfl rfl rfl rfl rfl
  apply steady_bind
  apply steady_saveSound hsettling
  · rw [hcontrol]
    exact h.inv.of_intent hintent
  · rw [hcontrol]
    refine ⟨h.reportable.journal, ?_, h.reportable.latched⟩
    rintro _ ⟨⟩
    exact hreadable
  · rintro _ ⟨⟩
    exact .inr ⟨state, h.live, Nat.dvd_of_mod_eq_zero h.valid.current_mod⟩
  intro w' hsound hlive
  have hviewed : Viewed config reliable state _ w' :=
    ⟨hsound, hlive.trans h.live, h.valid, h.range⟩
  apply steady_bind
  apply steady_modify
  apply steady_bind
  refine steady_ask trivial fun command _ => ?_
  have hsent := (hviewed.command command)
  cases command with
  | ok _ => exact hQ _ _ (hsent.other (hsent.toFit.other rfl rfl rfl rfl rfl) rfl)
  | error error =>
      apply steady_bind
      refine steady_latchViewed (hsent.other (hsent.toFit.other rfl rfl rfl rfl rfl) rfl)
        fun vm' w' hlatched => ?_
      exact hQ vm' w' hlatched

/-- An extension is a whole number of blocks: a floor that left the range is above what is requested. -/
theorem extensionTarget_dvd {step goal base target : Nat} (hvalid : state.Valid)
    (hrange : state.sizeBytes ≤ maximum)
    (h : VmController.extensionTarget state (VmController.extensionBytes step goal state)
      (VmController.shrinkFloor config state.blockSizeBytes base) = some target) :
    state.blockSizeBytes ∣ target := by
  obtain ⟨hlower, hfloor⟩ := extensionTarget_eq_some h
  obtain ⟨stepped, hstepped, hmax⟩ :=
    Option.map_eq_some_iff.mp (Option.filter_eq_some_iff.mp h).1
  have hrequested := hvalid.requested_le
  have hstep : state.blockSizeBytes ∣ VmController.extensionBytes step goal state := by
    unfold VmController.extensionBytes
    exact min_rec' _ (Nat.dvd_mul_left _ _) (Nat.dvd_mul_left _ _)
  have hfloored : state.blockSizeBytes ∣
      VmController.shrinkFloor config state.blockSizeBytes base := by
    unfold VmController.shrinkFloor saturatingMul at hfloor ⊢
    rw [min_eq_left (by omega)]
    exact Nat.dvd_mul_left _ _
  have hrest : state.blockSizeBytes ∣ stepped := by
    have hsum := checkedSub_eq_some.mp hstepped
    have hdvd := Nat.dvd_of_mod_eq_zero hvalid.requested_mod
    rw [hsum] at hdvd
    exact (Nat.dvd_add_left hstep).mp hdvd
  rw [← hmax]
  exact max_rec' _ hrest hfloored

/-- The controller with the target of its intent moved. -/
def VmController.aimed (vm : VmController) (target : Nat) : VmController :=
  { vm with control := { vm.control with
    intent := vm.control.intent.map fun intent => { intent with targetBytes := target } } }

theorem steady_saveAimed {target : Nat} {U : Unit → VmController → VmWorld → Prop}
    (h : Viewed config reliable state vm w) (hintent : vm.control.intent = some intent)
    (htarget : state.blockSizeBytes ∣ target)
    (hU : ∀ w', Viewed config reliable state (vm.aimed target) w' → U () (vm.aimed target) w') :
    Steady config reliable VmController.save U (vm.aimed target) w := by
  have haimed : (vm.aimed target).control.intent = some { intent with targetBytes := target } := by
    simp [VmController.aimed, hintent]
  have hfit : Fit config reliable (vm.aimed target) := h.toFit.other rfl rfl rfl rfl rfl
  apply steady_saveSound hfit
  · simp only [VmController.aimed, hintent, Option.map_some]
    exact h.inv.of_intent hintent
  · refine ⟨h.reportable.journal, ?_, h.reportable.latched⟩
    rw [haimed]
    rintro _ ⟨⟩
    exact h.reportable.operation intent hintent
  · rw [haimed]
    rintro _ ⟨⟩
    exact .inr ⟨state, h.live, htarget⟩
  · intro w' hsound hlive
    exact hU w' ⟨hsound, hlive.trans h.live, h.valid, h.range⟩

theorem steady_sendExtension {operationId : String} {target stepBytes : Nat}
    (h : Viewed config reliable state vm w) (hintent : vm.control.intent = some intent)
    (htarget : state.blockSizeBytes ∣ target)
    (hQ : ∀ vm' w', Viewed config reliable state vm' w' → Q .wait vm' w') :
    Steady config reliable (VmController.sendExtension state operationId target stepBytes) Q vm
      w := by
  apply steady_bind
  apply steady_setControl
  apply steady_bind
  refine steady_saveAimed h hintent htarget fun w' hviewed => ?_
  apply steady_bind
  apply steady_modify
  apply steady_bind
  refine steady_ask trivial fun command _ => ?_
  have hsent : Viewed config reliable state { vm.aimed target with
      pendingProgress := none
      extension := some (operationId, state.currentBytes, stepBytes / state.blockSizeBytes) }
      (w'.command command) :=
    (hviewed.command command).other (hviewed.toFit.other rfl rfl rfl rfl rfl) rfl
  match command with
  | .ok _ => exact hQ _ _ hsent
  | .error (.rejected reason) =>
      apply steady_bind
      apply steady_setControl
      apply steady_bind
      refine steady_saveAimed hsent (congrArg (Option.map _) hintent)
        (Nat.dvd_of_mod_eq_zero h.valid.requested_mod) fun w' hviewed => ?_
      exact hQ _ _ hviewed
  | .error (.commandUnknown reason) =>
      apply steady_bind
      refine steady_latchViewed hsent fun vm' w' hlatched => ?_
      exact hQ vm' w' hlatched

theorem steady_extendShrink {base : Nat} (h : Viewed config reliable state vm w)
    (hintent : vm.control.intent = some intent)
    (hQ : ∀ vm' w', Viewed config reliable state vm' w' → Q .wait vm' w') :
    Steady config reliable (VmController.extendShrink state base) Q vm w := by
  apply steady_bind
  apply steady_get
  rw [hintent]
  dsimp only
  split
  · exact steady_settleShort h hintent hQ
  apply steady_bind
  apply steady_modify
  have hviewed : Viewed config reliable state { vm with extension := none } w :=
    h.other (h.toFit.other rfl rfl rfl rfl rfl) rfl
  split
  · apply steady_bind
    apply steady_minimumStalled
    intro stalled
    split
    · exact steady_settleShort hviewed hintent hQ
    · exact hQ _ _ hviewed
  next target htarget =>
  apply steady_bind
  refine steady_ask trivial fun stopped _ => ?_
  split
  · exact hQ _ _ hviewed
  · exact steady_sendExtension hviewed hintent (extensionTarget_dvd h.valid h.range htarget) hQ

theorem steady_observeShrink (h : Viewed config reliable state vm w)
    (hintent : vm.control.intent = some intent)
    (hQ : ∀ vm' w', Viewed config reliable state vm' w' → Q .wait vm' w') :
    Steady config reliable (VmController.observeShrink state) Q vm w := by
  apply steady_bind
  refine steady_ask trivial fun answer _ => ?_
  have hheard : Viewed config reliable state vm (w.hear answer) := h.world rfl rfl
  match answer with
  | .error error => exact hQ _ _ hheard
  | .ok envelope =>
      dsimp only
      split
      · exact steady_settleShort hheard hintent hQ
      split
      · exact hQ _ _ hheard
      apply steady_bind
      apply steady_commandStalled
      intro stalled progress
      have hviewed : Viewed config reliable state { vm with pendingProgress := progress } _ :=
        hheard.other (h.toFit.other rfl rfl rfl rfl rfl) rfl
      split
      · exact steady_extendShrink hviewed hintent hQ
      · exact hQ _ _ hviewed

theorem steady_observeGrow (h : Viewed config reliable state vm w)
    (hintent : vm.control.intent = some intent)
    (hQ : ∀ vm' w', Viewed config reliable state vm' w' → Q .wait vm' w') :
    Steady config reliable (VmController.observeGrow state intent) Q vm w := by
  apply steady_bind
  apply steady_get
  split
  · apply steady_bind
    apply steady_commandStalled
    intro stalled progress
    have hviewed : Viewed config reliable state { vm with pendingProgress := progress } w :=
      h.other (h.toFit.other rfl rfl rfl rfl rfl) rfl
    split
    · exact steady_settleShort hviewed hintent hQ
    · exact hQ _ _ hviewed
  · exact hQ _ _ h

theorem steady_deadline {operation : String} (h : Viewed config reliable state vm w)
    (hQ : ∀ step vm' w', Viewed config reliable state vm' w' → Q step vm' w') :
    Steady config reliable (do
      if ← VmController.pendingElapsed then
        let error ← VmController.convergenceTimeout operation
        return .stop error
      else return .wait) Q vm w := by
  apply steady_bind
  apply steady_pendingElapsed
  intro elapsed since
  have hviewed : Viewed config reliable state { vm with pendingSince := since } w :=
    h.other (h.toFit.other rfl rfl rfl rfl rfl) rfl
  split
  · apply steady_bind
    apply steady_bind
    refine steady_latchViewed hviewed fun vm' w' hlatched => ?_
    exact hQ _ _ _ hlatched
  · exact hQ _ _ _ hviewed

theorem steady_observePending (h : Viewed config reliable state vm w)
    (hQ : ∀ step vm' w', Viewed config reliable state vm' w' → Q step vm' w') :
    Steady config reliable (VmController.observePending state) Q vm w := by
  apply steady_bind
  apply steady_get
  split
  · exact hQ _ _ _ h
  next intent howner =>
  obtain ⟨hintent, -⟩ := Option.filter_eq_some_iff.mp howner
  dsimp only
  split
  · split
    · exact steady_observeGrow h hintent (hQ .wait)
    · exact hQ _ _ _ h
  · split
    · exact steady_observeShrink h hintent (hQ .wait)
    · exact hQ _ _ _ h
  · exact steady_deadline h hQ
  · exact steady_deadline h hQ

end Pending

/-! ## A converged device -/

section Converged

variable {intent : CommandIntent} {U : Unit → VmController → VmWorld → Prop}
  {Q : Observed → VmController → VmWorld → Prop}

theorem movementResult_agrees {journal : MemoryRequestJournal} {now : Nat} {reason : Option String}
    {result : MemoryResult} (h : movementResult journal intent state now reason = some result) :
    journal.request = some result.request ∧ result.observedUnixMillis = now ∧
      result.actualBytes ≤ result.request.bytes ∧ result.outcomeAgrees result.request = true := by
  obtain ⟨request, hrequest, rfl⟩ := Option.map_eq_some_iff.mp h
  have hle : moved request intent state ≤ request.bytes := min_le_right _ _
  refine ⟨hrequest, rfl, hle, ?_⟩
  unfold MemoryResult.outcomeAgrees
  dsimp only
  split_ifs with hall
  · simp [hall]
  · simpa using lt_of_le_of_ne hle hall

/-- **Recording what a converged device has done.** Nothing but the time stands against it: an intent's
request has at most an uncertain result. -/
theorem steady_resolveConverged (h : Viewed config reliable state vm w) (hfresh : w.fresh = true)
    (hintent : vm.control.intent = some intent)
    (hrequested : state.requestedBytes = intent.targetBytes)
    (hcurrent : state.currentBytes = intent.targetBytes)
    (hU : ∀ vm' w', Viewed config reliable state vm' w' → vm'.control.intent = none → U () vm' w') :
    Steady config reliable (VmController.resolveConverged intent state) U vm w := by
  obtain ⟨request, hrequest, huncertain⟩ := h.inv.executing intent hintent
  apply steady_bind
  apply steady_setControl
  apply steady_bind
  apply steady_now
  intro now hnow
  apply steady_bind
  apply steady_get
  split
  · next hnone =>
      -- An intent has a request, so there is always a result.
      dsimp only [movementResult] at hnone
      rw [hrequest] at hnone
      cases hnone
  next result hresult =>
  obtain ⟨hsame, hobserved, hactual, hagrees⟩ := movementResult_agrees hresult
  apply steady_bind
  apply steady_modify
  apply steady_bind
  apply steady_recordResult
  · intro hreliable
    obtain ⟨hpos, hpunctual⟩ := hnow hreliable
    apply MemoryRequestJournal.recordResult_isOk h.reportable.journal hsame
      (hobserved.trans_ne hpos.ne') hactual hagrees
    intro previous hprevious
    refine ⟨?_, ?_⟩
    · rw [← Bool.not_eq_true, terminal_iff, not_not]
      exact huncertain previous hprevious
    · rw [hobserved]
      exact hpunctual state intent previous hfresh h.live (h.control ▸ hintent) hrequested hcurrent
        (h.control ▸ hprevious)
  intro journal hjournal
  have hfit : Fit config reliable { vm with
      widenDue := vm.widenDue || (intent.direction = .settleGrow && result.actualBytes == 0 &&
        !vm.widened)
      control := { vm.control with intent := none, journal := journal } } :=
    h.toFit.other rfl rfl rfl rfl rfl
  apply steady_saveSound hfit
  · exact .of_recorded rfl (movementResult_eq_some hresult).2 hjournal
  · exact ⟨h.reportable.journal.recorded hjournal, nofun, h.reportable.latched⟩
  · exact nofun
  · intro w' hsound hlive
    exact hU _ _ ⟨hsound, hlive.trans h.live, h.valid, h.range⟩ rfl

/-- On a converged device nothing is under way any more, unless the VM is latched. -/
def Cleared (state : VirtioMemState) (vm : VmController) : Prop :=
  state.requestedBytes = state.currentBytes →
    vm.control.intent = none ∨ vm.control.latched = true

theorem steady_resolveIntent (h : Viewed config reliable state vm w) (hfresh : w.fresh = true)
    (hU : ∀ vm' w', Viewed config reliable state vm' w' → Cleared state vm' → U () vm' w') :
    Steady config reliable (VmController.resolveIntent state) U vm w := by
  have hlatch : ∀ reason, Steady config reliable (VmController.latch reason) U vm w := by
    intro reason
    refine steady_latch h.toSound fun vm' w' hsound hlive hlatched => ?_
    exact hU vm' w' ⟨hsound, hlive.trans h.live, h.valid, h.range⟩ fun _ => .inr hlatched
  apply steady_bind
  apply steady_get
  cases hintent : vm.control.intent with
  | none =>
      unfold commandOwnership
      dsimp only
      split_ifs
      · exact hU vm w h fun _ => .inl hintent
      · exact hU vm w h fun _ => .inl hintent
  | some intent =>
      unfold commandOwnership
      dsimp only
      split_ifs with hrequested hcurrent hprior
      · refine steady_resolveConverged h hfresh hintent hrequested hcurrent ?_
        exact fun vm' w' hviewed hnone => hU vm' w' hviewed fun _ => .inl hnone
      · exact hU vm w h fun hconverged => absurd (hconverged ▸ hrequested) hcurrent
      · exact hlatch _
      · exact hlatch _

theorem steady_widenIfDue {Q : Step → VmController → VmWorld → Prop}
    (h : Viewed config reliable state vm w) (hcleared : Cleared state vm)
    (hwait : ∀ vm' w', Viewed config reliable state vm' w' → Cleared state vm' → Q .wait vm' w')
    (hstop : ∀ error vm' w', Viewed config reliable state vm' w' → Q (.stop error) vm' w') :
    Steady config reliable (VmController.widenIfDue state) Q vm w := by
  apply steady_bind
  apply steady_get
  split
  swap
  · exact hwait _ _ h hcleared
  apply steady_bind
  apply steady_modify
  apply steady_bind
  apply steady_get
  have hviewed : Viewed config reliable state { vm with widenDue := false } w :=
    h.other (h.toFit.other rfl rfl rfl rfl rfl) rfl
  split
  · exact hwait _ _ hviewed hcleared
  apply steady_bind
  refine steady_ask trivial fun stopped _ => ?_
  split
  · exact hwait _ _ hviewed hcleared
  apply steady_bind
  apply steady_modify
  apply steady_bind
  have hwidening : Viewed config reliable state { vm with widenDue := false, widened := true } w :=
    hviewed.other (h.toFit.other rfl rfl rfl rfl rfl) rfl
  refine steady_ask trivial fun command _ => ?_
  match command with
  | .ok _ => exact hwait _ _ (hwidening.widen (.ok ())) hcleared
  | .error (.rejected reason) =>
      exact hwait _ _ (hwidening.widen (.error (.rejected reason))) hcleared
  | .error (.commandUnknown reason) =>
      apply steady_bind
      refine steady_latchViewed (hwidening.widen (.error (.commandUnknown reason)))
        fun vm' w' hlatched => ?_
      exact hstop _ _ _ hlatched

theorem steady_forwardTelemetry {envelope : RawTelemetryEnvelope} (hU : U () vm w) :
    Steady config reliable (VmController.forwardTelemetry envelope) U vm w := by
  apply steady_bind
  apply steady_get
  split
  · exact hU
  · apply steady_bind
    refine steady_ask trivial fun answer _ => ?_
    exact hU

theorem steady_readRequest {Q : Option (MemoryRequest × Nat) → VmController → VmWorld → Prop}
    (h : Viewed config reliable state vm w)
    (hQ : ∀ read w', Viewed config reliable state vm w' → Q read vm w') :
    Steady config reliable (VmController.readRequest state) Q vm w := by
  apply steady_bind
  refine steady_ask trivial fun answer _ => ?_
  have hheard : Viewed config reliable state vm (w.hear answer) := h.world rfl rfl
  match answer with
  | .error error => exact hQ _ _ hheard
  | .ok envelope =>
      apply steady_bind
      apply steady_forwardTelemetry
      exact hQ _ _ hheard

/-- What the second phase may count on: a request that is admitted as new whenever it is valid at the
time, for a VM with nothing under way. -/
structure Promised (config : HostConfig) (ready : Ready) (vm : VmController) (w : VmWorld) :
    Prop where
  live : w.live = some ready.state
  valid : ready.state.Valid
  admission : ready.admission = .new
  idle : vm.control.intent = none
  unlatched : vm.control.latched = false
  admits : ∀ now tolerance, ready.request.validateAt config.vmName config.rawTelemetryServiceName now
    tolerance = .ok () → (vm.control.journal.admitRequest ready.request config.vmName
      config.rawTelemetryServiceName now tolerance).1 = .ok .new

theorem steady_admission {held : Observed} {request : MemoryRequest} {base : Nat}
    (h : Viewed config reliable state vm w)
    (hconverged : state.requestedBytes = state.currentBytes) (hcleared : Cleared state vm)
    (hheld : Q held vm w) (hready : ∀ ready, Promised config ready vm w → Q (.ready ready) vm w) :
    Steady config reliable (VmController.admission state held request base) Q vm w := by
  apply steady_bind
  apply steady_now
  intro now _
  apply steady_bind
  apply steady_tolerance (h.configured ▸ h.tolerance)
  apply steady_bind
  apply steady_get
  dsimp only
  split
  · apply steady_bind
    apply steady_publish
    exact hheld
  next admission hadmitted =>
  split
  · apply steady_bind
    apply steady_publish
    exact hheld
  next hreplayed =>
  split
  · apply steady_bind
    apply steady_publish
    exact hheld
  next hnew =>
  cases admission with
  | replay =>
      -- Without an intent or with a latch, a request the journal holds has a result.
      obtain ⟨-, hretained⟩ := MemoryRequestJournal.admit_replay (Prod.ext hadmitted rfl)
      have hresult : vm.control.journal.result.isSome := by
        rcases hcleared hconverged with hidle | hlatched
        · obtain ⟨result, hresult, -⟩ := h.inv.settled hidle request hretained
          rw [hresult]
          rfl
        · obtain ⟨result, hresult⟩ := h.inv.latched hlatched request hretained
          rw [hresult]
          rfl
      exact absurd ⟨rfl, hresult⟩ hreplayed
  | new =>
      have hunlatched : vm.control.latched = false := by simpa using hnew
      apply hready
      refine ⟨h.live, h.valid, rfl, ?_, hunlatched, ?_⟩
      · rcases hcleared hconverged with hidle | hlatched
        · exact hidle
        · rw [hunlatched] at hlatched
          cases hlatched
      · intro now' tolerance' hvalid
        rw [h.configured] at hadmitted
        rw [MemoryRequestJournal.admit_again (Prod.ext hadmitted rfl) hvalid]

/-- What an observation leaves behind. -/
structure Settles (config : HostConfig) (reliable : Prop) (seen : Observed) (vm : VmController)
    (w : VmWorld) : Prop extends Sound config reliable vm w where
  held : ∀ charge, seen = .held (some charge) → ValidBlock charge.2
  ready : ∀ ready, seen = .ready ready → Promised config ready vm w

theorem Sound.held (h : Sound config reliable vm w) :
    Settles config reliable (.held vm.lastCharge) vm w :=
  ⟨h, by rintro charge hcharge; exact h.block charge (Observed.held.inj hcharge), nofun⟩

theorem Sound.stopping (h : Sound config reliable vm w) (error : HostRuntimeError) :
    Settles config reliable (.stop error) vm w :=
  ⟨h, nofun, nofun⟩

theorem steady_observeConverged {charge : Option (Nat × Nat)}
    (h : Viewed config reliable state vm w)
    (hcharge : ∀ known, charge = some known → ValidBlock known.2)
    (hconverged : state.requestedBytes = state.currentBytes) (hcleared : Cleared state vm)
    (hQ : ∀ seen vm' w', Settles config reliable seen vm' w' → Q seen vm' w') :
    Steady config reliable (VmController.observeConverged state (.held charge)) Q vm w := by
  have hheld : ∀ {vm' w'}, Sound config reliable vm' w' →
      Settles config reliable (.held charge) vm' w' :=
    fun h => ⟨h, by rintro known hknown; exact hcharge known (Observed.held.inj hknown), nofun⟩
  apply steady_bind
  apply steady_modify
  apply steady_bind
  have hviewed : Viewed config reliable state { vm with
      pendingSince := none
      pendingProgress := none
      widened := vm.widened && state.currentBytes != 0 } w :=
    h.other (h.toFit.other rfl rfl rfl rfl rfl) rfl
  refine steady_widenIfDue hviewed hcleared ?_ ?_
  swap
  · intro error vm' w' hviewed
    exact hQ _ _ _ (hviewed.toSound.stopping error)
  intro vm' w' hviewed hcleared
  apply steady_bind
  refine steady_readRequest hviewed fun read w' hread => ?_
  cases read with
  | none =>
      apply steady_bind
      apply steady_publish
      exact hQ _ _ _ (hheld hread.toSound)
  | some read =>
      refine steady_admission hread hconverged hcleared (hQ _ _ _ (hheld hread.toSound)) ?_
      intro ready hready
      exact hQ _ _ _ ⟨hread.toSound, nofun, by rintro _ ⟨⟩; exact hready⟩

theorem steady_liveState {Q : Except String VirtioMemState → VmController → VmWorld → Prop}
    (hok : ∀ state, state.Valid → state.sizeBytes ≤ maximum →
      Q (.ok state) vm (w.read (.ok state)))
    (herror : ∀ error, Q (.error error) vm { w with charge := w.remembered }) :
    Steady config reliable VmController.liveState Q vm w := by
  apply steady_bind
  refine steady_ask trivial fun answer hanswer => ?_
  cases answer with
  | error error => exact herror error
  | ok state =>
      cases hvalidate : state.validate with
      | ok _ =>
          simp only [hvalidate]
          exact hok state (VirtioMemState.validate_eq_ok.mp hvalidate) (hanswer state rfl)
      | error error =>
          have hread : w.read (.ok state) = { w with charge := w.remembered } := by
            simp [VmWorld.read, VmWorld.accepted, hvalidate]
          have hunread := herror error.toString
          rw [← hread] at hunread
          simp only [hvalidate]
          exact hunread

/-- A reading that is remembered, with the charge of the VM. -/
theorem Sound.remember (h : Sound config reliable vm w) (hvalid : state.Valid)
    (hrange : state.sizeBytes ≤ maximum) :
    Viewed config reliable state
      { vm with
        outstandingGrowth := some (VmController.outstandingOf vm.control state)
        lastCharge := some (VmController.chargeOf vm.control state, state.blockSizeBytes) }
      (w.read (.ok state)) := by
  rw [read_valid hvalid]
  refine ⟨⟨⟨h.configured, h.process, h.counter, h.checkpoint, h.tolerance, ?_⟩, h.control, h.inv,
    h.reportable⟩, rfl, hvalid, hrange⟩
  rintro _ ⟨⟩
  exact ⟨hvalid.block_pos.ne', hvalid.block_pow⟩

theorem steady_observeUnread {error : String} (h : Sound config reliable vm w)
    (hQ : ∀ seen vm' w', Settles config reliable seen vm' w' → Q seen vm' w') :
    Steady config reliable (VmController.observeUnread error) Q vm w := by
  apply steady_bind
  apply steady_get
  split
  · apply steady_bind
    refine steady_latch h fun vm' w' hsound _ _ => ?_
    exact hQ _ _ _ hsound.held
  · exact hQ _ _ _ h.held

theorem steady_observeLive (h : Sound config reliable vm w) (hvalid : state.Valid)
    (hrange : state.sizeBytes ≤ maximum)
    (hQ : ∀ seen vm' w', Settles config reliable seen vm' w' → Q seen vm' w') :
    Steady config reliable (VmController.observeLive state) Q vm (w.read (.ok state)) := by
  have hviewed := h.remember hvalid hrange
  have hfresh : (w.read (.ok state)).fresh = true := by rw [read_valid hvalid]
  apply steady_bind
  apply steady_modify
  apply steady_bind
  apply steady_get
  apply steady_bind
  refine steady_resolveIntent hviewed hfresh fun vm' w' hviewed' hcleared => ?_
  have hheld : ∀ {vm' w'}, Sound config reliable vm' w' → Settles config reliable
      (.held (some (VmController.chargeOf vm.control state, state.blockSizeBytes))) vm' w' :=
    fun h => ⟨h, by rintro _ ⟨⟩; exact hviewed.block _ rfl, nofun⟩
  split
  · apply steady_bind
    refine steady_observePending hviewed' fun step vm' w' hviewed => ?_
    apply steady_bind
    apply steady_publish
    cases step with
    | wait => exact hQ _ _ _ (hheld hviewed.toSound)
    | stop error => exact hQ _ _ _ (hviewed.toSound.stopping error)
  · next hconverged =>
      exact steady_observeConverged hviewed' hviewed.block (not_not.mp hconverged) hcleared hQ

theorem steady_observe (h : Sound config reliable vm w)
    (hQ : ∀ seen vm' w', Settles config reliable seen vm' w' → Q seen vm' w') :
    Steady config reliable VmController.observe Q vm w := by
  apply steady_bind
  apply steady_liveState
  · intro state hvalid hrange
    exact steady_observeLive h hvalid hrange hQ
  · intro error
    exact steady_observeUnread (h.world rfl) hQ

theorem steady_observeStopped (h : Sound config reliable vm w)
    (hQ : ∀ charge vm' w', Settles config reliable (.held charge) vm' w' →
      Q (.held charge) vm' w') :
    Steady config reliable VmController.observeStopped Q vm w := by
  apply steady_bind
  apply steady_liveState
  · intro state hvalid hrange
    exact hQ _ _ _ (h.remember hvalid hrange).toSound.held
  · intro error
    have hunread : Sound config reliable vm { w with charge := w.remembered } := h.world rfl
    exact hQ _ _ _ hunread.held

/-- **The first phase of one VM is steady.** -/
theorem steady_observed {Q : Observed × Option HostRuntimeError → VmController → VmWorld → Prop}
    (h : Sound config reliable vm w)
    (hQ : ∀ seen stopped vm' w', Settles config reliable seen vm' w' →
      (∀ error, seen ≠ .stop error) → Q (seen, stopped) vm' w') :
    Steady config reliable VmController.observed Q vm w := by
  have hany : ∀ {P : Observed → VmController → VmWorld → Prop},
      (∀ seen vm' w', Settles config reliable seen vm' w' → P seen vm' w') →
      Steady config reliable
        (if vm.stopped then VmController.observeStopped else VmController.observe) P vm w := by
    intro P hP
    split
    · exact steady_observeStopped h fun charge vm' w' hheld => hP _ vm' w' hheld
    · exact steady_observe h hP
  apply steady_bind
  apply steady_get
  apply steady_bind
  refine hany fun seen vm' w' hseen => ?_
  cases seen with
  | stop error =>
      have hstopped : Sound config reliable { vm' with stopped := true } w' :=
        hseen.toSound.other (hseen.toFit.other rfl rfl rfl rfl rfl) rfl
      apply steady_bind
      apply steady_modify
      apply steady_bind
      refine steady_observeStopped hstopped fun charge vm' w' hheld => ?_
      exact hQ _ _ _ _ hheld nofun
  | held charge => exact hQ _ _ _ _ hseen nofun
  | ready ready => exact hQ _ _ _ _ hseen nofun

end Converged

end VirtioMem.Host
