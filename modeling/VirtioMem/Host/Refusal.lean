import VirtioMem.Host.Observing

/-!
# What a refused command leaves behind

The sink answers `rejected` when it certainly sent nothing: a shutdown was requested, the headroom is
gone, or the device moved between the reading and the command. Three functions call the sink, each
after it has overwritten the saved intent, and each with a recovery of its own. Here every way
through them is followed to what is on disk afterwards.

`act` takes its intent back and rejects the request, `extendShrink` puts the previous target back.
`settleShort` does neither: it treats the refusal as a failure and latches the VM.
-/

namespace VirtioMem.Host

open VirtioMem.Core VirtioMem.Effect

/-! ## What is watched -/

/-- What the answers of one step come to. -/
structure Aftermath where
  /-- The control state on disk. -/
  durable : DurableControlState
  /-- The sink has refused a command. -/
  refused : Bool
  /-- The first reading of the wall clock. -/
  decided : Option Nat
  /-- A checkpoint write has failed and left the old file. -/
  lost : Bool

namespace Aftermath

/-- Before the step, with the control state in force saved. -/
def start (control : DurableControlState) : Aftermath := ⟨control, false, none, false⟩

def persist (w : Aftermath) (file : CheckpointFile) : Saved → Aftermath
  | .written | .failed _ true => { w with durable := file.control }
  | .failed _ false => { w with lost := true }

def clock (w : Aftermath) : Except String Nat → Aftermath
  | .ok now => { w with decided := w.decided.or (some now) }
  | .error _ => w

def answered (w : Aftermath) (answer : Except ResizeSinkError Unit) : Aftermath :=
  { w with refused := w.refused || VmWorld.refused answer }

def next (w : Aftermath) : (op : VmOp) → VmAns op → Aftermath
  | .nowUnixMillis, answer => w.clock answer
  | .persist file, answer => w.persist file answer
  | .requestResize _ _ _ _, answer => w.answered answer.result
  | .retargetPending _ _, answer => w.answered answer
  | .stopRequested, _ | .instantNow, _ | .memoryState, _ | .readGuest, _ | .writeTelemetry _ _, _
  | .publishStatus _, _ | .availableBytes, _ | .widenUsableRegion _, _ => w

end Aftermath

/-- Everything is allowed; only what happens is noted. -/
def sinkLaw : Monitor Aftermath VmOp VmAns where
  may _ _ := True
  next w op answer := w.next op answer

/-- The three steps that call the sink. -/
inductive SinkCall where
  | act (ready : Ready) (ceiling : Option Nat) (committed : Nat)
  | extendShrink (state : VirtioMemState) (baseRam : Nat)
  | settleShort (direction : CommandDirection) (state : VirtioMemState)

namespace SinkCall

def run : SinkCall → VmAction Unit
  | .act ready ceiling committed => do
      let _ ← VmController.act ready ceiling committed
      return ()
  | .extendShrink state baseRam => do
      let _ ← VmController.extendShrink state baseRam
      return ()
  | .settleShort direction state => do
      let _ ← VmController.settleShort direction state
      return ()

/-- The request is one `observe` has let through: new to the journal, or in it without a result. -/
def Handed (vm : VmController) (ready : Ready) : Prop :=
  (∃ now tolerance, (vm.control.journal.admitRequest ready.request vm.config.vmName
      vm.config.rawTelemetryServiceName now tolerance).1 = .ok ready.admission) ∧
    (ready.admission = .replay → vm.control.journal.result = none)

/-- What the callers have checked: the request of `act`, and that the shrink to extend is the
recorded one. -/
def Called (vm : VmController) : SinkCall → Prop
  | .act ready _ _ => Handed vm ready
  | .extendShrink state _ => ∃ intent, vm.control.intent = some intent ∧
      intent.targetBytes = state.requestedBytes
  | .settleShort _ _ => True

/-- The intent in force before the step: none for a new request, else the recorded one. -/
def standing (vm : VmController) : SinkCall → Option CommandIntent
  | .act _ _ _ => none
  | .extendShrink _ _ | .settleShort _ _ => vm.control.intent

/-- A refused request is journalled as rejected; the others leave the journal alone. -/
def Journals (vm : VmController) (journal : MemoryRequestJournal) : SinkCall → Prop
  | .act ready _ _ => ∃ result, journal = ⟨some ready.request, some result⟩ ∧
      result.outcome = .rejected ∧ result.request = ready.request
  | .extendShrink _ _ | .settleShort _ _ => journal = vm.control.journal

/-- **Nothing ran, and nothing says otherwise.** -/
structure Harmless (call : SinkCall) (before after : VmController) (w : Aftermath) : Prop where
  unlatched : after.control.latched = false
  intent : w.durable.intent = call.standing before
  journal : call.Journals before w.durable.journal

/-- The shrink is extended rather than settled: the goal is not reached and there is a lower target
that leaves the guest its minimum. -/
def Extends (vm : VmController) (state : VirtioMemState) (baseRam : Nat) : Prop :=
  ∃ intent, vm.control.intent = some intent ∧
    let floor := VmController.shrinkFloor vm.config state.blockSizeBytes baseRam
    let goal := VmController.shrinkGoal vm.control.journal intent.priorCurrentBytes
      state.blockSizeBytes floor
    goal < state.currentBytes ∧
      (VmController.extensionTarget state (VmController.extensionBytes
        (VmController.extensionStep vm.extension intent.operationId state) goal state) floor).isSome

/-- When a refusal is taken for what it is. A result needs a clock past the epoch, and taking the
intent back needs a write that takes effect. -/
def Recovers (vm : VmController) (w : Aftermath) : SinkCall → Prop
  | .act _ _ _ => w.decided ≠ some 0 ∧ w.lost = false
  | .extendShrink state baseRam => Extends vm state baseRam ∧ w.lost = false
  | .settleShort _ _ => False

end SinkCall

/-! ## The rules of the steps -/

variable {α β : Type} {vm : VmController} {w : Aftermath}

/-- The action returns in `Q`, and ends in `P` where it leaves with an error. -/
abbrev Leaves (action : VmAction α) (Q : α → VmController → Aftermath → Prop)
    (P : VmController → Aftermath → Prop) (vm : VmController) (w : Aftermath) : Prop :=
  Action.wp sinkLaw action Q (fun _ => P) vm w

section Rules

variable {Q : α → VmController → Aftermath → Prop} {U : Unit → VmController → Aftermath → Prop}
  {P : VmController → Aftermath → Prop}

theorem leaves_bind {action : VmAction α} {next : α → VmAction β}
    {Q : β → VmController → Aftermath → Prop}
    (h : Leaves action (fun value vm w => Leaves (next value) Q P vm w) P vm w) :
    Leaves (action >>= next) Q P vm w :=
  (Action.wp_bind action next).mpr h

theorem leaves_ask {op : VmOp} {Q : VmAns op → VmController → Aftermath → Prop}
    (h : ∀ answer, Q answer vm (w.next op answer)) : Leaves (ask op) Q P vm w :=
  ⟨trivial, h⟩

theorem leaves_get {Q : VmController → VmController → Aftermath → Prop} (h : Q vm vm w) :
    Leaves get Q P vm w :=
  h

theorem leaves_modify {f : VmController → VmController} {U : PUnit → VmController → Aftermath → Prop}
    (h : U () (f vm) w) : Leaves (modify f) U P vm w :=
  h

theorem leaves_setControl {f : DurableControlState → DurableControlState}
    (h : U () { vm with control := f vm.control } w) : Leaves (VmController.setControl f) U P vm w :=
  h

theorem leaves_controllerError {answer : Except String α}
    (h : ∀ value, answer = .ok value → Q value vm w)
    (herror : ∀ error, answer = .error error → P vm w) :
    Leaves (controllerError answer) Q P vm w := by
  refine (Action.wp_ofExcept _).mpr ⟨fun value hvalue => ?_, fun error herr => ?_⟩
  · exact h value (Result.mapError_eq_ok.mp hvalue)
  · cases answer with
    | error reason => exact herror reason rfl
    | ok value => cases herr

theorem leaves_now {Q : Nat → VmController → Aftermath → Prop} (h : ∀ now, Q now vm (w.clock (.ok now)))
    (herror : P vm w) : Leaves VmController.now Q P vm w := by
  apply leaves_bind
  refine leaves_ask fun answer => ?_
  cases answer with
  | error error => exact leaves_controllerError nofun fun _ _ => herror
  | ok now => exact leaves_controllerError (by rintro _ ⟨⟩; exact h now) nofun

theorem leaves_tolerance {Q : Nat → VmController → Aftermath → Prop} (h : ∀ tolerance, Q tolerance vm w)
    (herror : P vm w) : Leaves VmController.futureToleranceMillis Q P vm w :=
  leaves_controllerError (fun tolerance _ => h tolerance) fun _ _ => herror

theorem leaves_save (hsaved : U () vm { w with durable := vm.control })
    (hfailed : P vm { w with durable := vm.control }) (hlost : P vm { w with lost := true }) :
    Leaves VmController.save U P vm w := by
  apply leaves_bind
  show Leaves _ _ _ vm w
  apply leaves_bind
  refine leaves_ask fun saved => ?_
  match saved with
  | .written => exact leaves_controllerError (fun _ _ => hsaved) nofun
  | .failed _ true => exact leaves_controllerError nofun fun _ _ => hfailed
  | .failed _ false => exact leaves_controllerError nofun fun _ _ => hlost

theorem leaves_nextOperationId {Q : String → VmController → Aftermath → Prop}
    (h : ∀ id counter, Q id { vm with operationCounter := counter } w) :
    Leaves VmController.nextOperationId Q P vm w :=
  h _ _

theorem leaves_minimumStalled {Q : Bool → VmController → Aftermath → Prop}
    (h : ∀ stalled, Q stalled vm w) : Leaves VmController.minimumStalled Q P vm w := by
  apply leaves_bind
  apply leaves_get
  split
  · exact h false
  · apply leaves_bind
    refine leaves_ask fun now => ?_
    exact h _

/-- Once the clock was read, a publication is not noted. -/
theorem leaves_publish {state : VirtioMemState} {refusal : Option MemoryResult} {now : Nat}
    (hdecided : w.decided = some now) (h : U () vm w) :
    Leaves (VmController.publish state refusal) U P vm w := by
  apply leaves_bind
  refine leaves_ask fun answer => ?_
  cases answer with
  | error error => exact h
  | ok other =>
      have hclock : w.next .nowUnixMillis (.ok other) = w := by
        obtain ⟨durable, refused, decided, lost⟩ := w
        cases hdecided
        rfl
      rw [hclock]
      exact ⟨trivial, fun _ => h⟩

end Rules

/-! ## Steps that send no command -/

/-- The action calls no sink, so nothing was refused. -/
def Quiet (action : VmAction α) : Prop :=
  ∀ vm w, w.refused = false →
    Leaves action (fun _ _ w => w.refused = false) (fun _ w => w.refused = false) vm w

theorem Quiet.leaves {action : VmAction α} (h : Quiet action)
    {Q : α → VmController → Aftermath → Prop} {P : VmController → Aftermath → Prop}
    (hw : w.refused = false) (hQ : ∀ value vm w, w.refused = false → Q value vm w)
    (hP : ∀ vm w, w.refused = false → P vm w) : Leaves action Q P vm w :=
  Action.wp_mono (h vm w hw) hQ fun _ => hP

theorem quiet_bind {action : VmAction α} {next : α → VmAction β} (h : Quiet action)
    (hnext : ∀ value, Quiet (next value)) : Quiet (action >>= next) := by
  intro vm w hw
  apply leaves_bind
  exact h.leaves hw (fun value vm w hw => hnext value vm w hw) fun _ _ hw => hw

theorem quiet_pure (value : α) : Quiet (pure value) := fun _ _ hw => hw

theorem quiet_ofExcept (answer : Except HostRuntimeError α) : Quiet (Action.ofExcept answer) := by
  cases answer <;> exact fun _ _ hw => hw

theorem quiet_controllerError (answer : Except String α) : Quiet (controllerError answer) :=
  quiet_ofExcept _

theorem quiet_get : Quiet (get : VmAction VmController) := fun _ _ hw => hw

theorem quiet_setControl (f : DurableControlState → DurableControlState) :
    Quiet (VmController.setControl f) := fun _ _ hw => hw

theorem quiet_ask {op : VmOp} (h : ∀ (w : Aftermath) answer, (w.next op answer).refused = w.refused) :
    Quiet (ask op) :=
  fun _ w hw => leaves_ask fun answer => (h w answer).trans hw

theorem quiet_nowUnixMillis : Quiet (ask .nowUnixMillis) := by
  apply quiet_ask
  intro w answer
  cases answer <;> rfl

theorem quiet_now : Quiet VmController.now :=
  quiet_bind quiet_nowUnixMillis fun _ => quiet_controllerError _

theorem quiet_save : Quiet VmController.save := by
  refine quiet_bind quiet_get fun vm => quiet_bind (quiet_ask fun w saved => ?_) fun _ =>
    quiet_controllerError _
  match saved with
  | .written | .failed _ true | .failed _ false => rfl

theorem quiet_recordResult (result : MemoryResult) : Quiet (VmController.recordResult result) :=
  quiet_bind quiet_get fun _ => quiet_bind (quiet_setControl _) fun _ => quiet_controllerError _

theorem quiet_publish (state : VirtioMemState) (refusal : Option MemoryResult) :
    Quiet (VmController.publish state refusal) := by
  refine quiet_bind quiet_nowUnixMillis fun answer => ?_
  cases answer with
  | error error => exact quiet_pure ()
  | ok now => exact quiet_bind quiet_get fun _ => quiet_bind (quiet_ask fun _ _ => rfl) fun _ =>
      quiet_pure ()

theorem quiet_tolerance : Quiet VmController.futureToleranceMillis :=
  quiet_bind quiet_get fun _ => quiet_controllerError _

theorem quiet_admitIfNew (admission : RequestAdmission) (request : MemoryRequest) (now : Nat) :
    Quiet (VmController.admitIfNew admission request now) := by
  cases admission with
  | replay => exact quiet_pure ()
  | new => exact quiet_bind quiet_tolerance fun _ => quiet_bind quiet_get fun _ =>
      quiet_bind (quiet_setControl _) fun _ => quiet_controllerError _

theorem quiet_recordUnexecuted (state : VirtioMemState) (admission : RequestAdmission)
    (result : MemoryResult) : Quiet (VmController.recordUnexecuted state admission result) :=
  quiet_bind (quiet_admitIfNew _ _ _) fun _ => quiet_bind (quiet_recordResult _) fun _ =>
    quiet_bind quiet_save fun _ => quiet_bind (quiet_publish _ _) fun _ => quiet_pure _

theorem quiet_refuse (ready : Ready) (reason : String) : Quiet (VmController.refuse ready reason) := by
  refine quiet_bind quiet_now fun now => ?_
  split
  · exact quiet_bind (quiet_publish _ _) fun _ => quiet_pure _
  · exact quiet_recordUnexecuted _ _ _

theorem quiet_recordUncertain (reason : String) : Quiet (VmController.recordUncertain reason) := by
  refine quiet_bind quiet_get fun vm => ?_
  split
  · exact quiet_bind quiet_now fun _ => quiet_recordResult _
  · exact quiet_pure ()

theorem quiet_latch (reason : String) : Quiet (VmController.latch reason) := by
  refine quiet_bind quiet_get fun vm => ?_
  split
  · exact quiet_pure ()
  · exact quiet_bind (quiet_setControl _) fun _ => quiet_bind (quiet_recordUncertain _) fun _ =>
      quiet_save

/-! ## Settling a short resize -/

/-- Recording an uncertain result says nothing about the latch. -/
theorem leaves_recordUncertain {reason text : String} {U : Unit → VmController → Aftermath → Prop}
    {P : VmController → Aftermath → Prop} (hlatched : vm.control.latchReason = some text)
    (hU : ∀ vm w, vm.control.latchReason = some text → U () vm w)
    (hP : ∀ vm w, vm.control.latchReason = some text → P vm w) :
    Leaves (VmController.recordUncertain reason) U P vm w := by
  apply leaves_bind
  show Leaves _ U P vm w
  split
  · apply leaves_bind
    refine leaves_now (fun now => ?_) (hP _ _ hlatched)
    apply leaves_bind
    show Leaves _ _ _ vm _
    apply leaves_bind
    exact leaves_controllerError (fun _ _ => hU _ _ hlatched) fun _ _ => hP _ _ hlatched
  · exact hU _ _ hlatched

/-- Whatever becomes of the write, the VM is latched. -/
theorem leaves_latch {reason : String} {U : Unit → VmController → Aftermath → Prop}
    {P : VmController → Aftermath → Prop} (hunlatched : vm.control.latched = false)
    (hU : ∀ vm w, vm.control.latched = true → U () vm w)
    (hP : ∀ vm w, vm.control.latched = true → P vm w) :
    Leaves (VmController.latch reason) U P vm w := by
  have hlatched : ∀ vm : VmController, vm.control.latchReason = some (boundedReason reason) →
      vm.control.latched = true := by
    intro vm h
    simp [DurableControlState.latched, h]
  apply leaves_bind
  show Leaves _ U P vm w
  rw [hunlatched]
  apply leaves_bind
  show Leaves _ _ P { vm with control :=
    { vm.control with latchReason := some (boundedReason reason) } } w
  apply leaves_bind
  refine leaves_recordUncertain rfl (fun vm w h => ?_) fun vm w h => hP vm w (hlatched vm h)
  exact leaves_save (hU vm _ (hlatched vm h)) (hP vm _ (hlatched vm h)) (hP vm _ (hlatched vm h))

/-- A settlement that was refused has latched the VM. -/
def LatchedIfRefused (vm : VmController) (w : Aftermath) : Prop :=
  w.refused = true → vm.control.latched = true

theorem leaves_settleShort {direction : CommandDirection} {state : VirtioMemState}
    (hunlatched : vm.control.latched = false) (hw : w.refused = false) :
    Leaves (VmController.settleShort direction state) (fun _ => LatchedIfRefused) LatchedIfRefused
      vm w := by
  have hquiet : ∀ {vm : VmController} {w : Aftermath}, w.refused = false → LatchedIfRefused vm w := by
    intro _ w hw hrefused
    rw [hw] at hrefused
    cases hrefused
  apply leaves_bind
  refine leaves_ask fun stopped => ?_
  cases stopped with
  | true => exact hquiet hw
  | false =>
    apply leaves_bind
    apply leaves_nextOperationId
    intro operationId counter
    apply leaves_bind
    refine leaves_now (fun now => ?_) (hquiet hw)
    apply leaves_bind
    show Leaves _ _ _ { vm with operationCounter := counter, control := _ } _
    apply leaves_bind
    refine leaves_save ?_ (hquiet hw) (hquiet hw)
    apply leaves_bind
    show Leaves _ _ _ { vm with operationCounter := _, control := _, pendingSince := none } _
    apply leaves_bind
    refine leaves_ask fun answer => ?_
    match answer with
    | .ok () => exact hquiet (Bool.or_eq_false_iff.mpr ⟨hw, rfl⟩)
    | .error error =>
        apply leaves_bind
        apply leaves_latch
        · exact hunlatched
        · exact fun vm w h _ => h
        · exact fun vm w h _ => h

/-! ## Extending a shrink -/

section Calls

variable {call : SinkCall} {before : VmController}

/-- What is proved of the end of every step: a refusal is harmless exactly where it is recovered. -/
def Accounted (call : SinkCall) (before after : VmController) (w : Aftermath) : Prop :=
  w.refused = true → (call.Harmless before after w ↔ call.Recovers before w)

theorem accounted_unrefused (hw : w.refused = false) : Accounted call before vm w := by
  intro hrefused
  rw [hw] at hrefused
  cases hrefused

/-- A step that latches on a refusal never recovers from one. -/
theorem LatchedIfRefused.accounted (h : LatchedIfRefused vm w) (hnever : ¬ call.Recovers before w) :
    Accounted call before vm w := by
  intro hrefused
  refine iff_of_false (fun hharmless => ?_) hnever
  have hunlatched := hharmless.unlatched
  rw [h hrefused] at hunlatched
  cases hunlatched

variable {state : VirtioMemState} {baseRam : Nat} {intent : CommandIntent}

theorem leaves_sendExtension {operationId : String} {target stepBytes : Nat}
    (hcall : call = .extendShrink state baseRam) (hextends : SinkCall.Extends before state baseRam)
    (hintent : before.control.intent = some intent) (howned : intent.targetBytes = state.requestedBytes)
    (hlower : target < state.requestedBytes) (hcontrol : vm.control = before.control)
    (hunlatched : before.control.latched = false) (hw : w.refused = false) (hlost : w.lost = false) :
    Leaves (VmController.sendExtension state operationId target stepBytes)
      (fun _ => Accounted call before) (Accounted call before) vm w := by
  subst hcall
  apply leaves_bind
  show Leaves _ _ _ { vm with control := { vm.control with
    intent := vm.control.intent.map fun intent => { intent with targetBytes := target } } } w
  apply leaves_bind
  refine leaves_save ?_ (accounted_unrefused hw) (accounted_unrefused hw)
  apply leaves_bind
  show Leaves _ _ _ { vm with control := _, pendingProgress := none, extension := _ } _
  apply leaves_bind
  refine leaves_ask fun answer => ?_
  match answer with
  | .ok () => exact accounted_unrefused (Bool.or_eq_false_iff.mpr ⟨hw, rfl⟩)
  | .error (.commandUnknown reason) =>
      -- The outcome is unknown, which is no refusal.
      have hquiet : Quiet (VmController.latch
          s!"extending a shrink failed: {(ResizeSinkError.commandUnknown reason).toString}") :=
        quiet_latch _
      apply leaves_bind
      exact hquiet.leaves (Bool.or_eq_false_iff.mpr ⟨hw, rfl⟩)
        (fun _ _ _ hw => accounted_unrefused hw) fun _ _ hw => accounted_unrefused hw
  | .error (.rejected reason) =>
      apply leaves_bind
      show Leaves _ _ _ { vm with control := _, pendingProgress := none, extension := _ } _
      apply leaves_bind
      -- The previous target is back in memory; on disk only if the write takes effect.
      have hback : ({ vm.control with
          intent := (vm.control.intent.map fun intent => { intent with targetBytes := target }).map
            fun intent => { intent with targetBytes := state.requestedBytes } } :
          DurableControlState) = before.control := by
        rw [hcontrol, hintent]
        simp only [Option.map_some, ← howned]
        rw [← hintent]
      have hrestored : ∀ {vm : VmController} {w : Aftermath}, vm.control = before.control →
          w.durable = vm.control → w.lost = false →
          Accounted (.extendShrink state baseRam) before vm w := by
        intro vm w hvm hdurable hlost _
        rw [hvm] at hdurable
        refine iff_of_true ⟨by rw [hvm]; exact hunlatched, ?_, ?_⟩ ⟨hextends, hlost⟩
        · rw [hdurable]; rfl
        · rw [hdurable]; rfl
      refine leaves_save (hrestored hback rfl hlost) (hrestored hback rfl hlost) fun _ => ?_
      refine iff_of_false (fun hharmless => ?_) fun hrecovers => ?_
      · have hkept := hharmless.intent
        simp only [SinkCall.standing, Aftermath.next, Aftermath.answered, hcontrol, hintent,
          Option.map_some, Option.some.injEq] at hkept
        rw [← hkept] at howned
        exact absurd howned hlower.ne
      · cases hrecovers.2

theorem leaves_extendShrink (hcalled : SinkCall.Called vm (.extendShrink state baseRam))
    (hunlatched : vm.control.latched = false) (hw : w.refused = false) (hlost : w.lost = false) :
    Leaves (VmController.extendShrink state baseRam)
      (fun _ => Accounted (.extendShrink state baseRam) vm)
      (Accounted (.extendShrink state baseRam) vm) vm w := by
  obtain ⟨intent, hintent, howned⟩ := hcalled
  -- Every way into a settlement is one where the shrink is not extended.
  have hsettle : ∀ {after : VmController} {w : Aftermath}, ¬ SinkCall.Extends vm state baseRam →
      after.control.latched = false → w.refused = false →
      Leaves (VmController.settleShort .shrink state)
        (fun _ => Accounted (.extendShrink state baseRam) vm)
        (Accounted (.extendShrink state baseRam) vm) after w := by
    intro after w hnever hafter hw
    refine Action.wp_mono (leaves_settleShort hafter hw) ?_ ?_
    · exact fun _ _ _ h => h.accounted fun hrecovers => hnever hrecovers.1
    · exact fun _ _ _ h => h.accounted fun hrecovers => hnever hrecovers.1
  apply leaves_bind
  apply leaves_get
  rw [hintent]
  dsimp only
  split
  · next hreached =>
    refine hsettle ?_ hunlatched hw
    rintro ⟨other, hother, hbeyond, -⟩
    rw [hintent] at hother
    cases hother
    exact absurd hbeyond (not_lt.mpr hreached)
  next hbeyond =>
  apply leaves_bind
  apply leaves_modify
  split
  · next hfloor =>
    have hnever : ¬ SinkCall.Extends vm state baseRam := by
      rintro ⟨other, hother, -, htarget⟩
      rw [hintent] at hother
      cases hother
      rw [hfloor] at htarget
      cases htarget
    apply leaves_bind
    apply leaves_minimumStalled
    intro stalled
    split
    · exact hsettle hnever hunlatched hw
    · exact accounted_unrefused hw
  next target htarget =>
  apply leaves_bind
  refine leaves_ask fun stopped => ?_
  cases stopped with
  | true => exact accounted_unrefused hw
  | false =>
    refine leaves_sendExtension rfl ⟨intent, hintent, not_le.mp hbeyond, ?_⟩ hintent howned
      (extensionTarget_eq_some htarget).1 rfl hunlatched hw hlost
    rw [htarget]
    rfl

/-! ## Executing a request -/

variable {ready : Ready} {ceiling : Option Nat} {committed : Nat}

/-- A handed request is admitted as the only thing the journal holds. -/
theorem leaves_admitIfNew {now : Nat} {U : Unit → VmController → Aftermath → Prop}
    {P : VmController → Aftermath → Prop} (hhanded : SinkCall.Handed vm ready)
    (h : U () { vm with control := { vm.control with journal := ⟨some ready.request, none⟩ } } w)
    (hP : ∀ vm, P vm w) : Leaves (VmController.admitIfNew ready.admission ready.request now) U P vm w := by
  obtain ⟨⟨earlier, slack, hadmitted⟩, hopen⟩ := hhanded
  cases hadmission : ready.admission with
  | replay =>
      rw [hadmission] at hadmitted hopen
      have hheld := (MemoryRequestJournal.admit_replay (Prod.ext hadmitted rfl)).2
      have hjournal : vm.control.journal = ⟨some ready.request, none⟩ := by
        rw [← hheld, ← hopen rfl]
      have hsame : vm = { vm with control :=
          { vm.control with journal := ⟨some ready.request, none⟩ } } := by
        rw [← hjournal]
      rw [← hsame] at h
      exact h
  | new =>
      rw [hadmission] at hadmitted
      have hahead := (MemoryRequestJournal.admit_new (Prod.ext hadmitted rfl)).2.2.2
      apply leaves_bind
      refine leaves_tolerance (fun tolerance => ?_) (hP vm)
      apply leaves_bind
      show Leaves _ U P vm w
      apply leaves_bind
      show Leaves _ U P { vm with control := _ } w
      refine leaves_controllerError (fun _ hok => ?_) fun _ _ => hP _
      cases hcall : vm.control.journal.admitRequest ready.request vm.config.vmName
          vm.config.rawTelemetryServiceName now tolerance with
      | mk answer journal =>
          rw [hcall] at hok
          rcases MemoryRequestJournal.admit_cases hcall with
            ⟨_, rfl, -⟩ | ⟨-, -, hheld⟩ | ⟨-, rfl, -⟩
          · cases hok
          · exact absurd (hahead ready.request hheld).1 (lt_irrefl _)
          · exact h

/-- The refusal of a valid request is recorded exactly when the clock is past the epoch. -/
theorem recordResult_rejected {request : MemoryRequest} {now : Nat} {reason : String}
    (hvalid : request.Valid) :
    (⟨some request, none⟩ : MemoryRequestJournal).recordResult (.rejected request now reason) =
      if now = 0 then (.error "memory result has invalid observation/actual bytes",
        ⟨some request, none⟩)
      else (.ok (), ⟨some request, some (.rejected request now (boundedReason reason))⟩) := by
  have hok := MemoryRequest.validate_eq_ok.mpr hvalid
  have hreason := MemoryResult.boundedReason_valid reason
  simp only [MemoryRequestJournal.recordResult, MemoryRequestJournal.validate, hok,
    MemoryResult.rejected, MemoryResult.validateFor, Option.map_some]
  by_cases hnow : now = 0
  · simp [hnow]
  · simp [hnow, hreason, MemoryResult.outcomeAgrees]

theorem leaves_settleRefused {now : Nat} {reason : String}
    (hcall : call = .act ready ceiling committed) (hvalid : ready.request.Valid)
    (hjournal : vm.control.journal = ⟨some ready.request, none⟩)
    (hintent : vm.control.intent.isSome) (hunlatched : vm.control.latched = false)
    (hdurable : w.durable = vm.control) (hdecided : w.decided = some now) (hlost : w.lost = false) :
    Leaves (VmController.settleCommand ready now (.error (.rejected reason)))
      (fun _ => Accounted call before) (Accounted call before) vm w := by
  subst hcall
  -- As long as the file is not replaced, the intent is still in it.
  have hstanding : ∀ {vm' : VmController} {w' : Aftermath}, w'.durable = vm.control →
      ¬ (SinkCall.act ready ceiling committed).Recovers before w' →
      Accounted (.act ready ceiling committed) before vm' w' := by
    intro vm' w' hdurable hnever _
    refine iff_of_false (fun hharmless => ?_) hnever
    have hkept := hharmless.intent
    rw [hdurable] at hkept
    rw [hkept] at hintent
    cases hintent
  apply leaves_bind
  apply leaves_setControl
  apply leaves_bind
  apply leaves_modify
  apply leaves_bind
  show Leaves _ _ _ { vm with control := _, outstandingGrowth := _ } w
  apply leaves_bind
  apply leaves_bind
  apply leaves_get
  apply leaves_bind
  apply leaves_setControl
  dsimp only
  rw [hjournal, recordResult_rejected hvalid]
  refine leaves_controllerError (fun _ hok => ?_) fun _ herror => ?_
  · have hnow : now ≠ 0 := by
      rintro rfl
      cases hok
    rw [if_neg hnow]
    have hrejected : ∀ {vm' : VmController} {w' : Aftermath}, vm'.control.latched = false →
        w'.durable = { vm.control with
          intent := none
          journal := ⟨some ready.request, some (.rejected ready.request now (boundedReason reason))⟩ } →
        w'.decided = some now → w'.lost = false →
        Accounted (.act ready ceiling committed) before vm' w' := by
      intro vm' w' hunlatched hdurable hdecided hlost _
      refine iff_of_true ⟨hunlatched, by rw [hdurable]; rfl, ?_⟩ ⟨?_, hlost⟩
      · rw [hdurable]
        exact ⟨_, rfl, rfl, rfl⟩
      · rw [hdecided]
        simpa using hnow
    apply leaves_bind
    refine leaves_save ?_ (hrejected hunlatched rfl hdecided hlost)
      (hstanding hdurable fun hrecovers => by cases hrecovers.2)
    apply leaves_bind
    exact leaves_publish hdecided (hrejected hunlatched rfl hdecided hlost)
  · have hnow : now = 0 := by
      by_contra hnow
      rw [if_neg hnow] at herror
      cases herror
    exact hstanding hdurable fun hrecovers => hrecovers.1 (by rw [hdecided, hnow])

/-- An answer that was no refusal is only acted on. -/
theorem quiet_settleSent {now : Nat} {answer : Except ResizeSinkError Unit}
    (hsent : VmWorld.refused answer = false) : Quiet (VmController.settleCommand ready now answer) := by
  match answer with
  | .ok () =>
      exact quiet_bind (quiet_ask fun _ _ => rfl) fun _ => quiet_bind (fun _ _ hw => hw) fun _ =>
        quiet_bind (quiet_publish _ _) fun _ => quiet_pure _
  | .error (.commandUnknown reason) =>
      exact quiet_bind (quiet_latch _) fun _ => quiet_bind (quiet_publish _ _) fun _ => quiet_pure _
  | .error (.rejected reason) => cases hsent

theorem leaves_execute {now grant : Nat} (hcall : call = .act ready ceiling committed)
    (hhanded : SinkCall.Handed vm ready) (hvalid : ready.request.Valid)
    (hunlatched : vm.control.latched = false) (hw : w.refused = false)
    (hdecided : w.decided = some now) (hlost : w.lost = false) :
    Leaves (VmController.execute ready now grant committed)
      (fun _ => Accounted call before) (Accounted call before) vm w := by
  apply leaves_bind
  refine leaves_ask fun stopped => ?_
  cases stopped with
  | true => exact accounted_unrefused hw
  | false =>
    apply leaves_bind
    apply leaves_nextOperationId
    intro operationId counter
    apply leaves_bind
    refine leaves_admitIfNew hhanded ?_ fun _ => accounted_unrefused hw
    apply leaves_bind
    apply leaves_setControl
    apply leaves_bind
    refine leaves_save ?_ (accounted_unrefused hw) (accounted_unrefused hw)
    apply leaves_bind
    apply leaves_modify
    apply leaves_bind
    apply leaves_get
    apply leaves_bind
    refine leaves_ask fun answer => ?_
    apply leaves_bind
    cases hrefused : VmWorld.refused answer.result with
    | false =>
        refine (quiet_settleSent hrefused).leaves (Bool.or_eq_false_iff.mpr ⟨hw, hrefused⟩) ?_ ?_
        · exact fun _ _ _ hw => accounted_unrefused hw
        · exact fun _ _ hw => accounted_unrefused hw
    | true =>
        obtain ⟨reason, hreason⟩ : ∃ reason, answer.result = .error (.rejected reason) := by
          unfold VmWorld.refused at hrefused
          split at hrefused
          · next reason hanswer => exact ⟨reason, hanswer⟩
          · cases hrefused
        rw [hreason]
        exact leaves_settleRefused hcall hvalid rfl rfl hunlatched rfl hdecided hlost

theorem leaves_act (hhanded : SinkCall.Handed vm ready) (hunlatched : vm.control.latched = false) :
    Leaves (VmController.act ready ceiling committed)
      (fun _ => Accounted (.act ready ceiling committed) before)
      (Accounted (.act ready ceiling committed) before) vm (.start vm.control) := by
  have hquiet : ∀ {action : VmAction Step} {w : Aftermath}, Quiet action → w.refused = false →
      Leaves (VmController.uncommitted committed action)
        (fun _ => Accounted (.act ready ceiling committed) before)
        (Accounted (.act ready ceiling committed) before) vm w := by
    intro action w haction hw
    apply leaves_bind
    refine haction.leaves hw ?_ ?_
    · exact fun _ _ _ hw => accounted_unrefused hw
    · exact fun _ _ hw => accounted_unrefused hw
  apply leaves_bind
  refine leaves_now (fun now => ?_) (accounted_unrefused rfl)
  apply leaves_bind
  refine leaves_tolerance (fun tolerance => ?_) (accounted_unrefused rfl)
  apply leaves_bind
  apply leaves_get
  split
  · exact hquiet (quiet_refuse _ _) rfl
  next hvalidAt =>
  split
  · exact hquiet (quiet_refuse _ _) rfl
  apply leaves_bind
  -- Whatever is granted, only the branch that executes sends anything.
  have hgranted : ∀ grant, Leaves
      (if vm.config.observeOnly then VmController.uncommitted committed
          (VmController.refuse ready s!"observe_only: would grant {grant} bytes")
        else if grant = 0 then VmController.uncommitted committed (VmController.recordUnexecuted
          ready.state ready.admission (VmController.nothingGranted ready.request now))
        else VmController.execute ready now grant committed)
      (fun _ => Accounted (.act ready ceiling committed) before)
      (Accounted (.act ready ceiling committed) before) vm
      ((Aftermath.start vm.control).clock (.ok now)) := by
    intro grant
    split
    · exact hquiet (quiet_refuse _ _) rfl
    split
    · exact hquiet (quiet_recordUnexecuted _ _ _) rfl
    · exact leaves_execute rfl hhanded (MemoryRequest.validateAt_eq_ok.mp hvalidAt).1 hunlatched
        rfl rfl rfl
  apply leaves_bind
  apply leaves_get
  split
  · apply leaves_bind
    refine leaves_ask fun answer => ?_
    apply leaves_bind
    exact (Action.wp_ofExcept _).mpr
      ⟨fun available _ => hgranted _, fun _ _ => accounted_unrefused rfl⟩
  · exact hgranted _

/-- A request that `observe` lets through is one `act` may be handed. -/
theorem leaves_admission {state : VirtioMemState} {charge : Option (Nat × Nat)}
    {request : MemoryRequest} {baseRam : Nat} :
    Leaves (VmController.admission state (.held charge) request baseRam)
      (fun seen after _ => ∀ ready, seen = .ready ready → SinkCall.Handed after ready)
      (fun _ _ => True) vm w := by
  have hheld : ∀ {refusal : Option MemoryResult} {w : Aftermath},
      Leaves (do VmController.publish state refusal; return Observed.held charge)
        (fun seen after _ => ∀ ready, seen = .ready ready → SinkCall.Handed after ready)
        (fun _ _ => True) vm w := by
    intro refusal w
    apply leaves_bind
    apply leaves_bind
    refine leaves_ask fun answer => ?_
    cases answer with
    | error error => exact fun _ => nofun
    | ok now => exact ⟨trivial, fun _ _ => nofun⟩
  apply leaves_bind
  refine leaves_now (fun now => ?_) trivial
  apply leaves_bind
  refine leaves_tolerance (fun tolerance => ?_) trivial
  apply leaves_bind
  apply leaves_get
  dsimp only
  split
  · exact hheld
  next admission hadmitted =>
  split
  · exact hheld
  next hopen =>
  split
  · exact hheld
  · rintro ready ⟨⟩
    refine ⟨⟨now, tolerance, hadmitted⟩, ?_⟩
    simpa using hopen

/-- **A refused command is harmless exactly where it is recovered.** A settlement never is: it
latches the VM. An extension and a new request are, as long as the write that takes the intent back
takes effect and, for the result of the request, the clock is past the epoch. -/
theorem refusal_harmless_iff {call : SinkCall} {vm vm' : VmController} {events : List (Event VmAns)}
    {outcome : Except HostRuntimeError Unit} (hcalled : call.Called vm)
    (hunlatched : vm.control.latched = false)
    (hrun : (call.run vm).Runs events (some (outcome, vm')))
    (hrefused : (sinkLaw.after (.start vm.control) events).refused = true) :
    call.Harmless vm vm' (sinkLaw.after (.start vm.control) events) ↔
      call.Recovers vm (sinkLaw.after (.start vm.control) events) := by
  have hleaves : Leaves call.run (fun _ => Accounted call vm) (Accounted call vm) vm
      (.start vm.control) := by
    cases call with
    | act ready ceiling committed =>
        apply leaves_bind
        exact leaves_act hcalled hunlatched
    | extendShrink state baseRam =>
        apply leaves_bind
        exact leaves_extendShrink hcalled hunlatched rfl rfl
    | settleShort direction state =>
        apply leaves_bind
        refine Action.wp_mono (leaves_settleShort hunlatched rfl) ?_ ?_
        · exact fun _ _ _ h => h.accounted id
        · exact fun _ _ _ h => h.accounted id
  have hend := (Prog.Safe.accepts hleaves hrun).2 _ rfl
  cases outcome with
  | error error => exact hend hrefused
  | ok _ => exact hend hrefused

end Calls

/-! ## A device that moved while it was settled -/

/-- A shrink from 4 GiB to 2 GiB that has come to 3 GiB. -/
def heldController : VmController :=
  .new { vmName := "guest", deviceAlias := "memory0", priority := 0, pollInterval := 1000000000,
         convergenceTimeout := 60000000000, rawTelemetryServiceName := "service",
         rawTelemetryFutureTolerance := 5000000000, hostMinHeadroomBytes := 0, observeOnly := false,
         minRam := 1073741824, maxRam := 8589934592, telemetryPath := none } 1
    (⟨"guest", "memory0", "", none⟩, ⟨none, some ⟨"1-1", 100000, .shrink, 2 ^ 32, 2 ^ 32, 2 ^ 31⟩,
      ⟨some ⟨1, ⟨"guest", "service", "session", 1⟩, .remove, 2 ^ 31, 100000, 120000⟩, none⟩⟩)

def heldDevice : VirtioMemState := ⟨2 ^ 33, 2 ^ 21, 2 ^ 31, 3 * 2 ^ 30⟩

/-- Everything is answered, but the sink finds the device moved. -/
def movedDevice : (op : VmOp) → VmAns op
  | .stopRequested => false
  | .instantNow => 0
  | .nowUnixMillis => .ok 100001
  | .memoryState => .ok heldDevice
  | .readGuest => .error "unread"
  | .writeTelemetry _ _ => .ok ()
  | .publishStatus _ => .ok ()
  | .availableBytes => .ok 0
  | .persist _ => .written
  | .requestResize _ _ _ _ => ⟨[], .error (.rejected "live device state changed")⟩
  | .retargetPending _ _ => .error (.rejected "live device state changed")
  | .widenUsableRegion _ => .ok ()

/-- What a call comes to when the device has moved. -/
def SinkCall.whenMoved (call : SinkCall) : List (Event VmAns) ×
    (Except HostRuntimeError Unit × VmController) :=
  let (events, outcome, _) := (call.run heldController).simulate (fun _ op => (movedDevice op, ())) ()
  (events, outcome)

theorem SinkCall.whenMoved_runs (call : SinkCall) :
    (call.run heldController).Runs call.whenMoved.1
      (some (call.whenMoved.2.1, call.whenMoved.2.2)) :=
  Prog.simulate_runs _ _ _

theorem extension_harmless : (SinkCall.extendShrink heldDevice (2 ^ 30)).Harmless heldController
    (SinkCall.extendShrink heldDevice (2 ^ 30)).whenMoved.2.2
    (sinkLaw.after (.start heldController.control)
      (SinkCall.extendShrink heldDevice (2 ^ 30)).whenMoved.1) :=
  (@refusal_harmless_iff (.extendShrink heldDevice (2 ^ 30)) heldController _ _ _ ⟨_, rfl, rfl⟩ rfl
    (SinkCall.whenMoved_runs _) (by decide +kernel)).mpr
    ⟨⟨_, rfl, by decide +kernel, by decide +kernel⟩, by decide +kernel⟩

/-- **A settlement that was refused stops a healthy VM.** -/
theorem settlement_not_harmless : ¬ ∀ (call : SinkCall) (vm vm' : VmController)
    (events : List (Event VmAns)) (outcome : Except HostRuntimeError Unit), call.Called vm →
    vm.control.latched = false → (call.run vm).Runs events (some (outcome, vm')) →
    (sinkLaw.after (.start vm.control) events).refused = true →
    call.Harmless vm vm' (sinkLaw.after (.start vm.control) events) := by
  intro hclaim
  have hlatched : (SinkCall.settleShort .shrink heldDevice).whenMoved.2.2.control.latched = true := by
    decide +kernel
  have hharmless := hclaim (.settleShort .shrink heldDevice) heldController _ _ _ trivial rfl
    (SinkCall.whenMoved_runs (.settleShort .shrink heldDevice)) (by decide +kernel)
  exact absurd hharmless.unlatched (ne_of_eq_of_ne hlatched nofun)

end VirtioMem.Host
