import VirtioMem.Host.Protocol

/-!
# Clearing a latch by hand

`clear-latch` is a process of its own, which the operator runs while the daemon does not. It may first
settle a stuck shrink, since a latch over one cannot be cleared on divergent state; only then is the
checkpoint rewritten. Reports to the terminal are left out, and so is the compatibility check before
the first step, which can only end the process.
-/

namespace VirtioMem.Host

open VirtioMem.Core VirtioMem.Effect VirtioMem.Word VirtioMem.Text

abbrev OperatorAction (α : Type) : Type := Action VmOp VmAns Unit String α

/-- Send one operation. -/
abbrev tell (op : VmOp) : OperatorAction (VmAns op) := Action.perform op

namespace Operator

/-- A live reading, which is validated where it is parsed. -/
def memoryState : OperatorAction VirtioMemState := do
  let answer ← tell .memoryState
  let state ← Action.ofExcept answer
  Action.ofExcept (match state.validate with
    | .error error => .error error.toString
    | .ok () => .ok state)

/-- Request what the guest kept. A dry run goes on with the state that would produce. -/
def settleStuckShrink (apply : Bool) : OperatorAction VirtioMemState := do
  let live ← memoryState
  if live.requestedBytes = live.currentBytes then return live
  else if live.requestedBytes > live.currentBytes then
    Action.throw "clear-latch settles only a stuck shrink; this device is still growing"
  else if !apply then return { live with requestedBytes := live.currentBytes }
  else
    let command ← tell (.retargetPending live live.currentBytes)
    Action.ofExcept (command.mapError ResizeSinkError.toString)
    let settled ← memoryState
    if settled.requestedBytes ≠ settled.currentBytes then
      Action.throw "stuck shrink did not settle at the guest's current allocation"
    else return settled

def actuationLatched (config : HostConfig) (fingerprint : String) (file : Option CheckpointFile) :
    Except String Bool :=
  (Checkpoint.openWith config fingerprint true file).map fun opened => opened.2.latched

/-- Write what the clearing produced, unless it was a dry run. -/
def saveCleared : String × Option CheckpointFile → OperatorAction String
  | (message, none) => return message
  | (message, some file) => do
    let saved ← tell (.persist file)
    Action.ofExcept (match saved with
      | .written => .ok message
      | .failed error _ => .error error)

def runClearLatch (config : HostConfig) (fingerprint reason : String) (apply : Bool)
    (file : Option CheckpointFile) : OperatorAction String := do
  let latched ← Action.ofExcept (actuationLatched config fingerprint file)
  if !latched then Action.throw "target-controller actuation is not latched"
  else
    let live ← settleStuckShrink apply
    let answer ← tell .nowUnixMillis
    let now ← Action.ofExcept answer
    let cleared ← Action.ofExcept
      (clearActuationLatch config live fingerprint reason now apply file)
    saveCleared cleared

end Operator

/-! ## The protocol of a clearing -/

/-- A clearing may settle a shrink at what is plugged, and rewrite the file on a converged device. -/
def VmWorld.MayOperate (w : VmWorld) : VmOp → Prop
  | .memoryState | .nowUnixMillis => True
  | .retargetPending expected target =>
      w.live = some expected ∧ w.fresh = true ∧ expected.requestedBytes < expected.currentBytes ∧
        target = expected.currentBytes
  | .persist file => ∃ live now reason journal, w.live = some live ∧ w.fresh = true ∧
      live.requestedBytes = live.currentBytes ∧
      clearedJournal w.control live now reason = .ok journal ∧
      file.control = ⟨none, none, journal⟩
  | _ => False

def operatorLaw : Monitor VmWorld VmOp VmAns where
  may := VmWorld.MayOperate
  next := VmWorld.next

variable {α : Type} {w : VmWorld}

/-- The action keeps that protocol and returns in `Q`. -/
abbrev Operates (action : OperatorAction α) (Q : α → VmWorld → Prop) (w : VmWorld) : Prop :=
  Action.wp operatorLaw action (fun value _ w => Q value w) (fun _ _ _ => True) () w

theorem operates_bind {β : Type} {action : OperatorAction α} {next : α → OperatorAction β}
    {Q : β → VmWorld → Prop}
    (h : Operates action (fun value w => Operates (next value) Q w) w) :
    Operates (action >>= next) Q w :=
  (Action.wp_bind action next).mpr h

theorem operates_tell {op : VmOp} {Q : VmAns op → VmWorld → Prop} (hmay : w.MayOperate op)
    (h : ∀ answer, Q answer (w.next op answer)) : Operates (tell op) Q w :=
  ⟨hmay, h⟩

theorem operates_ofExcept {answer : Except String α} {Q : α → VmWorld → Prop}
    (h : ∀ value, answer = .ok value → Q value w) : Operates (Action.ofExcept answer) Q w :=
  (Action.wp_ofExcept answer).mpr ⟨h, fun _ _ => trivial⟩

theorem operates_memoryState {Q : VirtioMemState → VmWorld → Prop}
    (h : ∀ state w', w'.live = some state → w'.fresh = true → w'.disk = w.disk → Q state w') :
    Operates Operator.memoryState Q w := by
  apply operates_bind
  refine operates_tell trivial fun answer => ?_
  apply operates_bind
  apply operates_ofExcept
  rintro state rfl
  apply operates_ofExcept
  intro value hvalue
  split at hvalue
  · cases hvalue
  next hvalid =>
  cases hvalue
  show Q state (w.read (.ok state))
  apply h <;> simp [VmWorld.read, VmWorld.accepted, hvalid]

/-- What is settled was read on a converged device, or nothing will be written. -/
theorem operates_settleStuckShrink {apply : Bool} {Q : VirtioMemState → VmWorld → Prop}
    (h : ∀ state w', w'.disk = w.disk → (apply = true → w'.live = some state ∧ w'.fresh = true) →
      Q state w') : Operates (Operator.settleStuckShrink apply) Q w := by
  apply operates_bind
  refine operates_memoryState fun live w' hlive hfresh hdisk => ?_
  split
  · exact h _ _ hdisk fun _ => ⟨hlive, hfresh⟩
  split
  · trivial
  split
  · next hdry =>
    refine h _ _ hdisk ?_
    intro happly
    rw [happly] at hdry
    cases hdry
  next hne hgrowing _ =>
  apply operates_bind
  refine operates_tell ⟨hlive, hfresh, by omega, rfl⟩ fun answer => ?_
  apply operates_bind
  apply operates_ofExcept
  intro _ _
  apply operates_bind
  refine operates_memoryState fun settled w'' hlive hfresh hdisk' => ?_
  split
  · trivial
  · exact h _ _ (hdisk'.trans hdisk) fun _ => ⟨hlive, hfresh⟩

/-- **A clearing keeps its protocol.** -/
theorem operates_runClearLatch {config : HostConfig} {fingerprint reason : String} {apply : Bool} :
    Operates (Operator.runClearLatch config fingerprint reason apply w.disk) (fun _ _ => True) w := by
  apply operates_bind
  apply operates_ofExcept
  intro latched _
  split
  · trivial
  apply operates_bind
  refine operates_settleStuckShrink fun live w' hdisk hread => ?_
  apply operates_bind
  refine operates_tell trivial fun answer => ?_
  apply operates_bind
  apply operates_ofExcept
  intro now _
  generalize hcleared : clearActuationLatch config live fingerprint reason now apply w.disk = cleared
  apply operates_bind
  apply operates_ofExcept
  rintro ⟨message, written⟩ rfl
  cases written with
  | none => trivial
  | some file =>
      obtain ⟨happly, hconverged, hlatch, hintent, hjournal⟩ := clearActuationLatch_ok hcleared
      obtain ⟨hlive, hfresh⟩ := hread happly
      apply operates_bind
      refine operates_tell ⟨live, now, trim reason, file.control.journal, hlive, hfresh, hconverged,
        ?_, ?_⟩ fun answer => ?_
      · show clearedJournal (controlOf w'.disk) live now (trim reason) = _
        rw [hdisk]
        exact hjournal
      · rw [← hlatch, ← hintent]
      · apply operates_ofExcept
        intros
        trivial

end VirtioMem.Host
