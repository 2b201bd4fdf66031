import VirtioMem.Host.Checkpoint
import VirtioMem.Core.Telemetry
import VirtioMem.Core.Pool
import VirtioMem.Lib.Effect

/-!
# One VM of the host runtime

What the host does for one VM in one round: `observe` reads the device, resolves the recorded
command and looks at the guest's request; `act` executes a request that may be executed once the pool
has been allocated. Everything it asks or tells the outside is an operation of `VmOp`, in the order
of the source.

Logging is left out, with the fields that only serve it and the clock readings that only feed it.
-/

namespace VirtioMem.Host

open VirtioMem.Core VirtioMem.Effect VirtioMem.Word VirtioMem.Text

/-- Admission leaves slack above the hard reserve for host activity between observations. -/
def growAdmissionMarginBytes : Nat := 256 * 1024 * 1024

def validateGrowHeadroom (currentBytes targetBytes availableBytes minimumHeadroomBytes : Nat) :
    Except String Unit :=
  if targetBytes ≤ currentBytes then .ok ()
  else if targetBytes - currentBytes > availableBytes ∨
      availableBytes - (targetBytes - currentBytes) < minimumHeadroomBytes then
    .error (s!"host headroom is insufficient: available={availableBytes} " ++
      s!"grow={targetBytes - currentBytes} minimum_headroom={minimumHeadroomBytes}")
  else .ok ()

/-- What the closure handed to the resize command has captured. -/
structure Authorization where
  currentBytes : Nat
  targetBytes : Nat
  previouslyCommitted : Nat
  minimumHeadroomBytes : Nat
  deriving DecidableEq, Repr

/-- The check itself, on one reading of the host's available memory. -/
def Authorization.check (self : Authorization) (available : Except String U64) :
    Except String Unit :=
  match available with
  | .error error => .error error
  | .ok available =>
    validateGrowHeadroom self.currentBytes self.targetBytes
      ((available : Nat) - self.previouslyCommitted) self.minimumHeadroomBytes

inductive ResizeSinkError where
  | rejected (reason : String)
  | commandUnknown (reason : String)
  deriving DecidableEq, Repr

def ResizeSinkError.toString : ResizeSinkError → String
  | rejected reason => s!"resize rejected before command execution: {reason}"
  | commandUnknown reason => s!"resize command outcome is unknown: {reason}"

/-- A resize command reports the readings its authorisation was given, each time it was asked. -/
structure ResizeAnswer where
  readings : List (Except String U64)
  result : Except ResizeSinkError Unit

/-- What writing the checkpoint came to. A failure may come before or after the new file is in
place. -/
inductive Saved where
  | written
  | failed (error : String) (written : Bool)

inductive VmOp where
  | stopRequested
  /-- The monotonic clock, in nanoseconds. -/
  | instantNow
  | nowUnixMillis
  | memoryState
  | readGuest
  | writeTelemetry (path : String) (envelope : RawTelemetryEnvelope)
  | publishStatus (status : HostMemoryStatus)
  | availableBytes
  | persist (file : CheckpointFile)
  /-- The request is not an argument of the command; it names on whose behalf the command is. -/
  | requestResize (request : MemoryRequest) (expected : VirtioMemState) (target : Nat)
      (authorize : Authorization)
  | retargetPending (expected : VirtioMemState) (target : Nat)
  | widenUsableRegion (expected : VirtioMemState)

abbrev VmAns : VmOp → Type
  | .stopRequested => Bool
  | .instantNow => Nat
  | .nowUnixMillis => Except String Nat
  | .memoryState => Except String VirtioMemState
  | .readGuest => Except String RawTelemetryEnvelope
  | .writeTelemetry _ _ => Except String Unit
  | .publishStatus _ => Except String Unit
  | .availableBytes => Except String U64
  | .persist _ => Saved
  | .requestResize _ _ _ _ => ResizeAnswer
  | .retargetPending _ _ => Except ResizeSinkError Unit
  | .widenUsableRegion _ => Except ResizeSinkError Unit

inductive HostRuntimeError where
  | controller (reason : String)
  | hostMemory (reason : String)
  | resize (reason : String)
  | convergenceTimeout (timeout : Nat)
  deriving DecidableEq, Repr

/-- What the loop does after one poll. -/
inductive Step where
  | wait
  | stop (error : HostRuntimeError)
  deriving DecidableEq, Repr

/-- A converged device and a guest request that may be executed. -/
structure Ready where
  baseRam : Nat
  state : VirtioMemState
  request : MemoryRequest
  admission : RequestAdmission
  deriving DecidableEq, Repr

/-- One VM's observation for this round. A held VM reports its pool charge and block size, or nothing
before it was ever read. -/
inductive Observed where
  | held (charge : Option (Nat × Nat))
  | ready (ready : Ready)
  | stop (error : HostRuntimeError)
  deriving DecidableEq, Repr

structure VmController where
  config : HostConfig
  checkpoint : Checkpoint
  control : DurableControlState
  /-- The process id, which operation ids are made of. -/
  process : Nat
  pendingSince : Option Nat
  /-- The owned resize's last observed allocation and when it last moved. -/
  pendingProgress : Option (Nat × Nat)
  /-- The last shrink extension's operation, allocation and step in blocks. -/
  extension : Option (String × Nat × Nat)
  widenDue : Bool
  widened : Bool
  operationCounter : Nat
  lastCharge : Option (Nat × Nat)
  outstandingGrowth : Option Nat
  stopped : Bool

/-- The controller of a VM whose checkpoint was opened. -/
def VmController.new (config : HostConfig) (process : Nat)
    (opened : Checkpoint × DurableControlState) : VmController where
  config := config
  checkpoint := opened.1
  control := opened.2
  process := process
  pendingSince := none
  pendingProgress := none
  extension := none
  widenDue := false
  widened := false
  operationCounter := 0
  lastCharge := none
  outstandingGrowth := none
  stopped := false

abbrev VmAction (α : Type) : Type := Action VmOp VmAns VmController HostRuntimeError α

/-- Send one operation. -/
abbrev ask (op : VmOp) : VmAction (VmAns op) := Action.perform op

def controllerError {α : Type} (answer : Except String α) : VmAction α :=
  Action.ofExcept (answer.mapError .controller)

namespace VmController

def now : VmAction Nat := do
  let answer ← ask .nowUnixMillis
  controllerError answer

def futureToleranceMillis : VmAction Nat := do
  let self ← get
  let millis := self.config.rawTelemetryFutureTolerance / 1000000
  controllerError (if millis ≤ maximum then .ok millis else .error "future tolerance is too large")

def save : VmAction Unit := do
  let self ← get
  let saved ← ask (.persist (self.checkpoint.file self.control))
  controllerError (match saved with
    | .written => .ok ()
    | .failed error _ => .error error)

def setControl (f : DurableControlState → DurableControlState) : VmAction Unit :=
  modify fun self => { self with control := f self.control }

def recordResult (result : MemoryResult) : VmAction Unit := do
  let self ← get
  setControl fun control => { control with journal := (control.journal.recordResult result).2 }
  controllerError (self.control.journal.recordResult result).1

/-- Admit a request into the durable journal. -/
def admitNew (request : MemoryRequest) (now : Nat) : VmAction Unit := do
  let tolerance ← futureToleranceMillis
  let self ← get
  let admitted := self.control.journal.admitRequest request self.config.vmName
    self.config.rawTelemetryServiceName now tolerance
  setControl fun control => { control with journal := admitted.2 }
  controllerError (admitted.1.map fun _ => ())

/-- An unresolved request is given an uncertain result. -/
def recordUncertain (reason : String) : VmAction Unit := do
  let self ← get
  match self.control.journal.request, self.control.journal.result with
  | some request, none =>
    let now ← now
    recordResult {
      request := request
      outcome := .uncertain
      actualBytes := 0
      observedUnixMillis := now
      reason := some reason }
  | _, _ => return ()

/-- Latch durably and give any unresolved request an uncertain result. An existing latch keeps its
original reason. -/
def latch (reason : String) : VmAction Unit := do
  let self ← get
  if self.control.latched then return ()
  else
    setControl fun control => { control with latchReason := some (boundedReason reason) }
    recordUncertain (boundedReason reason)
    save

/-- Latch so that a restart cannot resume actuation, and end with the deadline's error. -/
def convergenceTimeout (operation : String) : VmAction HostRuntimeError := do
  latch s!"owned {operation} exceeded the convergence deadline"
  let self ← get
  return .convergenceTimeout self.config.convergenceTimeout

/-- Tell the guest the device state and the result for its request. Failure is only logged: the guest
keeps its pending request and retries. -/
def publish (state : VirtioMemState) (refusal : Option MemoryResult) : VmAction Unit := do
  let answer ← ask .nowUnixMillis
  match answer with
  | .error _ => return ()
  | .ok now =>
    let self ← get
    let _ ← ask (.publishStatus {
      version := memoryRequestVersion
      vmName := self.config.vmName
      serviceName := self.config.rawTelemetryServiceName
      deviceAlias := self.config.deviceAlias
      observedUnixMillis := now
      deviceSizeBytes := state.sizeBytes
      blockSizeBytes := state.blockSizeBytes
      requestedBytes := state.requestedBytes
      currentBytes := state.currentBytes
      result := refusal.or self.control.journal.result })
    return ()

def nextOperationId : VmAction String := do
  modify fun self => { self with operationCounter := saturatingAdd self.operationCounter 1 }
  let self ← get
  return s!"{self.process}-{self.operationCounter}"

def liveState : VmAction (Except String VirtioMemState) := do
  let answer ← ask .memoryState
  return match answer with
    | .error error => .error error
    | .ok state =>
      match state.validate with
      | .error error => .error error.toString
      | .ok () => .ok state

/-! ## A resize that is under way -/

/-- Whether the owned resize has not moved for one poll, bounded by the convergence timeout. -/
def commandStalled (state : VirtioMemState) : VmAction Bool := do
  let self ← get
  let bound := min self.config.pollInterval self.config.convergenceTimeout
  let now ← ask .instantNow
  match self.pendingProgress with
  | some (current, since) =>
    if current = state.currentBytes then return decide (bound ≤ now - since)
    else
      modify fun self => { self with pendingProgress := some (state.currentBytes, now) }
      return false
  | none =>
    modify fun self => { self with pendingProgress := some (state.currentBytes, now) }
    return false

/-- Whether the wall clock says that the operation's time is over; a clock that moved backwards does,
and one that cannot be read. -/
def durableElapsed (started timeout : Nat) : Except String Nat → Bool
  | .error _ => true
  | .ok now => now < started || timeout / 1000000 ≤ now - started

/-- When this process first saw the operation under way. -/
def pendingStart : VmAction Nat := do
  let self ← get
  match self.pendingSince with
  | some since => return since
  | none =>
    let now ← ask .instantNow
    modify fun self => { self with pendingSince := some now }
    return now

def pendingElapsed : VmAction Bool := do
  let self ← get
  match self.control.intent with
  | none => return true
  | some intent =>
    let answer ← ask .nowUnixMillis
    if durableElapsed intent.startedUnixMillis self.config.convergenceTimeout answer then
      return true
    else
      let since ← pendingStart
      let now ← ask .instantNow
      return decide (self.config.convergenceTimeout ≤ now - since)

/-- The settlement of a resize: what is plugged now becomes the target. -/
def settlement (operationId : String) (now : Nat) (direction : CommandDirection)
    (state : VirtioMemState) (intent : Option CommandIntent) : CommandIntent where
  operationId := operationId
  startedUnixMillis := now
  direction := if direction = .grow then .settleGrow else .settleShrink
  priorRequestedBytes := state.requestedBytes
  -- The result measures movement from the original command, so its starting allocation is kept.
  priorCurrentBytes := (intent.map CommandIntent.priorCurrentBytes).getD state.currentBytes
  targetBytes := state.currentBytes

/-- Request the resize's current allocation, which completes it. -/
def settleShort (direction : CommandDirection) (state : VirtioMemState) : VmAction Step := do
  if ← ask .stopRequested then return .wait
  else
    let operationId ← nextOperationId
    let now ← now
    setControl fun control =>
      { control with intent := some (settlement operationId now direction state control.intent) }
    save
    modify fun self => { self with pendingSince := none }
    let command ← ask (.retargetPending state state.currentBytes)
    match command with
    | .ok () => return .wait
    | .error error =>
      let name := if direction = .grow then "Grow" else "Shrink"
      latch s!"settling a short {name} failed: {error.toString}"
      return .wait

/-- Largest single extension, whatever the device block size. -/
def maxExtensionBytes : Nat := 256 * 1024 * 1024

/-- The least allocation that leaves the guest its minimum, in whole blocks. -/
def shrinkFloor (config : HostConfig) (block baseRam : Nat) : Nat :=
  saturatingMul (divCeil ((config.minRam : Nat) - baseRam) block) block

/-- The allocation the admitted removal is after. -/
def shrinkGoal (journal : MemoryRequestJournal) (priorCurrent block floor : Nat) : Nat :=
  let asked := ((journal.request.filter fun request => request.operation = .remove).map
    MemoryRequest.bytes).getD 0
  max (priorCurrent - (asked - asked % block)) floor

/-- The next step, in blocks: twice the last one if that was released in full. -/
def extensionStep (extension : Option (String × Nat × Nat)) (operationId : String)
    (state : VirtioMemState) : Nat :=
  match extension with
  | some (operation, start, step) =>
    if operation = operationId ∧ step * state.blockSizeBytes ≤ start - state.currentBytes then
      min (step * 2) (max (maxExtensionBytes / state.blockSizeBytes) 1)
    else 1
  | none => 1

/-- The bytes of that step; it never steps past the goal. -/
def extensionBytes (step goal : Nat) (state : VirtioMemState) : Nat :=
  min (step * state.blockSizeBytes)
    (divCeil (state.currentBytes - goal) state.blockSizeBytes * state.blockSizeBytes)

/-- The extended target, if there is one below the requested size. -/
def extensionTarget (state : VirtioMemState) (stepBytes floor : Nat) : Option Nat :=
  ((checkedSub state.requestedBytes stepBytes).map (max · floor)).filter
    fun target => decide (target < state.requestedBytes)

/-- Whether the shrink has been at its minimum target for the convergence timeout. -/
def minimumStalled : VmAction Bool := do
  let self ← get
  match self.pendingProgress with
  | none => return false
  | some (_, since) =>
    let now ← ask .instantNow
    return decide (self.config.convergenceTimeout ≤ now - since)

/-- Send an extension; its target is durable before the command, like any other. -/
def sendExtension (state : VirtioMemState) (operationId : String) (target stepBytes : Nat) :
    VmAction Step := do
  setControl fun control =>
    { control with intent := control.intent.map fun intent => { intent with targetBytes := target } }
  save
  modify fun self => { self with
    pendingProgress := none
    extension := some (operationId, state.currentBytes, stepBytes / state.blockSizeBytes) }
  let command ← ask (.retargetPending state target)
  match command with
  | .ok () => return .wait
  | .error (.rejected _) =>
    -- Nothing ran: keep the previous target.
    setControl fun control => { control with
      intent := control.intent.map fun intent => { intent with targetBytes := state.requestedBytes } }
    save
    return .wait
  | .error (.commandUnknown reason) =>
    latch s!"extending a shrink failed: {(ResizeSinkError.commandUnknown reason).toString}"
    return .wait

/-- Move a stalled removal on by requesting less, until what is plugged reaches the goal. -/
def extendShrink (state : VirtioMemState) (baseRam : Nat) : VmAction Step := do
  let self ← get
  match self.control.intent with
  | none => return .wait
  | some intent =>
    let floor := shrinkFloor self.config state.blockSizeBytes baseRam
    let goal := shrinkGoal self.control.journal intent.priorCurrentBytes state.blockSizeBytes floor
    if state.currentBytes ≤ goal then settleShort .shrink state
    else
      modify fun self => { self with extension := none }
      let step := extensionStep self.extension intent.operationId state
      let stepBytes := extensionBytes step goal state
      match extensionTarget state stepBytes floor with
      | none =>
        -- At the floor the workaround cannot go on; a request stalled there is released.
        if ← minimumStalled then settleShort .shrink state else return .wait
      | some target =>
        if ← ask .stopRequested then return .wait
        else sendExtension state intent.operationId target stepBytes

/-- A held shrink: released when Windows reports low memory, extended when it has stalled. -/
def observeShrink (state : VirtioMemState) : VmAction Step := do
  let guest ← ask .readGuest
  match guest with
  | .error _ => return .wait
  | .ok envelope =>
    if envelope.nativePressure = some .low then settleShort .shrink state
    else
      match checkedSub envelope.memory.physicalTotalBytes state.currentBytes with
      | none => return .wait
      | some baseRam =>
        if ← commandStalled state then extendShrink state baseRam else return .wait

/-- A held growth that has plugged nothing is settled once, before the one-time widening. -/
def observeGrow (state : VirtioMemState) (intent : CommandIntent) : VmAction Step := do
  let self ← get
  if !self.widened && intent.priorCurrentBytes == state.currentBytes then
    if ← commandStalled state then settleShort .grow state else return .wait
  else return .wait

def observePending (state : VirtioMemState) : VmAction Step := do
  let self ← get
  match self.control.intent.filter fun intent => intent.targetBytes == state.requestedBytes with
  | none => return .wait
  | some intent =>
    let canSettle := !self.control.latched && !self.config.observeOnly
    match intent.direction with
    | .grow => if canSettle then observeGrow state intent else return .wait
    | .shrink => if canSettle then observeShrink state else return .wait
    | .settleGrow =>
      if ← pendingElapsed then
        let error ← convergenceTimeout "growth"
        return .stop error
      else return .wait
    | .settleShrink =>
      if ← pendingElapsed then
        let error ← convergenceTimeout "shrink"
        return .stop error
      else return .wait

/-! ## A converged device -/

/-- Why a settled request came out short. -/
def resolvedReason : CommandDirection → Option String
  | .settleShrink => some "the guest returned only part of the removal"
  | .settleGrow => some "the guest plugged only part of the addition"
  | .grow | .shrink => none

/-- Record the outcome of a command the device has converged to. -/
def resolveConverged (intent : CommandIntent) (live : VirtioMemState) : VmAction Unit := do
  setControl fun control => { control with intent := none }
  let now ← now
  let self ← get
  match movementResult self.control.journal intent live now (resolvedReason intent.direction) with
  | none => save
  | some result =>
    -- The driver plugs only above its highest plugged block, which the usable region may not cover.
    modify fun self => { self with
      widenDue := self.widenDue || (intent.direction = .settleGrow && result.actualBytes == 0 &&
        !self.widened) }
    recordResult result
    save

/-- Finish an intent the device has converged to; latch on one it never applied or contradicts. -/
def resolveIntent (live : VirtioMemState) : VmAction Unit := do
  let self ← get
  match commandOwnership self.control.intent live with
  | .none | .unownedPending | .ownedPending => return ()
  | .ownedConvergedUnresolved =>
    match self.control.intent with
    | none => return ()
    | some intent => resolveConverged intent live
  | .recordedNotApplied => latch "recorded command was not applied"
  | .conflict => latch "recorded command result is unknown"

/-- Widen QEMU's usable region once so the guest's next plug can land above its highest plugged
block. -/
def widenUsableRegion (state : VirtioMemState) : VmAction Step := do
  modify fun self => { self with widenDue := false }
  let self ← get
  if self.control.latched || self.config.observeOnly then return .wait
  else if ← ask .stopRequested then return .wait
  else
    modify fun self => { self with widened := true }
    let command ← ask (.widenUsableRegion state)
    match command with
    | .ok () => return .wait
    | .error (.rejected _) => return .wait
    | .error (.commandUnknown reason) =>
      let error := (ResizeSinkError.commandUnknown reason).toString
      latch s!"widening the usable region failed: {error}"
      return .stop (.resize error)

def widenIfDue (state : VirtioMemState) : VmAction Step := do
  let self ← get
  if self.widenDue then widenUsableRegion state else return .wait

/-- Optional telemetry; a failure is only logged. -/
def forwardTelemetry (envelope : RawTelemetryEnvelope) : VmAction Unit := do
  let self ← get
  match self.config.telemetryPath with
  | none => return ()
  | some path =>
    let _ ← ask (.writeTelemetry path envelope)
    return ()

/-- The guest's request and its RAM without the device. Nothing comes back when the counters
contradict the device. -/
def readRequest (state : VirtioMemState) : VmAction (Option (MemoryRequest × Nat)) := do
  let answer ← ask .readGuest
  match answer with
  | .error _ => return none
  | .ok envelope =>
    forwardTelemetry envelope
    return do
      let base ← checkedSub envelope.memory.physicalTotalBytes state.currentBytes
      let request ← envelope.request
      return (request, base)

/-- Whether the guest's request may be executed, only has to be answered again, or is refused. -/
def admission (state : VirtioMemState) (held : Observed) (request : MemoryRequest)
    (baseRam : Nat) : VmAction Observed := do
  let now ← now
  let tolerance ← futureToleranceMillis
  let self ← get
  let admitted := (self.control.journal.admitRequest request self.config.vmName
    self.config.rawTelemetryServiceName now tolerance).1
  match admitted with
  | .error reason =>
    publish state (some (.rejected request now reason))
    return held
  | .ok admission =>
    if admission = .replay ∧ self.control.journal.result.isSome then
      -- A retransmission of a resolved request: its result is published again.
      publish state none
      return held
    else if admission = .new ∧ self.control.latched then
      publish state (some (.rejected request now
        ("automatic actuation is latched: " ++ self.control.latchReason.getD "")))
      return held
    else return .ready { baseRam, state, request, admission }

/-- What is left of `observe` on a converged device. -/
def observeConverged (state : VirtioMemState) (held : Observed) : VmAction Observed := do
  modify fun self => { self with
    pendingSince := none
    pendingProgress := none
    widened := self.widened && state.currentBytes != 0 }
  match ← widenIfDue state with
  | .stop error => return .stop error
  | .wait =>
    match ← readRequest state with
    | none =>
      publish state none
      return held
    | some (request, baseRam) => admission state held request baseRam

/-- The pool charge of a VM: what it holds or may still be given. -/
def chargeOf (control : DurableControlState) (state : VirtioMemState) : Nat :=
  max (max state.requestedBytes state.currentBytes) control.intentTarget

/-- Growth that is still to come. -/
def outstandingOf (control : DurableControlState) (state : VirtioMemState) : Nat :=
  max state.requestedBytes control.intentTarget - state.currentBytes

/-- Remember what a reading says about the pool and the host reserve. -/
def remember (state : VirtioMemState) : VmAction Unit :=
  modify fun self => { self with
    outstandingGrowth := some (outstandingOf self.control state)
    lastCharge := some (chargeOf self.control state, state.blockSizeBytes) }

/-- The live state cannot be read. Without an owned operation there is nothing to protect but the
pool: the VM is held at the last known charge. -/
def observeUnread (error : String) : VmAction Observed := do
  let self ← get
  if self.control.intent.isSome then
    latch s!"live state unavailable during an owned operation: {error}"
    let self ← get
    return .held self.lastCharge
  else return .held self.lastCharge

def observeLive (state : VirtioMemState) : VmAction Observed := do
  remember state
  let self ← get
  let held := Observed.held self.lastCharge
  resolveIntent state
  if state.requestedBytes ≠ state.currentBytes then
    let step ← observePending state
    publish state none
    match step with
    | .wait => return held
    | .stop error => return .stop error
  else observeConverged state held

/-- Phase one: resolve recorded state and, on a converged device, read the guest's request. -/
def observe : VmAction Observed := do
  match ← liveState with
  | .error error => observeUnread error
  | .ok state => observeLive state

/-- A stopped VM still holds memory, so the pool keeps charging it. -/
def observeStopped : VmAction Observed := do
  match ← liveState with
  | .error _ =>
    let self ← get
    return .held self.lastCharge
  | .ok state =>
    remember state
    let self ← get
    return .held self.lastCharge

/-! ## Executing a request -/

def admitIfNew (admission : RequestAdmission) (request : MemoryRequest) (now : Nat) :
    VmAction Unit :=
  match admission with
  | .new => admitNew request now
  | .replay => return ()

/-- Journal a request that ends without a device command. -/
def recordUnexecuted (state : VirtioMemState) (admission : RequestAdmission)
    (result : MemoryResult) : VmAction Step := do
  admitIfNew admission result.request result.observedUnixMillis
  recordResult result
  save
  publish state none
  return .wait

/-- A refusal at the effect boundary. Only an earlier admission needs a durable result; a new
request's refusal is simply published. -/
def refuse (ready : Ready) (reason : String) : VmAction Step := do
  let now ← now
  if ready.admission = .new then
    publish ready.state (some (.rejected ready.request now reason))
    return .wait
  else recordUnexecuted ready.state ready.admission (.rejected ready.request now reason)

/-- The bytes an addition may get, before alignment. -/
def addFree (config : HostConfig) (ready : Ready) (ceiling : Option Nat)
    (available committed : Nat) : Nat :=
  let current := ready.state.currentBytes
  min (min (min (min ready.request.bytes ((config.maxRam : Nat) - ready.baseRam - current))
    (ready.state.maximumTargetBytes - current))
    ((ceiling.map (· - current)).getD maximum))
    (available - committed - config.hostMinHeadroomBytes - growAdmissionMarginBytes)

/-- The bytes a removal may take, before alignment. -/
def removeFree (config : HostConfig) (ready : Ready) : Nat :=
  min ready.request.bytes (ready.state.currentBytes - ((config.minRam : Nat) - ready.baseRam))

/-- What is free for the request, in whole blocks. -/
def grantFor (ready : Ready) (ceiling : Option Nat) (committed : Nat) : VmAction Nat := do
  let self ← get
  match ready.request.operation with
  | .add =>
    let answer ← ask .availableBytes
    let available ← Action.ofExcept (answer.mapError .hostMemory)
    return alignDown (addFree self.config ready ceiling available committed)
      ready.state.blockSizeBytes
  | .remove => return alignDown (removeFree self.config ready) ready.state.blockSizeBytes

/-- The result of a request that nothing is free for. -/
def nothingGranted (request : MemoryRequest) (now : Nat) : MemoryResult :=
  match request.operation with
  | .add => {
      request := request
      outcome := .poolEmpty
      actualBytes := 0
      observedUnixMillis := now
      reason := some "no free pool, device or host-reserve bytes remain" }
  | .remove => .rejected request now "the device has no plugged memory to remove"

def directionFor : MemoryOperation → CommandDirection
  | .add => .grow
  | .remove => .shrink

/-- The allocation a grant leads to. -/
def targetFor (ready : Ready) (grant : Nat) : Nat :=
  match ready.request.operation with
  | .add => ready.state.currentBytes + grant
  | .remove => ready.state.currentBytes - grant

/-- The answer of the resize command decides what happens to the intent. -/
def settleCommand (ready : Ready) (now : Nat) : Except ResizeSinkError Unit → VmAction Step
  | .ok () => do
    let instant ← ask .instantNow
    modify fun self => { self with pendingSince := some instant }
    publish ready.state none
    return .wait
  | .error (.rejected reason) => do
    -- Nothing ran: release the intent and refuse the request.
    setControl fun control => { control with intent := none }
    modify fun self => { self with outstandingGrowth := some 0 }
    recordUnexecuted ready.state .replay (.rejected ready.request now reason)
  | .error (.commandUnknown reason) => do
    let error := (ResizeSinkError.commandUnknown reason).toString
    latch s!"resize command failed: {error}"
    publish ready.state none
    -- An unknown growth stops this VM; an unknown shrink can only free memory.
    return if ready.request.operation = .add then .stop (.resize error) else .wait

def commandIntent (ready : Ready) (operationId : String) (now target : Nat) : CommandIntent where
  operationId := operationId
  startedUnixMillis := now
  direction := directionFor ready.request.operation
  priorRequestedBytes := ready.state.requestedBytes
  priorCurrentBytes := ready.state.currentBytes
  targetBytes := target

/-- The growth is reserved before the command: even a lost or failed answer may have started it. -/
def sendResize (ready : Ready) (now target committed : Nat) : VmAction (Step × Nat) := do
  let growth := target - ready.state.currentBytes
  modify fun self => { self with outstandingGrowth := some growth }
  let self ← get
  let answer ← ask (.requestResize ready.request ready.state target {
    currentBytes := ready.state.currentBytes
    targetBytes := target
    previouslyCommitted := committed
    minimumHeadroomBytes := self.config.hostMinHeadroomBytes })
  let step ← settleCommand ready now answer.result
  return (step, saturatingAdd committed growth)

/-- Admission and intent become durable together, before the command. -/
def execute (ready : Ready) (now grant committed : Nat) : VmAction (Step × Nat) := do
  if ← ask .stopRequested then return (.wait, committed)
  else
    let operationId ← nextOperationId
    admitIfNew ready.admission ready.request now
    let target := targetFor ready grant
    setControl fun control =>
      { control with intent := some (commandIntent ready operationId now target) }
    save
    sendResize ready now target committed

/-- Keep what was committed so far. -/
def uncommitted (committed : Nat) (action : VmAction Step) : VmAction (Step × Nat) := do
  let step ← action
  return (step, committed)

/-- Phase two on a converged device: recheck the request at the effect boundary, grant what is free
and execute it. Hands back what growth has been committed to in this round. -/
def act (ready : Ready) (ceiling : Option Nat) (committed : Nat) : VmAction (Step × Nat) := do
  let now ← now
  let tolerance ← futureToleranceMillis
  let self ← get
  match ready.request.validateAt self.config.vmName self.config.rawTelemetryServiceName now
      tolerance with
  | .error reason => uncommitted committed (refuse ready reason)
  | .ok () =>
    if ready.request.bytes % ready.state.blockSizeBytes ≠ 0 then
      uncommitted committed (refuse ready "request is not a multiple of the device block size")
    else
      let grant ← grantFor ready ceiling committed
      if self.config.observeOnly then
        uncommitted committed (refuse ready s!"observe_only: would grant {grant} bytes")
      else if grant = 0 then
        uncommitted committed
          (recordUnexecuted ready.state ready.admission (nothingGranted ready.request now))
      else execute ready now grant committed

end VmController

end VirtioMem.Host
