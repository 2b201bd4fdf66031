import VirtioMem.Core.Journal
import VirtioMem.Lib.Result

/-!
# What the host keeps on disk

The durable control state of one VM: the admitted-request journal, the intent of the command that
executes it, and the actuation latch. Each change is written before any effect it authorises, so the
file alone says what a restarted controller knows.

The file is modelled as the value it decodes to. Its encoding, its size limit and the lock around it
are not: a file that cannot be read, decoded or locked is an error of the reading, and one that
cannot be written an error of the writing.
-/

namespace VirtioMem.Host

open VirtioMem.Core VirtioMem.Word VirtioMem.Text

/-- What the runtime reads of its configuration; durations are in nanoseconds. -/
structure HostConfig where
  vmName : String
  deviceAlias : String
  /-- Pool priority; larger is served first when VMs contend. -/
  priority : Nat
  pollInterval : Nat
  convergenceTimeout : Nat
  rawTelemetryServiceName : String
  rawTelemetryFutureTolerance : Nat
  hostMinHeadroomBytes : Nat
  /-- Evaluate guest requests, but refuse every one before any device command. -/
  observeOnly : Bool
  minRam : U64
  maxRam : U64
  telemetryPath : Option String

inductive CommandDirection where
  | grow
  | shrink
  /-- Accept what a stalled shrink left plugged by requesting `current`. -/
  | settleShrink
  /-- Accept what a stalled growth plugged by requesting `current`. -/
  | settleGrow
  deriving DecidableEq, Repr

structure CommandIntent where
  operationId : String
  /-- Original execution start; restarts never extend an operation's bound. -/
  startedUnixMillis : Nat
  direction : CommandDirection
  priorRequestedBytes : Nat
  priorCurrentBytes : Nat
  targetBytes : Nat
  deriving DecidableEq, Repr

/-- Control state that must survive a restart. Actuation is latched exactly when there is a latch
reason. -/
structure DurableControlState where
  latchReason : Option String
  intent : Option CommandIntent
  journal : MemoryRequestJournal
  deriving DecidableEq, Repr

namespace DurableControlState

def fresh : DurableControlState := ⟨none, none, .empty⟩

def latched (self : DurableControlState) : Bool := self.latchReason.isSome

/-- Anything a restart must not discard or resume under new evidence. -/
def pending (self : DurableControlState) : Bool :=
  self.latched || self.intent.isSome ||
    (self.journal.request.isSome && self.journal.result.all fun result => !result.terminal)

/-- The size the recorded command asked for, or nothing. -/
def intentTarget (self : DurableControlState) : Nat :=
  (self.intent.map CommandIntent.targetBytes).getD 0

end DurableControlState

def checkpointVersion : Nat := 2

structure CheckpointFile where
  version : Nat
  vmName : String
  deviceAlias : String
  compatibilityFingerprint : String
  control : DurableControlState
  lastLatchClearReason : Option String
  deriving DecidableEq, Repr

/-- The locked checkpoint of one VM. -/
structure Checkpoint where
  vmName : String
  deviceAlias : String
  compatibilityFingerprint : String
  lastLatchClearReason : Option String
  deriving DecidableEq, Repr

/-- The checks on a file that could be read. No file is fresh state; anything foreign or invalid
fails rather than discarding possible control state. -/
def load (file : Option CheckpointFile) (vmName deviceAlias : String) :
    Except String (Option CheckpointFile) :=
  match file with
  | none => .ok none
  | some file =>
    if file.version ≠ checkpointVersion ∨ file.vmName ≠ vmName ∨ file.deviceAlias ≠ deviceAlias then
      .error "control checkpoint belongs to another VM, alias or version"
    else
      match file.control.journal.validate with
      | .error error => .error error
      | .ok () =>
        if file.control.intent.any fun intent => isBlank intent.operationId then
          .error "control checkpoint command intent is invalid"
        else .ok (some file)

namespace Checkpoint

/-- `migrateEvidence` is for `clear-latch` alone: it restamps pending control state with the current
attestation after operator review. -/
def openWith (config : HostConfig) (fingerprint : String) (migrateEvidence : Bool)
    (file : Option CheckpointFile) : Except String (Checkpoint × DurableControlState) :=
  match load file config.vmName config.deviceAlias with
  | .error error => .error error
  | .ok file =>
    if file.any fun file => file.compatibilityFingerprint != fingerprint && file.control.pending &&
        !migrateEvidence then
      .error ("compatibility attestation changed while control state is pending; " ++
        "review it and use clear-latch")
    else
      .ok ({
        vmName := config.vmName
        deviceAlias := config.deviceAlias
        compatibilityFingerprint := fingerprint
        lastLatchClearReason := file.bind CheckpointFile.lastLatchClearReason },
        (file.map CheckpointFile.control).getD .fresh)

/-- Control state recorded under different compatibility evidence is refused rather than resumed. -/
def openFile (config : HostConfig) (fingerprint : String) (file : Option CheckpointFile) :
    Except String (Checkpoint × DurableControlState) :=
  openWith config fingerprint false file

/-- The file that saves `control`. -/
def file (self : Checkpoint) (control : DurableControlState) : CheckpointFile where
  version := checkpointVersion
  vmName := self.vmName
  deviceAlias := self.deviceAlias
  compatibilityFingerprint := self.compatibilityFingerprint
  control := control
  lastLatchClearReason := self.lastLatchClearReason

end Checkpoint

/-! ## Live state against the record -/

inductive CommandOwnership where
  | none
  | unownedPending
  | ownedPending
  | ownedConvergedUnresolved
  | recordedNotApplied
  | conflict
  deriving DecidableEq, Repr

/-- How live state relates to the recorded command, if any. -/
def commandOwnership (intent : Option CommandIntent) (live : VirtioMemState) : CommandOwnership :=
  match intent with
  | .none =>
    if live.requestedBytes = live.currentBytes then .none else .unownedPending
  | some intent =>
    if live.requestedBytes = intent.targetBytes then
      if live.currentBytes = intent.targetBytes then .ownedConvergedUnresolved else .ownedPending
    else if live.requestedBytes = intent.priorRequestedBytes ∧
        live.currentBytes = intent.priorCurrentBytes then
      .recordedNotApplied
    else .conflict

/-- How far the device moved in the request's direction, at most what was asked. -/
def moved (request : MemoryRequest) (intent : CommandIntent) (live : VirtioMemState) : Nat :=
  min (match request.operation with
    | .add => live.currentBytes - intent.priorCurrentBytes
    | .remove => intent.priorCurrentBytes - live.currentBytes) request.bytes

/-- The admitted request's outcome from the device movement its command produced, measured against
the state before the original command. -/
def movementResult (journal : MemoryRequestJournal) (intent : CommandIntent)
    (live : VirtioMemState) (observedUnixMillis : Nat) (reason : Option String) :
    Option MemoryResult :=
  journal.request.map fun request => {
    request := request
    outcome := if moved request intent live = request.bytes then .completed else .partialMove
    actualBytes := moved request intent live
    observedUnixMillis := observedUnixMillis
    reason := reason }

/-! ## Clearing the latch -/

/-- What the operator's clearing says about a request that is still open. Without an intent no
command was recorded, so none ran. -/
def clearedResult (control : DurableControlState) (live : VirtioMemState)
    (observedUnixMillis : Nat) (reason : String) : Option MemoryResult :=
  match control.intent with
  | some intent =>
    movementResult control.journal intent live observedUnixMillis
      (some s!"operator cleared the latch: {reason}")
  | none =>
    control.journal.request.map fun request =>
      .rejected request observedUnixMillis s!"operator cleared the latch: {reason}"

/-- The journal a clearing leaves: an unresolved request gets a terminal result. -/
def clearedJournal (control : DurableControlState) (live : VirtioMemState)
    (observedUnixMillis : Nat) (reason : String) : Except String MemoryRequestJournal :=
  if control.journal.request.isSome && control.journal.result.all fun result => !result.terminal then
    match clearedResult control live observedUnixMillis reason with
    | none => .ok control.journal
    | some result =>
      match control.journal.recordResult result with
      | (.error error, _) => .error error
      | (.ok (), journal) => .ok journal
  else .ok control.journal

def clearMessage (config : HostConfig) (live : VirtioMemState) (reason : String) : String :=
  s!"clear_latch vm={config.vmName} alias={config.deviceAlias} " ++
    s!"requested_bytes={live.requestedBytes} current_bytes={live.currentBytes} reason={reason}"

/-- The message for the operator and, when the clearing applies, the file to write. -/
def clearActuationLatch (config : HostConfig) (live : VirtioMemState) (fingerprint reason : String)
    (observedUnixMillis : Nat) (apply : Bool) (file : Option CheckpointFile) :
    Except String (String × Option CheckpointFile) :=
  if (trim reason).isEmpty || (trim reason).utf8ByteSize > 256 || hasControl (trim reason) then
    .error "latch-clear reason must be 1..=256 bytes without control characters"
  else
    match live.validate with
    | .error error => .error error.toString
    | .ok () =>
      if live.requestedBytes ≠ live.currentBytes then
        .error "clear-latch refuses divergent requested/current state"
      else
        match Checkpoint.openWith config fingerprint true file with
        | .error error => .error error
        | .ok (checkpoint, control) =>
          if !control.latched then .error "target-controller actuation is not latched"
          else if !apply then .ok (clearMessage config live (trim reason), none)
          else
            match clearedJournal control live observedUnixMillis (trim reason) with
            | .error error => .error error
            | .ok journal =>
              .ok (clearMessage config live (trim reason),
                some ({ checkpoint with lastLatchClearReason := some (trim reason) }.file
                  { latchReason := none, intent := none, journal := journal }))

/-! ## What opening and clearing establish -/

/-- The control state a file holds; no file holds the fresh one. -/
def controlOf (file : Option CheckpointFile) : DurableControlState :=
  (file.map CheckpointFile.control).getD .fresh

theorem load_eq_ok {file loaded : Option CheckpointFile} {vmName deviceAlias : String}
    (h : load file vmName deviceAlias = .ok loaded) : loaded = file := by
  unfold load at h
  split at h
  · cases h; rfl
  · split at h
    · cases h
    split at h
    · cases h
    split at h
    · cases h
    · cases h; rfl

/-- An opened checkpoint resumes exactly what the file holds. -/
theorem openWith_control {config : HostConfig} {fingerprint : String} {migrate : Bool}
    {file : Option CheckpointFile} {checkpoint : Checkpoint} {control : DurableControlState}
    (h : Checkpoint.openWith config fingerprint migrate file = .ok (checkpoint, control)) :
    control = controlOf file := by
  unfold Checkpoint.openWith at h
  split at h
  · cases h
  next loaded hloaded =>
  split at h
  · cases h
  cases h
  rw [load_eq_ok hloaded]
  rfl

/-- A clearing writes only when it applies: no latch, no intent, and the journal it has cleared. -/
theorem clearActuationLatch_ok {config : HostConfig} {live : VirtioMemState}
    {fingerprint reason message : String} {now : Nat} {apply : Bool}
    {file : Option CheckpointFile} {written : CheckpointFile}
    (h : clearActuationLatch config live fingerprint reason now apply file =
      .ok (message, some written)) :
    apply = true ∧ live.requestedBytes = live.currentBytes ∧
      written.control.latchReason = none ∧ written.control.intent = none ∧
      clearedJournal (controlOf file) live now (trim reason) = .ok written.control.journal := by
  unfold clearActuationLatch at h
  split at h
  · cases h
  split at h
  · cases h
  split at h
  · cases h
  next hconverged =>
  split at h
  · cases h
  next checkpoint control hopen =>
  have hcontrol := openWith_control hopen
  subst hcontrol
  split at h
  · cases h
  split at h
  · cases h
  next happly =>
  split at h
  · cases h
  next journal hjournal =>
  cases h
  exact ⟨by simpa using happly, not_not.mp hconverged, rfl, rfl, hjournal⟩

end VirtioMem.Host
