import VirtioMem.Core.Request

/-!
# What a guest reports

The memory counters of one sample, Windows' native pressure signal, and the publication that carries
them together with the guest's one unresolved request. The publication's diagnostics take no part in
any decision and are not modelled.
-/

namespace VirtioMem.Core

open VirtioMem.Word

/-- The newest publication format; version 4 is still read. -/
def rawTelemetryVersion : Nat := 5

inductive DemandError where
  | invalidMemoryRequest (reason : String)
  | zeroCounter (counter : String)
  | inconsistentCounters (problem : String)
  | invalidMemoryLoad (percent : Nat)
  | unsupportedTelemetryVersion (version : Nat)
  | invalidTelemetryIdentity (field : String)
  | wrongTelemetryVm (expected actual : String)
  | wrongTelemetryService (expected actual : String)
  | staleTelemetry (observed now : Nat)
  | futureTelemetry (observed now : Nat)
  deriving DecidableEq, Repr

def DemandError.toString : DemandError → String
  | invalidMemoryRequest reason => s!"embedded memory request is invalid: {reason}"
  | zeroCounter counter => s!"memory counter must be greater than zero: {counter}"
  | inconsistentCounters problem => s!"inconsistent memory counters: {problem}"
  | invalidMemoryLoad percent => s!"memory load percentage is outside 0..=100: {percent}"
  | unsupportedTelemetryVersion version => s!"unsupported raw telemetry version: {version}"
  | invalidTelemetryIdentity field => s!"raw telemetry identity field is invalid: {field}"
  | wrongTelemetryVm expected actual =>
      s!"raw telemetry belongs to VM {actual}, expected {expected}"
  | wrongTelemetryService expected actual =>
      s!"raw telemetry belongs to service {actual}, expected {expected}"
  | staleTelemetry observed now => s!"raw telemetry observation {observed} is stale at {now}"
  | futureTelemetry observed now =>
      s!"raw telemetry observation {observed} is in the future at {now}"

structure MemoryTelemetrySnapshot where
  physicalTotalBytes : Nat
  physicalAvailableBytes : Nat
  memoryLoadPercent : Nat
  commitTotalBytes : Nat
  commitLimitBytes : Nat
  commitPeakBytes : Nat
  deriving DecidableEq, Repr

def MemoryTelemetrySnapshot.validate (self : MemoryTelemetrySnapshot) : Except DemandError Unit :=
  if self.physicalTotalBytes = 0 then .error (.zeroCounter "physical total")
  else if self.commitLimitBytes = 0 then .error (.zeroCounter "commit limit")
  else if self.physicalAvailableBytes > self.physicalTotalBytes then
    .error (.inconsistentCounters "physical available exceeds physical total")
  else if self.commitTotalBytes > self.commitLimitBytes then
    .error (.inconsistentCounters "commit total exceeds commit limit")
  else if self.commitPeakBytes < self.commitTotalBytes then
    .error (.inconsistentCounters "commit peak is below commit total")
  else if self.memoryLoadPercent > 100 then .error (.invalidMemoryLoad self.memoryLoadPercent)
  else .ok ()

/-- Windows' paired low and high memory resource notifications. -/
inductive MemoryResourceNotificationState where
  | low
  | neutral
  | high
  deriving DecidableEq, Repr

/-- One guest publication. -/
structure RawTelemetryEnvelope where
  version : Nat
  vmName : String
  serviceName : String
  sessionId : String
  observedUnixMillis : Nat
  monotonicMillis : Nat
  sequence : Nat
  memory : MemoryTelemetrySnapshot
  nativePressure : Option MemoryResourceNotificationState
  request : Option MemoryRequest
  deriving DecidableEq, Repr

namespace RawTelemetryEnvelope

/-- The request a publication carries, if any, must be valid and its own. -/
def validateRequest (self : RawTelemetryEnvelope) : Except DemandError Unit :=
  match self.request with
  | none => .ok ()
  | some request =>
    match request.validate with
    | .error reason => .error (.invalidMemoryRequest reason)
    | .ok () =>
      if request.identity.vmName ≠ self.vmName ∨
          request.identity.serviceName ≠ self.serviceName then
        .error (.invalidMemoryRequest "request identity differs from its publication")
      else .ok ()

def validateFor (self : RawTelemetryEnvelope) (vm service : String)
    (now maxAgeMillis futureToleranceMillis : Nat) : Except DemandError Unit :=
  if !(self.version == 4 || self.version == rawTelemetryVersion) then
    .error (.unsupportedTelemetryVersion self.version)
  else if !validIdentity self.vmName then .error (.invalidTelemetryIdentity "vm_name")
  else if !validIdentity self.serviceName then .error (.invalidTelemetryIdentity "service_name")
  else if !validIdentity self.sessionId then .error (.invalidTelemetryIdentity "session_id")
  else if self.vmName ≠ vm then .error (.wrongTelemetryVm vm self.vmName)
  else if self.serviceName ≠ service then .error (.wrongTelemetryService service self.serviceName)
  else if self.observedUnixMillis > saturatingAdd now futureToleranceMillis then
    .error (.futureTelemetry self.observedUnixMillis now)
  else if now - self.observedUnixMillis > maxAgeMillis then
    .error (.staleTelemetry self.observedUnixMillis now)
  else
    match self.validateRequest with
    | .error error => .error error
    | .ok () => self.memory.validate

end RawTelemetryEnvelope

/-! ## What valid counters satisfy -/

/-- What `MemoryTelemetrySnapshot.validate` has checked, as facts. -/
structure MemoryTelemetrySnapshot.Valid (memory : MemoryTelemetrySnapshot) : Prop where
  total_pos : memory.physicalTotalBytes ≠ 0
  limit_pos : memory.commitLimitBytes ≠ 0
  available_le : memory.physicalAvailableBytes ≤ memory.physicalTotalBytes
  commit_le : memory.commitTotalBytes ≤ memory.commitLimitBytes
  peak_le : memory.commitTotalBytes ≤ memory.commitPeakBytes
  load_le : memory.memoryLoadPercent ≤ 100

theorem MemoryTelemetrySnapshot.validate_eq_ok {self : MemoryTelemetrySnapshot} :
    self.validate = .ok () ↔ self.Valid := by
  unfold validate
  constructor
  · intro h
    split_ifs at h with h1 h2 h3 h4 h5 h6
    exact ⟨h1, h2, not_lt.mp h3, not_lt.mp h4, not_lt.mp h5, not_lt.mp h6⟩
  · rintro ⟨h1, h2, h3, h4, h5, h6⟩
    rw [if_neg h1, if_neg h2, if_neg (not_lt.mpr h3), if_neg (not_lt.mpr h4),
      if_neg (not_lt.mpr h5), if_neg (not_lt.mpr h6)]

end VirtioMem.Core
