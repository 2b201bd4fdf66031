import VirtioMem.Core.Telemetry
import VirtioMem.Lib.Result

/-!
# The target estimator

How a guest turns its own counters into a device size. One call looks at one sample and the live
geometry, computes the size the guest needs *now*, and folds it into a sticky desired size that only
falls on the evidence of a whole window of calm samples.

`estimate` is written in the stages of the source, each a function of the state it changes:

1. `calculateInstantaneous` computes the size needed now, with no state at all;
2. `prepareSample` checks the order of the samples;
3. `visibleBase` and `deviceMaximum` turn the configured RAM limits into device sizes;
4. `rebase` and `raise` take over a new base and grow the desired size;
5. `collect` puts the sample into the history, and `qualify` reads the window off it.

What an error leaves behind is part of the answer, so every call hands the estimator back next to it.
-/

namespace VirtioMem.Core

open VirtioMem.Word VirtioMem.Text VirtioMem.Result

def maxTargetHistoryEntries : Nat := 4096

structure TargetPolicyConfig where
  configuredMinimumBytes : Nat
  physicalReserveBytes : Nat
  commitReserveBytes : Nat
  safeFloorPhysicalReserveBytes : Nat
  safeFloorCommitReserveBytes : Nat
  historyWindowMillis : Nat
  maximumGapMillis : Nat
  downwardHysteresisBytes : Nat
  deriving DecidableEq, Repr

structure TargetGeometry where
  deviceSizeBytes : Nat
  blockSizeBytes : Nat
  currentBytes : Nat
  deriving DecidableEq, Repr

structure TargetSample where
  sessionId : String
  observedUnixMillis : Nat
  monotonicMillis : Nat
  sequence : Nat
  memory : MemoryTelemetrySnapshot
  nativePressure : Option MemoryResourceNotificationState
  deriving DecidableEq, Repr

structure InstantaneousTarget where
  desiredNowBytes : Nat
  floorNowBytes : Nat
  effectiveMaximumBytes : Nat
  capacityLimited : Bool
  deriving DecidableEq, Repr

structure TargetEstimate where
  desiredBytes : Nat
  safeFloorBytes : Nat
  desiredNowBytes : Nat
  floorNowBytes : Nat
  effectiveMaximumBytes : Nat
  historyReady : Bool
  capacityLimited : Bool
  deriving DecidableEq, Repr

/-- One time bucket of the history: when it began, and the largest needs seen in it. -/
structure CandidateHistoryEntry where
  monotonicMillis : Nat
  desiredNowBytes : Nat
  floorNowBytes : Nat
  deriving DecidableEq, Repr

structure TargetEstimatorState where
  desiredBytes : Nat
  safeFloorBytes : Nat
  sessionId : String
  lastMonotonicMillis : Nat
  lastSequence : Nat
  lastVisibleBaseBytes : Option Nat
  history : List CandidateHistoryEntry
  deriving DecidableEq, Repr

inductive TargetEstimatorError where
  | invalidPolicy (problem : String)
  | invalidGeometry (problem : String)
  | arithmeticOverflow
  | invalidOrdering (problem : String)
  | invalidTelemetry (problem : String)
  deriving DecidableEq, Repr

def TargetEstimatorError.toString : TargetEstimatorError → String
  | invalidPolicy problem => s!"target policy is invalid: {problem}"
  | invalidGeometry problem => s!"target geometry is invalid: {problem}"
  | arithmeticOverflow => "target arithmetic overflow"
  | invalidOrdering problem => s!"target telemetry ordering is invalid: {problem}"
  | invalidTelemetry problem => s!"memory telemetry is invalid: {problem}"

def TargetPolicyConfig.validate (self : TargetPolicyConfig) : Except TargetEstimatorError Unit :=
  if self.physicalReserveBytes = 0 ∨ self.commitReserveBytes = 0 ∨
      self.safeFloorPhysicalReserveBytes = 0 ∨ self.safeFloorCommitReserveBytes = 0 ∨
      self.historyWindowMillis = 0 ∨ self.maximumGapMillis = 0 ∨
      self.downwardHysteresisBytes = 0 then
    .error (.invalidPolicy "byte values and durations must be positive")
  else if self.safeFloorPhysicalReserveBytes > self.physicalReserveBytes ∨
      self.safeFloorCommitReserveBytes > self.commitReserveBytes then
    .error (.invalidPolicy "safe-floor reserves exceed normal reserves")
  else .ok ()

/-! ## The size needed now -/

def alignUp (value alignment : Nat) : Except TargetEstimatorError Nat :=
  if value % alignment = 0 then .ok value
  else okOr (checkedAdd value (alignment - value % alignment)) .arithmeticOverflow

/-- The usable ceiling of the device, after the policy and the geometry are checked. -/
def calculateEffectiveMaximum (config : TargetPolicyConfig) (geometry : TargetGeometry) :
    Except TargetEstimatorError Nat :=
  match config.validate with
  | .error error => .error error
  | .ok () =>
  if geometry.deviceSizeBytes = 0 then
    .error (.invalidGeometry "device size must be greater than zero")
  else if geometry.blockSizeBytes = 0 ∨ !isPowerOfTwo geometry.blockSizeBytes then
    .error (.invalidGeometry "block size must be a non-zero power of two")
  else if geometry.currentBytes % geometry.blockSizeBytes ≠ 0 then
    .error (.invalidGeometry "current allocation is not block aligned")
  else
    let effectiveMaximum := maximumTargetBytes geometry.deviceSizeBytes geometry.blockSizeBytes
    if config.configuredMinimumBytes > effectiveMaximum ∨
        config.configuredMinimumBytes % geometry.blockSizeBytes ≠ 0 ∨
        geometry.currentBytes > effectiveMaximum then
      .error (.invalidGeometry
        "minimum or current allocation exceeds the aligned effective maximum")
    else if [config.physicalReserveBytes, config.commitReserveBytes,
        config.safeFloorPhysicalReserveBytes, config.safeFloorCommitReserveBytes,
        config.downwardHysteresisBytes].any (· % geometry.blockSizeBytes ≠ 0) then
      .error (.invalidGeometry "reserves and hysteresis must be block aligned")
    else .ok effectiveMaximum

/-- The size that leaves the two reserves free. -/
def candidate (memory : MemoryTelemetrySnapshot) (currentBytes fixedVisibleBaseBytes : Nat)
    (physicalReserveBytes commitReserveBytes : Nat) : Except TargetEstimatorError Nat := do
  let physicalUsed ←
    okOr (checkedSub memory.physicalTotalBytes memory.physicalAvailableBytes) .arithmeticOverflow
  let physicalNeeded ← okOr (checkedAdd physicalUsed physicalReserveBytes) .arithmeticOverflow
  let commitHeadroom ←
    okOr (checkedSub memory.commitLimitBytes memory.commitTotalBytes) .arithmeticOverflow
  let commitNeeded ← okOr (checkedAdd currentBytes commitReserveBytes) .arithmeticOverflow
  return max (physicalNeeded - fixedVisibleBaseBytes) (commitNeeded - commitHeadroom)

def calculateInstantaneous (config : TargetPolicyConfig) (memory : MemoryTelemetrySnapshot)
    (geometry : TargetGeometry) : Except TargetEstimatorError InstantaneousTarget := do
  let effectiveMaximum ← calculateEffectiveMaximum config geometry
  (memory.validate).mapError (.invalidTelemetry ·.toString)
  let visibleBase ← okOr (checkedSub memory.physicalTotalBytes geometry.currentBytes)
    (.invalidGeometry "physical total is below current allocation")
  let desired ← candidate memory geometry.currentBytes visibleBase
    config.physicalReserveBytes config.commitReserveBytes
  let desiredRaw := max desired config.configuredMinimumBytes
  let floor ← candidate memory geometry.currentBytes visibleBase
    config.safeFloorPhysicalReserveBytes config.safeFloorCommitReserveBytes
  let floorRaw := max floor config.configuredMinimumBytes
  let desiredAligned ← alignUp (min desiredRaw effectiveMaximum) geometry.blockSizeBytes
  let desiredNow := min desiredAligned effectiveMaximum
  let floorAligned ← alignUp (min floorRaw effectiveMaximum) geometry.blockSizeBytes
  return {
    desiredNowBytes := desiredNow
    floorNowBytes := min floorAligned desiredNow
    effectiveMaximumBytes := effectiveMaximum
    capacityLimited := desiredRaw > effectiveMaximum
  }

/-- The needs inside the limits of this VM. -/
def InstantaneousTarget.within (self : InstantaneousTarget) (minimum maximum : Nat) :
    InstantaneousTarget :=
  { self with
    effectiveMaximumBytes := maximum
    desiredNowBytes := max minimum (min self.desiredNowBytes maximum)
    floorNowBytes := max minimum (min self.floorNowBytes maximum) }

/-! ## The history -/

namespace TargetEstimatorState

def initial : TargetEstimatorState where
  desiredBytes := 0
  safeFloorBytes := 0
  sessionId := ""
  lastMonotonicMillis := 0
  lastSequence := 0
  lastVisibleBaseBytes := none
  history := []

def invalidateHistory (self : TargetEstimatorState) : TargetEstimatorState :=
  { self with history := [], safeFloorBytes := self.desiredBytes }

end TargetEstimatorState

/-- Buckets are wide enough that a full window fits into the bounded history. -/
def TargetPolicyConfig.bucketMillis (self : TargetPolicyConfig) : Nat :=
  max (divCeil self.historyWindowMillis (maxTargetHistoryEntries - 2)) 1

/-- Merge a sample into the last bucket while that is open, or begin a new one. -/
def recordCandidate (history : List CandidateHistoryEntry) (bucket : Nat)
    (entry : CandidateHistoryEntry) : List CandidateHistoryEntry :=
  match history.getLast? with
  | none => history ++ [entry]
  | some last =>
    if entry.monotonicMillis - last.monotonicMillis < bucket then
      history.dropLast ++ [{ last with
        desiredNowBytes := max last.desiredNowBytes entry.desiredNowBytes
        floorNowBytes := max last.floorNowBytes entry.floorNowBytes }]
    else history ++ [entry]

def capHistory (history : List CandidateHistoryEntry) : List CandidateHistoryEntry :=
  if history.length > maxTargetHistoryEntries then history.tail else history

/-- Drop the buckets that end before the window; the one the window begins in stays. -/
def pruneHistory (now window : Nat) : List CandidateHistoryEntry → List CandidateHistoryEntry
  | first :: second :: rest =>
    if second.monotonicMillis ≤ now - window then pruneHistory now window (second :: rest)
    else first :: second :: rest
  | short => short

def historyIsReady (history : List CandidateHistoryEntry) (now window : Nat) : Bool :=
  match history.head? with
  | none => false
  | some first => !(now - first.monotonicMillis < window)

/-! ## The estimator -/

structure TargetEstimator where
  config : TargetPolicyConfig
  minRam : Nat
  maxRam : Nat
  state : TargetEstimatorState
  deriving DecidableEq, Repr

namespace TargetEstimator

def new (config : TargetPolicyConfig) : Except TargetEstimatorError TargetEstimator :=
  match config.validate with
  | .error error => .error error
  | .ok () => .ok { config, minRam := 0, maxRam := maximum, state := .initial }

def invalidateHistory (self : TargetEstimator) : TargetEstimator :=
  { self with state := self.state.invalidateHistory }

def setRamLimits (self : TargetEstimator) (minimum maximum : Nat) :
    Except String Unit × TargetEstimator :=
  if minimum > maximum then (.error "min_ram exceeds max_ram", self)
  else (.ok (), { self.invalidateHistory with minRam := minimum, maxRam := maximum })

/-- The order of the samples: within a session both counters advance, and a gap or a new session
starts the history over. -/
def prepareSample (self : TargetEstimator) (sample : TargetSample) :
    Except TargetEstimatorError Unit × TargetEstimatorState :=
  if isBlank sample.sessionId then
    (.error (.invalidOrdering "empty producer session"), self.state)
  else if self.state.sessionId = "" then (.ok (), self.state)
  else if sample.sessionId ≠ self.state.sessionId then
    (.ok (), { self.state with history := [] })
  else if sample.sequence ≤ self.state.lastSequence ∨
      sample.monotonicMillis ≤ self.state.lastMonotonicMillis then
    (.error (.invalidOrdering "sample did not advance within the producer session"), self.state)
  else if sample.monotonicMillis - self.state.lastMonotonicMillis > self.config.maximumGapMillis then
    (.ok (), { self.state with history := [] })
  else (.ok (), self.state)

/-- The fixed RAM the guest sees besides the device, from one sample. -/
def visibleBase (sample : TargetSample) (geometry : TargetGeometry) : Nat :=
  sample.memory.physicalTotalBytes - geometry.currentBytes

/-- The largest device size the configured maximum leaves above this base. -/
def deviceMaximum (self : TargetEstimator) (visibleBase block effectiveMaximum : Nat) : Nat :=
  min ((self.maxRam - visibleBase) / block * block) effectiveMaximum

/-- Mixed-geometry history is never evidence for releasing RAM. -/
def rebase (state : TargetEstimatorState) (visibleBase : Nat) : TargetEstimatorState :=
  let state :=
    if state.lastVisibleBaseBytes.any (· ≠ visibleBase) then state.invalidateHistory else state
  { state with lastVisibleBaseBytes := some visibleBase }

/-- The first sample starts from the live allocation; growth follows at once. -/
def raise (state : TargetEstimatorState) (currentBytes : Nat) (needs : InstantaneousTarget) :
    TargetEstimatorState :=
  let state :=
    if state.sessionId = "" then
      { state with
        desiredBytes := max currentBytes needs.desiredNowBytes
        safeFloorBytes := currentBytes }
    else state
  { state with
    desiredBytes := min (max state.desiredBytes needs.desiredNowBytes) needs.effectiveMaximumBytes }

/-- Reclaim requires a continuous window of native High observations. -/
def collect (self : TargetEstimator) (state : TargetEstimatorState) (sample : TargetSample)
    (needs : InstantaneousTarget) : TargetEstimatorState :=
  let state :=
    if sample.nativePressure ≠ some .high then state.invalidateHistory
    else
      { state with
        history := recordCandidate state.history self.config.bucketMillis {
          monotonicMillis := sample.monotonicMillis
          desiredNowBytes := needs.desiredNowBytes
          floorNowBytes := needs.floorNowBytes } }
  { state with
    history := pruneHistory sample.monotonicMillis self.config.historyWindowMillis
      (capHistory state.history) }

/-- The largest of a window's values; a window that is read is never empty. -/
def windowMaximum (values : List Nat) : Except TargetEstimatorError Nat :=
  okOr values.max? (.invalidOrdering "empty qualified history")

/-- Let the desired size fall to the window's largest need, if that is a hysteresis below it. -/
def qualify (self : TargetEstimator) (state : TargetEstimatorState) (ready : Bool)
    (currentBytes : Nat) : Except TargetEstimatorError TargetEstimatorState :=
  if ready then do
    let windowDesired ← windowMaximum (state.history.map (·.desiredNowBytes))
    let threshold ←
      okOr (checkedAdd windowDesired self.config.downwardHysteresisBytes) .arithmeticOverflow
    let desired := if threshold ≤ state.desiredBytes then windowDesired else state.desiredBytes
    let windowFloor ← windowMaximum (state.history.map (·.floorNowBytes))
    return { state with desiredBytes := desired, safeFloorBytes := min windowFloor desired }
  else .ok { state with safeFloorBytes := min currentBytes state.desiredBytes }

/-- The stages that can only fail on overflow. -/
def conclude (self : TargetEstimator) (state : TargetEstimatorState) (sample : TargetSample)
    (geometry : TargetGeometry) (needs : InstantaneousTarget) :
    Except TargetEstimatorError TargetEstimate × TargetEstimator :=
  let collected := self.collect
    (raise (rebase state (visibleBase sample geometry)) geometry.currentBytes needs) sample needs
  let ready :=
    historyIsReady collected.history sample.monotonicMillis self.config.historyWindowMillis
  match self.qualify collected ready geometry.currentBytes with
  | .error error => (.error error, { self with state := collected })
  | .ok qualified =>
    (.ok {
      desiredBytes := qualified.desiredBytes
      safeFloorBytes := qualified.safeFloorBytes
      desiredNowBytes := needs.desiredNowBytes
      floorNowBytes := needs.floorNowBytes
      effectiveMaximumBytes := needs.effectiveMaximumBytes
      historyReady := ready
      capacityLimited := needs.capacityLimited },
    { self with
      state := { qualified with
        sessionId := sample.sessionId
        lastMonotonicMillis := sample.monotonicMillis
        lastSequence := sample.sequence } })

def estimate (self : TargetEstimator) (sample : TargetSample) (geometry : TargetGeometry) :
    Except TargetEstimatorError TargetEstimate × TargetEstimator :=
  match calculateInstantaneous self.config sample.memory geometry with
  | .error error => (.error error, self.invalidateHistory)
  | .ok needs =>
  match self.prepareSample sample with
  | (.error error, state) => (.error error, { self with state := state.invalidateHistory })
  | (.ok (), state) =>
  let base := visibleBase sample geometry
  match alignUp (self.minRam - base) geometry.blockSizeBytes with
  | .error error => (.error error, { self with state := state })
  | .ok minimum =>
  let maximum := self.deviceMaximum base geometry.blockSizeBytes needs.effectiveMaximumBytes
  if minimum > maximum ∨ self.maxRam < base then
    (.error (.invalidGeometry
      "configured RAM limits cannot be met by this VM's live memory geometry"),
      { self with state := state.invalidateHistory })
  else self.conclude state sample geometry (needs.within minimum maximum)

end TargetEstimator

end VirtioMem.Core
