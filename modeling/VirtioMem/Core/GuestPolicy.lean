import VirtioMem.Core.EstimatorFacts

/-!
# The guest's requests

The guest turns an estimate and the host's published device state into one explicit request at a time
and keeps it, durably, until the host publishes its terminal result.

A poll has three parts, each a definition of its own: `assess` looks at the host status and feeds the
estimator, `consume` looks for the result of the retained request, and `propose` plans the next one
when there is none. The diagnostics the source keeps beside them explain a decision and take no part
in it; they are not modelled.
-/

namespace VirtioMem.Core

open VirtioMem.Word

structure GuestMemoryPolicy where
  target : TargetPolicyConfig
  growStepBytes : Nat
  shrinkStepBytes : Nat
  hostStatusMaxAgeMillis : Nat
  requestLifetimeMillis : Nat
  deriving DecidableEq, Repr

def GuestMemoryPolicy.validate (self : GuestMemoryPolicy) : Except String Unit :=
  match self.target.validate with
  | .error error => .error error.toString
  | .ok () =>
    if self.growStepBytes = 0 ∨ self.shrinkStepBytes = 0 ∨ self.hostStatusMaxAgeMillis = 0 then
      .error "guest policy steps and status age must be positive"
    else if self.requestLifetimeMillis = 0 ∨
        self.requestLifetimeMillis > maxRequestLifetimeMillis then
      .error s!"request lifetime must be 1..={maxRequestLifetimeMillis} milliseconds"
    else .ok ()

/-- The next delta for a converged device, or nothing. Growth follows demand at once; reclaim waits
for qualified history and stays above the safe floor. -/
def planRequest (estimate : TargetEstimate) (device : VirtioMemState) (policy : GuestMemoryPolicy) :
    Except String (Option (MemoryOperation × Nat)) :=
  match device.validate with
  | .error error => .error error.toString
  | .ok () =>
  if policy.growStepBytes % device.blockSizeBytes ≠ 0 ∨
      policy.shrinkStepBytes % device.blockSizeBytes ≠ 0 then
    .error "guest policy steps must be multiples of the device block size"
  else if device.requestedBytes ≠ device.currentBytes then .ok none
  else
    let current := device.currentBytes
    let target := max (max (current - policy.shrinkStepBytes) estimate.desiredBytes)
      estimate.safeFloorBytes
    if current < estimate.desiredBytes then .ok (some (.add, estimate.desiredBytes - current))
    else if current > estimate.desiredBytes ∧ estimate.historyReady = true ∧ target < current then
      .ok (some (.remove, current - target))
    else .ok none

/-- What the guest retains across restarts of its service. -/
structure GuestRequestState where
  pending : Option MemoryRequest
  /-- The host refuses requests that do not advance this. -/
  lastIssuedUnixMillis : Nat
  deriving DecidableEq, Repr

def GuestRequestState.initial : GuestRequestState := ⟨none, 0⟩

structure GuestDecision where
  /-- The unresolved request to publish with this sample, if any. -/
  request : Option MemoryRequest
  /-- The durable state changed and must be persisted before publishing. -/
  persist : Bool
  /-- The pending request this poll resolved. -/
  resolved : Option MemoryResult
  deriving DecidableEq, Repr

/-- What throttles the next request: an operation, since when, and for how long. -/
structure Backoff where
  operation : MemoryOperation
  sinceMillis : Nat
  delayMillis : Nat
  deriving DecidableEq, Repr

structure GuestRequester where
  policy : GuestMemoryPolicy
  estimator : TargetEstimator
  state : GuestRequestState
  vmName : String
  serviceName : String
  sessionId : String
  nextSequence : Nat
  retry : Option Backoff
  retryDelayMillis : Nat
  nativeLow : Bool
  numericCritical : Bool
  deriving DecidableEq, Repr

namespace GuestRequester

/-- What a state file must satisfy to be taken over. -/
def validateRetained (vmName serviceName : String) (state : GuestRequestState) :
    Except String Unit :=
  match state.pending with
  | none => .ok ()
  | some pending =>
    match pending.validate with
    | .error error => .error error
    | .ok () =>
      if pending.identity.vmName ≠ vmName ∨ pending.identity.serviceName ≠ serviceName then
        .error "retained memory request belongs to another VM or service"
      else if pending.issuedUnixMillis > state.lastIssuedUnixMillis then
        .error "retained memory request is newer than its watermark"
      else .ok ()

def new (policy : GuestMemoryPolicy) (vmName serviceName sessionId : String)
    (state : GuestRequestState) : Except String GuestRequester :=
  match policy.validate with
  | .error error => .error error
  | .ok () =>
  if !([vmName, serviceName, sessionId].all validIdentity) then
    .error ("guest VM, service and session identity must be printable ASCII of at most 128 " ++
      "bytes")
  else
  match validateRetained vmName serviceName state with
  | .error error => .error error
  | .ok () =>
  match TargetEstimator.new policy.target with
  | .error error => .error error.toString
  | .ok estimator =>
    .ok {
      policy, estimator, state, vmName, serviceName, sessionId
      nextSequence := 0
      retry := none
      retryDelayMillis := 0
      nativeLow := false
      numericCritical := false }

def invalidateHistory (self : GuestRequester) : GuestRequester :=
  { self with estimator := self.estimator.invalidateHistory }

def setRamLimits (self : GuestRequester) (minimum maximum : Nat) :
    Except String Unit × GuestRequester :=
  match self.estimator.setRamLimits minimum maximum with
  | (answer, estimator) => (answer, { self with estimator })

def hold : GuestDecision := ⟨none, false, none⟩

/-- Whether the sample is below one of the safety-floor reserves. -/
def critical (self : GuestRequester) (sample : TargetSample) : Bool :=
  sample.memory.physicalAvailableBytes < self.policy.target.safeFloorPhysicalReserveBytes ||
    sample.memory.commitLimitBytes - sample.memory.commitTotalBytes <
      self.policy.target.safeFloorCommitReserveBytes

/-- A status this VM and service may use at all. -/
def accepted (self : GuestRequester) (status : Option HostMemoryStatus) :
    Option HostMemoryStatus :=
  status.filter fun status =>
    match status.validateFor self.vmName self.serviceName with
    | .ok () => true
    | .error _ => false

/-- A status that is also recent enough to supply geometry. -/
def freshStatus (self : GuestRequester) (now : Nat) (status : Option HostMemoryStatus) :
    Option HostMemoryStatus :=
  (self.accepted status).filter (·.freshAt now self.policy.hostStatusMaxAgeMillis)

/-- A fresh status of a device that is not moving. -/
def convergedStatus (self : GuestRequester) (now : Nat) (status : Option HostMemoryStatus) :
    Option HostMemoryStatus :=
  (self.freshStatus now status).filter fun status => status.requestedBytes == status.currentBytes

/-- The geometry a status supplies. -/
def geometryOf (status : HostMemoryStatus) : TargetGeometry where
  deviceSizeBytes := status.deviceSizeBytes
  blockSizeBytes := status.blockSizeBytes
  currentBytes := status.currentBytes

/-- Estimate on every fresh status of a converged device. A missing or stale status and an
observation other than High discard the window; a device converging under High pressure keeps it. -/
def assess (self : GuestRequester) (sample : TargetSample) (status : Option HostMemoryStatus) :
    Except String (Option TargetEstimate) × GuestRequester :=
  match self.convergedStatus sample.observedUnixMillis status with
  | some status =>
    match self.estimator.estimate sample (geometryOf status) with
    | (.error error, estimator) => (.error error.toString, { self with estimator })
    | (.ok estimate, estimator) => (.ok (some estimate), { self with estimator })
  | none =>
    if (self.freshStatus sample.observedUnixMillis status).isNone ∨
        sample.nativePressure ≠ some .high then
      (.ok none, self.invalidateHistory)
    else (.ok none, self)

/-- The retained request is published again, unless the host resolved it. The next sample reassesses;
no new delta is chained onto a resolution. -/
def consume (self : GuestRequester) (pending : MemoryRequest) (status : Option HostMemoryStatus)
    (monotonic : Nat) : GuestDecision × GuestRequester :=
  match (status.bind (·.result)).filter fun result =>
      result.request == pending && result.terminal with
  | none => (⟨some pending, false, none⟩, self)
  | some resolved =>
    let self := { self with state := { self.state with pending := none } }
    if resolved.outcome ≠ .completed then
      let delay := max 1000 (min (saturatingMul self.retryDelayMillis 2) 30000)
      (⟨none, true, some resolved⟩, { self with
        retryDelayMillis := delay
        retry := some ⟨resolved.request.operation, monotonic, delay⟩ })
    else (⟨none, true, some resolved⟩, { self with retry := none, retryDelayMillis := 0 })

/-- Windows' own Low classification is an urgent growth trigger even when the operator's reserves are
smaller than Windows' threshold. -/
def urge (self : GuestRequester) (estimate : TargetEstimate) (status : HostMemoryStatus) :
    TargetEstimate :=
  if self.nativeLow then
    { estimate with
      desiredBytes := max estimate.desiredBytes
        (min (saturatingAdd status.currentBytes self.policy.growStepBytes)
          estimate.effectiveMaximumBytes) }
  else estimate

/-- Whether the last refusal still throttles this operation; an emergency lets growth through. -/
def throttled (self : GuestRequester) (operation : MemoryOperation) (monotonic : Nat)
    (emergency : Bool) : Bool :=
  self.retry.any fun retry =>
    retry.operation == operation && retry.sinceMillis ≤ monotonic &&
      monotonic - retry.sinceMillis < retry.delayMillis && !(operation == .add && emergency)

/-- A fresh request, and the state that must be durable before it is published. -/
def issue (self : GuestRequester) (operation : MemoryOperation) (bytes now : Nat) :
    Except String GuestDecision × GuestRequester :=
  match checkedAdd now self.policy.requestLifetimeMillis with
  | none => (.error "memory request expiry overflowed", self)
  | some expires =>
  let request : MemoryRequest := {
    version := memoryRequestVersion
    identity := {
      vmName := self.vmName
      serviceName := self.serviceName
      sessionId := self.sessionId
      sequence := self.nextSequence }
    operation := operation
    bytes := bytes
    issuedUnixMillis := now
    expiresUnixMillis := expires }
  match request.validate with
  | .error error => (.error error, self)
  | .ok () =>
  match checkedAdd self.nextSequence 1 with
  | none => (.error "memory request sequence exhausted", self)
  | some nextSequence =>
    (.ok ⟨some request, true, none⟩, { self with
      nextSequence := nextSequence
      state := { pending := some request, lastIssuedUnixMillis := now } })

/-- Plan the next request. After a wall-clock rollback this waits until the clock passes the
watermark. -/
def propose (self : GuestRequester) (sample : TargetSample) (status : HostMemoryStatus)
    (estimate : TargetEstimate) (emergency : Bool) : Except String GuestDecision × GuestRequester :=
  match planRequest (self.urge estimate status) status.device self.policy with
  | .error error => (.error error, self)
  | .ok none => (.ok hold, self)
  | .ok (some (operation, bytes)) =>
    if sample.observedUnixMillis ≤ self.state.lastIssuedUnixMillis then (.ok hold, self)
    else if self.throttled operation sample.monotonicMillis emergency then (.ok hold, self)
    else self.issue operation bytes sample.observedUnixMillis

def poll (self : GuestRequester) (sample : TargetSample) (status : Option HostMemoryStatus) :
    Except String GuestDecision × GuestRequester :=
  let nativeLow := sample.nativePressure == some .low
  let newlyLow := nativeLow && !self.nativeLow
  let numericCritical := self.critical sample
  let newlyCritical := numericCritical && !self.numericCritical
  let self := { self with nativeLow, numericCritical }
  match self.assess sample status with
  | (.error error, self) => (.error error, self)
  | (.ok estimate, self) =>
  match self.state.pending with
  | some pending =>
    match self.consume pending (self.accepted status) sample.monotonicMillis with
    | (decision, self) => (.ok decision, self)
  | none =>
  match self.freshStatus sample.observedUnixMillis status, estimate with
  | some status, some estimate => self.propose sample status estimate (newlyLow || newlyCritical)
  | _, _ => (.ok hold, self)

/-! ## The parts of a poll -/

/-- A requester that was just built is fresh, and its estimator runs its policy. -/
theorem new_eq_ok {policy : GuestMemoryPolicy} {vm service session : String}
    {state : GuestRequestState} {start : GuestRequester}
    (h : GuestRequester.new policy vm service session state = .ok start) :
    start.policy = policy ∧ start.vmName = vm ∧ start.serviceName = service ∧
      start.sessionId = session ∧ start.state = state ∧ start.nextSequence = 0 ∧
      TargetEstimator.new policy.target = .ok start.estimator ∧
      start.estimator.config = policy.target := by
  unfold GuestRequester.new at h
  split at h
  · cases h
  split_ifs at h
  split at h
  · cases h
  split at h
  · cases h
  next estimator hestimator =>
    cases h
    refine ⟨rfl, rfl, rfl, rfl, rfl, rfl, hestimator, ?_⟩
    unfold TargetEstimator.new at hestimator
    split at hestimator <;> cases hestimator
    rfl

variable {self : GuestRequester} {sample : TargetSample} {status : Option HostMemoryStatus}

theorem accepted_eq_some {live : HostMemoryStatus} :
    self.accepted status = some live ↔
      status = some live ∧ live.validateFor self.vmName self.serviceName = .ok () := by
  unfold accepted
  rw [Option.filter_eq_some_iff]
  refine and_congr_right fun _ => ?_
  cases live.validateFor self.vmName self.serviceName <;> simp

theorem freshStatus_eq_some {now : Nat} {live : HostMemoryStatus} :
    self.freshStatus now status = some live ↔
      status = some live ∧ live.validateFor self.vmName self.serviceName = .ok () ∧
        live.freshAt now self.policy.hostStatusMaxAgeMillis = true := by
  unfold freshStatus
  rw [Option.filter_eq_some_iff, accepted_eq_some, and_assoc]

theorem convergedStatus_eq_some {now : Nat} {live : HostMemoryStatus} :
    self.convergedStatus now status = some live ↔
      status = some live ∧ live.validateFor self.vmName self.serviceName = .ok () ∧
        live.freshAt now self.policy.hostStatusMaxAgeMillis = true ∧
        live.requestedBytes = live.currentBytes := by
  unfold convergedStatus
  rw [Option.filter_eq_some_iff, freshStatus_eq_some, and_assoc, and_assoc, beq_iff_eq]

theorem assess_converged {live : HostMemoryStatus}
    (h : self.convergedStatus sample.observedUnixMillis status = some live) :
    self.assess sample status =
      match self.estimator.estimate sample (geometryOf live) with
      | (.error error, estimator) => (.error error.toString, { self with estimator })
      | (.ok estimate, estimator) => (.ok (some estimate), { self with estimator }) := by
  unfold assess
  rw [h]

/-- **Everything the first part of a poll can do.** It estimates on a fresh status of a converged
device, it throws the evidence away, or it waits for a device that is still moving under High
pressure. -/
theorem assess_cases {answer : Except String (Option TargetEstimate)} {after : GuestRequester}
    (h : self.assess sample status = (answer, after)) :
    (∃ live, self.convergedStatus sample.observedUnixMillis status = some live ∧
      ((∃ error estimator, answer = .error error.toString ∧ after = { self with estimator } ∧
          self.estimator.estimate sample (geometryOf live) = (.error error, estimator)) ∨
        ∃ estimate estimator, answer = .ok (some estimate) ∧ after = { self with estimator } ∧
          self.estimator.estimate sample (geometryOf live) = (.ok estimate, estimator))) ∨
    (answer = .ok none ∧ after = self.invalidateHistory) ∨
    (answer = .ok none ∧ after = self ∧ sample.nativePressure = some .high ∧
      ∃ live, self.freshStatus sample.observedUnixMillis status = some live) := by
  cases hconverged : self.convergedStatus sample.observedUnixMillis status with
  | some live =>
      left
      refine ⟨live, rfl, ?_⟩
      rw [assess_converged hconverged] at h
      split at h
      · next error estimator hestimate => cases h; exact .inl ⟨_, _, rfl, rfl, hestimate⟩
      · next estimate estimator hestimate => cases h; exact .inr ⟨_, _, rfl, rfl, hestimate⟩
  | none =>
      right
      unfold assess at h
      rw [hconverged] at h
      split_ifs at h with hlost
      · cases h; exact .inl ⟨rfl, rfl⟩
      · cases h
        simp only [not_or, not_not, Bool.not_eq_true, Option.isNone_eq_false_iff] at hlost
        exact .inr ⟨rfl, rfl, hlost.2, Option.isSome_iff_exists.mp hlost.1⟩

/-- The flags of a poll take no part in its first part. -/
def flagged (self : GuestRequester) (sample : TargetSample) : GuestRequester :=
  { self with
    nativeLow := sample.nativePressure == some .low
    numericCritical := self.critical sample }

theorem assess_flagged : (self.flagged sample).assess sample status =
    ((self.assess sample status).1, { (self.assess sample status).2 with
      nativeLow := sample.nativePressure == some .low
      numericCritical := self.critical sample }) := by
  cases hconverged : self.convergedStatus sample.observedUnixMillis status with
  | some live =>
      rw [assess_converged hconverged,
        @assess_converged (self.flagged sample) _ _ live hconverged]
      have hsame : (self.flagged sample).estimator = self.estimator := rfl
      rw [hsame]
      rcases self.estimator.estimate sample (geometryOf live) with ⟨_ | _, _⟩ <;> rfl
  | none =>
      have hflagged : (self.flagged sample).convergedStatus sample.observedUnixMillis status = none :=
        hconverged
      have hfresh : (self.flagged sample).freshStatus sample.observedUnixMillis status =
          self.freshStatus sample.observedUnixMillis status := rfl
      unfold assess
      rw [hconverged, hflagged, hfresh]
      dsimp only
      split_ifs <;> rfl

/-- A poll is its first part and what it does with the answer. -/
theorem poll_eq : self.poll sample status =
    match (self.flagged sample).assess sample status with
    | (.error error, after) => (.error error, after)
    | (.ok estimate, after) =>
      match after.state.pending with
      | some pending =>
        ((.ok (after.consume pending (after.accepted status) sample.monotonicMillis).1),
          (after.consume pending (after.accepted status) sample.monotonicMillis).2)
      | none =>
        match after.freshStatus sample.observedUnixMillis status, estimate with
        | some status, some estimate =>
          after.propose sample status estimate
            ((sample.nativePressure == some .low && !self.nativeLow) ||
              (self.critical sample && !self.numericCritical))
        | _, _ => (.ok hold, after) := rfl

/-- The first part of a poll leaves everything but the estimator alone. -/
theorem assess_rest {answer : Except String (Option TargetEstimate)} {after : GuestRequester}
    (h : self.assess sample status = (answer, after)) :
    ∃ estimator, after = { self with estimator } := by
  obtain ⟨live, -, ⟨_, estimator, -, rfl, -⟩ | ⟨_, estimator, -, rfl, -⟩⟩ | ⟨-, rfl⟩ | ⟨-, rfl, -⟩ :=
    assess_cases h
  · exact ⟨_, rfl⟩
  · exact ⟨_, rfl⟩
  · exact ⟨_, rfl⟩
  · exact ⟨after.estimator, rfl⟩

/-! ## The request a poll issues -/

/-- The request `issue` builds. -/
def nextRequest (self : GuestRequester) (operation : MemoryOperation) (bytes now expires : Nat) :
    MemoryRequest where
  version := memoryRequestVersion
  identity := ⟨self.vmName, self.serviceName, self.sessionId, self.nextSequence⟩
  operation := operation
  bytes := bytes
  issuedUnixMillis := now
  expiresUnixMillis := expires

/-- **Issuing** hands out a valid request under the next sequence number and retains it, or fails and
changes nothing. -/
theorem issue_cases {operation : MemoryOperation} {bytes now : Nat}
    {answer : Except String GuestDecision} {after : GuestRequester}
    (h : self.issue operation bytes now = (answer, after)) :
    (∃ error, answer = .error error ∧ after = self) ∨
    ∃ expires, (self.nextRequest operation bytes now expires).validate = .ok () ∧
      answer = .ok ⟨some (self.nextRequest operation bytes now expires), true, none⟩ ∧
      after = { self with
        nextSequence := self.nextSequence + 1
        state := ⟨some (self.nextRequest operation bytes now expires), now⟩ } := by
  unfold issue at h
  split at h
  · cases h; exact .inl ⟨_, rfl, rfl⟩
  next expires hexpires =>
  dsimp only at h
  split at h
  · cases h; exact .inl ⟨_, rfl, rfl⟩
  next hvalid =>
  split at h
  · cases h; exact .inl ⟨_, rfl, rfl⟩
  next nextSequence hnext =>
    cases h
    obtain ⟨rfl, -⟩ := checkedAdd_eq_some.mp hnext
    exact .inr ⟨expires, hvalid, rfl, rfl⟩

/-- **Planning** issues the planned delta, once the clock has passed the watermark, or leaves
everything as it is. -/
theorem propose_cases {live : HostMemoryStatus} {estimate : TargetEstimate} {emergency : Bool}
    {answer : Except String GuestDecision} {after : GuestRequester}
    (h : self.propose sample live estimate emergency = (answer, after)) :
    (after = self ∧ ∀ decision, answer = .ok decision → decision = hold) ∨
    ∃ operation bytes expires,
      planRequest (self.urge estimate live) live.device self.policy = .ok (some (operation, bytes)) ∧
      self.state.lastIssuedUnixMillis < sample.observedUnixMillis ∧
      (self.nextRequest operation bytes sample.observedUnixMillis expires).validate = .ok () ∧
      answer = .ok
        ⟨some (self.nextRequest operation bytes sample.observedUnixMillis expires), true, none⟩ ∧
      after = { self with
        nextSequence := self.nextSequence + 1
        state := ⟨some (self.nextRequest operation bytes sample.observedUnixMillis expires),
          sample.observedUnixMillis⟩ } := by
  have hheld : ∀ decision, (.ok hold : Except String GuestDecision) = .ok decision →
      decision = hold := by rintro _ ⟨⟩; rfl
  unfold propose at h
  split at h
  · cases h; exact .inl ⟨rfl, nofun⟩
  · cases h; exact .inl ⟨rfl, hheld⟩
  next operation bytes hplan =>
  split_ifs at h with hclock hthrottled
  · cases h; exact .inl ⟨rfl, hheld⟩
  · cases h; exact .inl ⟨rfl, hheld⟩
  · rcases issue_cases h with ⟨error, rfl, rfl⟩ | ⟨expires, hvalid, hanswer, hafter⟩
    · exact .inl ⟨rfl, nofun⟩
    · exact .inr ⟨operation, bytes, expires, hplan, not_le.mp hclock, hvalid, hanswer, hafter⟩

/-- **Everything a poll without a retained request can do.** It holds, or it issues what was planned
on this very sample's estimate. -/
theorem poll_idle {answer : Except String GuestDecision} {after : GuestRequester}
    (hpending : self.state.pending = none) (h : self.poll sample status = (answer, after)) :
    ∃ estimated assessed, (self.flagged sample).assess sample status = (estimated, assessed) ∧
      ((after = assessed ∧ ∀ decision, answer = .ok decision → decision = hold) ∨
      ∃ live estimate operation bytes expires,
        assessed.freshStatus sample.observedUnixMillis status = some live ∧
        estimated = .ok (some estimate) ∧
        planRequest (assessed.urge estimate live) live.device assessed.policy =
          .ok (some (operation, bytes)) ∧
        self.state.lastIssuedUnixMillis < sample.observedUnixMillis ∧
        (self.nextRequest operation bytes sample.observedUnixMillis expires).validate = .ok () ∧
        answer = .ok
          ⟨some (self.nextRequest operation bytes sample.observedUnixMillis expires), true, none⟩ ∧
        after = { assessed with
          nextSequence := self.nextSequence + 1
          state := ⟨some (self.nextRequest operation bytes sample.observedUnixMillis expires),
            sample.observedUnixMillis⟩ }) := by
  rw [poll_eq] at h
  cases hassess : (self.flagged sample).assess sample status with
  | mk estimated assessed =>
      refine ⟨estimated, assessed, rfl, ?_⟩
      rw [hassess] at h
      obtain ⟨estimator, rfl⟩ := assess_rest hassess
      cases estimated with
      | error error => cases h; exact .inl ⟨rfl, nofun⟩
      | ok estimate =>
          dsimp only at h
          rw [show ({ self.flagged sample with estimator } : GuestRequester).state.pending = none
            from hpending] at h
          dsimp only at h
          -- Only with an estimate and a fresh status is anything proposed.
          split at h
          · next live estimate' hlive =>
              rcases propose_cases h with ⟨rfl, hheld⟩ |
                ⟨operation, bytes, expires, hplan, hclock, hvalid, hanswer, hafter⟩
              · exact .inl ⟨rfl, hheld⟩
              · exact .inr ⟨live, estimate', operation, bytes, expires, hlive, rfl, hplan, hclock,
                  hvalid, hanswer, hafter⟩
          · cases h
            exact .inl ⟨rfl, by rintro _ ⟨⟩; rfl⟩

/-- After its first part a poll changes nothing but the request and what throttles the next one. -/
theorem poll_rest : ∃ nextSequence state retry retryDelayMillis,
    (self.poll sample status).2 = { ((self.flagged sample).assess sample status).2 with
      nextSequence, state, retry, retryDelayMillis } := by
  cases hpending : self.state.pending with
  | none =>
      cases hpoll : self.poll sample status with
      | mk answer after =>
          obtain ⟨estimated, assessed, hassess, hafter⟩ := poll_idle hpending hpoll
          rw [hassess]
          obtain ⟨rfl, -⟩ | ⟨_, _, _, _, _, -, -, -, -, -, -, rfl⟩ := hafter <;>
            exact ⟨_, _, _, _, rfl⟩
  | some pending =>
      rw [poll_eq]
      cases hassess : (self.flagged sample).assess sample status with
      | mk estimated assessed =>
          obtain ⟨estimator, rfl⟩ := assess_rest hassess
          cases estimated with
          | error error => exact ⟨_, _, _, _, rfl⟩
          | ok estimate =>
              dsimp only
              rw [show ({ self.flagged sample with estimator } : GuestRequester).state.pending =
                some pending from hpending]
              unfold consume
              dsimp only
              split
              · exact ⟨_, _, _, _, rfl⟩
              · split_ifs <;> exact ⟨_, _, _, _, rfl⟩

/-- A poll touches the estimator only through its first part. -/
theorem poll_estimator : (self.poll sample status).2.estimator =
    (self.assess sample status).2.estimator := by
  obtain ⟨_, _, _, _, h⟩ := @poll_rest self sample status
  rw [h, assess_flagged]

/-- A poll never changes who the requester is. -/
theorem poll_identity : (self.poll sample status).2.policy = self.policy ∧
    (self.poll sample status).2.vmName = self.vmName ∧
    (self.poll sample status).2.serviceName = self.serviceName ∧
    (self.poll sample status).2.sessionId = self.sessionId := by
  obtain ⟨_, _, _, _, h⟩ := @poll_rest self sample status
  cases hassess : (self.flagged sample).assess sample status with
  | mk estimated assessed =>
      obtain ⟨estimator, rfl⟩ := assess_rest hassess
      rw [h, hassess]
      exact ⟨rfl, rfl, rfl, rfl⟩

/-- **What a poll does to the durable state.** -/
inductive PollStep (before : GuestRequester) : Except String GuestDecision → GuestRequester → Prop
  /-- Nothing durable has changed. -/
  | failed {error : String} {after : GuestRequester} (hstate : after.state = before.state)
      (hsequence : after.nextSequence = before.nextSequence) :
      PollStep before (.error error) after
  /-- Nothing durable has changed, and what is published is the retained request or nothing. -/
  | kept {request : Option MemoryRequest} {after : GuestRequester}
      (hrequest : ∀ r, request = some r → before.state.pending = some r)
      (hstate : after.state = before.state) (hsequence : after.nextSequence = before.nextSequence) :
      PollStep before (.ok ⟨request, false, none⟩) after
  /-- The retained request is resolved, and the watermark stays. -/
  | resolved {result : MemoryResult} {after : GuestRequester}
      (hstate : after.state = { before.state with pending := none })
      (hsequence : after.nextSequence = before.nextSequence) :
      PollStep before (.ok ⟨none, true, some result⟩) after
  /-- A new request is retained, issued after the watermark under the next sequence number. -/
  | issued {request : MemoryRequest} {after : GuestRequester}
      (hidle : before.state.pending = none)
      (hwatermark : before.state.lastIssuedUnixMillis < request.issuedUnixMillis)
      (hsession : request.identity.sessionId = before.sessionId)
      (hrequest : request.identity.sequence = before.nextSequence)
      (hstate : after.state = ⟨some request, request.issuedUnixMillis⟩)
      (hsequence : after.nextSequence = before.nextSequence + 1) :
      PollStep before (.ok ⟨some request, true, none⟩) after

theorem poll_step {answer : Except String GuestDecision} {after : GuestRequester}
    (h : self.poll sample status = (answer, after)) : PollStep self answer after := by
  cases hpending : self.state.pending with
  | none =>
      obtain ⟨estimated, assessed, hassess, ⟨rfl, hheld⟩ | ⟨live, estimate, operation, bytes, expires,
        -, -, -, hwatermark, -, rfl, rfl⟩⟩ := poll_idle hpending h
      · obtain ⟨estimator, rfl⟩ := assess_rest hassess
        cases answer with
        | error error => exact .failed rfl rfl
        | ok decision => rw [hheld decision rfl]; exact .kept nofun rfl rfl
      · obtain ⟨estimator, rfl⟩ := assess_rest hassess
        exact .issued hpending hwatermark rfl rfl rfl rfl
  | some pending =>
      rw [poll_eq] at h
      cases hassess : (self.flagged sample).assess sample status with
      | mk estimated assessed =>
          rw [hassess] at h
          obtain ⟨estimator, rfl⟩ := assess_rest hassess
          cases estimated with
          | error error => cases h; exact .failed rfl rfl
          | ok estimate =>
              dsimp only at h
              rw [show ({ self.flagged sample with estimator } : GuestRequester).state.pending =
                some pending from hpending] at h
              unfold consume at h
              dsimp only at h
              split at h
              · cases h
                exact .kept (fun r hr => hpending.trans hr) rfl rfl
              · split_ifs at h <;> cases h <;> exact .resolved rfl rfl

end GuestRequester

/-! ## The delta that is planned -/

/-- What a removal leaves: a step less, but not less than what is desired and what is safe. -/
def reclaimTarget (estimate : TargetEstimate) (device : VirtioMemState)
    (policy : GuestMemoryPolicy) : Nat :=
  max (max (device.currentBytes - policy.shrinkStepBytes) estimate.desiredBytes)
    estimate.safeFloorBytes

/-- Where a delta comes from. -/
inductive Delta (estimate : TargetEstimate) (device : VirtioMemState) (policy : GuestMemoryPolicy) :
    MemoryOperation → Nat → Prop
  | grow (h : device.currentBytes < estimate.desiredBytes) :
      Delta estimate device policy .add (estimate.desiredBytes - device.currentBytes)
  | reclaim (hready : estimate.historyReady = true)
      (h : reclaimTarget estimate device policy < device.currentBytes) :
      Delta estimate device policy .remove
        (device.currentBytes - reclaimTarget estimate device policy)

/-- **A delta is planned** for a valid device that is not moving and that the policy's steps fit. -/
theorem planRequest_eq_some {estimate : TargetEstimate} {device : VirtioMemState}
    {policy : GuestMemoryPolicy} {operation : MemoryOperation} {bytes : Nat}
    (h : planRequest estimate device policy = .ok (some (operation, bytes))) :
    device.Valid ∧ (policy.growStepBytes % device.blockSizeBytes = 0 ∧
      policy.shrinkStepBytes % device.blockSizeBytes = 0) ∧
      device.requestedBytes = device.currentBytes ∧ Delta estimate device policy operation bytes := by
  unfold planRequest at h
  split at h
  · cases h
  next hvalid =>
  dsimp only at h
  split_ifs at h with hsteps hmoving hgrow hshrink
  · cases h
  · cases h
    simp only [not_or, not_not] at hsteps
    exact ⟨VirtioMemState.validate_eq_ok.mp hvalid, hsteps, not_not.mp hmoving, .grow hgrow⟩
  · cases h
    simp only [not_or, not_not] at hsteps
    exact ⟨VirtioMemState.validate_eq_ok.mp hvalid, hsteps, not_not.mp hmoving,
      .reclaim hshrink.2.1 hshrink.2.2⟩
  · cases h

/-- **The plan for a valid device that is not moving** and that the policy's steps fit. -/
theorem planRequest_eq {estimate : TargetEstimate} {device : VirtioMemState}
    {policy : GuestMemoryPolicy} (hvalid : device.Valid)
    (hsteps : policy.growStepBytes % device.blockSizeBytes = 0 ∧
      policy.shrinkStepBytes % device.blockSizeBytes = 0)
    (hconverged : device.requestedBytes = device.currentBytes) :
    planRequest estimate device policy = .ok (
      if device.currentBytes < estimate.desiredBytes then
        some (.add, estimate.desiredBytes - device.currentBytes)
      else if device.currentBytes > estimate.desiredBytes ∧ estimate.historyReady = true ∧
          reclaimTarget estimate device policy < device.currentBytes then
        some (.remove, device.currentBytes - reclaimTarget estimate device policy)
      else none) := by
  unfold planRequest
  rw [VirtioMemState.validate_eq_ok.mpr hvalid]
  dsimp only
  rw [if_neg (by simp [hsteps]), if_neg (not_not.mpr hconverged)]
  unfold reclaimTarget
  split_ifs <;> rfl

/-- A planned addition fills up to the desired size. -/
theorem planRequest_add {estimate : TargetEstimate} {device : VirtioMemState}
    {policy : GuestMemoryPolicy} {bytes : Nat}
    (h : planRequest estimate device policy = .ok (some (.add, bytes))) :
    bytes = estimate.desiredBytes - device.currentBytes ∧
      device.currentBytes < estimate.desiredBytes := by
  obtain ⟨-, -, -, hdelta⟩ := planRequest_eq_some h
  cases hdelta with
  | grow hgrow => exact ⟨rfl, hgrow⟩

/-- A planned removal: what is left is at least the desired size, on qualified history. -/
theorem planRequest_remove {estimate : TargetEstimate} {device : VirtioMemState}
    {policy : GuestMemoryPolicy} {bytes : Nat}
    (h : planRequest estimate device policy = .ok (some (.remove, bytes))) :
    estimate.historyReady = true ∧ device.requestedBytes = device.currentBytes ∧
      bytes ≤ device.currentBytes ∧ bytes ≤ policy.shrinkStepBytes ∧
      estimate.desiredBytes ≤ device.currentBytes - bytes := by
  obtain ⟨-, -, hconverged, hdelta⟩ := planRequest_eq_some h
  cases hdelta with
  | reclaim hready htarget =>
      unfold reclaimTarget at *
      exact ⟨hready, hconverged, by omega, by omega, by omega⟩

end VirtioMem.Core
