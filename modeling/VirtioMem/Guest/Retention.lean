import VirtioMem.Core.GuestPolicy

/-!
# The retained request

The guest holds one request until the host resolves it, and is meant to publish it again, unchanged,
with every sample until then. `Survives` says so for one poll.

The code does it on every poll whose first part succeeds. But the estimate comes before the retained
request is looked at, and its error leaves the poll at once: an observation the estimator cannot use
blocks both the retransmission and the result. `survives_iff` gives the exact line between the two.
-/

namespace VirtioMem.Core.GuestRequester

open VirtioMem.Word

/-- `result` is the host's terminal answer to `request`, in a status meant for this VM and service. -/
def Resolves (self : GuestRequester) (status : Option HostMemoryStatus) (request : MemoryRequest)
    (result : MemoryResult) : Prop :=
  ∃ live, status = some live ∧ live.validateFor self.vmName self.serviceName = .ok () ∧
    live.result = some result ∧ result.request = request ∧ result.terminal = true

/-- What a poll may do with a retained request: hand over its result, exactly when there is one, or
publish it again and leave the durable state alone. -/
inductive Keeps (self : GuestRequester) (status : Option HostMemoryStatus) (request : MemoryRequest) :
    GuestDecision → GuestRequester → Prop
  | resolved {result : MemoryResult} {after : GuestRequester}
      (hresult : self.Resolves status request result)
      (hstate : after.state = { self.state with pending := none }) :
      Keeps self status request ⟨none, true, some result⟩ after
  | retransmitted {after : GuestRequester}
      (hresult : ∀ result, ¬ self.Resolves status request result)
      (hstate : after.state = self.state) :
      Keeps self status request ⟨some request, false, none⟩ after

/-- The poll succeeds and keeps the request. -/
def Survives (self : GuestRequester) (sample : TargetSample) (status : Option HostMemoryStatus)
    (request : MemoryRequest) : Prop :=
  ∃ decision after, self.poll sample status = (.ok decision, after) ∧
    self.Keeps status request decision after

variable {self : GuestRequester} {sample : TargetSample} {status : Option HostMemoryStatus}
  {request : MemoryRequest}

/-- Looking for the result finds the one the status carries, and nothing else. -/
theorem found_eq_some {result : MemoryResult} :
    (((self.accepted status).bind (·.result)).filter fun result =>
        result.request == request && result.terminal) = some result ↔
      self.Resolves status request result := by
  rw [Option.filter_eq_some_iff, Option.bind_eq_some_iff]
  simp only [accepted_eq_some, Bool.and_eq_true, beq_iff_eq]
  constructor
  · rintro ⟨⟨live, ⟨hlive, hvalid⟩, hresult⟩, hrequest, hterminal⟩
    exact ⟨live, hlive, hvalid, hresult, hrequest, hterminal⟩
  · rintro ⟨live, hlive, hvalid, hresult, hrequest, hterminal⟩
    exact ⟨⟨live, ⟨hlive, hvalid⟩, hresult⟩, hrequest, hterminal⟩

/-- The second part of a poll always keeps the request. -/
theorem consume_keeps (monotonic : Nat) :
    self.Keeps status request (self.consume request (self.accepted status) monotonic).1
      (self.consume request (self.accepted status) monotonic).2 := by
  cases hfound : ((self.accepted status).bind (·.result)).filter fun result =>
      result.request == request && result.terminal with
  | none =>
      have hconsume : self.consume request (self.accepted status) monotonic =
          (⟨some request, false, none⟩, self) := by
        unfold consume
        rw [hfound]
      rw [hconsume]
      refine .retransmitted (fun result hresult => ?_) rfl
      rw [found_eq_some.mpr hresult] at hfound
      cases hfound
  | some result =>
      have hresult := found_eq_some.mp hfound
      unfold consume
      rw [hfound]
      dsimp only
      split_ifs
      · exact .resolved hresult rfl
      · exact .resolved hresult rfl

/-- `Keeps` looks at the durable state and the identity only. -/
theorem Keeps.of_same {self' : GuestRequester} {decision : GuestDecision} {after : GuestRequester}
    (h : self'.Keeps status request decision after) (hstate : self'.state = self.state)
    (hvm : self'.vmName = self.vmName) (hservice : self'.serviceName = self.serviceName) :
    self.Keeps status request decision after := by
  have hresolves : ∀ result, self'.Resolves status request result ↔
      self.Resolves status request result := by
    intro result
    unfold Resolves
    rw [hvm, hservice]
  cases h with
  | resolved hresult hafter => exact .resolved ((hresolves _).mp hresult) (by rw [hafter, hstate])
  | retransmitted hresult hafter =>
      exact .retransmitted (fun result h => hresult result ((hresolves result).mpr h))
        (hafter.trans hstate)

/-- A poll whose first part succeeds keeps the request. -/
theorem survives_of_assess (hpending : self.state.pending = some request)
    {estimate : Option TargetEstimate} (h : (self.assess sample status).1 = .ok estimate) :
    self.Survives sample status request := by
  cases hassess : (self.flagged sample).assess sample status with
  | mk answer after =>
      have hanswer := congrArg Prod.fst (assess_flagged.symm.trans hassess)
      rw [h] at hanswer
      cases hanswer
      obtain ⟨estimator, rfl⟩ := assess_rest hassess
      have hkeeps := @consume_keeps { self.flagged sample with estimator } status request
        sample.monotonicMillis
      refine ⟨_, _, ?_, hkeeps.of_same rfl rfl rfl⟩
      rw [poll_eq, hassess]
      dsimp only
      rw [show ({ self.flagged sample with estimator } : GuestRequester).state.pending =
        some request from hpending]

/-- A poll whose first part fails answers nothing. -/
theorem not_survives_of_assess {error : String} (h : (self.assess sample status).1 = .error error) :
    ¬ self.Survives sample status request := by
  rintro ⟨decision, after, hpoll, -⟩
  rw [poll_eq, assess_flagged, h] at hpoll
  cases hpoll

/-- The first part of a poll succeeds exactly when the estimator can use what a converged status
shows it. -/
theorem assess_isOk (hword : ∀ live, status = some live → live.deviceSizeBytes ≤ maximum) :
    (∃ estimate, (self.assess sample status).1 = .ok estimate) ↔
      ∀ live, self.convergedStatus sample.observedUnixMillis status = some live →
        self.estimator.Takes sample (geometryOf live) := by
  cases hconverged : self.convergedStatus sample.observedUnixMillis status with
  | none =>
      simp only [reduceCtorEq, false_imp_iff, implies_true, iff_true]
      unfold assess
      rw [hconverged]
      dsimp only
      split_ifs <;> exact ⟨_, rfl⟩
  | some live =>
      have hlive := hword live (convergedStatus_eq_some.mp hconverged).1
      simp only [Option.some.injEq, forall_eq']
      rw [← @TargetEstimator.estimate_isOk _ _ (geometryOf live) hlive,
        assess_converged hconverged]
      constructor
      · rintro ⟨estimate, h⟩
        split at h
        · cases h
        · next estimate estimator hestimate => exact ⟨_, _, hestimate⟩
      · rintro ⟨estimate, after, hestimate⟩
        rw [hestimate]
        exact ⟨_, rfl⟩

/-- **When a retained request survives a poll.** It is published again or resolved exactly if there
is no fresh status of a converged device, or the estimator can use what that status and the sample
show. -/
theorem survives_iff (hpending : self.state.pending = some request)
    (hword : ∀ live, status = some live → live.deviceSizeBytes ≤ maximum) :
    self.Survives sample status request ↔
      ∀ live, self.convergedStatus sample.observedUnixMillis status = some live →
        self.estimator.Takes sample (geometryOf live) := by
  rw [← assess_isOk hword]
  constructor
  · intro h
    cases hassess : (self.assess sample status).1 with
    | ok estimate => exact ⟨estimate, rfl⟩
    | error error => exact absurd h (not_survives_of_assess hassess)
  · rintro ⟨estimate, h⟩
    exact survives_of_assess hpending h

/-! ## A hotplug Windows has not seen yet

The device has grown to 4 GiB and the host publishes the result, but the sample was taken while
Windows still counted its 2 GiB of boot memory. The counters are valid and the sample follows the
last one; the poll fails, and the result is neither consumed nor the request published again. -/

def gib : Nat := 2 ^ 30

/-- The policy of the guest's own tests. -/
def examplePolicy : GuestMemoryPolicy where
  target := {
    configuredMinimumBytes := 0
    physicalReserveBytes := 2 * gib
    commitReserveBytes := 2 * gib
    safeFloorPhysicalReserveBytes := gib
    safeFloorCommitReserveBytes := gib
    historyWindowMillis := 60000
    maximumGapMillis := 30000
    downwardHysteresisBytes := gib / 4 }
  growStepBytes := gib
  shrinkStepBytes := gib / 4
  hostStatusMaxAgeMillis := 30000
  requestLifetimeMillis := 20000

def retainedAdd : MemoryRequest where
  version := memoryRequestVersion
  identity := ⟨"guest", "service", "session", 0⟩
  operation := .add
  bytes := 4 * gib
  issuedUnixMillis := 1000
  expiresUnixMillis := 21000

/-- The requester a restarted service builds around its retained request. -/
def restartedRequester : GuestRequester where
  policy := examplePolicy
  estimator := {
    config := examplePolicy.target, minRam := 0, maxRam := maximum, state := .initial }
  state := ⟨some retainedAdd, 1000⟩
  vmName := "guest"
  serviceName := "service"
  sessionId := "new-session"
  nextSequence := 0
  retry := none
  retryDelayMillis := 0
  nativeLow := false
  numericCritical := false

/-- Valid counters of a guest that has not noticed the new memory. -/
def earlySample : TargetSample where
  sessionId := "new-session"
  observedUnixMillis := 5000
  monotonicMillis := 100
  sequence := 1
  memory := {
    physicalTotalBytes := 2 * gib
    physicalAvailableBytes := gib
    memoryLoadPercent := 50
    commitTotalBytes := gib
    commitLimitBytes := 3 * gib
    commitPeakBytes := gib }
  nativePressure := some .neutral

/-- The host's status once the device has converged, with the result of the retained request. -/
def grownStatus : HostMemoryStatus where
  version := memoryRequestVersion
  vmName := "guest"
  serviceName := "service"
  deviceAlias := "memory0"
  observedUnixMillis := 5000
  deviceSizeBytes := 8 * gib
  blockSizeBytes := 2 * 2 ^ 20
  requestedBytes := 4 * gib
  currentBytes := 4 * gib
  result := some ⟨retainedAdd, .completed, 4 * gib, 5000, none⟩

/-- A retained request need not survive a poll. -/
theorem earlySample_loses_request :
    restartedRequester.state.pending = some retainedAdd ∧
      earlySample.memory.validate = .ok () ∧
      restartedRequester.estimator.state.lastSequence < earlySample.sequence ∧
      restartedRequester.estimator.state.lastMonotonicMillis < earlySample.monotonicMillis ∧
      ¬ restartedRequester.Survives earlySample (some grownStatus) retainedAdd := by
  have hfailed : (restartedRequester.assess earlySample (some grownStatus)).1 =
      .error "target geometry is invalid: physical total is below current allocation" := by decide
  exact ⟨rfl, by decide, by decide, by decide, not_survives_of_assess hfailed⟩

/-- The same sample once Windows counts the new memory. -/
def lateSample : TargetSample :=
  { earlySample with
    memory := { earlySample.memory with
      physicalTotalBytes := 6 * gib
      physicalAvailableBytes := 5 * gib } }

theorem lateSample_keeps_request :
    restartedRequester.Survives lateSample (some grownStatus) retainedAdd := by
  have hword : ∀ live, some grownStatus = some live → live.deviceSizeBytes ≤ maximum := by
    rintro _ ⟨⟩
    decide
  refine (survives_iff rfl hword).mpr fun live hlive => ?_
  cases (convergedStatus_eq_some.mp hlive).1
  exact {
    measures := {
      fits := ⟨by decide, by decide, by decide, by decide, by decide, by decide, by decide,
        by decide, by decide⟩
      counters := MemoryTelemetrySnapshot.validate_eq_ok.mp (by decide)
      base := by decide
      physical := by decide
      commit := by decide }
    session := by decide
    advances := by decide
    minimum_le := by decide
    base_le := by decide
    window := by decide }

end VirtioMem.Core.GuestRequester
