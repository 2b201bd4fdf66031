import VirtioMem.Core.EstimatorRuns
import VirtioMem.Guest.Emergency
import VirtioMem.Guest.Evidence

/-!
# A resize does not feed back

A guest that grows sees more memory, and more of it free. If that alone changed what it asks for, it
would keep growing or swing back and forth. It does not: what is used and committed stays the same, and
so do the fixed RAM besides the device and everything that is computed from these.

`Grown` says that memory and device have grown by the same bytes. It leaves the needs of a sample and
their limits alone (`Grown.needs`), and so a guest whose addition was granted in full asks for nothing
more (`resize_invisible`).
-/

namespace VirtioMem.Core

open VirtioMem.Word VirtioMem.Result

/-! ## The same workload -/

/-- The device and the memory that the guest sees have grown by this much; what it uses and has
committed has not. -/
structure Grown (bytes : Nat) (memory grown : MemoryTelemetrySnapshot)
    (geometry grownGeometry : TargetGeometry) : Prop where
  total : grown.physicalTotalBytes = memory.physicalTotalBytes + bytes
  available : grown.physicalAvailableBytes = memory.physicalAvailableBytes + bytes
  commitLimit : grown.commitLimitBytes = memory.commitLimitBytes + bytes
  commitTotal : grown.commitTotalBytes = memory.commitTotalBytes
  current : grownGeometry.currentBytes = geometry.currentBytes + bytes
  device : grownGeometry.deviceSizeBytes = geometry.deviceSizeBytes
  block : grownGeometry.blockSizeBytes = geometry.blockSizeBytes

variable {config : TargetPolicyConfig} {memory grown : MemoryTelemetrySnapshot}
  {geometry grownGeometry : TargetGeometry} {bytes : Nat}

theorem Grown.base (h : Grown bytes memory grown geometry grownGeometry) :
    grown.physicalTotalBytes - grownGeometry.currentBytes =
      memory.physicalTotalBytes - geometry.currentBytes := by
  rw [h.total, h.current, Nat.add_sub_add_right]

/-- The candidate sizes do not see the growth: both terms lose it again. -/
theorem Grown.candidate (h : Grown bytes memory grown geometry grownGeometry) (hmemory : memory.Valid)
    (hgrown : grown.Valid) {base physicalReserve commitReserve : Nat}
    (hcommit : geometry.currentBytes + commitReserve ≤ maximum)
    (hgrownCommit : grownGeometry.currentBytes + commitReserve ≤ maximum) :
    candidate grown grownGeometry.currentBytes base physicalReserve commitReserve =
      candidate memory geometry.currentBytes base physicalReserve commitReserve := by
  have hused : checkedSub grown.physicalTotalBytes grown.physicalAvailableBytes =
      checkedSub memory.physicalTotalBytes memory.physicalAvailableBytes := by
    have hle := hmemory.available_le
    have hle' := hgrown.available_le
    rw [checkedSub, checkedSub, if_pos hle, if_pos hle', h.total, h.available, Nat.add_sub_add_right]
  have hroom : checkedSub grown.commitLimitBytes grown.commitTotalBytes =
      some (memory.commitLimitBytes - memory.commitTotalBytes + bytes) := by
    have hle := hmemory.commit_le
    rw [checkedSub_eq_some, h.commitLimit, h.commitTotal]
    omega
  have hroom' : checkedSub memory.commitLimitBytes memory.commitTotalBytes =
      some (memory.commitLimitBytes - memory.commitTotalBytes) := if_pos hmemory.commit_le
  have hneeded : checkedAdd grownGeometry.currentBytes commitReserve =
      some (geometry.currentBytes + commitReserve + bytes) := by
    rw [checkedAdd_eq_some]
    have := h.current
    omega
  have hneeded' : checkedAdd geometry.currentBytes commitReserve =
      some (geometry.currentBytes + commitReserve) := if_pos hcommit
  unfold Core.candidate
  rw [hused, hroom, hroom', hneeded, hneeded']
  simp only [okOr, bind, Except.bind, Nat.add_sub_add_right]

/-- **Growth is invisible.** The needs of the moment, the ceiling and whether it is reached are the same
before and after. -/
theorem Grown.needs (h : Grown bytes memory grown geometry grownGeometry)
    (hmeasures : memory.Measures config geometry) (hgrown : grown.Measures config grownGeometry) :
    calculateInstantaneous config grown grownGeometry =
      calculateInstantaneous config memory geometry := by
  have heffective : calculateEffectiveMaximum config grownGeometry =
      calculateEffectiveMaximum config geometry := by
    rw [calculateEffectiveMaximum_eq_ok.mpr ⟨hmeasures.fits, rfl⟩,
      calculateEffectiveMaximum_eq_ok.mpr ⟨hgrown.fits, rfl⟩, h.device, h.block]
  have hvalid : grown.validate = memory.validate := by
    rw [MemoryTelemetrySnapshot.validate_eq_ok.mpr hmeasures.counters,
      MemoryTelemetrySnapshot.validate_eq_ok.mpr hgrown.counters]
  have hbase : checkedSub grown.physicalTotalBytes grownGeometry.currentBytes =
      checkedSub memory.physicalTotalBytes geometry.currentBytes := by
    rw [checkedSub, checkedSub, if_pos hmeasures.base, if_pos hgrown.base, h.base]
  obtain ⟨-, hfloor⟩ := TargetPolicyConfig.floors_le hmeasures.fits.policy
  have hcommit := hmeasures.commit
  have hcommit' := hgrown.commit
  have hcandidate : ∀ base, Core.candidate grown grownGeometry.currentBytes base
      config.physicalReserveBytes config.commitReserveBytes =
      Core.candidate memory geometry.currentBytes base config.physicalReserveBytes
        config.commitReserveBytes :=
    fun base => h.candidate hmeasures.counters hgrown.counters hcommit hcommit'
  have hfloorCandidate : ∀ base, Core.candidate grown grownGeometry.currentBytes base
      config.safeFloorPhysicalReserveBytes config.safeFloorCommitReserveBytes =
      Core.candidate memory geometry.currentBytes base config.safeFloorPhysicalReserveBytes
        config.safeFloorCommitReserveBytes :=
    fun base => h.candidate hmeasures.counters hgrown.counters (by omega) (by omega)
  unfold calculateInstantaneous
  simp only [heffective, hvalid, hbase, hcandidate, hfloorCandidate, h.block]

/-- Memory and device have grown or shrunk together. -/
def Resized (memory resized : MemoryTelemetrySnapshot) (geometry resizedGeometry : TargetGeometry) :
    Prop :=
  ∃ bytes, Grown bytes memory resized geometry resizedGeometry ∨
    Grown bytes resized memory resizedGeometry geometry

section Resized

variable {resized : MemoryTelemetrySnapshot} {resizedGeometry : TargetGeometry}

theorem Resized.block (h : Resized memory resized geometry resizedGeometry) :
    resizedGeometry.blockSizeBytes = geometry.blockSizeBytes := by
  obtain ⟨bytes, h | h⟩ := h
  · exact h.block
  · exact h.block.symm

theorem Resized.base (h : Resized memory resized geometry resizedGeometry) :
    resized.physicalTotalBytes - resizedGeometry.currentBytes =
      memory.physicalTotalBytes - geometry.currentBytes := by
  obtain ⟨bytes, h | h⟩ := h
  · exact h.base
  · exact h.base.symm

/-- **A resize is invisible**, in either direction. -/
theorem Resized.needs (h : Resized memory resized geometry resizedGeometry)
    (hmeasures : memory.Measures config geometry)
    (hresized : resized.Measures config resizedGeometry) :
    calculateInstantaneous config resized resizedGeometry =
      calculateInstantaneous config memory geometry := by
  obtain ⟨bytes, h | h⟩ := h
  · exact h.needs hmeasures hresized
  · exact (h.needs hresized hmeasures).symm

end Resized

/-! ## What an estimator makes of it -/

namespace TargetEstimator

variable {self after origin : TargetEstimator} {first sample : TargetSample}
  {resized : TargetGeometry} {needs : InstantaneousTarget}

/-- The needs of a sample inside this estimator's limits. -/
def Needs (self : TargetEstimator) (sample : TargetSample) (geometry : TargetGeometry)
    (needs : InstantaneousTarget) : Prop :=
  ∃ raw minimum, calculateInstantaneous self.config sample.memory geometry = .ok raw ∧
    alignUp (self.minRam - visibleBase sample geometry) geometry.blockSizeBytes = .ok minimum ∧
    needs = self.limited sample geometry raw minimum

theorem Needs.unique {needs' : InstantaneousTarget} (h : self.Needs sample geometry needs)
    (h' : self.Needs sample geometry needs') : needs' = needs := by
  obtain ⟨raw, minimum, hraw, hminimum, rfl⟩ := h
  obtain ⟨raw', minimum', hraw', hminimum', rfl⟩ := h'
  rw [hraw] at hraw'
  rw [hminimum] at hminimum'
  cases hraw'
  cases hminimum'
  rfl

/-- **A resize leaves the limited needs alone**: the clamps are those of the base, which is the same. -/
theorem Needs.of_resized (h : self.Needs first geometry needs)
    (hworkload : Resized first.memory sample.memory geometry resized)
    (hmeasures : sample.memory.Measures self.config resized) : self.Needs sample resized needs := by
  obtain ⟨raw, minimum, hraw, hminimum, rfl⟩ := h
  have hbase : visibleBase sample resized = visibleBase first geometry := hworkload.base
  refine ⟨raw, minimum, ?_, ?_, ?_⟩
  · rw [hworkload.needs (calculateInstantaneous_measures hraw) hmeasures, hraw]
  · rw [hbase, hworkload.block, hminimum]
  · unfold limited deviceMaximum
    rw [hbase, hworkload.block]

/-- The estimator runs the same policy and limits as another. -/
structure SameLimits (origin estimator : TargetEstimator) : Prop where
  config : estimator.config = origin.config
  minRam : estimator.minRam = origin.minRam
  maxRam : estimator.maxRam = origin.maxRam

theorem SameLimits.needs_of (h : SameLimits origin self) (hneeds : origin.Needs sample geometry needs) :
    self.Needs sample geometry needs := by
  obtain ⟨raw, minimum, hraw, hminimum, rfl⟩ := hneeds
  refine ⟨raw, minimum, h.config ▸ hraw, h.minRam ▸ hminimum, ?_⟩
  unfold limited deviceMaximum
  rw [h.maxRam]

theorem SameLimits.estimated {answer : Except TargetEstimatorError TargetEstimate}
    (hself : SameLimits origin self) (h : self.estimate sample geometry = (answer, after)) :
    SameLimits origin after := by
  obtain ⟨state, rfl⟩ := estimate_rest h
  exact ⟨hself.config, hself.minRam, hself.maxRam⟩

/-- An estimate keeps its session, or takes over the one of its sample. -/
theorem estimate_session {answer : Except TargetEstimatorError TargetEstimate}
    (h : self.estimate sample geometry = (answer, after)) (hsession : self.state.sessionId ≠ "") :
    after.state.sessionId ≠ "" := by
  unfold estimate at h
  split at h
  · cases h
    exact hsession
  split at h
  · next herror =>
      cases h
      rw [prepareSample_error herror]
      exact hsession
  next state hprepare =>
  have hprepared := prepareSample_ok hprepare
  have hkept : state.sessionId ≠ "" := by
    rcases hprepared.kept with rfl | rfl <;> exact hsession
  dsimp only at h
  split at h
  · cases h
    exact hkept
  split_ifs at h
  · cases h
    exact hkept
  · cases answer with
    | error error =>
        rw [(conclude_failed h).1, folded_session]
        exact hkept
    | ok estimate =>
        obtain ⟨_, -, -, rfl⟩ := conclude_qualify h
        exact not_blank_ne_empty hprepared.session

/-- What a sample on a state that already desires its need makes of the desired size: nothing. -/
theorem conclude_desires {state : TargetEstimatorState}
    {answer : Except TargetEstimatorError TargetEstimate} (hsession : state.sessionId ≠ "")
    (hdesired : state.desiredBytes = needs.desiredNowBytes)
    (hle : needs.desiredNowBytes ≤ needs.effectiveMaximumBytes)
    (h : self.conclude state sample geometry needs = (answer, after)) :
    after.state.desiredBytes = needs.desiredNowBytes ∧
      ∀ estimate, answer = .ok estimate → estimate.desiredBytes = needs.desiredNowBytes := by
  have hfolded : (self.folded state sample geometry needs).desiredBytes = needs.desiredNowBytes := by
    rw [folded_desired, raise, if_neg (by rwa [rebase_session])]
    simp only [rebase_desired, hdesired, max_self]
    exact min_eq_left hle
  cases answer with
  | error error =>
      rw [(conclude_failed h).1]
      exact ⟨hfolded, fun _ hok => by cases hok⟩
  | ok estimate =>
      obtain ⟨-, hneed, -⟩ := conclude_between hle h
      obtain ⟨desired, floor, -, hcause, rfl, rfl⟩ := conclude_eq_ok h
      have heq : desired = needs.desiredNowBytes := by
        rcases hcause with rfl | hfalls
        · exact hfolded
        · have hdrop := hfalls.le
          rw [hfolded] at hdrop
          exact le_antisymm hdrop hneed
      refine ⟨heq, ?_⟩
      rintro _ ⟨⟩
      exact heq

/-- The estimator has the limits of `origin` and desires this much. -/
structure Desires (origin estimator : TargetEstimator) (desired : Nat) : Prop
    extends SameLimits origin estimator where
  desired : estimator.state.desiredBytes = desired
  session : estimator.state.sessionId ≠ ""

/-- **The desired size of a workload stays**, whatever comes of the estimate. -/
theorem Desires.estimated {answer : Except TargetEstimatorError TargetEstimate}
    (hself : Desires origin self needs.desiredNowBytes) (hneeds : origin.Needs first geometry needs)
    (hworkload : Resized first.memory sample.memory geometry resized)
    (h : self.estimate sample resized = (answer, after)) :
    Desires origin after needs.desiredNowBytes ∧
      ∀ estimate, answer = .ok estimate → estimate.desiredBytes = needs.desiredNowBytes := by
  suffices hdesired : after.state.desiredBytes = needs.desiredNowBytes ∧
      ∀ estimate, answer = .ok estimate → estimate.desiredBytes = needs.desiredNowBytes from
    ⟨⟨hself.toSameLimits.estimated h, hdesired.1, estimate_session h hself.session⟩, hdesired.2⟩
  rcases estimate_stages h with ⟨error, rfl, ⟨hdesired, -⟩, -⟩ |
    ⟨raw, prepared, minimum, hraw, -, haccepted, hconclude⟩
  · exact ⟨hdesired.trans hself.desired, fun _ hok => by cases hok⟩
  have hlimited : self.limited sample resized raw minimum = needs :=
    Needs.unique ((hself.needs_of hneeds).of_resized hworkload (calculateInstantaneous_measures hraw))
      ⟨raw, minimum, hraw, haccepted.aligned, rfl⟩
  have hprepared : prepared.sessionId ≠ "" ∧ prepared.desiredBytes = self.state.desiredBytes := by
    rcases haccepted.order.kept with rfl | rfl <;> exact ⟨hself.session, rfl⟩
  have hle := (@within_desired raw minimum _ haccepted.minimum_le).2
  change (self.limited sample resized raw minimum).desiredNowBytes ≤
    (self.limited sample resized raw minimum).effectiveMaximumBytes at hle
  rw [hlimited] at hconclude hle
  exact conclude_desires hprepared.1 (hprepared.2.trans hself.desired) hle hconclude

/-- The first answer of a fresh estimator asks for what the sample needs, or for no growth. -/
theorem estimate_first {estimate : TargetEstimate} (hfresh : self.state = .initial)
    (h : self.estimate sample geometry = (.ok estimate, after))
    (hgrows : geometry.currentBytes < estimate.desiredBytes) :
    ∃ needs, self.Needs sample geometry needs ∧ estimate.desiredBytes = needs.desiredNowBytes ∧
      Desires self after needs.desiredNowBytes := by
  rcases estimate_stages h with ⟨error, herror, -⟩ |
    ⟨raw, prepared, minimum, hraw, -, haccepted, hconclude⟩
  · cases herror
  have hsession : prepared.sessionId = "" := by
    rcases haccepted.order.kept with rfl | rfl <;> rw [hfresh] <;> rfl
  have hle := (@within_desired raw minimum _ haccepted.minimum_le).2
  change (self.limited sample geometry raw minimum).desiredNowBytes ≤
    (self.limited sample geometry raw minimum).effectiveMaximumBytes at hle
  obtain ⟨-, hneed, -⟩ := conclude_between hle hconclude
  have hfolded : (self.folded prepared sample geometry
      (self.limited sample geometry raw minimum)).desiredBytes ≤
        max geometry.currentBytes (self.limited sample geometry raw minimum).desiredNowBytes := by
    rw [folded_desired, raise, if_pos (by rwa [rebase_session])]
    simp only
    omega
  obtain ⟨hrest, hnonblank, -⟩ := estimate_ok_rest h
  have hlimits := SameLimits.estimated ⟨rfl, rfl, rfl⟩ h
  obtain ⟨desired, floor, -, hcause, rfl, rfl⟩ := conclude_eq_ok hconclude
  -- The target lies between the needs and what it was raised to, and growth rules out the rest.
  have hdrop : desired ≤ (self.folded prepared sample geometry
      (self.limited sample geometry raw minimum)).desiredBytes := by
    rcases hcause with rfl | hfalls
    · exact le_rfl
    · exact hfalls.le
  have heq : desired = (self.limited sample geometry raw minimum).desiredNowBytes := by
    simp only at hgrows hneed
    omega
  exact ⟨_, ⟨raw, minimum, hraw, haccepted.aligned, rfl⟩, heq, hlimits, heq, hnonblank⟩

end TargetEstimator

/-! ## What a requester makes of it -/

namespace GuestRequester

/-- One more look at the workload of a first sample: not Low, with memory and device resized together,
and of the full size once no request is retained. -/
structure Observes (requester : GuestRequester) (first : TargetSample) (geometry : TargetGeometry)
    (full : Nat) (sample : TargetSample) (status : Option HostMemoryStatus) : Prop where
  calm : sample.nativePressure ≠ some .low
  workload : ∀ live, requester.convergedStatus sample.observedUnixMillis status = some live →
    Resized first.memory sample.memory geometry (geometryOf live)
  full : requester.state.pending = none → ∀ live,
    requester.convergedStatus sample.observedUnixMillis status = some live →
      live.currentBytes = full

/-- Polls that observe the workload, in any number. -/
inductive Continues (first : TargetSample) (geometry : TargetGeometry) (full : Nat)
    (start : GuestRequester) : GuestRequester → Prop
  | start : Continues first geometry full start start
  | polled {self : GuestRequester} (h : Continues first geometry full start self)
      (sample : TargetSample) (status : Option HostMemoryStatus)
      (hobserves : self.Observes first geometry full sample status) :
      Continues first geometry full start (self.poll sample status).2

variable {start self : GuestRequester} {first sample : TargetSample} {geometry : TargetGeometry}
  {full : Nat} {status : Option HostMemoryStatus} {origin : TargetEstimator}
  {needs : InstantaneousTarget}

/-- Before its first poll a requester has seen nothing. -/
theorem Polls.fresh (h : Polls start [] self) (hstart : start.estimator.state = .initial) :
    self.estimator.state = .initial := by
  generalize hpolls : ([] : List Poll) = polls at h
  induction h with
  | start => exact hstart
  | polled => simp at hpolls
  | @invalidated polls self _ ih =>
      show self.estimator.state.invalidateHistory = _
      rw [ih hpolls]
      rfl
  | @limited polls self _ minimum maximum ih =>
      show ((self.estimator.setRamLimits minimum maximum).2).state = _
      rcases @TargetEstimator.setRamLimits_rest self.estimator minimum maximum with h | h <;> rw [h]
      · exact ih hpolls
      · show self.estimator.state.invalidateHistory = _
        rw [ih hpolls]
        rfl

/-- A poll of the workload keeps the desired size. -/
theorem Observes.desires (h : self.Observes first geometry full sample status)
    (hneeds : origin.Needs first geometry needs)
    (hself : TargetEstimator.Desires origin self.estimator needs.desiredNowBytes) :
    TargetEstimator.Desires origin (self.poll sample status).2.estimator needs.desiredNowBytes := by
  rw [poll_estimator]
  cases hassess : self.assess sample status with
  | mk answer assessed =>
      obtain ⟨live, hlive, ⟨error, estimator, -, rfl, hestimate⟩ |
        ⟨estimate, estimator, -, rfl, hestimate⟩⟩ | ⟨-, rfl⟩ | ⟨-, rfl, -⟩ := assess_cases hassess
      · exact (hself.estimated hneeds (h.workload live hlive) hestimate).1
      · exact (hself.estimated hneeds (h.workload live hlive) hestimate).1
      · exact ⟨⟨hself.config, hself.minRam, hself.maxRam⟩, hself.desired, hself.session⟩
      · exact hself

theorem Continues.desires (h : Continues first geometry full start self)
    (hneeds : origin.Needs first geometry needs)
    (hstart : TargetEstimator.Desires origin start.estimator needs.desiredNowBytes) :
    TargetEstimator.Desires origin self.estimator needs.desiredNowBytes := by
  induction h with
  | start => exact hstart
  | polled _ sample status hobserves ih => exact hobserves.desires hneeds ih

/-- Without Windows' Low nothing is urged. -/
theorem urge_calm {estimate : TargetEstimate} {live : HostMemoryStatus}
    (h : sample.nativePressure ≠ some .low) :
    (self.flagged sample).urge estimate live = estimate := by
  have hlow : (self.flagged sample).nativeLow = false := by simpa [flagged] using h
  rw [urge, hlow]
  rfl

/-- What an issuing poll has found. -/
theorem issues_idle {p : Poll} {request : MemoryRequest} (h : p.issues request) :
    p.before.state.pending = none ∧ p.before.poll p.sample p.status =
      (.ok ⟨some request, true, none⟩, p.after) := by
  have hpoll : p.before.poll p.sample p.status = (.ok ⟨some request, true, none⟩, p.after) :=
    Prod.ext h rfl
  cases poll_step hpoll with
  | issued hidle => exact ⟨hidle, hpoll⟩

/-- **No second request.** At the size it desires, an idle requester asks for nothing. -/
theorem poll_settled (hidle : self.state.pending = none)
    (hobserves : self.Observes first geometry needs.desiredNowBytes sample status)
    (hneeds : origin.Needs first geometry needs)
    (hself : TargetEstimator.Desires origin self.estimator needs.desiredNowBytes)
    {decision : GuestDecision} (h : (self.poll sample status).1 = .ok decision) :
    decision.request = none := by
  by_contra hrequest
  obtain ⟨request, hrequest⟩ := Option.ne_none_iff_exists'.mp hrequest
  obtain ⟨live, estimate, estimator, hlive, -, hestimate, hplan⟩ := poll_issued hidle
    (Prod.ext h rfl : self.poll sample status = (.ok decision, (self.poll sample status).2)) hrequest
  rw [urge_calm hobserves.calm] at hplan
  have hdesired := (hself.estimated hneeds (hobserves.workload live hlive) hestimate).2 estimate rfl
  have hfull := hobserves.full hidle live hlive
  have hcurrent : live.device.currentBytes = live.currentBytes := rfl
  obtain ⟨-, -, -, hdelta⟩ := planRequest_eq_some hplan
  generalize request.operation = operation, request.bytes = delta at hdelta
  cases hdelta with
  | grow hgrows => omega
  | reclaim _ hreclaims =>
      unfold reclaimTarget at hreclaims
      omega

end GuestRequester

/-! ## No feedback -/

open GuestRequester

/-- **A resize does not feed back into demand.** Memory and device that grow or shrink together leave the
needs of the moment alone, and the clamps of the RAM limits too. So once a fresh guest's first addition
was granted in full and its result consumed, it asks for nothing more, however long the workload goes
on. -/
theorem resize_invisible :
    (∀ (config : TargetPolicyConfig) (memory resized : MemoryTelemetrySnapshot)
      (geometry resizedGeometry : TargetGeometry), Resized memory resized geometry resizedGeometry →
      memory.Measures config geometry → resized.Measures config resizedGeometry →
      geometry.deviceSizeBytes ≤ maximum →
      (∃ needs, calculateInstantaneous config memory geometry = .ok needs ∧
        calculateInstantaneous config resized resizedGeometry = .ok needs) ∧
      ∀ (estimator : TargetEstimator) (sample later : TargetSample) (effectiveMaximum : Nat),
        sample.memory = memory → later.memory = resized →
        alignUp (estimator.minRam - TargetEstimator.visibleBase later resizedGeometry)
            resizedGeometry.blockSizeBytes =
          alignUp (estimator.minRam - TargetEstimator.visibleBase sample geometry)
            geometry.blockSizeBytes ∧
        estimator.deviceMaximum (TargetEstimator.visibleBase later resizedGeometry)
            resizedGeometry.blockSizeBytes effectiveMaximum =
          estimator.deviceMaximum (TargetEstimator.visibleBase sample geometry)
            geometry.blockSizeBytes effectiveMaximum) ∧
    ∀ (policy : GuestMemoryPolicy) (vm service session : String) (state : GuestRequestState)
      (start self : GuestRequester) (issuing : Poll) (live : HostMemoryStatus)
      (request : MemoryRequest) (sample : TargetSample) (status : Option HostMemoryStatus),
      GuestRequester.new policy vm service session state = .ok start →
      Polls start [] issuing.before → issuing.issues request → request.operation = .add →
      issuing.sample.nativePressure ≠ some .low → issuing.status = some live →
      Continues issuing.sample (geometryOf live) (live.currentBytes + request.bytes) issuing.after
        self →
      self.state.pending = none →
      self.Observes issuing.sample (geometryOf live) (live.currentBytes + request.bytes) sample
        status →
      ∀ decision, (self.poll sample status).1 = .ok decision → decision.request = none := by
  constructor
  · intro config memory resized geometry resizedGeometry hresized hmeasures hmeasures' hword
    obtain ⟨needs, hneeds⟩ := (calculateInstantaneous_isOk hword).mpr hmeasures
    refine ⟨⟨needs, hneeds, (hresized.needs hmeasures hmeasures').trans hneeds⟩, ?_⟩
    rintro estimator sample later effectiveMaximum rfl rfl
    have hbase : TargetEstimator.visibleBase later resizedGeometry =
        TargetEstimator.visibleBase sample geometry := hresized.base
    rw [hbase, hresized.block]
    exact ⟨rfl, rfl⟩
  · intro policy vm service session state start self issuing live request sample status hnew hfresh
      hissues hadd hcalm hstatus hcontinues hidle hobserves decision hanswer
    obtain ⟨-, -, -, -, -, -, hestimator, -⟩ := new_eq_ok hnew
    have hinitial := hfresh.fresh (TargetEstimator.new_initial hestimator).1
    obtain ⟨hissuing, hpoll⟩ := issues_idle hissues
    obtain ⟨live', estimate, estimator, hlive, hassess, hestimate, hplan⟩ :=
      poll_issued hissuing hpoll rfl
    obtain ⟨hsame, -⟩ := convergedStatus_eq_some.mp hlive
    obtain rfl : live = live' := Option.some.inj (hstatus.symm.trans hsame)
    rw [urge_calm hcalm, hadd] at hplan
    obtain ⟨hbytes, hgrows⟩ := planRequest_add hplan
    obtain ⟨needs, hneeds, hdesired, hdesires⟩ :=
      TargetEstimator.estimate_first hinitial hestimate hgrows
    have hafter : issuing.after.estimator = estimator := by
      show (issuing.before.poll issuing.sample issuing.status).2.estimator = estimator
      rw [poll_estimator, hassess]
    -- The full grant brings the device to what the first estimate asked for.
    have hfull : live.currentBytes + request.bytes = needs.desiredNowBytes := by
      have hcurrent : live.device.currentBytes = live.currentBytes := rfl
      omega
    rw [hfull] at hcontinues hobserves
    exact poll_settled hidle hobserves hneeds
      (hcontinues.desires hneeds (hafter ▸ hdesires)) hanswer

/-- The pressed guest after its half gibibyte was granted: more memory, all of it free. -/
def settledSample (monotonic sequence : Nat) : TargetSample :=
  { pressedSample monotonic sequence .neutral with
    memory := {
      physicalTotalBytes := 6 * gib + gib / 2
      physicalAvailableBytes := 2 * gib
      memoryLoadPercent := 69
      commitTotalBytes := gib
      commitLimitBytes := 8 * gib + gib / 2
      commitPeakBytes := gib } }

def settledStatus (observed : Nat) (result : Option MemoryResult) : HostMemoryStatus :=
  { pressedStatus observed result with
    requestedBytes := 4 * gib + gib / 2
    currentBytes := 4 * gib + gib / 2 }

def grantedResult : MemoryResult := ⟨pressedRequest, .completed, gib / 2, 6500, none⟩

def settlingPoll : Poll :=
  ⟨issuingPoll.after, settledSample 2000 2, some (settledStatus 7000 (some grantedResult))⟩

def settledPoll : Poll := ⟨settlingPoll.after, settledSample 3000 3, some (settledStatus 8000 none)⟩

theorem settled_resized (monotonic sequence observed : Nat) (result : Option MemoryResult) :
    Resized issuingPoll.sample.memory (settledSample monotonic sequence).memory
      (geometryOf (pressedStatus 6000 none)) (geometryOf (settledStatus observed result)) :=
  ⟨gib / 2, .inl ⟨rfl, rfl, rfl, rfl, rfl, rfl, rfl⟩⟩

theorem settled_observes (requester : GuestRequester) (monotonic sequence observed : Nat)
    (result : Option MemoryResult) :
    requester.Observes issuingPoll.sample (geometryOf (pressedStatus 6000 none))
      ((pressedStatus 6000 none).currentBytes + pressedRequest.bytes)
      (settledSample monotonic sequence) (some (settledStatus observed result)) where
  calm := fun h => by cases h
  workload := by
    intro live hlive
    cases (convergedStatus_eq_some.mp hlive).1
    exact settled_resized ..
  full := by
    intro _ live hlive
    cases (convergedStatus_eq_some.mp hlive).1
    rfl

/-- The pressed guest does not ask again. -/
theorem settledPoll_quiet :
    ∃ decision, settledPoll.answer = .ok decision ∧ decision.request = none := by
  have hanswer : settledPoll.answer = .ok hold := by decide +kernel
  exact ⟨hold, hanswer, resize_invisible.2 examplePolicy "guest" "service" "session" .initial
    pressedStart settledPoll.before issuingPoll (pressedStatus 6000 none) pressedRequest
    settledPoll.sample settledPoll.status pressedStart_new .start
    (by show issuingPoll.answer = _; decide +kernel) rfl (by decide) rfl
    (.polled .start _ _ (settled_observes ..)) (by decide +kernel) (settled_observes ..) hold hanswer⟩

end VirtioMem.Core
