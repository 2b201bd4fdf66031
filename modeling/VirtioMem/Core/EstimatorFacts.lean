import VirtioMem.Core.Estimator
import VirtioMem.Lib.Window

/-!
# What an estimate can do

One lemma for each stage of the estimator, and from them the two facts the guest's correctness rests
on: `estimate_cases`, which says everything a call can leave behind, and `estimate_isOk`, which says
exactly when a sample is accepted.
-/

namespace VirtioMem.Core

open VirtioMem.Word VirtioMem.Text VirtioMem.Result VirtioMem.Window

/-! ## Alignment -/

theorem alignUp_eq_ok {value alignment aligned : Nat} (halign : 0 < alignment)
    (h : alignUp value alignment = .ok aligned) :
    value ≤ aligned ∧ aligned % alignment = 0 ∧ aligned < value + alignment := by
  unfold alignUp at h
  split at h
  · next hmod => cases h; exact ⟨le_refl _, hmod, by omega⟩
  · next hmod =>
      have hlt := Nat.mod_lt value halign
      obtain ⟨rfl, -⟩ := checkedAdd_eq_some.mp (okOr_eq_ok.mp h)
      refine ⟨by omega, ?_, by omega⟩
      have hdiv := Nat.div_add_mod value alignment
      have hnext : value + (alignment - value % alignment) =
          alignment * (value / alignment + 1) := by
        rw [Nat.mul_add, Nat.mul_one]; omega
      rw [hnext, Nat.mul_mod_right]

theorem alignUp_error {value alignment : Nat} {error : TargetEstimatorError}
    (h : alignUp value alignment = .error error) : error = .arithmeticOverflow := by
  unfold alignUp at h
  split at h
  · cases h
  · exact (okOr_eq_error.mp h).2.symm

/-- Rounding up stays below every aligned bound, and does not overflow below a representable one. -/
theorem alignUp_le {value alignment bound : Nat}
    (hbound : bound % alignment = 0) (hle : value ≤ bound) (hword : bound ≤ maximum) :
    ∃ aligned, alignUp value alignment = .ok aligned ∧ aligned ≤ bound := by
  unfold alignUp
  split
  · exact ⟨value, rfl, hle⟩
  · next hmod =>
      have hfit : value + (alignment - value % alignment) ≤ bound := by
        have hv := Nat.div_add_mod value alignment
        have hb := Nat.div_add_mod bound alignment
        have hlt : value / alignment < bound / alignment := by
          by_contra hge
          have hmul := Nat.mul_le_mul_left alignment (not_lt.mp hge)
          omega
        have hmul := Nat.mul_le_mul_left alignment hlt
        rw [Nat.mul_succ] at hmul
        omega
      have hsum : checkedAdd value (alignment - value % alignment) =
          some (value + (alignment - value % alignment)) :=
        checkedAdd_eq_some.mpr ⟨rfl, by omega⟩
      exact ⟨_, okOr_eq_ok.mpr hsum, hfit⟩

theorem maximumTargetBytes_le (size block : Nat) : maximumTargetBytes size block ≤ size :=
  Nat.sub_le _ _

theorem maximumTargetBytes_dvd {size block : Nat} (hblock : block ≠ 0) :
    block ∣ maximumTargetBytes size block := by
  unfold maximumTargetBytes
  rw [max_eq_left (by omega)]
  exact Nat.dvd_sub_mod size

theorem maximumTargetBytes_mod {size block : Nat} (hblock : block ≠ 0) :
    maximumTargetBytes size block % block = 0 :=
  Nat.mod_eq_zero_of_dvd (maximumTargetBytes_dvd hblock)

/-! ## The size needed now -/

theorem TargetPolicyConfig.floors_le {config : TargetPolicyConfig} (h : config.validate = .ok ()) :
    config.safeFloorPhysicalReserveBytes ≤ config.physicalReserveBytes ∧
      config.safeFloorCommitReserveBytes ≤ config.commitReserveBytes := by
  unfold validate at h
  split_ifs at h with hzero hfloor
  simp only [not_or, not_lt] at hfloor
  exact hfloor

/-- The device and the policy fit each other. -/
structure TargetGeometry.Fits (config : TargetPolicyConfig) (geometry : TargetGeometry) : Prop where
  policy : config.validate = .ok ()
  size_pos : geometry.deviceSizeBytes ≠ 0
  block_pos : geometry.blockSizeBytes ≠ 0
  block_pow : isPowerOfTwo geometry.blockSizeBytes = true
  current_mod : geometry.currentBytes % geometry.blockSizeBytes = 0
  current_le : geometry.currentBytes ≤
    maximumTargetBytes geometry.deviceSizeBytes geometry.blockSizeBytes
  minimum_mod : config.configuredMinimumBytes % geometry.blockSizeBytes = 0
  minimum_le : config.configuredMinimumBytes ≤
    maximumTargetBytes geometry.deviceSizeBytes geometry.blockSizeBytes
  reserves : ∀ value ∈ [config.physicalReserveBytes, config.commitReserveBytes,
    config.safeFloorPhysicalReserveBytes, config.safeFloorCommitReserveBytes,
    config.downwardHysteresisBytes], value % geometry.blockSizeBytes = 0

theorem calculateEffectiveMaximum_eq_ok {config : TargetPolicyConfig} {geometry : TargetGeometry}
    {effectiveMaximum : Nat} :
    calculateEffectiveMaximum config geometry = .ok effectiveMaximum ↔
      geometry.Fits config ∧
        effectiveMaximum = maximumTargetBytes geometry.deviceSizeBytes geometry.blockSizeBytes := by
  unfold calculateEffectiveMaximum
  cases hpolicy : config.validate with
  | error error =>
      simp only [reduceCtorEq, false_iff, not_and]
      intro h
      simp [h.policy] at hpolicy
  | ok _ =>
      dsimp only
      split_ifs with hsize hblock hcurrent hminimum hreserves
      · simp only [false_iff, not_and]
        exact fun h => absurd hsize h.size_pos
      · simp only [false_iff, not_and]
        intro h
        exact absurd hblock (by simp [h.block_pos, h.block_pow])
      · simp only [false_iff, not_and]
        exact fun h => absurd h.current_mod hcurrent
      · simp only [false_iff, not_and]
        intro h
        have h1 := h.minimum_le
        have h2 := h.minimum_mod
        have h3 := h.current_le
        omega
      · simp only [false_iff, not_and]
        intro h
        exact absurd hreserves (by simpa using h.reserves)
      · simp only [not_or, not_lt, not_not] at hminimum
        simp only [not_or, Bool.not_eq_true', Bool.not_eq_false] at hblock
        simp only [not_not] at hcurrent
        constructor
        · intro h
          cases h
          exact ⟨⟨hpolicy, hsize, hblock.1, hblock.2, hcurrent, hminimum.2.2, hminimum.2.1,
            hminimum.1, by simpa using hreserves⟩, rfl⟩
        · rintro ⟨-, rfl⟩
          rfl

/-- On valid counters only the two reserves can make `candidate` overflow. -/
theorem candidate_isOk {memory : MemoryTelemetrySnapshot} (hmemory : memory.Valid)
    {current base physicalReserve commitReserve : Nat} :
    (∃ value, candidate memory current base physicalReserve commitReserve = .ok value) ↔
      memory.physicalTotalBytes - memory.physicalAvailableBytes + physicalReserve ≤ maximum ∧
        current + commitReserve ≤ maximum := by
  have hused : checkedSub memory.physicalTotalBytes memory.physicalAvailableBytes =
      some (memory.physicalTotalBytes - memory.physicalAvailableBytes) :=
    if_pos hmemory.available_le
  have hroom : checkedSub memory.commitLimitBytes memory.commitTotalBytes =
      some (memory.commitLimitBytes - memory.commitTotalBytes) :=
    if_pos hmemory.commit_le
  simp only [candidate, hused, hroom, bind_eq_ok, okOr_eq_ok, checkedAdd_eq_some, Option.some.injEq,
    exists_eq_left', pure, Except.pure, Except.ok.injEq]
  constructor
  · rintro ⟨value, _, ⟨-, hphysical⟩, _, ⟨-, hcommit⟩, -⟩
    exact ⟨hphysical, hcommit⟩
  · rintro ⟨hphysical, hcommit⟩
    exact ⟨_, _, ⟨rfl, hphysical⟩, _, ⟨rfl, hcommit⟩, rfl⟩

/-- Everything the counters and the policy must satisfy for a size to come out. -/
structure MemoryTelemetrySnapshot.Measures (memory : MemoryTelemetrySnapshot)
    (config : TargetPolicyConfig) (geometry : TargetGeometry) : Prop where
  fits : geometry.Fits config
  counters : memory.Valid
  base : geometry.currentBytes ≤ memory.physicalTotalBytes
  physical : memory.physicalTotalBytes - memory.physicalAvailableBytes +
    config.physicalReserveBytes ≤ maximum
  commit : geometry.currentBytes + config.commitReserveBytes ≤ maximum

/-- What a computed size satisfies. -/
structure InstantaneousTarget.Sound (needs : InstantaneousTarget) (config : TargetPolicyConfig)
    (memory : MemoryTelemetrySnapshot) (geometry : TargetGeometry) : Prop where
  fits : geometry.Fits config
  counters : memory.Valid
  base : geometry.currentBytes ≤ memory.physicalTotalBytes
  effectiveMaximum : needs.effectiveMaximumBytes =
    maximumTargetBytes geometry.deviceSizeBytes geometry.blockSizeBytes
  desired_le : needs.desiredNowBytes ≤ needs.effectiveMaximumBytes
  /-- It is rounded up to whole blocks, or it is the whole device. -/
  desired_dvd : geometry.blockSizeBytes ∣ needs.desiredNowBytes
  floor_le : needs.floorNowBytes ≤ needs.desiredNowBytes

theorem calculateInstantaneous_sound {config : TargetPolicyConfig}
    {memory : MemoryTelemetrySnapshot} {geometry : TargetGeometry} {needs : InstantaneousTarget}
    (h : calculateInstantaneous config memory geometry = .ok needs) :
    needs.Sound config memory geometry := by
  unfold calculateInstantaneous at h
  obtain ⟨effectiveMaximum, heffective, h⟩ := bind_eq_ok.mp h
  obtain ⟨_, hmemory, h⟩ := bind_eq_ok.mp h
  obtain ⟨base, hbase, h⟩ := bind_eq_ok.mp h
  obtain ⟨desired, -, h⟩ := bind_eq_ok.mp h
  obtain ⟨floor, -, h⟩ := bind_eq_ok.mp h
  obtain ⟨desiredAligned, haligned, h⟩ := bind_eq_ok.mp h
  obtain ⟨floorAligned, -, h⟩ := bind_eq_ok.mp h
  cases h
  obtain ⟨hfits, rfl⟩ := calculateEffectiveMaximum_eq_ok.mp heffective
  have hvalid := MemoryTelemetrySnapshot.validate_eq_ok.mp (mapError_eq_ok.mp hmemory)
  have htotal := checkedSub_eq_some.mp (okOr_eq_ok.mp hbase)
  have hrounded := (alignUp_eq_ok (Nat.pos_of_ne_zero hfits.block_pos) haligned).2.1
  exact ⟨hfits, hvalid, by omega, rfl, min_le_right _ _,
    min_rec' (geometry.blockSizeBytes ∣ ·) (Nat.dvd_of_mod_eq_zero hrounded)
      (maximumTargetBytes_dvd hfits.block_pos), min_le_right _ _⟩

/-- A size comes out only when the observation measures up. -/
theorem calculateInstantaneous_measures {config : TargetPolicyConfig}
    {memory : MemoryTelemetrySnapshot} {geometry : TargetGeometry} {needs : InstantaneousTarget}
    (h : calculateInstantaneous config memory geometry = .ok needs) :
    memory.Measures config geometry := by
  unfold calculateInstantaneous at h
  obtain ⟨effectiveMaximum, heffective, h⟩ := bind_eq_ok.mp h
  obtain ⟨_, hmemory, h⟩ := bind_eq_ok.mp h
  obtain ⟨base, hbase, h⟩ := bind_eq_ok.mp h
  obtain ⟨desired, hdesired, -⟩ := bind_eq_ok.mp h
  have hvalid := MemoryTelemetrySnapshot.validate_eq_ok.mp (mapError_eq_ok.mp hmemory)
  have hroom := (candidate_isOk hvalid).mp ⟨desired, hdesired⟩
  have htotal := checkedSub_eq_some.mp (okOr_eq_ok.mp hbase)
  exact ⟨(calculateEffectiveMaximum_eq_ok.mp heffective).1, hvalid, by omega, hroom.1, hroom.2⟩

/-- **A size comes out exactly when the observation measures up.** -/
theorem calculateInstantaneous_isOk {config : TargetPolicyConfig}
    {memory : MemoryTelemetrySnapshot} {geometry : TargetGeometry}
    (hword : geometry.deviceSizeBytes ≤ maximum) :
    (∃ needs, calculateInstantaneous config memory geometry = .ok needs) ↔
      memory.Measures config geometry := by
  constructor
  · rintro ⟨needs, h⟩
    exact calculateInstantaneous_measures h
  · rintro ⟨hfits, hvalid, hbase, hphysical, hcommit⟩
    obtain ⟨hfloorPhysical, hfloorCommit⟩ := TargetPolicyConfig.floors_le hfits.policy
    obtain ⟨desired, hdesired⟩ := (@candidate_isOk memory hvalid geometry.currentBytes
      (memory.physicalTotalBytes - geometry.currentBytes) _ _).mpr ⟨hphysical, hcommit⟩
    obtain ⟨floor, hfloor⟩ := (@candidate_isOk memory hvalid geometry.currentBytes
      (memory.physicalTotalBytes - geometry.currentBytes) config.safeFloorPhysicalReserveBytes
      config.safeFloorCommitReserveBytes).mpr ⟨by omega, by omega⟩
    have haligned : ∀ raw, ∃ aligned, alignUp
        (min raw (maximumTargetBytes geometry.deviceSizeBytes geometry.blockSizeBytes))
        geometry.blockSizeBytes = .ok aligned := by
      intro raw
      obtain ⟨aligned, h, -⟩ := alignUp_le
        (maximumTargetBytes_mod hfits.block_pos)
        (min_le_right raw (maximumTargetBytes geometry.deviceSizeBytes geometry.blockSizeBytes))
        (le_trans (maximumTargetBytes_le _ _) hword)
      exact ⟨aligned, h⟩
    obtain ⟨desiredAligned, hdesiredAligned⟩ :=
      haligned (max desired config.configuredMinimumBytes)
    obtain ⟨floorAligned, hfloorAligned⟩ := haligned (max floor config.configuredMinimumBytes)
    unfold calculateInstantaneous
    refine bind_isOk.mpr ⟨_, calculateEffectiveMaximum_eq_ok.mpr ⟨hfits, rfl⟩, ?_⟩
    refine bind_isOk.mpr
      ⟨_, mapError_eq_ok.mpr (MemoryTelemetrySnapshot.validate_eq_ok.mpr hvalid), ?_⟩
    refine bind_isOk.mpr ⟨memory.physicalTotalBytes - geometry.currentBytes,
      okOr_eq_ok.mpr (checkedSub_eq_some.mpr (by omega)), ?_⟩
    refine bind_isOk.mpr ⟨desired, hdesired, ?_⟩
    refine bind_isOk.mpr ⟨floor, hfloor, ?_⟩
    refine bind_isOk.mpr ⟨desiredAligned, hdesiredAligned, ?_⟩
    exact bind_isOk.mpr ⟨floorAligned, hfloorAligned, _, rfl⟩

/-! ## The order of the samples -/

namespace TargetEstimator

/-- What an accepted sample leaves of the state, and what it says about the order. -/
structure Prepared (estimator : TargetEstimator) (sample : TargetSample)
    (state : TargetEstimatorState) : Prop where
  session : isBlank sample.sessionId = false
  advances : sample.sessionId = estimator.state.sessionId →
    estimator.state.lastSequence < sample.sequence ∧
      estimator.state.lastMonotonicMillis < sample.monotonicMillis
  kept : state = estimator.state ∨ state = { estimator.state with history := [] }
  continuous : state.history ≠ [] → estimator.state.sessionId ≠ "" →
    sample.sessionId = estimator.state.sessionId ∧
      sample.monotonicMillis - estimator.state.lastMonotonicMillis ≤ estimator.config.maximumGapMillis

theorem not_blank_ne_empty {session : String} (h : isBlank session = false) : session ≠ "" := by
  rintro rfl
  simp [isBlank] at h

theorem prepareSample_ok {self : TargetEstimator} {sample : TargetSample}
    {state : TargetEstimatorState} (h : self.prepareSample sample = (.ok (), state)) :
    self.Prepared sample state := by
  unfold prepareSample at h
  split_ifs at h with hblank hfresh hsession horder hgap <;> cases h
  · have hblank : isBlank sample.sessionId = false := by simpa using hblank
    refine ⟨hblank, ?_, .inl rfl, fun _ hne => absurd hfresh hne⟩
    intro heq
    exact absurd (heq.trans hfresh) (not_blank_ne_empty hblank)
  · exact ⟨by simpa using hblank, fun heq => absurd heq hsession, .inr rfl,
      fun hne => absurd rfl hne⟩
  · simp only [not_or, not_le] at horder
    exact ⟨by simpa using hblank, fun _ => horder, .inr rfl, fun hne => absurd rfl hne⟩
  · simp only [not_or, not_le] at horder
    exact ⟨by simpa using hblank, fun _ => horder, .inl rfl,
      fun _ _ => ⟨not_not.mp hsession, not_lt.mp hgap⟩⟩

theorem prepareSample_error {self : TargetEstimator} {sample : TargetSample}
    {error : TargetEstimatorError} {state : TargetEstimatorState}
    (h : self.prepareSample sample = (.error error, state)) : state = self.state := by
  unfold prepareSample at h
  split_ifs at h <;> cases h <;> rfl

theorem prepareSample_isOk {self : TargetEstimator} {sample : TargetSample} :
    (∃ state, self.prepareSample sample = (.ok (), state)) ↔
      isBlank sample.sessionId = false ∧
        (sample.sessionId = self.state.sessionId →
          self.state.lastSequence < sample.sequence ∧
            self.state.lastMonotonicMillis < sample.monotonicMillis) := by
  constructor
  · rintro ⟨state, h⟩
    have hprepared := prepareSample_ok h
    exact ⟨hprepared.session, hprepared.advances⟩
  · rintro ⟨hblank, hadvances⟩
    unfold prepareSample
    rw [if_neg (by simp [hblank])]
    split_ifs with hfresh hsession horder hgap
    · exact ⟨_, rfl⟩
    · exact ⟨_, rfl⟩
    · have hadv := hadvances (not_not.mp hsession)
      omega
    · exact ⟨_, rfl⟩
    · exact ⟨_, rfl⟩

end TargetEstimator

/-! ## The history -/

/-- A bucket stands for the candidates merged into it. -/
def historyScheme : Scheme CandidateHistoryEntry CandidateHistoryEntry where
  time := (·.monotonicMillis)
  opened := (·.monotonicMillis)
  bounds bucket candidate := candidate.desiredNowBytes ≤ bucket.desiredNowBytes ∧
    candidate.floorNowBytes ≤ bucket.floorNowBytes

theorem recordCandidate_covers {history candidates : List CandidateHistoryEntry} (bucket : Nat)
    (entry : CandidateHistoryEntry) (h : Covers historyScheme history candidates) :
    Covers historyScheme (recordCandidate history bucket entry) (candidates ++ [entry]) := by
  unfold recordCandidate
  have hpush := @Covers.push _ _ historyScheme _ _ entry entry h rfl ⟨le_refl _, le_refl _⟩
  split
  · exact hpush
  next last hlast =>
  split_ifs
  · have hsplit : history = history.dropLast ++ [last] := by
      rw [List.getLast?_eq_some_iff] at hlast
      obtain ⟨front, rfl⟩ := hlast
      simp
    rw [hsplit] at h
    refine h.merge rfl ?_ ⟨le_max_right _ _, le_max_right _ _⟩
    exact fun _ hbounds => ⟨le_max_of_le_left hbounds.1, le_max_of_le_left hbounds.2⟩
  · exact hpush

/-- What holds of the recorded needs and of the new one holds of the buckets that come out. -/
theorem recordCandidate_forall (P : Nat → Prop) {history : List CandidateHistoryEntry} {bucket : Nat}
    {entry : CandidateHistoryEntry} (h : ∀ old ∈ history, P old.desiredNowBytes)
    (hentry : P entry.desiredNowBytes) :
    ∀ new ∈ recordCandidate history bucket entry, P new.desiredNowBytes := by
  have hpush : ∀ new ∈ history ++ [entry], P new.desiredNowBytes := by
    intro new hnew
    rcases List.mem_append.mp hnew with hnew | hnew
    · exact h new hnew
    · rw [List.mem_singleton.mp hnew]; exact hentry
  unfold recordCandidate
  split
  · exact hpush
  next last hlast =>
  split_ifs
  · intro new hnew
    rcases List.mem_append.mp hnew with hnew | hnew
    · exact h new ((List.dropLast_sublist _).mem hnew)
    · rw [List.mem_singleton.mp hnew]
      exact max_rec' P (h last (List.mem_of_getLast? hlast)) hentry
  · exact hpush

/-- The last bucket bounds the new needs. -/
theorem recordCandidate_last (history : List CandidateHistoryEntry) (bucket : Nat)
    (entry : CandidateHistoryEntry) : ∃ front last,
      recordCandidate history bucket entry = front ++ [last] ∧
        entry.desiredNowBytes ≤ last.desiredNowBytes ∧ entry.floorNowBytes ≤ last.floorNowBytes := by
  unfold recordCandidate
  split
  · exact ⟨_, _, rfl, le_refl _, le_refl _⟩
  · split_ifs
    · exact ⟨_, _, rfl, le_max_right _ _, le_max_right _ _⟩
    · exact ⟨_, _, rfl, le_refl _, le_refl _⟩

theorem capHistory_suffix (history : List CandidateHistoryEntry) : capHistory history <:+ history := by
  unfold capHistory
  split_ifs
  · exact List.tail_suffix history
  · exact List.suffix_refl history

theorem pruneHistory_suffix (now window : Nat) :
    ∀ history : List CandidateHistoryEntry, pruneHistory now window history <:+ history
  | [] => by simp [pruneHistory]
  | [first] => by simp [pruneHistory]
  | first :: second :: rest => by
      unfold pruneHistory
      split_ifs
      · exact (pruneHistory_suffix now window (second :: rest)).trans (List.suffix_cons _ _)
      · exact List.suffix_refl _

/-- A window is ready when the oldest bucket was opened by the time it begins. -/
theorem historyIsReady_iff {history : List CandidateHistoryEntry} {now window : Nat} :
    historyIsReady history now window = true ↔
      ∃ oldest rest, history = oldest :: rest ∧ window ≤ now - oldest.monotonicMillis := by
  unfold historyIsReady
  cases history with
  | nil => simp
  | cons oldest rest => simp

/-! ## The stages of an accepted sample -/

/-- The desired size falls to the largest need of the window. -/
structure TargetEstimatorState.Falls (state : TargetEstimatorState) (desired : Nat) : Prop where
  le : desired ≤ state.desiredBytes
  largest : ∃ bucket ∈ state.history, bucket.desiredNowBytes = desired
  bounds : ∀ bucket ∈ state.history, bucket.desiredNowBytes ≤ desired

namespace TargetEstimator

variable {self : TargetEstimator} {state : TargetEstimatorState} {sample : TargetSample}
  {geometry : TargetGeometry} {needs : InstantaneousTarget}

theorem within_desired {minimum maximum : Nat} (h : minimum ≤ maximum) :
    minimum ≤ (needs.within minimum maximum).desiredNowBytes ∧
      (needs.within minimum maximum).desiredNowBytes ≤ maximum :=
  ⟨le_max_left _ _, max_le h (min_le_right _ _)⟩

/-- A new base throws the history away; the known one keeps it. -/
theorem rebase_history (state : TargetEstimatorState) (base : Nat) :
    (rebase state base).history = [] ∨
      (rebase state base).history = state.history ∧
        ∀ last, state.lastVisibleBaseBytes = some last → last = base := by
  unfold rebase
  by_cases h : state.lastVisibleBaseBytes.any (· ≠ base) = true
  · left
    rw [if_pos h]
    rfl
  · right
    rw [if_neg h]
    refine ⟨rfl, fun last hlast => ?_⟩
    simpa [hlast] using h

@[simp] theorem rebase_desired (state : TargetEstimatorState) (base : Nat) :
    (rebase state base).desiredBytes = state.desiredBytes := by
  unfold rebase
  split_ifs <;> rfl

@[simp] theorem rebase_session (state : TargetEstimatorState) (base : Nat) :
    (rebase state base).sessionId = state.sessionId := by
  unfold rebase
  split_ifs <;> rfl

@[simp] theorem rebase_base (state : TargetEstimatorState) (base : Nat) :
    (rebase state base).lastVisibleBaseBytes = some base := rfl

@[simp] theorem raise_history (state : TargetEstimatorState) (current : Nat)
    (needs : InstantaneousTarget) : (raise state current needs).history = state.history := by
  unfold raise
  split_ifs <;> rfl

@[simp] theorem raise_base (state : TargetEstimatorState) (current : Nat)
    (needs : InstantaneousTarget) :
    (raise state current needs).lastVisibleBaseBytes = state.lastVisibleBaseBytes := by
  unfold raise
  split_ifs <;> rfl

@[simp] theorem raise_session (state : TargetEstimatorState) (current : Nat)
    (needs : InstantaneousTarget) : (raise state current needs).sessionId = state.sessionId := by
  unfold raise
  split_ifs <;> rfl

theorem needs_le_raise (state : TargetEstimatorState) (current : Nat)
    (h : needs.desiredNowBytes ≤ needs.effectiveMaximumBytes) :
    needs.desiredNowBytes ≤ (raise state current needs).desiredBytes :=
  le_min (le_max_right _ _) h

/-- Raising keeps every bound on the desired size that the device can still hold. -/
theorem le_raise {bound : Nat} (current : Nat) (hsession : state.sessionId ≠ "")
    (hbound : bound ≤ state.desiredBytes) (hmax : bound ≤ needs.effectiveMaximumBytes) :
    bound ≤ (raise state current needs).desiredBytes := by
  unfold raise
  rw [if_neg hsession]
  exact le_min (le_max_of_le_left hbound) hmax

theorem collect_other (h : sample.nativePressure ≠ some .high) :
    (self.collect state sample needs).history = [] := by
  unfold collect
  rw [if_pos h]
  rfl

@[simp] theorem collect_desired :
    (self.collect state sample needs).desiredBytes = state.desiredBytes := by
  unfold collect
  split_ifs <;> rfl

@[simp] theorem collect_base :
    (self.collect state sample needs).lastVisibleBaseBytes = state.lastVisibleBaseBytes := by
  unfold collect
  split_ifs <;> rfl

@[simp] theorem collect_session :
    (self.collect state sample needs).sessionId = state.sessionId := by
  unfold collect
  split_ifs <;> rfl

/-- What a sample contributes to the history. -/
def candidateOf (sample : TargetSample) (desiredNow floorNow : Nat) : CandidateHistoryEntry where
  monotonicMillis := sample.monotonicMillis
  desiredNowBytes := desiredNow
  floorNowBytes := floorNow

theorem collect_high (h : sample.nativePressure = some .high) :
    (self.collect state sample needs).history =
      pruneHistory sample.monotonicMillis self.config.historyWindowMillis
        (capHistory (recordCandidate state.history self.config.bucketMillis
          (candidateOf sample needs.desiredNowBytes needs.floorNowBytes))) := by
  unfold collect
  rw [if_neg (not_not.mpr h)]
  rfl

theorem collect_suffix (h : sample.nativePressure = some .high) :
    (self.collect state sample needs).history <:+
      recordCandidate state.history self.config.bucketMillis
        (candidateOf sample needs.desiredNowBytes needs.floorNowBytes) := by
  rw [collect_high h]
  exact (pruneHistory_suffix _ _ _).trans (capHistory_suffix _)

/-- **Collecting loses only the front.** The buckets stand for the candidates up to and including
this sample's, without some of the oldest. -/
theorem collect_covers {candidates : List CandidateHistoryEntry}
    (h : sample.nativePressure = some .high) (hcovers : Covers historyScheme state.history candidates) :
    ∃ dropped recent,
      candidates ++ [candidateOf sample needs.desiredNowBytes needs.floorNowBytes] =
        dropped ++ recent ∧
      Covers historyScheme (self.collect state sample needs).history recent :=
  (recordCandidate_covers _ _ hcovers).drop (collect_suffix h)

theorem collect_forall (P : Nat → Prop) (h : ∀ old ∈ state.history, P old.desiredNowBytes)
    (hneeds : P needs.desiredNowBytes) :
    ∀ new ∈ (self.collect state sample needs).history, P new.desiredNowBytes := by
  by_cases hhigh : sample.nativePressure = some .high
  · intro new hnew
    exact recordCandidate_forall P h hneeds new ((collect_suffix hhigh).subset hnew)
  · simp [collect_other hhigh]

/-- A history that is not empty after a sample bounds what that sample needs. -/
theorem le_collect (hhistory : (self.collect state sample needs).history ≠ []) :
    ∃ bucket ∈ (self.collect state sample needs).history,
      needs.desiredNowBytes ≤ bucket.desiredNowBytes := by
  have hhigh : sample.nativePressure = some .high := by
    by_contra hother
    exact hhistory (collect_other hother)
  obtain ⟨front, last, hlast, hle, -⟩ := recordCandidate_last state.history self.config.bucketMillis
    (candidateOf sample needs.desiredNowBytes needs.floorNowBytes)
  have hsuffix := @collect_suffix self state sample needs hhigh
  rw [hlast, List.suffix_concat_iff] at hsuffix
  rcases hsuffix with hnil | ⟨kept, hkept, -⟩
  · exact absurd hnil hhistory
  · exact ⟨last, by rw [hkept]; simp, hle⟩

/-! ## Everything an estimate can leave behind -/

theorem windowMaximum_eq_ok {values : List Nat} {value : Nat} :
    windowMaximum values = .ok value ↔ value ∈ values ∧ ∀ other ∈ values, other ≤ value := by
  unfold windowMaximum
  rw [okOr_eq_ok, List.max?_eq_some_iff]

/-- What a window of these buckets comes to, its largest need and its largest floor. -/
structure Reads (history : List CandidateHistoryEntry) (desired floor : Nat) : Prop where
  desired : desired ∈ history.map (·.desiredNowBytes) ∧
    ∀ other ∈ history.map (·.desiredNowBytes), other ≤ desired
  floor : floor ∈ history.map (·.floorNowBytes) ∧
    ∀ other ∈ history.map (·.floorNowBytes), other ≤ floor

/-- **Qualifying.** A window that is not ready leaves the desired size alone; one that is lets it fall to
its largest need, if that is a hysteresis below. -/
theorem qualify_spec {ready : Bool} {current : Nat} {qualified : TargetEstimatorState}
    (h : self.qualify state ready current = .ok qualified) :
    (ready = false ∧
      qualified = { state with safeFloorBytes := min current state.desiredBytes }) ∨
    (ready = true ∧ ∃ windowDesired windowFloor desired,
      Reads state.history windowDesired windowFloor ∧
      (windowDesired + self.config.downwardHysteresisBytes ≤ state.desiredBytes ∧
          desired = windowDesired ∨
        state.desiredBytes < windowDesired + self.config.downwardHysteresisBytes ∧
          desired = state.desiredBytes) ∧
      qualified = { state with
        desiredBytes := desired
        safeFloorBytes := min windowFloor desired }) := by
  unfold qualify at h
  split_ifs at h with hready
  · obtain ⟨windowDesired, hdesired, h⟩ := bind_eq_ok.mp h
    obtain ⟨threshold, hthreshold, h⟩ := bind_eq_ok.mp h
    obtain ⟨windowFloor, hfloor, h⟩ := bind_eq_ok.mp h
    obtain ⟨rfl, -⟩ := checkedAdd_eq_some.mp (okOr_eq_ok.mp hthreshold)
    cases h
    refine .inr ⟨hready, windowDesired, windowFloor, _,
      ⟨windowMaximum_eq_ok.mp hdesired, windowMaximum_eq_ok.mp hfloor⟩, ?_, rfl⟩
    split_ifs with hfalls
    · exact .inl ⟨hfalls, rfl⟩
    · exact .inr ⟨not_le.mp hfalls, rfl⟩
  · cases h
    exact .inl ⟨by simpa using hready, rfl⟩

/-- The desired size that comes out is the one that went in or the window's largest need. -/
theorem qualify_eq_ok {ready : Bool} {current : Nat} {qualified : TargetEstimatorState}
    (h : self.qualify state ready current = .ok qualified) :
    ∃ desired floor, qualified = { state with desiredBytes := desired, safeFloorBytes := floor } ∧
      floor ≤ desired ∧
      (desired = state.desiredBytes ∨ state.Falls desired) := by
  rcases qualify_spec h with ⟨-, rfl⟩ | ⟨-, windowDesired, windowFloor, desired, hreads, hfalls, rfl⟩
  · exact ⟨_, _, rfl, min_le_right _ _, .inl rfl⟩
  · refine ⟨_, _, rfl, min_le_right _ _, ?_⟩
    rcases hfalls with ⟨hle, rfl⟩ | ⟨-, rfl⟩
    · obtain ⟨hmem, hmax⟩ := hreads.desired
      exact .inr ⟨by omega, List.mem_map.mp hmem,
        fun bucket hbucket => hmax _ (List.mem_map_of_mem hbucket)⟩
    · exact .inl rfl

/-- Only an overflow stops a sample whose history is qualified. -/
theorem qualify_error {ready : Bool} {current : Nat} {error : TargetEstimatorError}
    (hready : ready = true → state.history ≠ [])
    (h : self.qualify state ready current = .error error) : error = .arithmeticOverflow := by
  unfold qualify at h
  split_ifs at h with hr
  have hmax : ∀ f : CandidateHistoryEntry → Nat, ∃ value,
      windowMaximum (state.history.map f) = .ok value := by
    intro f
    obtain ⟨value, hvalue⟩ := Option.isSome_iff_exists.mp
      (List.isSome_max?_of_ne_nil (l := state.history.map f) (by simpa using hready hr))
    exact ⟨value, okOr_eq_ok.mpr hvalue⟩
  obtain ⟨windowDesired, hdesired⟩ := hmax (·.desiredNowBytes)
  obtain ⟨windowFloor, hfloor⟩ := hmax (·.floorNowBytes)
  rcases bind_eq_error.mp h with h | ⟨_, -, h⟩
  · rw [hdesired] at h; cases h
  rcases bind_eq_error.mp h with h | ⟨_, -, h⟩
  · exact (okOr_eq_error.mp h).2.symm
  rcases bind_eq_error.mp h with h | ⟨_, -, h⟩
  · rw [hfloor] at h; cases h
  · cases h

/-- The state a sample is folded into, before the window is read. -/
def folded (self : TargetEstimator) (state : TargetEstimatorState) (sample : TargetSample)
    (geometry : TargetGeometry) (needs : InstantaneousTarget) : TargetEstimatorState :=
  self.collect (raise (rebase state (visibleBase sample geometry)) geometry.currentBytes needs)
    sample needs

@[simp] theorem folded_desired : (self.folded state sample geometry needs).desiredBytes =
    (raise (rebase state (visibleBase sample geometry)) geometry.currentBytes needs).desiredBytes :=
  collect_desired

@[simp] theorem folded_base : (self.folded state sample geometry needs).lastVisibleBaseBytes =
    some (visibleBase sample geometry) := by
  unfold folded
  rw [collect_base, raise_base, rebase_base]

/-- Concluding reads the folded history and reports what it came to. -/
theorem conclude_qualify {estimate : TargetEstimate} {after : TargetEstimator}
    (h : self.conclude state sample geometry needs = (.ok estimate, after)) :
    ∃ qualified,
      self.qualify (self.folded state sample geometry needs)
        (historyIsReady (self.folded state sample geometry needs).history sample.monotonicMillis
          self.config.historyWindowMillis) geometry.currentBytes = .ok qualified ∧
      estimate = {
        desiredBytes := qualified.desiredBytes
        safeFloorBytes := qualified.safeFloorBytes
        desiredNowBytes := needs.desiredNowBytes
        floorNowBytes := needs.floorNowBytes
        effectiveMaximumBytes := needs.effectiveMaximumBytes
        historyReady := historyIsReady (self.folded state sample geometry needs).history
          sample.monotonicMillis self.config.historyWindowMillis
        capacityLimited := needs.capacityLimited } ∧
      after = { self with
        state := { qualified with
          sessionId := sample.sessionId
          lastMonotonicMillis := sample.monotonicMillis
          lastSequence := sample.sequence } } := by
  unfold conclude at h
  dsimp only at h
  split at h
  · cases h
  · next qualified hqualified =>
      cases h
      exact ⟨qualified, hqualified, rfl, rfl⟩

@[simp] theorem folded_session :
    (self.folded state sample geometry needs).sessionId = state.sessionId := by
  unfold folded
  rw [collect_session, raise_session, rebase_session]

theorem conclude_eq_ok {estimate : TargetEstimate} {after : TargetEstimator}
    (h : self.conclude state sample geometry needs = (.ok estimate, after)) :
    ∃ desired floor,
      floor ≤ desired ∧
      (desired = (self.folded state sample geometry needs).desiredBytes ∨
        (self.folded state sample geometry needs).Falls desired) ∧
      estimate = {
        desiredBytes := desired
        safeFloorBytes := floor
        desiredNowBytes := needs.desiredNowBytes
        floorNowBytes := needs.floorNowBytes
        effectiveMaximumBytes := needs.effectiveMaximumBytes
        historyReady := historyIsReady (self.folded state sample geometry needs).history
          sample.monotonicMillis self.config.historyWindowMillis
        capacityLimited := needs.capacityLimited } ∧
      after = { self with
        state := { self.folded state sample geometry needs with
          desiredBytes := desired
          safeFloorBytes := floor
          sessionId := sample.sessionId
          lastMonotonicMillis := sample.monotonicMillis
          lastSequence := sample.sequence } } := by
  obtain ⟨qualified, hqualified, rfl, rfl⟩ := conclude_qualify h
  obtain ⟨desired, floor, rfl, hfloor, hdesired⟩ := qualify_eq_ok hqualified
  exact ⟨desired, floor, hfloor, hdesired, rfl, rfl⟩

theorem conclude_error {error : TargetEstimatorError} {after : TargetEstimator}
    (h : self.conclude state sample geometry needs = (.error error, after)) :
    error = .arithmeticOverflow := by
  unfold conclude at h
  dsimp only at h
  split at h
  · next error' herror =>
      cases h
      refine qualify_error ?_ herror
      intro hready
      obtain ⟨oldest, rest, hhistory, -⟩ := historyIsReady_iff.mp hready
      simp [hhistory]
  · cases h

/-- What an accepted sample went through. -/
structure Accepted (estimator : TargetEstimator) (sample : TargetSample)
    (geometry : TargetGeometry) (raw : InstantaneousTarget) (prepared : TargetEstimatorState)
    (minimum : Nat) : Prop where
  sound : raw.Sound estimator.config sample.memory geometry
  order : estimator.Prepared sample prepared
  aligned : alignUp (estimator.minRam - visibleBase sample geometry) geometry.blockSizeBytes =
    .ok minimum
  minimum_le : minimum ≤ estimator.deviceMaximum (visibleBase sample geometry)
    geometry.blockSizeBytes raw.effectiveMaximumBytes
  base_le : visibleBase sample geometry ≤ estimator.maxRam

/-- The needs of an accepted sample inside the RAM limits. -/
def limited (self : TargetEstimator) (sample : TargetSample) (geometry : TargetGeometry)
    (raw : InstantaneousTarget) (minimum : Nat) : InstantaneousTarget :=
  raw.within minimum (self.deviceMaximum (visibleBase sample geometry) geometry.blockSizeBytes
    raw.effectiveMaximumBytes)

/-- What a sample that is not accepted may cost: the evidence, and nothing else. -/
def Sheds (before after : TargetEstimatorState) : Prop :=
  after.desiredBytes = before.desiredBytes ∧
    (after.history = [] ∨ after.history = before.history)

/-- **How an estimate goes.** It fails and throws the evidence away, it fails on an overflow, or it
concludes an accepted sample. -/
theorem estimate_stages {answer : Except TargetEstimatorError TargetEstimate}
    {after : TargetEstimator} (h : self.estimate sample geometry = (answer, after)) :
    (∃ error, answer = .error error ∧ Sheds self.state after.state ∧
      (error ≠ .arithmeticOverflow → after = self.invalidateHistory)) ∨
    ∃ raw prepared minimum, calculateInstantaneous self.config sample.memory geometry = .ok raw ∧
      self.prepareSample sample = (.ok (), prepared) ∧
      self.Accepted sample geometry raw prepared minimum ∧
      self.conclude prepared sample geometry (self.limited sample geometry raw minimum) =
        (answer, after) := by
  unfold estimate at h
  split at h
  · cases h; exact .inl ⟨_, rfl, ⟨rfl, .inl rfl⟩, fun _ => rfl⟩
  next raw hraw =>
  split at h
  · next error state herror =>
      cases h
      obtain rfl := prepareSample_error herror
      exact .inl ⟨_, rfl, ⟨rfl, .inl rfl⟩, fun _ => rfl⟩
  next state hstate =>
  have hprepared := prepareSample_ok hstate
  dsimp only at h
  split at h
  · next error herror =>
      cases h
      refine .inl ⟨_, rfl, ?_, fun hne => absurd (alignUp_error herror) hne⟩
      rcases hprepared.kept with rfl | rfl
      · exact ⟨rfl, .inr rfl⟩
      · exact ⟨rfl, .inl rfl⟩
  next minimum hminimum =>
  split_ifs at h with hlimits
  · cases h
    refine .inl ⟨_, rfl, ?_⟩
    rcases hprepared.kept with rfl | rfl <;> exact ⟨⟨rfl, .inl rfl⟩, fun _ => rfl⟩
  · simp only [not_or, not_lt] at hlimits
    exact .inr ⟨raw, state, minimum, hraw, hstate,
      ⟨calculateInstantaneous_sound hraw, hprepared, hminimum, hlimits.1, hlimits.2⟩, h⟩

/-- **Everything an estimate can do.** It fails and throws the evidence away, it fails on an overflow,
or it concludes an accepted sample. -/
theorem estimate_cases {answer : Except TargetEstimatorError TargetEstimate}
    {after : TargetEstimator} (h : self.estimate sample geometry = (answer, after)) :
    (∃ error, answer = .error error ∧ Sheds self.state after.state ∧
      (error ≠ .arithmeticOverflow → after = self.invalidateHistory)) ∨
    ∃ raw prepared minimum, self.Accepted sample geometry raw prepared minimum ∧
      self.conclude prepared sample geometry (self.limited sample geometry raw minimum) =
        (answer, after) := by
  rcases estimate_stages h with hfails | ⟨raw, prepared, minimum, -, -, haccepted⟩
  · exact .inl hfails
  · exact .inr ⟨raw, prepared, minimum, haccepted⟩

/-- An estimate changes nothing but the state. -/
theorem estimate_rest {answer : Except TargetEstimatorError TargetEstimate}
    {after : TargetEstimator} (h : self.estimate sample geometry = (answer, after)) :
    ∃ state, after = { self with state } := by
  unfold estimate at h
  split at h
  · cases h; exact ⟨_, rfl⟩
  split at h
  · cases h; exact ⟨_, rfl⟩
  dsimp only at h
  split at h
  · cases h; exact ⟨_, rfl⟩
  split_ifs at h
  · cases h; exact ⟨_, rfl⟩
  · unfold conclude at h
    dsimp only at h
    split at h <;> cases h <;> exact ⟨_, rfl⟩

/-- A failed estimate leaves no evidence, unless it overflowed. -/
theorem estimate_error {error : TargetEstimatorError} {after : TargetEstimator}
    (h : self.estimate sample geometry = (.error error, after))
    (hoverflow : error ≠ .arithmeticOverflow) : after = self.invalidateHistory := by
  rcases estimate_cases h with ⟨error', herror, -, hafter⟩ | ⟨raw, state, minimum, -, hconclude⟩
  · cases herror
    exact hafter hoverflow
  · exact absurd (conclude_error hconclude) hoverflow

theorem estimate_eq_ok {estimate : TargetEstimate} {after : TargetEstimator}
    (h : self.estimate sample geometry = (.ok estimate, after)) :
    ∃ raw prepared minimum, self.Accepted sample geometry raw prepared minimum ∧
      self.conclude prepared sample geometry (self.limited sample geometry raw minimum) =
        (.ok estimate, after) := by
  rcases estimate_cases h with ⟨_, herror, _⟩ | haccepted
  · cases herror
  · exact haccepted

/-! ## Which observations are accepted -/

/-- The window a sample completes, oldest bucket first; empty when it completes none. -/
def completedWindow (self : TargetEstimator) (sample : TargetSample) (geometry : TargetGeometry) :
    List CandidateHistoryEntry :=
  match calculateInstantaneous self.config sample.memory geometry, self.prepareSample sample,
    alignUp (self.minRam - visibleBase sample geometry) geometry.blockSizeBytes with
  | .ok raw, (.ok (), state), .ok minimum =>
    let history :=
      (self.folded state sample geometry (self.limited sample geometry raw minimum)).history
    if historyIsReady history sample.monotonicMillis self.config.historyWindowMillis then history
    else []
  | _, _, _ => []

/-- The estimator can use this observation: the counters and the geometry measure up to the policy,
the sample follows the last one, the RAM limits can be met above this base, and no need of the
completed window is within a hysteresis of the largest representable size. -/
structure Takes (estimator : TargetEstimator) (sample : TargetSample) (geometry : TargetGeometry) :
    Prop where
  measures : sample.memory.Measures estimator.config geometry
  session : isBlank sample.sessionId = false
  advances : sample.sessionId = estimator.state.sessionId →
    estimator.state.lastSequence < sample.sequence ∧
      estimator.state.lastMonotonicMillis < sample.monotonicMillis
  minimum_le : estimator.minRam - visibleBase sample geometry ≤
    estimator.deviceMaximum (visibleBase sample geometry) geometry.blockSizeBytes
      (maximumTargetBytes geometry.deviceSizeBytes geometry.blockSizeBytes)
  base_le : visibleBase sample geometry ≤ estimator.maxRam
  window : ∀ bucket ∈ estimator.completedWindow sample geometry,
    bucket.desiredNowBytes + estimator.config.downwardHysteresisBytes ≤ maximum

theorem deviceMaximum_mod {base size : Nat} (hblock : geometry.blockSizeBytes ≠ 0) :
    self.deviceMaximum base geometry.blockSizeBytes
      (maximumTargetBytes size geometry.blockSizeBytes) % geometry.blockSizeBytes = 0 := by
  unfold deviceMaximum
  rcases min_choice ((self.maxRam - base) / geometry.blockSizeBytes * geometry.blockSizeBytes)
    (maximumTargetBytes size geometry.blockSizeBytes) with h | h <;> rw [h]
  · exact Nat.mul_mod_left _ _
  · exact maximumTargetBytes_mod hblock

theorem qualify_isOk {ready : Bool} {current : Nat} (hready : ready = true → state.history ≠ []) :
    (∃ qualified, self.qualify state ready current = .ok qualified) ↔
      (ready = true → ∀ bucket ∈ state.history,
        bucket.desiredNowBytes + self.config.downwardHysteresisBytes ≤ maximum) := by
  cases ready with
  | false => exact ⟨fun _ h => (by cases h), fun _ => ⟨_, rfl⟩⟩
  | true =>
      simp only [true_imp_iff]
      constructor
      · rintro ⟨qualified, h⟩ bucket hbucket
        simp only [qualify, if_true] at h
        obtain ⟨windowDesired, hdesired, h⟩ := bind_eq_ok.mp h
        obtain ⟨threshold, hthreshold, -⟩ := bind_eq_ok.mp h
        have hle := (windowMaximum_eq_ok.mp hdesired).2 _
          (List.mem_map_of_mem (f := (·.desiredNowBytes)) hbucket)
        have hfits := (checkedAdd_eq_some.mp (okOr_eq_ok.mp hthreshold)).2
        omega
      · intro h
        refine exists_ok fun error herror => ?_
        have hall := qualify_error (fun _ => hready rfl) herror
        simp only [qualify, if_true] at herror
        obtain ⟨value, hvalue⟩ := Option.isSome_iff_exists.mp
          (List.isSome_max?_of_ne_nil (l := state.history.map (·.desiredNowBytes))
            (by simpa using hready rfl))
        have hmax := windowMaximum_eq_ok.mp (okOr_eq_ok.mpr hvalue :
          windowMaximum (state.history.map (·.desiredNowBytes)) = .ok value)
        obtain ⟨bucket, hbucket, rfl⟩ := List.mem_map.mp hmax.1
        have hfits := h bucket hbucket
        rcases bind_eq_error.mp herror with herror | ⟨windowDesired, hwindow, herror⟩
        · rw [windowMaximum, hvalue] at herror; cases herror
        rw [windowMaximum, okOr_eq_ok, hvalue] at hwindow
        cases hwindow
        rcases bind_eq_error.mp herror with herror | ⟨_, -, herror⟩
        · have hnone := checkedAdd_eq_none.mp (okOr_eq_error.mp herror).1
          omega
        rcases bind_eq_error.mp herror with herror | ⟨_, -, herror⟩
        · rw [hall] at herror
          simp [windowMaximum] at herror
        · cases herror

theorem conclude_isOk :
    (∃ estimate after, self.conclude state sample geometry needs = (.ok estimate, after)) ↔
      (historyIsReady (self.folded state sample geometry needs).history sample.monotonicMillis
          self.config.historyWindowMillis = true →
        ∀ bucket ∈ (self.folded state sample geometry needs).history,
          bucket.desiredNowBytes + self.config.downwardHysteresisBytes ≤ maximum) := by
  rw [← @qualify_isOk _ _ _ geometry.currentBytes]
  · unfold conclude
    dsimp only
    constructor
    · rintro ⟨estimate, after, h⟩
      split at h
      · cases h
      · next qualified hqualified => exact ⟨qualified, hqualified⟩
    · rintro ⟨qualified, hqualified⟩
      rw [folded] at hqualified
      rw [hqualified]
      exact ⟨_, _, rfl⟩
  · intro hready
    obtain ⟨oldest, rest, hhistory, -⟩ := historyIsReady_iff.mp hready
    simp [hhistory]

/-- **An estimate succeeds exactly on the observations the estimator can use.** -/
theorem estimate_isOk (hword : geometry.deviceSizeBytes ≤ maximum) :
    (∃ estimate after, self.estimate sample geometry = (.ok estimate, after)) ↔
      self.Takes sample geometry := by
  -- The last stage fails only where a threshold of the completed window overflows.
  have hwindow : ∀ {raw state minimum},
      calculateInstantaneous self.config sample.memory geometry = .ok raw →
      self.prepareSample sample = (.ok (), state) →
      alignUp (self.minRam - visibleBase sample geometry) geometry.blockSizeBytes = .ok minimum →
      ((∀ bucket ∈ self.completedWindow sample geometry,
          bucket.desiredNowBytes + self.config.downwardHysteresisBytes ≤ maximum) ↔
        ∃ estimate after, self.conclude state sample geometry
          (self.limited sample geometry raw minimum) = (.ok estimate, after)) := by
    intro raw state minimum hraw hstate hminimum
    rw [conclude_isOk]
    unfold completedWindow
    rw [hraw, hstate, hminimum]
    dsimp only
    split_ifs with hready
    · simp [hready]
    · simp [hready]
  constructor
  · rintro ⟨estimate, after, h⟩
    unfold TargetEstimator.estimate at h
    split at h
    · cases h
    next raw hraw =>
    split at h
    · cases h
    next state hstate =>
    dsimp only at h
    split at h
    · cases h
    next minimum hminimum =>
    split_ifs at h with hlimits
    · cases h
    simp only [not_or, not_lt] at hlimits
    have hsound := calculateInstantaneous_sound hraw
    obtain ⟨hsession, hadvances⟩ := prepareSample_isOk.mp ⟨state, hstate⟩
    have haligned := (alignUp_eq_ok (Nat.pos_of_ne_zero hsound.fits.block_pos) hminimum).1
    rw [hsound.effectiveMaximum] at hlimits
    exact ⟨(calculateInstantaneous_isOk hword).mp ⟨raw, hraw⟩, hsession, hadvances,
      le_trans haligned hlimits.1, hlimits.2, (hwindow hraw hstate hminimum).mpr ⟨_, _, h⟩⟩
  · intro h
    obtain ⟨raw, hraw⟩ := (calculateInstantaneous_isOk hword).mpr h.measures
    have hsound := calculateInstantaneous_sound hraw
    obtain ⟨state, hstate⟩ := prepareSample_isOk.mpr ⟨h.session, h.advances⟩
    have hmax : self.deviceMaximum (visibleBase sample geometry) geometry.blockSizeBytes
        (maximumTargetBytes geometry.deviceSizeBytes geometry.blockSizeBytes) ≤ maximum :=
      le_trans (min_le_right _ _) (le_trans (maximumTargetBytes_le _ _) hword)
    obtain ⟨minimum, hminimum, hle⟩ := alignUp_le
      (deviceMaximum_mod hsound.fits.block_pos) h.minimum_le hmax
    obtain ⟨estimate, after, hconclude⟩ := (hwindow hraw hstate hminimum).mp h.window
    refine ⟨estimate, after, ?_⟩
    unfold TargetEstimator.estimate
    rw [hraw]
    dsimp only
    rw [hstate]
    dsimp only
    rw [hminimum]
    dsimp only
    rw [hsound.effectiveMaximum, if_neg (by simp [hle, h.base_le]), ← hsound.effectiveMaximum]
    exact hconclude

end TargetEstimator

end VirtioMem.Core
