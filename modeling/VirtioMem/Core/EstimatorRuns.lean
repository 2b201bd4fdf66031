import VirtioMem.Core.EstimatorFacts

/-!
# Runs of the estimator

An estimator lives through many samples, and between them its evidence is thrown away and its limits
change. `Runs` are all of its histories, with the estimates that were made.

Two questions are settled over them. *What does a failed estimate leave behind?* Nothing that would let
the guest give memory back, except where a call leaves by one of two overflows
(`failed_estimate_iff`). *What can the answers be relied on for?* They are ordered, bounded and aligned
on every run, and the desired size falls only on the evidence of a whole window or with the device's
ceiling; the second overflow is the one that breaks the last part (`estimates_ordered`).
-/

namespace VirtioMem.Core

open VirtioMem.Word VirtioMem.Text VirtioMem.Result VirtioMem.Window

/-- One estimate, with the estimator it found. -/
structure Estimation where
  before : TargetEstimator
  sample : TargetSample
  geometry : TargetGeometry

namespace Estimation

def answer (self : Estimation) : Except TargetEstimatorError TargetEstimate :=
  (self.before.estimate self.sample self.geometry).1

def after (self : Estimation) : TargetEstimator :=
  (self.before.estimate self.sample self.geometry).2

end Estimation

namespace TargetEstimator

/-- Every run of an estimator: estimates of arbitrary samples, and between them invalidations and
changes of the limits. -/
inductive Runs (start : TargetEstimator) : List Estimation → TargetEstimator → Prop
  | start : Runs start [] start
  | estimated {calls : List Estimation} {self : TargetEstimator} (h : Runs start calls self)
      (sample : TargetSample) (geometry : TargetGeometry) :
      Runs start (calls ++ [⟨self, sample, geometry⟩]) (self.estimate sample geometry).2
  | invalidated {calls : List Estimation} {self : TargetEstimator} (h : Runs start calls self) :
      Runs start calls self.invalidateHistory
  | limited {calls : List Estimation} {self : TargetEstimator} (h : Runs start calls self)
      (minimum maximum : Nat) : Runs start calls (self.setRamLimits minimum maximum).2

/-! ## The exits of an estimate -/

/-- Nothing is left that would justify a smaller size. -/
def NoEvidence (self : TargetEstimator) : Prop :=
  self.state.history = [] ∧ self.state.safeFloorBytes = self.state.desiredBytes

/-- The sample names a session, and within a session it follows the last one. -/
def InOrder (self : TargetEstimator) (sample : TargetSample) : Prop :=
  isBlank sample.sessionId = false ∧
    (sample.sessionId = self.state.sessionId →
      self.state.lastSequence < sample.sequence ∧
        self.state.lastMonotonicMillis < sample.monotonicMillis)

/-- The sample follows a gap or begins another session: the history starts over. -/
def StartsOver (self : TargetEstimator) (sample : TargetSample) : Prop :=
  self.state.sessionId ≠ "" ∧ (sample.sessionId ≠ self.state.sessionId ∨
    self.config.maximumGapMillis < sample.monotonicMillis - self.state.lastMonotonicMillis)

/-- The configured minimum above this base, in whole blocks, is a number. -/
def MinimumFits (self : TargetEstimator) (sample : TargetSample) (geometry : TargetGeometry) : Prop :=
  ∃ minimum, alignUp (self.minRam - visibleBase sample geometry) geometry.blockSizeBytes = .ok minimum

/-- The configured RAM limits can be met above this base. -/
def LimitsMet (self : TargetEstimator) (sample : TargetSample) (geometry : TargetGeometry) : Prop :=
  self.minRam - visibleBase sample geometry ≤
      self.deviceMaximum (visibleBase sample geometry) geometry.blockSizeBytes
        (maximumTargetBytes geometry.deviceSizeBytes geometry.blockSizeBytes) ∧
    visibleBase sample geometry ≤ self.maxRam

/-- The sample completes a window whose largest need is within a hysteresis of the largest number. -/
def WindowOverflows (self : TargetEstimator) (sample : TargetSample) (geometry : TargetGeometry) :
    Prop :=
  self.LimitsMet sample geometry ∧ ∃ bucket ∈ self.completedWindow sample geometry,
    maximum < bucket.desiredNowBytes + self.config.downwardHysteresisBytes

variable {self after : TargetEstimator} {sample : TargetSample} {geometry : TargetGeometry}
  {error : TargetEstimatorError}

theorem invalidateHistory_noEvidence : self.invalidateHistory.NoEvidence := ⟨rfl, rfl⟩

/-- What an accepted sample leaves of the history. -/
theorem prepareSample_history {state : TargetEstimatorState}
    (h : self.prepareSample sample = (.ok (), state)) :
    state.history = [] ↔ self.state.history = [] ∨ self.StartsOver sample := by
  unfold StartsOver
  unfold prepareSample at h
  split_ifs at h with hblank hfresh hsession horder hgap <;> cases h
  · simp [hfresh]
  · simp [hfresh, hsession]
  · simp [hfresh, hgap]
  · simp [hfresh, not_not.mp hsession, hgap]

/-- Where a failed estimate left. -/
inductive Exit (self : TargetEstimator) (sample : TargetSample) (geometry : TargetGeometry) :
    TargetEstimator → Prop
  /-- The observation is refused, and the evidence goes. -/
  | refused (h : ¬ sample.memory.Measures self.config geometry ∨ ¬ self.InOrder sample ∨
      self.MinimumFits sample geometry ∧ ¬ self.LimitsMet sample geometry) :
      Exit self sample geometry self.invalidateHistory
  /-- The minimum overflows, after the order was checked. -/
  | minimum {state : TargetEstimatorState} (hmeasures : sample.memory.Measures self.config geometry)
      (horder : self.InOrder sample) (h : ¬ self.MinimumFits sample geometry)
      (hstate : self.prepareSample sample = (.ok (), state)) :
      Exit self sample geometry { self with state }
  /-- The threshold overflows, after the sample was folded in. -/
  | threshold {after : TargetEstimator} (hmeasures : sample.memory.Measures self.config geometry)
      (horder : self.InOrder sample) (hfits : self.MinimumFits sample geometry)
      (h : self.WindowOverflows sample geometry) (hkept : after.state.history ≠ []) :
      Exit self sample geometry after

theorem InOrder.iff : self.InOrder sample ↔ ∃ state, self.prepareSample sample = (.ok (), state) :=
  prepareSample_isOk.symm

theorem conclude_failed {state : TargetEstimatorState} {needs : InstantaneousTarget}
    (h : self.conclude state sample geometry needs = (.error error, after)) :
    after.state = self.folded state sample geometry needs ∧
      historyIsReady (self.folded state sample geometry needs).history sample.monotonicMillis
        self.config.historyWindowMillis = true ∧
      ∃ bucket ∈ (self.folded state sample geometry needs).history,
        maximum < bucket.desiredNowBytes + self.config.downwardHysteresisBytes := by
  have hfails : ¬ ∃ estimate after,
      self.conclude state sample geometry needs = (.ok estimate, after) := by
    rintro ⟨_, _, hok⟩
    rw [h] at hok
    cases hok
  rw [conclude_isOk] at hfails
  push Not at hfails
  refine ⟨?_, hfails⟩
  unfold conclude at h
  dsimp only at h
  split at h
  · cases h
    rfl
  · cases h

/-- The device's ceiling above a base is a whole number of blocks, so that rounding the minimum up does
not pass it. -/
theorem limitsMet_iff {minimum : Nat} (hfits : geometry.Fits self.config)
    (hword : geometry.deviceSizeBytes ≤ maximum)
    (hminimum : alignUp (self.minRam - visibleBase sample geometry) geometry.blockSizeBytes =
      .ok minimum) :
    self.LimitsMet sample geometry ↔
      minimum ≤ self.deviceMaximum (visibleBase sample geometry) geometry.blockSizeBytes
        (maximumTargetBytes geometry.deviceSizeBytes geometry.blockSizeBytes) ∧
      visibleBase sample geometry ≤ self.maxRam := by
  refine and_congr_left fun _ => ⟨fun hle => ?_, fun hle => ?_⟩
  · have hmax : self.deviceMaximum (visibleBase sample geometry) geometry.blockSizeBytes
        (maximumTargetBytes geometry.deviceSizeBytes geometry.blockSizeBytes) ≤ maximum :=
      (min_le_right _ _).trans ((maximumTargetBytes_le _ _).trans hword)
    obtain ⟨aligned, haligned, hbound⟩ := alignUp_le (deviceMaximum_mod hfits.block_pos) hle hmax
    rw [hminimum] at haligned
    cases haligned
    exact hbound
  · exact (alignUp_eq_ok (Nat.pos_of_ne_zero hfits.block_pos) hminimum).1.trans hle

/-- **Every failed estimate leaves by one of the exits.** -/
theorem estimate_exit (hword : geometry.deviceSizeBytes ≤ maximum)
    (h : self.estimate sample geometry = (.error error, after)) : Exit self sample geometry after := by
  -- The exits in the order of the source: measure, order, minimum, limits, threshold.
  unfold estimate at h
  split at h
  · next hraw =>
      cases h
      refine .refused (.inl fun hmeasures => ?_)
      obtain ⟨needs, hneeds⟩ := (calculateInstantaneous_isOk hword).mpr hmeasures
      rw [hraw] at hneeds
      cases hneeds
  next raw hraw =>
  have hmeasures := (calculateInstantaneous_isOk hword).mp ⟨raw, hraw⟩
  split at h
  · next state herror =>
      cases h
      obtain rfl := prepareSample_error herror
      refine .refused (.inr (.inl fun horder => ?_))
      obtain ⟨state, hstate⟩ := InOrder.iff.mp horder
      rw [herror] at hstate
      cases hstate
  next state hstate =>
  have horder : self.InOrder sample := InOrder.iff.mpr ⟨state, hstate⟩
  dsimp only at h
  split at h
  · next herror =>
      cases h
      refine .minimum hmeasures horder ?_ hstate
      rintro ⟨minimum, hminimum⟩
      rw [herror] at hminimum
      cases hminimum
  next minimum hminimum =>
  have heffective := (calculateInstantaneous_sound hraw).effectiveMaximum
  have hlimits := @limitsMet_iff self sample geometry minimum hmeasures.fits hword hminimum
  rw [heffective] at h
  split_ifs at h with hunmet
  · cases h
    have hrefused : ({ self with state := state.invalidateHistory } : TargetEstimator) =
        self.invalidateHistory := by
      rcases (prepareSample_ok hstate).kept with rfl | rfl <;> rfl
    rw [hrefused]
    refine .refused (.inr (.inr ⟨⟨minimum, hminimum⟩, fun hmet => ?_⟩))
    obtain ⟨hle, hbase⟩ := hlimits.mp hmet
    omega
  · have hmet : self.LimitsMet sample geometry := hlimits.mpr (by omega)
    obtain ⟨hafter, hready, bucket, hbucket, hover⟩ := conclude_failed h
    refine .threshold hmeasures horder ⟨minimum, hminimum⟩ ⟨hmet, bucket, ?_, hover⟩ ?_
    · unfold completedWindow
      rw [hraw, hstate, hminimum]
      dsimp only
      rw [limited, heffective, if_pos hready]
      exact hbucket
    · rw [hafter]
      exact List.ne_nil_of_mem hbucket

/-! ## What a run gathers -/

/-- A bucket is an old one, the new one, or the last one with the new needs merged in. -/
theorem mem_recordCandidate {history : List CandidateHistoryEntry} {bucket : Nat}
    {entry new : CandidateHistoryEntry} (h : new ∈ recordCandidate history bucket entry) :
    new ∈ history ∨ new = entry ∨ ∃ last ∈ history, new = { last with
      desiredNowBytes := max last.desiredNowBytes entry.desiredNowBytes
      floorNowBytes := max last.floorNowBytes entry.floorNowBytes } := by
  unfold recordCandidate at h
  split at h
  · rcases List.mem_append.mp h with h | h
    · exact .inl h
    · exact .inr (.inl (List.mem_singleton.mp h))
  next last hlast =>
  split_ifs at h
  · rcases List.mem_append.mp h with h | h
    · exact .inl ((List.dropLast_sublist _).mem h)
    · exact .inr (.inr ⟨last, List.mem_of_getLast? hlast, List.mem_singleton.mp h⟩)
  · rcases List.mem_append.mp h with h | h
    · exact .inl h
    · exact .inr (.inl (List.mem_singleton.mp h))

/-- Folding a sample in loses buckets or records the sample. -/
theorem mem_folded {state : TargetEstimatorState} {needs : InstantaneousTarget}
    {bucket : CandidateHistoryEntry}
    (h : bucket ∈ (self.folded state sample geometry needs).history) :
    sample.nativePressure = some .high ∧ bucket ∈ recordCandidate
      (rebase state (visibleBase sample geometry)).history self.config.bucketMillis
      (candidateOf sample needs.desiredNowBytes needs.floorNowBytes) := by
  by_cases hhigh : sample.nativePressure = some .high
  · refine ⟨hhigh, ?_⟩
    have hmem := (collect_suffix hhigh).subset h
    rwa [raise_history] at hmem
  · rw [folded, collect_other hhigh] at h
    cases h

theorem rebase_history_subset (state : TargetEstimatorState) (base : Nat) :
    (rebase state base).history ⊆ state.history := by
  rcases rebase_history state base with h | ⟨h, -⟩ <;> simp [h]

/-- Both ends of `conclude` leave the folded history. -/
theorem conclude_history {state : TargetEstimatorState} {needs : InstantaneousTarget}
    {answer : Except TargetEstimatorError TargetEstimate}
    (h : self.conclude state sample geometry needs = (answer, after)) :
    after.state.history = (self.folded state sample geometry needs).history := by
  cases answer with
  | error error => rw [(conclude_failed h).1]
  | ok estimate =>
      obtain ⟨_, _, -, -, -, rfl⟩ := conclude_eq_ok h
      rfl

/-- **The buckets an estimate leaves** began with the buckets it found or with its sample. -/
theorem estimate_buckets {answer : Except TargetEstimatorError TargetEstimate}
    (h : self.estimate sample geometry = (answer, after)) {bucket : CandidateHistoryEntry}
    (hbucket : bucket ∈ after.state.history) :
    (∃ old ∈ self.state.history, old.monotonicMillis = bucket.monotonicMillis) ∨
      sample.nativePressure = some .high ∧ bucket.monotonicMillis = sample.monotonicMillis := by
  rcases estimate_cases h with ⟨_, -, ⟨-, hshed⟩, -⟩ | ⟨raw, prepared, minimum, haccepted, hconclude⟩
  · rcases hshed with hshed | hshed <;> rw [hshed] at hbucket
    · cases hbucket
    · exact .inl ⟨bucket, hbucket, rfl⟩
  · rw [conclude_history hconclude] at hbucket
    obtain ⟨hhigh, hbucket⟩ := mem_folded hbucket
    have hold : ∀ old ∈ (rebase prepared (visibleBase sample geometry)).history,
        old ∈ self.state.history := by
      intro old hold
      have hmem := rebase_history_subset _ _ hold
      rcases haccepted.order.kept with rfl | rfl
      · exact hmem
      · cases hmem
    rcases mem_recordCandidate hbucket with hbucket | rfl | ⟨last, hlast, rfl⟩
    · exact .inl ⟨bucket, hold _ hbucket, rfl⟩
    · exact .inr ⟨hhigh, rfl⟩
    · exact .inl ⟨last, hold _ hlast, rfl⟩

theorem setRamLimits_rest (minimum maximum : Nat) :
    ((self.setRamLimits minimum maximum).2 = self) ∨
      (self.setRamLimits minimum maximum).2 =
        { self.invalidateHistory with minRam := minimum, maxRam := maximum } := by
  unfold setRamLimits
  split_ifs
  · exact .inl rfl
  · exact .inr rfl

theorem estimate_config : (self.estimate sample geometry).2.config = self.config := by
  cases h : self.estimate sample geometry with
  | mk answer after =>
      obtain ⟨state, rfl⟩ := estimate_rest h
      rfl

section Run

variable {start : TargetEstimator} {calls : List Estimation}

theorem Runs.config (h : Runs start calls self) : self.config = start.config := by
  induction h with
  | start => rfl
  | estimated _ _ _ ih => exact estimate_config.trans ih
  | invalidated _ ih => exact ih
  | @limited calls self _ minimum maximum ih =>
      rcases @setRamLimits_rest self minimum maximum with h | h <;> rw [h] <;> exact ih

/-- Whatever a run from an empty history gathers, it gathers from its own samples. -/
theorem Runs.buckets (h : Runs start calls self) (hstart : start.state.history = [])
    {bucket : CandidateHistoryEntry} (hbucket : bucket ∈ self.state.history) :
    ∃ call ∈ calls, call.sample.nativePressure = some .high ∧
      call.sample.monotonicMillis = bucket.monotonicMillis := by
  induction h generalizing bucket with
  | start => simp [hstart] at hbucket
  | @estimated calls self _ sample geometry ih =>
      rcases estimate_buckets rfl hbucket with ⟨old, hold, htime⟩ | ⟨hhigh, htime⟩
      · obtain ⟨call, hcall, hhigh, hcalled⟩ := ih hold
        exact ⟨call, List.mem_append_left _ hcall, hhigh, hcalled.trans htime⟩
      · exact ⟨⟨self, sample, geometry⟩, by simp, hhigh, htime.symm⟩
  | invalidated _ ih => cases hbucket
  | @limited calls self _ minimum maximum ih =>
      rcases @setRamLimits_rest self minimum maximum with h | h <;> rw [h] at hbucket
      · exact ih hbucket
      · cases hbucket

end Run

theorem window_pos (h : self.config.validate = .ok ()) : 0 < self.config.historyWindowMillis := by
  unfold TargetPolicyConfig.validate at h
  split_ifs at h with hzero
  omega

/-- From here on, a window is only ready when a sample of the run itself began it: one that observed High
at least a whole window ago. -/
def GathersAgain (self : TargetEstimator) : Prop :=
  ∀ calls later, Runs self calls later → ∀ sample geometry estimate,
    (later.estimate sample geometry).1 = .ok estimate → estimate.historyReady = true →
    ∃ call ∈ calls, call.sample.nativePressure = some .high ∧
      self.config.historyWindowMillis ≤ sample.monotonicMillis - call.sample.monotonicMillis

theorem NoEvidence.gathersAgain (h : self.NoEvidence) : self.GathersAgain := by
  intro calls later hruns sample geometry estimate hanswer hready
  have hestimate : later.estimate sample geometry =
      (.ok estimate, (later.estimate sample geometry).2) := Prod.ext hanswer rfl
  obtain ⟨raw, prepared, minimum, haccepted, hconclude⟩ := estimate_eq_ok hestimate
  obtain ⟨_, _, -, -, rfl, -⟩ := conclude_eq_ok hconclude
  obtain ⟨oldest, rest, hhistory, hwindow⟩ := historyIsReady_iff.mp hready
  have hpos := window_pos haccepted.sound.fits.policy
  have hold : oldest ∈ (later.estimate sample geometry).2.state.history := by
    rw [conclude_history hconclude, hhistory]
    exact List.mem_cons_self
  -- The sample itself is too young to have begun the window.
  rcases estimate_buckets hestimate hold with ⟨old, hmem, htime⟩ | ⟨-, htime⟩
  · obtain ⟨call, hcall, hhigh, hcalled⟩ := hruns.buckets h.1 hmem
    refine ⟨call, hcall, hhigh, ?_⟩
    rw [← hruns.config]
    omega
  · omega

/-! ## Failed estimates -/

/-- A failed estimate takes the evidence with it: if the observation measures up and is in order, then
the minimum fits and no completed window overflows, or the minimum does not fit and there was no
evidence that could have stayed. -/
def TakesEvidence (self : TargetEstimator) (sample : TargetSample) (geometry : TargetGeometry) :
    Prop :=
  sample.memory.Measures self.config geometry → self.InOrder sample →
    (self.MinimumFits sample geometry → ¬ self.WindowOverflows sample geometry) ∧
      (¬ self.MinimumFits sample geometry →
        (self.state.history = [] ∨ self.StartsOver sample) ∧
          self.state.safeFloorBytes = self.state.desiredBytes)

/-- **When a failed estimate leaves no evidence.** Then, and only then, reclaim waits for a whole window
again. -/
theorem failed_estimate_iff (hword : geometry.deviceSizeBytes ≤ maximum)
    (h : self.estimate sample geometry = (.error error, after)) :
    (after.NoEvidence ∧ after.GathersAgain) ↔ self.TakesEvidence sample geometry := by
  rw [and_iff_left_of_imp NoEvidence.gathersAgain]
  cases estimate_exit hword h with
  | refused hrefused =>
      refine iff_of_true invalidateHistory_noEvidence fun hmeasures horder => ?_
      rcases hrefused with hrefused | hrefused | ⟨hfits, hunmet⟩
      · exact absurd hmeasures hrefused
      · exact absurd horder hrefused
      · exact ⟨fun _ hover => hunmet hover.1, fun hnot => absurd hfits hnot⟩
  | @minimum state hmeasures horder hnot hstate =>
      have hhistory := prepareSample_history hstate
      have hkept : state.safeFloorBytes = self.state.safeFloorBytes ∧
          state.desiredBytes = self.state.desiredBytes := by
        rcases (prepareSample_ok hstate).kept with rfl | rfl <;> exact ⟨rfl, rfl⟩
      show state.history = [] ∧ state.safeFloorBytes = state.desiredBytes ↔ _
      rw [hhistory, hkept.1, hkept.2]
      constructor
      · exact fun hclean _ _ => ⟨fun hfits => absurd hfits hnot, fun _ => hclean⟩
      · exact fun htakes => (htakes hmeasures horder).2 hnot
  | threshold hmeasures horder hfits hover hkept =>
      refine iff_of_false (fun hclean => hkept hclean.1) fun htakes => ?_
      exact (htakes hmeasures horder).1 hfits hover

/-- A policy with blocks of 1 MiB and the given commit reserve and hysteresis. -/
def wideConfig (commitReserve hysteresis : Nat) : TargetPolicyConfig :=
  ⟨0, 2 ^ 20, commitReserve, 2 ^ 20, 2 ^ 20, 10, 1000, hysteresis⟩

/-- An idle guest under High pressure with this much memory and this much room to commit. -/
def wideSample (monotonic sequence total commitTotal commitLimit : Nat) : TargetSample where
  sessionId := "session"
  observedUnixMillis := monotonic
  monotonicMillis := monotonic
  sequence := sequence
  memory := ⟨total, total, 0, commitTotal, commitLimit, commitLimit⟩
  nativePressure := some .high

/-- An estimator that must keep every byte of RAM there can be. -/
def pinnedEstimator : TargetEstimator := ⟨wideConfig (2 ^ 20) (2 ^ 20), maximum, maximum, .initial⟩

/-- The largest base above which the minimum is still one block. -/
def wholeRam : Estimation :=
  ⟨pinnedEstimator, wideSample 1 1 maximum 1 (2 ^ 21), ⟨2 ^ 30, 2 ^ 20, 2 ^ 20⟩⟩

/-- No base at all: the minimum rounds up past the largest number. -/
def noBase : Estimation :=
  ⟨wholeRam.after, wideSample 2 2 (2 ^ 20) 1 (2 ^ 21), ⟨2 ^ 30, 2 ^ 20, 2 ^ 20⟩⟩

/-- A sample that does not follow the last one is refused, and the evidence goes with it. -/
theorem repeated_takesEvidence :
    (wholeRam.after.estimate wholeRam.sample wholeRam.geometry).2.NoEvidence ∧
      (wholeRam.after.estimate wholeRam.sample wholeRam.geometry).2.GathersAgain := by
  have herror : (wholeRam.after.estimate wholeRam.sample wholeRam.geometry).1 =
      .error (.invalidOrdering "sample did not advance within the producer session") := by
    decide +kernel
  have hunordered : ¬ wholeRam.after.InOrder wholeRam.sample := by
    rintro ⟨-, hadvances⟩
    exact absurd (hadvances (by decide +kernel)).1 (by decide +kernel)
  exact (failed_estimate_iff (by decide) (Prod.ext herror rfl)).mpr
    fun _ horder => absurd horder hunordered

/-- **An overflowing minimum keeps the evidence.** The limits are accepted, the first sample is recorded,
and the second one fails without taking it away. -/
theorem minimum_overflow_keeps_evidence :
    (∃ fresh, TargetEstimator.new (wideConfig (2 ^ 20) (2 ^ 20)) = .ok fresh ∧
      fresh.setRamLimits maximum maximum = (.ok (), pinnedEstimator)) ∧
    (∃ estimate, wholeRam.answer = .ok estimate) ∧
    noBase.answer = .error .arithmeticOverflow ∧ ¬ noBase.after.NoEvidence := by
  refine ⟨⟨⟨wideConfig (2 ^ 20) (2 ^ 20), 0, maximum, .initial⟩, by decide +kernel, by decide +kernel⟩,
    ⟨⟨2 ^ 20, 2 ^ 20, 2 ^ 20, 2 ^ 20, 2 ^ 20, false, false⟩, by decide +kernel⟩, by decide +kernel,
    fun h => ?_⟩
  have hkept : noBase.after.state.history ≠ [] := by decide +kernel
  exact hkept h.1

/-! ## Ordered and aligned answers -/

/-- Sizes of whole blocks only: the desired size and what the history holds. -/
structure Aligned (block : Nat) (state : TargetEstimatorState) : Prop where
  desired : block ∣ state.desiredBytes
  needs : ∀ bucket ∈ state.history, block ∣ bucket.desiredNowBytes ∧ block ∣ bucket.floorNowBytes

theorem dvd_min {block a b : Nat} (ha : block ∣ a) (hb : block ∣ b) : block ∣ min a b :=
  min_rec' (block ∣ ·) ha hb

theorem dvd_max {block a b : Nat} (ha : block ∣ a) (hb : block ∣ b) : block ∣ max a b :=
  max_rec' (block ∣ ·) ha hb

theorem calculateInstantaneous_floor_dvd {config : TargetPolicyConfig}
    {memory : MemoryTelemetrySnapshot} {needs : InstantaneousTarget}
    (h : calculateInstantaneous config memory geometry = .ok needs) :
    geometry.blockSizeBytes ∣ needs.floorNowBytes := by
  have hsound := calculateInstantaneous_sound h
  unfold calculateInstantaneous at h
  obtain ⟨_, -, h⟩ := bind_eq_ok.mp h
  obtain ⟨_, -, h⟩ := bind_eq_ok.mp h
  obtain ⟨_, -, h⟩ := bind_eq_ok.mp h
  obtain ⟨_, -, h⟩ := bind_eq_ok.mp h
  obtain ⟨_, -, h⟩ := bind_eq_ok.mp h
  obtain ⟨_, -, h⟩ := bind_eq_ok.mp h
  obtain ⟨floorAligned, haligned, h⟩ := bind_eq_ok.mp h
  cases h
  have hrounded := (alignUp_eq_ok (Nat.pos_of_ne_zero hsound.fits.block_pos) haligned).2.1
  exact dvd_min (Nat.dvd_of_mod_eq_zero hrounded) hsound.desired_dvd

/-- The needs of an accepted sample, inside the limits: ordered, bounded and aligned. -/
structure Bounded (needs : InstantaneousTarget) (minimum block : Nat) : Prop where
  minimum_dvd : block ∣ minimum
  minimum_le : minimum ≤ needs.desiredNowBytes
  floor_le : needs.floorNowBytes ≤ needs.desiredNowBytes
  desired_le : needs.desiredNowBytes ≤ needs.effectiveMaximumBytes
  floor_dvd : block ∣ needs.floorNowBytes
  desired_dvd : block ∣ needs.desiredNowBytes
  maximum_dvd : block ∣ needs.effectiveMaximumBytes

theorem limited_bounded {raw : InstantaneousTarget} {prepared : TargetEstimatorState} {minimum : Nat}
    (hraw : calculateInstantaneous self.config sample.memory geometry = .ok raw)
    (h : self.Accepted sample geometry raw prepared minimum) :
    Bounded (self.limited sample geometry raw minimum) minimum geometry.blockSizeBytes := by
  have hminimum : geometry.blockSizeBytes ∣ minimum := Nat.dvd_of_mod_eq_zero
    (alignUp_eq_ok (Nat.pos_of_ne_zero h.sound.fits.block_pos) h.aligned).2.1
  have hmaximum : geometry.blockSizeBytes ∣ self.deviceMaximum (visibleBase sample geometry)
      geometry.blockSizeBytes raw.effectiveMaximumBytes := by
    rw [h.sound.effectiveMaximum]
    exact Nat.dvd_of_mod_eq_zero (deviceMaximum_mod h.sound.fits.block_pos)
  have hwithin := @within_desired raw minimum _ h.minimum_le
  exact {
    minimum_dvd := hminimum
    minimum_le := hwithin.1
    floor_le := max_le_max_left _ (min_le_min_right _ h.sound.floor_le)
    desired_le := hwithin.2
    floor_dvd := dvd_max hminimum (dvd_min (calculateInstantaneous_floor_dvd hraw) hmaximum)
    desired_dvd := dvd_max hminimum (dvd_min h.sound.desired_dvd hmaximum)
    maximum_dvd := hmaximum }

theorem raise_dvd {state : TargetEstimatorState} {needs : InstantaneousTarget} {block current : Nat}
    (hstate : block ∣ state.desiredBytes) (hcurrent : block ∣ current)
    (hdesired : block ∣ needs.desiredNowBytes) (hmaximum : block ∣ needs.effectiveMaximumBytes) :
    block ∣ (raise state current needs).desiredBytes := by
  unfold raise
  split_ifs
  · exact dvd_min (dvd_max (dvd_max hcurrent hdesired) hdesired) hmaximum
  · exact dvd_min (dvd_max hstate hdesired) hmaximum

theorem folded_aligned {state : TargetEstimatorState} {needs : InstantaneousTarget} {minimum : Nat}
    (hstate : Aligned geometry.blockSizeBytes state)
    (hcurrent : geometry.currentBytes % geometry.blockSizeBytes = 0)
    (hneeds : Bounded needs minimum geometry.blockSizeBytes) :
    Aligned geometry.blockSizeBytes (self.folded state sample geometry needs) where
  desired := by
    rw [folded_desired]
    refine raise_dvd ?_ (Nat.dvd_of_mod_eq_zero hcurrent) hneeds.desired_dvd hneeds.maximum_dvd
    rw [rebase_desired]
    exact hstate.desired
  needs := by
    intro bucket hbucket
    have hold : ∀ old ∈ (rebase state (visibleBase sample geometry)).history,
        geometry.blockSizeBytes ∣ old.desiredNowBytes ∧
          geometry.blockSizeBytes ∣ old.floorNowBytes :=
      fun old h => hstate.needs old (rebase_history_subset _ _ h)
    rcases mem_recordCandidate (mem_folded hbucket).2 with h | rfl | ⟨last, hlast, rfl⟩
    · exact hold bucket h
    · exact ⟨hneeds.desired_dvd, hneeds.floor_dvd⟩
    · exact ⟨dvd_max (hold last hlast).1 hneeds.desired_dvd,
        dvd_max (hold last hlast).2 hneeds.floor_dvd⟩

/-- What concluding makes of an aligned state. -/
theorem qualify_aligned {state qualified : TargetEstimatorState} {ready : Bool} {block current : Nat}
    (h : self.qualify state ready current = .ok qualified) (hstate : Aligned block state)
    (hcurrent : block ∣ current) :
    Aligned block qualified ∧ block ∣ qualified.safeFloorBytes := by
  rcases qualify_spec h with ⟨-, rfl⟩ | ⟨-, windowDesired, windowFloor, desired, hreads, hfalls, rfl⟩
  · exact ⟨⟨hstate.desired, hstate.needs⟩, dvd_min hcurrent hstate.desired⟩
  · obtain ⟨largest, hlargest, rfl⟩ := List.mem_map.mp hreads.desired.1
    obtain ⟨floor, hfloor, rfl⟩ := List.mem_map.mp hreads.floor.1
    have hdesired : block ∣ desired := by
      rcases hfalls with ⟨-, rfl⟩ | ⟨-, rfl⟩
      · exact (hstate.needs largest hlargest).1
      · exact hstate.desired
    exact ⟨⟨hdesired, hstate.needs⟩, dvd_min (hstate.needs floor hfloor).2 hdesired⟩

/-- **Ordered, bounded and aligned**: what every answer satisfies, with the configured minimum above the
base of its sample rounded up to blocks. -/
structure Ordered (estimate : TargetEstimate) (minimum block : Nat) : Prop where
  safeFloor_le : estimate.safeFloorBytes ≤ estimate.desiredBytes
  desired_le : estimate.desiredBytes ≤ estimate.effectiveMaximumBytes
  floorNow_le : estimate.floorNowBytes ≤ estimate.desiredNowBytes
  desiredNow_le : estimate.desiredNowBytes ≤ estimate.desiredBytes
  minimum_le : minimum ≤ estimate.desiredBytes
  safeFloor_dvd : block ∣ estimate.safeFloorBytes
  desired_dvd : block ∣ estimate.desiredBytes
  maximum_dvd : block ∣ estimate.effectiveMaximumBytes
  floorNow_dvd : block ∣ estimate.floorNowBytes
  desiredNow_dvd : block ∣ estimate.desiredNowBytes
  minimum_dvd : block ∣ minimum

theorem raise_le (state : TargetEstimatorState) (current : Nat) (needs : InstantaneousTarget) :
    (raise state current needs).desiredBytes ≤ needs.effectiveMaximumBytes :=
  min_le_right _ _

/-- The size that comes out is between what the sample needs and what the device can hold. -/
theorem conclude_between {state : TargetEstimatorState} {needs : InstantaneousTarget}
    {estimate : TargetEstimate} (hneeds : needs.desiredNowBytes ≤ needs.effectiveMaximumBytes)
    (h : self.conclude state sample geometry needs = (.ok estimate, after)) :
    estimate.safeFloorBytes ≤ estimate.desiredBytes ∧
      needs.desiredNowBytes ≤ estimate.desiredBytes ∧
      estimate.desiredBytes ≤ needs.effectiveMaximumBytes := by
  obtain ⟨desired, floor, hfloor, hdesired, rfl, -⟩ := conclude_eq_ok h
  have hraise := needs_le_raise (rebase state (visibleBase sample geometry)) geometry.currentBytes
    hneeds
  have hle := raise_le (rebase state (visibleBase sample geometry)) geometry.currentBytes needs
  rw [folded_desired] at hdesired
  refine ⟨hfloor, ?_, ?_⟩
  · rcases hdesired with rfl | hfalls
    · exact hraise
    · obtain ⟨largest, hlargest, -⟩ := hfalls.largest
      obtain ⟨bucket, hbucket, hneed⟩ := le_collect (List.ne_nil_of_mem hlargest)
      exact hneed.trans (hfalls.bounds bucket hbucket)
  · rcases hdesired with rfl | hfalls
    · exact hle
    · have hdrop := hfalls.le
      rw [folded_desired] at hdrop
      exact hdrop.trans hle

/-- An estimate on an aligned state leaves one behind, and its answer is ordered. -/
theorem estimate_aligned {answer : Except TargetEstimatorError TargetEstimate}
    (h : self.estimate sample geometry = (answer, after))
    (hstate : Aligned geometry.blockSizeBytes self.state) :
    Aligned geometry.blockSizeBytes after.state ∧ ∀ estimate, answer = .ok estimate →
      ∃ minimum, alignUp (self.minRam - visibleBase sample geometry) geometry.blockSizeBytes =
        .ok minimum ∧ Ordered estimate minimum geometry.blockSizeBytes := by
  rcases estimate_stages h with ⟨error, rfl, ⟨hdesired, hshed⟩, -⟩ |
    ⟨raw, prepared, minimum, hraw, -, haccepted, hconclude⟩
  · refine ⟨⟨hdesired ▸ hstate.desired, ?_⟩, fun _ hok => by cases hok⟩
    rcases hshed with hshed | hshed <;> rw [hshed]
    · simp
    · exact hstate.needs
  have hprepared : Aligned geometry.blockSizeBytes prepared := by
    rcases haccepted.order.kept with rfl | rfl
    · exact hstate
    · exact ⟨hstate.desired, by simp⟩
  have hbounded := limited_bounded hraw haccepted
  have hfolded := @folded_aligned self sample geometry _ _ _ hprepared
    haccepted.sound.fits.current_mod hbounded
  cases answer with
  | error error =>
      rw [(conclude_failed hconclude).1]
      exact ⟨hfolded, fun _ hok => by cases hok⟩
  | ok estimate =>
      obtain ⟨hfloor, hneed, hmax⟩ := conclude_between hbounded.desired_le hconclude
      obtain ⟨qualified, hqualified, rfl, rfl⟩ := conclude_qualify hconclude
      obtain ⟨haligned, hsafe⟩ := qualify_aligned hqualified hfolded
        (Nat.dvd_of_mod_eq_zero haccepted.sound.fits.current_mod)
      refine ⟨⟨haligned.desired, haligned.needs⟩, ?_⟩
      rintro _ ⟨⟩
      exact ⟨minimum, haccepted.aligned, hfloor, hmax, hbounded.floor_le, hneed,
        hbounded.minimum_le.trans hneed, hsafe, haligned.desired, hbounded.maximum_dvd,
        hbounded.floor_dvd, hbounded.desired_dvd, hbounded.minimum_dvd⟩

/-! ## When the desired size falls -/

/-- Two answers of a run with nothing but failures between them. -/
structure Consecutive (calls failed : List Estimation) (first second : Estimation)
    (previous next : TargetEstimate) : Prop where
  calls : ∃ earlier rest, calls = (earlier ++ first :: failed) ++ second :: rest
  first : first.answer = .ok previous
  failed : ∀ call ∈ failed, ∃ error, call.answer = .error error
  second : second.answer = .ok next

/-- The desired size falls to the largest need of a ready window, at least a hysteresis, or with the
ceiling. -/
def FallsWithCause (previous : TargetEstimate) (second : Estimation) (next : TargetEstimate) : Prop :=
  next.desiredBytes < previous.desiredBytes →
    (next.historyReady = true ∧
      (second.after.state.history.map (·.desiredNowBytes)).max? = some next.desiredBytes ∧
      next.desiredBytes + second.before.config.downwardHysteresisBytes ≤ previous.desiredBytes) ∨
    next.effectiveMaximumBytes < previous.effectiveMaximumBytes

/-- **One answer after another.** `previous` is what the desired size was left at. -/
theorem conclude_fallsWithCause {state : TargetEstimatorState} {needs : InstantaneousTarget}
    {previous next : TargetEstimate} (hsession : state.sessionId ≠ "")
    (hneeds : needs.desiredNowBytes ≤ needs.effectiveMaximumBytes)
    (hprevious : state.desiredBytes = previous.desiredBytes)
    (hmax : previous.desiredBytes ≤ previous.effectiveMaximumBytes)
    (hhysteresis : 0 < self.config.downwardHysteresisBytes)
    (h : self.conclude state sample geometry needs = (.ok next, after)) :
    next.desiredBytes < previous.desiredBytes →
      (next.historyReady = true ∧
        (after.state.history.map (·.desiredNowBytes)).max? = some next.desiredBytes ∧
        next.desiredBytes + self.config.downwardHysteresisBytes ≤ previous.desiredBytes) ∨
      next.effectiveMaximumBytes < previous.effectiveMaximumBytes := by
  intro hfalls
  obtain ⟨-, hneed, -⟩ := conclude_between hneeds h
  obtain ⟨qualified, hqualified, rfl, rfl⟩ := conclude_qualify h
  have hraised : (self.folded state sample geometry needs).desiredBytes =
      min (max previous.desiredBytes needs.desiredNowBytes) needs.effectiveMaximumBytes := by
    rw [folded_desired, raise, if_neg (by rwa [rebase_session])]
    simp only [rebase_desired, hprevious]
  rcases qualify_spec hqualified with ⟨-, rfl⟩ |
    ⟨hready, windowDesired, windowFloor, desired, hreads, hcause, rfl⟩
  · right
    simp only [hraised] at hfalls ⊢
    omega
  rcases hcause with ⟨hle, rfl⟩ | ⟨-, rfl⟩
  · left
    rw [hraised] at hle
    simp only at hfalls hneed
    refine ⟨hready, List.max?_eq_some_iff.mpr hreads.desired, ?_⟩
    simp only
    omega
  · right
    simp only [hraised] at hfalls ⊢
    omega

section Run

variable {start : TargetEstimator} {calls failed : List Estimation} {first second : Estimation}
  {previous next : TargetEstimate} {size block : Nat}

/-- The run up to any of its estimates. -/
theorem Runs.before {call : Estimation} {earlier rest : List Estimation}
    (h : Runs start (earlier ++ call :: rest) self) : Runs start earlier call.before := by
  generalize hcalls : earlier ++ call :: rest = calls at h
  induction h generalizing rest with
  | start => simp at hcalls
  | @estimated calls self hruns sample geometry ih =>
      rcases List.eq_nil_or_concat rest with rfl | ⟨rest, last, rfl⟩
      · obtain ⟨rfl, hcall⟩ := List.append_inj' hcalls rfl
        cases hcall
        exact hruns
      · rw [List.concat_eq_append, ← List.cons_append, ← List.append_assoc] at hcalls
        exact ih (List.append_inj' hcalls rfl).1
  | invalidated _ ih => exact ih hcalls
  | limited _ minimum maximum ih => exact ih hcalls

/-- An estimate that fails without a window's overflow leaves the desired size and the session. -/
theorem estimate_failed_rest (hword : geometry.deviceSizeBytes ≤ maximum)
    (hwindow : ¬ self.WindowOverflows sample geometry)
    (h : self.estimate sample geometry = (.error error, after)) :
    after.state.desiredBytes = self.state.desiredBytes ∧
      after.state.sessionId = self.state.sessionId := by
  cases estimate_exit hword h with
  | refused => exact ⟨rfl, rfl⟩
  | minimum _ _ _ hstate =>
      rcases (prepareSample_ok hstate).kept with rfl | rfl <;> exact ⟨rfl, rfl⟩
  | threshold _ _ _ hover => exact absurd hover hwindow

/-- What an answer leaves. -/
theorem estimate_ok_rest {estimate : TargetEstimate}
    (h : self.estimate sample geometry = (.ok estimate, after)) :
    after.state.desiredBytes = estimate.desiredBytes ∧ after.state.sessionId ≠ "" ∧
      0 < self.config.downwardHysteresisBytes := by
  obtain ⟨raw, prepared, minimum, haccepted, hconclude⟩ := estimate_eq_ok h
  obtain ⟨qualified, -, rfl, rfl⟩ := conclude_qualify hconclude
  refine ⟨rfl, not_blank_ne_empty haccepted.order.session, ?_⟩
  have hpolicy := haccepted.sound.fits.policy
  unfold TargetPolicyConfig.validate at hpolicy
  split_ifs at hpolicy with hzero
  omega

/-- **Failures keep the last answer's size**, as long as no window overflows. -/
theorem Runs.rests (h : Runs start calls self) {earlier : List Estimation}
    (hcalls : calls = earlier ++ first :: failed) (hfirst : first.answer = .ok previous)
    (hfailed : ∀ call ∈ failed, (∃ error, call.answer = .error error) ∧
      call.geometry.deviceSizeBytes ≤ maximum ∧
      ¬ call.before.WindowOverflows call.sample call.geometry) :
    self.state.desiredBytes = previous.desiredBytes ∧ self.state.sessionId ≠ "" := by
  induction h generalizing failed with
  | start => simp at hcalls
  | @estimated calls self hruns sample geometry ih =>
      rcases List.eq_nil_or_concat failed with rfl | ⟨failed, last, rfl⟩
      · obtain ⟨-, hcall⟩ := List.append_inj' hcalls rfl
        cases hcall
        have hestimate : self.estimate sample geometry =
            (.ok previous, (self.estimate sample geometry).2) := Prod.ext hfirst rfl
        exact ⟨(estimate_ok_rest hestimate).1, (estimate_ok_rest hestimate).2.1⟩
      · rw [List.concat_eq_append, ← List.cons_append, ← List.append_assoc] at hcalls
        obtain ⟨hbegins, hlast⟩ := List.append_inj' hcalls rfl
        cases hlast
        obtain ⟨hdesired, hsession⟩ := ih hbegins fun call hcall =>
          hfailed call (by simp [hcall])
        obtain ⟨⟨error, herror⟩, hword, hwindow⟩ := hfailed ⟨self, sample, geometry⟩ (by simp)
        have hestimate : self.estimate sample geometry =
            (.error error, (self.estimate sample geometry).2) := Prod.ext herror rfl
        obtain ⟨hkept, hsame⟩ := estimate_failed_rest hword hwindow hestimate
        exact ⟨hkept.trans hdesired, hsame ▸ hsession⟩
  | invalidated _ ih => exact ih hcalls hfailed
  | @limited calls self _ minimum maximum ih =>
      have hrest := ih hcalls hfailed
      rcases @setRamLimits_rest self minimum maximum with h | h <;> rw [h] <;> exact hrest

theorem new_initial {config : TargetPolicyConfig} (h : TargetEstimator.new config = .ok start) :
    start.state = .initial ∧ start.config = config := by
  unfold TargetEstimator.new at h
  split at h
  · cases h
  · cases h
    exact ⟨rfl, rfl⟩

/-- An aligned state stays aligned. -/
theorem Runs.aligned (h : Runs start calls self) (hstart : Aligned block start.state)
    (hfixed : ∀ call ∈ calls, call.geometry.blockSizeBytes = block) : Aligned block self.state := by
  induction h with
  | start => exact hstart
  | @estimated calls self _ sample geometry ih =>
      have hself := ih fun call hcall => hfixed call (List.mem_append_left _ hcall)
      obtain rfl := hfixed ⟨self, sample, geometry⟩ (by simp)
      exact (estimate_aligned rfl hself).1
  | invalidated _ ih => exact ⟨(ih hfixed).desired, by simp [invalidateHistory,
      TargetEstimatorState.invalidateHistory]⟩
  | @limited calls self _ minimum maximum ih =>
      have hself := ih hfixed
      rcases @setRamLimits_rest self minimum maximum with h | h <;> rw [h]
      · exact hself
      · exact ⟨hself.desired, by simp [invalidateHistory, TargetEstimatorState.invalidateHistory]⟩

/-- **What the answers of a run can be relied on for**, for one device of a fixed geometry. Every answer is
ordered, bounded and aligned. From one answer to the next the desired size falls only with cause, if no
estimate that failed between them overflowed on its window. -/
theorem estimates_ordered {config : TargetPolicyConfig}
    (hnew : TargetEstimator.new config = .ok start) (hruns : Runs start calls self)
    (hfixed : ∀ call ∈ calls, call.geometry.deviceSizeBytes = size ∧
      call.geometry.blockSizeBytes = block) (hword : size ≤ maximum) :
    (∀ call ∈ calls, ∀ estimate, call.answer = .ok estimate →
      ∃ minimum, alignUp (call.before.minRam - visibleBase call.sample call.geometry) block =
        .ok minimum ∧ Ordered estimate minimum block) ∧
    ∀ failed first second previous next, Consecutive calls failed first second previous next →
      (∀ call ∈ failed, ¬ call.before.WindowOverflows call.sample call.geometry) →
      FallsWithCause previous second next := by
  have hstart : Aligned block start.state := by
    rw [(new_initial hnew).1]
    exact ⟨dvd_zero _, by simp [TargetEstimatorState.initial]⟩
  have hordered : ∀ call ∈ calls, ∀ estimate, call.answer = .ok estimate →
      ∃ minimum, alignUp (call.before.minRam - visibleBase call.sample call.geometry) block =
        .ok minimum ∧ Ordered estimate minimum block := by
    intro call hcall estimate hanswer
    obtain ⟨earlier, rest, rfl⟩ := List.append_of_mem hcall
    have hbefore := hruns.before.aligned hstart fun other hother =>
      (hfixed other (List.mem_append_left _ hother)).2
    obtain ⟨-, rfl⟩ := hfixed call hcall
    exact (estimate_aligned rfl hbefore).2 estimate hanswer
  refine ⟨hordered, ?_⟩
  rintro failed first second previous next ⟨⟨earlier, rest, rfl⟩, hfirst, hfailed, hsecond⟩ hwindow
  -- What failed in between left the target of the first answer alone.
  obtain ⟨hdesired, hsession⟩ := hruns.before.rests rfl hfirst fun call hcall =>
    ⟨hfailed call hcall, (hfixed call (by simp [hcall])).1 ▸ hword, hwindow call hcall⟩
  obtain ⟨_, -, hprevious⟩ := hordered first (by simp) previous hfirst
  have hestimate : second.before.estimate second.sample second.geometry =
      (.ok next, second.after) := Prod.ext hsecond rfl
  obtain ⟨raw, prepared, minimum, hraw, hprepare, haccepted, hconclude⟩ :
      ∃ raw prepared minimum,
        calculateInstantaneous second.before.config second.sample.memory second.geometry = .ok raw ∧
        second.before.prepareSample second.sample = (.ok (), prepared) ∧
        second.before.Accepted second.sample second.geometry raw prepared minimum ∧
        second.before.conclude prepared second.sample second.geometry
          (second.before.limited second.sample second.geometry raw minimum) =
            (.ok next, second.after) := by
    rcases estimate_stages hestimate with ⟨error, herror, -⟩ | hstages
    · cases herror
    · exact hstages
  have hprepared : prepared.desiredBytes = previous.desiredBytes ∧ prepared.sessionId ≠ "" := by
    rcases haccepted.order.kept with rfl | rfl <;> exact ⟨hdesired, hsession⟩
  exact conclude_fallsWithCause hprepared.2 (limited_bounded hraw haccepted).desired_le hprepared.1
    hprevious.desired_le (estimate_ok_rest hestimate).2.2 hconclude

end Run

/-! ## A fall without cause

A hysteresis of half of all numbers, on a device of three quarters of them: a window that holds a need of
the whole device overflows. Two such estimates raise the desired size and fail; when the high need has
left the window, the size falls from `2 ^ 62` to `2 ^ 61`, far less than a hysteresis. -/

/-- A sample whose need is three quarters of all numbers less this much room to commit. -/
def roomSample (monotonic sequence room : Nat) : TargetSample :=
  wideSample monotonic sequence (2 ^ 62 + 2 ^ 30) (2 ^ 63 + 2 ^ 62 - room) (2 ^ 63 + 2 ^ 62)

def wideGeometry : TargetGeometry := ⟨3 * 2 ^ 62, 2 ^ 20, 2 ^ 62⟩

def wideStart : TargetEstimator := ⟨wideConfig (2 ^ 63) (2 ^ 63), 0, maximum, .initial⟩

def lowNeed : Estimation := ⟨wideStart, roomSample 1 1 (2 ^ 63 + 2 ^ 61), wideGeometry⟩

def highNeed : Estimation := ⟨lowNeed.after, roomSample 20 2 0, wideGeometry⟩

def stillHigh : Estimation := ⟨highNeed.after, roomSample 21 3 (2 ^ 63 + 2 ^ 61), wideGeometry⟩

def lowAgain : Estimation := ⟨stillHigh.after, roomSample 40 4 (2 ^ 63 + 2 ^ 61), wideGeometry⟩

theorem wide_run :
    Runs wideStart [lowNeed, highNeed, stillHigh, lowAgain] lowAgain.after :=
  .estimated (.estimated (.estimated (.estimated .start _ _) _ _) _ _) _ _

def lowAnswer : TargetEstimate := ⟨2 ^ 62, 2 ^ 62, 2 ^ 61, 0, 3 * 2 ^ 62, false, false⟩

def lowAgainAnswer : TargetEstimate := ⟨2 ^ 61, 0, 2 ^ 61, 0, 3 * 2 ^ 62, true, false⟩

theorem wide_consecutive : Consecutive [lowNeed, highNeed, stillHigh, lowAgain] [highNeed, stillHigh]
    lowNeed lowAgain lowAnswer lowAgainAnswer where
  calls := ⟨[], [], rfl⟩
  first := by decide +kernel
  failed := by
    have hhigh : highNeed.answer = .error .arithmeticOverflow := by decide +kernel
    have hstill : stillHigh.answer = .error .arithmeticOverflow := by decide +kernel
    simp [hhigh, hstill]
  second := by decide +kernel

/-- **The desired size falls without cause**, on a run of one device, when its window overflowed before. -/
theorem falls_without_cause :
    ¬ ∀ (config : TargetPolicyConfig) (start self : TargetEstimator) (calls : List Estimation)
      (size block : Nat), TargetEstimator.new config = .ok start → Runs start calls self →
      (∀ call ∈ calls, call.geometry.deviceSizeBytes = size ∧
        call.geometry.blockSizeBytes = block) → size ≤ maximum →
      ∀ failed first second previous next, Consecutive calls failed first second previous next →
        FallsWithCause previous second next := by
  intro h
  have hfixed : ∀ call ∈ [lowNeed, highNeed, stillHigh, lowAgain],
      call.geometry.deviceSizeBytes = 3 * 2 ^ 62 ∧ call.geometry.blockSizeBytes = 2 ^ 20 := by
    simp [lowNeed, highNeed, stillHigh, lowAgain, wideGeometry]
  have hfalls := h (wideConfig (2 ^ 63) (2 ^ 63)) wideStart _ _ _ _ (by decide +kernel) wide_run hfixed
    (by decide) _ _ _ _ _ wide_consecutive (by decide)
  have hhysteresis : lowAgain.before.config.downwardHysteresisBytes = 2 ^ 63 := by decide +kernel
  rw [hhysteresis] at hfalls
  rcases hfalls with ⟨-, -, hle⟩ | hlt
  · exact absurd hle (by decide)
  · exact absurd hlt (by decide)

/-! ## A fall with cause

A sample is repeated, which fails, and the limits are tightened before the next one. -/

def cappedStart : TargetEstimator := ⟨wideConfig (2 ^ 63) (2 ^ 20), 0, maximum, .initial⟩

def firstNeed : Estimation := ⟨cappedStart, roomSample 1 1 (2 ^ 63 + 2 ^ 61), wideGeometry⟩

def repeatedNeed : Estimation := ⟨firstNeed.after, firstNeed.sample, wideGeometry⟩

def cappedNeed : Estimation :=
  ⟨(repeatedNeed.after.setRamLimits 0 (2 ^ 30 + 2 ^ 61)).2, roomSample 2 2 (2 ^ 63 + 2 ^ 61),
    wideGeometry⟩

def cappedAnswer : TargetEstimate := ⟨2 ^ 61, 2 ^ 61, 2 ^ 61, 0, 2 ^ 61, false, false⟩

theorem capped_run : Runs cappedStart [firstNeed, repeatedNeed, cappedNeed] cappedNeed.after :=
  .estimated (.limited (.estimated (.estimated .start _ _) _ _) 0 (2 ^ 30 + 2 ^ 61)) _ _

/-- The desired size is ordered, and it falls with the ceiling, over a failed estimate. -/
theorem capped_ordered : (∃ minimum, alignUp (0 - (2 ^ 62 + 2 ^ 30 - 2 ^ 62)) (2 ^ 20) = .ok minimum ∧
      Ordered cappedAnswer minimum (2 ^ 20)) ∧
    cappedAnswer.desiredBytes < lowAnswer.desiredBytes ∧
    (repeatedNeed.answer.toOption = none) ∧ FallsWithCause lowAnswer cappedNeed cappedAnswer := by
  obtain ⟨hordered, hfalls⟩ := @estimates_ordered _ cappedStart _ (3 * 2 ^ 62) (2 ^ 20)
    (wideConfig (2 ^ 63) (2 ^ 20)) (by decide +kernel) capped_run
    (by simp [firstNeed, repeatedNeed, cappedNeed, wideGeometry]) (by decide)
  have hrepeated : repeatedNeed.answer =
      .error (.invalidOrdering "sample did not advance within the producer session") := by
    decide +kernel
  have hconsecutive : Consecutive [firstNeed, repeatedNeed, cappedNeed] [repeatedNeed] firstNeed
      cappedNeed lowAnswer cappedAnswer :=
    ⟨⟨[], [], rfl⟩, by decide +kernel, by simp [hrepeated], by decide +kernel⟩
  have hwindow : repeatedNeed.before.completedWindow repeatedNeed.sample repeatedNeed.geometry = [] := by
    decide +kernel
  refine ⟨hordered cappedNeed (by simp) cappedAnswer (by decide +kernel), by decide, by rw [hrepeated]; rfl,
    hfalls _ _ _ _ _ hconsecutive ?_⟩
  rintro _ hcall ⟨-, bucket, hbucket, -⟩
  rw [List.mem_singleton.mp hcall, hwindow] at hbucket
  cases hbucket

end TargetEstimator

end VirtioMem.Core
