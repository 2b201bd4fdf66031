import VirtioMem.Core.GuestPolicy

/-!
# Sizes on the block grid

A device holds whole blocks. The guest rounds once, when it computes what it needs now; from then on
it only takes minima, maxima, sums and differences of sizes, so everything the estimator remembers
stays on the grid (`OnGrid`) as long as the device keeps its block size.

Next to the grid stand the limits: `estimate_bounds` says between which device sizes an estimate
lies.
-/

namespace VirtioMem.Core

open VirtioMem.Word

variable {block : Nat}

/-- Every size the estimator remembers is a whole number of blocks. -/
structure TargetEstimatorState.OnGrid (block : Nat) (state : TargetEstimatorState) : Prop where
  desired : block ∣ state.desiredBytes
  needs : ∀ bucket ∈ state.history, block ∣ bucket.desiredNowBytes

namespace TargetEstimatorState

theorem onGrid_initial : initial.OnGrid block := ⟨dvd_zero _, by simp [initial]⟩

theorem OnGrid.sheds {before after : TargetEstimatorState} (h : before.OnGrid block)
    (hsheds : TargetEstimator.Sheds before after) : after.OnGrid block := by
  obtain ⟨hdesired, hhistory⟩ := hsheds
  refine ⟨hdesired ▸ h.desired, ?_⟩
  rcases hhistory with hnil | hsame
  · simp [hnil]
  · rw [hsame]
    exact h.needs

end TargetEstimatorState

/-! ## One estimate -/

namespace TargetEstimator

theorem new_state {config : TargetPolicyConfig} {estimator : TargetEstimator}
    (h : TargetEstimator.new config = .ok estimator) : estimator.state = .initial := by
  unfold TargetEstimator.new at h
  split at h <;> cases h
  rfl

variable {self after : TargetEstimator} {state : TargetEstimatorState} {sample : TargetSample}
  {geometry : TargetGeometry} {needs raw : InstantaneousTarget} {minimum : Nat}
  {answer : Except TargetEstimatorError TargetEstimate} {estimate : TargetEstimate}

/-- The limits of an accepted sample are on the grid, and so is the need between them. -/
theorem Accepted.limited_dvd (h : self.Accepted sample geometry raw state minimum) :
    geometry.blockSizeBytes ∣ (self.limited sample geometry raw minimum).desiredNowBytes ∧
      geometry.blockSizeBytes ∣
        (self.limited sample geometry raw minimum).effectiveMaximumBytes := by
  have hpos := Nat.pos_of_ne_zero h.sound.fits.block_pos
  have hminimum := Nat.dvd_of_mod_eq_zero (alignUp_eq_ok hpos h.aligned).2.1
  have hmaximum : geometry.blockSizeBytes ∣
      (self.limited sample geometry raw minimum).effectiveMaximumBytes := by
    show geometry.blockSizeBytes ∣ self.deviceMaximum _ _ raw.effectiveMaximumBytes
    rw [h.sound.effectiveMaximum]
    exact Nat.dvd_of_mod_eq_zero (deviceMaximum_mod h.sound.fits.block_pos)
  exact ⟨max_rec' (geometry.blockSizeBytes ∣ ·) hminimum
    (min_rec' (geometry.blockSizeBytes ∣ ·) h.sound.desired_dvd hmaximum), hmaximum⟩

/-- Folding a sample in keeps the grid: growth is a maximum of sizes on it. -/
theorem folded_onGrid (h : state.OnGrid block) (hcurrent : block ∣ geometry.currentBytes)
    (hneeds : block ∣ needs.desiredNowBytes) (hmaximum : block ∣ needs.effectiveMaximumBytes) :
    (self.folded state sample geometry needs).OnGrid block := by
  refine ⟨?_, collect_forall (block ∣ ·) ?_ hneeds⟩
  · rw [folded_desired]
    refine min_rec' (block ∣ ·) (max_rec' (block ∣ ·) ?_ hneeds) hmaximum
    split_ifs
    · exact max_rec' (block ∣ ·) hcurrent hneeds
    · rw [rebase_desired]
      exact h.desired
  · rw [raise_history]
    rcases rebase_history state (visibleBase sample geometry) with hnil | ⟨hsame, -⟩
    · simp [hnil]
    · rw [hsame]
      exact h.needs

/-- Reading the window keeps the grid: the desired size falls to a need of the window. -/
theorem conclude_onGrid (h : (self.folded state sample geometry needs).OnGrid block)
    (hconclude : self.conclude state sample geometry needs = (answer, after)) :
    after.state.OnGrid block := by
  cases answer with
  | error error =>
      unfold conclude at hconclude
      dsimp only at hconclude
      split at hconclude
      · cases hconclude
        exact h
      · cases hconclude
  | ok estimate =>
      obtain ⟨desired, floor, -, hdesired, -, rfl⟩ := conclude_eq_ok hconclude
      refine ⟨?_, h.needs⟩
      rcases hdesired with rfl | hfalls
      · exact h.desired
      · obtain ⟨bucket, hbucket, rfl⟩ := hfalls.largest
        exact h.needs bucket hbucket

/-- **An estimate keeps the grid**, whether it succeeds or not. -/
theorem estimate_onGrid (h : self.state.OnGrid geometry.blockSizeBytes)
    (hestimate : self.estimate sample geometry = (answer, after)) :
    after.state.OnGrid geometry.blockSizeBytes := by
  obtain ⟨error, -, hsheds, -⟩ | ⟨raw, prepared, minimum, haccepted, hconclude⟩ :=
    estimate_cases hestimate
  · exact h.sheds hsheds
  · have hprepared : prepared.OnGrid geometry.blockSizeBytes := by
      rcases haccepted.order.kept with rfl | rfl
      · exact h
      · exact ⟨h.desired, by simp⟩
    obtain ⟨hneeds, hmaximum⟩ := haccepted.limited_dvd
    exact conclude_onGrid (folded_onGrid hprepared
      (Nat.dvd_of_mod_eq_zero haccepted.sound.fits.current_mod) hneeds hmaximum) hconclude

/-- Between which device sizes an estimate lies. -/
structure Bounds (estimator : TargetEstimator) (sample : TargetSample) (geometry : TargetGeometry)
    (estimate : TargetEstimate) : Prop where
  fits : geometry.Fits estimator.config
  base_le : visibleBase sample geometry ≤ estimator.maxRam
  minimum_le : estimator.minRam - visibleBase sample geometry ≤ estimate.desiredBytes
  desired_le : estimate.desiredBytes ≤ estimate.effectiveMaximumBytes
  floor_le : estimate.safeFloorBytes ≤ estimate.desiredBytes
  maximum : estimate.effectiveMaximumBytes = estimator.deviceMaximum (visibleBase sample geometry)
    geometry.blockSizeBytes (maximumTargetBytes geometry.deviceSizeBytes geometry.blockSizeBytes)

/-- **An estimate lies within the RAM limits**, grown or fallen. -/
theorem estimate_bounds (h : self.estimate sample geometry = (.ok estimate, after)) :
    self.Bounds sample geometry estimate ∧ after.state.desiredBytes = estimate.desiredBytes := by
  obtain ⟨raw, prepared, minimum, haccepted, hconclude⟩ := estimate_eq_ok h
  obtain ⟨desired, floor, hfloor, hdesired, rfl, rfl⟩ := conclude_eq_ok hconclude
  have hpos := Nat.pos_of_ne_zero haccepted.sound.fits.block_pos
  have hminimum := (alignUp_eq_ok hpos haccepted.aligned).1
  obtain ⟨hlow, hhigh⟩ := @within_desired raw _ _ haccepted.minimum_le
  have hgrown := @needs_le_raise (self.limited sample geometry raw minimum)
    (rebase prepared (visibleBase sample geometry)) geometry.currentBytes hhigh
  rw [← @folded_desired self prepared sample geometry] at hgrown
  -- What is desired is at least what this very sample needs, and at most what it may grow to.
  have hneeds : (self.limited sample geometry raw minimum).desiredNowBytes ≤ desired := by
    rcases hdesired with rfl | hfalls
    · exact hgrown
    · obtain ⟨other, hother, -⟩ := hfalls.largest
      obtain ⟨bucket, hbucket, hle⟩ := le_collect (List.ne_nil_of_mem hother)
      exact le_trans hle (hfalls.bounds bucket hbucket)
  have hmaximum : desired ≤ (self.limited sample geometry raw minimum).effectiveMaximumBytes := by
    have hreach : (self.folded prepared sample geometry
        (self.limited sample geometry raw minimum)).desiredBytes ≤
          (self.limited sample geometry raw minimum).effectiveMaximumBytes := by
      rw [folded_desired]
      exact min_le_right _ _
    rcases hdesired with rfl | hfalls
    · exact hreach
    · exact le_trans hfalls.le hreach
  refine ⟨⟨haccepted.sound.fits, haccepted.base_le, ?_, hmaximum, hfloor, ?_⟩, rfl⟩
  · exact le_trans hminimum (le_trans hlow hneeds)
  · show self.deviceMaximum _ _ raw.effectiveMaximumBytes = _
    rw [haccepted.sound.effectiveMaximum]

end TargetEstimator

end VirtioMem.Core
