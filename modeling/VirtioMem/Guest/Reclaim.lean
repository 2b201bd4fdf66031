import VirtioMem.Core.History
import VirtioMem.Guest.Retry
import VirtioMem.Guest.Workload

/-!
# Reclaim converges

A guest with more memory than its workload needs gives it back in steps: every step is a removal that
the host has to grant, and while it does the device moves, samples are missing and the geometry changes.
If any of that threw the history away, every step would wait for a whole window again.

`Tracks` says what the estimator holds while one workload is observed without a gap: a history that
never loses the bucket a window begins in, and the desired size that follows from it.
`Reclaims` are the runs in which the host grants every removal in full. Along them the size falls by one
step per removal, stops at the size that is needed, and never waits again (`reclaim_converges`).
-/

namespace VirtioMem.Core

open VirtioMem.Word VirtioMem.Text VirtioMem.Result VirtioMem.Window

/-! ## A history that keeps its window -/

variable {width window began now later : Nat} {history : List CandidateHistoryEntry}

theorem spans_recordCandidate (h : Spans width window began (openings history) now)
    (hwidth : 0 < width) (entry : CandidateHistoryEntry) (hlater : now ≤ entry.monotonicMillis) :
    Spans width window began (openings (recordCandidate history width entry))
      entry.monotonicMillis := by
  rcases openings_recordCandidate history hwidth entry with heq | ⟨heq, hopen⟩ <;> rw [heq]
  · exact h.wait hlater
  · exact h.open hlater (le_of_last h.spaced hopen)

/-- The bound on the history drops a bucket only when the rest still reaches back a whole window. -/
theorem spans_capHistory (h : Spans width window began (openings history) now)
    (hwide : window ≤ width * (maxTargetHistoryEntries - 2)) :
    Spans width window began (openings (capHistory history)) now := by
  unfold capHistory
  split_ifs with hlong
  · rcases history with _ | ⟨first, _ | ⟨oldest, rest⟩⟩
    · simp at hlong
    · simp [maxTargetHistoryEntries] at hlong
    refine h.drop (List.suffix_cons _ _) ?_
    have hspaced := (List.pairwise_cons.mp h.spaced).2
    have hreach := Spans.reach hspaced fun t ht => h.past t (List.mem_cons_of_mem _ ht)
    have hlength : maxTargetHistoryEntries - 2 ≤ rest.length := by
      simp only [List.length_cons] at hlong
      omega
    have hmul := Nat.mul_le_mul_left width hlength
    rw [List.length_map, Nat.mul_comm] at hreach
    omega
  · exact h

/-- Pruning keeps the bucket the window begins in. -/
theorem spans_pruneHistory (hwidth : 0 < width) :
    ∀ {history : List CandidateHistoryEntry}, Spans width window began (openings history) now →
      Spans width window began (openings (pruneHistory now window history)) now := by
  intro history
  induction history with
  | nil => exact id
  | cons first rest ih =>
      intro h
      cases rest with
      | nil => exact h
      | cons second rest =>
          unfold pruneHistory
          split_ifs with hold
          · refine ih (h.drop (List.suffix_cons _ _) ?_)
            have hlt := (List.pairwise_cons.mp h.spaced).1 _ List.mem_cons_self
            show second.monotonicMillis + window ≤ now
            omega
          · exact h

/-! ## The estimator while one workload is observed -/

namespace TargetEstimator

variable {self after origin : TargetEstimator} {sample : TargetSample} {geometry : TargetGeometry}
  {needs : InstantaneousTarget} {state : TargetEstimatorState} {full base last sequence : Nat}
  {session : String}

/-- Every bucket holds these needs. -/
def Holds (history : List CandidateHistoryEntry) (needs : InstantaneousTarget) : Prop :=
  ∀ bucket ∈ history, bucket.desiredNowBytes = needs.desiredNowBytes ∧
    bucket.floorNowBytes = needs.floorNowBytes

theorem Holds.folded (h : Holds (rebase state (visibleBase sample geometry)).history needs) :
    Holds (self.folded state sample geometry needs).history needs := by
  intro bucket hbucket
  rcases mem_recordCandidate (mem_folded hbucket).2 with hold | rfl | ⟨old, hold, rfl⟩
  · exact h bucket hold
  · exact ⟨rfl, rfl⟩
  · simp [h old hold, candidateOf]

/-- What a whole window of these needs comes to. -/
theorem Holds.reads {history : List CandidateHistoryEntry} (h : Holds history needs)
    (hne : history ≠ []) : Reads history needs.desiredNowBytes needs.floorNowBytes := by
  obtain ⟨bucket, hbucket⟩ := List.exists_mem_of_ne_nil _ hne
  refine ⟨⟨List.mem_map.mpr ⟨bucket, hbucket, (h bucket hbucket).1⟩, fun other hother => ?_⟩,
    ⟨List.mem_map.mpr ⟨bucket, hbucket, (h bucket hbucket).2⟩, fun other hother => ?_⟩⟩
  · obtain ⟨bucket, hbucket, rfl⟩ := List.mem_map.mp hother
    exact (h bucket hbucket).1.le
  · obtain ⟨bucket, hbucket, rfl⟩ := List.mem_map.mp hother
    exact (h bucket hbucket).2.le

/-- A High sample keeps what the history spans. -/
theorem spans_folded (h : Spans self.config.bucketMillis self.config.historyWindowMillis began
      (openings (rebase state (visibleBase sample geometry)).history) now)
    (hhigh : sample.nativePressure = some .high) (hnow : now ≤ sample.monotonicMillis) :
    Spans self.config.bucketMillis self.config.historyWindowMillis began
      (openings (self.folded state sample geometry needs).history) sample.monotonicMillis := by
  rw [folded, collect_high hhigh, raise_history]
  have hwidth := bucketMillis_pos self.config
  exact spans_pruneHistory hwidth (spans_capHistory
    (spans_recordCandidate h hwidth (candidateOf sample _ _) hnow)
    (window_le_bucketMillis self.config))

/-- The first sample begins the span. -/
theorem spans_folded_first (hhistory : (rebase state (visibleBase sample geometry)).history = [])
    (hhigh : sample.nativePressure = some .high) :
    Spans self.config.bucketMillis self.config.historyWindowMillis sample.monotonicMillis
      (openings (self.folded state sample geometry needs).history) sample.monotonicMillis := by
  rw [folded, collect_high hhigh, raise_history, hhistory]
  exact Spans.begin _ _ _

theorem ready_iff_of_spans {history : List CandidateHistoryEntry}
    (h : Spans width window began (openings history) now) (hwindow : 0 < window) :
    historyIsReady history now window = true ↔ began + window ≤ now := by
  obtain ⟨oldest, rest, heq, -⟩ := h.oldest
  rcases history with _ | ⟨first, others⟩
  · cases heq
  · have hready : historyIsReady (first :: others) now window = true ↔
        first.monotonicMillis + window ≤ now := by
      simp only [historyIsReady, List.head?_cons, Bool.not_eq_true', decide_eq_false_iff_not]
      omega
    rw [hready]
    exact Spans.ready_iff h

/-- The answer to a sample whose history was folded in, and what it leaves. -/
theorem conclude_of_qualify {qualified : TargetEstimatorState}
    (h : self.qualify (self.folded state sample geometry needs)
      (historyIsReady (self.folded state sample geometry needs).history sample.monotonicMillis
        self.config.historyWindowMillis) geometry.currentBytes = .ok qualified) :
    self.conclude state sample geometry needs =
      (.ok {
        desiredBytes := qualified.desiredBytes
        safeFloorBytes := qualified.safeFloorBytes
        desiredNowBytes := needs.desiredNowBytes
        floorNowBytes := needs.floorNowBytes
        effectiveMaximumBytes := needs.effectiveMaximumBytes
        historyReady := historyIsReady (self.folded state sample geometry needs).history
          sample.monotonicMillis self.config.historyWindowMillis
        capacityLimited := needs.capacityLimited },
      { self with
        state := { qualified with
          sessionId := sample.sessionId
          lastMonotonicMillis := sample.monotonicMillis
          lastSequence := sample.sequence } }) := by
  simp only [folded] at h
  unfold conclude
  dsimp only
  rw [h]
  rfl

/-- What the desired size is while one workload is observed: the size it began with until a window is
complete, and what is needed from then on. -/
def tracked (full : Nat) (needs : InstantaneousTarget) (began window now : Nat) : Nat :=
  if began + window ≤ now then needs.desiredNowBytes else full

/-- **Tracking.** The estimator has observed one workload without a gap, from `began` to `last`. -/
structure Tracks (origin estimator : TargetEstimator) (needs : InstantaneousTarget) (full base : Nat)
    (session : String) (began last sequence : Nat) : Prop extends SameLimits origin estimator where
  session_eq : estimator.state.sessionId = session
  last_eq : estimator.state.lastMonotonicMillis = last
  sequence_eq : estimator.state.lastSequence = sequence
  base_eq : estimator.state.lastVisibleBaseBytes = some base
  holds : Holds estimator.state.history needs
  spans : Spans estimator.config.bucketMillis estimator.config.historyWindowMillis began
    (openings estimator.state.history) last
  desired : estimator.state.desiredBytes =
    tracked full needs began estimator.config.historyWindowMillis last

/-- The answer that goes with it. -/
structure Answers (estimate : TargetEstimate) (needs : InstantaneousTarget) (full : Nat)
    (began window now : Nat) : Prop where
  desired : estimate.desiredBytes = tracked full needs began window now
  ready : estimate.historyReady = true ↔ began + window ≤ now
  floor : estimate.historyReady = true → estimate.safeFloorBytes ≤ needs.desiredNowBytes

/-- The surplus is at least a hysteresis, and the whole of it is a size the device can have. -/
structure Surplus (estimator : TargetEstimator) (needs : InstantaneousTarget) (full : Nat) :
    Prop where
  hysteresis_pos : 0 < estimator.config.downwardHysteresisBytes
  window_pos : 0 < estimator.config.historyWindowMillis
  hysteresis : needs.desiredNowBytes + estimator.config.downwardHysteresisBytes ≤ full
  full_le : full ≤ needs.effectiveMaximumBytes
  word : full ≤ maximum

/-- Concluding a sample whose history spans and holds the needs. -/
theorem conclude_tracks (hsurplus : Surplus self needs full)
    (hholds : Holds (self.folded state sample geometry needs).history needs)
    (hspans : Spans self.config.bucketMillis self.config.historyWindowMillis began
      (openings (self.folded state sample geometry needs).history) sample.monotonicMillis)
    (hdesired : (self.folded state sample geometry needs).desiredBytes = full ∨
      (self.folded state sample geometry needs).desiredBytes = needs.desiredNowBytes ∧
        began + self.config.historyWindowMillis ≤ sample.monotonicMillis) :
    ∃ estimate after, self.conclude state sample geometry needs = (.ok estimate, after) ∧
      Answers estimate needs full began self.config.historyWindowMillis sample.monotonicMillis ∧
      Tracks self after needs full (visibleBase sample geometry) sample.sessionId began
        sample.monotonicMillis sample.sequence := by
  have hready := ready_iff_of_spans hspans hsurplus.window_pos
  have hbase := @folded_base self state sample geometry needs
  have hhysteresis := hsurplus.hysteresis
  have hpos := hsurplus.hysteresis_pos
  -- The target falls to the needs with the completed window, and not before.
  by_cases hcomplete : began + self.config.historyWindowMillis ≤ sample.monotonicMillis
  · have hne : (self.folded state sample geometry needs).history ≠ [] := by
      obtain ⟨oldest, rest, heq, -⟩ := hspans.oldest
      intro hnil
      rw [hnil] at heq
      cases heq
    have hreads := hholds.reads hne
    have hqualify : self.qualify (self.folded state sample geometry needs) true
        geometry.currentBytes = .ok { self.folded state sample geometry needs with
          desiredBytes := needs.desiredNowBytes
          safeFloorBytes := min needs.floorNowBytes needs.desiredNowBytes } := by
      have hthreshold : checkedAdd needs.desiredNowBytes self.config.downwardHysteresisBytes =
          some (needs.desiredNowBytes + self.config.downwardHysteresisBytes) :=
        checkedAdd_eq_some.mpr ⟨rfl, by have := hsurplus.word; omega⟩
      have hfalls : (if needs.desiredNowBytes + self.config.downwardHysteresisBytes ≤
          (self.folded state sample geometry needs).desiredBytes then needs.desiredNowBytes
          else (self.folded state sample geometry needs).desiredBytes) = needs.desiredNowBytes := by
        split_ifs <;> omega
      rw [qualify, if_pos rfl]
      refine bind_eq_ok.mpr ⟨_, windowMaximum_eq_ok.mpr hreads.desired, ?_⟩
      refine bind_eq_ok.mpr ⟨_, okOr_eq_ok.mpr hthreshold, ?_⟩
      refine bind_eq_ok.mpr ⟨_, windowMaximum_eq_ok.mpr hreads.floor, ?_⟩
      rw [hfalls]
      rfl
    have hconclude := conclude_of_qualify (by rw [hready.mpr hcomplete]; exact hqualify)
    refine ⟨_, _, hconclude, ⟨?_, hready, fun _ => min_le_right _ _⟩,
      ⟨⟨rfl, rfl, rfl⟩, rfl, rfl, rfl, hbase, hholds, hspans, ?_⟩⟩
    · exact (if_pos hcomplete).symm
    · exact (if_pos hcomplete).symm
  · have hwaits : historyIsReady (self.folded state sample geometry needs).history
        sample.monotonicMillis self.config.historyWindowMillis = false := by
      rw [Bool.eq_false_iff]
      exact fun h => hcomplete (hready.mp h)
    have hkept : (self.folded state sample geometry needs).desiredBytes = full :=
      hdesired.resolve_right fun h => hcomplete h.2
    have hqualify : self.qualify (self.folded state sample geometry needs) false
        geometry.currentBytes = .ok { self.folded state sample geometry needs with
          safeFloorBytes := min geometry.currentBytes
            (self.folded state sample geometry needs).desiredBytes } := rfl
    have hconclude := conclude_of_qualify (by rw [hwaits]; exact hqualify)
    refine ⟨_, _, hconclude, ⟨?_, hready, fun h => ?_⟩,
      ⟨⟨rfl, rfl, rfl⟩, rfl, rfl, rfl, hbase, hholds, hspans, ?_⟩⟩
    · exact hkept.trans (if_neg hcomplete).symm
    · exact absurd (hready.mp h) hcomplete
    · exact hkept.trans (if_neg hcomplete).symm

/-- An estimate whose sample is in order concludes with its needs. -/
theorem estimate_of_prepared {prepared : TargetEstimatorState}
    (hneeds : self.Needs sample geometry needs) (hword : geometry.deviceSizeBytes ≤ maximum)
    (hlimits : self.LimitsMet sample geometry)
    (hprepare : self.prepareSample sample = (.ok (), prepared)) :
    self.estimate sample geometry = self.conclude prepared sample geometry needs := by
  obtain ⟨raw, minimum, hraw, hminimum, rfl⟩ := hneeds
  have hsound := calculateInstantaneous_sound hraw
  have hmet := (limitsMet_iff hsound.fits hword hminimum).mp hlimits
  rw [← hsound.effectiveMaximum] at hmet
  unfold estimate
  rw [hraw]
  dsimp only
  rw [hprepare]
  dsimp only
  rw [hminimum]
  dsimp only
  rw [if_neg (by omega)]
  rfl

theorem rebase_same (h : state.lastVisibleBaseBytes = some base) : rebase state base = state := by
  unfold rebase
  rw [h]
  obtain ⟨_, _, _, _, _, _, _⟩ := state
  simp only at h
  simp [h]

/-- **The first sample begins to track.** -/
theorem estimate_begins (hfresh : self.state = .initial) (hneeds : self.Needs sample geometry needs)
    (hword : geometry.deviceSizeBytes ≤ maximum) (hlimits : self.LimitsMet sample geometry)
    (hsurplus : Surplus self needs geometry.currentBytes)
    (hhigh : sample.nativePressure = some .high) (hsession : isBlank sample.sessionId = false) :
    ∃ estimate after, self.estimate sample geometry = (.ok estimate, after) ∧
      Answers estimate needs geometry.currentBytes sample.monotonicMillis
        self.config.historyWindowMillis sample.monotonicMillis ∧
      Tracks self after needs geometry.currentBytes (visibleBase sample geometry) sample.sessionId
        sample.monotonicMillis sample.monotonicMillis sample.sequence := by
  have hprepare : self.prepareSample sample = (.ok (), .initial) := by
    unfold prepareSample
    rw [if_neg (by simp [hsession]), hfresh]
    exact if_pos rfl
  rw [estimate_of_prepared hneeds hword hlimits hprepare]
  have hhistory : (rebase .initial (visibleBase sample geometry)).history = [] := rfl
  have hle := hsurplus.full_le
  have hhysteresis := hsurplus.hysteresis
  refine conclude_tracks hsurplus (Holds.folded (by simp [Holds, hhistory]))
    (spans_folded_first hhistory hhigh) (.inl ?_)
  rw [folded_desired, raise, if_pos (by rw [rebase_session]; rfl)]
  simp only
  omega

/-- **Every further sample goes on.** -/
theorem Tracks.estimated {began : Nat}
    (h : Tracks origin self needs full base session began last sequence)
    (hneeds : self.Needs sample geometry needs) (hword : geometry.deviceSizeBytes ≤ maximum)
    (hlimits : self.LimitsMet sample geometry) (hbase : visibleBase sample geometry = base)
    (hsurplus : Surplus self needs full) (hhigh : sample.nativePressure = some .high)
    (hsession : sample.sessionId = session) (hblank : isBlank session = false)
    (hsequence : sequence < sample.sequence) (htime : last < sample.monotonicMillis)
    (hgap : sample.monotonicMillis - last ≤ self.config.maximumGapMillis) :
    ∃ estimate after, self.estimate sample geometry = (.ok estimate, after) ∧
      Answers estimate needs full began self.config.historyWindowMillis sample.monotonicMillis ∧
      Tracks origin after needs full base session began sample.monotonicMillis sample.sequence := by
  subst hsession hbase
  have hne := not_blank_ne_empty hblank
  -- The sample is in order, so nothing is forgotten before it.
  have hprepare : self.prepareSample sample = (.ok (), self.state) := by
    unfold prepareSample
    rw [if_neg (by simp [hblank]), if_neg (by rw [h.session_eq]; exact hne),
      if_neg (by rw [h.session_eq]; simp), if_neg (by rw [h.sequence_eq, h.last_eq]; omega),
      if_neg (by rw [h.last_eq]; omega)]
  rw [estimate_of_prepared hneeds hword hlimits hprepare]
  have hrebase := rebase_same h.base_eq
  have hholds : Holds (self.folded self.state sample geometry needs).history needs :=
    Holds.folded (by rw [hrebase]; exact h.holds)
  have hspans := @spans_folded began last self sample geometry needs self.state
    (by rw [hrebase]; exact h.spans) hhigh htime.le
  have hle := hsurplus.full_le
  have hhysteresis := hsurplus.hysteresis
  obtain ⟨estimate, after, hconclude, hanswers, htracks⟩ := conclude_tracks hsurplus hholds hspans (by
    rw [folded_desired, hrebase, raise, if_neg (by rw [h.session_eq]; exact hne)]
    have hdesired := h.desired
    unfold tracked at hdesired
    split_ifs at hdesired with hcomplete
    · right
      simp only [hdesired]
      omega
    · left
      simp only [hdesired]
      omega)
  refine ⟨estimate, after, hconclude, hanswers, ⟨⟨?_, ?_, ?_⟩, htracks.session_eq, htracks.last_eq,
    htracks.sequence_eq, htracks.base_eq, htracks.holds, htracks.spans, htracks.desired⟩⟩
  · exact htracks.config.trans h.config
  · exact htracks.minRam.trans h.minRam
  · exact htracks.maxRam.trans h.maxRam

end TargetEstimator

/-! ## The runs -/

open GuestRequester

/-- A fresh requester with a surplus: its policy fits the device in whole blocks, its RAM is within the
limits, and the device is at least a hysteresis larger than `first` needs it to be. -/
structure Setting where
  policy : GuestMemoryPolicy
  vm : String
  service : String
  session : String
  start : GuestRequester
  fresh : GuestRequester
  first : TargetSample
  geometry : TargetGeometry
  needs : InstantaneousTarget
  new : GuestRequester.new policy vm service session .initial = .ok start
  untouched : Polls start [] fresh
  needed : fresh.estimator.Needs first geometry needs
  word : geometry.deviceSizeBytes ≤ maximum
  steps : policy.growStepBytes % geometry.blockSizeBytes = 0 ∧
    policy.shrinkStepBytes % geometry.blockSizeBytes = 0
  within : fresh.estimator.minRam ≤ first.memory.physicalTotalBytes ∧
    first.memory.physicalTotalBytes ≤ fresh.estimator.maxRam
  surplus : needs.desiredNowBytes + policy.target.downwardHysteresisBytes ≤ geometry.currentBytes
  named : isBlank first.sessionId = false

namespace Setting

/-- The size the device has at first, and the one that is needed. -/
def full (s : Setting) : Nat := s.geometry.currentBytes

def goal (s : Setting) : Nat := s.needs.desiredNowBytes

def step (s : Setting) : Nat := s.policy.shrinkStepBytes

/-- The size after so many removals. -/
def sizeAfter (s : Setting) (removals : Nat) : Nat := max (s.full - removals * s.step) s.goal

end Setting

/-- The poll finds a fresh status of a device that is not moving. -/
def Poll.converged (p : Poll) : Bool :=
  (p.before.convergedStatus p.sample.observedUnixMillis p.status).isSome

/-- The request a poll issues. -/
def Poll.request (p : Poll) : Option MemoryRequest :=
  match p.answer with
  | .ok ⟨some request, true, none⟩ => some request
  | _ => none

/-- Nothing is retained, and the poll's estimate is based on a whole window. -/
def Poll.qualified (p : Poll) : Bool :=
  p.before.state.pending.isNone &&
    match (p.before.assess p.sample p.status).1 with
    | .ok (some estimate) => estimate.historyReady
    | _ => false

/-- What the guest sees of the device at rest: one workload, with memory and device resized together,
in order and without a gap. While a removal is awaited the device has its old size or its new one. -/
structure Seen (s : Setting) (polls : List Poll) (requester : GuestRequester) (size : Nat)
    (sample : TargetSample) (live : HostMemoryStatus) : Prop where
  session : sample.sessionId = s.first.sessionId
  counters : sample.memory.Valid
  workload : Grown (s.full - live.currentBytes) sample.memory s.first.memory (geometryOf live)
    s.geometry
  size : live.currentBytes = size ∨ ∃ request, requester.state.pending = some request ∧
    live.currentBytes = size - request.bytes
  order : ∀ previous, (polls.filter Poll.converged).getLast? = some previous →
    previous.sample.sequence < sample.sequence ∧
      previous.sample.monotonicMillis < sample.monotonicMillis ∧
      sample.monotonicMillis - previous.sample.monotonicMillis ≤
        s.policy.target.maximumGapMillis

/-- One more poll: under High, with a fresh status and an advancing wall clock, of a device that is
moving or seen as above. A result for the retained removal grants it in full. -/
structure Watches (s : Setting) (polls : List Poll) (requester : GuestRequester) (size : Nat)
    (sample : TargetSample) (live : HostMemoryStatus) : Prop where
  valid : live.validateFor s.vm s.service = .ok ()
  fresh : live.freshAt sample.observedUnixMillis s.policy.hostStatusMaxAgeMillis = true
  high : sample.nativePressure = some .high
  clock : ∀ previous ∈ polls,
    previous.sample.observedUnixMillis < sample.observedUnixMillis
  lifetime : sample.observedUnixMillis + s.policy.requestLifetimeMillis ≤ maximum
  seen : live.requestedBytes = live.currentBytes → Seen s polls requester size sample live
  granted : ∀ request result, requester.state.pending = some request → live.result = some result →
    result.request = request → result.terminal = true → result.outcome = .completed ∧
      (live.requestedBytes = live.currentBytes → live.currentBytes = size - request.bytes)

/-- The size the device rests at once a removal is resolved. -/
def settledSize (size : Nat) (before after : GuestRequester) : Nat :=
  match before.state.pending, after.state.pending with
  | some request, none => size - request.bytes
  | _, _ => size

/-- The runs of a requester that is watched this way, with the size the device rests at. -/
inductive Reclaims (s : Setting) : List Poll → Nat → GuestRequester → Prop
  | start : Reclaims s [] s.full s.fresh
  | polled {polls : List Poll} {size : Nat} {self : GuestRequester} (h : Reclaims s polls size self)
      (sample : TargetSample) (live : HostMemoryStatus)
      (hwatches : Watches s polls self size sample live) :
      Reclaims s (polls ++ [⟨self, sample, some live⟩])
        (settledSize size self (self.poll sample (some live)).2) (self.poll sample (some live)).2

/-! ## What the setting says -/

namespace Setting

variable (s : Setting)

theorem config_eq : s.fresh.estimator.config = s.policy.target := by
  obtain ⟨-, -, -, -, -, -, -, hconfig⟩ := new_eq_ok s.new
  have hrun := s.untouched
  generalize hpolls : ([] : List Poll) = polls at hrun
  rw [← hconfig]
  clear hconfig
  generalize s.fresh = fresh at hrun
  induction hrun with
  | start => rfl
  | polled => simp at hpolls
  | invalidated _ ih => exact ih hpolls
  | @limited polls self _ minimum maximum ih =>
      show (self.estimator.setRamLimits minimum maximum).2.config = _
      rcases @TargetEstimator.setRamLimits_rest self.estimator minimum maximum with h | h <;>
        rw [h] <;> exact ih hpolls

theorem state_eq : s.fresh.estimator.state = .initial := by
  obtain ⟨-, -, -, -, -, -, hestimator, -⟩ := new_eq_ok s.new
  exact s.untouched.fresh (TargetEstimator.new_initial hestimator).1

theorem measures : s.first.memory.Measures s.policy.target s.geometry := by
  obtain ⟨raw, _, hraw, -⟩ := s.needed
  rw [s.config_eq] at hraw
  exact calculateInstantaneous_measures hraw

theorem step_pos : 0 < s.step := by
  have hpolicy := (new_valid s.new).1
  unfold GuestMemoryPolicy.validate at hpolicy
  split at hpolicy
  · cases hpolicy
  split_ifs at hpolicy with hsteps
  exact Nat.pos_of_ne_zero fun hzero => hsteps (.inr (.inl hzero))

/-- What the host grants leaves this size: one step less, or what is needed. -/
theorem sizeAfter_succ (removals : Nat) :
    s.sizeAfter (removals + 1) = max (s.sizeAfter removals - s.step) s.goal := by
  unfold sizeAfter
  rw [Nat.add_mul, Nat.one_mul]
  omega

theorem goal_le : s.goal ≤ s.full := le_trans (Nat.le_add_right _ _) s.surplus

theorem sizeAfter_zero : s.sizeAfter 0 = s.full := by
  have := s.goal_le
  unfold sizeAfter
  omega

theorem sizeAfter_le (removals : Nat) :
    s.goal ≤ s.sizeAfter removals ∧ s.sizeAfter removals ≤ s.full := by
  have := s.goal_le
  unfold sizeAfter
  omega

end Setting

/-! ## What one poll sees -/

section Poll

variable {s : Setting} {polls : List Poll} {self : GuestRequester} {size : Nat}
  {sample : TargetSample} {live : HostMemoryStatus} {estimator : TargetEstimator}

/-- What an accepted status says about its device. -/
theorem valid_of_validateFor {vm service : String} (h : live.validateFor vm service = .ok ()) :
    live.device.Valid := by
  unfold HostMemoryStatus.validateFor at h
  split_ifs at h
  split at h
  · cases h
  · next hvalid => exact VirtioMemState.validate_eq_ok.mp hvalid

theorem Seen.current_le (h : Seen s polls self size sample live) : live.currentBytes ≤ s.full := by
  have hcurrent : s.full = live.currentBytes + (s.full - live.currentBytes) := h.workload.current
  omega

theorem Seen.measures (h : Seen s polls self size sample live) (hvalid : live.device.Valid) :
    sample.memory.Measures s.policy.target (geometryOf live) := by
  have hfirst := s.measures
  have hfits := hfirst.fits
  have hle := h.current_le
  have hdevice : s.geometry.deviceSizeBytes = (geometryOf live).deviceSizeBytes := h.workload.device
  have hblock : s.geometry.blockSizeBytes = (geometryOf live).blockSizeBytes := h.workload.block
  have htotal := h.workload.total
  have havailable := h.workload.available
  have hbase := hfirst.base
  have hphysical := hfirst.physical
  have hcommit := hfirst.commit
  change s.full ≤ _ at hbase
  change s.full + _ ≤ _ at hcommit
  refine ⟨⟨hfits.policy, ?_, ?_, ?_, hvalid.current_mod, ?_, ?_, ?_, ?_⟩, h.counters, ?_, ?_, ?_⟩
  · rw [← hdevice]
    exact hfits.size_pos
  · rw [← hblock]
    exact hfits.block_pos
  · rw [← hblock]
    exact hfits.block_pow
  · rw [← hdevice, ← hblock]
    exact hle.trans hfits.current_le
  · rw [← hblock]
    exact hfits.minimum_mod
  · rw [← hdevice, ← hblock]
    exact hfits.minimum_le
  · rw [← hblock]
    exact hfits.reserves
  · show live.currentBytes ≤ _
    omega
  · omega
  · show live.currentBytes + _ ≤ _
    omega

/-- Above its base the device may have its full size. -/
theorem full_le_deviceMaximum (hlimits : TargetEstimator.SameLimits s.fresh.estimator estimator) :
    s.full ≤ estimator.deviceMaximum (TargetEstimator.visibleBase s.first s.geometry)
      s.geometry.blockSizeBytes
      (maximumTargetBytes s.geometry.deviceSizeBytes s.geometry.blockSizeBytes) := by
  have hfits := s.measures.fits
  have hbase := s.measures.base
  obtain ⟨-, hmax⟩ := s.within
  unfold TargetEstimator.deviceMaximum TargetEstimator.visibleBase
  rw [hlimits.maxRam]
  refine le_min ?_ hfits.current_le
  have hroom : s.full ≤ s.fresh.estimator.maxRam -
      (s.first.memory.physicalTotalBytes - s.geometry.currentBytes) := by
    show s.geometry.currentBytes ≤ _
    omega
  have hdvd : s.full / s.geometry.blockSizeBytes * s.geometry.blockSizeBytes = s.full :=
    Nat.div_mul_cancel (Nat.dvd_of_mod_eq_zero hfits.current_mod)
  rw [← hdvd]
  exact Nat.mul_le_mul_right _ (Nat.div_le_div_right hroom)

/-- **A device at rest shows the estimator the same needs**, within limits that can be met. -/
theorem Seen.needs (h : Seen s polls self size sample live) (hvalid : live.device.Valid)
    (hlimits : TargetEstimator.SameLimits s.fresh.estimator estimator) :
    estimator.Needs sample (geometryOf live) s.needs ∧ estimator.LimitsMet sample (geometryOf live) ∧
      TargetEstimator.visibleBase sample (geometryOf live) =
        TargetEstimator.visibleBase s.first s.geometry := by
  have hbase : TargetEstimator.visibleBase sample (geometryOf live) =
      TargetEstimator.visibleBase s.first s.geometry := h.workload.base.symm
  have hconfig : estimator.config = s.policy.target := hlimits.config.trans s.config_eq
  refine ⟨?_, ?_, hbase⟩
  · exact (hlimits.needs_of s.needed).of_resized ⟨_, .inr h.workload⟩
      (hconfig ▸ h.measures hvalid)
  · have hfull := full_le_deviceMaximum hlimits
    have hmeasures := s.measures.base
    obtain ⟨hmin, hmax⟩ := s.within
    unfold TargetEstimator.LimitsMet
    rw [hbase, ← h.workload.block, ← h.workload.device, hlimits.minRam, hlimits.maxRam]
    unfold TargetEstimator.visibleBase at *
    change s.full ≤ _ at hmeasures
    have hcurrent : s.geometry.currentBytes = s.full := rfl
    omega

theorem surplus_of_setting (hlimits : TargetEstimator.SameLimits s.fresh.estimator estimator) :
    TargetEstimator.Surplus estimator s.needs s.full := by
  have hconfig : estimator.config = s.policy.target := hlimits.config.trans s.config_eq
  have hfits := s.measures.fits
  obtain ⟨raw, minimum, hraw, -, hneeds⟩ := hlimits.needs_of s.needed
  have hpolicy := hfits.policy
  unfold TargetPolicyConfig.validate at hpolicy
  split_ifs at hpolicy with hzero
  refine ⟨?_, ?_, hconfig ▸ s.surplus, ?_, ?_⟩
  · rw [hconfig]; omega
  · rw [hconfig]; omega
  · rw [hneeds]
    have heffective := (calculateInstantaneous_sound hraw).effectiveMaximum
    show s.full ≤ estimator.deviceMaximum _ _ raw.effectiveMaximumBytes
    rw [heffective]
    exact full_le_deviceMaximum hlimits
  · exact (hfits.current_le.trans (maximumTargetBytes_le _ _)).trans s.word

/-- What the estimator holds after these polls. -/
inductive Tracking (s : Setting) (polls : List Poll) (estimator : TargetEstimator) : Prop
  | unseen (h : polls.filter Poll.converged = []) (hfresh : estimator = s.fresh.estimator)
  | seen {first last : Poll} (hfirst : (polls.filter Poll.converged).head? = some first)
      (hlast : (polls.filter Poll.converged).getLast? = some last)
      (h : TargetEstimator.Tracks s.fresh.estimator estimator s.needs s.full
        (TargetEstimator.visibleBase s.first s.geometry) s.first.sessionId
        first.sample.monotonicMillis last.sample.monotonicMillis last.sample.sequence)

theorem Tracking.limits (h : Tracking s polls estimator) :
    TargetEstimator.SameLimits s.fresh.estimator estimator := by
  cases h with
  | unseen _ hfresh => exact hfresh ▸ ⟨rfl, rfl, rfl⟩
  | seen _ _ h => exact h.toSameLimits

/-- When the estimates of a run began. -/
def beganAt (polls : List Poll) : Nat :=
  ((polls.filter Poll.converged).head?.map (·.sample.monotonicMillis)).getD 0

/-- A moving device changes nothing. -/
theorem assess_moving (hvm : self.vmName = s.vm) (hservice : self.serviceName = s.service)
    (hpolicy : self.policy = s.policy) (hwatches : Watches s polls self size sample live)
    (hmoving : live.requestedBytes ≠ live.currentBytes) :
    self.assess sample (some live) = (.ok none, self) := by
  have hfresh : self.freshStatus sample.observedUnixMillis (some live) = some live :=
    freshStatus_eq_some.mpr ⟨rfl, hvm ▸ hservice ▸ hwatches.valid, hpolicy ▸ hwatches.fresh⟩
  have hconverged : self.convergedStatus sample.observedUnixMillis (some live) = none := by
    unfold convergedStatus
    rw [hfresh]
    simp [Option.filter, hmoving]
  unfold assess
  rw [hconverged]
  dsimp only
  rw [hfresh, if_neg (by simp [hwatches.high])]

/-- **A device at rest goes on with the track.** -/
theorem assess_resting (hvm : self.vmName = s.vm) (hservice : self.serviceName = s.service)
    (hpolicy : self.policy = s.policy) (htracking : Tracking s polls self.estimator)
    (hstart : polls.filter Poll.converged = [] → size = s.full ∧ self.state.pending = none)
    (hwatches : Watches s polls self size sample live)
    (hresting : live.requestedBytes = live.currentBytes) :
    ∃ estimate estimator, self.assess sample (some live) =
        (.ok (some estimate), { self with estimator }) ∧
      TargetEstimator.Answers estimate s.needs s.full (beganAt (polls ++ [⟨self, sample, some live⟩]))
        s.policy.target.historyWindowMillis sample.monotonicMillis ∧
      Tracking s (polls ++ [⟨self, sample, some live⟩]) estimator := by
  have hseen := hwatches.seen hresting
  have hvalid := valid_of_validateFor hwatches.valid
  obtain ⟨hneeds, hmet, hbase⟩ := hseen.needs hvalid htracking.limits
  have hsurplus := surplus_of_setting htracking.limits
  have hconfig : self.estimator.config = s.policy.target :=
    htracking.limits.config.trans s.config_eq
  have hword : (geometryOf live).deviceSizeBytes ≤ maximum := by
    have hdevice : s.geometry.deviceSizeBytes = live.deviceSizeBytes := hseen.workload.device
    show live.deviceSizeBytes ≤ maximum
    exact hdevice ▸ s.word
  have hlive : self.convergedStatus sample.observedUnixMillis (some live) = some live :=
    convergedStatus_eq_some.mpr
      ⟨rfl, hvm ▸ hservice ▸ hwatches.valid, hpolicy ▸ hwatches.fresh, hresting⟩
  have hconverged : (⟨self, sample, some live⟩ : Poll).converged = true := by
    unfold Poll.converged
    rw [hlive]
    rfl
  have hfilter : (polls ++ [Poll.mk self sample (some live)]).filter Poll.converged =
      polls.filter Poll.converged ++ [Poll.mk self sample (some live)] := by
    simp [hconverged]
  rw [assess_converged hlive]
  -- The first such sample begins the track.
  cases htracking with
  | unseen hnone hfresh =>
      obtain ⟨hsize, hidle⟩ := hstart hnone
      have hcurrent : (geometryOf live).currentBytes = s.full := by
        rcases hseen.size with h | ⟨request, hpending, -⟩
        · exact h.trans hsize
        · rw [hidle] at hpending
          cases hpending
      obtain ⟨estimate, after, hestimate, hanswers, htracks⟩ := TargetEstimator.estimate_begins
        (hfresh ▸ s.state_eq) hneeds hword hmet (hcurrent.symm ▸ hsurplus) hwatches.high
        (hseen.session ▸ s.named)
      rw [hestimate]
      refine ⟨estimate, after, rfl, ?_, .seen (by rw [hfilter, hnone]; rfl)
        (by rw [hfilter, List.getLast?_concat]) ?_⟩
      · unfold beganAt
        rw [hfilter, hnone, ← hcurrent, ← hconfig]
        exact hanswers
      · rw [hcurrent, hbase, hseen.session, hfresh] at htracks
        exact htracks
  | @seen first last hfirst hlast htracks =>
      obtain ⟨hsequence, htime, hgap⟩ := hseen.order last hlast
      obtain ⟨estimate, after, hestimate, hanswers, htracks⟩ := htracks.estimated hneeds hword hmet
        hbase hsurplus hwatches.high hseen.session s.named hsequence htime (hconfig ▸ hgap)
      rw [hestimate]
      have hhead : ((polls ++ [Poll.mk self sample (some live)]).filter Poll.converged).head? =
          some first := by
        rw [hfilter, List.head?_append, hfirst]
        rfl
      refine ⟨estimate, after, rfl, ?_, .seen hhead (by rw [hfilter, List.getLast?_concat]) htracks⟩
      unfold beganAt
      rw [hhead, ← hconfig]
      exact hanswers

/-! ## What one poll answers -/

/-- Before its first poll a requester has changed nothing but its estimator. -/
theorem GuestRequester.Polls.untouched {start fresh : GuestRequester} (h : Polls start [] fresh) :
    ∃ estimator, fresh = { start with estimator } := by
  generalize hpolls : ([] : List Poll) = polls at h
  induction h with
  | start => exact ⟨_, rfl⟩
  | polled => simp at hpolls
  | invalidated _ ih =>
      obtain ⟨estimator, rfl⟩ := ih hpolls
      exact ⟨_, rfl⟩
  | limited _ minimum maximum ih =>
      obtain ⟨estimator, rfl⟩ := ih hpolls
      unfold setRamLimits
      split
      exact ⟨_, rfl⟩

/-- **What a run has come to** after this many removals. -/
structure Reclaiming (s : Setting) (polls : List Poll) (size : Nat) (requester : GuestRequester)
    (removals : Nat) : Prop where
  policy_eq : requester.policy = s.policy
  vm_eq : requester.vmName = s.vm
  service_eq : requester.serviceName = s.service
  session_eq : requester.sessionId = s.session
  sequence : requester.nextSequence = removals
  retry : requester.retry = none
  tracking : Tracking s polls requester.estimator
  watermark : requester.state.lastIssuedUnixMillis = 0 ∨
    ∃ p ∈ polls, requester.state.lastIssuedUnixMillis = p.sample.observedUnixMillis
  idle : requester.state.pending = none → size = s.sizeAfter removals
  retained : ∀ request, requester.state.pending = some request → 0 < removals ∧
    size = s.sizeAfter (removals - 1) ∧ size - request.bytes = s.sizeAfter removals
  begun : 0 < removals → ∃ first last, (polls.filter Poll.converged).head? = some first ∧
    (polls.filter Poll.converged).getLast? = some last ∧
    first.sample.monotonicMillis + s.policy.target.historyWindowMillis ≤ last.sample.monotonicMillis

/-- What an estimate of a resting device says while the run goes on: nothing is desired but the size
it has, until a window is complete. -/
structure Estimates (s : Setting) (polls : List Poll) (size : Nat) (sample : TargetSample)
    (estimate : TargetEstimate) : Prop where
  ready : estimate.historyReady = true ↔
    beganAt polls + s.policy.target.historyWindowMillis ≤ sample.monotonicMillis
  waits : estimate.historyReady = false → estimate.desiredBytes = size
  falls : estimate.historyReady = true →
    estimate.desiredBytes = s.goal ∧ estimate.safeFloorBytes ≤ s.goal

/-- The first part of one more poll. -/
inductive Assessed (s : Setting) (polls : List Poll) (size : Nat) (self : GuestRequester)
    (sample : TargetSample) (live : HostMemoryStatus) : Prop
  | moving (hmoving : live.requestedBytes ≠ live.currentBytes)
      (h : self.assess sample (some live) = (.ok none, self))
      (hconverged : (Poll.mk self sample (some live)).converged = false)
  | resting (estimate : TargetEstimate) (estimator : TargetEstimator)
      (hresting : live.requestedBytes = live.currentBytes)
      (h : self.assess sample (some live) = (.ok (some estimate), { self with estimator }))
      (hconverged : (Poll.mk self sample (some live)).converged = true)
      (hestimates : self.state.pending = none →
        Estimates s (polls ++ [⟨self, sample, some live⟩]) size sample estimate)
      (htracking : Tracking s (polls ++ [⟨self, sample, some live⟩]) estimator)

variable {removals : Nat}

theorem converged_iff (hvm : self.vmName = s.vm) (hservice : self.serviceName = s.service)
    (hpolicy : self.policy = s.policy) (hwatches : Watches s polls self size sample live) :
    (Poll.mk self sample (some live)).converged = true ↔
      live.requestedBytes = live.currentBytes := by
  unfold Poll.converged
  rw [Option.isSome_iff_exists]
  constructor
  · rintro ⟨found, hfound⟩
    obtain ⟨hsame, -, -, hresting⟩ := convergedStatus_eq_some.mp hfound
    cases hsame
    exact hresting
  · intro hresting
    exact ⟨live, convergedStatus_eq_some.mpr
      ⟨rfl, hvm ▸ hservice ▸ hwatches.valid, hpolicy ▸ hwatches.fresh, hresting⟩⟩

theorem filter_converged_concat {p : Poll} (h : p.converged = true) :
    (polls ++ [p]).filter Poll.converged = polls.filter Poll.converged ++ [p] := by
  simp [h]

theorem filter_moving_concat {p : Poll} (h : p.converged = false) :
    (polls ++ [p]).filter Poll.converged = polls.filter Poll.converged := by
  simp [h]

/-- A run began with the first poll that found the device at rest. -/
theorem beganAt_eq {first : Poll} (h : (polls.filter Poll.converged).head? = some first) :
    beganAt polls = first.sample.monotonicMillis := by
  unfold beganAt
  rw [h]
  rfl

theorem head?_concat {p first : Poll} (h : (polls.filter Poll.converged).head? = some first) :
    ((polls ++ [p]).filter Poll.converged).head? = some first := by
  rw [List.filter_append, List.head?_append, h]
  rfl

/-- Nothing is removed before a window is complete. -/
theorem Reclaiming.size_eq (h : Reclaiming s polls size self removals)
    (hwatches : Watches s polls self size sample live) (hidle : self.state.pending = none)
    (hresting : live.requestedBytes = live.currentBytes)
    (hwaits : ¬ beganAt (polls ++ [⟨self, sample, some live⟩]) +
      s.policy.target.historyWindowMillis ≤ sample.monotonicMillis) : size = s.full := by
  have hnone : removals = 0 := by
    by_contra hsome
    obtain ⟨first, last, hfirst, hlast, hbegun⟩ := h.begun (Nat.pos_of_ne_zero hsome)
    obtain ⟨-, htime, -⟩ := (hwatches.seen hresting).order last hlast
    rw [beganAt_eq (head?_concat hfirst)] at hwaits
    omega
  rw [h.idle hidle, hnone, s.sizeAfter_zero]

/-- The first part of a poll goes on with the run. -/
theorem Reclaiming.assessed (h : Reclaiming s polls size self removals)
    (hwatches : Watches s polls self size sample live) : Assessed s polls size self sample live := by
  have hiff := converged_iff h.vm_eq h.service_eq h.policy_eq hwatches
  by_cases hresting : live.requestedBytes = live.currentBytes
  · have hstart : polls.filter Poll.converged = [] → size = s.full ∧ self.state.pending = none := by
      intro hnone
      have hzero : removals = 0 := by
        by_contra hsome
        obtain ⟨first, -, hfirst, -⟩ := h.begun (Nat.pos_of_ne_zero hsome)
        rw [hnone] at hfirst
        cases hfirst
      have hidle : self.state.pending = none := by
        cases hpending : self.state.pending with
        | none => rfl
        | some request => exact absurd (h.retained request hpending).1 (by omega)
      exact ⟨by rw [h.idle hidle, hzero, s.sizeAfter_zero], hidle⟩
    obtain ⟨estimate, estimator, hassess, hanswers, htracking⟩ := assess_resting h.vm_eq
      h.service_eq h.policy_eq h.tracking hstart hwatches hresting
    refine .resting estimate estimator hresting hassess (hiff.mpr hresting)
      (fun hidle => ⟨hanswers.ready, fun hwaits => ?_, fun hready => ?_⟩) htracking
    · have hincomplete : ¬ _ := fun hcomplete => by
        rw [hanswers.ready.mpr hcomplete] at hwaits
        cases hwaits
      rw [hanswers.desired, h.size_eq hwatches hidle hresting hincomplete]
      exact if_neg hincomplete
    · exact ⟨hanswers.desired.trans (if_pos (hanswers.ready.mp hready)), hanswers.floor hready⟩
  · exact .moving hresting (assess_moving h.vm_eq h.service_eq h.policy_eq hwatches hresting)
      (Bool.eq_false_iff.mpr fun hconverged => hresting (hiff.mp hconverged))

section Parts

variable {status : Option HostMemoryStatus} {estimator : TargetEstimator}

/-- The rest of a poll with a retained request. -/
theorem poll_retained {answer : Option TargetEstimate} {request : MemoryRequest}
    (h : self.assess sample status = (.ok answer, { self with estimator }))
    (hpending : self.state.pending = some request) :
    self.poll sample status =
      ((.ok (({ self.flagged sample with estimator } : GuestRequester).consume request
          (self.accepted status) sample.monotonicMillis).1),
        (({ self.flagged sample with estimator } : GuestRequester).consume request
          (self.accepted status) sample.monotonicMillis).2) := by
  rw [poll_eq, assess_flagged, h]
  dsimp only
  rw [hpending]
  rfl

/-- The rest of a poll without one: it plans on its estimate. -/
theorem poll_planned {estimate : TargetEstimate}
    (h : self.assess sample status = (.ok (some estimate), { self with estimator }))
    (hidle : self.state.pending = none)
    (hlive : self.freshStatus sample.observedUnixMillis status = some live) :
    self.poll sample status =
      ({ self.flagged sample with estimator } : GuestRequester).propose sample live estimate
        (sensed ⟨self, sample, status⟩) := by
  rw [poll_eq, assess_flagged, h]
  dsimp only
  rw [hidle]
  dsimp only
  rw [show ({ self with
      estimator := estimator
      nativeLow := sample.nativePressure == some .low
      numericCritical := self.critical sample } : GuestRequester).freshStatus
        sample.observedUnixMillis status = some live from hlive]
  rfl

/-- Without an estimate it holds. -/
theorem poll_waits (h : self.assess sample status = (.ok none, { self with estimator }))
    (hidle : self.state.pending = none) :
    self.poll sample status = (.ok hold, { self.flagged sample with estimator }) := by
  rw [poll_eq, assess_flagged, h]
  dsimp only
  rw [hidle]
  dsimp only
  split
  · next hnone => cases hnone
  · rfl

end Parts

/-- The removal that is due. -/
def removal (s : Setting) (size : Nat) (p : Poll) : MemoryRequest :=
  p.before.nextRequest .remove (min s.step (size - s.goal)) p.sample.observedUnixMillis
    (p.sample.observedUnixMillis + s.policy.requestLifetimeMillis)

/-- **Everything a poll of such a run can do**, where `assessed` is the requester after its first
part. -/
inductive Turn (s : Setting) (size : Nat) (p : Poll) (assessed : GuestRequester) : Prop
  | removes (hidle : p.before.state.pending = none) (hqualified : p.qualified = true)
      (hsurplus : s.goal < size)
      (h : p.before.poll p.sample p.status = (.ok ⟨some (removal s size p), true, none⟩,
        { assessed with
          nextSequence := assessed.nextSequence + 1
          state := ⟨some (removal s size p), p.sample.observedUnixMillis⟩ }))
  | holds (hidle : p.before.state.pending = none)
      (hdone : p.qualified = false ∨ size ≤ s.goal)
      (h : p.before.poll p.sample p.status = (.ok hold, assessed))
  | repeats (request : MemoryRequest) (hpending : p.before.state.pending = some request)
      (h : p.before.poll p.sample p.status = (.ok ⟨some request, false, none⟩, assessed))
  | resolves (request : MemoryRequest) (result : MemoryResult)
      (hpending : p.before.state.pending = some request)
      (h : p.before.poll p.sample p.status = (.ok ⟨none, true, some result⟩,
        { assessed with
          state := { assessed.state with pending := none }
          retry := none
          retryDelayMillis := 0 }))

/-- The answer to a retained removal: it is granted, or published again. -/
theorem Reclaiming.consumes (h : Reclaiming s polls size self removals)
    (hwatches : Watches s polls self size sample live) {request : MemoryRequest}
    (hpending : self.state.pending = some request) {answer : Option TargetEstimate}
    {estimator : TargetEstimator}
    (hassess : self.assess sample (some live) = (.ok answer, { self with estimator })) :
    Turn s size ⟨self, sample, some live⟩ { self.flagged sample with estimator } := by
  have hpoll := poll_retained hassess hpending
  have haccepted : self.accepted (some live) = some live :=
    accepted_eq_some.mpr ⟨rfl, by rw [h.vm_eq, h.service_eq]; exact hwatches.valid⟩
  rw [haccepted] at hpoll
  unfold consume at hpoll
  cases hresult : (live.result.filter fun result => result.request == request && result.terminal) with
  | none =>
      simp only [Option.bind_some, hresult] at hpoll
      exact .repeats request hpending hpoll
  | some result =>
      obtain ⟨hfound, hmatches⟩ := Option.filter_eq_some_iff.mp hresult
      simp only [Bool.and_eq_true, beq_iff_eq] at hmatches
      have hcompleted := (hwatches.granted request result hpending hfound hmatches.1 hmatches.2).1
      simp only [Option.bind_some, hresult, hcompleted, ne_eq, not_true_eq_false, if_false] at hpoll
      exact .resolves request result hpending hpoll

/-- What is planned on an estimate of the run. -/
theorem Estimates.plans {polls' : List Poll} {estimate : TargetEstimate}
    (h : Estimates s polls' size sample estimate) (hvalid : live.device.Valid)
    (hsteps : s.policy.growStepBytes % live.blockSizeBytes = 0 ∧
      s.policy.shrinkStepBytes % live.blockSizeBytes = 0)
    (hresting : live.requestedBytes = live.currentBytes) (hsize : live.currentBytes = size)
    (hgoal : s.goal ≤ size) :
    planRequest estimate live.device s.policy =
      .ok (if estimate.historyReady = true ∧ s.goal < size then
        some (.remove, min s.step (size - s.goal)) else none) := by
  have hpos := s.step_pos
  rw [planRequest_eq hvalid hsteps hresting]
  unfold reclaimTarget
  rw [show live.device.currentBytes = size from hsize]
  have hstep : s.policy.shrinkStepBytes = s.step := rfl
  cases hready : estimate.historyReady with
  | false =>
      rw [h.waits hready]
      simp
  | true =>
      obtain ⟨hdesired, hfloor⟩ := h.falls hready
      rw [hdesired, hstep]
      simp only [true_and]
      split_ifs with hgrows hfalls hsurplus hsurplus
      · omega
      · omega
      · congr 4
        omega
      · omega
      · omega
      · rfl

/-- **What is planned is issued** and retained, where nothing speaks against it. -/
theorem propose_planned {operation : MemoryOperation} {bytes : Nat} {estimate : TargetEstimate}
    {emergency : Bool}
    (hplan : planRequest (self.urge estimate live) live.device self.policy =
      .ok (some (operation, bytes)))
    (hclock : self.state.lastIssuedUnixMillis < sample.observedUnixMillis)
    (hretry : self.retry = none) (hpolicy : self.policy.validate = .ok ())
    (hidentity : [self.vmName, self.serviceName, self.sessionId].all validIdentity = true)
    (hbytes : 0 < bytes)
    (hfits : sample.observedUnixMillis + self.policy.requestLifetimeMillis ≤ maximum)
    (hsequence : self.nextSequence < maximum) :
    self.propose sample live estimate emergency =
      (.ok ⟨some (self.nextRequest operation bytes sample.observedUnixMillis
          (sample.observedUnixMillis + self.policy.requestLifetimeMillis)), true, none⟩,
        { self with
          nextSequence := self.nextSequence + 1
          state := ⟨some (self.nextRequest operation bytes sample.observedUnixMillis
            (sample.observedUnixMillis + self.policy.requestLifetimeMillis)),
            sample.observedUnixMillis⟩ }) := by
  have hfree : self.throttled operation sample.monotonicMillis emergency = false := by
    unfold throttled
    rw [hretry]
    rfl
  have hanswer := @issue_eq self bytes operation sample.observedUnixMillis hpolicy hidentity hbytes
    (by omega) hfits hsequence
  unfold propose
  rw [hplan]
  dsimp only
  rw [if_neg (not_le.mpr hclock), if_neg (Bool.eq_false_iff.mp hfree)]
  cases hissue : self.issue operation bytes sample.observedUnixMillis with
  | mk answer after =>
      rw [hissue] at hanswer
      dsimp only at hanswer
      obtain ⟨error, rfl, -⟩ | ⟨expires, -, rfl, rfl⟩ := issue_cases hissue
      · cases hanswer
      · have hrequest : self.nextRequest operation bytes sample.observedUnixMillis expires =
            self.nextRequest operation bytes sample.observedUnixMillis
              (sample.observedUnixMillis + self.policy.requestLifetimeMillis) := by
          simpa using hanswer
        rw [hrequest]

theorem qualified_eq {estimate : TargetEstimate} {status : Option HostMemoryStatus}
    {after : GuestRequester} (h : self.assess sample status = (.ok (some estimate), after))
    (hidle : self.state.pending = none) :
    (Poll.mk self sample status).qualified = estimate.historyReady := by
  unfold Poll.qualified
  dsimp only
  rw [h, hidle]
  rfl

theorem not_qualified {after : GuestRequester} {status : Option HostMemoryStatus}
    (h : self.assess sample status = (.ok none, after)) :
    (Poll.mk self sample status).qualified = false := by
  unfold Poll.qualified
  dsimp only
  rw [h]
  simp

/-- There are not more removals than bytes to remove. -/
theorem Setting.removals_lt (s : Setting) {removals : Nat} (h : s.goal < s.sizeAfter removals) :
    removals < s.full := by
  have hmul := Nat.le_mul_of_pos_right removals s.step_pos
  unfold Setting.sizeAfter at h
  omega

/-- A whole window has passed since another poll, so the clock is past the watermark. -/
theorem Reclaiming.clock (h : Reclaiming s polls size self removals)
    (hwatches : Watches s polls self size sample live)
    (hconverged : (Poll.mk self sample (some live)).converged = true)
    (hcomplete : beganAt (polls ++ [⟨self, sample, some live⟩]) +
      s.policy.target.historyWindowMillis ≤ sample.monotonicMillis) :
    self.state.lastIssuedUnixMillis < sample.observedUnixMillis := by
  rcases h.watermark with hzero | ⟨previous, hmem, hissued⟩
  · have hwindow := (surplus_of_setting h.tracking.limits).window_pos
    rw [h.tracking.limits.config, s.config_eq] at hwindow
    obtain ⟨previous, hmem⟩ : ∃ previous, previous ∈ polls := by
      refine List.exists_mem_of_ne_nil _ ?_
      rintro rfl
      have hfirst : (([] ++ [Poll.mk self sample (some live)]).filter Poll.converged).head? =
          some ⟨self, sample, some live⟩ := by
        rw [filter_converged_concat hconverged]
        rfl
      rw [beganAt_eq hfirst] at hcomplete
      dsimp only at hcomplete
      omega
    have := hwatches.clock previous hmem
    omega
  · have := hwatches.clock previous hmem
    omega

/-- **One poll of the run.** -/
theorem Reclaiming.turn (h : Reclaiming s polls size self removals)
    (hwatches : Watches s polls self size sample live) :
    ∃ estimator, Turn s size ⟨self, sample, some live⟩ { self.flagged sample with estimator } ∧
      Tracking s (polls ++ [⟨self, sample, some live⟩]) estimator := by
  -- A device that moves teaches the estimator nothing, one at rest extends the track.
  cases h.assessed hwatches with
  | moving hmoving hassess hconverged =>
      refine ⟨self.estimator, ?_, ?_⟩
      · cases hpending : self.state.pending with
        | some request => exact h.consumes hwatches hpending hassess
        | none => exact .holds hpending (.inl (not_qualified hassess)) (poll_waits hassess hpending)
      · cases h.tracking with
        | unseen hnone hfresh =>
            exact .unseen ((filter_moving_concat hconverged).trans hnone) hfresh
        | seen hfirst hlast htracks =>
            rw [← filter_moving_concat hconverged] at hfirst hlast
            exact .seen hfirst hlast htracks
  | resting estimate estimator hresting hassess hconverged hestimates htracking =>
      refine ⟨estimator, ?_, htracking⟩
      cases hpending : self.state.pending with
      | some request => exact h.consumes hwatches hpending hassess
      | none =>
      have hseen := hwatches.seen hresting
      have hestimates := hestimates hpending
      have hqualified := qualified_eq hassess hpending
      have hsize : live.currentBytes = size := by
        rcases hseen.size with hsize | ⟨request, hsome, -⟩
        · exact hsize
        · rw [hpending] at hsome
          cases hsome
      have hgoal : s.goal ≤ size := h.idle hpending ▸ (s.sizeAfter_le removals).1
      have hblock : s.geometry.blockSizeBytes = live.blockSizeBytes := hseen.workload.block
      have hplan := hestimates.plans (valid_of_validateFor hwatches.valid) (hblock ▸ s.steps)
        hresting hsize hgoal
      have hfresh : self.freshStatus sample.observedUnixMillis (some live) = some live :=
        freshStatus_eq_some.mpr ⟨rfl, by rw [h.vm_eq, h.service_eq]; exact hwatches.valid,
          by rw [h.policy_eq]; exact hwatches.fresh⟩
      have hpoll := poll_planned hassess hpending hfresh
      have hcalm : ({ self.flagged sample with estimator } : GuestRequester).urge estimate live =
          estimate := urge_calm (by rw [hwatches.high]; simp)
      -- A removal is due once the window is complete, as long as the goal is not reached.
      by_cases hdue : estimate.historyReady = true ∧ s.goal < size
      · rw [if_pos hdue] at hplan
        have hstep := s.step_pos
        have hword := (surplus_of_setting h.tracking.limits).word
        have hlt := s.removals_lt (h.idle hpending ▸ hdue.2)
        have hsequence := h.sequence
        obtain ⟨hvalid, hidentity⟩ := new_valid s.new
        rw [← h.policy_eq] at hplan hvalid
        rw [← h.vm_eq, ← h.service_eq, ← h.session_eq] at hidentity
        have hpropose := @propose_planned { self.flagged sample with estimator } sample live .remove
          (min s.step (size - s.goal)) estimate (sensed ⟨self, sample, some live⟩)
          (by rw [hcalm]; exact hplan)
          (h.clock hwatches hconverged (hestimates.ready.mp hdue.1)) h.retry hvalid hidentity
          (by omega) (by show _ + self.policy.requestLifetimeMillis ≤ _
                         rw [h.policy_eq]
                         exact hwatches.lifetime)
          (by show self.nextSequence < _
              omega)
        rw [hpropose] at hpoll
        refine .removes hpending (hqualified.trans hdue.1) hdue.2 ?_
        unfold removal
        rw [← h.policy_eq]
        exact hpoll
      · rw [if_neg hdue] at hplan
        unfold propose at hpoll
        rw [hcalm, show ({ self.flagged sample with estimator } : GuestRequester).policy = s.policy
          from h.policy_eq, hplan] at hpoll
        refine .holds hpending ?_ hpoll
        rw [hqualified]
        cases hready : estimate.historyReady with
        | false => exact .inl rfl
        | true => exact .inr (not_lt.mp fun hsurplus => hdue ⟨hready, hsurplus⟩)

/-- **No window is waited for again.** Once the first is complete, every poll that finds the device at
rest and nothing retained is qualified. -/
theorem Reclaiming.qualified_iff (h : Reclaiming s polls size self removals)
    (hwatches : Watches s polls self size sample live) :
    (Poll.mk self sample (some live)).qualified = true ↔ self.state.pending = none ∧
      live.requestedBytes = live.currentBytes ∧
      beganAt (polls ++ [⟨self, sample, some live⟩]) + s.policy.target.historyWindowMillis ≤
        sample.monotonicMillis := by
  cases h.assessed hwatches with
  | moving hmoving hassess hconverged => simp [not_qualified hassess, hmoving]
  | resting estimate estimator hresting hassess hconverged hestimates htracking =>
      cases hpending : self.state.pending with
      | some request => simp [Poll.qualified, hpending]
      | none => simp [qualified_eq hassess hpending, (hestimates hpending).ready, hresting]

theorem Turn.request {p : Poll} {assessed : GuestRequester} (h : Turn s size p assessed) :
    p.request = if p.qualified = true ∧ s.goal < size then some (removal s size p) else none := by
  have hretained : ∀ request, p.before.state.pending = some request → p.qualified = false := by
    intro request hpending
    simp [Poll.qualified, hpending]
  unfold Poll.request Poll.answer
  cases h with
  | removes hidle hqualified hsurplus h => simp [h, hqualified, hsurplus]
  | holds hidle hdone h =>
      have hnot : ¬ (p.qualified = true ∧ s.goal < size) := by
        rintro ⟨hqualified, hsurplus⟩
        rcases hdone with hdone | hdone
        · rw [hdone] at hqualified
          cases hqualified
        · omega
      simp [h, hnot, hold]
  | repeats request hpending h => simp [h, hretained request hpending]
  | resolves request result hpending h => simp [h, hretained request hpending]

/-- How many removals a run has issued. -/
def removalCount (polls : List Poll) : Nat := (polls.filterMap Poll.request).length

theorem removalCount_concat (p : Poll) :
    removalCount (polls ++ [p]) = removalCount polls + if p.request.isSome then 1 else 0 := by
  unfold removalCount
  rw [List.filterMap_append, List.length_append]
  cases hrequest : p.request <;> simp [hrequest]

/-- The window that was complete stays so. -/
theorem Reclaiming.begun_concat (h : Reclaiming s polls size self removals)
    (hwatches : Watches s polls self size sample live) (hsome : 0 < removals) :
    ∃ first last,
      ((polls ++ [Poll.mk self sample (some live)]).filter Poll.converged).head? = some first ∧
      ((polls ++ [Poll.mk self sample (some live)]).filter Poll.converged).getLast? = some last ∧
      first.sample.monotonicMillis + s.policy.target.historyWindowMillis ≤
        last.sample.monotonicMillis := by
  obtain ⟨first, last, hfirst, hlast, hbegun⟩ := h.begun hsome
  refine ⟨first, ?_⟩
  by_cases hconverged : (Poll.mk self sample (some live)).converged = true
  · have hresting := (converged_iff h.vm_eq h.service_eq h.policy_eq hwatches).mp hconverged
    obtain ⟨-, htime, -⟩ := (hwatches.seen hresting).order last hlast
    refine ⟨_, head?_concat hfirst, by
      rw [filter_converged_concat hconverged, List.getLast?_concat], ?_⟩
    exact hbegun.trans htime.le
  · rw [filter_moving_concat (Bool.eq_false_iff.mpr hconverged)]
    exact ⟨last, hfirst, hlast, hbegun⟩

/-- The first removal is issued when a window is complete. -/
theorem begun_of_complete {p : Poll} {window : Nat} (hconverged : p.converged = true)
    (hcomplete : beganAt (polls ++ [p]) + window ≤ p.sample.monotonicMillis) :
    ∃ first last, ((polls ++ [p]).filter Poll.converged).head? = some first ∧
      ((polls ++ [p]).filter Poll.converged).getLast? = some last ∧
      first.sample.monotonicMillis + window ≤ last.sample.monotonicMillis := by
  obtain ⟨first, hfirst⟩ : ∃ first, ((polls ++ [p]).filter Poll.converged).head? = some first := by
    rw [← Option.isSome_iff_exists, List.isSome_head?, filter_converged_concat hconverged]
    simp
  refine ⟨first, p, hfirst, ?_, ?_⟩
  · rw [filter_converged_concat hconverged, List.getLast?_concat]
  · rwa [beganAt_eq hfirst] at hcomplete

theorem settledSize_idle {before after : GuestRequester} (h : before.state.pending = none) :
    settledSize size before after = size := by
  simp [settledSize, h]

theorem settledSize_retained {before after : GuestRequester} {request : MemoryRequest}
    (h : after.state.pending = some request) : settledSize size before after = size := by
  unfold settledSize
  rw [h]
  split
  · next hnone => cases hnone
  · rfl

theorem settledSize_resolved {before after : GuestRequester} {request : MemoryRequest}
    (hbefore : before.state.pending = some request) (hafter : after.state.pending = none) :
    settledSize size before after = size - request.bytes := by
  simp [settledSize, hbefore, hafter]

/-- **One more poll keeps the account of the run.** -/
theorem Reclaiming.polled (h : Reclaiming s polls size self (removalCount polls))
    (hwatches : Watches s polls self size sample live) :
    Reclaiming s (polls ++ [⟨self, sample, some live⟩])
      (settledSize size self (self.poll sample (some live)).2) (self.poll sample (some live)).2
      (removalCount (polls ++ [⟨self, sample, some live⟩])) := by
  obtain ⟨estimator, hturn, htracking⟩ := h.turn hwatches
  have hrequest := hturn.request
  have hiff := h.qualified_iff hwatches
  have hbegun := h.begun_concat hwatches
  rw [removalCount_concat, hrequest]
  have hretained : ∀ request, self.state.pending = some request →
      (Poll.mk self sample (some live)).qualified = false := by
    intro request hpending
    simp [Poll.qualified, hpending]
  have hmember : ∀ requester : GuestRequester,
      requester.state.lastIssuedUnixMillis = self.state.lastIssuedUnixMillis →
      (requester.state.lastIssuedUnixMillis = 0 ∨
        ∃ p ∈ polls ++ [Poll.mk self sample (some live)],
          requester.state.lastIssuedUnixMillis = p.sample.observedUnixMillis) := by
    intro requester hsame
    rw [hsame]
    refine h.watermark.imp_right ?_
    rintro ⟨p, hp, hissued⟩
    exact ⟨p, List.mem_append_left _ hp, hissued⟩
  -- Only a removal is counted, and only a resolution settles another size.
  cases hturn with
  | removes hidle hqualified hsurplus hpoll =>
      obtain ⟨-, hresting, hcomplete⟩ := hiff.mp hqualified
      have hconverged := (converged_iff h.vm_eq h.service_eq h.policy_eq hwatches).mpr hresting
      have hsize := h.idle hidle
      have hdue : (Poll.mk self sample (some live)).qualified = true ∧ s.goal < size :=
        ⟨hqualified, hsurplus⟩
      rw [settledSize_idle hidle, if_pos hdue]
      dsimp only at hpoll
      rw [hpoll]
      refine ⟨h.policy_eq, h.vm_eq, h.service_eq, h.session_eq, congrArg (· + 1) h.sequence, h.retry,
        htracking, .inr ⟨_, List.mem_append_right _ (List.mem_singleton_self _), rfl⟩,
        fun hnone => (by cases hnone), fun request hpending => ⟨Nat.succ_pos _, hsize, ?_⟩,
        fun _ => begun_of_complete hconverged hcomplete⟩
      cases hpending
      show _ = s.sizeAfter (removalCount polls + 1)
      rw [s.sizeAfter_succ, ← hsize]
      show size - min s.step (size - s.goal) = _
      omega
  | holds hidle hdone hpoll =>
      have hnone : ¬ ((Poll.mk self sample (some live)).qualified = true ∧ s.goal < size) := by
        rintro ⟨hqualified, hsurplus⟩
        rcases hdone with hdone | hdone
        · rw [hdone] at hqualified
          cases hqualified
        · omega
      rw [settledSize_idle hidle, if_neg hnone]
      dsimp only at hpoll
      rw [hpoll]
      exact ⟨h.policy_eq, h.vm_eq, h.service_eq, h.session_eq, h.sequence, h.retry, htracking,
        hmember _ rfl, h.idle, h.retained, hbegun⟩
  | repeats request hpending hpoll =>
      dsimp only at hpoll hpending
      have hafter : (self.poll sample (some live)).2.state.pending = some request := by
        rw [hpoll]
        exact hpending
      rw [settledSize_retained hafter, hretained request hpending, if_neg (by simp), hpoll]
      exact ⟨h.policy_eq, h.vm_eq, h.service_eq, h.session_eq, h.sequence, h.retry, htracking,
        hmember _ rfl, h.idle, h.retained, hbegun⟩
  | resolves request result hpending hpoll =>
      dsimp only at hpoll hpending
      have hafter : (self.poll sample (some live)).2.state.pending = none := by rw [hpoll]
      rw [settledSize_resolved hpending hafter, hretained request hpending, if_neg (by simp), hpoll]
      exact ⟨h.policy_eq, h.vm_eq, h.service_eq, h.session_eq, h.sequence, rfl, htracking,
        hmember _ rfl, fun _ => (h.retained request hpending).2.2,
        fun _ hsome => (by cases hsome), hbegun⟩

/-- The account of a whole run. -/
theorem Reclaims.reclaiming (h : Reclaims s polls size self) :
    Reclaiming s polls size self (removalCount polls) := by
  induction h with
  | start =>
      obtain ⟨hpolicy, hvm, hservice, hsession, hstate, hsequence, -⟩ := new_eq_ok s.new
      have hretry : s.start.retry = none := (new_unscheduled s.new).1
      obtain ⟨estimator, hfresh⟩ := s.untouched.untouched
      have hkept : ∀ {α : Type} (f : GuestRequester → α),
          (∀ estimator, f { s.start with estimator } = f s.start) → f s.fresh = f s.start := by
        intro α f hf
        rw [hfresh, hf]
      refine ⟨(hkept (·.policy) fun _ => rfl).trans hpolicy, (hkept (·.vmName) fun _ => rfl).trans hvm,
        (hkept (·.serviceName) fun _ => rfl).trans hservice,
        (hkept (·.sessionId) fun _ => rfl).trans hsession,
        (hkept (·.nextSequence) fun _ => rfl).trans hsequence,
        (hkept (·.retry) fun _ => rfl).trans hretry, .unseen rfl rfl, .inl ?_,
        fun _ => s.sizeAfter_zero.symm, fun request hpending => ?_, fun hsome => ?_⟩
      · rw [(hkept (·.state) fun _ => rfl).trans hstate]
        rfl
      · rw [(hkept (·.state) fun _ => rfl).trans hstate] at hpending
        cases hpending
      · cases hsome
  | polled _ sample live hwatches ih => exact ih.polled hwatches

theorem Reclaims.goal_le (h : Reclaims s polls size self) : s.goal ≤ size := by
  have hreclaiming := h.reclaiming
  cases hpending : self.state.pending with
  | none =>
      rw [hreclaiming.idle hpending]
      exact (s.sizeAfter_le _).1
  | some request =>
      rw [(hreclaiming.retained request hpending).2.1]
      exact (s.sizeAfter_le _).1

/-- A device at rest has the size of the run, or the one a retained removal leaves. -/
theorem Reclaims.current (h : Reclaims s polls size self)
    (hwatches : Watches s polls self size sample live)
    (hresting : live.requestedBytes = live.currentBytes) :
    s.goal ≤ live.currentBytes ∧ (self.state.pending = none → live.currentBytes = size) := by
  have hreclaiming := h.reclaiming
  rcases (hwatches.seen hresting).size with hsize | ⟨request, hpending, hsize⟩
  · exact ⟨hsize ▸ h.goal_le, fun _ => hsize⟩
  · constructor
    · rw [hsize, (hreclaiming.retained request hpending).2.2]
      exact (s.sizeAfter_le _).1
    · intro hidle
      rw [hidle] at hpending
      cases hpending

end Poll

end VirtioMem.Core
