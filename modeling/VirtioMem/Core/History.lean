import VirtioMem.Core.EstimatorRuns

/-!
# The history is short

An estimator may run for years, so its history is bounded twice: samples are merged into buckets, and a
history that grew too long would lose its oldest bucket. The second bound must never be reached. The
oldest bucket is the one the window begins in, and without it the window is never complete.

It never is: buckets open a fixed width apart, that many widths are more than a window, and pruning
leaves one bucket that is older than the window. `Compressed` is what every call leaves behind, whatever
the times of the samples are, and `history_uncut` what follows for the calls of a run.
-/

namespace VirtioMem.Core

open VirtioMem.Word VirtioMem.Text VirtioMem.Result VirtioMem.Window

/-! ## Times of a history -/

/-- When the buckets of a history were opened. -/
def openings (history : List CandidateHistoryEntry) : List Nat :=
  history.map CandidateHistoryEntry.monotonicMillis

/-- A sample merges into the last bucket, or opens one a bucket's width later. -/
theorem openings_recordCandidate (history : List CandidateHistoryEntry) {bucket : Nat}
    (hbucket : 0 < bucket) (entry : CandidateHistoryEntry) :
    openings (recordCandidate history bucket entry) = openings history ∨
      openings (recordCandidate history bucket entry) =
          openings history ++ [entry.monotonicMillis] ∧
        ∀ last, (openings history).getLast? = some last → last + bucket ≤ entry.monotonicMillis := by
  unfold recordCandidate openings
  split
  · next hnone =>
      rw [List.getLast?_eq_none_iff.mp hnone]
      exact .inr ⟨rfl, by simp⟩
  next last hlast =>
  split_ifs with hopen
  · left
    obtain ⟨front, rfl⟩ := List.getLast?_eq_some_iff.mp hlast
    simp
  · refine .inr ⟨by simp, ?_⟩
    rw [List.getLast?_map, hlast]
    rintro _ ⟨⟩
    omega

theorem bucketMillis_pos (config : TargetPolicyConfig) : 0 < config.bucketMillis :=
  lt_of_lt_of_le Nat.one_pos (le_max_right _ _)

/-- The buckets are wide enough for a whole window. -/
theorem window_le_bucketMillis (config : TargetPolicyConfig) :
    config.historyWindowMillis ≤ config.bucketMillis * (maxTargetHistoryEntries - 2) :=
  (le_divCeil_mul (by decide)).trans (Nat.mul_le_mul_right _ (le_max_left _ _))

/-- Pruning leaves one bucket that is as old as the window. -/
theorem pruneHistory_recent {now window width : Nat} {history : List CandidateHistoryEntry}
    (hspaced : (openings history).Pairwise fun a b => a + width ≤ b) :
    ∀ t ∈ (openings (pruneHistory now window history)).tail, now - window < t := by
  induction history with
  | nil => simp [pruneHistory, openings]
  | cons first rest ih =>
      cases rest with
      | nil => simp [pruneHistory, openings]
      | cons second rest =>
          unfold pruneHistory
          split_ifs with hold
          · exact ih (List.pairwise_cons.mp hspaced).2
          · intro t ht
            rcases List.mem_cons.mp ht with rfl | ht
            · exact not_le.mp hold
            · have := (List.pairwise_cons.mp (List.pairwise_cons.mp hspaced).2).1 t ht
              omega

/-- Pruning takes nothing that lies inside the window, -/
theorem pruneHistory_keeps {now window width : Nat} {history : List CandidateHistoryEntry}
    (hspaced : (openings history).Pairwise fun a b => a + width ≤ b) :
    ∀ bucket ∈ history, now - window < bucket.monotonicMillis →
      bucket ∈ pruneHistory now window history := by
  induction history with
  | nil => simp
  | cons first rest ih =>
      cases rest with
      | nil => exact fun bucket hbucket _ => hbucket
      | cons second rest =>
          intro bucket hbucket hrecent
          unfold pruneHistory
          split_ifs with hold
          · -- The first bucket opened before the second, which is as old as the window.
            have hfirst := (List.pairwise_cons.mp hspaced).1 second.monotonicMillis List.mem_cons_self
            rcases List.mem_cons.mp hbucket with rfl | hbucket
            · omega
            · exact ih (List.pairwise_cons.mp hspaced).2 bucket hbucket hrecent
          · exact hbucket

/-- nor the newest bucket. -/
theorem pruneHistory_getLast? (now window : Nat) (history : List CandidateHistoryEntry) :
    (pruneHistory now window history).getLast? = history.getLast? := by
  induction history with
  | nil => rfl
  | cons first rest ih =>
      cases rest with
      | nil => rfl
      | cons second rest =>
          unfold pruneHistory
          split_ifs
          · rw [ih, List.getLast?_cons_cons]
          · rfl

/-- Buckets that are a width apart and not older than a window are few. -/
theorem recent_length {config : TargetPolicyConfig} {times : List Nat} {now : Nat}
    (hspaced : times.Pairwise fun a b => a + config.bucketMillis ≤ b) (hpast : ∀ t ∈ times, t ≤ now)
    (hrecent : ∀ t ∈ times, now - config.historyWindowMillis < t) :
    times.length ≤ maxTargetHistoryEntries - 2 := by
  cases times with
  | nil => exact Nat.zero_le _
  | cons oldest rest =>
      have hreach := Spans.reach hspaced hpast
      have hold := hrecent oldest List.mem_cons_self
      have hwide := window_le_bucketMillis config
      by_contra hlong
      have hmany : maxTargetHistoryEntries - 2 ≤ rest.length := by
        rw [List.length_cons] at hlong
        omega
      have := Nat.mul_le_mul_left config.bucketMillis hmany
      rw [Nat.mul_comm] at hreach
      omega

/-- Buckets a width apart, and room for one more. -/
structure Compressed (config : TargetPolicyConfig) (history : List CandidateHistoryEntry) : Prop where
  spaced : (openings history).Pairwise fun a b => a + config.bucketMillis ≤ b
  room : history.length < maxTargetHistoryEntries

section Compressed

variable {config : TargetPolicyConfig} {history : List CandidateHistoryEntry}
  {entry : CandidateHistoryEntry}

theorem compressed_nil : Compressed config [] := ⟨.nil, by decide⟩

/-- **The history has room for a sample**, and its buckets stay apart. -/
theorem Compressed.record (h : Compressed config history) (entry : CandidateHistoryEntry) :
    (openings (recordCandidate history config.bucketMillis entry)).Pairwise
        (fun a b => a + config.bucketMillis ≤ b) ∧
      (recordCandidate history config.bucketMillis entry).length ≤ maxTargetHistoryEntries := by
  have hlength : ∀ history : List CandidateHistoryEntry,
      history.length = (openings history).length := by simp [openings]
  have hroom := h.room
  rw [hlength] at hroom ⊢
  rcases openings_recordCandidate history (bucketMillis_pos config) entry with heq | ⟨heq, hopen⟩
  · rw [heq]
    exact ⟨h.spaced, hroom.le⟩
  · rw [heq]
    refine ⟨List.pairwise_append.mpr ⟨h.spaced, List.pairwise_singleton _ _, ?_⟩, ?_⟩
    · intro t ht later hlater
      rw [List.mem_singleton.mp hlater]
      exact le_of_last h.spaced hopen t ht
    · rw [List.length_append, List.length_singleton]
      exact hroom

/-- So the bound on its length drops nothing. -/
theorem Compressed.uncut (h : Compressed config history) (entry : CandidateHistoryEntry) :
    capHistory (recordCandidate history config.bucketMillis entry) =
      recordCandidate history config.bucketMillis entry :=
  if_neg (Nat.not_lt.mpr (h.record entry).2)

/-- **And pruning makes room again.** -/
theorem Compressed.prune (h : Compressed config history) (entry : CandidateHistoryEntry) :
    Compressed config (pruneHistory entry.monotonicMillis config.historyWindowMillis
      (recordCandidate history config.bucketMillis entry)) := by
  have hspaced := (h.record entry).1
  have hsuffix := pruneHistory_suffix entry.monotonicMillis config.historyWindowMillis
    (recordCandidate history config.bucketMillis entry)
  have hkept := hspaced.sublist (hsuffix.sublist.map CandidateHistoryEntry.monotonicMillis)
  refine ⟨hkept, ?_⟩
  rcases openings_recordCandidate history (bucketMillis_pos config) entry with heq | ⟨heq, hopen⟩
  · -- Merged into a bucket, the sample takes no room.
    have hlength := congrArg List.length heq
    simp only [openings, List.length_map] at hlength
    have := hsuffix.length_le
    have := h.room
    omega
  · -- In a bucket of its own it is the latest, so what is left lies in its window.
    have hpast : ∀ t ∈ openings (recordCandidate history config.bucketMillis entry),
        t ≤ entry.monotonicMillis := by
      rw [heq]
      intro t ht
      rcases List.mem_append.mp ht with ht | ht
      · have := le_of_last h.spaced hopen t ht
        omega
      · exact (List.mem_singleton.mp ht).le
    have htail := List.tail_sublist (openings (pruneHistory entry.monotonicMillis
      config.historyWindowMillis (recordCandidate history config.bucketMillis entry)))
    have hrecent := recent_length (hkept.sublist htail)
      (fun t ht => hpast t ((hsuffix.sublist.map _).mem (htail.mem ht)))
      (pruneHistory_recent hspaced)
    simp only [openings, List.length_tail, List.length_map] at hrecent
    have : 2 < maxTargetHistoryEntries := by decide
    omega

end Compressed

/-! ## Runs -/

open TargetEstimator

namespace Estimation

variable {call : Estimation} {gathered : List CandidateHistoryEntry}

/-- The history that a call puts before the bound on its length, if it comes to that. -/
def Gathers (call : Estimation) (gathered : List CandidateHistoryEntry) : Prop :=
  ∃ raw prepared minimum,
    calculateInstantaneous call.before.config call.sample.memory call.geometry = .ok raw ∧
    call.before.prepareSample call.sample = (.ok (), prepared) ∧
    call.before.Accepted call.sample call.geometry raw prepared minimum ∧
    call.sample.nativePressure = some .high ∧
    gathered = recordCandidate (rebase prepared (visibleBase call.sample call.geometry)).history
      call.before.config.bucketMillis (candidateOf call.sample
        (call.before.limited call.sample call.geometry raw minimum).desiredNowBytes
        (call.before.limited call.sample call.geometry raw minimum).floorNowBytes)

/-- **What a call does to the history.** It throws it away, leaves it alone, or gathers a sample. -/
theorem history_cases (call : Estimation) :
    call.after.state.history = [] ∨ call.after.state.history = call.before.state.history ∨
      ∃ gathered, call.Gathers gathered := by
  cases hcall : call.before.estimate call.sample call.geometry with
  | mk answer after =>
      have hafter : call.after = after := congrArg Prod.snd hcall
      rw [hafter]
      rcases estimate_stages hcall with
        ⟨_, -, ⟨-, hshed⟩, -⟩ | ⟨raw, prepared, minimum, hraw, hprepared, haccepted, hconclude⟩
      · exact hshed.imp_right .inl
      · by_cases hhigh : call.sample.nativePressure = some .high
        · exact .inr (.inr ⟨_, raw, prepared, minimum, hraw, hprepared, haccepted, hhigh, rfl⟩)
        · left
          rw [conclude_history hconclude]
          exact collect_other hhigh

/-- A call that gathers a sample comes to its conclusion. -/
theorem Gathers.concludes (h : call.Gathers gathered) : ∃ prepared needs,
    call.before.estimate call.sample call.geometry =
      call.before.conclude prepared call.sample call.geometry needs ∧
    call.sample.nativePressure = some .high ∧
    gathered = recordCandidate (rebase prepared (visibleBase call.sample call.geometry)).history
      call.before.config.bucketMillis (candidateOf call.sample needs.desiredNowBytes
        needs.floorNowBytes) := by
  obtain ⟨raw, prepared, minimum, hraw, hprepared, haccepted, hhigh, rfl⟩ := h
  refine ⟨prepared, call.before.limited call.sample call.geometry raw minimum, ?_, hhigh, rfl⟩
  have hlimits : ¬(minimum > call.before.deviceMaximum (visibleBase call.sample call.geometry)
      call.geometry.blockSizeBytes raw.effectiveMaximumBytes ∨
      call.before.maxRam < visibleBase call.sample call.geometry) := by
    have := haccepted.minimum_le
    have := haccepted.base_le
    omega
  unfold estimate
  simp only [hraw, hprepared, haccepted.aligned, if_neg hlimits]
  rfl

/-- What is gathered is cut to its bound, and then pruned. -/
theorem Gathers.history (h : call.Gathers gathered) :
    call.after.state.history = pruneHistory call.sample.monotonicMillis
      call.before.config.historyWindowMillis (capHistory gathered) := by
  obtain ⟨prepared, needs, hestimate, hhigh, rfl⟩ := h.concludes
  cases hconclude : call.before.conclude prepared call.sample call.geometry needs with
  | mk answer concluded =>
      rw [after, hestimate, hconclude]
      show concluded.state.history = _
      rw [conclude_history hconclude, folded, collect_high hhigh, raise_history]

/-- The newest bucket holds what the sample needs. -/
theorem Gathers.newest (h : call.Gathers gathered) : ∃ newest, gathered.getLast? = some newest ∧
    ∀ estimate, call.answer = .ok estimate → estimate.desiredNowBytes ≤ newest.desiredNowBytes ∧
      estimate.floorNowBytes ≤ newest.floorNowBytes := by
  obtain ⟨prepared, needs, hestimate, -, rfl⟩ := h.concludes
  obtain ⟨front, newest, hgathered, hdesired, hfloor⟩ := recordCandidate_last
    (rebase prepared (visibleBase call.sample call.geometry)).history call.before.config.bucketMillis
    (candidateOf call.sample needs.desiredNowBytes needs.floorNowBytes)
  rw [hgathered]
  refine ⟨newest, List.getLast?_concat, fun estimate hanswer => ?_⟩
  rw [answer, hestimate] at hanswer
  obtain ⟨qualified, -, rfl, -⟩ := conclude_qualify (Prod.ext hanswer rfl)
  exact ⟨hdesired, hfloor⟩

/-- It is the old history, or none, with one sample more. -/
theorem Gathers.recorded (h : call.Gathers gathered)
    (hbefore : Compressed call.before.config call.before.state.history) :
    ∃ history entry, Compressed call.before.config history ∧
      entry.monotonicMillis = call.sample.monotonicMillis ∧
      gathered = recordCandidate history call.before.config.bucketMillis entry := by
  obtain ⟨raw, prepared, minimum, -, -, haccepted, -, rfl⟩ := h
  refine ⟨_, _, ?_, rfl, rfl⟩
  rcases rebase_history prepared (visibleBase call.sample call.geometry) with hnone | ⟨hsame, -⟩
  · rw [hnone]
    exact compressed_nil
  · rw [hsame]
    rcases haccepted.order.kept with rfl | rfl
    · exact hbefore
    · exact compressed_nil

/-- **Every call keeps the history compressed.** -/
theorem compressed_after (hbefore : Compressed call.before.config call.before.state.history) :
    Compressed call.before.config call.after.state.history := by
  rcases call.history_cases with hnone | hsame | ⟨gathered, hgathers⟩
  · rw [hnone]
    exact compressed_nil
  · rw [hsame]
    exact hbefore
  · obtain ⟨history, entry, hhistory, hentry, rfl⟩ := hgathers.recorded hbefore
    rw [hgathers.history, hhistory.uncut, ← hentry]
    exact hhistory.prune entry

end Estimation

namespace TargetEstimator

variable {start self : TargetEstimator} {calls : List Estimation}

/-- **The history of every run is compressed**, at its end and wherever a call found it. -/
theorem Runs.compressed (h : Runs start calls self) (hstart : start.state.history = []) :
    Compressed self.config self.state.history ∧
      ∀ call ∈ calls, Compressed call.before.config call.before.state.history := by
  induction h with
  | start =>
      rw [hstart]
      exact ⟨compressed_nil, by simp⟩
  | estimated hruns sample geometry ih =>
      obtain ⟨hself, hcalls⟩ := ih
      rw [estimate_config]
      refine ⟨@Estimation.compressed_after ⟨_, sample, geometry⟩ hself, fun call hcall => ?_⟩
      rcases List.mem_append.mp hcall with hcall | hcall
      · exact hcalls call hcall
      · rw [List.mem_singleton.mp hcall]
        exact hself
  | invalidated hruns ih => exact ⟨compressed_nil, ih.2⟩
  | limited hruns minimum maximum ih =>
      refine ⟨?_, ih.2⟩
      rcases setRamLimits_rest minimum maximum with hsame | hlimited
      · rw [hsame]
        exact ih.1
      · rw [hlimited]
        exact compressed_nil

/-- **The bound on the history is never reached.** In every run, whatever the times of its samples, the
history is shorter than its bound, with its buckets at least a bucket's width apart. No call has a
history to cut. After it was pruned at most one bucket is as old as the window, every bucket inside the
window is still there, and so is the newest, which holds what the new sample needs. -/
theorem history_uncut (hstart : start.state.history = []) (h : Runs start calls self) :
    self.state.history.length < maxTargetHistoryEntries ∧
    (openings self.state.history).Pairwise
      (fun a b => a < b ∧ a + self.config.bucketMillis ≤ b) ∧
    ∀ call ∈ calls, ∀ gathered, call.Gathers gathered →
      gathered.length ≤ maxTargetHistoryEntries ∧
      capHistory gathered = gathered ∧
      (openings gathered).Pairwise (fun a b => a < b ∧ a + call.before.config.bucketMillis ≤ b) ∧
      call.after.state.history = pruneHistory call.sample.monotonicMillis
        call.before.config.historyWindowMillis gathered ∧
      call.after.state.history.countP (fun bucket => bucket.monotonicMillis ≤
        call.sample.monotonicMillis - call.before.config.historyWindowMillis) ≤ 1 ∧
      (∀ bucket ∈ gathered, call.sample.monotonicMillis - call.before.config.historyWindowMillis <
        bucket.monotonicMillis → bucket ∈ call.after.state.history) ∧
      ∃ newest, gathered.getLast? = some newest ∧ call.after.state.history.getLast? = some newest ∧
        ∀ estimate, call.answer = .ok estimate →
          estimate.desiredNowBytes ≤ newest.desiredNowBytes ∧
          estimate.floorNowBytes ≤ newest.floorNowBytes := by
  have hapart : ∀ (config : TargetPolicyConfig) {times : List Nat},
      times.Pairwise (fun a b => a + config.bucketMillis ≤ b) →
      times.Pairwise fun a b => a < b ∧ a + config.bucketMillis ≤ b := fun config times hspaced =>
    hspaced.imp fun hab => ⟨by have := bucketMillis_pos config; omega, hab⟩
  obtain ⟨hself, hcalls⟩ := h.compressed hstart
  refine ⟨hself.room, hapart _ hself.spaced, fun call hcall gathered hgathers => ?_⟩
  obtain ⟨newest, hlast, hneeds⟩ := hgathers.newest
  obtain ⟨history, entry, hhistory, hentry, rfl⟩ := hgathers.recorded (hcalls call hcall)
  have hpruned := hgathers.history
  rw [hhistory.uncut] at hpruned
  refine ⟨(hhistory.record entry).2, hhistory.uncut entry, hapart _ (hhistory.record entry).1,
    hpruned, ?_, ?_, newest, hlast, by rw [hpruned, pruneHistory_getLast?, hlast], hneeds⟩
  swap
  · rw [hpruned]
    exact pruneHistory_keeps (hhistory.record entry).1
  have hrecent := @pruneHistory_recent call.sample.monotonicMillis
    call.before.config.historyWindowMillis _ _ (hhistory.record entry).1
  rw [hpruned]
  -- Only the oldest bucket that is kept can be as old as the window.
  cases hkept : pruneHistory call.sample.monotonicMillis call.before.config.historyWindowMillis
      (recordCandidate history call.before.config.bucketMillis entry) with
  | nil => exact Nat.zero_le _
  | cons first rest =>
      rw [hkept] at hrecent
      have hnone : rest.countP (fun bucket => bucket.monotonicMillis ≤
          call.sample.monotonicMillis - call.before.config.historyWindowMillis) = 0 := by
        refine List.countP_eq_zero.mpr fun bucket hbucket => ?_
        simpa using hrecent _ (List.mem_map_of_mem hbucket)
      rw [List.countP_cons, hnone]
      split_ifs <;> simp

/-- On a run over four buckets: the last call leaves the one the window begins in and its own. -/
theorem wide_uncut : openings lowAgain.before.state.history = [1, 20, 21] ∧
    openings lowAgain.after.state.history = [21, 40] ∧
    ∃ gathered, lowAgain.Gathers gathered ∧
      lowAgain.after.state.history = pruneHistory 40 10 gathered ∧
      lowAgain.after.state.history.countP (fun bucket => bucket.monotonicMillis ≤ 40 - 10) ≤ 1 ∧
      gathered.getLast? = lowAgain.after.state.history.getLast? := by
  refine ⟨by decide +kernel, by decide +kernel, ?_⟩
  rcases lowAgain.history_cases with hnone | hsame | ⟨gathered, hgathers⟩
  · exact absurd hnone (by decide +kernel)
  · exact absurd hsame (by decide +kernel)
  · obtain ⟨-, -, -, hpruned, hold, -, newest, hgathered, hleft, -⟩ :=
      (history_uncut rfl wide_run).2.2 lowAgain (by simp) gathered hgathers
    exact ⟨gathered, hgathers, hpruned, hold, hgathered.trans hleft.symm⟩

end TargetEstimator

end VirtioMem.Core
