import VirtioMem.Guest.Retention
import Mathlib.Data.List.DropRight
import Mathlib.Data.List.Chain

/-!
# Reclaim evidence

A guest gives memory back only after a full window of calm: every sample of the window under High
pressure, with a fresh host status, in one session and above one base, and none of them in need of
more than what would be left. The samples themselves are gone by then; what the estimator holds is a
compressed history, thrown away from half a dozen places.

`Trace` keeps what the estimator forgets: every poll with what it saw, every invalidation and every
change of the limits. `Recorded` ties the estimator's state to the trace of the run that led to it,
`recorded_of_trace` carries it along any run, and `remove_justified` reads off what a removal was
based on.
-/

namespace VirtioMem.Core

open VirtioMem.Word VirtioMem.Window

/-! ## What happened to a requester -/

/-- One event, with what the poll's estimate came to. -/
inductive Entry where
  | polled (sample : TargetSample) (status : Option HostMemoryStatus)
      (answer : Except String (Option TargetEstimate))
  | invalidated
  | limited (minimum maximum : Nat)

/-- One successful estimate of a trace. -/
structure Estimated where
  sample : TargetSample
  live : HostMemoryStatus
  estimate : TargetEstimate

namespace Estimated

def time (self : Estimated) : Nat := self.sample.monotonicMillis

/-- The fixed RAM the guest saw besides the device. -/
def base (self : Estimated) : Nat :=
  TargetEstimator.visibleBase self.sample (GuestRequester.geometryOf self.live)

def candidate (self : Estimated) : CandidateHistoryEntry :=
  TargetEstimator.candidateOf self.sample self.estimate.desiredNowBytes self.estimate.floorNowBytes

end Estimated

namespace Entry

def estimated : Entry → Option Estimated
  | polled sample (some live) (.ok (some estimate)) => some ⟨sample, live, estimate⟩
  | _ => none

/-- Nothing that speaks against reclaim: a poll that observed High with a valid fresh status and whose
estimate, if there was one, succeeded, or limits that were refused. -/
def Calm (vm service : String) (maxAgeMillis : Nat) : Entry → Prop
  | polled sample status answer =>
      sample.nativePressure = some .high ∧ (∀ error, answer ≠ .error error) ∧
        ∃ live, status = some live ∧ live.validateFor vm service = .ok () ∧
          live.freshAt sample.observedUnixMillis maxAgeMillis = true
  | invalidated => False
  | limited minimum maximum => maximum < minimum

end Entry

/-- The successful estimates of a trace, oldest first. -/
def estimates (trace : List Entry) : List Estimated := trace.filterMap Entry.estimated

/-- The estimates of a session that goes on to the end of the trace. A session lasts from the
estimate that brings a new session id to the one that brings another. -/
def sessionEstimates (session : String) (trace : List Entry) : List Estimated :=
  (estimates trace).rtakeWhile fun e => e.sample.sessionId = session

namespace GuestRequester

/-- Every run of a requester: polls with arbitrary samples and statuses, invalidations and changes of
the limits in any order. -/
inductive Trace (start : GuestRequester) : List Entry → GuestRequester → Prop
  | start : Trace start [] start
  | polled {trace : List Entry} {self : GuestRequester} (h : Trace start trace self)
      (sample : TargetSample) (status : Option HostMemoryStatus) :
      Trace start (trace ++ [.polled sample status (self.assess sample status).1])
        (self.poll sample status).2
  | invalidated {trace : List Entry} {self : GuestRequester} (h : Trace start trace self) :
      Trace start (trace ++ [.invalidated]) self.invalidateHistory
  | limited {trace : List Entry} {self : GuestRequester} (h : Trace start trace self)
      (minimum maximum : Nat) :
      Trace start (trace ++ [.limited minimum maximum]) (self.setRamLimits minimum maximum).2

end GuestRequester

@[simp] theorem estimates_append (first second : List Entry) :
    estimates (first ++ second) = estimates first ++ estimates second :=
  List.filterMap_append ..

theorem estimates_snoc_none {trace : List Entry} {entry : Entry} (h : entry.estimated = none) :
    estimates (trace ++ [entry]) = estimates trace := by
  simp [estimates, h]

theorem estimates_snoc_some {trace : List Entry} {entry : Entry} {e : Estimated}
    (h : entry.estimated = some e) : estimates (trace ++ [entry]) = estimates trace ++ [e] := by
  simp [estimates, h]

/-- The session of the newest estimate reaches further back by the old one's estimates if it is the
same session, and begins with it otherwise. -/
theorem sessionEstimates_snoc {trace : List Entry} {entry : Entry} {e : Estimated}
    (h : entry.estimated = some e) :
    sessionEstimates e.sample.sessionId (trace ++ [entry]) =
      sessionEstimates e.sample.sessionId trace ++ [e] := by
  unfold sessionEstimates
  rw [estimates_snoc_some h, List.rtakeWhile_concat_pos]
  simp

theorem sessionEstimates_eq_nil {session : String} {trace : List Entry}
    (h : ∀ e, (estimates trace).getLast? = some e → e.sample.sessionId ≠ session) :
    sessionEstimates session trace = [] := by
  unfold sessionEstimates
  rcases List.eq_nil_or_concat (estimates trace) with hnil | ⟨front, last, hlast⟩
  · rw [hnil]; rfl
  · rw [List.concat_eq_append] at hlast
    have hother := h last (by rw [hlast]; simp)
    rw [hlast, List.rtakeWhile_concat_neg]
    simpa using hother

/-- A stretch of one session at the end of a trace is part of that session. -/
theorem sessionEstimates_append {session : String} {before recent : List Entry}
    (h : ∀ e ∈ estimates recent, e.sample.sessionId = session) :
    sessionEstimates session (before ++ recent) =
      sessionEstimates session before ++ estimates recent := by
  unfold sessionEstimates List.rtakeWhile
  rw [estimates_append, List.reverse_append, List.takeWhile_append_of_pos]
  · simp
  · simpa using h

/-! ## The state and the trace -/

/-- The stretch of calm a history stands for: it begins with an estimate, holds nothing that speaks
against reclaim, stays in one session above one base without a gap, and the buckets cover all of it
but some of the oldest samples. -/
structure Streak (estimator : TargetEstimator) (vm service : String) (maxAgeMillis size block : Nat)
    (recent : List Entry) : Prop where
  begins : ∃ entry rest e, recent = entry :: rest ∧ entry.estimated = some e
  calm : ∀ entry ∈ recent, entry.Calm vm service maxAgeMillis
  session : ∀ e ∈ estimates recent, e.sample.sessionId = estimator.state.sessionId
  base : ∀ e ∈ estimates recent, estimator.state.lastVisibleBaseBytes = some e.base
  gaps : (estimates recent).IsChain fun a b => b.time - a.time ≤ estimator.config.maximumGapMillis
  covered : ∃ dropped kept, (estimates recent).map Estimated.candidate = dropped ++ kept ∧
    Covers historyScheme estimator.state.history kept
  desired : ∀ bucket ∈ estimator.state.history, bucket.desiredNowBytes ≤ estimator.state.desiredBytes
  reachable : ∀ bucket ∈ estimator.state.history, ∀ base, estimator.state.lastVisibleBaseBytes = some base →
    bucket.desiredNowBytes ≤ estimator.deviceMaximum base block (maximumTargetBytes size block)

/-- What the estimator's state says about the trace that led to it. -/
structure Recorded (estimator : TargetEstimator) (vm service : String) (maxAgeMillis size block : Nat)
    (trace : List Entry) : Prop where
  fresh : estimator.state.sessionId = "" → estimates trace = [] ∧ estimator.state.history = []
  last : ∀ e, (estimates trace).getLast? = some e →
    e.sample.sessionId = estimator.state.sessionId ∧ e.time = estimator.state.lastMonotonicMillis
  ordered : (sessionEstimates estimator.state.sessionId trace).Pairwise fun a b => a.time < b.time
  past : ∀ e ∈ sessionEstimates estimator.state.sessionId trace,
    e.time ≤ estimator.state.lastMonotonicMillis
  streak : estimator.state.history ≠ [] → ∃ before recent, trace = before ++ recent ∧
    Streak estimator vm service maxAgeMillis size block recent

section Steps

variable {self after : TargetEstimator} {vm service : String} {maxAgeMillis size block : Nat}
  {trace : List Entry} {entry : Entry}

/-- Nothing is recorded before the first event. -/
theorem recorded_initial {config : TargetPolicyConfig} {estimator : TargetEstimator}
    (h : TargetEstimator.new config = .ok estimator) :
    Recorded estimator vm service maxAgeMillis size block [] := by
  have hstate : estimator.state = .initial := by
    unfold TargetEstimator.new at h
    split at h
    · cases h
    · cases h; rfl
  exact {
    fresh := fun _ => ⟨rfl, by rw [hstate]; rfl⟩
    last := fun _ h => by simp [estimates] at h
    ordered := by simp [sessionEstimates, estimates]
    past := by simp [sessionEstimates, estimates]
    streak := fun h => absurd (by rw [hstate]; rfl) h }

/-- An event that leaves the state alone and does not speak against reclaim. -/
theorem Recorded.idle (h : Recorded self vm service maxAgeMillis size block trace)
    (hnone : entry.estimated = none) (hcalm : entry.Calm vm service maxAgeMillis) :
    Recorded self vm service maxAgeMillis size block (trace ++ [entry]) := by
  have hsame : sessionEstimates self.state.sessionId (trace ++ [entry]) =
      sessionEstimates self.state.sessionId trace := by
    unfold sessionEstimates
    rw [estimates_snoc_none hnone]
  refine {
    fresh := by rw [estimates_snoc_none hnone]; exact h.fresh
    last := by rw [estimates_snoc_none hnone]; exact h.last
    ordered := by rw [hsame]; exact h.ordered
    past := by rw [hsame]; exact h.past
    streak := fun hhistory => ?_ }
  obtain ⟨before, recent, rfl, hstreak⟩ := h.streak hhistory
  have hrecent : estimates (recent ++ [entry]) = estimates recent := estimates_snoc_none hnone
  obtain ⟨first, rest, e, rfl, hfirst⟩ := hstreak.begins
  refine ⟨before, first :: rest ++ [entry], by simp, {
    begins := ⟨first, rest ++ [entry], e, rfl, hfirst⟩
    calm := ?_
    session := by rw [hrecent]; exact hstreak.session
    base := by rw [hrecent]; exact hstreak.base
    gaps := by rw [hrecent]; exact hstreak.gaps
    covered := by rw [hrecent]; exact hstreak.covered
    desired := hstreak.desired
    reachable := hstreak.reachable }⟩
  intro other hother
  rcases List.mem_append.mp hother with hother | hother
  · exact hstreak.calm other hother
  · rw [List.mem_singleton.mp hother]; exact hcalm

/-- An event that throws the history away and changes no more than the limits. -/
theorem Recorded.cleared (h : Recorded self vm service maxAgeMillis size block trace)
    (hnone : entry.estimated = none) (hstate : after.state = self.state.invalidateHistory) :
    Recorded after vm service maxAgeMillis size block (trace ++ [entry]) := by
  have hsession : after.state.sessionId = self.state.sessionId := by rw [hstate]; rfl
  have htime : after.state.lastMonotonicMillis = self.state.lastMonotonicMillis := by
    rw [hstate]; rfl
  have hhistory : after.state.history = [] := by rw [hstate]; rfl
  have hsame : sessionEstimates self.state.sessionId (trace ++ [entry]) =
      sessionEstimates self.state.sessionId trace := by
    unfold sessionEstimates
    rw [estimates_snoc_none hnone]
  exact {
    fresh := fun hfresh => by
      rw [estimates_snoc_none hnone]
      exact ⟨(h.fresh (hsession ▸ hfresh)).1, hhistory⟩
    last := by rw [estimates_snoc_none hnone, hsession, htime]; exact h.last
    ordered := by rw [hsession, hsame]; exact h.ordered
    past := by rw [hsession, htime, hsame]; exact h.past
    streak := fun hne => absurd hhistory hne }

/-- The stretch a newly collected sample belongs to: the old one if its history was kept, and a new
one beginning with the sample otherwise. -/
theorem Recorded.extends {sample : TargetSample} {live : HostMemoryStatus}
    {estimate : TargetEstimate} {prepared : TargetEstimatorState}
    (h : Recorded self vm service maxAgeMillis size block trace)
    (hprepared : self.Prepared sample prepared)
    (hcalm : (Entry.polled sample (some live) (.ok (some estimate))).Calm vm service maxAgeMillis)
    (base : Nat) (hbase : base = Estimated.base ⟨sample, live, estimate⟩) :
    ∃ before recent dropped kept,
      trace ++ [.polled sample (some live) (.ok (some estimate))] = before ++ recent ∧
      (∃ entry rest e, recent = entry :: rest ∧ entry.estimated = some e) ∧
      (∀ entry ∈ recent, entry.Calm vm service maxAgeMillis) ∧
      (∀ e ∈ estimates recent, e.sample.sessionId = sample.sessionId ∧ e.base = base) ∧
      (estimates recent).IsChain (fun a b => b.time - a.time ≤ self.config.maximumGapMillis) ∧
      (estimates recent).map Estimated.candidate =
        dropped ++ kept ++ [Estimated.candidate ⟨sample, live, estimate⟩] ∧
      Covers historyScheme (TargetEstimator.rebase prepared base).history kept ∧
      ∀ bucket ∈ (TargetEstimator.rebase prepared base).history,
        self.state.sessionId ≠ "" ∧ prepared = self.state ∧
          bucket.desiredNowBytes ≤ self.state.desiredBytes ∧
          bucket.desiredNowBytes ≤ self.deviceMaximum base block (maximumTargetBytes size block) := by
  set entry : Entry := .polled sample (some live) (.ok (some estimate)) with hentry
  have hestimated : entry.estimated = some ⟨sample, live, estimate⟩ := rfl
  by_cases hkept : (TargetEstimator.rebase prepared base).history = []
  · refine ⟨trace, [entry], [], [], rfl, ⟨entry, [], _, rfl, hestimated⟩, ?_, ?_, ?_, rfl, ?_, ?_⟩
    · intro other hother
      rw [List.mem_singleton.mp hother]; exact hcalm
    · intro e he
      rw [show estimates [entry] = [⟨sample, live, estimate⟩] from rfl, List.mem_singleton] at he
      rw [he]; exact ⟨rfl, hbase.symm⟩
    · exact List.isChain_singleton _
    · rw [hkept]; exact covers_nil
    · rw [hkept]; simp
  · -- The history survived, so the session, the base and the gaps did too.
    rcases TargetEstimator.rebase_history prepared base with hnil | ⟨hsame, hsamebase⟩
    · exact absurd hnil hkept
    have hhistory : prepared.history ≠ [] := hsame ▸ hkept
    have hstate : prepared = self.state := by
      rcases hprepared.kept with hstate | hstate
      · exact hstate
      · exact absurd (by rw [hstate]) hhistory
    have hsession : self.state.sessionId ≠ "" := by
      intro hempty
      exact hhistory (by rw [hstate]; exact (h.fresh hempty).2)
    obtain ⟨hsamesession, hgap⟩ := hprepared.continuous hhistory hsession
    obtain ⟨before, recent, rfl, hstreak⟩ := h.streak (hstate ▸ hhistory)
    obtain ⟨dropped, kept, hcandidates, hcovers⟩ := hstreak.covered
    obtain ⟨first, rest, e₀, rfl, hfirst⟩ := hstreak.begins
    have hestimates : estimates (first :: rest ++ [entry]) =
        estimates (first :: rest) ++ [⟨sample, live, estimate⟩] := estimates_snoc_some hestimated
    have hlastbase : self.state.lastVisibleBaseBytes = some base := by
      have he₀ : e₀ ∈ estimates (first :: rest) := by simp [estimates, hfirst]
      have hb := hstreak.base e₀ he₀
      rw [hb, hsamebase e₀.base (by rw [hstate]; exact hb)]
    refine ⟨before, first :: rest ++ [entry], dropped, kept, by simp,
      ⟨first, rest ++ [entry], e₀, rfl, hfirst⟩, ?_, ?_, ?_, ?_, ?_, ?_⟩
    · intro other hother
      rcases List.mem_append.mp hother with hother | hother
      · exact hstreak.calm other hother
      · rw [List.mem_singleton.mp hother]; exact hcalm
    · intro e he
      rw [hestimates] at he
      rcases List.mem_append.mp he with he | he
      · have hb := hstreak.base e he
        rw [hlastbase] at hb
        exact ⟨(hstreak.session e he).trans hsamesession.symm, (Option.some.inj hb).symm⟩
      · rw [List.mem_singleton.mp he]; exact ⟨rfl, hbase.symm⟩
    · rw [hestimates, List.isChain_append]
      refine ⟨hstreak.gaps, List.isChain_singleton _, ?_⟩
      intro a ha b hb
      cases hb
      have hlast : (estimates (before ++ first :: rest)).getLast? = some a := by
        rw [estimates_append, List.getLast?_append, ha]
        rfl
      rw [(h.last a hlast).2]
      exact hgap
    · rw [hestimates, List.map_append, hcandidates]
      simp
    · rw [hsame, hstate]; exact hcovers
    · intro bucket hbucket
      rw [hsame, hstate] at hbucket
      exact ⟨hsession, hstate, hstreak.desired bucket hbucket,
        hstreak.reachable bucket hbucket base hlastbase⟩

/-- The session a new estimate belongs to: time has moved on from all of it. -/
theorem Recorded.advances {sample : TargetSample} {prepared : TargetEstimatorState}
    (h : Recorded self vm service maxAgeMillis size block trace)
    (hprepared : self.Prepared sample prepared) :
    (sessionEstimates sample.sessionId trace).Pairwise (fun a b => a.time < b.time) ∧
      ∀ e ∈ sessionEstimates sample.sessionId trace, e.time < sample.monotonicMillis := by
  by_cases hsame : sample.sessionId = self.state.sessionId
  · rw [hsame]
    exact ⟨h.ordered, fun e he => lt_of_le_of_lt (h.past e he) (hprepared.advances hsame).2⟩
  · have hnil : sessionEstimates sample.sessionId trace = [] := by
      refine sessionEstimates_eq_nil fun e he heq => hsame ?_
      rw [← heq, (h.last e he).1]
    rw [hnil]
    exact ⟨.nil, by simp⟩

/-- Every bucket the sample leaves is below the desired size that comes out, and below what the
device can hold above this base. -/
theorem TargetEstimator.folded_bounds {sample : TargetSample} {live : HostMemoryStatus}
    {prepared : TargetEstimatorState} {raw : InstantaneousTarget} {minimum bound desired : Nat}
    (haccepted : self.Accepted sample (GuestRequester.geometryOf live) raw prepared minimum)
    (hbound : bound = self.deviceMaximum
      (TargetEstimator.visibleBase sample (GuestRequester.geometryOf live))
      (GuestRequester.geometryOf live).blockSizeBytes raw.effectiveMaximumBytes)
    (hbuckets : ∀ bucket ∈ (TargetEstimator.rebase prepared
        (TargetEstimator.visibleBase sample (GuestRequester.geometryOf live))).history,
      self.state.sessionId ≠ "" ∧ prepared = self.state ∧
        bucket.desiredNowBytes ≤ self.state.desiredBytes ∧ bucket.desiredNowBytes ≤ bound)
    (hdesired : desired = (self.folded prepared sample (GuestRequester.geometryOf live)
        (self.limited sample (GuestRequester.geometryOf live) raw minimum)).desiredBytes ∨
      (self.folded prepared sample (GuestRequester.geometryOf live)
        (self.limited sample (GuestRequester.geometryOf live) raw minimum)).Falls desired) :
    ∀ bucket ∈ (self.folded prepared sample (GuestRequester.geometryOf live)
        (self.limited sample (GuestRequester.geometryOf live) raw minimum)).history,
      bucket.desiredNowBytes ≤ desired ∧ bucket.desiredNowBytes ≤ bound := by
  have hneeds : (self.limited sample (GuestRequester.geometryOf live) raw minimum).desiredNowBytes ≤
      bound := hbound ▸ (TargetEstimator.within_desired haccepted.minimum_le).2
  have hreach : ∀ bucket ∈ (self.folded prepared sample (GuestRequester.geometryOf live)
      (self.limited sample (GuestRequester.geometryOf live) raw minimum)).history,
      bucket.desiredNowBytes ≤ bound := by
    refine TargetEstimator.collect_forall (· ≤ bound) ?_ hneeds
    rw [TargetEstimator.raise_history]
    exact fun old hold => (hbuckets old hold).2.2.2
  refine fun bucket hbucket => ⟨?_, hreach bucket hbucket⟩
  -- Growth keeps every bucket below the desired size; so does the fall to the window's maximum.
  rcases hdesired with rfl | hfalls
  · refine TargetEstimator.collect_forall (· ≤ _) ?_ ?_ bucket hbucket
    · rw [TargetEstimator.raise_history, TargetEstimator.folded_desired]
      intro old hold
      obtain ⟨hsession, hprepared, hle, hmax⟩ := hbuckets old hold
      refine TargetEstimator.le_raise _ ?_ ?_ (hmax.trans_eq hbound)
      · rw [TargetEstimator.rebase_session, hprepared]; exact hsession
      · rw [TargetEstimator.rebase_desired, hprepared]; exact hle
    · rw [TargetEstimator.folded_desired]
      exact TargetEstimator.needs_le_raise _ _ (hneeds.trans_eq hbound)
  · exact hfalls.bounds bucket hbucket

/-- **An accepted sample** is recorded: the trace it is appended to stays tied to the state. -/
theorem Recorded.estimated {sample : TargetSample} {live : HostMemoryStatus}
    {estimate : TargetEstimate}
    (h : Recorded self vm service maxAgeMillis size block trace)
    (hestimate : self.estimate sample (GuestRequester.geometryOf live) = (.ok estimate, after))
    (hvalid : live.validateFor vm service = .ok ())
    (hfresh : live.freshAt sample.observedUnixMillis maxAgeMillis = true)
    (hsize : live.deviceSizeBytes = size) (hblock : live.blockSizeBytes = block) :
    Recorded after vm service maxAgeMillis size block
      (trace ++ [.polled sample (some live) (.ok (some estimate))]) := by
  set entry : Entry := .polled sample (some live) (.ok (some estimate)) with hentry
  have hestimated : entry.estimated = some ⟨sample, live, estimate⟩ := rfl
  obtain ⟨raw, prepared, minimum, haccepted, hconclude⟩ := TargetEstimator.estimate_eq_ok hestimate
  obtain ⟨desired, floor, -, hdesired, hresult, rfl⟩ := TargetEstimator.conclude_eq_ok hconclude
  have hsession : sample.sessionId ≠ "" :=
    TargetEstimator.not_blank_ne_empty haccepted.order.session
  have hcandidate : Estimated.candidate ⟨sample, live, estimate⟩ = TargetEstimator.candidateOf sample
      (self.limited sample (GuestRequester.geometryOf live) raw minimum).desiredNowBytes
      (self.limited sample (GuestRequester.geometryOf live) raw minimum).floorNowBytes := by
    rw [hresult]; rfl
  have hmaximum : self.deviceMaximum (Estimated.base ⟨sample, live, estimate⟩) block
      (maximumTargetBytes size block) = self.deviceMaximum
        (TargetEstimator.visibleBase sample (GuestRequester.geometryOf live))
        (GuestRequester.geometryOf live).blockSizeBytes raw.effectiveMaximumBytes := by
    rw [haccepted.sound.effectiveMaximum, ← hsize, ← hblock]; rfl
  obtain ⟨hordered, hpast⟩ := h.advances haccepted.order
  have hsnoc : sessionEstimates sample.sessionId (trace ++ [entry]) =
      sessionEstimates sample.sessionId trace ++ [⟨sample, live, estimate⟩] :=
    sessionEstimates_snoc hestimated
  refine {
    fresh := fun hempty => absurd hempty hsession
    last := ?_
    ordered := ?_
    past := ?_
    streak := fun hhistory => ?_ }
  · intro e he
    rw [estimates_snoc_some hestimated, List.getLast?_concat] at he
    cases he
    exact ⟨rfl, rfl⟩
  · show (sessionEstimates sample.sessionId (trace ++ [entry])).Pairwise _
    rw [hsnoc, List.pairwise_append]
    refine ⟨hordered, List.pairwise_singleton _ _, fun a ha b hb => ?_⟩
    rw [List.mem_singleton.mp hb]
    exact hpast a ha
  · show ∀ e ∈ sessionEstimates sample.sessionId (trace ++ [entry]), e.time ≤ sample.monotonicMillis
    rw [hsnoc]
    intro e he
    rcases List.mem_append.mp he with he | he
    · exact (hpast e he).le
    · rw [List.mem_singleton.mp he]; exact le_refl _
  · -- Only a High sample leaves a history.
    have hhigh : sample.nativePressure = some .high := by
      by_contra hother
      exact hhistory (TargetEstimator.collect_other hother)
    have hcalm : entry.Calm vm service maxAgeMillis := ⟨hhigh, nofun, live, rfl, hvalid, hfresh⟩
    obtain ⟨before, recent, dropped, kept, htrace, hbegins, hall, hsame, hgaps, hcandidates, hcovers,
      hbuckets⟩ := h.extends haccepted.order hcalm _ rfl
    obtain ⟨dropped', kept', hsplit, hcovers'⟩ := @TargetEstimator.collect_covers self
      (TargetEstimator.raise (TargetEstimator.rebase prepared
        (Estimated.base ⟨sample, live, estimate⟩)) live.currentBytes
        (self.limited sample (GuestRequester.geometryOf live) raw minimum)) sample
      (self.limited sample (GuestRequester.geometryOf live) raw minimum) kept hhigh
      (by rw [TargetEstimator.raise_history]; exact hcovers)
    have hbounds := TargetEstimator.folded_bounds haccepted hmaximum hbuckets hdesired
    refine ⟨before, recent, htrace, {
      begins := hbegins
      calm := hall
      session := fun e he => (hsame e he).1
      base := fun e he => ?_
      gaps := hgaps
      covered := ⟨dropped ++ dropped', kept', ?_, hcovers'⟩
      desired := fun bucket hbucket => (hbounds bucket hbucket).1
      reachable := fun bucket hbucket base hbase => ?_ }⟩
    · rw [(hsame e he).2]
      exact TargetEstimator.folded_base
    · rw [hcandidates, hcandidate, List.append_assoc, hsplit, List.append_assoc]
    · have hlast : base = Estimated.base ⟨sample, live, estimate⟩ :=
        Option.some.inj (hbase.symm.trans TargetEstimator.folded_base)
      rw [hlast]
      exact (hbounds bucket hbucket).2

end Steps

/-! ## Along a run -/

/-- No estimate of the trace overflowed. -/
def NoOverflow (trace : List Entry) : Prop :=
  ∀ sample status,
    Entry.polled sample status (.error TargetEstimatorError.arithmeticOverflow.toString) ∉ trace

/-- The device keeps its size and its block size. -/
def FixedGeometry (size block : Nat) (trace : List Entry) : Prop :=
  ∀ sample live answer, Entry.polled sample (some live) answer ∈ trace →
    live.deviceSizeBytes = size ∧ live.blockSizeBytes = block

namespace GuestRequester

variable {start self : GuestRequester} {size block : Nat} {trace : List Entry}

/-- The first part of a poll keeps the record. -/
theorem recorded_assess {sample : TargetSample} {status : Option HostMemoryStatus}
    (h : Recorded self.estimator self.vmName self.serviceName self.policy.hostStatusMaxAgeMillis
      size block trace)
    (hgeometry : FixedGeometry size block
      (trace ++ [.polled sample status (self.assess sample status).1]))
    (hoverflow : NoOverflow (trace ++ [.polled sample status (self.assess sample status).1])) :
    Recorded (self.assess sample status).2.estimator self.vmName self.serviceName
      self.policy.hostStatusMaxAgeMillis size block
      (trace ++ [.polled sample status (self.assess sample status).1]) := by
  cases hassess : self.assess sample status with
  | mk answer after =>
      rw [hassess] at hgeometry hoverflow
      obtain ⟨live, hlive, hestimate⟩ | ⟨rfl, rfl⟩ | ⟨rfl, rfl, hhigh, live, hlive⟩ :=
        assess_cases hassess
      · obtain ⟨rfl, hvalid, hfresh, -⟩ := convergedStatus_eq_some.mp hlive
        obtain ⟨error, estimator, rfl, rfl, herror⟩ | ⟨estimate, estimator, rfl, rfl, hok⟩ :=
          hestimate
        · have hne : error ≠ .arithmeticOverflow := by
            rintro rfl
            exact hoverflow sample (some live) (by simp)
          refine h.cleared rfl ?_
          rw [TargetEstimator.estimate_error herror hne]
          rfl
        · obtain ⟨hsize, hblock⟩ := hgeometry sample live _ (List.mem_append_right _
            (List.mem_singleton_self _))
          exact h.estimated hok hvalid hfresh hsize hblock
      · exact h.cleared (by cases status <;> rfl) rfl
      · obtain ⟨rfl, hvalid, hfresh⟩ := freshStatus_eq_some.mp hlive
        exact h.idle rfl ⟨hhigh, nofun, live, rfl, hvalid, hfresh⟩

/-- A poll keeps the estimator's policy and limits. -/
theorem assess_config {sample : TargetSample} {status : Option HostMemoryStatus} :
    (self.assess sample status).2.estimator.config = self.estimator.config ∧
      (self.assess sample status).2.estimator.minRam = self.estimator.minRam := by
  cases hassess : self.assess sample status with
  | mk answer after =>
      obtain ⟨live, -, ⟨_, _, -, rfl, hestimate⟩ | ⟨_, _, -, rfl, hestimate⟩⟩ | ⟨-, rfl⟩ |
        ⟨-, rfl, -⟩ := assess_cases hassess
      · obtain ⟨_, rfl⟩ := TargetEstimator.estimate_rest hestimate
        exact ⟨rfl, rfl⟩
      · obtain ⟨_, rfl⟩ := TargetEstimator.estimate_rest hestimate
        exact ⟨rfl, rfl⟩
      · exact ⟨rfl, rfl⟩
      · exact ⟨rfl, rfl⟩

/-- **Along any run** the estimator's state stays tied to the trace. -/
theorem recorded_of_trace (hstart : Recorded start.estimator start.vmName start.serviceName
      start.policy.hostStatusMaxAgeMillis size block [])
    (h : Trace start trace self) (hgeometry : FixedGeometry size block trace)
    (hoverflow : NoOverflow trace) :
    (self.policy = start.policy ∧ self.vmName = start.vmName ∧
      self.serviceName = start.serviceName ∧ self.estimator.config = start.estimator.config) ∧
    Recorded self.estimator self.vmName self.serviceName self.policy.hostStatusMaxAgeMillis
      size block trace := by
  have hgeometry' : ∀ {trace entry}, FixedGeometry size block (trace ++ [entry]) →
      FixedGeometry size block trace :=
    fun h sample live answer hmem => h sample live answer (List.mem_append_left _ hmem)
  have hoverflow' : ∀ {trace entry}, NoOverflow (trace ++ [entry]) → NoOverflow trace :=
    fun h sample status hmem => h sample status (List.mem_append_left _ hmem)
  induction h with
  | start => exact ⟨⟨rfl, rfl, rfl, rfl⟩, hstart⟩
  | @polled trace self _ sample status ih =>
      obtain ⟨⟨hpolicy, hvm, hservice, hconfig⟩, hrecorded⟩ :=
        ih (hgeometry' hgeometry) (hoverflow' hoverflow)
      obtain ⟨hpolicy', hvm', hservice', -⟩ := @poll_identity self sample status
      refine ⟨⟨hpolicy'.trans hpolicy, hvm'.trans hvm, hservice'.trans hservice, ?_⟩, ?_⟩
      · rw [poll_estimator, assess_config.1, hconfig]
      rw [poll_estimator, hpolicy', hvm', hservice']
      exact recorded_assess hrecorded hgeometry hoverflow
  | @invalidated trace self _ ih =>
      obtain ⟨hsame, hrecorded⟩ := ih (hgeometry' hgeometry) (hoverflow' hoverflow)
      exact ⟨hsame, hrecorded.cleared rfl rfl⟩
  | @limited trace self _ minimum maximum ih =>
      obtain ⟨hsame, hrecorded⟩ := ih (hgeometry' hgeometry) (hoverflow' hoverflow)
      unfold setRamLimits TargetEstimator.setRamLimits
      split_ifs with hlimits
      · exact ⟨hsame, hrecorded.idle rfl hlimits⟩
      · exact ⟨hsame, hrecorded.cleared rfl rfl⟩

end GuestRequester

/-! ## What a removal was based on -/

/-- What a removal of `bytes` from a converged device was based on: the rest of the device holds the
needs of every sample of the window and the configured minimum, and the window is one stretch of calm
in one session above one base. -/
structure Justified (policy : GuestMemoryPolicy) (vm service : String) (minRam : Nat)
    (trace : List Entry) (sample : TargetSample) (live : HostMemoryStatus) (bytes : Nat) : Prop where
  bytes_le : bytes ≤ live.currentBytes
  step : bytes ≤ policy.shrinkStepBytes
  /-- What is left is enough for every sample of the session estimated inside the window. -/
  needs : ∀ e ∈ sessionEstimates sample.sessionId trace,
    sample.monotonicMillis - policy.target.historyWindowMillis ≤ e.time →
      e.estimate.desiredNowBytes ≤ live.currentBytes - bytes
  /-- What is left is at least the block-aligned RAM minimum. -/
  minimum : ∃ minimum, alignUp (minRam - TargetEstimator.visibleBase sample
      (GuestRequester.geometryOf live)) live.blockSizeBytes = .ok minimum ∧
    minimum ≤ live.currentBytes - bytes
  /-- A sample at least a window old, and nothing but calm from it on. -/
  window : ∃ before first rest e, trace = before ++ first :: rest ∧ first.estimated = some e ∧
    e.time + policy.target.historyWindowMillis ≤ sample.monotonicMillis ∧
    (∀ entry ∈ first :: rest, entry.Calm vm service policy.hostStatusMaxAgeMillis) ∧
    (∀ e ∈ estimates (first :: rest), e.sample.sessionId = sample.sessionId ∧
      e.base = TargetEstimator.visibleBase sample (GuestRequester.geometryOf live)) ∧
    (estimates (first :: rest)).IsChain fun a b => b.time - a.time ≤ policy.target.maximumGapMillis

/-- A ready history covers the whole window. -/
theorem Recorded.window {estimator : TargetEstimator} {vm service : String}
    {maxAgeMillis size block now window : Nat} {trace : List Entry}
    (h : Recorded estimator vm service maxAgeMillis size block trace)
    (hnow : estimator.state.lastMonotonicMillis = now)
    (hready : historyIsReady estimator.state.history now window = true) :
    (∀ e ∈ sessionEstimates estimator.state.sessionId trace, now - window ≤ e.time →
      e.estimate.desiredNowBytes ≤ estimator.state.desiredBytes) ∧
    ∃ before first rest e, trace = before ++ first :: rest ∧ first.estimated = some e ∧
      e.time + window ≤ now ∧ Streak estimator vm service maxAgeMillis size block (first :: rest) := by
  obtain ⟨oldest, buckets, hhistory, hage⟩ := historyIsReady_iff.mp hready
  obtain ⟨before, recent, rfl, hstreak⟩ := h.streak (by simp [hhistory])
  obtain ⟨dropped, kept, hcandidates, hcovers⟩ := hstreak.covered
  rw [hhistory] at hcovers
  obtain ⟨first, rest, e₀, rfl, hfirst⟩ := hstreak.begins
  have hestimates : estimates (first :: rest) = e₀ :: estimates rest := by simp [estimates, hfirst]
  have hsession := @sessionEstimates_append _ before _ hstreak.session
  have hordered := h.ordered
  rw [hsession] at hordered
  -- The oldest bucket was opened by a sample of the stretch, so not after this one.
  obtain ⟨opener, rest', hopener, hopened⟩ := hcovers.head
  have hopenermem : opener ∈ (estimates (first :: rest)).map Estimated.candidate := by
    rw [hcandidates, hopener]; simp
  obtain ⟨e₁, he₁, rfl⟩ := List.mem_map.mp hopenermem
  have hbound : e₁.time ≤ now := by
    rw [← hnow]
    exact h.past e₁ (by rw [hsession]; exact List.mem_append_right _ he₁)
  have hopened' : e₁.time = oldest.monotonicMillis := hopened
  constructor
  · intro e he htime
    rw [hsession] at he
    have holder : ((sessionEstimates estimator.state.sessionId before).map Estimated.candidate ++
        dropped ++ kept).Pairwise fun a b => historyScheme.time a < historyScheme.time b := by
      rw [List.append_assoc, ← hcandidates, ← List.map_append, List.pairwise_map]
      exact hordered
    have hstart : historyScheme.opened oldest ≤ now - window := by
      show oldest.monotonicMillis ≤ now - window
      omega
    have hcomplete := hcovers.complete holder hstart e.candidate
      (by
        rw [List.append_assoc, ← hcandidates, ← List.map_append]
        exact List.mem_map_of_mem he)
      htime
    obtain ⟨bucket, hbucket, hbounds, -⟩ := hcovers.bounded _ hcomplete
    exact le_trans hbounds (hstreak.desired bucket (hhistory ▸ hbucket))
  · refine ⟨before, first, rest, e₀, rfl, hfirst, ?_, hstreak⟩
    have hle : e₀.time ≤ e₁.time := by
      rw [hestimates] at he₁ hordered
      rcases List.mem_cons.mp he₁ with rfl | he₁
      · exact le_refl _
      · have htail := (List.pairwise_append.mp hordered).2.1
        exact (List.rel_of_pairwise_cons htail he₁).le
    omega

namespace GuestRequester

/-- A request is planned on the estimate of the very sample it is issued with, from a fresh status of a
converged device. -/
theorem poll_issued {self after : GuestRequester} {sample : TargetSample}
    {status : Option HostMemoryStatus} {decision : GuestDecision} {request : MemoryRequest}
    (hidle : self.state.pending = none)
    (hpoll : self.poll sample status = (.ok decision, after))
    (hrequest : decision.request = some request) :
    ∃ live estimate estimator,
      self.convergedStatus sample.observedUnixMillis status = some live ∧
      self.assess sample status = (.ok (some estimate), { self with estimator }) ∧
      self.estimator.estimate sample (geometryOf live) = (.ok estimate, estimator) ∧
      planRequest ((self.flagged sample).urge estimate live) live.device self.policy =
        .ok (some (request.operation, request.bytes)) := by
  obtain ⟨estimated, assessed, hassess, ⟨-, hheld⟩ | ⟨live, estimate, operation, bytes, expires,
    hlive, rfl, hplan, -, -, hanswer, -⟩⟩ := poll_idle hidle hpoll
  · rw [hheld decision rfl] at hrequest
    cases hrequest
  cases hanswer
  cases hrequest
  -- What is flagged does not reach the estimator.
  rw [assess_flagged] at hassess
  cases hfirst : self.assess sample status with
  | mk answer first =>
      rw [hfirst] at hassess
      cases hassess
      obtain ⟨live', hconverged, ⟨_, _, herror, -⟩ | ⟨estimate', estimator, hok, rfl, hestimate⟩⟩ |
        ⟨hnone, -⟩ | ⟨hnone, -⟩ := assess_cases hfirst
      · cases herror
      · cases hok
        obtain ⟨rfl, -⟩ := convergedStatus_eq_some.mp hconverged
        cases (freshStatus_eq_some.mp hlive).1
        exact ⟨live, estimate, estimator, hconverged, rfl, hestimate, hplan⟩
      · cases hnone
      · cases hnone

/-- Urging growth never lowers the desired size. -/
theorem le_urge {self : GuestRequester} {estimate : TargetEstimate} {live : HostMemoryStatus} :
    (self.urge estimate live).historyReady = estimate.historyReady ∧
      estimate.desiredBytes ≤ (self.urge estimate live).desiredBytes := by
  unfold urge
  split_ifs
  · exact ⟨rfl, le_max_left _ _⟩
  · exact ⟨rfl, le_refl _⟩

/-- **Reclaim evidence is sound.** In every run of a requester on a device of fixed size and block
size, without an estimate that overflows, a poll that issues a removal has evidence for it. -/
theorem remove_justified {policy : GuestMemoryPolicy} {vm service session : String}
    {state : GuestRequestState} {start self after : GuestRequester} {size block : Nat}
    {trace : List Entry} {sample : TargetSample} {status : Option HostMemoryStatus}
    {decision : GuestDecision} {request : MemoryRequest}
    (hnew : GuestRequester.new policy vm service session state = .ok start)
    (hrun : Trace start trace self)
    (hgeometry : FixedGeometry size block
      (trace ++ [.polled sample status (self.assess sample status).1]))
    (hoverflow : NoOverflow (trace ++ [.polled sample status (self.assess sample status).1]))
    (hidle : self.state.pending = none)
    (hpoll : self.poll sample status = (.ok decision, after))
    (hrequest : decision.request = some request) (hremove : request.operation = .remove) :
    ∃ live, status = some live ∧ live.requestedBytes = live.currentBytes ∧
      Justified policy vm service self.estimator.minRam
        (trace ++ [.polled sample status (self.assess sample status).1]) sample live
        request.bytes := by
  obtain ⟨hpolicy, hvm, hservice, -, -, -, hestimator, hstartconfig⟩ := new_eq_ok hnew
  obtain ⟨⟨hpolicy', hvm', hservice', hconfig⟩, hrecorded⟩ := recorded_of_trace
    (recorded_initial hestimator) hrun
    (fun sample live answer hmem => hgeometry sample live answer (List.mem_append_left _ hmem))
    (fun sample status hmem => hoverflow sample status (List.mem_append_left _ hmem))
  have hafter := recorded_assess hrecorded hgeometry hoverflow
  obtain ⟨live, estimate, estimator, hlive, hassess, hestimate, hplan⟩ :=
    poll_issued hidle hpoll hrequest
  obtain ⟨rfl, -, -, hdevice⟩ := convergedStatus_eq_some.mp hlive
  rw [hremove] at hplan
  obtain ⟨hready, -, hfits, hstep, hdesired⟩ := planRequest_remove hplan
  rw [le_urge.1] at hready
  have hleft := le_trans le_urge.2 hdesired
  obtain ⟨raw, prepared, minimum, haccepted, hconclude⟩ := TargetEstimator.estimate_eq_ok hestimate
  obtain ⟨desired, floor, -, -, hresult, rfl⟩ := TargetEstimator.conclude_eq_ok hconclude
  have hconfig' : self.estimator.config = policy.target := hconfig.trans hstartconfig
  have hage : self.policy.hostStatusMaxAgeMillis = policy.hostStatusMaxAgeMillis := by
    rw [hpolicy', hpolicy]
  rw [hassess] at hafter ⊢
  obtain ⟨hneeds, before, first, rest, e, htrace, hfirst, htime, hstreak⟩ :=
    @Recorded.window _ _ _ _ _ _ sample.monotonicMillis policy.target.historyWindowMillis _ hafter rfl
      (by rw [hresult, hconfig'] at hready; exact hready)
  have hneeds' : ∀ e ∈ sessionEstimates sample.sessionId
      (trace ++ [.polled sample (some live) (.ok (some estimate))]),
      sample.monotonicMillis - policy.target.historyWindowMillis ≤ e.time →
        e.estimate.desiredNowBytes ≤ live.currentBytes - request.bytes := by
    intro e he htime
    refine le_trans (hneeds e he htime) (le_trans (le_of_eq ?_) hleft)
    rw [hresult]
  refine ⟨live, rfl, hdevice, {
    bytes_le := hfits
    step := by rw [← hpolicy, ← hpolicy']; exact hstep
    needs := hneeds'
    minimum := ⟨minimum, haccepted.aligned, ?_⟩
    window := ⟨before, first, rest, e, htrace, hfirst, htime, ?_, ?_, ?_⟩ }⟩
  · -- The minimum is below what this very sample needs.
    have hlimit := (@TargetEstimator.within_desired raw _ _ haccepted.minimum_le).1
    have hsample := hneeds' ⟨sample, live, estimate⟩
      (by
        show _ ∈ sessionEstimates (Estimated.sample ⟨sample, live, estimate⟩).sessionId _
        rw [sessionEstimates_snoc (e := ⟨sample, live, estimate⟩) rfl]
        simp)
      (Nat.sub_le _ _)
    refine le_trans hlimit (le_trans (le_of_eq ?_) hsample)
    rw [hresult]
    rfl
  · intro entry hentry
    have hcalm := hstreak.calm entry hentry
    rw [hvm', hvm, hservice', hservice, hage] at hcalm
    exact hcalm
  · intro other hother
    refine ⟨hstreak.session other hother, ?_⟩
    have hbase := hstreak.base other hother
    exact (Option.some.inj (TargetEstimator.folded_base.symm.trans hbase)).symm
  · have hchain := hstreak.gaps
    rw [← hconfig']
    exact hchain

/-! ## A removal after one second of calm -/

def reclaimPolicy : GuestMemoryPolicy :=
  { examplePolicy with
    target := { examplePolicy.target with historyWindowMillis := 1000, maximumGapMillis := 2000 } }

/-- 5 GiB of the 6 GiB the guest sees are free. -/
def calmSample (monotonic sequence : Nat) : TargetSample where
  sessionId := "session"
  observedUnixMillis := 5000 + monotonic
  monotonicMillis := monotonic
  sequence := sequence
  memory := {
    physicalTotalBytes := 6 * gib
    physicalAvailableBytes := 5 * gib
    memoryLoadPercent := 17
    commitTotalBytes := gib
    commitLimitBytes := 8 * gib
    commitPeakBytes := gib }
  nativePressure := some .high

def reclaimStart : GuestRequester :=
  { restartedRequester with
    policy := reclaimPolicy
    estimator := { restartedRequester.estimator with config := reclaimPolicy.target }
    state := .initial
    sessionId := "session" }

theorem reclaimStart_new :
    GuestRequester.new reclaimPolicy "guest" "service" "session" .initial = .ok reclaimStart := by
  decide

def reclaimWaiting : GuestRequester :=
  (reclaimStart.poll (calmSample 1000 1) (some grownStatus)).2

def reclaimRequest : MemoryRequest :=
  reclaimWaiting.nextRequest .remove (gib / 4) 7000 27000

/-- The second sample completes the window and a quarter GiB goes back. -/
theorem reclaimWaiting_justified :
    Justified reclaimPolicy "guest" "service" 0
      [.polled (calmSample 1000 1) (some grownStatus)
          (reclaimStart.assess (calmSample 1000 1) (some grownStatus)).1,
        .polled (calmSample 2000 2) (some grownStatus)
          (reclaimWaiting.assess (calmSample 2000 2) (some grownStatus)).1]
      (calmSample 2000 2) grownStatus (gib / 4) := by
  have hfirst : ∀ error,
      (reclaimStart.assess (calmSample 1000 1) (some grownStatus)).1 ≠ .error error := by
    have hok : (reclaimStart.assess (calmSample 1000 1) (some grownStatus)).1.isOk = true := by decide
    intro error h
    rw [h] at hok
    cases hok
  have hsecond : ∀ error,
      (reclaimWaiting.assess (calmSample 2000 2) (some grownStatus)).1 ≠ .error error := by
    have hok : (reclaimWaiting.assess (calmSample 2000 2) (some grownStatus)).1.isOk = true := by
      decide
    intro error h
    rw [h] at hok
    cases hok
  obtain ⟨live, hlive, -, h⟩ := @remove_justified _ _ _ _ _ _ reclaimWaiting _ (8 * gib)
    (2 * 2 ^ 20)
    [.polled (calmSample 1000 1) (some grownStatus)
      (reclaimStart.assess (calmSample 1000 1) (some grownStatus)).1]
    (calmSample 2000 2) (some grownStatus) ⟨some reclaimRequest, true, none⟩ reclaimRequest
    reclaimStart_new (.polled .start (calmSample 1000 1) (some grownStatus))
    (by
      intro sample live answer hmem
      simp only [List.cons_append, List.nil_append, List.mem_cons, Entry.polled.injEq,
        Option.some.injEq, List.not_mem_nil, or_false] at hmem
      obtain ⟨-, rfl, -⟩ | ⟨-, rfl, -⟩ := hmem <;> exact ⟨rfl, rfl⟩)
    (by
      intro sample status hmem
      simp only [List.cons_append, List.nil_append, List.mem_cons, Entry.polled.injEq,
        List.not_mem_nil, or_false] at hmem
      obtain ⟨-, -, herror⟩ | ⟨-, -, herror⟩ := hmem
      · exact hfirst _ herror.symm
      · exact hsecond _ herror.symm)
    (by decide) (Prod.ext (by decide) rfl) rfl rfl
  cases hlive
  exact h

end GuestRequester

end VirtioMem.Core
