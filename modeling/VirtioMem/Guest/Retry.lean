import VirtioMem.Guest.Emergency
import Mathlib.Data.List.DropRight

/-!
# The retry schedule

A request that did not complete is not repeated at once. The delay doubles with every further failure,
from one second up to thirty, and only requests of the last failure's direction wait for it; an Add
breaks through on the very poll that sees the guest fall into an emergency.

The requester carries the schedule in two fields that only a consumed result changes. `failures` reads
the same off the polls of a run: the results at its end since the last that completed.
`Polls.schedule` says that the fields are what `failures` says, and `retry_schedule` what follows for
the requests: the schedule holds some of them back and does nothing else.
-/

namespace VirtioMem.Core

open VirtioMem.Word

/-! ## The failures at the end of a run -/

/-- The result a poll consumes, with the time of its sample. -/
def Poll.resolution (p : Poll) : Option (MemoryResult × Nat) :=
  match p.answer with
  | .ok decision => decision.resolved.map (·, p.sample.monotonicMillis)
  | .error _ => none

/-- The results consumed since the last one that completed. -/
def failures (polls : List Poll) : List (MemoryResult × Nat) :=
  (polls.filterMap Poll.resolution).rtakeWhile fun resolved => resolved.1.outcome ≠ .completed

/-- The delay after this many failures in a row. -/
def retryDelay : Nat → Nat
  | 0 => 0
  | failed + 1 => min (1000 * 2 ^ failed) 30000

/-- What the failures throttle: the direction of the last one, since it was consumed. -/
def scheduled (failures : List (MemoryResult × Nat)) : Option Backoff :=
  failures.getLast?.map fun last =>
    ⟨last.1.request.operation, last.2, retryDelay failures.length⟩

/-- The code's doubling is the exponential. -/
theorem retryDelay_succ (failed : Nat) :
    max 1000 (min (saturatingMul (retryDelay failed) 2) 30000) = retryDelay (failed + 1) := by
  have hmax : 60000 ≤ maximum := by decide
  cases failed with
  | zero => rfl
  | succ failed =>
      have hpow : 0 < 2 ^ failed := Nat.two_pow_pos failed
      simp only [retryDelay, saturatingMul, Nat.pow_succ]
      omega

theorem failures_none {polls : List Poll} {p : Poll} (h : p.resolution = none) :
    failures (polls ++ [p]) = failures polls := by
  simp [failures, h]

/-- A result that completed ends the row, another one prolongs it. -/
theorem failures_some {polls : List Poll} {p : Poll} {resolved : MemoryResult × Nat}
    (h : p.resolution = some resolved) :
    failures (polls ++ [p]) =
      if resolved.1.outcome = .completed then [] else failures polls ++ [resolved] := by
  simp only [failures, List.filterMap_append, List.filterMap_cons, h, List.filterMap_nil,
    List.rtakeWhile_concat]
  by_cases hcompleted : resolved.1.outcome = .completed <;> simp [hcompleted]

/-! ## What a poll does to the schedule -/

namespace GuestRequester

variable {start self : GuestRequester} {polls : List Poll} {sample : TargetSample}
  {status : Option HostMemoryStatus}

/-- What a result makes of the schedule. -/
def rescheduled (self : GuestRequester) (resolved : MemoryResult × Nat) : Option Backoff × Nat :=
  if resolved.1.outcome = .completed then (none, 0)
  else
    let delay := max 1000 (min (saturatingMul self.retryDelayMillis 2) 30000)
    (some ⟨resolved.1.request.operation, resolved.2, delay⟩, delay)

/-- **Only a consumed result changes the schedule.** -/
theorem poll_schedule {p : Poll} :
    (p.after.retry, p.after.retryDelayMillis) =
      match p.resolution with
      | none => (p.before.retry, p.before.retryDelayMillis)
      | some resolved => p.before.rescheduled resolved := by
  obtain ⟨self, sample, status⟩ := p
  unfold Poll.resolution Poll.answer Poll.after
  dsimp only
  cases hpending : self.state.pending with
  | none =>
      cases hpoll : self.poll sample status with
      | mk answer after =>
          obtain ⟨estimated, assessed, hassess, ⟨rfl, hheld⟩ |
            ⟨_, _, _, _, _, -, -, -, -, -, rfl, rfl⟩⟩ := poll_idle hpending hpoll
          · obtain ⟨estimator, rfl⟩ := assess_rest hassess
            cases answer with
            | error error => rfl
            | ok decision =>
                rw [hheld decision rfl]
                rfl
          · obtain ⟨estimator, rfl⟩ := assess_rest hassess
            rfl
  | some pending =>
      rw [poll_eq]
      cases hassess : (self.flagged sample).assess sample status with
      | mk estimated assessed =>
          obtain ⟨estimator, rfl⟩ := assess_rest hassess
          cases estimated with
          | error error => rfl
          | ok estimate =>
              dsimp only
              rw [show ({ self.flagged sample with estimator } : GuestRequester).state.pending =
                some pending from hpending]
              unfold consume rescheduled
              dsimp only
              -- A retained request: the schedule moves with the result it is consumed by.
              split
              · rfl
              · next resolved _ =>
                by_cases hcompleted : resolved.outcome = .completed
                · simp [hcompleted]
                · simp [hcompleted, flagged]

/-- A new requester has no schedule. -/
theorem new_unscheduled {policy : GuestMemoryPolicy} {vm service session : String}
    {state : GuestRequestState} (h : GuestRequester.new policy vm service session state = .ok start) :
    start.retry = none ∧ start.retryDelayMillis = 0 := by
  unfold GuestRequester.new at h
  split at h
  · cases h
  split_ifs at h
  split at h
  · cases h
  split at h
  · cases h
  cases h
  exact ⟨rfl, rfl⟩

/-- **The schedule of a run is that of its failures.** -/
theorem Polls.schedule (h : Polls start polls self) (hretry : start.retry = none)
    (hdelay : start.retryDelayMillis = 0) :
    self.retry = scheduled (failures polls) ∧
      self.retryDelayMillis = retryDelay (failures polls).length := by
  induction h with
  | start => exact ⟨hretry, hdelay⟩
  | @polled polls self _ sample status ih =>
      have hpoll := @poll_schedule ⟨self, sample, status⟩
      rw [Prod.ext_iff] at hpoll
      cases hresolution : (⟨self, sample, status⟩ : Poll).resolution with
      | none =>
          rw [hresolution] at hpoll
          rw [failures_none hresolution]
          exact ⟨hpoll.1.trans ih.1, hpoll.2.trans ih.2⟩
      | some resolved =>
          rw [hresolution] at hpoll
          dsimp only [rescheduled] at hpoll
          rw [failures_some hresolution]
          split_ifs at hpoll ⊢
          · exact hpoll
          · rw [ih.2, retryDelay_succ] at hpoll
            simp only [scheduled, List.getLast?_concat, List.length_append, List.length_singleton]
            exact hpoll
  | invalidated _ ih => exact ih
  | @limited polls self _ minimum maximum ih =>
      unfold setRamLimits
      split
      exact ih

/-! ## What the schedule changes about a poll -/

/-- The requester with another schedule. -/
def withRetry (self : GuestRequester) (retry : Option Backoff) (delay : Nat) : GuestRequester :=
  { self with retry := retry, retryDelayMillis := delay }

variable {retry : Option Backoff} {delay : Nat}

theorem assess_withRetry : (self.withRetry retry delay).assess sample status =
    ((self.assess sample status).1, (self.assess sample status).2.withRetry retry delay) := by
  have hconverged' : (self.withRetry retry delay).convergedStatus sample.observedUnixMillis status =
      self.convergedStatus sample.observedUnixMillis status := rfl
  cases hconverged : self.convergedStatus sample.observedUnixMillis status with
  | some live =>
      rw [assess_converged hconverged, assess_converged (hconverged'.trans hconverged)]
      have hsame : (self.withRetry retry delay).estimator = self.estimator := rfl
      rw [hsame]
      rcases self.estimator.estimate sample (geometryOf live) with ⟨_ | _, _⟩ <;> rfl
  | none =>
      unfold assess
      rw [hconverged', hconverged]
      dsimp only
      split_ifs with hlost hlost'
      · rfl
      · exact absurd hlost hlost'
      · next hlost' => exact absurd hlost' hlost
      · rfl

theorem issue_withRetry (operation : MemoryOperation) (bytes now : Nat) :
    ((self.withRetry retry delay).issue operation bytes now).1 =
      (self.issue operation bytes now).1 := by
  unfold issue withRetry
  cases checkedAdd now self.policy.requestLifetimeMillis with
  | none => rfl
  | some expires =>
      dsimp only
      split
      · rfl
      · cases checkedAdd self.nextSequence 1 <;> rfl

/-- A request is proposed where it is planned, the clock is past the watermark, nothing throttles its
direction, and it can be issued. -/
theorem propose_issues_iff {live : HostMemoryStatus} {estimate : TargetEstimate} {emergency : Bool}
    {request : MemoryRequest} :
    (self.propose sample live estimate emergency).1 = .ok ⟨some request, true, none⟩ ↔
      planRequest (self.urge estimate live) live.device self.policy =
          .ok (some (request.operation, request.bytes)) ∧
        self.state.lastIssuedUnixMillis < sample.observedUnixMillis ∧
        (self.issue request.operation request.bytes sample.observedUnixMillis).1 =
          .ok ⟨some request, true, none⟩ ∧
        self.throttled request.operation sample.monotonicMillis emergency = false := by
  constructor
  · intro h
    unfold propose at h
    split at h
    · cases h
    · cases h
    next operation bytes hplan =>
    split_ifs at h with hclock hthrottled
    · cases h
    · cases h
    cases hissue : self.issue operation bytes sample.observedUnixMillis with
    | mk answer after =>
        rw [hissue] at h
        subst h
        rcases issue_cases hissue with ⟨error, herror, -⟩ | ⟨expires, -, hanswer, -⟩
        · cases herror
        cases hanswer
        exact ⟨hplan, not_le.mp hclock, congrArg Prod.fst hissue, Bool.eq_false_iff.mpr hthrottled⟩
  · rintro ⟨hplan, hclock, hissue, hthrottled⟩
    unfold propose
    rw [hplan]
    dsimp only
    rw [if_neg (not_le.mpr hclock), if_neg (by simp [hthrottled]), hissue]

/-- What a poll takes for an emergency. -/
def sensed (p : Poll) : Bool :=
  (p.sample.nativePressure == some .low && !p.before.nativeLow) ||
    (p.before.critical p.sample && !p.before.numericCritical)

/-- An issuing poll, in its parts. -/
theorem issues_iff {p : Poll} {request : MemoryRequest} :
    p.issues request ↔ p.before.state.pending = none ∧
      ∃ estimate estimator live,
        p.before.assess p.sample p.status = (.ok (some estimate), { p.before with estimator }) ∧
        p.before.freshStatus p.sample.observedUnixMillis p.status = some live ∧
        ((({ p.before.flagged p.sample with estimator } : GuestRequester).propose p.sample live
          estimate (sensed p)).1 = .ok ⟨some request, true, none⟩) := by
  obtain ⟨self, sample, status⟩ := p
  unfold Poll.issues Poll.answer
  dsimp only
  constructor
  · intro h
    have hpoll : self.poll sample status =
        (.ok ⟨some request, true, none⟩, (self.poll sample status).2) := Prod.ext h rfl
    have hidle : self.state.pending = none := by
      cases poll_step hpoll with
      | issued hidle => exact hidle
    refine ⟨hidle, ?_⟩
    rw [poll_eq] at h
    -- Without an estimate, or without a fresh status, nothing is proposed.
    cases hassess : self.assess sample status with
    | mk estimated assessed =>
        obtain ⟨estimator, rfl⟩ := assess_rest hassess
        rw [assess_flagged, hassess] at h
        cases estimated with
        | error error => cases h
        | ok estimate =>
            dsimp only at h
            rw [hidle] at h
            dsimp only at h
            split at h
            · next live estimate' hlive => exact ⟨estimate', estimator, live, rfl, hlive, h⟩
            · cases h
  · rintro ⟨hidle, estimate, estimator, live, hassess, hlive, hpropose⟩
    rw [poll_eq, assess_flagged, hassess]
    dsimp only
    rw [hidle]
    dsimp only
    rw [show ({ self with
        estimator := estimator
        nativeLow := sample.nativePressure == some .low
        numericCritical := self.critical sample } : GuestRequester).freshStatus
          sample.observedUnixMillis status = some live from hlive]
    exact hpropose

/-- The poll without a schedule. -/
def unscheduled (p : Poll) : Poll := { p with before := p.before.withRetry none 0 }

/-- **The schedule only throttles.** What a poll issues is what it would issue without the schedule, if
the schedule does not hold it back. -/
theorem issues_iff_unscheduled {p : Poll} {request : MemoryRequest} :
    p.issues request ↔ (unscheduled p).issues request ∧
      p.before.throttled request.operation p.sample.monotonicMillis (sensed p) = false := by
  obtain ⟨self, sample, status⟩ := p
  rw [issues_iff, issues_iff]
  show self.state.pending = none ∧ _ ↔ (self.state.pending = none ∧ _) ∧ _
  rw [and_assoc]
  refine and_congr_right fun _ => ?_
  constructor
  · rintro ⟨estimate, estimator, live, hassess, hlive, hpropose⟩
    obtain ⟨hplan, hclock, hissue, hthrottled⟩ := propose_issues_iff.mp hpropose
    refine ⟨⟨estimate, estimator, live, ?_, hlive, propose_issues_iff.mpr
      ⟨hplan, hclock, ?_, rfl⟩⟩, hthrottled⟩
    · show (self.withRetry none 0).assess sample status = _
      rw [assess_withRetry, hassess]
      rfl
    · exact (@issue_withRetry { self.flagged sample with estimator } none 0 _ _ _).trans hissue
  · rintro ⟨⟨estimate, estimator, live, hassess, hlive, hpropose⟩, hthrottled⟩
    obtain ⟨hplan, hclock, hissue, -⟩ := propose_issues_iff.mp hpropose
    change (self.withRetry none 0).assess sample status = _ at hassess
    rw [assess_withRetry] at hassess
    cases hself : self.assess sample status with
    | mk estimated assessed =>
        obtain ⟨estimator', rfl⟩ := assess_rest hself
        rw [hself] at hassess
        cases hassess
        refine ⟨estimate, estimator', live, rfl, hlive, propose_issues_iff.mpr
          ⟨hplan, hclock, ?_, hthrottled⟩⟩
        exact (@issue_withRetry { self.flagged sample with estimator := estimator' } none 0 _ _
          _).symm.trans hissue

/-- With a retained request a poll does not look at the schedule. -/
theorem poll_pending_withRetry {pending : MemoryRequest} (hpending : self.state.pending = some pending)
    (retry : Option Backoff) (delay : Nat) :
    ((self.withRetry retry delay).poll sample status).1 = (self.poll sample status).1 ∧
      ((self.withRetry retry delay).poll sample status).2.state =
        (self.poll sample status).2.state := by
  rw [poll_eq, poll_eq]
  have hflagged : (self.withRetry retry delay).flagged sample =
      (self.flagged sample).withRetry retry delay := rfl
  rw [hflagged, assess_withRetry]
  cases hassess : (self.flagged sample).assess sample status with
  | mk estimated assessed =>
      obtain ⟨estimator, rfl⟩ := assess_rest hassess
      cases estimated with
      | error error => exact ⟨rfl, rfl⟩
      | ok estimate =>
          dsimp only
          rw [show (({ self.flagged sample with estimator } : GuestRequester).withRetry retry
              delay).state.pending = some pending from hpending,
            show ({ self.flagged sample with estimator } : GuestRequester).state.pending =
              some pending from hpending]
          have haccepted : (({ self.flagged sample with estimator } : GuestRequester).withRetry retry
              delay).accepted status =
                ({ self.flagged sample with estimator } : GuestRequester).accepted status := rfl
          rw [haccepted]
          unfold consume
          dsimp only
          split
          · exact ⟨rfl, rfl⟩
          · split_ifs <;> exact ⟨rfl, rfl⟩

end GuestRequester

/-! ## The schedule over a run -/

open GuestRequester

/-- The schedule holds requests of this direction back: it is that of the last failure, the delay after
so many of them is not over, and there is no Add in an emergency that falls on this very poll. -/
def Held (policy : GuestMemoryPolicy) (polls : List Poll) (p : Poll) (operation : MemoryOperation) :
    Prop :=
  ∃ last, (failures polls).getLast? = some last ∧ last.1.request.operation = operation ∧
    last.2 ≤ p.sample.monotonicMillis ∧
    p.sample.monotonicMillis < last.2 + retryDelay (failures polls).length ∧
    ¬ (operation = .add ∧ FallsAt policy polls p)

theorem throttled_iff {policy : GuestMemoryPolicy} {start : GuestRequester} {polls : List Poll}
    {p : Poll} {operation : MemoryOperation} (hrun : Polls start polls p.before)
    (hpolicy : start.policy = policy) (hretry : start.retry = none)
    (hdelay : start.retryDelayMillis = 0) :
    p.before.throttled operation p.sample.monotonicMillis (sensed p) = true ↔
      Held policy polls p operation := by
  unfold throttled Held
  rw [(hrun.schedule hretry hdelay).1, scheduled]
  cases hlast : (failures polls).getLast? with
  | none => simp
  | some last =>
      obtain ⟨previous, hprevious⟩ : ∃ previous, polls.getLast? = some previous := by
        cases hpolls : polls.getLast? with
        | some previous => exact ⟨previous, rfl⟩
        | none =>
            rw [List.getLast?_eq_none_iff.mp hpolls] at hlast
            simp [failures] at hlast
      have hfalls := hrun.fallsAt_iff (hrun.identity.1.trans hpolicy) hprevious
      rw [← hfalls]
      simp only [Option.map_some, Option.any_some, Bool.and_eq_true, beq_iff_eq, decide_eq_true_eq,
        Bool.not_eq_true', Bool.and_eq_false_imp, Option.some.injEq, exists_eq_left', not_and,
        Bool.not_eq_true, sensed]
      constructor
      · rintro ⟨⟨⟨hoperation, hsince⟩, hwait⟩, hcalm⟩
        exact ⟨hoperation, hsince, by omega, hcalm⟩
      · rintro ⟨hoperation, hsince, hwait, hcalm⟩
        exact ⟨⟨⟨hoperation, hsince⟩, by omega⟩, hcalm⟩

/-- **The retry schedule is exactly exponential and only throttles.** In every run a poll issues what it
would issue without the schedule, unless that goes in the direction of the last of `k` failures in a row
and the clock is between the time that one was consumed and `min (1000 * 2 ^ (k - 1)) 30000` later; an
Add on a poll that sees the guest fall into an emergency is issued even then. A result that completed
ends the row. What a poll makes of a retained request does not depend on the schedule. -/
theorem retry_schedule {policy : GuestMemoryPolicy} {vm service session : String}
    {state : GuestRequestState} {start : GuestRequester} {polls : List Poll} {p : Poll}
    (hnew : GuestRequester.new policy vm service session state = .ok start)
    (hrun : Polls start polls p.before) :
    (∀ request, p.issues request ↔
      (unscheduled p).issues request ∧ ¬ Held policy polls p request.operation) ∧
    (∀ result, p.consumes result → failures (polls ++ [p]) =
      if result.outcome = .completed then []
      else failures polls ++ [(result, p.sample.monotonicMillis)]) ∧
    ∀ pending, p.before.state.pending = some pending → ∀ retry delay,
      ((p.before.withRetry retry delay).poll p.sample p.status).1 = p.answer ∧
        ((p.before.withRetry retry delay).poll p.sample p.status).2.state = p.after.state := by
  have hstart := new_unscheduled hnew
  refine ⟨fun request => ?_, fun result hresult => ?_, fun pending hpending retry delay => ?_⟩
  · rw [issues_iff_unscheduled, ← throttled_iff hrun (new_eq_ok hnew).1 hstart.1 hstart.2,
      Bool.not_eq_true]
  · have hresolution : p.resolution = some (result, p.sample.monotonicMillis) := by
      unfold Poll.resolution
      rw [hresult]
      rfl
    exact failures_some hresolution
  · exact poll_pending_withRetry hpending retry delay

/-! ## A clock that steps back

The delay runs from the time a result was consumed, and a sample from before that time does not wait for
it. The estimator, which refuses samples out of order, has not seen the consuming one: it came with a
status of a device that was still moving. -/

def movingStatus : HostMemoryStatus :=
  { pressedStatus 8000 (some pressedResult) with requestedBytes := 4 * gib + gib / 2 }

def refusedPoll : Poll := ⟨issuingPoll.after, pressedSample 3000 2 .neutral, some movingStatus⟩

def earlyPoll : Poll :=
  ⟨refusedPoll.after, pressedSample 2500 3 .neutral, some (pressedStatus 7500 none)⟩

def latePoll : Poll :=
  ⟨refusedPoll.after, pressedSample 3500 3 .neutral, some (pressedStatus 8500 none)⟩

theorem refusedPoll_run : Polls pressedStart [issuingPoll, refusedPoll] refusedPoll.after :=
  .polled (.polled .start _ _) _ _

def earlyRequest : MemoryRequest := refusedPoll.after.nextRequest .add (gib / 2) 7500 27500

theorem refused_failures :
    failures [issuingPoll, refusedPoll] = [(pressedResult, 3000)] := by
  have hissuing : issuingPoll.resolution = none := by decide +kernel
  have hrefused : refusedPoll.resolution = some (pressedResult, 3000) := by decide +kernel
  have hsplit : [issuingPoll, refusedPoll] = [issuingPoll] ++ [refusedPoll] := rfl
  rw [hsplit, failures_some hrefused, if_neg (by decide),
    show [issuingPoll] = [] ++ [issuingPoll] from rfl, failures_none hissuing]
  rfl

/-- **A step back of the clock breaks the delay.** The Add is refused at 3000 ms, and issued again on a
calm sample taken at 2500 ms. -/
theorem delay_not_kept :
    ¬ ∀ (policy : GuestMemoryPolicy) (vm service session : String) (state : GuestRequestState)
        (start : GuestRequester) (polls : List Poll) (p : Poll) (last : MemoryResult × Nat)
        (request : MemoryRequest),
        GuestRequester.new policy vm service session state = .ok start →
        Polls start polls p.before → (failures polls).getLast? = some last →
        p.issues request → request.operation = last.1.request.operation →
        last.2 + retryDelay (failures polls).length ≤ p.sample.monotonicMillis ∨
          request.operation = .add ∧ FallsAt policy polls p := by
  intro h
  have hissues : earlyPoll.issues earlyRequest := by
    show earlyPoll.answer = _
    decide +kernel
  rcases h examplePolicy "guest" "service" "session" .initial pressedStart [issuingPoll, refusedPoll]
      earlyPoll (pressedResult, 3000) earlyRequest pressedStart_new refusedPoll_run
      (by rw [refused_failures]; rfl) hissues rfl with hover | ⟨-, previous, -, hfall⟩
  · rw [refused_failures] at hover
    exact absurd hover (by decide)
  · have hlow : Signal.nativeLow.raised examplePolicy earlyPoll.sample = false := by decide
    have hphysical : Signal.physicalFloor.raised examplePolicy earlyPoll.sample = false := by decide
    have hcommit : Signal.commitFloor.raised examplePolicy earlyPoll.sample = false := by decide
    simp [hlow, hphysical, hcommit] at hfall

/-- Half a second after the refusal the same guest waits. -/
theorem latePoll_held : ¬ latePoll.IssuesAdd := by
  rintro ⟨request, hissues, hadd⟩
  refine ((retry_schedule pressedStart_new refusedPoll_run).1 request).mp hissues |>.2 ?_
  rw [hadd]
  refine ⟨(pressedResult, 3000), by rw [refused_failures]; rfl, rfl, by decide, ?_, ?_⟩
  · rw [refused_failures]
    decide
  · rintro ⟨-, previous, -, hfall⟩
    have hlow : Signal.nativeLow.raised examplePolicy latePoll.sample = false := by decide
    have hphysical : Signal.physicalFloor.raised examplePolicy latePoll.sample = false := by decide
    have hcommit : Signal.commitFloor.raised examplePolicy latePoll.sample = false := by decide
    simp [hlow, hphysical, hcommit] at hfall

end VirtioMem.Core
