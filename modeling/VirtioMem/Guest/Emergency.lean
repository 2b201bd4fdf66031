import VirtioMem.Guest.Retention

/-!
# Emergencies and the Add delay

A growth request that did not complete is retried after a delay of up to thirty seconds, and a guest
that falls into native Low or below a safety floor meanwhile is not meant to wait for it. The requester
sees such a fall by comparing a sample with the one before, on every poll; what it sees lets growth
through only at the end of that same poll.

`Poll` is one poll with the requester it found, `Polls` a run of them. `Emergency` says that a signal
has been raised since some poll after an Add that did not complete. `emergency_issues_iff` then gives
the exact line: the Add is issued where the fall falls on this very poll or the delay is over. A fall
on any other poll, for instance one without a fresh status, is forgotten.
-/

namespace VirtioMem.Core

open VirtioMem.Word

/-- One poll, with the requester it found. -/
structure Poll where
  before : GuestRequester
  sample : TargetSample
  status : Option HostMemoryStatus

namespace Poll

def answer (p : Poll) : Except String GuestDecision := (p.before.poll p.sample p.status).1

def after (p : Poll) : GuestRequester := (p.before.poll p.sample p.status).2

def issues (p : Poll) (request : MemoryRequest) : Prop := p.answer = .ok ⟨some request, true, none⟩

def IssuesAdd (p : Poll) : Prop := ∃ request, p.issues request ∧ request.operation = .add

/-- The result this poll consumes. -/
def consumes (p : Poll) (result : MemoryResult) : Prop := p.answer = .ok ⟨none, true, some result⟩

end Poll

namespace GuestRequester

/-- Every run of a requester: polls with arbitrary samples and statuses, and between them
invalidations and changes of the limits. -/
inductive Polls (start : GuestRequester) : List Poll → GuestRequester → Prop
  | start : Polls start [] start
  | polled {polls : List Poll} {self : GuestRequester} (h : Polls start polls self)
      (sample : TargetSample) (status : Option HostMemoryStatus) :
      Polls start (polls ++ [⟨self, sample, status⟩]) (self.poll sample status).2
  | invalidated {polls : List Poll} {self : GuestRequester} (h : Polls start polls self) :
      Polls start polls self.invalidateHistory
  | limited {polls : List Poll} {self : GuestRequester} (h : Polls start polls self)
      (minimum maximum : Nat) : Polls start polls (self.setRamLimits minimum maximum).2

end GuestRequester

/-! ## An emergency -/

/-- What may be raised: Windows' own classification, or one of the two safety floors. -/
inductive Signal where
  | nativeLow
  | physicalFloor
  | commitFloor
  deriving DecidableEq, Repr

def Signal.raised (policy : GuestMemoryPolicy) (sample : TargetSample) : Signal → Bool
  | .nativeLow => sample.nativePressure == some .low
  | .physicalFloor =>
      sample.memory.physicalAvailableBytes < policy.target.safeFloorPhysicalReserveBytes
  | .commitFloor => sample.memory.commitLimitBytes - sample.memory.commitTotalBytes <
      policy.target.safeFloorCommitReserveBytes

/-- Since an Add that did not complete was issued, a signal has been raised and still is at `p`, and
no Add was issued since. `polls` are those before `p`. -/
structure Emergency (policy : GuestMemoryPolicy) (polls : List Poll) (p : Poll) (signal : Signal)
    (request : MemoryRequest) (result : MemoryResult) (first later since : List Poll)
    (issuing ending calm turn : Poll) : Prop where
  trace : polls ++ [p] = first ++ issuing :: later
  issued : issuing.issues request ∧ request.operation = .add
  ended : ending ∈ later ∧ ending.consumes result ∧ result.request = request ∧
    result.outcome ≠ .completed
  turned : [calm, turn] ++ since <:+ issuing :: later
  calm : signal.raised policy calm.sample = false
  raised : ∀ q ∈ turn :: since, signal.raised policy q.sample = true
  quiet : ∀ q ∈ (turn :: since).dropLast, ¬ q.IssuesAdd

/-- The poll has everything an Add needs but the passing of the delay: nothing is retained, the status
is fresh and of a converged device, the estimate succeeds and asks for growth, and the wall clock is
past the watermark. -/
structure GrowthDue (p : Poll) (live : HostMemoryStatus) (estimate : TargetEstimate)
    (assessed : GuestRequester) (bytes : Nat) : Prop where
  idle : p.before.state.pending = none
  clock : p.before.state.lastIssuedUnixMillis < p.sample.observedUnixMillis
  converged : p.before.convergedStatus p.sample.observedUnixMillis p.status = some live
  estimated : (p.before.flagged p.sample).assess p.sample p.status = (.ok (some estimate), assessed)
  wanted : planRequest (assessed.urge estimate live) live.device assessed.policy =
    .ok (some (.add, bytes))

/-- An Add delay is still running. -/
def Poll.Delayed (p : Poll) : Prop :=
  ∃ since delay, p.before.retry = some ⟨.add, since, delay⟩ ∧
    since ≤ p.sample.monotonicMillis ∧ p.sample.monotonicMillis - since < delay

/-- Whether this sample is the first after one that was not low, or not below a safety floor. -/
def FallsAt (policy : GuestMemoryPolicy) (polls : List Poll) (p : Poll) : Prop :=
  ∃ previous, polls.getLast? = some previous ∧
    ((Signal.nativeLow.raised policy p.sample = true ∧
        Signal.nativeLow.raised policy previous.sample = false) ∨
      ((Signal.physicalFloor.raised policy p.sample = true ∨
          Signal.commitFloor.raised policy p.sample = true) ∧
        Signal.physicalFloor.raised policy previous.sample = false ∧
          Signal.commitFloor.raised policy previous.sample = false))

/-! ## What a run keeps -/

namespace GuestRequester

variable {start self : GuestRequester} {polls : List Poll}

/-- A run never changes who the requester is. -/
theorem Polls.identity (h : Polls start polls self) :
    self.policy = start.policy ∧ self.vmName = start.vmName ∧
      self.serviceName = start.serviceName ∧ self.sessionId = start.sessionId := by
  induction h with
  | start => exact ⟨rfl, rfl, rfl, rfl⟩
  | @polled polls self _ sample status ih =>
      obtain ⟨hpolicy, hvm, hservice, hsession⟩ := @poll_identity self sample status
      exact ⟨hpolicy.trans ih.1, hvm.trans ih.2.1, hservice.trans ih.2.2.1,
        hsession.trans ih.2.2.2⟩
  | invalidated _ ih => exact ih
  | @limited polls self _ minimum maximum ih =>
      unfold setRamLimits
      split
      exact ih

/-- The flags are those of the last poll. -/
theorem Polls.flags (h : Polls start polls self) {previous : Poll}
    (hlast : polls.getLast? = some previous) :
    self.nativeLow = Signal.nativeLow.raised start.policy previous.sample ∧
      self.numericCritical = (Signal.physicalFloor.raised start.policy previous.sample ||
        Signal.commitFloor.raised start.policy previous.sample) := by
  induction h with
  | start => cases hlast
  | @polled polls self hrun sample status _ =>
      simp only [List.getLast?_append, List.getLast?_singleton, Option.some_or,
        Option.some.injEq] at hlast
      subst hlast
      obtain ⟨_, _, _, _, hrest⟩ := @poll_rest self sample status
      rw [hrest, assess_flagged]
      refine ⟨rfl, ?_⟩
      show self.critical sample = _
      unfold critical
      rw [hrun.identity.1]
      rfl
  | invalidated _ ih => exact ih hlast
  | @limited polls self _ minimum maximum ih =>
      unfold setRamLimits
      split
      exact ih hlast

/-- What a poll takes for an emergency is a fall since the poll before. -/
theorem Polls.fallsAt_iff {policy : GuestMemoryPolicy} {p previous : Poll}
    (h : Polls start polls p.before) (hpolicy : p.before.policy = policy)
    (hprevious : polls.getLast? = some previous) :
    (((p.sample.nativePressure == some .low && !p.before.nativeLow) ||
      (p.before.critical p.sample && !p.before.numericCritical)) = true) ↔
      FallsAt policy polls p := by
  obtain ⟨hlow, hcritical⟩ := h.flags hprevious
  rw [h.identity.1] at hpolicy
  rw [hlow, hcritical, show p.before.critical p.sample =
    (Signal.physicalFloor.raised start.policy p.sample ||
      Signal.commitFloor.raised start.policy p.sample) by unfold critical; rw [h.identity.1]; rfl,
    hpolicy]
  simp only [FallsAt, hprevious, Option.some.injEq, exists_eq_left', Bool.or_eq_true,
    Bool.and_eq_true, Bool.not_eq_true', Bool.or_eq_false_iff]
  rfl

/-! ## Issuing -/

theorem new_valid {policy : GuestMemoryPolicy} {vm service session : String}
    {state : GuestRequestState}
    (h : GuestRequester.new policy vm service session state = .ok start) :
    policy.validate = .ok () ∧ [vm, service, session].all validIdentity = true := by
  unfold GuestRequester.new at h
  split at h
  · cases h
  next hpolicy =>
  split_ifs at h with hidentity
  exact ⟨hpolicy, by simpa using hidentity⟩

variable {policy : GuestMemoryPolicy} {vm service session : String} {state : GuestRequestState}
  {p : Poll} {live : HostMemoryStatus} {estimate : TargetEstimate} {assessed : GuestRequester}
  {bytes : Nat}

/-- A request of a valid requester is issued where its expiry and the next sequence number fit. -/
theorem issue_eq {operation : MemoryOperation} {now : Nat} (hpolicy : self.policy.validate = .ok ())
    (hidentity : [self.vmName, self.serviceName, self.sessionId].all validIdentity = true)
    (hbytes : 0 < bytes) (hnow : 0 < now)
    (hfits : now + self.policy.requestLifetimeMillis ≤ maximum)
    (hsequence : self.nextSequence < maximum) :
    (self.issue operation bytes now).1 = .ok ⟨some (self.nextRequest operation bytes now
      (now + self.policy.requestLifetimeMillis)), true, none⟩ := by
  have hlifetime : 0 < self.policy.requestLifetimeMillis ∧
      self.policy.requestLifetimeMillis ≤ maxRequestLifetimeMillis := by
    unfold GuestMemoryPolicy.validate at hpolicy
    split at hpolicy
    · cases hpolicy
    split_ifs at hpolicy with hsteps hlife
    omega
  have hexpires : checkedAdd now self.policy.requestLifetimeMillis =
      some (now + self.policy.requestLifetimeMillis) := checkedAdd_eq_some.mpr ⟨rfl, hfits⟩
  have hnext : checkedAdd self.nextSequence 1 = some (self.nextSequence + 1) :=
    checkedAdd_eq_some.mpr ⟨rfl, by omega⟩
  have hvalid : (self.nextRequest operation bytes now
      (now + self.policy.requestLifetimeMillis)).validate = .ok () := by
    refine MemoryRequest.validate_eq_ok.mpr ⟨rfl, hidentity, hbytes, hnow, ?_, ?_⟩
    · show now < now + self.policy.requestLifetimeMillis
      omega
    · show now + self.policy.requestLifetimeMillis - now ≤ maxRequestLifetimeMillis
      omega
  unfold issue
  rw [hexpires]
  dsimp only
  have hvalid' := hvalid
  unfold nextRequest at hvalid'
  rw [hvalid']
  dsimp only
  rw [hnext]
  rfl

/-- A planned Add that is not throttled is issued where its expiry and the next sequence number fit. -/
theorem issue_isIssued_iff {now : Nat} (hpolicy : self.policy.validate = .ok ())
    (hidentity : [self.vmName, self.serviceName, self.sessionId].all validIdentity = true)
    (hbytes : 0 < bytes) (hnow : 0 < now) :
    (∃ request, (self.issue .add bytes now).1 = .ok ⟨some request, true, none⟩ ∧
        request.operation = .add) ↔
      now + self.policy.requestLifetimeMillis ≤ maximum ∧ self.nextSequence < maximum := by
  constructor
  · rintro ⟨request, hissued, -⟩
    unfold issue at hissued
    split at hissued
    · cases hissued
    next expires hexpires =>
    dsimp only at hissued
    split at hissued
    · cases hissued
    split at hissued
    · cases hissued
    next nextSequence hnext =>
    obtain ⟨-, hfits⟩ := checkedAdd_eq_some.mp hexpires
    obtain ⟨-, hsequence⟩ := checkedAdd_eq_some.mp hnext
    exact ⟨hfits, by omega⟩
  · rintro ⟨hfits, hsequence⟩
    exact ⟨_, issue_eq hpolicy hidentity hbytes hnow hfits hsequence, rfl⟩

/-- The Add delay as `throttled` sees it. -/
theorem throttled_add_iff (hretry : assessed.retry = p.before.retry) {emergency : Bool} :
    assessed.throttled .add p.sample.monotonicMillis emergency = true ↔
      p.Delayed ∧ emergency = false := by
  unfold throttled Poll.Delayed
  rw [hretry]
  cases h : p.before.retry with
  | none => simp
  | some retry =>
      obtain ⟨operation, since, delay⟩ := retry
      simp only [Option.any_some, Bool.and_eq_true, beq_iff_eq, decide_eq_true_eq,
        Bool.not_eq_true', Bool.and_eq_false_imp, Option.some.injEq, Backoff.mk.injEq]
      constructor
      · rintro ⟨⟨⟨rfl, hsince⟩, hdelay⟩, hemergency⟩
        exact ⟨⟨since, delay, ⟨rfl, rfl, rfl⟩, hsince, hdelay⟩, by simpa using hemergency⟩
      · rintro ⟨⟨_, _, ⟨rfl, rfl, rfl⟩, hsince, hdelay⟩, rfl⟩
        exact ⟨⟨⟨rfl, hsince⟩, hdelay⟩, fun _ => rfl⟩

/-- What a poll answers that has everything but the passing of the delay. -/
theorem growthDue_answer (h : GrowthDue p live estimate assessed bytes) {emergency : Bool}
    (hemergency : emergency = ((p.sample.nativePressure == some .low && !p.before.nativeLow) ||
      (p.before.critical p.sample && !p.before.numericCritical))) :
    p.answer = if assessed.throttled .add p.sample.monotonicMillis emergency = true then .ok hold
      else (assessed.issue .add bytes p.sample.observedUnixMillis).1 := by
  obtain ⟨estimator, rfl⟩ := assess_rest h.estimated
  have hfresh : ({ p.before.flagged p.sample with estimator } : GuestRequester).freshStatus
      p.sample.observedUnixMillis p.status = some live := by
    have hconverged := h.converged
    rw [convergedStatus_eq_some] at hconverged
    exact freshStatus_eq_some.mpr ⟨hconverged.1, hconverged.2.1, hconverged.2.2.1⟩
  unfold Poll.answer
  rw [poll_eq, h.estimated]
  dsimp only
  rw [show ({ p.before.flagged p.sample with estimator } : GuestRequester).state.pending = none
    from h.idle]
  dsimp only
  rw [hfresh]
  dsimp only
  rw [← hemergency]
  unfold propose
  rw [h.wanted]
  dsimp only
  rw [if_neg (not_le.mpr (show ({ p.before.flagged p.sample with estimator } :
    GuestRequester).state.lastIssuedUnixMillis < _ from h.clock))]
  split <;> rfl

end GuestRequester

open GuestRequester

/-- **An emergency is served where it falls on this very poll, or where the delay is over.** In every
run, for a signal raised since an Add that did not complete: a poll with everything an Add needs issues
it exactly if the sample before was still calm or no Add delay is running (and the expiry and the next
sequence number fit their words). -/
theorem emergency_issues_iff {policy : GuestMemoryPolicy} {vm service session : String}
    {state : GuestRequestState} {start assessed : GuestRequester} {polls first later since : List Poll}
    {p issuing ending calm turn : Poll} {signal : Signal} {request : MemoryRequest}
    {result : MemoryResult} {live : HostMemoryStatus} {estimate : TargetEstimate} {bytes : Nat}
    (hnew : GuestRequester.new policy vm service session state = .ok start)
    (hrun : Polls start polls p.before)
    (hemergency : Emergency policy polls p signal request result first later since issuing ending calm
      turn)
    (hdue : GrowthDue p live estimate assessed bytes) :
    p.IssuesAdd ↔ (FallsAt policy polls p ∨ ¬ p.Delayed) ∧
      p.sample.observedUnixMillis + policy.requestLifetimeMillis ≤ maximum ∧
        p.before.nextSequence < maximum := by
  obtain ⟨hpolicy, hvm, hservice, hsession, -⟩ := new_eq_ok hnew
  obtain ⟨hvalid, hidentity⟩ := new_valid hnew
  obtain ⟨hpolicy', hvm', hservice', hsession'⟩ := hrun.identity
  -- The poll that consumed the result lies between the Add and this one.
  have hprevious : ∃ previous, polls.getLast? = some previous := by
    have hlength := congrArg List.length hemergency.trace
    have hlater := List.length_pos_of_mem hemergency.ended.1
    simp only [List.length_append, List.length_cons, List.length_nil] at hlength
    cases hpolls : polls.getLast? with
    | some previous => exact ⟨previous, rfl⟩
    | none =>
        rw [List.getLast?_eq_none_iff.mp hpolls] at hlength
        simp only [List.length_nil] at hlength
        omega
  obtain ⟨previous, hprevious⟩ := hprevious
  have hfalls := hrun.fallsAt_iff (hpolicy'.trans hpolicy) hprevious
  have hanswer := growthDue_answer hdue rfl
  obtain ⟨estimator, rfl⟩ := assess_rest hdue.estimated
  have hissue := @issue_isIssued_iff { p.before.flagged p.sample with estimator } bytes
    p.sample.observedUnixMillis
    (by show p.before.policy.validate = _; rw [hpolicy', hpolicy]; exact hvalid)
    (by
      show [p.before.vmName, p.before.serviceName, p.before.sessionId].all validIdentity = true
      rw [hvm', hservice', hsession', hvm, hservice, hsession]
      exact hidentity)
    (by obtain ⟨rfl, hwants⟩ := planRequest_add hdue.wanted; omega)
    (by have := hdue.clock; omega)
  change _ ↔ p.sample.observedUnixMillis + p.before.policy.requestLifetimeMillis ≤ maximum ∧
    p.before.nextSequence < maximum at hissue
  rw [hpolicy', hpolicy] at hissue
  have hthrottled := @throttled_add_iff p { p.before.flagged p.sample with estimator } rfl
    ((p.sample.nativePressure == some .low && !p.before.nativeLow) ||
      (p.before.critical p.sample && !p.before.numericCritical))
  unfold Poll.IssuesAdd Poll.issues
  rw [hanswer]
  split
  · next h =>
    obtain ⟨hdelayed, hnone⟩ := hthrottled.mp h
    refine iff_of_false (fun ⟨_, hheld, _⟩ => by cases hheld) ?_
    rintro ⟨hfall | hover, -⟩
    · rw [hfalls.mpr hfall] at hnone
      cases hnone
    · exact hover hdelayed
  · next h =>
    rw [hissue]
    refine ⟨fun hfits => ⟨?_, hfits⟩, fun hfits => hfits.2⟩
    by_cases hdelayed : p.Delayed
    · left
      rw [← hfalls]
      by_contra hnone
      exact h (hthrottled.mpr ⟨hdelayed, by simpa using hnone⟩)
    · exact .inr hdelayed

/-! ## A fall inside a running delay

An Add is issued above the safety floors and the host refuses it, which starts a delay of a second.
Windows falls into Low within it. On a poll with a fresh status the fall is served at once; on one
without, it is forgotten, and the next poll holds. -/

def pressedSample (monotonic sequence : Nat) (pressure : MemoryResourceNotificationState) :
    TargetSample where
  sessionId := "session"
  observedUnixMillis := 5000 + monotonic
  monotonicMillis := monotonic
  sequence := sequence
  memory := {
    physicalTotalBytes := 6 * gib
    physicalAvailableBytes := gib + gib / 2
    memoryLoadPercent := 75
    commitTotalBytes := gib
    commitLimitBytes := 8 * gib
    commitPeakBytes := gib }
  nativePressure := some pressure

def pressedStatus (observed : Nat) (result : Option MemoryResult) : HostMemoryStatus :=
  { grownStatus with observedUnixMillis := observed, result := result }

def pressedStart : GuestRequester :=
  { restartedRequester with state := .initial, sessionId := "session" }

theorem pressedStart_new :
    GuestRequester.new examplePolicy "guest" "service" "session" .initial = .ok pressedStart := by
  decide

def pressedRequest : MemoryRequest := pressedStart.nextRequest .add (gib / 2) 6000 26000

def pressedResult : MemoryResult := ⟨pressedRequest, .poolEmpty, 0, 6500, some "pool empty"⟩

def issuingPoll : Poll := ⟨pressedStart, pressedSample 1000 1 .neutral, some (pressedStatus 6000 none)⟩

def consumingPoll : Poll :=
  ⟨issuingPoll.after, pressedSample 2000 2 .neutral, some (pressedStatus 7000 (some pressedResult))⟩

/-- The fall, with a fresh status. -/
def servedPoll : Poll := ⟨consumingPoll.after, pressedSample 2300 3 .low, some (pressedStatus 7300 none)⟩

/-- The fall, without one. -/
def fallingPoll : Poll := ⟨consumingPoll.after, pressedSample 2300 3 .low, none⟩

def heldPoll : Poll := ⟨fallingPoll.after, pressedSample 2600 4 .low, some (pressedStatus 7600 none)⟩

/-- What the polls answer. -/
theorem pressed_answers : issuingPoll.issues pressedRequest ∧
    consumingPoll.answer = .ok ⟨none, true, some pressedResult⟩ ∧ fallingPoll.answer = .ok hold ∧
    heldPoll.answer = .ok hold := by
  show issuingPoll.answer = _ ∧ _
  decide +kernel

theorem servedPoll_run : Polls pressedStart [issuingPoll, consumingPoll] servedPoll.before :=
  .polled (.polled .start _ _) _ _

theorem heldPoll_run :
    Polls pressedStart [issuingPoll, consumingPoll, fallingPoll] heldPoll.before :=
  .polled servedPoll_run _ _

theorem servedPoll_emergency :
    Emergency examplePolicy [issuingPoll, consumingPoll] servedPoll .nativeLow pressedRequest
      pressedResult [] [consumingPoll, servedPoll] [] issuingPoll consumingPoll consumingPoll
      servedPoll where
  trace := rfl
  issued := ⟨pressed_answers.1, rfl⟩
  ended := ⟨by simp, pressed_answers.2.1, rfl, by decide⟩
  turned := ⟨[issuingPoll], rfl⟩
  calm := by decide
  raised := by
    rw [List.forall_mem_singleton]
    rfl
  quiet _ h := absurd h List.not_mem_nil

theorem heldPoll_emergency :
    Emergency examplePolicy [issuingPoll, consumingPoll, fallingPoll] heldPoll .nativeLow
      pressedRequest pressedResult [] [consumingPoll, fallingPoll, heldPoll] [heldPoll] issuingPoll
      consumingPoll consumingPoll fallingPoll where
  trace := rfl
  issued := ⟨pressed_answers.1, rfl⟩
  ended := ⟨by simp, pressed_answers.2.1, rfl, by decide⟩
  turned := ⟨[issuingPoll], rfl⟩
  calm := by decide
  raised := by
    simp only [List.forall_mem_cons]
    exact ⟨rfl, rfl, fun _ h => absurd h List.not_mem_nil⟩
  quiet := by
    simp only [List.dropLast_cons_cons, List.dropLast_singleton, List.forall_mem_cons]
    refine ⟨?_, fun _ h => absurd h List.not_mem_nil⟩
    rintro ⟨request, hissued, -⟩
    cases pressed_answers.2.2.1.symm.trans hissued

/-- What either poll asks for. -/
def pressedEstimate : TargetEstimate where
  desiredBytes := 4 * gib + gib / 2
  safeFloorBytes := 4 * gib
  desiredNowBytes := 4 * gib + gib / 2
  floorNowBytes := 3 * gib + gib / 2
  effectiveMaximumBytes := 8 * gib
  historyReady := false
  capacityLimited := false

theorem servedPoll_due : GrowthDue servedPoll (pressedStatus 7300 none) pressedEstimate
    ((servedPoll.before.flagged servedPoll.sample).assess servedPoll.sample servedPoll.status).2
    gib where
  idle := by decide +kernel
  clock := by decide +kernel
  converged := by decide +kernel
  estimated := Prod.ext (by decide +kernel) rfl
  wanted := by decide +kernel

theorem heldPoll_due : GrowthDue heldPoll (pressedStatus 7600 none) pressedEstimate
    ((heldPoll.before.flagged heldPoll.sample).assess heldPoll.sample heldPoll.status).2 gib where
  idle := by decide +kernel
  clock := by decide +kernel
  converged := by decide +kernel
  estimated := Prod.ext (by decide +kernel) rfl
  wanted := by decide +kernel

theorem heldPoll_delayed : heldPoll.Delayed :=
  ⟨2000, 1000, by decide +kernel, by decide, by decide⟩

/-- The fall is served on its own poll, and on the next one it is too late. -/
theorem emergency_served_at_once : servedPoll.IssuesAdd ∧ ¬ heldPoll.IssuesAdd := by
  have hserved := emergency_issues_iff pressedStart_new servedPoll_run servedPoll_emergency
    servedPoll_due
  have hheld := emergency_issues_iff pressedStart_new heldPoll_run heldPoll_emergency heldPoll_due
  constructor
  · have hfalls : FallsAt examplePolicy [issuingPoll, consumingPoll] servedPoll :=
      ⟨consumingPoll, rfl, .inl ⟨rfl, rfl⟩⟩
    exact hserved.mpr ⟨.inl hfalls, by decide, by decide +kernel⟩
  · intro hissues
    rcases (hheld.mp hissues).1 with ⟨previous, hprevious, hfalls⟩ | hover
    · cases hprevious
      revert hfalls
      decide
    · exact hover heldPoll_delayed

/-- An emergency that still holds is not served. -/
theorem emergency_forgotten :
    ¬ ∀ (policy : GuestMemoryPolicy) (vm service session : String) (state : GuestRequestState)
        (start assessed : GuestRequester) (polls first later since : List Poll)
        (p issuing ending calm turn : Poll) (signal : Signal) (request : MemoryRequest)
        (result : MemoryResult) (live : HostMemoryStatus) (estimate : TargetEstimate) (bytes : Nat),
        GuestRequester.new policy vm service session state = .ok start →
        Polls start polls p.before →
        Emergency policy polls p signal request result first later since issuing ending calm turn →
        GrowthDue p live estimate assessed bytes → p.IssuesAdd := by
  intro h
  obtain ⟨request, hissued, -⟩ := h _ _ _ _ _ _ _ _ _ _ _ _ _ _ _ _ _ _ _ _ _ _ pressedStart_new
    heldPoll_run heldPoll_emergency heldPoll_due
  cases pressed_answers.2.2.2.symm.trans hissued

end VirtioMem.Core
