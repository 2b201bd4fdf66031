import VirtioMem.Guest.Worker
import VirtioMem.Guest.Retention
import VirtioMem.Core.Journal

/-!
# Two watermarks

The guest and the host each keep a durable watermark: the guest the issue time of its last request,
the host the last request it admitted. They are written by different programs that crash and restart
on their own, and the only thing between them is a file that may be read late, twice or not at all.
If they ever disagreed, the guest's one slot could never be resolved.

`GuestWorld` is what survives the guest's service, together with a record of everything it ever
published. `guestLaw` is the protocol a service must keep with it: retain a request before publishing
it, and only after the watermark. The worker keeps it (`pollOnce_safe`); what holds of every world it
keeps (`WatermarkInv`) then settles what a host journal fed from the publications can say.
-/

namespace VirtioMem.Guest

open VirtioMem.Core VirtioMem.Effect

/-! ## The guest's world -/

structure GuestWorld where
  disk : GuestRequestState
  /-- Every request that was ever durable, oldest first. -/
  retained : List MemoryRequest
  /-- The request of every publication, oldest first. -/
  published : List MemoryRequest
  /-- Every session id that was used, and the one in use. -/
  sessions : List String
  session : String
  nextSequence : Nat
  /-- The service was told to stop: nothing is written any more. -/
  cancelled : Bool

namespace GuestWorld

/-- No service has run yet. The empty session id is not a valid one, so nobody uses it. -/
def initial : GuestWorld where
  disk := .initial
  retained := []
  published := []
  sessions := [""]
  session := ""
  nextSequence := 0
  cancelled := false

/-- A new service process, under a new session id. -/
def restart (w : GuestWorld) (session : String) : GuestWorld :=
  { w with
    sessions := session :: w.sessions
    session := session
    nextSequence := 0
    cancelled := false }

/-- A replacement that reports success without having written was cancelled, and a cancelled service
replaces nothing. -/
def persist (w : GuestWorld) (state : GuestRequestState) (replaced : Replaced) : GuestWorld :=
  if w.cancelled then w
  else if replaced.written then
    { w with
      disk := state
      retained := w.retained ++ state.pending.toList
      nextSequence := (state.pending.map (·.identity.sequence + 1)).getD w.nextSequence }
  else { w with cancelled := replaced.result.isOk }

def publish (w : GuestWorld) (envelope : RawTelemetryEnvelope) (replaced : Replaced) : GuestWorld :=
  if w.cancelled || !replaced.written then w
  else { w with published := w.published ++ envelope.request.toList }

/-- What an answered operation makes of the world. -/
def next (w : GuestWorld) : (op : WorkerOp) → WorkerAns op → GuestWorld
  | .persist state, replaced => w.persist state replaced
  | .publish envelope, replaced => w.publish envelope replaced
  | .collect, _ | .nowUnixMillis, _ | .monotonicMillis, _ | .nativePressure, _ | .readStatus, _ => w

end GuestWorld

/-- The states a service may make durable: its retained request resolved, or a new one retained
beyond the watermark. -/
def Advances (w : GuestWorld) (state : GuestRequestState) : Prop :=
  state = { w.disk with pending := none } ∨
    ∃ request, state = ⟨some request, request.issuedUnixMillis⟩ ∧
      w.disk.lastIssuedUnixMillis < request.issuedUnixMillis ∧
      request.identity.sessionId = w.session ∧ w.nextSequence ≤ request.identity.sequence

/-- The protocol of the service with its files: it publishes no request but the durable one. -/
def guestLaw : Monitor GuestWorld WorkerOp WorkerAns where
  may w op := w.cancelled = true ∨ match op with
    | .persist state => Advances w state
    | .publish envelope => ∀ request, envelope.request = some request → w.disk.pending = some request
    | _ => True
  next := GuestWorld.next

/-! ## The worker keeps the protocol -/

/-- The worker's memory agrees with its files. -/
def Coupled (self : GuestMemoryWorker) (w : GuestWorld) : Prop :=
  w.cancelled = true ∨
    (self.requester.state = w.disk ∧ self.requester.sessionId = w.session ∧
      w.nextSequence ≤ self.requester.nextSequence)

/-- What the policy decided, before its state is durable: nothing has changed and only the durable
request is published, or the new state is one the service may retain. -/
def Decided (decision : GuestDecision) (self : GuestMemoryWorker) (w : GuestWorld) : Prop :=
  w.cancelled = true ∨
    (decision.persist = false ∧ Coupled self w ∧
      ∀ r, decision.request = some r → w.disk.pending = some r) ∨
    (decision.persist = true ∧ Advances w self.requester.state ∧
      self.requester.sessionId = w.session ∧
      (self.requester.state.pending.map (·.identity.sequence + 1)).getD w.nextSequence ≤
        self.requester.nextSequence ∧
      ∀ r, decision.request = some r → self.requester.state.pending = some r)

theorem decided_of_poll {self : GuestMemoryWorker} {w : GuestWorld} {sample : TargetSample}
    {status : Option HostMemoryStatus} {decision : GuestDecision} {after : GuestRequester}
    (h : Coupled self w) (hpoll : self.requester.poll sample status = (.ok decision, after)) :
    Decided decision { self with requester := after } w := by
  rcases h with hcancelled | ⟨hstate, hsession, hsequence⟩
  · exact .inl hcancelled
  obtain ⟨-, -, -, hidentity⟩ := @GuestRequester.poll_identity self.requester sample
    status
  rw [hpoll] at hidentity
  have hsame : after.sessionId = w.session := hidentity.trans hsession
  right
  cases GuestRequester.poll_step hpoll with
  | kept hrequest hafter hnext =>
      exact .inl ⟨rfl, .inr ⟨hafter.trans hstate, hsame, hnext ▸ hsequence⟩,
        fun r hr => hstate ▸ hrequest r hr⟩
  | resolved hafter hnext =>
      refine .inr ⟨rfl, .inl (by rw [hafter, hstate]), hsame, ?_, nofun⟩
      show (after.state.pending.map _).getD _ ≤ after.nextSequence
      rw [hafter, hnext]
      exact hsequence
  | issued hidle hwatermark hown hrequest hafter hnext =>
      refine .inr ⟨rfl, .inr ⟨_, hafter, hstate ▸ hwatermark, hown.trans hsession, ?_⟩, hsame, ?_, ?_⟩
      · rw [hrequest]; exact hsequence
      · show (after.state.pending.map _).getD _ ≤ after.nextSequence
        rw [hafter, hnext]
        simp [hrequest]
      · intro r hr
        rw [hafter]
        exact hr

open GuestMemoryWorker

/-- What may be published: a durable request or none. -/
def Publishable (request : Option MemoryRequest) (w : GuestWorld) : Prop :=
  w.cancelled = true ∨ ∀ r, request = some r → w.disk.pending = some r

/-- **Persist before publish.** A replacement that reports success has made the new state durable, or
the service was told to stop and will not write again. -/
theorem persistIf_safe {decision : GuestDecision} {self : GuestMemoryWorker} {w : GuestWorld}
    (h : Decided decision self w) :
    Action.wp guestLaw (persistIf decision.persist)
      (fun _ self' w => self' = self ∧ Coupled self w ∧ Publishable decision.request w)
      (fun _ self' _ => self' = self) self w := by
  unfold persistIf
  rw [Action.wp_ite]
  simp only [Action.wp_bind, Action.wp_get, Action.wp_perform, Action.wp_ofExcept, Action.wp_pure]
  rcases h with hcancelled | ⟨hkept, hcoupled, hrequest⟩ | ⟨hpersist, hadvances, hsession, hnext,
    hrequest⟩
  · refine ⟨fun _ => ⟨.inl hcancelled, fun replaced => ⟨fun _ _ => ?_, fun _ _ => trivial⟩⟩,
      fun _ => ⟨trivial, .inl hcancelled, .inl hcancelled⟩⟩
    have hstays : (w.persist self.requester.state replaced).cancelled = true := by
      simp [GuestWorld.persist, hcancelled]
    exact ⟨trivial, .inl hstays, .inl hstays⟩
  · exact ⟨fun hpersist => by simp [hkept] at hpersist,
      fun _ => ⟨trivial, hcoupled, .inr hrequest⟩⟩
  · refine ⟨fun _ => ⟨.inr hadvances, fun replaced => ⟨fun _ hok => ⟨trivial, ?_⟩, fun _ _ => trivial⟩⟩,
      fun hkept => absurd hpersist hkept⟩
    show Coupled self (w.persist self.requester.state replaced) ∧
      Publishable decision.request (w.persist self.requester.state replaced)
    unfold GuestWorld.persist
    by_cases hcancelled : w.cancelled = true
    · rw [if_pos hcancelled]
      exact ⟨.inl hcancelled, .inl hcancelled⟩
    rw [if_neg hcancelled]
    by_cases hwritten : replaced.written = true
    · rw [if_pos hwritten]
      exact ⟨.inr ⟨rfl, hsession, hnext⟩, .inr hrequest⟩
    · rw [if_neg hwritten]
      have hstop : replaced.result.isOk = true := by
        rw [labelled, labelled, Result.mapError_eq_ok, Result.mapError_eq_ok] at hok
        rw [hok]
        rfl
      exact ⟨.inl hstop, .inl hstop⟩

theorem requestsPoll_safe {self : GuestMemoryWorker} {w : GuestWorld} (sample : TargetSample)
    (h : Coupled self w) :
    Action.wp guestLaw (requestsPoll sample)
      (fun request self' w => self'.collectionFailed = self.collectionFailed ∧ Coupled self' w ∧
        Publishable request w)
      (fun _ self' _ => self'.collectionFailed = self.collectionFailed) self w := by
  unfold requestsPoll consult
  simp only [Action.wp_bind, Action.wp_perform, Action.wp_ofExcept, Action.wp_get, Action.wp_modify,
    Action.wp_pure]
  refine ⟨.inr trivial, fun _ => ⟨fun status _ => ⟨fun decision hdecision => ?_,
    fun _ _ => trivial⟩, fun _ _ => trivial⟩⟩
  rw [labelled, Result.mapError_eq_ok] at hdecision
  refine Action.wp_mono (persistIf_safe (decided_of_poll h (Prod.ext hdecision rfl))) ?_ ?_
  · rintro _ _ w ⟨rfl, hcoupled, hpublishable⟩
    exact ⟨rfl, hcoupled, hpublishable⟩
  · rintro _ _ _ rfl
    rfl

/-- **The worker keeps the protocol**, and stays in agreement with its files unless it ends. -/
theorem pollOnce_safe {self : GuestMemoryWorker} {w : GuestWorld} (h : Coupled self w) :
    Action.wp guestLaw pollOnce (fun _ self w => Coupled self w)
      (fun _ self w => self.collectionFailed = true → Coupled self w) self w := by
  unfold pollOnce collectMemory
  simp only [Action.wp_bind, Action.wp_perform, Action.wp_ofExcept, Action.wp_get, Action.wp_modify,
    Action.wp_pure]
  -- Only a failed memory read leaves the worker running after an error.
  have hfatal : ∀ {P : Prop}, false = true → P := by
    intro P hfalse
    cases hfalse
  refine ⟨.inr trivial, fun _ => ⟨fun memory _ => ?_, fun _ _ _ => h⟩⟩
  refine ⟨.inr trivial, fun _ => ⟨fun now _ => ?_, fun _ _ => hfatal⟩⟩
  refine ⟨.inr trivial, fun _ => ⟨fun monotonic _ => ?_, fun _ _ => hfatal⟩⟩
  refine ⟨fun _ _ => ⟨.inr trivial, fun pressure => ?_⟩, fun _ _ => hfatal⟩
  refine Action.wp_mono (@requestsPoll_safe { self with collectionFailed := false } _ _ h) ?_ ?_
  · rintro request self' w ⟨hcollected, hcoupled, hpublishable⟩
    have hends : ∀ {P : Prop}, self'.collectionFailed = true → P := by
      intro P hfailed
      rw [hcollected] at hfailed
      cases hfailed
    refine ⟨hpublishable, fun published => ⟨fun _ _ => ⟨fun _ _ => ?_, fun _ _ => hends⟩,
      fun _ _ => hends⟩⟩
    show Coupled _ (w.publish _ published)
    unfold GuestWorld.publish
    split_ifs
    · exact hcoupled
    · exact hcoupled
  · intro _ self' _ hcollected hfailed
    rw [hcollected] at hfailed
    cases hfailed

theorem pollOrRetry_safe {self : GuestMemoryWorker} {w : GuestWorld} (h : Coupled self w) :
    (pollOrRetry self).Safe guestLaw (fun next w => ∀ self, next = some self → Coupled self w) w := by
  refine Prog.safe_bind.mpr ((pollOnce_safe h).mono ?_)
  rintro ⟨_ | _, self⟩ w hcoupled
  · show (if self.collectionFailed then _ else _ : Prog _ _ _).Safe _ _ _
    split_ifs with hfailed
    · rintro _ ⟨⟩
      exact hcoupled hfailed
    · exact nofun
  · rintro _ ⟨⟩
    exact hcoupled

/-! ## What the protocol keeps -/

/-- One request was issued after the other, and within a session also under a larger number. -/
def Before (first second : MemoryRequest) : Prop :=
  first.issuedUnixMillis < second.issuedUnixMillis ∧
    (first.identity.sessionId = second.identity.sessionId →
      first.identity.sequence < second.identity.sequence)

/-- The retained requests are in order, the guest's watermark covers them all, the pending one is the
newest, and nothing was published that was not retained. -/
structure WatermarkInv (w : GuestWorld) : Prop where
  ordered : w.retained.Pairwise Before
  covered : ∀ r ∈ w.retained, r.issuedUnixMillis ≤ w.disk.lastIssuedUnixMillis
  sessions : ∀ r ∈ w.retained, r.identity.sessionId ∈ w.sessions
  sequences : ∀ r ∈ w.retained, r.identity.sessionId = w.session →
    r.identity.sequence < w.nextSequence
  newest : ∀ r, w.disk.pending = some r → w.retained.getLast? = some r
  durable : ∀ r ∈ w.published, r ∈ w.retained
  publications : w.published.Pairwise fun first second => first = second ∨ Before first second
  current : w.session ∈ w.sessions

theorem WatermarkInv.restart {w : GuestWorld} (h : WatermarkInv w) {session : String}
    (hfresh : session ∉ w.sessions) : WatermarkInv (w.restart session) :=
  { h with
    sessions := fun r hr => List.mem_cons_of_mem _ (h.sessions r hr)
    sequences := by
      intro r hr (hsame : r.identity.sessionId = session)
      rw [← hsame] at hfresh
      exact absurd (h.sessions r hr) hfresh
    current := List.mem_cons_self }

/-- Everything retained is the newest request or was issued before it. -/
theorem WatermarkInv.before_newest {w : GuestWorld} (h : WatermarkInv w) {newest r : MemoryRequest}
    (hnewest : w.retained.getLast? = some newest) (hr : r ∈ w.retained) :
    r = newest ∨ Before r newest := by
  obtain ⟨front, hfront⟩ := List.getLast?_eq_some_iff.mp hnewest
  have hordered := h.ordered
  rw [hfront] at hr hordered
  rcases List.mem_append.mp hr with hr | hr
  · exact .inr ((List.pairwise_append.mp hordered).2.2 r hr newest (List.mem_singleton_self _))
  · exact .inl (List.mem_singleton.mp hr)

theorem WatermarkInv.persist {w : GuestWorld} (h : WatermarkInv w) {state : GuestRequestState}
    (hmay : w.cancelled = true ∨ Advances w state) (replaced : Replaced) :
    WatermarkInv (w.persist state replaced) := by
  unfold GuestWorld.persist
  by_cases hcancelled : w.cancelled = true
  · rw [if_pos hcancelled]; exact h
  rw [if_neg hcancelled]
  by_cases hwritten : replaced.written = true
  · rw [if_pos hwritten]
    rcases hmay with hmay | hadvances
    · exact absurd hmay hcancelled
    rcases hadvances with rfl | ⟨request, rfl, hwatermark, hsession, hsequence⟩
    · -- The retained request was resolved; nothing is added.
      have hsame : w.retained ++ (none : Option MemoryRequest).toList = w.retained := by simp
      exact { h with
        ordered := by rw [hsame]; exact h.ordered
        covered := by rw [hsame]; exact h.covered
        sessions := by rw [hsame]; exact h.sessions
        sequences := by rw [hsame]; exact h.sequences
        newest := nofun
        durable := by rw [hsame]; exact h.durable }
    · -- A new request beyond the watermark goes to the end.
      have hbefore : ∀ r ∈ w.retained, Before r request := fun r hr =>
        ⟨lt_of_le_of_lt (h.covered r hr) hwatermark,
          fun hsame => lt_of_lt_of_le (h.sequences r hr (hsame.trans hsession)) hsequence⟩
      exact {
        ordered := by
          refine List.pairwise_append.mpr ⟨h.ordered, List.pairwise_singleton _ _, ?_⟩
          intro r hr other hother
          rw [List.mem_singleton.mp hother]
          exact hbefore r hr
        covered := by
          intro r hr
          rcases List.mem_append.mp hr with hr | hr
          · exact (lt_of_le_of_lt (h.covered r hr) hwatermark).le
          · rw [List.mem_singleton.mp hr]
        sessions := by
          intro r hr
          rcases List.mem_append.mp hr with hr | hr
          · exact h.sessions r hr
          · rw [List.mem_singleton.mp hr, hsession]; exact h.current
        sequences := by
          intro r hr hsame
          rcases List.mem_append.mp hr with hr | hr
          · exact lt_of_lt_of_le (h.sequences r hr hsame) (le_trans hsequence (Nat.le_succ _))
          · rw [List.mem_singleton.mp hr]; exact Nat.lt_succ_self _
        newest := by
          rintro _ ⟨⟩
          exact List.getLast?_concat ..
        durable := fun r hr => List.mem_append_left _ (h.durable r hr)
        publications := h.publications
        current := h.current }
  · rw [if_neg hwritten]
    exact { h with }

theorem WatermarkInv.publish {w : GuestWorld} (h : WatermarkInv w)
    {envelope : RawTelemetryEnvelope} (hmay : Publishable envelope.request w)
    (replaced : Replaced) : WatermarkInv (w.publish envelope replaced) := by
  unfold GuestWorld.publish
  split_ifs with hsilent
  · exact h
  simp only [Bool.or_eq_true, not_or, Bool.not_eq_true] at hsilent
  cases hrequest : envelope.request with
  | none => simpa using { h with }
  | some request =>
      rcases hmay with hmay | hpending
      · rw [hsilent.1] at hmay; cases hmay
      have hnewest := h.newest request (hpending request hrequest)
      exact { h with
        durable := by
          intro r hr
          rcases List.mem_append.mp hr with hr | hr
          · exact h.durable r hr
          · rw [List.mem_singleton.mp hr]; exact List.mem_of_getLast? hnewest
        publications := by
          refine List.pairwise_append.mpr ⟨h.publications, List.pairwise_singleton _ _, ?_⟩
          intro r hr other hother
          rw [List.mem_singleton.mp hother]
          exact h.before_newest hnewest (h.durable r hr) }

/-- **One step** of a service that keeps the protocol keeps the invariant. -/
theorem WatermarkInv.next {w : GuestWorld} (h : WatermarkInv w) {op : WorkerOp}
    (hmay : guestLaw.may w op) (answer : WorkerAns op) : WatermarkInv (guestLaw.next w op answer) := by
  cases op with
  | persist state => exact h.persist hmay answer
  | publish envelope => exact h.publish hmay answer
  | collect | nowUnixMillis | monotonicMillis | nativePressure | readStatus => exact h

/-- **A whole run** keeps it, wherever it is cut. -/
theorem WatermarkInv.after {w : GuestWorld} (h : WatermarkInv w) {events : List (Event WorkerAns)}
    (haccepts : guestLaw.Accepts w events) : WatermarkInv (guestLaw.after w events) := by
  induction events generalizing w with
  | nil => exact h
  | cons event events ih => exact ih (h.next haccepts.1 event.2) haccepts.2

theorem watermarkInv_initial : WatermarkInv .initial where
  ordered := .nil
  covered := nofun
  sessions := nofun
  sequences := nofun
  newest := nofun
  durable := nofun
  publications := .nil
  current := List.mem_singleton_self _

/-! ## The guest and the host together -/

/-- One event of either side. The host reads whatever publication is there, saves when it likes and
may come back from what it saved. -/
inductive Label where
  | started (session : String)
  | worker (event : Event WorkerAns)
  | admitted (request : MemoryRequest) (vm service : String) (now futureToleranceMillis : Nat)
  | recorded (result : MemoryResult)
  | saved
  | reloaded

structure System where
  guest : GuestWorld
  journal : MemoryRequestJournal
  checkpoint : MemoryRequestJournal

namespace System

def initial : System := ⟨.initial, .empty, .empty⟩

def next (s : System) : Label → System
  | .started session => { s with guest := s.guest.restart session }
  | .worker event => { s with guest := s.guest.next event.1 event.2 }
  | .admitted request vm service now tolerance =>
    { s with journal := (s.journal.admitRequest request vm service now tolerance).2 }
  | .recorded result => { s with journal := (s.journal.recordResult result).2 }
  | .saved => { s with checkpoint := s.journal }
  | .reloaded => { s with journal := s.checkpoint }

def after (labels : List Label) : System := labels.foldl next initial

end System

/-- Every request the host admits stands in some publication, current or stale. -/
def Fed : System → List Label → Prop
  | _, [] => True
  | s, label :: labels =>
    (∀ request vm service now tolerance, label = .admitted request vm service now tolerance →
      request ∈ s.guest.published) ∧ Fed (s.next label) labels

/-- The guest's part of the labels, in order. -/
def guestLabels (labels : List Label) : List Label :=
  labels.filter fun
    | .started _ | .worker _ => true
    | _ => false

/-- **Every run of the guest's service.** A process starts under a fresh session id from what is on
disk, polls, and ends with an error, a stop or a crash at any point; the clocks, the counters and the
host's statuses are whatever the operations answer. -/
inductive ServiceRun (vm service : String) : List Label → Option GuestMemoryWorker → Prop
  | fresh : ServiceRun vm service [] none
  | start {labels : List Label} {process : Option GuestMemoryWorker} {session : String}
      {policy : GuestMemoryPolicy} {requester : GuestRequester} (minRam maxRam : Nat)
      (h : ServiceRun vm service labels process)
      (hfresh : session ∉ (System.after labels).guest.sessions)
      (hnew : GuestRequester.new policy vm service session (System.after labels).guest.disk =
        .ok requester) :
      ServiceRun vm service (labels ++ [.started session])
        (some (.new (requester.setRamLimits minRam maxRam).2))
  | poll {labels : List Label} {self : GuestMemoryWorker} {next : Option GuestMemoryWorker}
      {events : List (Event WorkerAns)} (h : ServiceRun vm service labels (some self))
      (hruns : (GuestMemoryWorker.pollOrRetry self).Runs events (some next)) :
      ServiceRun vm service (labels ++ events.map .worker) next
  | crash {labels : List Label} {self : GuestMemoryWorker}
      {events : List (Event WorkerAns)} (h : ServiceRun vm service labels (some self))
      (hruns : (GuestMemoryWorker.pollOrRetry self).Runs events none) :
      ServiceRun vm service (labels ++ events.map .worker) none

theorem after_append (first second : List Label) :
    System.after (first ++ second) = second.foldl System.next (System.after first) := by
  simp [System.after]

theorem after_worker (s : System) (events : List (Event WorkerAns)) :
    (events.map Label.worker).foldl System.next s =
      { s with guest := guestLaw.after s.guest events } := by
  induction events generalizing s with
  | nil => rfl
  | cons event events ih => exact ih _

/-- **Along any run of the service** the invariant holds, and a running process agrees with its
files. -/
theorem serviceRun_inv {vm service : String} {labels : List Label}
    {process : Option GuestMemoryWorker} (h : ServiceRun vm service labels process) :
    WatermarkInv (System.after labels).guest ∧
      ∀ self, process = some self → Coupled self (System.after labels).guest := by
  have hruns : ∀ {labels self events result},
      (WatermarkInv (System.after labels).guest ∧
        ∀ self', some self = some self' → Coupled self' (System.after labels).guest) →
      (GuestMemoryWorker.pollOrRetry self).Runs events result →
      WatermarkInv (System.after (labels ++ events.map Label.worker)).guest ∧
        ∀ next self, result = some next → next = some self →
          Coupled self (System.after (labels ++ events.map Label.worker)).guest := by
    rintro labels self events result ⟨hinv, hcoupled⟩ hruns
    obtain ⟨haccepts, hpost⟩ := (pollOrRetry_safe (hcoupled self rfl)).accepts hruns
    rw [after_append, after_worker]
    exact ⟨hinv.after haccepts, fun next self hresult hnext => hpost next hresult self hnext⟩
  induction h with
  | fresh => exact ⟨watermarkInv_initial, nofun⟩
  | @start labels process session policy requester minRam maxRam _ hfresh hnew ih =>
      rw [after_append]
      refine ⟨ih.1.restart hfresh, ?_⟩
      rintro _ ⟨⟩
      obtain ⟨-, -, -, hsession, hstate, -, -, -⟩ := GuestRequester.new_eq_ok hnew
      exact .inr ⟨hstate, hsession, Nat.zero_le _⟩
  | poll _ hrun ih =>
      obtain ⟨hinv, hcoupled⟩ := hruns ih hrun
      exact ⟨hinv, fun self hnext => hcoupled _ self rfl hnext⟩
  | crash _ hrun ih => exact ⟨(hruns ih hrun).1, nofun⟩

/-! ## What the host can answer -/

/-- The guest's world does not depend on the host, apart from what its operations answer. -/
theorem guest_after (labels : List Label) :
    (System.after labels).guest = (System.after (guestLabels labels)).guest := by
  have hfold : ∀ (labels : List Label) (s t : System), s.guest = t.guest →
      (labels.foldl System.next s).guest = ((guestLabels labels).foldl System.next t).guest := by
    intro labels
    induction labels with
    | nil => exact fun _ _ h => h
    | cons label labels ih =>
        intro s t h
        cases label with
        | started session => exact ih _ _ (congrArg (GuestWorld.restart · session) h)
        | worker event => exact ih _ _ (congrArg (GuestWorld.next · event.1 event.2) h)
        | admitted | recorded | saved | reloaded => exact ih _ _ h
  exact hfold labels _ _ rfl

/-- Publications are never taken back. -/
theorem published_next (s : System) (label : Label) :
    s.guest.published ⊆ (s.next label).guest.published := by
  intro r hr
  cases label with
  | started | admitted | recorded | saved | reloaded => exact hr
  | worker event =>
      obtain ⟨op, answer⟩ := event
      cases op with
      | persist state =>
          show r ∈ (s.guest.persist state answer).published
          unfold GuestWorld.persist
          split_ifs <;> exact hr
      | publish envelope =>
          show r ∈ (s.guest.publish envelope answer).published
          unfold GuestWorld.publish
          split_ifs
          · exact hr
          · exact List.mem_append_left _ hr
      | collect | nowUnixMillis | monotonicMillis | nativePressure | readStatus => exact hr

/-- A journal holds only what was published. -/
def HoldsPublished (s : System) (journal : MemoryRequestJournal) : Prop :=
  ∀ request, journal.request = some request → request ∈ s.guest.published

theorem journal_published {labels : List Label} :
    ∀ {s : System}, HoldsPublished s s.journal → HoldsPublished s s.checkpoint → Fed s labels →
      HoldsPublished (labels.foldl System.next s) (labels.foldl System.next s).journal := by
  induction labels with
  | nil => exact fun hjournal _ _ => hjournal
  | cons label labels ih =>
      intro s hjournal hcheckpoint hfed
      have hgrows : ∀ {journal}, HoldsPublished s journal →
          HoldsPublished (s.next label) journal :=
        fun h request hrequest => published_next s label (h request hrequest)
      refine ih ?_ ?_ hfed.2
      · cases label with
        | started | worker | saved => exact hgrows hjournal
        | reloaded => exact hgrows hcheckpoint
        | admitted request vm service now tolerance =>
            have hpublished := hfed.1 request vm service now tolerance rfl
            intro other hother
            rcases MemoryRequestJournal.admit_request hother with hsame | rfl
            · exact hjournal other hsame
            · exact hpublished
        | recorded result =>
            intro other hother
            exact hjournal other (MemoryRequestJournal.recordResult_request.symm.trans hother)
      · cases label with
        | started | worker | admitted | recorded | reloaded => exact hgrows hcheckpoint
        | saved => exact hgrows hjournal

/-- A journalled publication stands in no way of the pending request. -/
theorem admit_pending {w : GuestWorld} (h : WatermarkInv w) {journal : MemoryRequestJournal}
    (hjournal : ∀ request, journal.request = some request → request ∈ w.published)
    {pending : MemoryRequest} (hpending : w.disk.pending = some pending) (vm service : String)
    (now tolerance : Nat) :
    (journal.admitRequest pending vm service now tolerance).1 ≠ .error MemoryRequestJournal.predates ∧
      (journal.admitRequest pending vm service now tolerance).1 ≠ .error MemoryRequestJournal.reused := by
  have hbefore : ∀ previous, journal.request = some previous → previous ≠ pending →
      Before previous pending := by
    intro previous hprevious hdifferent
    rcases h.before_newest (h.newest pending hpending) (h.durable previous
      (hjournal previous hprevious)) with hsame | hbefore
    · exact absurd hsame hdifferent
    · exact hbefore
  constructor <;> intro hrefused
  · rcases MemoryRequestJournal.admit_refusal hrefused with hother | ⟨hother, -⟩ |
      ⟨-, previous, hprevious, hdifferent, hmark⟩
    · exact absurd hother (by decide)
    · exact absurd hother (by decide)
    · obtain ⟨hissued, hsequence⟩ := hbefore previous hprevious hdifferent
      rcases hmark with hmark | ⟨hsession, hmark⟩
      · omega
      · have hlt := hsequence hsession.symm
        omega
  · rcases MemoryRequestJournal.admit_refusal hrefused with hother |
      ⟨-, previous, hprevious, hidentity, hdifferent⟩ | ⟨hother, -⟩
    · exact absurd hother (by decide)
    · obtain ⟨-, hsequence⟩ := hbefore previous hprevious hdifferent
      rw [hidentity] at hsequence
      exact absurd (hsequence rfl) (lt_irrefl _)
    · exact absurd hother (by decide)

/-- **The two watermarks agree.** In every run of a guest service and a host journal fed from its
publications, both from a fresh start, however they interleave: the host never refuses the guest's
pending request as predating the watermark or as a reused identity, and what the guest publishes is
issued in strictly increasing order, across restarts, and numbered so within each session. -/
theorem watermarks_agree {vm service : String} {labels : List Label}
    {process : Option GuestMemoryWorker}
    (hguest : ServiceRun vm service (guestLabels labels) process) (hhost : Fed .initial labels) :
    (∀ pending, (System.after labels).guest.disk.pending = some pending →
      ∀ vm service now tolerance,
        ((System.after labels).journal.admitRequest pending vm service now tolerance).1 ≠
            .error "memory request predates the retained replay watermark" ∧
          ((System.after labels).journal.admitRequest pending vm service now tolerance).1 ≠
            .error "request identity was reused with different content") ∧
    (System.after labels).guest.published.Pairwise fun first second => first = second ∨
      (first.issuedUnixMillis < second.issuedUnixMillis ∧
        (first.identity.sessionId = second.identity.sessionId →
          first.identity.sequence < second.identity.sequence)) := by
  have hinv := (serviceRun_inv hguest).1
  rw [← guest_after] at hinv
  exact ⟨fun pending hpending => admit_pending hinv (journal_published nofun nofun hhost) hpending,
    hinv.publications⟩

/-! ## One request on its way

A service starts, sees that nothing is available, retains and publishes a request, and the host
admits it. -/

def exhausted : MemoryTelemetrySnapshot where
  physicalTotalBytes := 6 * 2 ^ 30
  physicalAvailableBytes := 0
  memoryLoadPercent := 100
  commitTotalBytes := 2 ^ 30
  commitLimitBytes := 8 * 2 ^ 30
  commitPeakBytes := 2 ^ 30

def exampleAnswers (_ : Unit) : (op : WorkerOp) → WorkerAns op × Unit
  | .collect => (.ok exhausted, ())
  | .nowUnixMillis => (.ok 6000, ())
  | .monotonicMillis => (.ok 1000, ())
  | .nativePressure => (some .low, ())
  | .readStatus => (.ok (some GuestRequester.grownStatus), ())
  | .persist _ => (⟨true, .ok ()⟩, ())
  | .publish _ => (⟨true, .ok ()⟩, ())

def exampleWorker : GuestMemoryWorker :=
  .new ({ GuestRequester.restartedRequester with state := .initial }.setRamLimits 0 Word.maximum).2

def exampleEvents : List (Event WorkerAns) :=
  (exampleWorker.pollOrRetry.simulate exampleAnswers ()).1

def exampleRequest : MemoryRequest where
  version := memoryRequestVersion
  identity := ⟨"guest", "service", "new-session", 0⟩
  operation := .add
  bytes := 2 * 2 ^ 30
  issuedUnixMillis := 6000
  expiresUnixMillis := 26000

def exampleLabels : List Label :=
  [.started "new-session"] ++ exampleEvents.map .worker ++
    [.admitted exampleRequest "guest" "service" 6500 5000, .saved]

theorem guestLabels_example :
    guestLabels exampleLabels = [] ++ [.started "new-session"] ++ exampleEvents.map .worker := by
  have hworker : ∀ events : List (Event WorkerAns),
      guestLabels (events.map .worker) = events.map .worker := by
    intro events
    refine List.filter_eq_self.mpr ?_
    rintro _ hlabel
    obtain ⟨event, -, rfl⟩ := List.mem_map.mp hlabel
    rfl
  unfold exampleLabels guestLabels
  rw [List.filter_append, List.filter_append]
  have hexample := hworker exampleEvents
  unfold guestLabels at hexample
  rw [hexample]
  simp

theorem exampleLabels_agree :
    (System.after exampleLabels).guest.disk.pending = some exampleRequest ∧
      ((System.after exampleLabels).journal.admitRequest exampleRequest "guest" "service" 7000 5000).1 ≠
        .error "memory request predates the retained replay watermark" := by
  have hguest : ServiceRun "guest" "service" (guestLabels exampleLabels)
      (exampleWorker.pollOrRetry.simulate exampleAnswers ()).2.1 := by
    rw [guestLabels_example]
    have hstart := @ServiceRun.start "guest" "service" _ _ "new-session"
      GuestRequester.examplePolicy { GuestRequester.restartedRequester with state := .initial }
      0 Word.maximum .fresh (by decide) (by decide)
    exact .poll hstart (Prog.simulate_runs _ _ _)
  have hpublished : exampleRequest ∈
      (([Label.started "new-session"] ++ exampleEvents.map Label.worker).foldl System.next
        .initial).guest.published := by decide
  have hfed : ∀ (events : List (Event WorkerAns)) (s : System) (labels : List Label),
      Fed ((events.map .worker).foldl System.next s) labels → Fed s (events.map .worker ++ labels) := by
    intro events
    induction events with
    | nil => exact fun _ _ h => h
    | cons event events ih => exact fun s labels h => ⟨nofun, ih _ labels h⟩
  have hhost : Fed .initial exampleLabels := by
    refine ⟨nofun, hfed exampleEvents _ _ ⟨?_, nofun, trivial⟩⟩
    rintro _ _ _ _ _ ⟨⟩
    exact hpublished
  have hpending : (System.after exampleLabels).guest.disk.pending = some exampleRequest := by decide
  exact ⟨hpending, ((watermarks_agree hguest hhost).1 _ hpending _ _ _ _).1⟩

end VirtioMem.Guest
