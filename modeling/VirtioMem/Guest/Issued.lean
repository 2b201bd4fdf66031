import VirtioMem.Guest.Handoff
import VirtioMem.Guest.Retention

/-!
# What the guest has asked for

The request state on disk is the guest's side of the conversation with the host. It moves in two ways
only (`Succeeds`): a new request is retained where there is none, later than everything before it; and
the retained one goes once a status was read that answers it for good.

The policy keeps to this, so does the worker (`requestLaw`), and so do the files it replaces
(`historyLaw`). `Conversed` is what follows for every run of the service: the requests were issued in
order, each was published only after it was durable, and each is still pending or was answered.
-/

namespace VirtioMem.Guest

open VirtioMem.Core VirtioMem.Effect

/-! ## How the request state moves -/

/-- The status carries a terminal result of the request. -/
def Closes (status : HostMemoryStatus) (request : MemoryRequest) : Prop :=
  ∃ result, status.result = some result ∧ result.request = request ∧ result.terminal = true

/-- What may replace the request state, where `heard` is the status that was last read. -/
inductive Succeeds (heard : Option HostMemoryStatus) (before : GuestRequestState) :
    GuestRequestState → Prop
  | answered {status : HostMemoryStatus} {request : MemoryRequest} (hheard : heard = some status)
      (hpending : before.pending = some request) (hcloses : Closes status request) :
      Succeeds heard before { before with pending := none }
  | issued {request : MemoryRequest} (hidle : before.pending = none)
      (hlater : before.lastIssuedUnixMillis < request.issuedUnixMillis) :
      Succeeds heard before ⟨some request, request.issuedUnixMillis⟩

/-- A poll that succeeds has resolved or published again what was retained. -/
theorem keeps_of_poll {self after : GuestRequester} {sample : TargetSample}
    {status : Option HostMemoryStatus} {request : MemoryRequest} {decision : GuestDecision}
    (hpending : self.state.pending = some request)
    (hpoll : self.poll sample status = (.ok decision, after)) :
    self.Keeps status request decision after := by
  cases hassess : (self.assess sample status).1 with
  | error error =>
      rw [GuestRequester.poll_eq, GuestRequester.assess_flagged, hassess] at hpoll
      cases hpoll
  | ok estimate =>
      obtain ⟨_, _, hsame, hkeeps⟩ := GuestRequester.survives_of_assess hpending hassess
      rw [hpoll] at hsame
      cases hsame
      exact hkeeps

/-- **What the policy wants durable is a succession.** -/
theorem poll_succeeds {self after : GuestRequester} {sample : TargetSample}
    {status : Option HostMemoryStatus} {decision : GuestDecision}
    (hpoll : self.poll sample status = (.ok decision, after)) (hpersist : decision.persist = true) :
    Succeeds status self.state after.state := by
  cases hpending : self.state.pending with
  | some request =>
      cases keeps_of_poll hpending hpoll with
      | resolved hresult hstate =>
          obtain ⟨live, hlive, -, hresult, hrequest, hterminal⟩ := hresult
          rw [hstate]
          exact .answered hlive hpending ⟨_, hresult, hrequest, hterminal⟩
      | retransmitted => cases hpersist
  | none =>
      cases GuestRequester.poll_step hpoll with
      | kept => cases hpersist
      | resolved hstate _ =>
          -- Nothing is resolved where nothing is pending.
          obtain ⟨_, _, _, ⟨rfl, hheld⟩ | ⟨_, _, _, _, _, -, -, -, -, -, h, -⟩⟩ :=
            GuestRequester.poll_idle hpending hpoll
          · cases hheld _ rfl
          · cases h
      | issued _ hwatermark _ _ hstate _ =>
          rw [hstate]
          exact .issued hpending hwatermark

/-! ## The worker -/

/-- The status last read. -/
def heardNext (heard : Option HostMemoryStatus) :
    (op : WorkerOp) → WorkerAns op → Option HostMemoryStatus
  | .readStatus, answer => answer.toOption.join
  | .collect, _ | .nowUnixMillis, _ | .monotonicMillis, _ | .nativePressure, _ | .persist _, _
  | .publish _, _ => heard

/-- Only a succession is made durable. -/
def requestLaw : Monitor (GuestWorld × Option HostMemoryStatus) WorkerOp WorkerAns where
  may w op := w.1.cancelled = true ∨ ∀ state, op = .persist state → Succeeds w.2 w.1.disk state
  next w op answer := (w.1.next op answer, heardNext w.2 op answer)

/-- What the policy decided may be made durable. -/
def Due (decision : GuestDecision) (self : GuestMemoryWorker)
    (w : GuestWorld × Option HostMemoryStatus) : Prop :=
  w.1.cancelled = true ∨
    (decision.persist = true → Succeeds w.2 w.1.disk self.requester.state)

open GuestMemoryWorker

theorem persistIf_succeeds {decision : GuestDecision} {self : GuestMemoryWorker}
    {w : GuestWorld × Option HostMemoryStatus} (h : Due decision self w) :
    Action.wp requestLaw (persistIf decision.persist) (fun _ _ _ => True) (fun _ _ _ => True) self w := by
  unfold persistIf
  rw [Action.wp_ite]
  simp only [Action.wp_bind, Action.wp_get, Action.wp_perform, Action.wp_ofExcept, Action.wp_pure]
  refine ⟨fun hpersist => ⟨?_, fun _ => by simp⟩, fun _ => trivial⟩
  rcases h with hcancelled | hdue
  · exact .inl hcancelled
  · refine .inr ?_
    rintro _ ⟨⟩
    exact hdue hpersist

/-- **The worker makes only successions durable.** -/
theorem pollOnce_succeeds {self : GuestMemoryWorker} {w : GuestWorld × Option HostMemoryStatus}
    (h : Coupled self w.1) :
    Action.wp requestLaw pollOnce (fun _ _ _ => True) (fun _ _ _ => True) self w := by
  have hother : ∀ {w op}, (∀ state, op ≠ .persist state) → requestLaw.may w op :=
    fun hop => .inr fun state heq => absurd heq (hop state)
  unfold pollOnce collectMemory requestsPoll consult
  simp only [Action.wp_bind, Action.wp_perform, Action.wp_ofExcept, Action.wp_get, Action.wp_modify,
    Action.wp_pure]
  -- Up to the status nothing is made durable.
  refine ⟨hother (by rintro _ ⟨⟩), fun _ => ⟨fun memory _ => ?_, fun _ _ => trivial⟩⟩
  refine ⟨hother (by rintro _ ⟨⟩), fun _ => ⟨fun now _ => ?_, fun _ _ => trivial⟩⟩
  refine ⟨hother (by rintro _ ⟨⟩), fun _ => ⟨fun monotonic _ => ?_, fun _ _ => trivial⟩⟩
  refine ⟨fun _ _ => ⟨hother (by rintro _ ⟨⟩), fun pressure => ?_⟩, fun _ _ => trivial⟩
  refine ⟨hother (by rintro _ ⟨⟩), fun answer => ⟨fun status hstatus => ?_, fun _ _ => trivial⟩⟩
  refine ⟨fun decision hdecision => ?_, fun _ _ => trivial⟩
  rw [labelled, Result.mapError_eq_ok] at hstatus hdecision
  refine Action.wp_mono (persistIf_succeeds ?_) ?_ fun _ _ _ _ => trivial
  · rcases h with hcancelled | ⟨hstate, -, -⟩
    · exact .inl hcancelled
    · refine .inr fun hpersist => ?_
      -- The policy has decided on the very status that the worker read last.
      have hsucceeds := poll_succeeds (Prod.ext hdecision rfl) hpersist
      rw [show ({ self with collectionFailed := false } : GuestMemoryWorker).requester.state = _ from
        hstate] at hsucceeds
      have hheard : heardNext w.2 .readStatus answer = status := by
        rw [hstatus]
        rfl
      exact hheard ▸ hsucceeds
  · intro _ _ _ _
    exact ⟨hother (by rintro _ ⟨⟩), fun _ => ⟨fun _ _ => ⟨fun _ _ => trivial, fun _ _ => trivial⟩,
      fun _ _ => trivial⟩⟩

/-- Both protocols of the worker at once, and the agreement with its files. -/
theorem pollOrRetry_succeeds {self : GuestMemoryWorker} {w : GuestWorld × Option HostMemoryStatus}
    (h : Coupled self w.1) :
    (pollOrRetry self).Safe (guestLaw.along Prod.fst requestLaw)
      (fun next w => ∀ self, next = some self → Coupled self w.1) w := by
  have hsucceeds : (pollOrRetry self).Safe requestLaw (fun _ _ => True) w := by
    refine Prog.safe_bind.mpr ((pollOnce_succeeds h).mono ?_)
    rintro ⟨_ | _, self⟩ w -
    · show (if self.collectionFailed then _ else _ : Prog _ _ _).Safe _ _ _
      split <;> trivial
    · trivial
  exact (Prog.Safe.along (fun _ _ _ => rfl) (pollOrRetry_safe h) hsucceeds).mono fun _ _ h => h.1

/-! ## A replacement renames one file

`replacing file` is what the replacement of `file` looks like from outside: nothing else is renamed,
and each time the signal was looked at just before and not seen cancelled. -/

def replacing (file : Handoff) : Monitor Bool ServiceOp ServiceAns where
  may looked op := (∀ other, op = .rename other → other = file ∧ looked = true) ∧
    ∀ asked, op ≠ .worker asked
  next _ op answer := match op, answer with
    | .isCancelled, stopped => !stopped
    | _, _ => false

namespace Handoff

variable {file : Handoff} {α β : Type}

/-- It renames `file` only, whatever was looked at before. -/
def Replacing (file : Handoff) (p : ServiceProg α) : Prop :=
  ∀ looked, p.Safe (replacing file) (fun _ _ => True) looked

theorem replacing_pure (value : α) : Replacing file (pure value : ServiceProg α) :=
  fun _ => trivial

theorem replacing_bind {p : ServiceProg α} {next : α → ServiceProg β} (h : Replacing file p)
    (hnext : ∀ value, Replacing file (next value)) : Replacing file (p >>= next) :=
  fun looked => Prog.safe_bind.mpr ((h looked).mono fun value w _ => hnext value w)

theorem replacing_ask {op : ServiceOp} (hrename : ∀ other, op ≠ .rename other)
    (hworker : ∀ asked, op ≠ .worker asked) : Replacing file (ask op) :=
  fun _ => ⟨⟨fun other heq => absurd heq (hrename other), hworker⟩, fun _ => trivial⟩

theorem replacing_attemptReplace : Replacing file (attemptReplace file) := by
  intro looked
  refine ⟨⟨nofun, nofun⟩, fun stopped => ?_⟩
  cases stopped with
  | true => trivial
  | false =>
      refine ⟨⟨?_, nofun⟩, fun renamed => ?_⟩
      · rintro _ ⟨⟩
        exact ⟨rfl, rfl⟩
      cases renamed with
      | done => trivial
      | failed osError error applied =>
          show Prog.Safe _ (if isTransient osError then _ else _) _ _
          split
          · exact ⟨⟨nofun, nofun⟩, fun _ => trivial⟩
          · trivial

theorem replacing_retryAtomicReplace (repetitions : Nat) :
    ∀ written, Replacing file (retryAtomicReplace file repetitions written) := by
  induction repetitions with
  | zero =>
      intro written
      exact replacing_bind replacing_attemptReplace fun _ => replacing_pure _
  | succ repetitions ih =>
      intro written
      refine replacing_bind replacing_attemptReplace fun attempt => ?_
      obtain ⟨replaced, again⟩ := attempt
      cases again with
      | false => exact replacing_pure _
      | true => exact replacing_bind (replacing_ask nofun nofun) fun _ => ih _

theorem replacing_writeAndReplace {path : String} {durable : Bool} {repetitions : Nat} :
    Replacing file (writeAndReplace path file durable repetitions) := by
  refine replacing_bind (replacing_ask nofun nofun) fun opened => ?_
  cases opened with
  | error => exact replacing_pure _
  | ok =>
  refine replacing_bind (replacing_ask nofun nofun) fun wrote => ?_
  cases wrote with
  | error => exact replacing_pure _
  | ok =>
  refine replacing_bind ?_ fun synced => ?_
  · cases durable with
    | true => exact replacing_ask nofun nofun
    | false => exact replacing_pure _
  cases synced with
  | error => exact replacing_pure _
  | ok =>
  refine replacing_bind ?_ fun _ => replacing_pure _
  refine replacing_bind (replacing_ask nofun nofun) fun deadline => ?_
  cases deadline with
  | error => exact replacing_pure _
  | ok => exact replacing_retryAtomicReplace _ _

theorem replacing_replaceFile {path : String} {durable : Bool} {repetitions : Nat} :
    Replacing file (replaceFile path file durable repetitions) := by
  have hlook : ∀ {next : Bool → ServiceProg Replaced}, (∀ stopped, Replacing file (next stopped)) →
      Replacing file (ask .isCancelled >>= next) :=
    fun h => replacing_bind (replacing_ask nofun nofun) h
  refine replacing_bind (replacing_ask nofun nofun) fun created => ?_
  cases created with
  | error => exact replacing_pure _
  | ok =>
  refine replacing_bind replacing_writeAndReplace fun replaced => ?_
  obtain ⟨written, result⟩ := replaced
  have hreport : Replacing file (ask .isCancelled >>= fun stopped => if stopped = true then
      (pure ⟨written, .ok ()⟩ : ServiceProg Replaced) else pure ⟨written, result⟩) := by
    refine hlook fun stopped => ?_
    cases stopped with
    | true => exact replacing_pure _
    | false => exact replacing_pure _
  have habandoned := @replacing_bind file _ _ (ask (.removeTemporary path)) _
    (replacing_ask nofun nofun) fun _ => hreport
  cases result with
  | error => exact habandoned
  | ok =>
      refine hlook fun abandoned => ?_
      cases abandoned with
      | true => exact habandoned
      | false => exact hreport

theorem replacing_publish {path : String} {envelope : RawTelemetryEnvelope} {repetitions : Nat} :
    Replacing (.publication envelope) (publish path envelope repetitions) := by
  refine replacing_bind (replacing_ask nofun nofun) fun stopped => ?_
  cases stopped with
  | true => exact replacing_pure _
  | false =>
  refine replacing_bind (replacing_ask nofun nofun) fun encoded => ?_
  cases encoded with
  | error => exact replacing_pure _
  | ok => exact replacing_bind replacing_replaceFile fun _ => replacing_pure _

end Handoff

/-! ## The files -/

/-- The status last read by whoever replaces the files. -/
def heardAlong (heard : Option HostMemoryStatus) :
    (op : ServiceOp) → ServiceAns op → Option HostMemoryStatus
  | .worker op, answer => heardNext heard op answer
  | .isCancelled, _ | .encode _, _ | .createParent _, _ | .openTemporary _, _ | .writeTemporary _ _, _
  | .syncTemporary _, _ | .removeTemporary _, _ | .deadline, _ | .beforeDeadline, _ | .waitRetry, _
  | .rename _, _ => heard

/-- The request state is replaced by what it holds already, when a rename is repeated, or by what
succeeds it. -/
def historyLaw : Monitor (ServiceFiles × Option HostMemoryStatus) ServiceOp ServiceAns where
  may w op := w.1.lawful = false ∨ ∀ state, op = .rename (.requestState state) →
    state = w.1.requestState ∨ Succeeds w.2 w.1.requestState state
  next w op answer := (w.1.next op answer, heardAlong w.2 op answer)

/-- Where a replacement that began in `w₀` has got to, the signal having been `looked` at or not. -/
structure Midway (w₀ : ServiceFiles × Option HostMemoryStatus) (file : Handoff) (looked : Bool)
    (w : ServiceFiles × Option HostMemoryStatus) : Prop where
  heard : w.2 = w₀.2
  began : w.1.lawful = true → w₀.1.lawful = true
  requestState : w.1.lawful = true → w.1.requestState = w₀.1.requestState ∨
    file = .requestState w.1.requestState
  cancelled : w.1.lawful = true → w₀.1.cancelled = true → w.1.cancelled = true
  running : looked = true → w.1.lawful = true → w.1.cancelled = false

theorem Midway.next {w₀ w : ServiceFiles × Option HostMemoryStatus} {file : Handoff}
    {looked : Bool} {op : ServiceOp} (h : Midway w₀ file looked w)
    (hmay : (replacing file).may looked op) (answer : ServiceAns op) :
    Midway w₀ file ((replacing file).next looked op answer) (historyLaw.next w op answer) := by
  -- Whatever is done next, the look at the signal is used up by it.
  have hother : Midway w₀ file false w :=
    ⟨h.heard, h.began, h.requestState, h.cancelled, by rintro ⟨⟩⟩
  cases op with
  | worker asked => exact absurd rfl (hmay.2 asked)
  | isCancelled =>
      -- A cancelled signal that is seen running has broken its promise, and nothing is owed any more.
      have hlawful : (w.1.next .isCancelled answer).lawful = true →
          w.1.lawful = true ∧ (w.1.cancelled = true → answer = true) := by
        intro hlawful
        simp only [ServiceFiles.next, Bool.and_eq_true, Bool.or_eq_true, Bool.not_eq_true'] at hlawful
        exact ⟨hlawful.1, fun hcancelled => hlawful.2.resolve_left (by simp [hcancelled])⟩
      refine ⟨h.heard, fun hl => h.began (hlawful hl).1, fun hl => h.requestState (hlawful hl).1,
        fun hl hcancelled => ?_, fun hlooked hl => ?_⟩
      · show (w.1.cancelled || answer) = true
        rw [h.cancelled (hlawful hl).1 hcancelled, Bool.true_or]
      · have hseen : answer = false := by simpa [replacing] using hlooked
        show (w.1.cancelled || answer) = false
        rw [hseen, Bool.or_false, Bool.eq_false_iff]
        intro hcancelled
        rw [(hlawful hl).2 hcancelled] at hseen
        cases hseen
  | rename other =>
      obtain ⟨rfl, -⟩ := hmay.1 other rfl
      show Midway w₀ other false (if answer.moved then w.1.put other else w.1, w.2)
      split
      · cases other with
        | requestState state =>
            exact ⟨h.heard, h.began, fun _ => .inr rfl, h.cancelled, by rintro ⟨⟩⟩
        | publication envelope =>
            exact ⟨h.heard, h.began, h.requestState, h.cancelled, by rintro ⟨⟩⟩
      · exact hother
  | encode | createParent | openTemporary | writeTemporary | syncTemporary | removeTemporary
  | deadline | beforeDeadline | waitRetry => exact hother

/-- **A replacement of the request state keeps to the history**, where what it writes may succeed what
it replaces. -/
theorem safe_replacing {α : Type} {file : Handoff} {p : ServiceProg α}
    {w : ServiceFiles × Option HostMemoryStatus} (h : Handoff.Replacing file p)
    (hallows : ∀ state, file = .requestState state → w.1.lawful = true → w.1.cancelled = false →
      Succeeds w.2 w.1.requestState state) :
    p.Safe historyLaw (fun _ w' => w'.2 = w.2) w := by
  refine ((h false).transport (Midway w file) ?_ ?_ ?_).mono ?_
  · intro looked w' op hmidway hmay
    cases hlawful : w'.1.lawful with
    | false => exact .inl hlawful
    | true =>
    refine .inr ?_
    rintro state rfl
    obtain ⟨rfl, hlooked⟩ := hmay.1 _ rfl
    -- The signal was running a moment ago, so it was when the replacement began.
    have hrunning : w.1.cancelled = false := by
      rw [Bool.eq_false_iff]
      intro hcancelled
      have hstopped := hmidway.cancelled hlawful hcancelled
      rw [hmidway.running hlooked hlawful] at hstopped
      cases hstopped
    rcases hmidway.requestState hlawful with hsame | hsame
    · rw [hsame, hmidway.heard]
      exact .inr (hallows state rfl (hmidway.began hlawful) hrunning)
    · -- An earlier attempt has moved the file and reported a failure.
      cases hsame
      exact .inl rfl
  · exact fun looked w' op answer hmidway hmay => hmidway.next hmay answer
  · exact ⟨rfl, id, fun _ => .inl rfl, fun _ => id, by rintro ⟨⟩⟩
  · rintro _ w' ⟨_, hmidway, -⟩
    exact hmidway.heard

/-- Both protocols of the files at once. -/
abbrev filesHistory : Monitor (ServiceFiles × Option HostMemoryStatus) ServiceOp ServiceAns :=
  filesLaw.along Prod.fst historyLaw

/-- **Refinement.** Carried out on the files, every operation of the worker keeps to the history. -/
theorem carryOut_history {path : String} {repetitions : Nat}
    (g : GuestWorld × Option HostMemoryStatus) (w : ServiceFiles × Option HostMemoryStatus)
    (op : WorkerOp) (h : Represents g.1 w.1 ∧ g.2 = w.2)
    (hmay : (guestLaw.along Prod.fst requestLaw).may g op) :
    (Handoff.carryOut path repetitions op).Safe filesHistory
      (fun answer w => Represents (guestLaw.next g.1 op answer) w.1 ∧ heardNext g.2 op answer = w.2)
      w := by
  have hhistory : (Handoff.carryOut path repetitions op).Safe historyLaw
      (fun answer w' => heardNext g.2 op answer = w'.2) w := by
    have hasked : ∀ asked, (Handoff.ask (.worker asked)).Safe historyLaw
        (fun answer w' => heardNext g.2 asked answer = w'.2) w := by
      intro asked
      refine ⟨.inr (by rintro _ ⟨⟩), fun answer => ?_⟩
      show heardNext g.2 asked answer = heardNext w.2 asked answer
      rw [h.2]
    cases op with
    | persist state =>
        refine (safe_replacing Handoff.replacing_replaceFile ?_).mono fun _ w' hheard => ?_
        · rintro _ ⟨⟩ hlawful hrunning
          rcases h.1 with hbroken | ⟨hdisk, hcancelled⟩
          · rw [hlawful] at hbroken
            cases hbroken
          rcases hmay.2 with hstopped | hsucceeds
          · rw [hcancelled hstopped] at hrunning
            cases hrunning
          · exact hdisk ▸ h.2 ▸ hsucceeds state rfl
        · exact h.2.trans hheard.symm
    | publish envelope =>
        refine (safe_replacing Handoff.replacing_publish (by rintro _ ⟨⟩)).mono fun _ w' hheard => ?_
        exact h.2.trans hheard.symm
    | collect => exact hasked .collect
    | nowUnixMillis => exact hasked .nowUnixMillis
    | monotonicMillis => exact hasked .monotonicMillis
    | nativePressure => exact hasked .nativePressure
    | readStatus => exact hasked .readStatus
  exact Prog.Safe.along (fun _ _ _ => rfl) (carryOut_safe g.1 w.1 op h.1 hmay.1) hhistory

/-! ## What a run has issued -/

/-- The request of a request state that was renamed into place. -/
def issuedRequest : FileLabel → Option MemoryRequest
  | .service ⟨.rename (.requestState state), renamed⟩ => if renamed.moved then state.pending else none
  | _ => none

/-- Every request that was made durable, oldest first; one whose rename was repeated is there again. -/
def issued (labels : List FileLabel) : List MemoryRequest := labels.filterMap issuedRequest

/-- The guest has read a status that closes the request. -/
def Answered (request : MemoryRequest) (labels : List FileLabel) : Prop :=
  ∃ status, Closes status request ∧ .service ⟨.worker .readStatus, .ok (some status)⟩ ∈ labels

/-- **The guest's side of the conversation**, as long as the signal kept its promise. -/
structure Conversed (labels : List FileLabel) (state : GuestRequestState) : Prop where
  ordered : (issued labels).Pairwise fun first second =>
    first = second ∨ first.issuedUnixMillis < second.issuedUnixMillis
  covered : ∀ r ∈ issued labels, r.issuedUnixMillis ≤ state.lastIssuedUnixMillis
  retained : ∀ p, state.pending = some p → p ∈ issued labels ∧
    ∀ r ∈ issued labels, r = p ∨ r.issuedUnixMillis < p.issuedUnixMillis
  answered : ∀ r ∈ issued labels, state.pending = some r ∨ Answered r labels
  published : ∀ first second envelope renamed, labels = first ++
    .service ⟨.rename (.publication envelope), renamed⟩ :: second →
    ∀ r, envelope.request = some r → r ∈ issued first

theorem Answered.append {request : MemoryRequest} {labels : List FileLabel} {label : FileLabel}
    (h : Answered request labels) : Answered request (labels ++ [label]) := by
  obtain ⟨status, hcloses, hmem⟩ := h
  exact ⟨status, hcloses, List.mem_append_left _ hmem⟩

/-- A publication that stands in a longer list is the last label or stood there before. -/
theorem split_concat {α : Type} {labels first second : List α} {label member : α}
    (h : labels ++ [label] = first ++ member :: second) :
    (first = labels ∧ member = label) ∨ ∃ rest, labels = first ++ member :: rest := by
  rcases List.eq_nil_or_concat second with rfl | ⟨rest, last, rfl⟩
  · obtain ⟨hfirst, hlast⟩ := List.append_inj' h rfl
    cases hlast
    exact .inl ⟨hfirst.symm, rfl⟩
  · rw [List.concat_eq_append, ← List.cons_append, ← List.append_assoc] at h
    exact .inr ⟨rest, (List.append_inj' h rfl).1⟩

variable {labels : List FileLabel} {label : FileLabel} {state later : GuestRequestState}
  {heard : Option HostMemoryStatus}

@[simp] theorem issued_append :
    issued (labels ++ [label]) = issued labels ++ (issuedRequest label).toList := by
  cases hissued : issuedRequest label <;> simp [issued, hissued]

/-- A label that leaves the request state alone; what it publishes is pending. -/
theorem Conversed.quiet (h : Conversed labels state) (hnone : issuedRequest label = none)
    (hpublishes : ∀ envelope renamed, label = .service ⟨.rename (.publication envelope), renamed⟩ →
      ∀ r, envelope.request = some r → state.pending = some r) :
    Conversed (labels ++ [label]) state := by
  have hsame : issued (labels ++ [label]) = issued labels := by simp [hnone]
  refine ⟨hsame ▸ h.ordered, hsame ▸ h.covered, hsame ▸ h.retained, ?_, ?_⟩
  · intro r hr
    exact (h.answered r (hsame ▸ hr)).imp_right .append
  · intro first second envelope renamed hsplit r hr
    rcases split_concat hsplit with ⟨rfl, hlabel⟩ | ⟨rest, hrest⟩
    · exact (h.retained r (hpublishes envelope renamed hlabel.symm r hr)).1
    · exact h.published first rest envelope renamed hrest r hr

/-- The request state is replaced: what is pending then, if anything, is the newest request. -/
theorem Conversed.replaced (h : Conversed labels state)
    (hstate : later = state ∨ Succeeds heard state later)
    (hheard : ∀ status, heard = some status →
      .service ⟨.worker .readStatus, .ok (some status)⟩ ∈ labels)
    (hissues : issuedRequest label = later.pending)
    (hlabel : ∀ envelope renamed, label ≠ .service ⟨.rename (.publication envelope), renamed⟩) :
    Conversed (labels ++ [label]) later := by
  -- The newest request comes after, or is, all the others; and the watermark covers it.
  have hnewest : ∀ p, later.pending = some p → p.issuedUnixMillis ≤ later.lastIssuedUnixMillis ∧
      ∀ r ∈ issued labels, r = p ∨ r.issuedUnixMillis < p.issuedUnixMillis := by
    intro p hp
    rcases hstate with rfl | hsucceeds
    · exact ⟨h.covered p (h.retained p hp).1, (h.retained p hp).2⟩
    cases hsucceeds with
    | answered => cases hp
    | issued hidle hlater =>
        cases hp
        exact ⟨le_rfl, fun r hr => .inr (lt_of_le_of_lt (h.covered r hr) hlater)⟩
  have hmark : state.lastIssuedUnixMillis ≤ later.lastIssuedUnixMillis := by
    rcases hstate with rfl | hsucceeds
    · exact le_rfl
    cases hsucceeds with
    | answered => exact le_rfl
    | issued hidle hlater => exact hlater.le
  have hmem : ∀ {r}, r ∈ issued (labels ++ [label]) → r ∈ issued labels ∨ later.pending = some r := by
    intro r hr
    rw [issued_append, hissues, List.mem_append, Option.mem_toList] at hr
    exact hr
  constructor
  · rw [issued_append, hissues, List.pairwise_append]
    refine ⟨h.ordered, ?_, fun r hr p hp => (hnewest p (Option.mem_toList.mp hp)).2 r hr⟩
    cases later.pending <;> simp
  · intro r hr
    rcases hmem hr with hr | hp
    · exact (h.covered r hr).trans hmark
    · exact (hnewest r hp).1
  · intro p hp
    refine ⟨?_, fun r hr => ?_⟩
    · rw [issued_append, hissues, hp]
      exact List.mem_append_right _ List.mem_cons_self
    · rcases hmem hr with hr | hpending
      · exact (hnewest p hp).2 r hr
      · exact .inl (Option.some.inj (hpending.symm.trans hp))
  · intro r hr
    rcases hmem hr with hr | hpending
    swap
    · exact .inl hpending
    rcases h.answered r hr with hpending | hanswered
    swap
    · exact .inr hanswered.append
    rcases hstate with rfl | hsucceeds
    · exact .inl hpending
    cases hsucceeds with
    | @answered status request hread hsame hcloses =>
        cases hpending.symm.trans hsame
        exact .inr ⟨status, hcloses, List.mem_append_left _ (hheard status hread)⟩
    | issued hidle _ =>
        rw [hidle] at hpending
        cases hpending
  · intro first second envelope renamed hsplit r hr
    rcases split_concat hsplit with ⟨-, hlast⟩ | ⟨rest, hrest⟩
    · exact absurd hlast.symm (hlabel envelope renamed)
    · exact h.published first rest envelope renamed hrest r hr

/-- What the guest knows after the labels, unless the signal has broken its promise. -/
structure Knows (labels : List FileLabel) (w : ServiceFiles × Option HostMemoryStatus) : Prop where
  files : w.1 = ServiceFiles.after labels
  heard : ∀ status, w.2 = some status →
    .service ⟨.worker .readStatus, .ok (some status)⟩ ∈ labels
  conversed : w.1.lawful = true → Conversed labels w.1.requestState

/-- **One step of the service.** -/
theorem Knows.next {w : ServiceFiles × Option HostMemoryStatus} {op : ServiceOp}
    (h : Knows labels w) (hmay : filesHistory.may w op) (answer : ServiceAns op) :
    Knows (labels ++ [.service ⟨op, answer⟩]) (filesHistory.next w op answer) := by
  have hfiles : w.1.next op answer = ServiceFiles.after (labels ++ [.service ⟨op, answer⟩]) := by
    rw [h.files]
    simp [ServiceFiles.after, ServiceFiles.step]
  have hkept : ∀ status, w.2 = some status →
      .service ⟨.worker .readStatus, .ok (some status)⟩ ∈ labels ++ [.service ⟨op, answer⟩] :=
    fun status hstatus => List.mem_append_left _ (h.heard status hstatus)
  refine ⟨hfiles, ?_, fun hlawful => ?_⟩
  · cases op with
    | worker asked =>
        cases asked with
        | readStatus =>
            intro status hstatus
            have hok : answer = .ok (some status) := by
              change answer.toOption.join = some status at hstatus
              cases answer with
              | error => cases hstatus
              | ok read => exact congrArg Except.ok hstatus
            rw [hok]
            exact List.mem_append_right _ List.mem_cons_self
        | collect | nowUnixMillis | monotonicMillis | nativePressure | persist | publish => exact hkept
    | isCancelled | encode | createParent | openTemporary | writeTemporary | syncTemporary
    | removeTemporary | deadline | beforeDeadline | waitRetry | rename => exact hkept
  · have hbefore : w.1.lawful = true := by
      have hsignal := (next_signal w.1 ⟨op, answer⟩).2
      rw [show (w.1.next op answer).lawful = true from hlawful] at hsignal
      exact (Bool.and_eq_true_iff.mp hsignal.symm).1
    have hconversed := h.conversed hbefore
    have hlaw : w.1.lawful ≠ false := by simp [hbefore]
    cases op with
    | rename file =>
        have hallows := hmay.1.resolve_left hlaw file rfl
        cases hmoved : answer.moved with
        | false =>
            -- Nothing has moved; what was to be published is pending all the same.
            have hsame : w.1.next (.rename file) answer = w.1 := by simp [ServiceFiles.next, hmoved]
            show Conversed _ (w.1.next (.rename file) answer).requestState
            rw [hsame]
            refine hconversed.quiet ?_ ?_
            · cases file <;> simp [issuedRequest, hmoved]
            · rintro envelope _ ⟨⟩ r hr
              exact hallows r hr
        | true =>
            have hsame : w.1.next (.rename file) answer = w.1.put file := by
              simp [ServiceFiles.next, hmoved]
            show Conversed _ (w.1.next (.rename file) answer).requestState
            rw [hsame]
            cases file with
            | requestState state =>
                exact hconversed.replaced (hmay.2.resolve_left hlaw state rfl) h.heard
                  (by simp [issuedRequest, hmoved, ServiceFiles.put]) (by rintro _ _ ⟨⟩)
            | publication envelope =>
                refine hconversed.quiet rfl ?_
                rintro _ _ ⟨⟩ r hr
                exact hallows r hr
    | worker | isCancelled | encode | createParent | openTemporary | writeTemporary | syncTemporary
    | removeTemporary | deadline | beforeDeadline | waitRetry =>
        exact hconversed.quiet rfl (by rintro _ _ ⟨⟩)

theorem Knows.after {w : ServiceFiles × Option HostMemoryStatus} {events : List (Event ServiceAns)}
    (h : Knows labels w) (haccepts : filesHistory.Accepts w events) :
    Knows (labels ++ events.map .service) (filesHistory.after w events) := by
  induction events generalizing labels w with
  | nil => simpa using h
  | cons event events ih =>
      have hrest := ih (h.next haccepts.1 event.2) haccepts.2
      rwa [List.append_assoc] at hrest

/-- **Along every run of the service** the guest keeps its side of the conversation. -/
theorem fileRun_knows {vm service path : String} {process : Option GuestMemoryWorker}
    (h : FileRun vm service path labels process) :
    ∃ w, Knows labels w ∧ ∀ self, process = some self →
      ∃ g, Coupled self g ∧ Represents g w.1 := by
  -- One poll, finished or cut short: the worker's protocol, carried out on the files.
  have hpoll : ∀ {labels self repetitions events result},
      (∃ w, Knows labels w ∧ ∀ self', some self = some self' →
        ∃ g, Coupled self' g ∧ Represents g w.1) →
      (self.pollOrRetry.interpret (Handoff.carryOut path repetitions)).Runs events result →
      ∃ w, Knows (labels ++ events.map .service) w ∧ ∀ next self, result = some next →
        next = some self → ∃ g, Coupled self g ∧ Represents g w.1 := by
    rintro labels self repetitions events result ⟨w, hknows, hprocess⟩ hruns
    obtain ⟨g, hcoupled, hrepresents⟩ := hprocess self rfl
    have hsafe := (pollOrRetry_succeeds (w := (g, w.2)) hcoupled).interpret _
      (@carryOut_history path repetitions) ⟨hrepresents, rfl⟩
    obtain ⟨haccepts, hpost⟩ := hsafe.accepts hruns
    refine ⟨_, hknows.after haccepts, ?_⟩
    rintro next self rfl rfl
    obtain ⟨g, ⟨hrepresents, -⟩, hcoupled⟩ := hpost _ rfl
    exact ⟨g.1, hcoupled self rfl, hrepresents⟩
  induction h with
  | fresh =>
      refine ⟨(.initial, none), ⟨rfl, by rintro _ ⟨⟩, fun _ => ?_⟩, by rintro _ ⟨⟩⟩
      have hnone : ∀ r, r ∉ issued [] := fun _ => List.not_mem_nil
      exact ⟨.nil, fun r hr => absurd hr (hnone r), by rintro _ ⟨⟩, fun r hr => absurd hr (hnone r),
        fun first second _ _ hsplit => by simp at hsplit⟩
  | @start labels process session policy requester minRam maxRam _ hnew ih =>
      obtain ⟨w, hknows, -⟩ := ih
      have hafter : ServiceFiles.after (labels ++ [.started]) = { w.1 with cancelled := false } := by
        rw [hknows.files]
        simp [ServiceFiles.after, ServiceFiles.step]
      refine ⟨({ w.1 with cancelled := false }, w.2), ⟨hafter.symm, fun status hstatus =>
        List.mem_append_left _ (hknows.heard status hstatus), fun hlawful =>
          (hknows.conversed hlawful).quiet rfl (by rintro _ _ ⟨⟩)⟩, ?_⟩
      rintro _ ⟨⟩
      obtain ⟨-, -, -, hsession, hstate, -, -, -⟩ := GuestRequester.new_eq_ok hnew
      exact ⟨⟨(ServiceFiles.after labels).requestState, [], [], [session], session, 0, false⟩,
        .inr ⟨hstate, hsession, Nat.zero_le _⟩, .inr ⟨hknows.files ▸ rfl, by rintro ⟨⟩⟩⟩
  | poll _ hruns ih =>
      obtain ⟨w, hknows, hprocess⟩ := hpoll ih hruns
      exact ⟨w, hknows, fun self hnext => hprocess _ self rfl hnext⟩
  | crash _ hruns ih =>
      obtain ⟨w, hknows, -⟩ := hpoll ih hruns
      exact ⟨w, hknows, by rintro _ ⟨⟩⟩

/-- **The guest's side of the conversation**, in every run whose stop signal keeps its promise. -/
theorem fileRun_conversed {vm service path : String} {process : Option GuestMemoryWorker}
    (h : FileRun vm service path labels process) (hstop : KeepsStop false labels) :
    Conversed labels (ServiceFiles.after labels).requestState := by
  obtain ⟨w, hknows, -⟩ := fileRun_knows h
  have hlawful : (ServiceFiles.after labels).lawful = true :=
    (show KeepsStop ServiceFiles.initial.cancelled labels from hstop).lawful rfl
  rw [← hknows.files] at hlawful ⊢
  exact hknows.conversed hlawful

end VirtioMem.Guest
