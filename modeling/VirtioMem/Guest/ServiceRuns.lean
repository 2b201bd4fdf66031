import VirtioMem.Guest.ServiceThreads

/-!
# Runs of the Windows service

The three kinds of threads together. `ServiceInv` relates where the host is, where the worker is and
what is in the channel: a stop is counted once, from its registration over the callbacks to the channel
and the host, and so is what the worker announces. Each step of a thread keeps it (`serviceInv_step`),
so it holds in whatever state the threads reach.
-/

namespace VirtioMem.Guest

open VirtioMem.Effect

variable {κ K : Type} {i : ServiceThread κ} {work : WorkStage} {own : HostCallback K → Prop}

/-! ## How the threads fit together -/

/-- What the loop has published. -/
def LoopState.reports (s : LoopState) : List ServiceState :=
  (if s.ran = true then [.running] else []) ++ (if s.stopping = true then [.stopPending] else [])

/-- The loop, if it was begun. -/
def HostStage.loop : HostStage → Option LoopState
  | .waiting s | .stopReceived s | .initReceived s | .runnable s | .finishing s _ | .joined s _ _
  | .lost s | .timedOut s | .gone s | .returned s _ => some s
  | .ending s _ _ | .closed s _ => s
  | _ => none

/-- How often the host has registered its callback. -/
def HostStage.registers : HostStage → Nat
  | .registered => 1
  | stage => if stage.loop.isSome = true then 1 else 0

def HostStage.stops (stage : HostStage) : Nat := (stage.loop.map (·.stops)).getD 0

def HostStage.inits (stage : HostStage) : Nat := (stage.loop.map (·.inits)).getD 0

theorem HostStage.stops_of_loop {stage : HostStage} {s : LoopState} (h : stage.loop = some s) :
    stage.stops = s.stops := by
  rw [HostStage.stops, h]
  rfl

theorem HostStage.inits_of_loop {stage : HostStage} {s : LoopState} (h : stage.loop = some s) :
    stage.inits = s.inits := by
  rw [HostStage.inits, h]
  rfl

/-- Whether the host will receive from the channel again. -/
def HostStage.listening : HostStage → Bool
  | .waiting _ | .stopReceived _ | .initReceived _ | .runnable _ => true
  | _ => false

/-- Whether the channel is open and the worker not spawned. -/
def HostStage.opening : HostStage → Bool
  | .opened | .registered => true
  | _ => false

/-- What the host has published. -/
def HostStage.reports : HostStage → List ServiceState
  | .fresh => []
  | .closed s final => .startPending :: ((s.map LoopState.reports).getD [] ++ [final])
  | stage => .startPending :: (stage.loop.map LoopState.reports).getD []

def WorkStage.inits : WorkStage → Nat
  | .unborn => 0
  | .working initialized | .dropped initialized _ | .finished initialized _ | .ended initialized _ =>
    initialized.toNat

/-- What the worker announced. -/
def WorkStage.result : WorkStage → Option (Except ServiceHostError Unit)
  | .finished _ result => some result
  | .ended _ result => result
  | _ => none

/-- How the worker's thread ended. -/
def WorkStage.panicked : WorkStage → Option Bool
  | .ended _ result => some result.isNone
  | _ => none

/-- Between two events: what was published is what was received. -/
structure LoopState.Settled (s : LoopState) : Prop where
  ran : s.ran = true → s.inits = 1
  stopping : s.stopping = true ↔ s.stops = 1
  deadline : s.deadline.isSome = true → s.stopping = true

/-- The worker's thread has ended well. -/
def Clean (w : ServiceWorld κ K) (work : WorkStage) : Prop :=
  w.ended = some false ∧ work.result = some (.ok ())

/-- What holds where the host is. -/
def HostStage.Fits (w : ServiceWorld κ K) (work : WorkStage) : HostStage → Prop
  | .quiet | .neverStarted => w.signal.cancelled = true
  | .waiting s => s.Settled
  | .lost s => s.Settled ∧ w.ended.isSome = true
  | .stopReceived s => s.stops = 1 ∧ s.stopping = false ∧ (s.ran = true → s.inits = 1)
  | .initReceived s => s.Settled ∧ s.inits = 1 ∧ s.ran = false
  | .runnable s => s.Settled ∧ s.inits = 1 ∧ s.ran = false ∧ s.stops = 0
  | .finishing s result => s.Settled ∧ work.result = some result
  | .joined s panicked result => s.Settled ∧ w.ended.isSome = true ∧
    (panicked = false → w.ended = some false ∧ work.result = some result)
  | .timedOut s => s.Settled ∧ ∃ deadline, s.deadline = some deadline ∧ deadline ≤ w.clock
  | .gone s => (s.Settled ∧ ∃ deadline, s.deadline = some deadline ∧ deadline ≤ w.clock) ∧
    w.exited = true
  | .returned s ok => s.Settled ∧ w.ended.isSome = true ∧ (ok = true → Clean w work)
  | .ending none ok cancelled => ok = true ∧ cancelled = true ∧ w.signal.cancelled = true
  | .ending (some s) ok cancelled => s.Settled ∧ w.ended.isSome = true ∧ (ok = true → Clean w work) ∧
    (cancelled = true → w.signal.cancelled = true)
  | .closed none final => final = .failed ∨ final = .stopped ∧ w.signal.cancelled = true
  | .closed (some s) final => s.Settled ∧ w.ended.isSome = true ∧
    (final = .failed ∨ final = .stopped ∧ w.signal.cancelled = true ∧ Clean w work)
  | _ => True

/-- The thread has the callback in hand, to register it. -/
def StopPhase.Registers {C : Type} (phase : StopPhase C) (callback : C) : Prop :=
  phase = .registering callback ∨ phase = .pushing callback ∨ phase = .refusing callback ∨
    phase = .direct callback

structure ServiceInv [Fintype κ] [DecidableEq κ] [DecidableEq K]
    (calls : ServiceThread κ → StopPhase (HostCallback K)) (stage : HostStage) (work : WorkStage)
    (w : ServiceWorld κ K) : Prop where
  signal : StopInv calls w.signal
  ours : ∀ i, i ≠ .host → ¬(calls i).Registers .sendStop
  registered : w.signal.registered.count .sendStop = stage.registers
  /-- A stop is received, or waits in the channel. -/
  stops : stage.stops + w.channel.count .stop = w.signal.called.count .sendStop
  inits : stage.inits + w.channel.count .initialized = work.inits
  finished : ∀ result, .finished result ∈ w.channel → work.result = some result
  listening : stage.listening = true → ∀ result, work.result = some result →
    .finished result ∈ w.channel
  spawned : w.spawned = stage.loop.isSome
  unborn : w.spawned = false → work = .unborn
  ended : w.ended = work.panicked
  sent : ∀ result, .finished result ∈ w.sent ↔ work.result = some result
  sentInits : w.sent.count .initialized = work.inits
  /-- Whoever is done with the channel has let go of it. -/
  workerSender : w.spawned = true → (w.workerSender = false ↔ w.ended.isSome = true)
  stopSender : w.signal.called.count .sendStop ≠ 0 → w.stopSender = false
  opening : stage.opening = true → w.workerSender = true
  fits : stage.Fits w work
  reports : w.reports = stage.reports.map .fromState
  exited : w.exited = true → ∃ s, stage = .gone s

section Invariant

variable [Fintype κ] [DecidableEq κ] [DecidableEq K] {horizon : Nat}
  {calls : ServiceThread κ → StopPhase (HostCallback K)} {stage stage' : HostStage}
  {s : LoopState} {w w' : ServiceWorld κ K}

theorem serviceInv_new :
    ServiceInv (fun _ : ServiceThread κ => (.idle : StopPhase (HostCallback K))) .fresh .unborn .new where
  signal := stopInv_new
  ours i _ h := by rcases h with h | h | h | h <;> cases h
  registered := rfl
  stops := rfl
  inits := rfl
  finished _ h := by cases h
  listening h := by cases h
  spawned := rfl
  unborn _ := rfl
  ended := rfl
  sent result := by simp [ServiceWorld.new, WorkStage.result]
  sentInits := rfl
  workerSender h := by cases h
  stopSender h := absurd rfl h
  opening h := by cases h
  fits := trivial
  reports := rfl
  exited h := by cases h

/-- A stop comes at most once. -/
theorem ServiceInv.stops_le (h : ServiceInv calls stage work w) :
    stage.stops + w.channel.count .stop ≤ 1 := by
  have hcounts := h.signal.counts .sendStop
  have hregistered : stage.registers ≤ 1 := by
    unfold HostStage.registers
    split
    · exact le_rfl
    · split <;> omega
  rw [h.stops]
  rw [h.registered] at hcounts
  omega

/-- A stop was sent by a cancellation. -/
theorem ServiceInv.stopped_cancelled (h : ServiceInv calls stage work w) (hstops : stage.stops ≠ 0) :
    w.signal.cancelled = true := by
  have hcounts := h.stops
  refine h.signal.called fun hnil => ?_
  rw [hnil, List.count_nil] at hcounts
  omega

theorem ServiceInv.inits_le (h : ServiceInv calls stage work w) :
    stage.inits + w.channel.count .initialized ≤ 1 := by
  rw [h.inits]
  cases work with
  | unborn => exact Nat.zero_le _
  | working initialized | dropped initialized _ | finished initialized _ | ended initialized _ =>
      exact Bool.toNat_le initialized

omit [Fintype κ] [DecidableEq κ] [DecidableEq K] in
/-- What holds where the host is goes on to hold. -/
theorem HostStage.Fits.mono (h : stage.Fits w work) {work' : WorkStage}
    (hflag : w.signal.cancelled = true → w'.signal.cancelled = true) (hclock : w.clock ≤ w'.clock)
    (hended : w.ended.isSome = true → w'.ended = w.ended)
    (hresult : work.result.isSome = true → work'.result = work.result)
    (hexited : w.exited = true → w'.exited = true) : stage.Fits w' work' := by
  have hclean : Clean w work → Clean w' work' := by
    rintro ⟨hend, hok⟩
    exact ⟨(hended (by rw [hend]; rfl)).trans hend, (hresult (by rw [hok]; rfl)).trans hok⟩
  have hsome : w.ended.isSome = true → w'.ended.isSome = true := fun hend => by
    rw [hended hend]
    exact hend
  cases stage with
  | quiet | neverStarted => exact hflag h
  | lost s => exact ⟨h.1, hsome h.2⟩
  | finishing s result => exact ⟨h.1, (hresult (by rw [h.2]; rfl)).trans h.2⟩
  | joined s panicked result =>
      refine ⟨h.1, hsome h.2.1, fun hpanicked => ?_⟩
      obtain ⟨hend, hok⟩ := h.2.2 hpanicked
      exact ⟨(hended h.2.1).trans hend, (hresult (by rw [hok]; rfl)).trans hok⟩
  | timedOut s =>
      obtain ⟨hsettled, deadline, hdeadline, hle⟩ := h
      exact ⟨hsettled, deadline, hdeadline, hle.trans hclock⟩
  | gone s =>
      obtain ⟨⟨hsettled, deadline, hdeadline, hle⟩, hexit⟩ := h
      exact ⟨⟨hsettled, deadline, hdeadline, hle.trans hclock⟩, hexited hexit⟩
  | returned s ok => exact ⟨h.1, hsome h.2.1, fun hok => hclean (h.2.2 hok)⟩
  | ending s ok cancelled =>
      cases s with
      | none => exact ⟨h.1, h.2.1, hflag h.2.2⟩
      | some s => exact ⟨h.1, hsome h.2.1, fun hok => hclean (h.2.2.1 hok), fun hc => hflag (h.2.2.2 hc)⟩
  | closed s final =>
      cases s with
      | none => exact h.imp_right fun hfinal => ⟨hfinal.1, hflag hfinal.2⟩
      | some s =>
          exact ⟨h.1, hsome h.2.1, h.2.2.imp_right fun hfinal =>
            ⟨hfinal.1, hflag hfinal.2.1, hclean hfinal.2.2⟩⟩
  | _ => exact h

/-! ## Steps of a call -/

omit [Fintype κ] [DecidableEq κ] in
/-- Only the host's callback sends. -/
theorem ServiceWorld.signalled_eq (op : StopOp (HostCallback K))
    (signal : StopState (ServiceThread κ) (HostCallback K)) :
    ∃ channel stopSender, w.signalled op signal =
        { w with signal := signal, channel := channel, stopSender := stopSender } ∧
      channel = w.channel ++ List.replicate (op.calls.count .sendStop) .stop ∧
      stopSender = (w.stopSender && op.calls.count .sendStop == 0) := by
  cases op with
  | call callback => cases callback <;> exact ⟨_, _, rfl, by simp [StopOp.calls]⟩
  | _ => exact ⟨_, _, rfl, by simp [StopOp.calls]⟩

omit [Fintype κ] [DecidableEq κ] in
theorem registers_others {op : StopOp (HostCallback K)}
    (hop : op ≠ .lockCallbacks (.register .sendStop)) : op.registers.count .sendStop = 0 := by
  cases op with
  | lockCallbacks site =>
      cases site with
      | register callback =>
          cases callback with
          | sendStop => exact absurd rfl hop
          | other callback => simp [StopOp.registers, LockSite.registers]
      | drain => rfl
  | _ => rfl

omit [Fintype κ] [DecidableEq κ] [DecidableEq K] in
/-- A thread gets a callback to register by beginning to register it. -/
theorem registers_next {phase : StopPhase (HostCallback K)} {op : StopOp (HostCallback K)}
    {answer : StopAns op} (hmay : phase.May own op)
    (hop : op ≠ .lockCallbacks (.register .sendStop))
    (h : (phase.next op answer).Registers .sendStop) : phase.Registers .sendStop := by
  cases hmay <;> simp_all [StopPhase.next, StopPhase.Registers] <;> grind

/-- A step of a call leaves the host and the worker where they are. -/
theorem ServiceInv.signal_step (h : ServiceInv calls stage work w) {op : StopOp (HostCallback K)}
    {answer : StopAns op} {signal : StopState (ServiceThread κ) (HostCallback K)}
    (hmay : (calls i).May own op) (hop : op ≠ .lockCallbacks (.register .sendStop))
    (hperform : w.signal.perform i op = some (answer, signal)) :
    ServiceInv (Function.update calls i ((calls i).next op answer)) stage work
      (w.signalled op signal) := by
  obtain ⟨channel, stopSender, hsignalled, hchannel, hsender⟩ := w.signalled_eq op signal
  obtain ⟨hcalled, hregistered⟩ := StopState.perform_history hperform
  have hmem : ∀ event, event ∈ channel → event ∈ w.channel ∨ event = .stop := by
    intro event hevent
    rw [hchannel] at hevent
    rcases List.mem_append.mp hevent with hevent | hevent
    · exact .inl hevent
    · exact .inr (List.eq_of_mem_replicate hevent)
  rw [hsignalled]
  -- Only what mentions the calls, the channel and the sender of the callback is affected.
  exact {
    signal := h.signal.step hmay hperform
    ours := by
      intro j hj hregisters
      by_cases hne : j = i
      · subst hne
        rw [Function.update_self] at hregisters
        exact h.ours j hj (registers_next hmay hop hregisters)
      · rw [Function.update_of_ne hne] at hregisters
        exact h.ours j hj hregisters
    registered := by
      rw [← h.registered]
      show signal.registered.count _ = _
      rw [hregistered, List.count_append, registers_others hop, Nat.add_zero]
    stops := by
      show stage.stops + channel.count .stop = signal.called.count .sendStop
      rw [hcalled, hchannel, List.count_append, List.count_append, ← h.stops,
        List.count_replicate_self, Nat.add_assoc]
    inits := by
      show stage.inits + channel.count .initialized = work.inits
      rw [hchannel, List.count_append, ← h.inits]
      simp [List.count_replicate]
    finished := by
      intro result hresult
      rcases hmem _ hresult with hresult | hresult
      · exact h.finished result hresult
      · cases hresult
    listening := by
      intro hlistening result hresult
      show HostEvent.finished result ∈ channel
      rw [hchannel]
      exact List.mem_append_left _ (h.listening hlistening result hresult)
    spawned := h.spawned
    unborn := h.unborn
    ended := h.ended
    sent := h.sent
    sentInits := h.sentInits
    workerSender := h.workerSender
    stopSender := by
      intro hcount
      show stopSender = false
      rw [hsender]
      by_cases hcalls : op.calls.count .sendStop = 0
      · change signal.called.count .sendStop ≠ 0 at hcount
        rw [hcalled, List.count_append, hcalls] at hcount
        rw [h.stopSender hcount, Bool.false_and]
      · simp [hcalls]
    opening := h.opening
    fits := h.fits.mono (fun hflag => StopState.perform_flag hperform hflag) le_rfl (fun _ => rfl)
      (fun _ => rfl) id
    reports := h.reports
    exited := h.exited }

/-! ## Steps of the host -/

/-- The channel's ends, the worker's thread and the signal are left alone. -/
structure SameWorker (w w' : ServiceWorld κ K) : Prop where
  signal : w'.signal = w.signal
  spawned : w'.spawned = w.spawned
  ended : w'.ended = w.ended
  sent : w'.sent = w.sent
  workerSender : w'.workerSender = w.workerSender
  stopSender : w'.stopSender = w.stopSender

/-- The host moves from a stage to another, has received so many events, and published a status. -/
structure Moves (stage stage' : HostStage) (stops inits : Nat) (published : Option ServiceState) :
    Prop where
  registers : stage'.registers = stage.registers
  loop : stage'.loop.isSome = stage.loop.isSome
  stops : stage'.stops = stage.stops + stops
  inits : stage'.inits = stage.inits + inits
  reports : stage'.reports = match published with
    | none => stage.reports
    | some state => stage.reports ++ [state]
  opening : stage'.opening = true → stage.opening = true
  listening : stage'.listening = true → stage.listening = true

/-- The host moves, and what it received and published moves with it. -/
theorem ServiceInv.move (h : ServiceInv calls stage work w) (hsame : SameWorker w w') {stops inits : Nat}
    {published : Option ServiceState} (hmoves : Moves stage stage' stops inits published)
    (hstops : stops + w'.channel.count .stop = w.channel.count .stop)
    (hinits : inits + w'.channel.count .initialized = w.channel.count .initialized)
    (hmem : ∀ event ∈ w'.channel, event ∈ w.channel)
    (hlistening : stage'.listening = true →
      ∀ result, .finished result ∈ w.channel → .finished result ∈ w'.channel)
    (hreports : w'.reports = w.reports ++ (published.map ScmServiceStatus.fromState).toList)
    (hfits : stage'.Fits w' work) (hexited : w'.exited = true → ∃ s, stage' = .gone s) :
    ServiceInv calls stage' work w' where
  signal := hsame.signal ▸ h.signal
  ours := h.ours
  registered := by rw [hsame.signal, h.registered, hmoves.registers]
  stops := by rw [hmoves.stops, hsame.signal, ← h.stops, ← hstops, Nat.add_assoc]
  inits := by rw [hmoves.inits, ← h.inits, ← hinits, Nat.add_assoc]
  finished result hresult := h.finished result (hmem _ hresult)
  listening hl result hresult :=
    hlistening hl result (h.listening (hmoves.listening hl) result hresult)
  spawned := by rw [hsame.spawned, h.spawned, hmoves.loop]
  unborn hfalse := h.unborn (hsame.spawned.symm.trans hfalse)
  ended := hsame.ended.trans h.ended
  sent := hsame.sent ▸ h.sent
  sentInits := hsame.sent ▸ h.sentInits
  workerSender hspawned := by
    rw [hsame.workerSender, hsame.ended]
    exact h.workerSender (hsame.spawned.symm.trans hspawned)
  stopSender hcount := by
    rw [hsame.stopSender]
    exact h.stopSender (hsame.signal ▸ hcount)
  opening hopening := hsame.workerSender.trans (h.opening (hmoves.opening hopening))
  fits := hfits
  reports := by
    rw [hreports, hmoves.reports, h.reports]
    cases published with
    | none => simp
    | some state => simp
  exited := hexited

/-- The host moves on its own. -/
theorem ServiceInv.restage (h : ServiceInv calls stage work w) (hexited : w.exited = false)
    (hmoves : Moves stage stage' 0 0 none) (hfits : stage'.Fits w work) :
    ServiceInv calls stage' work w :=
  h.move ⟨rfl, rfl, rfl, rfl, rfl, rfl⟩ hmoves (Nat.zero_add _) (Nat.zero_add _)
    (fun _ hevent => hevent) (fun _ _ hresult => hresult) (List.append_nil _).symm hfits fun hexit => by
      rw [hexited] at hexit
      cases hexit

/-- Nothing of what the host received and published is touched. -/
theorem ServiceInv.untouched (h : ServiceInv calls stage work w) (hsame : SameWorker w w')
    (hchannel : w'.channel = w.channel) (hreports : w'.reports = w.reports)
    (hexited : w'.exited = w.exited) (hclock : w.clock ≤ w'.clock) : ServiceInv calls stage work w' :=
  h.move hsame (⟨rfl, rfl, rfl, rfl, rfl, id, id⟩ : Moves stage stage 0 0 none)
    (by rw [hchannel, Nat.zero_add]) (by rw [hchannel, Nat.zero_add])
    (fun _ hevent => hchannel ▸ hevent) (fun _ _ hresult => hchannel ▸ hresult)
    (hreports.trans (List.append_nil _).symm)
    (h.fits.mono (fun hflag => by rw [hsame.signal, hflag]) hclock (fun _ => hsame.ended)
      (fun _ => rfl) fun hexit => hexited.trans hexit) fun hexit => h.exited (hexited ▸ hexit)

/-- A status is published. -/
theorem ServiceInv.publish (h : ServiceInv calls stage work w) (hexited : w.exited = false)
    {state : ServiceState} (hmoves : Moves stage stage' 0 0 (some state))
    (hfits : stage'.Fits w work) :
    ServiceInv calls stage' work
      { w with reports := w.reports ++ [ScmServiceStatus.fromState state] } :=
  h.move ⟨rfl, rfl, rfl, rfl, rfl, rfl⟩ hmoves (Nat.zero_add _) (Nat.zero_add _)
    (fun _ hevent => hevent) (fun _ _ hresult => hresult) rfl
    (hfits.mono id le_rfl (fun _ => rfl) (fun _ => rfl) id) fun hexit => by
      change w.exited = true at hexit
      rw [hexited] at hexit
      cases hexit

/-- The host takes an event from the channel. -/
theorem ServiceInv.received (h : ServiceInv calls stage work w) (hexited : w.exited = false)
    {event : HostEvent} {rest : List HostEvent} (hchannel : w.channel = event :: rest)
    (hmoves : Moves stage stage' ([event].count .stop) ([event].count .initialized) none)
    (hlistening : stage'.listening = true → ∀ result, event ≠ .finished result)
    (hfits : stage'.Fits w work) : ServiceInv calls stage' work { w with channel := rest } := by
  refine h.move ⟨rfl, rfl, rfl, rfl, rfl, rfl⟩ hmoves ?_ ?_ (fun _ hevent => ?_)
    (fun hl result hresult => ?_) (List.append_nil _).symm
    (hfits.mono id le_rfl (fun _ => rfl) (fun _ => rfl) id) fun hexit => ?_
  · rw [hchannel, ← List.count_append]
    rfl
  · rw [hchannel, ← List.count_append]
    rfl
  · rw [hchannel]
    exact List.mem_cons_of_mem _ hevent
  · rw [hchannel] at hresult
    rcases List.mem_cons.mp hresult with hevent | hresult
    · exact absurd hevent.symm (hlistening hl result)
    · exact hresult
  · change w.exited = true at hexit
    rw [hexited] at hexit
    cases hexit

theorem ServiceInv.receive (h : ServiceInv calls (.waiting s) work w) (hexited : w.exited = false)
    {answer : Except RecvError HostEvent}
    (hanswers : w.Answers horizon .host (.recv s.deadline) answer w') :
    ServiceInv calls ((HostStage.waiting s).next (.recv s.deadline : HostingOp K) answer) work w' := by
  have hstopsle := h.stops_le
  have hinitsle := h.inits_le
  have hsettled : s.Settled := h.fits
  change s.stops + _ ≤ 1 at hstopsle
  change s.inits + _ ≤ 1 at hinitsle
  generalize hdeadline : s.deadline = deadline at hanswers
  cases hanswers with
  | @received _ event rest hchannel =>
      rw [hchannel] at hstopsle hinitsle
      cases event with
      | stop =>
          -- It is the first, so the host is not stopping yet.
          rw [List.count_cons_self] at hstopsle
          have hstopping : s.stopping = false := by
            by_contra htrue
            have := hsettled.stopping.mp (Bool.not_eq_false _ ▸ htrue)
            omega
          have hnone : s.deadline.isSome = false := by
            by_contra htrue
            rw [hsettled.deadline (Bool.not_eq_false _ ▸ htrue)] at hstopping
            cases hstopping
          have hnext : (HostStage.waiting s).next (.recv deadline : HostingOp K) (.ok .stop) =
              .stopReceived { s with stops := s.stops + 1 } := by
            simp [HostStage.next, hnone]
          rw [hnext]
          exact h.received hexited hchannel ⟨rfl, rfl, rfl, rfl, rfl, id, id⟩ (by rintro _ _ ⟨⟩)
            ⟨by dsimp only; omega, hstopping, hsettled.ran⟩
      | initialized =>
          rw [List.count_cons_self] at hinitsle
          have hran : s.ran = false := by
            by_contra htrue
            have := hsettled.ran (Bool.not_eq_false _ ▸ htrue)
            omega
          refine h.received hexited hchannel ⟨rfl, rfl, rfl, rfl, rfl, id, id⟩ (by rintro _ _ ⟨⟩)
            ⟨⟨fun htrue => ?_, hsettled.stopping, hsettled.deadline⟩, by dsimp only; omega, hran⟩
          change s.ran = true at htrue
          rw [hran] at htrue
          cases htrue
      | finished result =>
          refine h.received hexited hchannel ⟨rfl, rfl, rfl, rfl, rfl, id, fun _ => rfl⟩
            (by rintro ⟨⟩) ⟨hsettled, ?_⟩
          exact h.finished result (hchannel ▸ List.mem_cons_self)
  | @timeout deadline now hempty hnow hdue =>
      have huntouched : ServiceInv calls (.waiting s) work { w with clock := now } :=
        h.untouched ⟨rfl, rfl, rfl, rfl, rfl, rfl⟩ rfl rfl rfl hnow
      exact huntouched.restage hexited ⟨rfl, rfl, rfl, rfl, rfl, id, fun _ => rfl⟩
        ⟨hsettled, deadline, hdeadline, hdue⟩
  | disconnected hempty hworker hstop =>
      exact h.restage hexited ⟨rfl, rfl, rfl, rfl, rfl, id, fun _ => rfl⟩
        ⟨hsettled, (h.workerSender h.spawned).mp hworker⟩

/-- The channel is made. -/
theorem ServiceInv.openChannel (h : ServiceInv calls .taken work w) (hexited : w.exited = false) :
    ServiceInv calls .opened work { w with workerSender := true, stopSender := true } := by
  have hcounts := h.signal.counts .sendStop
  have hunborn : w.spawned = false := h.spawned
  rw [h.registered] at hcounts
  change _ = 0 at hcounts
  exact {
    signal := h.signal
    ours := h.ours
    registered := h.registered
    stops := h.stops
    inits := h.inits
    finished := h.finished
    listening := by rintro ⟨⟩
    spawned := h.spawned
    unborn := h.unborn
    ended := h.ended
    sent := h.sent
    sentInits := h.sentInits
    workerSender := fun hspawned => by
      change w.spawned = true at hspawned
      rw [hunborn] at hspawned
      cases hspawned
    stopSender := fun hcount => by
      change w.signal.called.count .sendStop ≠ 0 at hcount
      omega
    opening := fun _ => rfl
    fits := trivial
    reports := h.reports
    exited := fun hexit => by
      change w.exited = true at hexit
      rw [hexited] at hexit
      cases hexit }

/-- The worker's thread is spawned. -/
theorem ServiceInv.spawn (h : ServiceInv calls .registered work w) (hexited : w.exited = false) :
    ServiceInv calls (.waiting .new) work { w with spawned := true } := by
  have hunborn := h.unborn h.spawned
  exact {
    signal := h.signal
    ours := h.ours
    registered := h.registered
    stops := h.stops
    inits := h.inits
    finished := h.finished
    listening := fun _ result hresult => by
      rw [hunborn] at hresult
      cases hresult
    spawned := rfl
    unborn := by rintro ⟨⟩
    ended := h.ended
    sent := h.sent
    sentInits := h.sentInits
    workerSender := fun _ => by
      have hended := h.ended
      rw [hunborn] at hended
      show w.workerSender = false ↔ w.ended.isSome = true
      rw [h.opening rfl, hended]
      simp [WorkStage.panicked]
    stopSender := h.stopSender
    opening := by rintro ⟨⟩
    fits := ⟨by rintro ⟨⟩, by simp [LoopState.new], by rintro ⟨⟩⟩
    reports := h.reports
    exited := fun hexit => by
      change w.exited = true at hexit
      rw [hexited] at hexit
      cases hexit }

theorem ServiceInv.host_step (h : ServiceInv calls stage work w) {op : HostingOp K}
    {answer : HostingAns op} (hmay : HostMay stage op) (hop : ∀ stop, op ≠ .stop stop)
    (hexited : w.exited = false) (hanswers : w.Answers horizon .host op answer w') :
    ServiceInv calls (stage.next op answer) work w' := by
  have hfits := h.fits
  -- One case for each stage. A stage inside a call of the signal is the business of `signal_step`.
  cases hmay with
  | check | register | checkQuiet => exact absurd rfl (hop _)
  | registering op _ | cancelling s op _ => exact absurd rfl (hop _)
  | checkRun s => exact absurd rfl (hop _)
  | checkEnd s ok => exact absurd rfl (hop _)
  | registerHandler | loadConfig | nativeWorker | loadState =>
      cases hanswers
      exact h
  | announce =>
      cases hanswers
      exact h.publish hexited ⟨rfl, rfl, rfl, rfl, rfl, id, id⟩ trivial
  | checkTimeout timeout =>
      cases hanswers with
      | deadline _ hle => exact h.untouched ⟨rfl, rfl, rfl, rfl, rfl, rfl⟩ rfl rfl rfl hle
  | refuse =>
      cases hanswers
      exact h.untouched ⟨rfl, rfl, rfl, rfl, rfl, rfl⟩ rfl rfl rfl le_rfl
  | fail | failQuiet =>
      cases hanswers
      exact h.publish hexited ⟨rfl, rfl, rfl, rfl, rfl, id, id⟩ (.inl rfl)
  | neverStart =>
      cases hanswers
      have hmoved : ServiceInv calls .neverStarted work w :=
        h.restage hexited ⟨rfl, rfl, rfl, rfl, rfl, id, id⟩ hfits
      exact hmoved.untouched ⟨rfl, rfl, rfl, rfl, rfl, rfl⟩ rfl rfl rfl le_rfl
  | start =>
      cases hanswers
      have hmoved : ServiceInv calls .starting work w :=
        h.restage hexited ⟨rfl, rfl, rfl, rfl, rfl, id, id⟩ trivial
      exact hmoved.untouched ⟨rfl, rfl, rfl, rfl, rfl, rfl⟩ rfl rfl rfl le_rfl
  | takeWorker =>
      cases hanswers
      have huntouched : ServiceInv calls .starting work { w with hasWorker := false } :=
        h.untouched ⟨rfl, rfl, rfl, rfl, rfl, rfl⟩ rfl rfl rfl le_rfl
      -- Whether there was a worker to take or not, the stage behind promises nothing yet.
      simp only [HostStage.next]
      split
      · exact huntouched.restage hexited ⟨rfl, rfl, rfl, rfl, rfl, id, id⟩ trivial
      · exact huntouched.restage hexited ⟨rfl, rfl, rfl, rfl, rfl, id, id⟩ trivial
  | channel =>
      cases hanswers
      exact h.openChannel hexited
  | spawn =>
      cases hanswers
      exact h.spawn hexited
  | recv s => exact h.receive hexited hanswers
  | arm s timeout =>
      cases hanswers with
      | @deadline _ now hle =>
          have huntouched : ServiceInv calls (.stopReceived s) work { w with clock := now } :=
            h.untouched ⟨rfl, rfl, rfl, rfl, rfl, rfl⟩ rfl rfl rfl hle
          exact huntouched.restage hexited ⟨rfl, rfl, rfl, rfl, rfl, id, id⟩ hfits
  | storeStop s | storeRun s =>
      cases hanswers
      exact h.untouched ⟨rfl, rfl, rfl, rfl, rfl, rfl⟩ rfl rfl rfl le_rfl
  | reportStop s =>
      cases hanswers
      obtain ⟨hstops, hstopping, hran⟩ := hfits
      refine h.publish hexited ⟨rfl, rfl, rfl, rfl, ?_, id, id⟩
        ⟨hran, ⟨fun _ => hstops, fun _ => rfl⟩, fun _ => rfl⟩
      simp [HostStage.reports, HostStage.next, HostStage.loop, LoopState.reports, hstopping]
  | reportRun s =>
      cases hanswers
      obtain ⟨hsettled, hinits, hran, hstops⟩ := hfits
      have hstopping : s.stopping = false := by
        by_contra htrue
        have := hsettled.stopping.mp (Bool.not_eq_false _ ▸ htrue)
        omega
      refine h.publish hexited ⟨rfl, rfl, rfl, rfl, ?_, id, id⟩
        ⟨fun _ => hinits, hsettled.stopping, hsettled.deadline⟩
      simp [HostStage.reports, HostStage.next, HostStage.loop, LoopState.reports, hran, hstopping]
  | join s result =>
      cases hanswers with
      | @join panicked hended =>
          refine h.restage hexited ⟨rfl, rfl, rfl, rfl, rfl, id, id⟩
            ⟨hfits.1, by rw [hended]; rfl, fun hpanicked => ?_⟩
          rw [hpanicked] at hended
          exact ⟨hended, hfits.2⟩
  | joinLost s =>
      cases hanswers with
      | @join panicked hended =>
          exact h.restage hexited ⟨rfl, rfl, rfl, rfl, rfl, id, id⟩
            ⟨hfits.1, hfits.2, by rintro ⟨⟩⟩
  | store s panicked result state hstate =>
      cases hanswers
      have huntouched : ServiceInv calls (.joined s panicked result) work { w with state := state } :=
        h.untouched ⟨rfl, rfl, rfl, rfl, rfl, rfl⟩ rfl rfl rfl le_rfl
      refine huntouched.restage hexited ⟨rfl, rfl, rfl, rfl, rfl, id, id⟩
        ⟨hfits.1, hfits.2.1, fun hok => ?_⟩
      rcases hstate with ⟨-, hpanicked, rfl⟩ | rfl
      · exact hfits.2.2 hpanicked
      · cases hok
  | exit s =>
      cases hanswers
      have hmoves : Moves (.timedOut s) (.gone s) 0 0 none := ⟨rfl, rfl, rfl, rfl, rfl, id, id⟩
      exact h.move ⟨rfl, rfl, rfl, rfl, rfl, rfl⟩ hmoves (Nat.zero_add _) (Nat.zero_add _)
        (fun _ hevent => hevent) (fun _ _ hresult => hresult) (List.append_nil _).symm
        ⟨hfits, rfl⟩ fun _ => ⟨s, rfl⟩
  | close s ok cancelled =>
      cases hanswers
      refine h.publish hexited ⟨?_, ?_, ?_, ?_, ?_, by rintro ⟨⟩, by rintro ⟨⟩⟩ ?_
      · rfl
      · rfl
      · rfl
      · rfl
      · cases s <;> simp [HostStage.reports, HostStage.next, HostStage.loop]
      · have hboth : exitState ok cancelled = .failed ∨
            exitState ok cancelled = .stopped ∧ ok = true ∧ cancelled = true := by
          cases ok <;> cases cancelled <;> simp [exitState]
        cases s with
        | none => exact hboth.imp_right fun hfinal => ⟨hfinal.1, hfits.2.2⟩
        | some s =>
            exact ⟨hfits.1, hfits.2.1, hboth.imp_right fun ⟨hfinal, hok, hcancelled⟩ =>
              ⟨hfinal, hfits.2.2.2 hcancelled, hfits.2.2.1 hok⟩⟩

/-- The host registers its callback. -/
theorem ServiceInv.register (h : ServiceInv calls .opened work w) (hexited : w.exited = false)
    {signal : StopState (ServiceThread κ) (HostCallback K)}
    (hmay : (calls .host).May own (.lockCallbacks (.register .sendStop)))
    (hperform : w.signal.perform .host (.lockCallbacks (.register .sendStop)) = some ((), signal)) :
    ServiceInv (Function.update calls .host
      ((calls .host).next (.lockCallbacks (.register .sendStop)) ())) .registered work
      { w with signal := signal } := by
  obtain ⟨hcalled, hregistered⟩ := StopState.perform_history hperform
  have hcount : signal.called.count .sendStop = w.signal.called.count .sendStop := by
    rw [hcalled, List.count_append]
    rfl
  exact {
    signal := h.signal.step hmay hperform
    ours := by
      intro j hj
      rw [Function.update_of_ne hj]
      exact h.ours j hj
    registered := by
      show signal.registered.count _ = 1
      rw [hregistered, List.count_append, h.registered]
      rfl
    stops := by
      show 0 + w.channel.count .stop = signal.called.count .sendStop
      rw [hcount, ← h.stops]
      rfl
    inits := h.inits
    finished := h.finished
    listening := by rintro ⟨⟩
    spawned := h.spawned
    unborn := h.unborn
    ended := h.ended
    sent := h.sent
    sentInits := h.sentInits
    workerSender := h.workerSender
    stopSender := fun hne => h.stopSender (hcount ▸ hne)
    opening := fun _ => h.opening rfl
    fits := trivial
    reports := h.reports
    exited := fun hexit => by
      change w.exited = true at hexit
      rw [hexited] at hexit
      cases hexit }

/-- The host looks at the flag. -/
theorem ServiceInv.host_check (h : ServiceInv calls stage work w) (hexited : w.exited = false)
    {signal : StopState (ServiceThread κ) (HostCallback K)} {cancelled : Bool}
    (hmay : (calls .host).May own .isCancelled)
    (hperform : w.signal.perform .host .isCancelled = some (cancelled, signal))
    (hmoves : Moves stage stage' 0 0 none)
    (hfits : cancelled = w.signal.cancelled → stage'.Fits w work) :
    ServiceInv (Function.update calls .host ((calls .host).next .isCancelled cancelled)) stage' work
      (w.signalled .isCancelled signal) := by
  have hstep := h.signal_step hmay (by rintro ⟨⟩) hperform
  cases hperform
  exact hstep.restage hexited hmoves (hfits rfl)

theorem ServiceInv.host_stop (h : ServiceInv calls stage work w) (hexited : w.exited = false)
    {op : StopOp (HostCallback K)} {answer : StopAns op}
    {signal : StopState (ServiceThread κ) (HostCallback K)} (hcall : (calls .host).May own op)
    (hmay : HostMay stage (.stop op : HostingOp K))
    (hperform : w.signal.perform .host op = some (answer, signal)) :
    ServiceInv (Function.update calls .host ((calls .host).next op answer))
      (stage.next (.stop op : HostingOp K) answer) work (w.signalled op signal) := by
  have hfits := h.fits
  cases hmay with
  | register => exact h.register hexited hcall hperform
  | registering op hop =>
      have hnext : HostStage.registered.next (.stop op : HostingOp K) answer = .registered := by
        cases op <;> rfl
      rw [hnext]
      exact h.signal_step hcall hop hperform
  | cancelling s op hop =>
      have hnext : (HostStage.waiting s).next (.stop op : HostingOp K) answer = .waiting s := by
        cases op <;> rfl
      rw [hnext]
      exact h.signal_step hcall hop hperform
  | check =>
      simp only [HostStage.next]
      split
      · next htrue =>
          exact h.host_check hexited hcall hperform ⟨rfl, rfl, rfl, rfl, rfl, id, id⟩
            fun hflag => hflag.symm.trans htrue
      · exact h.host_check hexited hcall hperform ⟨rfl, rfl, rfl, rfl, rfl, id, id⟩ fun _ => trivial
  | checkQuiet =>
      exact h.host_check hexited hcall hperform ⟨rfl, rfl, rfl, rfl, rfl, id, id⟩
        fun hflag => ⟨rfl, hflag.trans hfits, hfits⟩
  | checkRun s =>
      obtain ⟨hsettled, hinits, hran⟩ := hfits
      simp only [HostStage.next]
      split
      · exact h.host_check hexited hcall hperform ⟨rfl, rfl, rfl, rfl, rfl, id, id⟩ fun _ => hsettled
      · next hfalse =>
          refine h.host_check hexited hcall hperform ⟨rfl, rfl, rfl, rfl, rfl, id, id⟩
            fun hflag => ⟨hsettled, hinits, hran, ?_⟩
          -- A stop is received only once the service is cancelled.
          by_contra hstops
          exact hfalse (hflag.trans (h.stopped_cancelled hstops))
  | checkEnd s ok =>
      exact h.host_check hexited hcall hperform ⟨rfl, rfl, rfl, rfl, rfl, id, id⟩
        fun hflag => ⟨hfits.1, hfits.2.1, hfits.2.2, fun htrue => hflag.symm.trans htrue⟩

/-! ## Steps of the worker -/

/-- The worker goes on. -/
theorem ServiceInv.advance (h : ServiceInv calls stage work w) {work' : WorkStage}
    (hsignal : w'.signal = w.signal) (hspawned : w'.spawned = w.spawned)
    (hreports : w'.reports = w.reports) (hexited : w'.exited = w.exited) (hclock : w'.clock = w.clock)
    (hborn : w.spawned = true) {sent : List HostEvent} (hchannel : w'.channel = w.channel ++ sent)
    (hsent : w'.sent = w.sent ++ sent) (hstop : sent.count .stop = 0) (hinits : work'.inits = work.inits + sent.count .initialized)
    (hfinished : ∀ result, .finished result ∈ sent → work'.result = some result)
    (hresult : ∀ result, work'.result = some result → work.result = some result ∨
      .finished result ∈ sent)
    (hkept : work.result.isSome = true → work'.result = work.result)
    (hended : w'.ended = work'.panicked) (hend : w.ended.isSome = true → w'.ended = w.ended)
    (hsender : w'.workerSender = false ↔ w'.ended.isSome = true)
    (hstopSender : w'.stopSender = w.stopSender) : ServiceInv calls stage work' w' where
  signal := hsignal ▸ h.signal
  ours := h.ours
  registered := by rw [hsignal, h.registered]
  stops := by rw [hchannel, List.count_append, hstop, hsignal, Nat.add_zero, h.stops]
  inits := by rw [hchannel, List.count_append, hinits, ← h.inits, Nat.add_assoc]
  finished result hmem := by
    rw [hchannel] at hmem
    rcases List.mem_append.mp hmem with hmem | hmem
    · have hbefore := h.finished result hmem
      exact (hkept (by rw [hbefore]; rfl)).trans hbefore
    · exact hfinished result hmem
  listening hl result hafter := by
    rw [hchannel]
    rcases hresult result hafter with hbefore | hsent
    · exact List.mem_append_left _ (h.listening hl result hbefore)
    · exact List.mem_append_right _ hsent
  spawned := hspawned.trans h.spawned
  unborn hfalse := by
    rw [hspawned, hborn] at hfalse
    cases hfalse
  ended := hended
  sent result := by
    rw [hsent, List.mem_append, h.sent result]
    refine ⟨fun hmem => ?_, fun hafter => hresult result hafter⟩
    rcases hmem with hbefore | hmem
    · exact (hkept (by rw [hbefore]; rfl)).trans hbefore
    · exact hfinished result hmem
  sentInits := by rw [hsent, List.count_append, h.sentInits, hinits]
  workerSender _ := hsender
  stopSender hcount := hstopSender.trans (h.stopSender (hsignal ▸ hcount))
  opening hopening := by
    -- The worker's thread is not spawned yet.
    have hspawned := h.spawned
    rw [hborn] at hspawned
    cases stage with
    | opened | registered => cases hspawned
    | _ => cases hopening
  fits := h.fits.mono (fun hflag => by rw [hsignal, hflag]) hclock.ge hend hkept fun hexit =>
    hexited.trans hexit
  reports := hreports.trans h.reports
  exited hexit := h.exited (hexited ▸ hexit)

theorem ServiceInv.work_step (h : ServiceInv calls stage work w) {op : HostingOp K}
    {answer : HostingAns op} (hmay : WorkMay work op) (hop : ∀ stop, op ≠ .stop stop)
    (hanswers : w.Answers horizon .worker op answer w') :
    ServiceInv calls stage (work.next op answer) w' := by
  have hended := h.ended
  have hborn : work ≠ .unborn → w.spawned = true := by
    intro hne
    by_contra hfalse
    exact hne (h.unborn (Bool.not_eq_true _ ▸ hfalse))
  cases hmay with
  | stop initialized op _ => exact absurd rfl (hop _)
  | begun =>
      cases hanswers with
      | begun hspawned =>
          exact h.advance rfl rfl rfl rfl rfl hspawned (List.append_nil _).symm
            (List.append_nil _).symm rfl rfl (by simp) (by rintro _ ⟨⟩) (fun _ => rfl) hended
            (fun _ => rfl) (h.workerSender hspawned) rfl
  | initialized =>
      cases hanswers
      have hspawned := hborn (by rintro ⟨⟩)
      exact h.advance rfl rfl rfl rfl rfl hspawned rfl rfl rfl rfl (by simp) (by rintro _ ⟨⟩)
        (fun _ => rfl) hended (fun _ => rfl) (h.workerSender hspawned) rfl
  | dropWorker initialized =>
      cases hanswers
      have hspawned := hborn (by rintro ⟨⟩)
      exact h.advance rfl rfl rfl rfl rfl hspawned (List.append_nil _).symm (List.append_nil _).symm
        rfl rfl (by simp) (by rintro _ ⟨⟩) (fun _ => rfl) hended (fun _ => rfl)
        (h.workerSender hspawned) rfl
  | finished initialized result =>
      cases hanswers
      have hspawned := hborn (by rintro ⟨⟩)
      refine h.advance rfl rfl rfl rfl rfl hspawned rfl rfl rfl rfl (fun other hmem => ?_)
        (fun other hother => ?_) (by rintro ⟨⟩) hended (fun _ => rfl) (h.workerSender hspawned) rfl
      · -- The result is sent before the thread ends.
        cases List.mem_singleton.mp hmem
        rfl
      · cases hother
        exact .inr List.mem_cons_self
  | panicked initialized =>
      cases hanswers
      refine h.advance rfl rfl rfl rfl rfl (hborn (by rintro ⟨⟩)) (List.append_nil _).symm
        (List.append_nil _).symm rfl rfl (by simp) (by rintro _ ⟨⟩) (fun _ => rfl) rfl (fun hend => ?_)
        ⟨fun _ => rfl, fun _ => rfl⟩ rfl
      rw [hended] at hend
      cases hend
  | exit initialized result =>
      cases hanswers
      refine h.advance rfl rfl rfl rfl rfl (hborn (by rintro ⟨⟩)) (List.append_nil _).symm
        (List.append_nil _).symm rfl rfl (by simp) (fun _ hresult => .inl hresult) (fun _ => rfl) rfl
        (fun hend => ?_) ⟨fun _ => rfl, fun _ => rfl⟩ rfl
      rw [hended] at hend
      cases hend

/-! ## Runs -/

omit [Fintype κ] [DecidableEq κ] [DecidableEq K] in
theorem callNext_other {phase : StopPhase (HostCallback K)} {op : HostingOp K}
    {answer : HostingAns op} (hop : ∀ stop, op ≠ .stop stop) : callNext phase op answer = phase := by
  cases op with
  | stop op => exact absurd rfl (hop op)
  | _ => rfl

omit [Fintype κ] [DecidableEq κ] [DecidableEq K] in
/-- The worker's calls leave it where it is, and do not register the host's callback. -/
theorem WorkMay.stop_next {op : StopOp (HostCallback K)}
    (h : WorkMay work (.stop op : HostingOp K)) (answer : StopAns op) :
    work.next (.stop op : HostingOp K) answer = work ∧ op ≠ .lockCallbacks (.register .sendStop) := by
  cases h with
  | stop initialized _ hop =>
      refine ⟨?_, hop⟩
      cases op <;> rfl

/-- **Every step of a thread keeps the service together.** -/
theorem serviceInv_step {l : ServiceThread κ → ServiceLocal K} {i : ServiceThread κ}
    {op : HostingOp K} {answer : HostingAns op}
    (h : ServiceInv (fun i => (l i).call) (l .host).host (l .worker).work w)
    (hmay : (serviceMonitor i).may (l i) op) (hanswers : serviceMachine horizon i w op answer w') :
    ServiceInv (fun j => (Function.update l i ((serviceMonitor i).next (l i) op answer) j).call)
      (Function.update l i ((serviceMonitor i).next (l i) op answer) .host).host
      (Function.update l i ((serviceMonitor i).next (l i) op answer) .worker).work w' := by
  obtain ⟨hexited, hanswers⟩ := hanswers
  have hcalls : ∀ l' : ServiceLocal K, (fun j => (Function.update l i l' j).call) =
      Function.update (fun j => (l j).call) i l'.call := fun l' => by
    funext j
    by_cases hj : j = i
    · subst hj
      simp
    · simp [hj]
  rw [hcalls]
  -- Outside the calls, the phases of the calls stay as they are.
  have hcalls' : ∀ hop : ∀ stop, op ≠ .stop stop, Function.update (fun j => (l j).call) i
      (callNext (l i).call op answer) = fun j => (l j).call := fun hop => by
    rw [callNext_other hop]
    exact Function.update_eq_self i _
  cases i with
  | host =>
      obtain ⟨hcall, hhost⟩ := hmay
      rw [Function.update_self, Function.update_of_ne (by rintro ⟨⟩)]
      by_cases hstop : ∃ stop, op = .stop stop
      · obtain ⟨stop, rfl⟩ := hstop
        cases hanswers with
        | stop hperform => exact h.host_stop hexited hcall hhost hperform
      · have hop : ∀ stop, op ≠ .stop stop := fun stop heq => hstop ⟨stop, heq⟩
        have hstep := h.host_step hhost hop hexited hanswers
        exact (hcalls' hop).symm ▸ hstep
  | worker =>
      obtain ⟨hcall, hwork⟩ := hmay
      rw [Function.update_self, Function.update_of_ne (by rintro ⟨⟩)]
      by_cases hstop : ∃ stop, op = .stop stop
      · obtain ⟨stop, rfl⟩ := hstop
        obtain ⟨hnext, hregister⟩ := hwork.stop_next answer
        cases hanswers with
        | stop hperform =>
            show ServiceInv _ _ ((l .worker).work.next (.stop stop : HostingOp K) answer) _
            rw [hnext]
            exact h.signal_step hcall hregister hperform
      · have hop : ∀ stop, op ≠ .stop stop := fun stop heq => hstop ⟨stop, heq⟩
        have hstep := h.work_step hwork hop hanswers
        exact (hcalls' hop).symm ▸ hstep
  | other k =>
      obtain ⟨hcall, stop, rfl, hregister⟩ := hmay
      rw [Function.update_of_ne (by rintro ⟨⟩), Function.update_of_ne (by rintro ⟨⟩)]
      cases hanswers with
      | stop hperform => exact h.signal_step hcall hregister hperform

/-- Where a thread ends. -/
def ThreadEnds (fuel : Nat) : (i : ServiceThread κ) → i.Value → ServiceLocal K → Prop
  | .host, value, l => MainEnds fuel value l
  | .worker, _, l => l.call = .idle ∧ ∃ initialized result, l.work = .ended initialized result
  | .other _, _, l => l.call = .idle

omit [Fintype κ] [DecidableEq κ] [DecidableEq K] in
theorem threads_safe (fuel : Nat) (eventSource : String) (worker : ServiceWorker K)
    (users : κ → UserProg K Unit) (i : ServiceThread κ) :
    (serviceThreads fuel eventSource worker users i).Safe (serviceMonitor i) (ThreadEnds fuel i)
      (.new : ServiceLocal K) := by
  cases i with
  | host => exact serviceMain_safe fuel eventSource
  | worker => exact thread_safe worker
  | other k => exact (other_safe k (users k) rfl).mono fun _ _ hl => hl ▸ rfl

section Runs

variable {fuel : Nat} {eventSource : String} {worker : ServiceWorker K} {users : κ → UserProg K Unit}
  {programs : (i : ServiceThread κ) → HostingProg K i.Value}

/-- Where the threads are in a state they can reach. -/
theorem service_reached
    (h : Reaches (serviceMachine horizon) (serviceThreads fuel eventSource worker users) .new programs
      w) :
    ∃ l : ServiceThread κ → ServiceLocal K,
      ServiceInv (fun i => (l i).call) (l .host).host (l .worker).work w ∧
      ∀ i, (programs i).Safe (serviceMonitor i) (ThreadEnds fuel i) (l i) :=
  h.invariant (fun l w => ServiceInv (fun i => (l i).call) (l .host).host (l .worker).work w)
    (threads_safe fuel eventSource worker users) serviceInv_new
    fun _ _ _ _ _ _ hinv hmay hanswers => serviceInv_step hinv hmay hanswers

/-! ## What the service control manager is told -/

omit [Fintype κ] [DecidableEq κ] [DecidableEq K] in
/-- What the host's loop published, it received before. -/
theorem HostStage.Fits.received (h : stage.Fits w work) (hs : stage.loop = some s) :
    (s.ran = true → s.inits = 1) ∧ (s.stopping = true → s.stops = 1) := by
  have hsettled : s.Settled → (s.ran = true → s.inits = 1) ∧ (s.stopping = true → s.stops = 1) :=
    fun hsettled => ⟨hsettled.ran, hsettled.stopping.mp⟩
  cases stage with
  | waiting s' =>
      cases hs
      exact hsettled h
  | stopReceived s' =>
      cases hs
      exact ⟨h.2.2, fun htrue => h.1⟩
  | initReceived s' | runnable s' | lost s' | timedOut s' =>
      cases hs
      exact hsettled h.1
  | gone s' =>
      cases hs
      exact hsettled h.1.1
  | finishing s' _ | returned s' _ =>
      cases hs
      exact hsettled h.1
  | joined s' _ _ =>
      cases hs
      exact hsettled h.1
  | ending s' _ _ =>
      cases hs
      exact hsettled h.1
  | closed s' _ =>
      cases hs
      exact hsettled h.1
  | _ => cases hs

/-- The statuses of a service, in their order. -/
def statuses (running stopping : Bool) (final : Option ServiceState) : List ServiceState :=
  .startPending :: ((if running = true then [.running] else []) ++
    (if stopping = true then [.stopPending] else []) ++ final.toList)

theorem HostStage.reports_statuses (stage : HostStage) (hfresh : stage.reports ≠ []) :
    ∃ running stopping final, stage.reports = statuses running stopping final ∧
      (running = true → ∃ s, stage.loop = some s ∧ s.ran = true) ∧
      (stopping = true → ∃ s, stage.loop = some s ∧ s.stopping = true) ∧
      ∀ state, final = some state → ∃ s, stage = .closed s state := by
  have hloop : ∀ s : Option LoopState, ∃ running stopping,
      (s.map LoopState.reports).getD [] = (if running = true then [.running] else []) ++
        (if stopping = true then [.stopPending] else []) ∧
      (running = true → ∃ s', s = some s' ∧ s'.ran = true) ∧
      (stopping = true → ∃ s', s = some s' ∧ s'.stopping = true) := by
    intro s
    cases s with
    | none => exact ⟨false, false, rfl, by rintro ⟨⟩, by rintro ⟨⟩⟩
    | some s => exact ⟨s.ran, s.stopping, rfl, fun h => ⟨s, rfl, h⟩, fun h => ⟨s, rfl, h⟩⟩
  obtain ⟨running, stopping, hreports, hran, hstopping⟩ := hloop stage.loop
  cases stage with
  | fresh => exact absurd rfl hfresh
  | closed s final =>
      refine ⟨running, stopping, some final, ?_, hran, hstopping, ?_⟩
      · exact congrArg (fun loop => .startPending :: (loop ++ [final])) hreports
      · rintro state ⟨⟩
        exact ⟨s, rfl⟩
  | _ =>
      refine ⟨running, stopping, none, ?_, hran, hstopping, by rintro state ⟨⟩⟩
      simp only [statuses, Option.toList_none, List.append_nil]
      exact congrArg (.startPending :: ·) hreports

/-- **What the service control manager is told is true, and in order.** Whatever the worker and the
users of the signal do, and however their steps fall between the host's: the statuses are StartPending,
then Running, StopPending and a last one, of which each may be missing. Running is reported only after
the worker announced itself, StopPending only after a cancellation. A last status is reported only when
the worker's thread has ended, if there was one; and one that is not a failure only after a
cancellation, of a worker that ended without an error. -/
theorem service_reports
    (h : Reaches (serviceMachine horizon) (serviceThreads fuel eventSource worker users) .new programs
      w) :
    w.reports = [] ∨ ∃ running stopping final,
      w.reports = (statuses running stopping final).map .fromState ∧
      (running = true → .initialized ∈ w.sent) ∧ (stopping = true → w.signal.cancelled = true) ∧
      ∀ state, final = some state → (w.spawned = true → w.ended.isSome = true) ∧
        (state = .failed ∨ state = .stopped ∧ w.signal.cancelled = true ∧
          (w.spawned = true → w.ended = some false ∧ .finished (.ok ()) ∈ w.sent)) := by
  obtain ⟨l, hinv, -⟩ := service_reached h
  by_cases hfresh : (l .host).host.reports = []
  · exact .inl (by rw [hinv.reports, hfresh, List.map_nil])
  obtain ⟨running, stopping, final, hreports, hran, hstopping, hfinal⟩ :=
    (l .host).host.reports_statuses hfresh
  refine .inr ⟨running, stopping, final, by rw [hinv.reports, hreports], fun hrunning => ?_,
    fun hstop => ?_, fun state hstate => ?_⟩
  · -- Running was reported: the announcement was received, so it was sent.
    obtain ⟨s, hs, hsran⟩ := hran hrunning
    have hinits : s.inits = 1 := (hinv.fits.received hs).1 hsran
    have hcount := hinv.inits
    rw [← hinv.sentInits, HostStage.inits_of_loop hs] at hcount
    exact List.count_pos_iff.mp (by omega)
  · -- StopPending was: a stop was received.
    obtain ⟨s, hs, hsstopping⟩ := hstopping hstop
    have hstops : s.stops = 1 := (hinv.fits.received hs).2 hsstopping
    refine hinv.stopped_cancelled ?_
    rw [HostStage.stops_of_loop hs, hstops]
    exact Nat.one_ne_zero
  · obtain ⟨s, hs⟩ := hfinal state hstate
    have hfits := hinv.fits
    have hspawned := hinv.spawned
    rw [hs] at hfits hspawned
    cases s with
    | none =>
        have hnever : ¬w.spawned = true := by
          rw [hspawned]
          rintro ⟨⟩
        exact ⟨fun h => absurd h hnever, hfits.imp_right fun hstopped =>
          ⟨hstopped.1, hstopped.2, fun h => absurd h hnever⟩⟩
    | some s =>
        refine ⟨fun _ => hfits.2.1, hfits.2.2.imp_right fun ⟨hstopped, hcancelled, hclean⟩ =>
          ⟨hstopped, hcancelled, fun _ => ⟨hclean.1, (hinv.sent _).mpr hclean.2⟩⟩⟩

/-! ## Stopping -/

variable {l : ServiceThread κ → ServiceLocal K}

omit [Fintype κ] [DecidableEq κ] [DecidableEq K] in
/-- A thread in the middle of a call of the signal is at a step of it. -/
theorem asks_call (hsafe : (programs i).Safe (serviceMonitor i) (ThreadEnds fuel i) (l i))
    (hcall : (l i).call ≠ .idle) :
    ∃ stop, (programs i).Asks (.stop stop) ∧ (l i).call.May (fun _ => True) stop := by
  rcases hsafe.asks with ⟨value, -, hends⟩ | ⟨op, hop, hmay⟩
  · refine absurd ?_ hcall
    cases i with
    | host =>
        match value with
        | none => exact hends.1
        | some () => exact hends.1
    | worker => exact hends.1
    | other k => exact hends
  · have hmay : CallMay (l i).call op := by
      cases i with
      | host | worker | other k => exact hmay.1
    cases op with
    | stop stop => exact ⟨stop, hop, hmay⟩
    | _ => exact absurd hmay hcall

omit [Fintype κ] [DecidableEq κ] [DecidableEq K] in
/-- The host waits for an event between two rounds of its loop. -/
theorem host_waits {deadline : Option Nat}
    (hsafe : (programs .host).Safe (serviceMonitor (.host : ServiceThread κ)) (ThreadEnds fuel .host)
      (l .host)) (hasks : (programs .host).Asks (.recv deadline)) :
    (l .host).call = .idle ∧ ∃ s, (l .host).host = .waiting s ∧ s.deadline = deadline := by
  obtain ⟨hidle, hmay⟩ := hsafe.may hasks
  refine ⟨hidle, ?_⟩
  generalize (l .host).host = stage at hmay
  cases hmay with
  | recv s => exact ⟨s, rfl, rfl⟩

/-- Once cancelled, the host has received the stop, or it is on its way. -/
theorem stop_underway
    (hinv : ServiceInv (fun i => (l i).call) (l .host).host (l .worker).work w)
    (hsafe : ∀ i, (programs i).Safe (serviceMonitor i) (ThreadEnds fuel i) (l i))
    (hidle : (l .host).call = .idle) (hwaits : (l .host).host = .waiting s)
    (hflag : w.signal.cancelled = true) :
    s.stops ≠ 0 ∨ .stop ∈ w.channel ∨
      ∃ i stop, (programs i).Asks (.stop stop) ∧ stop.delivers = true := by
  have hstops := hinv.stops
  have hregistered := hinv.registered
  rw [hwaits] at hstops hregistered
  change s.stops + _ = _ at hstops
  change _ = 1 at hregistered
  by_cases hcalled : w.signal.called.count .sendStop = 0
  · -- The callback is still to be run.
    obtain ⟨i, hi⟩ := hinv.signal.pending hflag (hcalled.trans_lt (hregistered ▸ Nat.one_pos))
    have hours : ¬(l i).call.Registers .sendStop := by
      by_cases hhost : i = .host
      · subst hhost
        rw [hidle]
        rintro (h | h | h | h) <;> cases h
      · exact hinv.ours i hhost
    have hcall : (l i).call ≠ .idle := by
      intro hidle
      rw [hidle] at hi
      rcases hi with hdrain | hmem
      · cases hdrain
      · cases hmem
    obtain ⟨stop, hasks, hmay⟩ := asks_call (hsafe i) hcall
    refine .inr (.inr ⟨i, stop, hasks, ?_⟩)
    generalize (l i).call = phase at hi hours hmay
    rcases hi with hdrain | hmem
    · cases hmay <;> first | rfl | cases hdrain
    · cases hmay with
      | call callback callbacks => rfl
      | unlock => cases hmem
      | check callback | push callback | refuse callback | now callback =>
          cases List.mem_singleton.mp hmem
          exact absurd (by simp [StopPhase.Registers]) hours
      | _ => cases hmem
  · by_cases hchannel : w.channel.count .stop = 0
    · exact .inl (by omega)
    · exact .inr (.inl (List.count_pos_iff.mp (Nat.pos_of_ne_zero hchannel)))

/-- **A stop stops the service.** In every state that the threads can reach:
- while the host waits for an event of a cancelled service, StopPending was reported, or the stop is in
  the channel, or a thread is on its way to send it;
- while it waits and the worker's thread has ended without a panic, the result is in the channel;
- the main function returns only after the worker's thread has ended, if there was one, and after
  reporting so;
- the process is terminated only after StopPending was reported, and with no report of a stopped
  service;
- three events suffice: with as much fuel, the loop is left only by a return or that way. -/
theorem service_stops
    (h : Reaches (serviceMachine horizon) (serviceThreads fuel eventSource worker users) .new programs
      w) :
    (∀ deadline, (programs .host).Asks (.recv deadline) → w.signal.cancelled = true →
      .fromState .stopPending ∈ w.reports ∨ .stop ∈ w.channel ∨
        ∃ i stop, (programs i).Asks (.stop stop) ∧ stop.delivers = true) ∧
    (∀ deadline, (programs .host).Asks (.recv deadline) → w.ended = some false →
      ∃ result, .finished result ∈ w.channel) ∧
    ((programs .host).value = some (some ()) → w.spawned = true → w.ended.isSome = true ∧
      ∃ status ∈ w.reports, status.currentState = serviceStopped) ∧
    (w.exited = true → .fromState .stopPending ∈ w.reports ∧
      ∀ status ∈ w.reports, status.currentState ≠ serviceStopped) ∧
    (3 ≤ fuel → (programs .host).value = some none → w.exited = true) := by
  obtain ⟨l, hinv, hsafe⟩ := service_reached h
  have hfits := hinv.fits
  have hreports := hinv.reports
  have hhost := hsafe .host
  refine ⟨fun deadline hasks hflag => ?_, fun deadline hasks hended => ?_, fun hvalue hspawned => ?_,
    fun hexited => ?_, fun hfuel hvalue => ?_⟩
  · -- A stop that was received was reported. Else it is still on its way.
    obtain ⟨hidle, s, hwaits, -⟩ := host_waits hhost hasks
    refine (stop_underway hinv hsafe hidle hwaits hflag).imp_left fun hstops => ?_
    have hle := hinv.stops_le
    rw [hwaits] at hfits hreports hle
    change s.stops + _ ≤ 1 at hle
    have hstopping : s.stopping = true := LoopState.Settled.stopping hfits |>.mpr (by omega)
    rw [hreports]
    exact List.mem_map_of_mem (by simp [HostStage.reports, HostStage.loop, LoopState.reports, hstopping])
  · obtain ⟨-, s, hwaits, -⟩ := host_waits hhost hasks
    have hpanicked := hinv.ended
    have hlistening := hinv.listening
    rw [hended] at hpanicked
    rw [hwaits] at hlistening
    generalize (l .worker).work = work at hpanicked hlistening
    -- A thread that ended without a result has panicked.
    match work with
    | .ended initialized (some result) => exact ⟨result, hlistening rfl result rfl⟩
    | .ended initialized none => cases hpanicked
  · obtain ⟨-, hends⟩ : MainEnds fuel (some ()) (l .host) := hhost.returned hvalue
    have hloop := hinv.spawned
    rw [hspawned] at hloop
    -- Of the ends of the main function only the one behind the loop follows a spawn.
    rcases hends with hends | hends | ⟨s, final, hends⟩ <;> rw [hends] at hloop hfits hreports
    · cases hloop
    · cases hloop
    · cases s with
      | none => cases hloop
      | some s =>
          refine ⟨hfits.2.1, .fromState final, ?_, ?_⟩
          · rw [hreports]
            exact List.mem_map_of_mem (by simp [HostStage.reports])
          · rcases hfits.2.2 with hfinal | ⟨hfinal, -⟩ <;> rw [hfinal] <;> rfl
  · obtain ⟨s, hgone⟩ := hinv.exited hexited
    rw [hgone] at hfits hreports
    obtain ⟨⟨hsettled, deadline, hdeadline, -⟩, -⟩ := hfits
    have hstopping : s.stopping = true := hsettled.deadline (by rw [hdeadline]; rfl)
    have hshape : (HostStage.gone s).reports =
        .startPending :: ((if s.ran = true then [.running] else []) ++ [.stopPending]) := by
      simp [HostStage.reports, HostStage.loop, LoopState.reports, hstopping]
    rw [hreports, hshape]
    refine ⟨List.mem_map_of_mem (by simp), ?_⟩
    cases s.ran <;> simp [ScmServiceStatus.fromState, serviceStartPending, serviceStopPending,
      serviceRunning, serviceStopped]
  · obtain ⟨-, ⟨s, hgone⟩ | ⟨s, hwaits, hle⟩⟩ : MainEnds fuel none (l .host) := hhost.returned hvalue
    · rw [hgone] at hfits
      exact hfits.2
    · have hstops := hinv.stops_le
      have hinits := hinv.inits_le
      rw [hwaits] at hstops hinits
      change s.stops + _ ≤ 1 at hstops
      change s.inits + _ ≤ 1 at hinits
      omega

/-! ## Nobody is stuck -/

/-- Whether a thread can take its step. -/
def CanStep (horizon : Nat) (programs : (i : ServiceThread κ) → HostingProg K i.Value)
    (w : ServiceWorld κ K) : Prop :=
  ∃ i op answer w', (programs i).Asks op ∧ serviceMachine horizon i w op answer w'

/-- A thread in a call of the signal goes on, or whoever holds the lock does. -/
theorem call_canStep (hinv : ServiceInv (fun i => (l i).call) (l .host).host (l .worker).work w)
    (hsafe : ∀ i, (programs i).Safe (serviceMonitor i) (ThreadEnds fuel i) (l i))
    (hexited : w.exited = false) {stop : StopOp (HostCallback K)}
    (hasks : (programs i).Asks (.stop stop)) : CanStep horizon programs w := by
  by_cases hfree : (w.signal.perform i stop).isSome = true
  · obtain ⟨⟨answer, signal⟩, hperform⟩ := Option.isSome_iff_exists.mp hfree
    exact ⟨i, .stop stop, answer, _, hasks, hexited, .stop hperform⟩
  · obtain ⟨j, hj⟩ := Option.isSome_iff_exists.mp (perform_blocked hfree)
    have hholds := (hinv.signal.mutex j).mpr hj
    obtain ⟨stop, hasks, hmay⟩ := asks_call (hsafe j) (by
      intro hidle
      rw [hidle] at hholds
      cases hholds)
    have hfree : (w.signal.perform j stop).isSome = true := hmay.unblocked hholds
    obtain ⟨⟨answer, signal⟩, hperform⟩ := Option.isSome_iff_exists.mp hfree
    exact ⟨j, .stop stop, answer, _, hasks, hexited, .stop hperform⟩

/-- The worker's thread goes on to its end. -/
theorem worker_canStep (hinv : ServiceInv (fun i => (l i).call) (l .host).host (l .worker).work w)
    (hsafe : ∀ i, (programs i).Safe (serviceMonitor i) (ThreadEnds fuel i) (l i))
    (hexited : w.exited = false) (hspawned : w.spawned = true) (hended : w.ended = none) :
    CanStep horizon programs w := by
  have hpanicked := hinv.ended
  rw [hended] at hpanicked
  rcases (hsafe .worker).asks with ⟨value, -, -, initialized, result, hends⟩ | ⟨op, hasks, -, hmay⟩
  · rw [hends] at hpanicked
    cases hpanicked
  · generalize (l .worker).work = work at hmay
    cases hmay with
    | begun => exact ⟨.worker, _, _, _, hasks, hexited, .begun hspawned⟩
    | stop initialized stop _ => exact call_canStep hinv hsafe hexited hasks
    | initialized => exact ⟨.worker, _, _, _, hasks, hexited, .send _⟩
    | dropWorker initialized => exact ⟨.worker, _, _, _, hasks, hexited, .dropWorker false⟩
    | finished initialized result => exact ⟨.worker, _, _, _, hasks, hexited, .send _⟩
    | panicked initialized => exact ⟨.worker, _, _, _, hasks, hexited, .exitThread true⟩
    | exit initialized result => exact ⟨.worker, _, _, _, hasks, hexited, .exitThread false⟩

/-- The host waits for ever only for a worker that panicked after its run. -/
theorem recv_canStep (hinv : ServiceInv (fun i => (l i).call) (l .host).host (l .worker).work w)
    (hsafe : ∀ i, (programs i).Safe (serviceMonitor i) (ThreadEnds fuel i) (l i))
    (hexited : w.exited = false) (hidle : (l .host).call = .idle)
    (hwaits : (l .host).host = .waiting s) (hasks : (programs .host).Asks (.recv s.deadline)) :
    CanStep horizon programs w ∨
      (programs .host).Asks (.recv none) ∧ w.ended = some true ∧ w.signal.cancelled = false := by
  cases hchannel : w.channel with
  | cons event rest => exact .inl ⟨.host, _, _, _, hasks, hexited, .received hchannel⟩
  | nil =>
  cases hdeadline : s.deadline with
  | some deadline =>
      rw [hdeadline] at hasks
      exact .inl ⟨.host, _, _, _, hasks, hexited,
        .timeout hchannel (le_max_left w.clock deadline) (le_max_right w.clock deadline)⟩
  | none =>
  have hspawned := hinv.spawned
  rw [hwaits] at hspawned
  cases hended : w.ended with
  | none => exact .inl (worker_canStep hinv hsafe hexited hspawned hended)
  | some panicked =>
  cases hflag : w.signal.cancelled with
  | true =>
      left
      rcases stop_underway hinv hsafe hidle hwaits hflag with hstops | hstop | ⟨i, stop, hasks, -⟩
      · have hcounts := hinv.stops
        rw [HostStage.stops_of_loop (show _ = some s by rw [hwaits]; rfl)] at hcounts
        exact ⟨.host, _, _, _, hasks, hexited, .disconnected hchannel
          ((hinv.workerSender hspawned).mpr (by rw [hended]; rfl)) (hinv.stopSender (by omega))⟩
      · rw [hchannel] at hstop
        cases hstop
      · exact call_canStep hinv hsafe hexited hasks
  | false =>
      cases panicked with
      | true =>
          rw [hdeadline] at hasks
          exact .inr ⟨hasks, rfl, rfl⟩
      | false =>
          -- The result is in the channel.
          have hpanicked := hinv.ended
          have hlistening := hinv.listening
          rw [hended] at hpanicked
          rw [hwaits, hchannel] at hlistening
          generalize (l .worker).work = work at hpanicked hlistening
          match work with
          | .ended initialized (some result) => cases hlistening rfl result rfl
          | .ended initialized none => cases hpanicked

/-- **The service does not lock up.** As long as the process lives and the main function has not
returned, a thread can take its step. The one exception is a worker whose thread panicked after its
run, as it was dropped: the host waits for it until the service is cancelled. -/
theorem service_live
    (h : Reaches (serviceMachine horizon) (serviceThreads fuel eventSource worker users) .new programs
      w) (hexited : w.exited = false) (hvalue : (programs .host).value = none) :
    CanStep horizon programs w ∨
      (programs .host).Asks (.recv none) ∧ w.ended = some true ∧ w.signal.cancelled = false := by
  obtain ⟨l, hinv, hsafe⟩ := service_reached h
  rcases (hsafe .host).asks with ⟨value, hsome, -⟩ | ⟨op, hasks, hidle, hmay⟩
  · rw [hvalue] at hsome
    cases hsome
  · have hfits := hinv.fits
    have hstep : ∀ {answer w'}, w.Answers horizon .host op answer w' → CanStep horizon programs w :=
      fun hanswers => ⟨.host, op, _, _, hasks, hexited, hanswers⟩
    generalize hstage : (l .host).host = stage at hmay hfits
    cases hmay with
    | registerHandler => exact .inl (hstep (.registerHandler (.ok ())))
    | announce | fail | failQuiet => exact .inl (hstep (.publishStatus _ (.ok ())))
    | reportStop s | reportRun s => exact .inl (hstep (.publishStatus _ (.ok ())))
    | close s ok cancelled => exact .inl (hstep (.publishStatus _ (.ok ())))
    | loadConfig => exact .inl (hstep (.loadConfig (.error "")))
    | nativeWorker => exact .inl (hstep (.nativeWorker (.ok ())))
    | loadState => exact .inl (hstep .loadState)
    | checkTimeout timeout => exact .inl (hstep (.deadline timeout le_rfl))
    | arm s timeout => exact .inl (hstep (.deadline timeout le_rfl))
    | refuse | neverStart | start => exact .inl (hstep (.storeState _))
    | storeStop s | storeRun s => exact .inl (hstep (.storeState _))
    | store s panicked result state _ => exact .inl (hstep (.storeState _))
    | takeWorker => exact .inl (hstep .takeWorker)
    | channel => exact .inl (hstep .channel)
    | spawn => exact .inl (hstep .spawn)
    | exit s => exact .inl (hstep .exitProcess)
    | check | checkQuiet | register => exact .inl (call_canStep hinv hsafe hexited hasks)
    | registering stop _ => exact .inl (call_canStep hinv hsafe hexited hasks)
    | cancelling s stop _ => exact .inl (call_canStep hinv hsafe hexited hasks)
    | checkRun s => exact .inl (call_canStep hinv hsafe hexited hasks)
    | checkEnd s ok => exact .inl (call_canStep hinv hsafe hexited hasks)
    | recv s => exact recv_canStep hinv hsafe hexited hidle hstage hasks
    | join s result =>
        cases hended : w.ended with
        | none =>
            have hspawned := hinv.spawned
            rw [hstage] at hspawned
            exact .inl (worker_canStep hinv hsafe hexited hspawned hended)
        | some panicked => exact .inl (hstep (.join hended))
    | joinLost s =>
        obtain ⟨panicked, hended⟩ := Option.isSome_iff_exists.mp hfits.2
        exact .inl (hstep (.join hended))

end Runs

end Invariant

/-! A service that is started and stopped by the control handler, in a world where everything goes well:
its host, its worker, and the thread of the handler. -/

def obliging (i : ServiceThread Unit) (w : ServiceWorld Unit Nat) :
    (op : HostingOp Nat) → Option (HostingAns op × ServiceWorld Unit Nat)
  | .stop op => (w.signal.perform i op).map fun outcome => (outcome.1, w.signalled op outcome.2)
  | .registerHandler => some (.ok (), w)
  | .publishStatus status => some (.ok (), { w with reports := w.reports ++ [status] })
  | .loadConfig => some (.ok ⟨"VirtioMem", 5⟩, w)
  | .nativeWorker => some (.ok (), w)
  | .loadState => some (w.state, w)
  | .storeState state => some ((), { w with state := state })
  | .deadline timeout =>
    some (if w.clock + timeout ≤ 100 then some (w.clock + timeout) else none, w)
  | .takeWorker => some (w.hasWorker, { w with hasWorker := false })
  | .channel => some ((), { w with workerSender := true, stopSender := true })
  | .spawn => some ((), { w with spawned := true })
  | .recv _ =>
    match w.channel with
    | [] => none
    | event :: rest => some (.ok event, { w with channel := rest })
  | .join => w.ended.map fun panicked => (panicked, w)
  | .exitProcess => some ((), { w with exited := true })
  | .begun => if w.spawned = true then some ((), w) else none
  | .send event => some ((), { w with channel := w.channel ++ [event], sent := w.sent ++ [event] })
  | .dropWorker => some (false, w)
  | .exitThread panicked => some ((), { w with ended := some panicked, workerSender := false })

theorem obliging_answers {i : ServiceThread Unit} {w w' : ServiceWorld Unit Nat} {op : HostingOp Nat}
    {answer : HostingAns op} (h : obliging i w op = some (answer, w')) :
    w.Answers 100 i op answer w' := by
  cases op with
  | stop op =>
      obtain ⟨⟨answer, signal⟩, hperform, heq⟩ := Option.map_eq_some_iff.mp h
      cases heq
      exact .stop hperform
  | recv deadline =>
      simp only [obliging] at h
      split at h
      · cases h
      · next event rest hchannel =>
          cases h
          exact .received hchannel
  | join =>
      obtain ⟨panicked, hended, heq⟩ := Option.map_eq_some_iff.mp h
      cases heq
      exact .join hended
  | begun =>
      simp only [obliging] at h
      split at h
      · next hspawned =>
          cases h
          exact .begun hspawned
      · cases h
  | deadline timeout =>
      cases h
      exact .deadline timeout le_rfl
  | _ =>
      cases h
      constructor

/-- A worker that waits for the stop. -/
def waiter : ServiceWorker Nat where
  initializeWorker := pure (some (.ok ()))
  run := Prog.ask (.wait : StopCall Nat) >>= fun _ => pure (some (.ok ()))

def handler (_ : Unit) : UserProg Nat Unit := do
  let _ ← serviceControlHandler serviceControlStop

/-- The threads after a schedule. -/
def orderly (threads : List (ServiceThread Unit)) :
    ((i : ServiceThread Unit) → HostingProg Nat i.Value) × ServiceWorld Unit Nat :=
  schedule (fun i w op => if w.exited = true then none else obliging i w op) threads
    (serviceThreads 3 "VirtioMem" waiter handler) .new

theorem orderly_reaches (threads : List (ServiceThread Unit)) :
    Reaches (serviceMachine 100) (serviceThreads 3 "VirtioMem" waiter handler) .new
      (orderly threads).1 (orderly threads).2 := by
  refine schedule_reaches (fun i w op answer w' h => ?_) _ _ _
  split at h
  · cases h
  · next hexited => exact ⟨Bool.not_eq_true _ ▸ hexited, obliging_answers h⟩

/-- The service runs, and the handler has set the flag. -/
def untilCancelled : List (ServiceThread Unit) :=
  .replicate 15 .host ++ .replicate 4 .worker ++ .replicate 4 .host ++ [.worker, .other ()]

/-- The service has stopped. -/
def untilStopped : List (ServiceThread Unit) :=
  untilCancelled ++ .replicate 6 (.other ()) ++ .replicate 4 .host ++ .replicate 4 .worker ++
    .replicate 5 .host

theorem orderly_reports : ∃ running stopping final,
    (orderly untilStopped).2.reports = (statuses running stopping final).map .fromState ∧
      (running = true → .initialized ∈ (orderly untilStopped).2.sent) ∧
      (stopping = true → (orderly untilStopped).2.signal.cancelled = true) := by
  rcases service_reports (orderly_reaches untilStopped) with hnone | ⟨_, _, _, hreports, hran, hstop, -⟩
  · exact absurd hnone (by decide +kernel)
  · exact ⟨_, _, _, hreports, hran, hstop⟩

theorem orderly_cancelled : (orderly untilCancelled).2.signal.cancelled = true := by decide +kernel

theorem orderly_waits : ((orderly untilCancelled).1 .host).Asks (.recv none) := ⟨_, rfl⟩

theorem orderly_stops : (.fromState .stopPending ∈ (orderly untilCancelled).2.reports ∨
      .stop ∈ (orderly untilCancelled).2.channel ∨
        ∃ i stop, ((orderly untilCancelled).1 i).Asks (.stop stop) ∧ stop.delivers = true) :=
  (service_stops (orderly_reaches untilCancelled)).1 none orderly_waits orderly_cancelled

theorem orderly_lives : CanStep 100 (orderly untilCancelled).1 (orderly untilCancelled).2 ∨
    ((orderly untilCancelled).1 .host).Asks (.recv none) ∧
      (orderly untilCancelled).2.ended = some true ∧
        (orderly untilCancelled).2.signal.cancelled = false :=
  service_live (orderly_reaches untilCancelled) (by decide +kernel) rfl

end VirtioMem.Guest
