import VirtioMem.Guest.ServiceHost

/-!
# The threads of the Windows service

What each thread does, one at a time: between two steps of its own it may find the world changed. The
automata of `ServiceHost` follow where the host and the worker are, and in which call of the signal.
-/

namespace VirtioMem.Guest

open VirtioMem.Effect

variable {κ K α : Type} {i : ServiceThread κ} {l : ServiceLocal K} {host : HostStage}
  {work : WorkStage} {own : HostCallback K → Prop}

/-! ## What the threads do -/

theorem StopPhase.May.mono {C : Type} {own own' : C → Prop} {phase : StopPhase C} {op : StopOp C}
    (h : phase.May own op) (hown : ∀ callback, own callback → own' callback) : phase.May own' op := by
  cases h with
  | onCancel callback h => exact .onCancel callback (hown callback h)
  | _ => constructor

/-- A call of the signal where it leaves the thread as it was. -/
theorem liftStop_safe {p : StopProg (HostCallback K) α}
    (h : p.Safe (stopMonitor own) (fun _ => (· = .idle)) .idle) (hidle : l.call = .idle)
    (hmay : ∀ (phase : StopPhase (HostCallback K)) op, phase.May own op →
      (serviceMonitor i).may { l with call := phase } (.stop op))
    (hnext : ∀ (phase : StopPhase (HostCallback K)) op answer, phase.May own op →
      (serviceMonitor i).next { l with call := phase } (.stop op) answer =
        { l with call := phase.next op answer }) :
    (liftStop p).Safe (serviceMonitor i) (fun _ l' => l' = l) l := by
  have hembed : (liftStop p).Safe (serviceMonitor i)
      (fun _ l' => ∃ phase, l' = { l with call := phase } ∧ phase = .idle) l := by
    refine h.embed (fun phase l' => l' = { l with call := phase }) (fun phase l' op hl hop => ?_)
      (fun phase l' op answer hl hop => ?_) (by rw [← hidle])
    · rw [hl]
      exact hmay phase op hop
    · rw [hl]
      exact hnext phase op answer hop
  refine hembed.mono fun _ l' hl => ?_
  obtain ⟨_, rfl, rfl⟩ := hl
  rw [← hidle]

/-- Code that uses the signal leaves the thread as it was. -/
theorem userProg_safe (p : UserProg K α) (hidle : l.call = .idle)
    (hmay : ∀ (phase : StopPhase (HostCallback K)) op, phase.May (· ≠ .sendStop) op →
      (serviceMonitor i).may { l with call := phase } (.stop op))
    (hnext : ∀ (phase : StopPhase (HostCallback K)) op answer, phase.May (· ≠ .sendStop) op →
      (serviceMonitor i).next { l with call := phase } (.stop op) answer =
        { l with call := phase.next op answer }) :
    (p.interpret userCall).Safe (serviceMonitor i) (fun _ l' => l' = l) l := by
  have hcall : ∀ call : StopCall K, (userCall call).Safe (serviceMonitor i) (fun _ l' => l' = l) l := by
    intro call
    cases call with
    | cancel => exact liftStop_safe cancel_safe hidle hmay hnext
    | onCancel callback => exact liftStop_safe (onCancel_safe (by rintro ⟨⟩)) hidle hmay hnext
    | isCancelled => exact liftStop_safe isCancelled_safe hidle hmay hnext
    | wait => exact liftStop_safe wait_safe hidle hmay hnext
  induction p with
  | pure value => exact rfl
  | perform call resume ih =>
      refine Prog.safe_bind.mpr ((hcall call).mono fun answer l' hl' => ?_)
      rw [hl']
      exact ih answer

theorem other_safe (k : κ) (p : UserProg K α) (hidle : l.call = .idle) :
    (p.interpret userCall).Safe (serviceMonitor (.other k)) (fun _ l' => l' = l) l := by
  refine userProg_safe p hidle (fun phase op hop => ⟨hop.mono fun _ _ => trivial, op, rfl, ?_⟩)
    fun _ _ _ _ => rfl
  rintro rfl
  exact hop.registers rfl

/-- The worker's own code, where it runs. -/
theorem working_safe {initialized : Bool} (p : UserProg K α) :
    (p.interpret userCall).Safe (serviceMonitor (.worker : ServiceThread κ))
      (fun _ l' => l' = ⟨.idle, host, .working initialized⟩) ⟨.idle, host, .working initialized⟩ := by
  refine userProg_safe p rfl (fun phase op hop => ⟨hop.mono fun _ _ => trivial, .stop _ op ?_⟩)
    fun phase op answer _ => ?_
  · rintro rfl
    exact hop.registers rfl
  · cases op <;> rfl

theorem safe_isCancelled {i : ServiceThread κ} {Q : Bool → ServiceLocal K → Prop}
    (hmay : (serviceMonitor i).may l (.stop .isCancelled))
    (h : ∀ cancelled, Q cancelled ((serviceMonitor i).next l (.stop .isCancelled) cancelled)) :
    (liftStop StopSignal.isCancelled : HostingProg K Bool).Safe (serviceMonitor i) Q l :=
  ⟨hmay, h⟩

theorem guarded_safe (worker : ServiceWorker K) :
    worker.guarded.Safe (serviceMonitor (.worker : ServiceThread κ))
      (fun _ l' => ∃ initialized, l' = ⟨.idle, host, .working initialized⟩)
      ⟨.idle, host, .working false⟩ := by
  have hchecks : ∀ {initialized : Bool} {Q : Bool → ServiceLocal K → Prop},
      (∀ cancelled, Q cancelled ⟨.idle, host, .working initialized⟩) →
      (liftStop StopSignal.isCancelled : HostingProg K Bool).Safe
        (serviceMonitor (.worker : ServiceThread κ)) Q ⟨.idle, host, .working initialized⟩ :=
    fun h => safe_isCancelled ⟨.isCancelled, .stop _ _ (by rintro ⟨⟩)⟩ h
  simp only [ServiceWorker.guarded, Prog.safe_seq]
  refine hchecks fun cancelled => ?_
  cases cancelled with
  | true => exact ⟨false, rfl⟩
  | false =>
      refine (Prog.safe_seq _ _).mpr ((working_safe worker.initializeWorker).mono ?_)
      rintro (_ | _ | ⟨⟨⟩⟩) _ rfl
      · exact ⟨false, rfl⟩
      · exact ⟨false, rfl⟩
      refine (Prog.safe_seq _ _).mpr (hchecks fun cancelled => ?_)
      cases cancelled with
      | true => exact ⟨false, rfl⟩
      | false =>
          refine (Prog.safe_seq _ _).mpr ⟨⟨rfl, .initialized⟩, fun _ => ?_⟩
          refine (Prog.safe_seq _ _).mpr ((working_safe worker.run).mono ?_)
          rintro (_ | _ | ⟨⟨⟩⟩) _ rfl <;> exact ⟨true, rfl⟩

theorem thread_safe (worker : ServiceWorker K) :
    worker.thread.Safe (serviceMonitor (.worker : ServiceThread κ))
      (fun _ l' => l'.call = .idle ∧ ∃ initialized result, l'.work = .ended initialized result)
      ⟨.idle, host, .unborn⟩ := by
  refine (Prog.safe_seq _ _).mpr ⟨⟨rfl, .begun⟩, fun _ => ?_⟩
  refine (Prog.safe_seq _ _).mpr ((guarded_safe worker).mono ?_)
  rintro result _ ⟨initialized, rfl⟩
  refine (Prog.safe_seq _ _).mpr ⟨⟨rfl, .dropWorker initialized⟩, fun panicked => ?_⟩
  cases panicked with
  | true => exact ⟨⟨rfl, .panicked initialized⟩, fun _ => ⟨rfl, _, _, rfl⟩⟩
  | false =>
      refine (Prog.safe_seq _ _).mpr ⟨⟨rfl, .finished initialized result⟩, fun _ => ?_⟩
      exact ⟨⟨rfl, .exit initialized result⟩, fun _ => ⟨rfl, _, _, rfl⟩⟩

/-! ## The host -/

/-- Where the host's loop ends: out of fuel, terminated, or with a result. -/
def LoopEnds (fuel : Nat) : Option (Except ServiceHostError Unit) → ServiceLocal K → Prop
  | none, l => l.call = .idle ∧
    ((∃ s, l.host = .gone s) ∨ ∃ s, l.host = .waiting s ∧ fuel ≤ s.inits + s.stops)
  | some result, l => l.call = .idle ∧ ∃ s, l.host = .returned s result.isOk

theorem waiting_cancel_safe (s : LoopState) :
    (liftStop StopSignal.cancel : HostingProg K Unit).Safe (serviceMonitor (.host : ServiceThread κ))
      (fun _ l' => l' = ⟨.idle, .waiting s, work⟩) ⟨.idle, .waiting s, work⟩ := by
  have hcancel : (StopSignal.cancel : StopProg (HostCallback K) Unit).Safe (stopMonitor fun _ => False)
      (fun _ => (· = .idle)) .idle := cancel_safe
  refine liftStop_safe hcancel rfl (fun phase op hop => ?_) fun phase op answer _ => ?_
  · refine ⟨hop.mono fun _ h => h.elim, .cancelling s op ?_⟩
    rintro rfl
    exact hop.registers
  · cases op <;> rfl

theorem finalState_cases (panicked : Bool) (result : Except ServiceHostError Unit)
    (statusError : Option String) :
    ServiceHost.finalState (ServiceHost.joinedResult panicked result statusError) = .stopped ∧
      panicked = false ∧ result = .ok () ∨
    ServiceHost.finalState (ServiceHost.joinedResult panicked result statusError) = .failed := by
  match panicked, result, statusError with
  | true, _, _ => exact .inr rfl
  | false, .error _, _ => exact .inr rfl
  | false, .ok (), some _ => exact .inr rfl
  | false, .ok (), none => exact .inl ⟨rfl, rfl, rfl⟩

theorem finalState_stopped (result : Except ServiceHostError Unit) :
    (ServiceHost.finalState result == .stopped) = result.isOk := by
  unfold ServiceHost.finalState
  cases result.isOk <;> rfl

theorem loop_safe (timeout fuel : Nat) (statusError : Option String) (s : LoopState) :
    (ServiceHost.loop timeout publishStatus fuel s.deadline statusError).Safe
      (serviceMonitor (.host : ServiceThread κ)) (LoopEnds (fuel + (s.inits + s.stops)))
      (⟨.idle, .waiting s, work⟩ : ServiceLocal K) := by
  -- By induction on the fuel: every event that is counted leaves one less to come.
  induction fuel generalizing statusError s with
  | zero => exact ⟨rfl, .inr ⟨s, rfl, by omega⟩⟩
  | succ fuel ih =>
      obtain ⟨deadline, ran, stopping, inits, stops⟩ := s
      refine (Prog.safe_seq _ _).mpr ⟨⟨rfl, .recv _⟩, fun answer => ?_⟩
      match answer with
      | .ok .stop =>
          have hcount : fuel + 1 + (inits + stops) = fuel + (inits + (stops + 1)) := by omega
          rw [hcount]
          cases deadline with
          | some deadline => exact ih statusError ⟨some deadline, ran, stopping, inits, stops + 1⟩
          | none =>
              refine (Prog.safe_seq _ _).mpr ⟨⟨rfl, .arm _ timeout⟩, fun deadline => ?_⟩
              refine (Prog.safe_seq _ _).mpr ⟨⟨rfl, .storeStop _⟩, fun _ => ?_⟩
              refine (Prog.safe_seq _ _).mpr ⟨⟨rfl, .reportStop _⟩, fun answer => ?_⟩
              match answer with
              | .ok () => exact ih statusError ⟨deadline, ran, true, inits, stops + 1⟩
              | .error error => exact ih (some error) ⟨deadline, ran, true, inits, stops + 1⟩
      | .ok .initialized =>
          have hcount : fuel + 1 + (inits + stops) = fuel + (inits + 1 + stops) := by omega
          rw [hcount]
          refine (Prog.safe_seq _ _).mpr
            (safe_isCancelled ⟨.isCancelled, .checkRun _⟩ fun cancelled => ?_)
          cases cancelled with
          | true => exact ih statusError ⟨deadline, ran, stopping, inits + 1, stops⟩
          | false =>
              refine (Prog.safe_seq _ _).mpr ⟨⟨rfl, .storeRun _⟩, fun _ => ?_⟩
              refine (Prog.safe_seq _ _).mpr ⟨⟨rfl, .reportRun _⟩, fun answer => ?_⟩
              match answer with
              | .ok () => exact ih statusError ⟨deadline, true, stopping, inits + 1, stops⟩
              | .error error =>
                  -- A report of Running that fails cancels the service, and the loop goes on.
                  refine (Prog.safe_seq _ _).mpr ((waiting_cancel_safe _).mono ?_)
                  rintro _ _ rfl
                  exact ih (some error) ⟨deadline, true, stopping, inits + 1, stops⟩
      | .ok (.finished result) =>
          refine (Prog.safe_seq _ _).mpr ⟨⟨rfl, .join _ result⟩, fun panicked => ?_⟩
          refine (Prog.safe_seq _ _).mpr
            ⟨⟨rfl, .store _ panicked result _ (finalState_cases panicked result statusError)⟩, fun _ => ?_⟩
          exact ⟨rfl, _, congrArg _ (finalState_stopped _)⟩
      | .error .timeout =>
          exact (Prog.safe_seq _ _).mpr ⟨⟨rfl, .exit _⟩, fun _ => ⟨rfl, .inl ⟨_, rfl⟩⟩⟩
      | .error .disconnected =>
          refine (Prog.safe_seq _ _).mpr ⟨⟨rfl, .joinLost _⟩, fun _ => ?_⟩
          exact (Prog.safe_seq _ _).mpr ⟨⟨rfl, .store _ _ _ _ (.inr rfl)⟩, fun _ => ⟨rfl, _, rfl⟩⟩

/-- Where the host's run ends: as its loop does, or before it. -/
def RunEnds (fuel : Nat) : Option (Except ServiceHostError Unit) → ServiceLocal K → Prop
  | some (.error _), l => l.call = .idle ∧ (l.host = .announced ∨
      ∃ s, l.host = .returned s false)
  | some (.ok ()), l => l.call = .idle ∧ (l.host = .neverStarted ∨ ∃ s, l.host = .returned s true)
  | none, l => LoopEnds fuel none l

theorem LoopEnds.runEnds {fuel : Nat} {result : Option (Except ServiceHostError Unit)}
    (h : LoopEnds fuel result l) : RunEnds fuel result l := by
  match result with
  | none => exact h
  | some (.error _) => exact ⟨h.1, .inr h.2⟩
  | some (.ok ()) => exact ⟨h.1, .inr h.2⟩

theorem invalidTimeout_safe (timeout : Nat) :
    (ServiceHost.invalidTimeout timeout).Safe (serviceMonitor (.host : ServiceThread κ))
      (fun _ l' => l' = ⟨.idle, .announced, work⟩) (⟨.idle, .announced, work⟩ : ServiceLocal K) := by
  unfold ServiceHost.invalidTimeout
  split
  · exact rfl
  · exact (Prog.safe_seq _ _).mpr ⟨⟨rfl, .checkTimeout timeout⟩, fun _ => rfl⟩

theorem onCancel_registers :
    (liftStop (StopSignal.onCancel .sendStop)).Safe (serviceMonitor (.host : ServiceThread κ))
      (fun _ l' => l' = ⟨.idle, .registered, work⟩) (⟨.idle, .opened, work⟩ : ServiceLocal K) := by
  refine ⟨⟨.onCancel _ trivial, .register⟩, fun _ => ⟨⟨.check _, .registering _ (by rintro ⟨⟩)⟩, fun cancelled => ?_⟩⟩
  cases cancelled with
  | true =>
      exact ⟨⟨.refuse _, .registering _ (by rintro ⟨⟩)⟩, fun _ =>
        ⟨⟨.now _, .registering _ (by rintro ⟨⟩)⟩, fun _ => rfl⟩⟩
  | false =>
      exact ⟨⟨.push _, .registering _ (by rintro ⟨⟩)⟩, fun _ =>
        ⟨⟨.release, .registering _ (by rintro ⟨⟩)⟩, fun _ => rfl⟩⟩

theorem runWithStatus_safe (fuel timeout : Nat) :
    (ServiceHost.runWithStatus fuel timeout publishStatus).Safe
      (serviceMonitor (.host : ServiceThread κ)) (RunEnds fuel)
      (⟨.idle, .announced, work⟩ : ServiceLocal K) := by
  refine (Prog.safe_seq _ _).mpr ⟨⟨rfl, .loadState⟩, fun state => ?_⟩
  match state with
  | .startPending | .running | .stopPending | .stopped | .failed => exact ⟨rfl, .inl rfl⟩
  | .created =>
  refine (Prog.safe_seq _ _).mpr ((invalidTimeout_safe timeout).mono fun invalid _ hl => ?_)
  rw [hl]
  cases invalid with
  | true =>
      exact (Prog.safe_seq _ _).mpr ⟨⟨rfl, .refuse⟩, fun _ => ⟨rfl, .inl rfl⟩⟩
  | false =>
  refine (Prog.safe_seq _ _).mpr (safe_isCancelled ⟨.isCancelled, .check⟩ fun cancelled => ?_)
  cases cancelled with
  | true => exact (Prog.safe_seq _ _).mpr ⟨⟨rfl, .neverStart⟩, fun _ => ⟨rfl, .inl rfl⟩⟩
  | false =>
  refine (Prog.safe_seq _ _).mpr ⟨⟨rfl, .start⟩, fun _ => ?_⟩
  refine (Prog.safe_seq _ _).mpr ⟨⟨rfl, .takeWorker⟩, fun had => ?_⟩
  cases had with
  | false => exact ⟨rfl, .inl rfl⟩
  | true =>
  refine (Prog.safe_seq _ _).mpr ⟨⟨rfl, .channel⟩, fun _ => ?_⟩
  refine (Prog.safe_seq _ _).mpr (onCancel_registers.mono fun _ _ hl => ?_)
  rw [hl]
  refine (Prog.safe_seq _ _).mpr ⟨⟨rfl, .spawn⟩, fun _ => ?_⟩
  exact (loop_safe timeout fuel none .new).mono fun _ _ h => h.runEnds

/-- Where the service's main function ends: it has returned, or its loop did not. -/
def MainEnds (fuel : Nat) : Option Unit → ServiceLocal K → Prop
  | none, l => LoopEnds fuel none l
  | some (), l => l.call = .idle ∧
    (l.host = .fresh ∨ l.host = .announced ∨ ∃ s final, l.host = .closed s final)

theorem publishLast_safe {state : ServiceState} {fuel : Nat}
    (hmay : HostMay host (.publishStatus (.fromState state) : HostingOp K)) {s : Option LoopState}
    (hnext : ∀ answer, host.next (.publishStatus (.fromState state) : HostingOp K) answer =
      .closed s state) :
    (publishLast state : HostingProg K (Option Unit)).Safe (serviceMonitor (.host : ServiceThread κ))
      (MainEnds fuel) ⟨.idle, host, work⟩ :=
  (Prog.safe_seq _ _).mpr ⟨⟨rfl, hmay⟩, fun answer => ⟨rfl, .inr (.inr ⟨s, state, hnext answer⟩)⟩⟩

theorem serviceMain_safe (fuel : Nat) (eventSource : String) :
    (serviceMain fuel eventSource).Safe (serviceMonitor (.host : ServiceThread κ)) (MainEnds fuel)
      (.new : ServiceLocal K) := by
  refine (Prog.safe_seq _ _).mpr ⟨⟨rfl, .registerHandler⟩, fun answer => ?_⟩
  cases answer with
  | error _ => exact ⟨rfl, .inl rfl⟩
  | ok _ =>
  refine (Prog.safe_seq _ _).mpr ⟨⟨rfl, .announce⟩, fun answer => ?_⟩
  cases answer with
  | error _ => exact ⟨rfl, .inr (.inl rfl)⟩
  | ok _ =>
  refine (Prog.safe_seq _ _).mpr ⟨⟨rfl, .loadConfig⟩, fun answer => ?_⟩
  cases answer with
  | error _ => exact publishLast_safe .fail fun _ => rfl
  | ok config =>
  refine (Prog.safe_pure (Except.ok config)).mpr ?_
  dsimp only
  cases validateConfiguredServiceIdentity config.serviceName eventSource with
  | error _ => exact publishLast_safe .fail fun _ => rfl
  | ok _ =>
  refine (Prog.safe_seq _ _).mpr ⟨⟨rfl, .nativeWorker⟩, fun answer => ?_⟩
  cases answer with
  | error _ => exact publishLast_safe .fail fun _ => rfl
  | ok _ =>
  refine (Prog.safe_seq _ _).mpr ((runWithStatus_safe fuel config.shutdownTimeout).mono ?_)
  rintro (_ | _ | ⟨⟨⟩⟩) ⟨call, host, work⟩ hends
  · exact hends
  · obtain ⟨hidle, hhost⟩ := hends
    cases hidle
    refine (Prog.safe_seq _ _).mpr ?_
    rcases hhost with hhost | ⟨s, hhost⟩ <;> cases hhost
    · refine safe_isCancelled ⟨.isCancelled, .check⟩ fun cancelled => ?_
      cases cancelled with
      | true => exact publishLast_safe .failQuiet fun _ => rfl
      | false => exact publishLast_safe .fail fun _ => rfl
    · refine safe_isCancelled ⟨.isCancelled, .checkEnd s false⟩ fun cancelled => ?_
      exact publishLast_safe (.close (some s) false cancelled) fun _ => rfl
  · obtain ⟨hidle, hhost⟩ := hends
    cases hidle
    refine (Prog.safe_seq _ _).mpr ?_
    rcases hhost with hhost | ⟨s, hhost⟩ <;> cases hhost
    · refine safe_isCancelled ⟨.isCancelled, .checkQuiet⟩ fun cancelled => ?_
      cases cancelled with
      | true => exact publishLast_safe (.close none true true) fun _ => rfl
      | false => exact publishLast_safe (.close none true false) fun _ => rfl
    · refine safe_isCancelled ⟨.isCancelled, .checkEnd s true⟩ fun cancelled => ?_
      cases cancelled with
      | true => exact publishLast_safe (.close (some s) true true) fun _ => rfl
      | false => exact publishLast_safe (.close (some s) true false) fun _ => rfl

end VirtioMem.Guest
