import VirtioMem.Lib.Threads
import Mathlib.Algebra.BigOperators.Group.Finset.Basic
import Mathlib.Data.Fintype.BigOperators

/-!
# The stop signal

A flag behind a lock, a condition variable on it, a list of callbacks behind a lock of its own, and an
event of the system. Any number of threads cancel it, register callbacks, ask and wait.

The calls are programs over the steps below. Between two steps of a thread the others run: a canceller
that has set the flag has not yet woken anyone, and a thread that has seen the flag unset may register
its callback after it was set. `StopInv` says why nothing gets lost in between: whoever set the flag is
still on its way to whatever is left to be done. `stopSignal_delivers` is what a user of the signal can
count on.
-/

namespace VirtioMem.Guest

open VirtioMem.Effect

variable {ι C : Type}

/-- What the lock of the callbacks is taken for. -/
inductive LockSite (C : Type) where
  | register (callback : C)
  | drain

/-- One step on the shared state. -/
inductive StopOp (C : Type) where
  | isCancelled
  | setCancelled
  | notifyAll
  | lockCallbacks (site : LockSite C)
  | unlockCallbacks
  | pushCallback (callback : C)
  | drainCallbacks
  | call (callback : C)
  | setEvent
  /-- Go to sleep on the condition variable, unless the flag is set. -/
  | sleep
  /-- Wake up, notified or after the timeout. -/
  | awake

abbrev StopAns {C : Type} : StopOp C → Type
  | .isCancelled => Bool
  | .drainCallbacks => List C
  | .sleep => Bool
  | _ => Unit

abbrev StopProg (C α : Type) : Type := Prog (StopOp C) StopAns α

/-! ## The calls -/

namespace StopSignal

/-- One step of a thread. -/
def step (op : StopOp C) : StopProg C (StopAns op) := Prog.ask op

def callAll : List C → StopProg C Unit
  | [] => pure ()
  | callback :: callbacks => do
    step (.call callback)
    callAll callbacks

def cancel : StopProg C Unit := do
  step .setCancelled
  step .notifyAll
  step (.lockCallbacks .drain)
  -- The guard lives to the end of the loop: the callbacks run under the lock.
  let callbacks ← step .drainCallbacks
  callAll callbacks
  step .unlockCallbacks
  step .setEvent

/-- Run `callback` once when cancelled, or now if already cancelled. -/
def onCancel (callback : C) : StopProg C Unit := do
  step (.lockCallbacks (.register callback))
  if ← step .isCancelled then
    step .unlockCallbacks
    step (.call callback)
  else
    step (.pushCallback callback)
    step .unlockCallbacks

def isCancelled : StopProg C Bool := step .isCancelled

/-- Sleep for some time or until cancelled, whichever comes first. -/
def wait : StopProg C Unit := do
  if ← step .sleep then
    step .awake

end StopSignal

/-- A call of a user. -/
inductive StopCall (C : Type) where
  | cancel
  | onCancel (callback : C)
  | isCancelled
  | wait

abbrev CallAns {C : Type} : StopCall C → Type
  | .isCancelled => Bool
  | _ => Unit

/-- The steps of a call. -/
def StopSignal.handle : (call : StopCall C) → StopProg C (CallAns call)
  | .cancel => cancel
  | .onCancel callback => onCancel callback
  | .isCancelled => isCancelled
  | .wait => wait

/-! ## The shared state -/

/-- The shared state, with the callbacks that were registered and run so far. -/
structure StopState (ι C : Type) where
  cancelled : Bool
  onCancel : List C
  /-- Who holds the lock of the callbacks. -/
  holder : Option ι
  asleep : ι → Bool
  nativeEvent : Bool
  registered : List C
  called : List C

def StopState.new : StopState ι C where
  cancelled := false
  onCancel := []
  holder := none
  asleep := fun _ => false
  nativeEvent := false
  registered := []
  called := []

def LockSite.registers : LockSite C → List C
  | .register callback => [callback]
  | .drain => []

/-- What a step of a thread is answered, and what it leaves. The lock of the callbacks blocks. -/
def StopState.perform [DecidableEq ι] (i : ι) (s : StopState ι C) :
    (op : StopOp C) → Option (StopAns op × StopState ι C)
  | .isCancelled => some (s.cancelled, s)
  | .setCancelled => some ((), { s with cancelled := true })
  | .notifyAll => some ((), { s with asleep := fun _ => false })
  | .lockCallbacks site =>
    if s.holder.isSome then none
    else some ((), { s with holder := some i, registered := s.registered ++ site.registers })
  | .unlockCallbacks => some ((), { s with holder := none })
  | .pushCallback callback => some ((), { s with onCancel := s.onCancel ++ [callback] })
  | .drainCallbacks => some (s.onCancel, { s with onCancel := [] })
  | .call callback => some ((), { s with called := s.called ++ [callback] })
  | .setEvent => some ((), { s with nativeEvent := true })
  | .sleep =>
    if s.cancelled then some (false, s)
    else some (true, { s with asleep := Function.update s.asleep i true })
  | .awake => some ((), { s with asleep := Function.update s.asleep i false })

/-- The callback a step runs. -/
def StopOp.calls : StopOp C → List C
  | .call callback => [callback]
  | _ => []

/-- The callback a step begins to register. -/
def StopOp.registers : StopOp C → List C
  | .lockCallbacks site => site.registers
  | _ => []

theorem StopState.perform_history [DecidableEq ι] {i : ι} {s s' : StopState ι C} {op : StopOp C}
    {answer : StopAns op} (h : s.perform i op = some (answer, s')) :
    s'.called = s.called ++ op.calls ∧ s'.registered = s.registered ++ op.registers := by
  cases op <;> simp_all [StopState.perform, StopOp.calls, StopOp.registers] <;> grind

/-! ## Where a thread is -/

/-- Where a thread is in a call. -/
inductive StopPhase (C : Type) where
  | idle
  /-- The flag is set. -/
  | cancelling
  /-- The sleepers are woken. -/
  | notified
  /-- The callbacks are locked, to be drained. -/
  | draining
  /-- The callbacks still to be run, under the lock. -/
  | calling (callbacks : List C)
  | signalling
  /-- The callbacks are locked, to register one. -/
  | registering (callback : C)
  | pushing (callback : C)
  | pushed
  /-- Already cancelled. -/
  | refusing (callback : C)
  | direct (callback : C)
  | sleeping

/-- The step a thread takes next, where it is, if the callbacks it registers are its own. -/
inductive StopPhase.May (own : C → Prop) : StopPhase C → StopOp C → Prop
  | cancel : May own .idle .setCancelled
  | onCancel (callback : C) (h : own callback) : May own .idle (.lockCallbacks (.register callback))
  | isCancelled : May own .idle .isCancelled
  | wait : May own .idle .sleep
  | notifyAll : May own .cancelling .notifyAll
  | lock : May own .notified (.lockCallbacks .drain)
  | drain : May own .draining .drainCallbacks
  | call (callback : C) (callbacks : List C) :
      May own (.calling (callback :: callbacks)) (.call callback)
  | unlock : May own (.calling []) .unlockCallbacks
  | setEvent : May own .signalling .setEvent
  | check (callback : C) : May own (.registering callback) .isCancelled
  | push (callback : C) : May own (.pushing callback) (.pushCallback callback)
  | release : May own .pushed .unlockCallbacks
  | refuse (callback : C) : May own (.refusing callback) .unlockCallbacks
  | now (callback : C) : May own (.direct callback) (.call callback)
  | awake : May own .sleeping .awake

/-- Where the step leads. -/
def StopPhase.next : StopPhase C → (op : StopOp C) → StopAns op → StopPhase C
  | .idle, .setCancelled, _ => .cancelling
  | .idle, .lockCallbacks (.register callback), _ => .registering callback
  | .idle, .sleep, slept => if slept = true then .sleeping else .idle
  | .cancelling, .notifyAll, _ => .notified
  | .notified, .lockCallbacks .drain, _ => .draining
  | .draining, .drainCallbacks, callbacks => .calling callbacks
  | .calling (_ :: callbacks), .call _, _ => .calling callbacks
  | .calling [], .unlockCallbacks, _ => .signalling
  | .registering callback, .isCancelled, cancelled =>
    if cancelled = true then .refusing callback else .pushing callback
  | .pushing _, .pushCallback _, _ => .pushed
  | .refusing callback, .unlockCallbacks, _ => .direct callback
  | _, _, _ => .idle

theorem StopPhase.May.registers {own : C → Prop} {phase : StopPhase C} {callback : C}
    (h : phase.May own (.lockCallbacks (.register callback))) : own callback := by
  cases h with
  | onCancel _ hown => exact hown

def stopMonitor (own : C → Prop) : Monitor (StopPhase C) (StopOp C) StopAns where
  may := StopPhase.May own
  next := StopPhase.next

/-! ## What the calls do -/

section Calls

variable {own : C → Prop}

theorem callAll_safe {Q : Unit → StopPhase C → Prop} (callbacks : List C) (h : Q () (.calling [])) :
    (StopSignal.callAll callbacks).Safe (stopMonitor own) Q (.calling callbacks) := by
  induction callbacks with
  | nil => exact h
  | cons callback callbacks ih =>
      simp only [StopSignal.callAll, StopSignal.step, Prog.safe_seq, Prog.safe_ask]
      exact ⟨.call callback callbacks, fun _ => ih⟩

theorem cancel_safe : StopSignal.cancel.Safe (stopMonitor own) (fun _ => (· = .idle)) .idle := by
  simp only [StopSignal.cancel, StopSignal.step, Prog.safe_seq, Prog.safe_ask]
  refine ⟨.cancel, fun _ => ⟨.notifyAll, fun _ => ⟨.lock, fun _ => ⟨.drain, fun callbacks => ?_⟩⟩⟩⟩
  exact callAll_safe callbacks ⟨.unlock, fun _ => ⟨.setEvent, fun _ => rfl⟩⟩

theorem onCancel_safe {callback : C} (hown : own callback) :
    (StopSignal.onCancel callback).Safe (stopMonitor own) (fun _ => (· = .idle)) .idle := by
  simp only [StopSignal.onCancel, StopSignal.step, Prog.safe_seq, Prog.safe_ask]
  refine ⟨.onCancel callback hown, fun _ => ⟨.check callback, fun cancelled => ?_⟩⟩
  cases cancelled with
  | true => exact ⟨.refuse callback, fun _ => ⟨.now callback, fun _ => rfl⟩⟩
  | false => exact ⟨.push callback, fun _ => ⟨.release, fun _ => rfl⟩⟩

theorem isCancelled_safe :
    StopSignal.isCancelled.Safe (stopMonitor own) (fun _ => (· = .idle)) .idle :=
  (Prog.safe_ask _).mpr ⟨.isCancelled, fun _ => rfl⟩

theorem wait_safe : StopSignal.wait.Safe (stopMonitor own) (fun _ => (· = .idle)) .idle := by
  simp only [StopSignal.wait, StopSignal.step, Prog.safe_seq, Prog.safe_ask]
  refine ⟨.wait, fun slept => ?_⟩
  cases slept with
  | true => exact ⟨.awake, fun _ => rfl⟩
  | false => exact rfl

end Calls

/-! ## Nothing is lost in between -/

/-- Whether the thread holds the lock of the callbacks. -/
def StopPhase.holds : StopPhase C → Bool
  | .draining | .calling _ | .registering _ | .pushing _ | .pushed | .refusing _ => true
  | _ => false

/-- The callbacks the thread has taken, to run or to register. -/
def StopPhase.inHand : StopPhase C → List C
  | .calling callbacks => callbacks
  | .registering callback | .pushing callback | .refusing callback | .direct callback => [callback]
  | _ => []

/-- Whether the thread knows that the flag is set. -/
def StopPhase.knows : StopPhase C → Bool
  | .cancelling | .notified | .draining | .calling _ | .signalling | .refusing _ | .direct _ => true
  | _ => false

/-- Whether the thread will drain the callbacks. -/
def StopPhase.willDrain : StopPhase C → Bool
  | .cancelling | .notified | .draining => true
  | _ => false

/-- Whether the thread will set the event. -/
def StopPhase.willSignal : StopPhase C → Bool
  | .cancelling | .notified | .draining | .calling _ | .signalling => true
  | _ => false

/-- How the threads and the shared state fit together. -/
structure StopInv [Fintype ι] [DecidableEq C] (l : ι → StopPhase C) (s : StopState ι C) : Prop where
  mutex : ∀ i, (l i).holds = true ↔ s.holder = some i
  /-- A registered callback was run, waits to be, or is in the hands of one thread. -/
  counts : ∀ callback, s.called.count callback + s.onCancel.count callback +
    ∑ i, (l i).inHand.count callback = s.registered.count callback
  knows : ∀ i, (l i).knows = true → s.cancelled = true
  called : s.called ≠ [] → s.cancelled = true
  drained : s.cancelled = true → (s.onCancel ≠ [] ∨ ∃ i callback, l i = .pushing callback) →
    ∃ i, (l i).willDrain = true
  awake : s.cancelled = true → ∀ i, s.asleep i = true → ∃ j, l j = .cancelling
  event : s.cancelled = true → s.nativeEvent = false → ∃ i, (l i).willSignal = true

section Invariant

variable [DecidableEq ι] {l : ι → StopPhase C} {s s' : StopState ι C} {i : ι} {op : StopOp C}
  {answer : StopAns op} {phase : StopPhase C} {own : C → Prop}

/-- The flag is never taken back. -/
theorem StopState.perform_flag (h : s.perform i op = some (answer, s')) (hflag : s.cancelled = true) :
    s'.cancelled = true := by
  cases op <;> simp_all [StopState.perform] <;> grind

/-- A thread that sets the flag is on its way. -/
theorem sets_flag (hmay : (l i).May own .setCancelled) :
    Function.update l i ((l i).next .setCancelled ()) i = .cancelling := by
  rw [Function.update_self]
  generalize l i = phase at hmay
  cases hmay
  rfl

variable [Fintype ι] [DecidableEq C]

omit [DecidableEq ι] in
theorem stopInv_new : StopInv (fun _ : ι => (.idle : StopPhase C)) .new where
  mutex i := by simp [StopPhase.holds, StopState.new]
  counts callback := by simp [StopPhase.inHand, StopState.new]
  knows i := by simp [StopPhase.knows]
  called h := absurd rfl h
  drained := by simp [StopState.new]
  awake := by simp [StopState.new]
  event := by simp [StopState.new]

/-- What is in the threads' hands, where one of them goes on. -/
theorem sum_update (callback : C) :
    ∑ j, (Function.update l i phase j).inHand.count callback + (l i).inHand.count callback =
      ∑ j, (l j).inHand.count callback + phase.inHand.count callback := by
  have hupdate : (fun j => (Function.update l i phase j).inHand.count callback) =
      Function.update (fun j => (l j).inHand.count callback) i (phase.inHand.count callback) := by
    funext j
    by_cases hj : j = i
    · subst hj
      simp
    · simp [hj]
  have hrest := Finset.add_sum_erase Finset.univ (fun j => (l j).inHand.count callback)
    (Finset.mem_univ i)
  rw [hupdate, Finset.sum_update_of_mem (Finset.mem_univ i), ← Finset.erase_eq, ← hrest]
  omega

theorem StopInv.mutex_step (h : StopInv l s) (hmay : (l i).May own op)
    (hanswers : s.perform i op = some (answer, s')) (j : ι) :
    (Function.update l i ((l i).next op answer) j).holds = true ↔ s'.holder = some j := by
  have hi := h.mutex i
  have hj := h.mutex j
  generalize l i = phase at hmay hi ⊢
  by_cases hne : j = i
  · subst hne
    rw [Function.update_self]
    cases hmay <;> simp_all [StopState.perform, StopPhase.next, StopPhase.holds] <;> grind
  · rw [Function.update_of_ne hne, hj]
    cases hmay <;> simp_all [StopState.perform, StopPhase.holds] <;> grind

theorem StopInv.counts_step (h : StopInv l s) (hmay : (l i).May own op)
    (hanswers : s.perform i op = some (answer, s')) (callback : C) :
    s'.called.count callback + s'.onCancel.count callback +
      ∑ j, (Function.update l i ((l i).next op answer) j).inHand.count callback =
        s'.registered.count callback := by
  have hbefore := h.counts callback
  -- What the other threads have in hand stays there.
  have hmoved : ∑ j, (Function.update l i ((l i).next op answer) j).inHand.count callback +
      (l i).inHand.count callback = ∑ j, (l j).inHand.count callback +
        ((l i).next op answer).inHand.count callback := sum_update callback
  generalize l i = phase at hmay hmoved ⊢
  generalize ∑ j, (Function.update l i _ j).inHand.count callback = after at hmoved ⊢
  cases hmay <;> simp_all [StopState.perform, StopPhase.next, StopPhase.inHand, LockSite.registers]
    <;> grind

theorem StopInv.knows_step (h : StopInv l s) (hmay : (l i).May own op)
    (hanswers : s.perform i op = some (answer, s')) (j : ι) :
    (Function.update l i ((l i).next op answer) j).knows = true → s'.cancelled = true := by
  have hi := h.knows i
  by_cases hne : j = i
  · subst hne
    rw [Function.update_self]
    generalize l j = phase at hmay hi ⊢
    cases hmay <;> simp_all [StopState.perform, StopPhase.next, StopPhase.knows] <;> grind
  · rw [Function.update_of_ne hne]
    exact fun hknows => StopState.perform_flag hanswers (h.knows j hknows)

theorem StopInv.called_step (h : StopInv l s) (hmay : (l i).May own op)
    (hanswers : s.perform i op = some (answer, s')) : s'.called ≠ [] → s'.cancelled = true := by
  have hcalled := h.called
  have hi := h.knows i
  generalize l i = phase at hmay hi
  cases hmay <;> simp_all [StopState.perform, StopPhase.knows] <;> grind

/-- Whoever set the flag goes on to drain what is left. -/
theorem StopInv.drained_step (h : StopInv l s) (hmay : (l i).May own op)
    (hanswers : s.perform i op = some (answer, s')) (hflag : s'.cancelled = true)
    (hleft : s'.onCancel ≠ [] ∨
      ∃ j callback, Function.update l i ((l i).next op answer) j = .pushing callback) :
    ∃ j, (Function.update l i ((l i).next op answer) j).willDrain = true := by
  by_cases hdrains : l i = .draining
  · -- Nobody else holds the lock, to push after the drain.
    exfalso
    have hholder := (h.mutex i).mp (by rw [hdrains]; rfl)
    rw [hdrains] at hmay hleft
    cases hmay
    obtain ⟨-, rfl⟩ := hanswers
    rcases hleft with hleft | ⟨j, callback, hpushing⟩
    · exact hleft rfl
    · by_cases hne : j = i
      · rw [hne, Function.update_self] at hpushing
        cases hpushing
      · rw [Function.update_of_ne hne] at hpushing
        have hother := (h.mutex j).mp (by rw [hpushing]; rfl)
        exact hne (Option.some.inj (hother.symm.trans hholder))
  by_cases hsets : op = .setCancelled
  · subst hsets
    exact ⟨i, by rw [sets_flag hmay]; rfl⟩
  have hbefore : s.cancelled = true ∧ (s.onCancel ≠ [] ∨ ∃ j callback, l j = .pushing callback) := by
    refine ⟨by cases op <;> (simp_all [StopState.perform] <;> grind), ?_⟩
    rcases hleft with hleft | ⟨j, callback, hpushing⟩
    · by_cases hpush : ∃ callback, l i = .pushing callback
      · obtain ⟨callback, hpush⟩ := hpush
        exact .inr ⟨i, callback, hpush⟩
      · left
        generalize l i = phase at hmay hpush
        cases hmay <;> simp_all [StopState.perform] <;> grind
    · by_cases hne : j = i
      · -- A thread that has just seen the flag unset.
        exfalso
        rw [hne, Function.update_self] at hpushing
        generalize l i = phase at hmay hpushing
        cases hmay <;> simp_all [StopState.perform, StopPhase.next] <;> grind
      · rw [Function.update_of_ne hne] at hpushing
        exact .inr ⟨j, callback, hpushing⟩
  obtain ⟨j, hj⟩ := h.drained hbefore.1 hbefore.2
  refine ⟨j, ?_⟩
  by_cases hne : j = i
  · subst hne
    rw [Function.update_self]
    generalize l j = phase at hmay hj hdrains
    cases hmay <;> simp_all [StopPhase.next, StopPhase.willDrain]
  · rwa [Function.update_of_ne hne]

/-- Whoever set the flag goes on to wake who sleeps. -/
theorem StopInv.awake_step (h : StopInv l s) (hmay : (l i).May own op)
    (hanswers : s.perform i op = some (answer, s')) (hflag : s'.cancelled = true) (j : ι)
    (hasleep : s'.asleep j = true) :
    ∃ k, Function.update l i ((l i).next op answer) k = .cancelling := by
  by_cases hsets : op = .setCancelled
  · subst hsets
    exact ⟨i, sets_flag hmay⟩
  have hbefore : s.cancelled = true ∧ s.asleep j = true ∧ op ≠ .notifyAll := by
    cases op with
    | awake =>
        cases hanswers
        refine ⟨hflag, ?_, by simp⟩
        change Function.update s.asleep i false j = true at hasleep
        by_cases hne : j = i
        · rw [hne, Function.update_self] at hasleep
          cases hasleep
        · rwa [Function.update_of_ne hne] at hasleep
    | _ => simp_all [StopState.perform] <;> grind
  obtain ⟨k, hk⟩ := h.awake hbefore.1 j hbefore.2.1
  refine ⟨k, ?_⟩
  by_cases hne : k = i
  · subst hne
    rw [hk] at hmay
    cases hmay
    exact absurd rfl hbefore.2.2
  · rwa [Function.update_of_ne hne]

theorem StopInv.event_step (h : StopInv l s) (hmay : (l i).May own op)
    (hanswers : s.perform i op = some (answer, s')) (hflag : s'.cancelled = true)
    (hevent : s'.nativeEvent = false) :
    ∃ k, (Function.update l i ((l i).next op answer) k).willSignal = true := by
  by_cases hsets : op = .setCancelled
  · subst hsets
    exact ⟨i, by rw [sets_flag hmay]; rfl⟩
  have hbefore : s.cancelled = true ∧ s.nativeEvent = false ∧ op ≠ .setEvent := by
    cases op <;> simp_all [StopState.perform] <;> grind
  obtain ⟨k, hk⟩ := h.event hbefore.1 hbefore.2.1
  refine ⟨k, ?_⟩
  by_cases hne : k = i
  · subst hne
    rw [Function.update_self]
    generalize l k = phase at hmay hk
    cases hmay <;> simp_all [StopPhase.next, StopPhase.willSignal]
  · rwa [Function.update_of_ne hne]

/-- **Every step of a call keeps the threads and the shared state together.** -/
theorem StopInv.step (h : StopInv l s) (hmay : (l i).May own op) (hanswers : s.perform i op = some (answer, s')) :
    StopInv (Function.update l i ((l i).next op answer)) s' where
  mutex := h.mutex_step hmay hanswers
  counts := h.counts_step hmay hanswers
  knows := h.knows_step hmay hanswers
  called := h.called_step hmay hanswers
  drained := h.drained_step hmay hanswers
  awake := h.awake_step hmay hanswers
  event := h.event_step hmay hanswers

omit [DecidableEq ι] in
/-- Once cancelled, a callback that did not run is in the hands of a thread, or left to one. -/
theorem StopInv.pending (h : StopInv l s) (hflag : s.cancelled = true) {callback : C}
    (hlt : s.called.count callback < s.registered.count callback) :
    ∃ i, (l i).willDrain = true ∨ callback ∈ (l i).inHand := by
  have hcounts := h.counts callback
  by_cases hleft : s.onCancel.count callback = 0
  · have hsum : ∑ i, (l i).inHand.count callback ≠ 0 := by omega
    obtain ⟨i, -, hhand⟩ := Finset.exists_ne_zero_of_sum_ne_zero hsum
    exact ⟨i, .inr (List.count_pos_iff.mp (Nat.pos_of_ne_zero hhand))⟩
  · have hsome : s.onCancel ≠ [] := by
      rintro hnil
      rw [hnil] at hleft
      exact hleft rfl
    obtain ⟨i, hi⟩ := h.drained hflag (.inl hsome)
    exact ⟨i, .inl hi⟩

omit [Fintype ι] [DecidableEq C] in
/-- Only the lock blocks. -/
theorem perform_blocked (h : ¬(s.perform i op).isSome = true) : s.holder.isSome = true := by
  cases op with
  | lockCallbacks site =>
      by_contra hfree
      simp [StopState.perform, hfree] at h
  | sleep => simp only [StopState.perform] at h; split at h <;> exact absurd rfl h
  | _ => exact absurd rfl h

omit [Fintype ι] [DecidableEq C] in
/-- Who holds the lock is not blocked. -/
theorem StopPhase.May.unblocked (hmay : phase.May own op) (hholds : phase.holds = true) :
    (s.perform i op).isSome = true := by
  cases hmay <;> first | rfl | cases hholds

end Invariant

/-! ## Users -/

/-- A user of the signal is between two calls whenever it is in none. -/
theorem user_safe {β : Type} (p : Prog (StopCall C) CallAns β) :
    (p.interpret StopSignal.handle).Safe (stopMonitor fun _ => True) (fun _ => (· = .idle)) .idle := by
  have hhandle : ∀ call : StopCall C, (StopSignal.handle call).Safe (stopMonitor fun _ => True)
      (fun _ => (· = .idle)) .idle := by
    intro call
    cases call with
    | cancel => exact cancel_safe
    | onCancel callback => exact onCancel_safe trivial
    | isCancelled => exact isCancelled_safe
    | wait => exact wait_safe
  induction p with
  | pure value => exact rfl
  | perform call resume ih =>
      refine Prog.safe_bind.mpr ((hhandle call).mono fun answer phase hidle => ?_)
      rw [hidle]
      exact ih answer

/-- A thread in the middle of a call asks for the next step of it. -/
theorem asks_of_phase {β : Type} {p : StopProg C β} {phase : StopPhase C}
    {own : C → Prop} (h : p.Safe (stopMonitor own) (fun _ => (· = .idle)) phase)
    (hphase : phase ≠ .idle) : ∃ op, p.Asks op ∧ phase.May own op := by
  rcases h.asks with ⟨value, -, hidle⟩ | hasks
  · exact absurd hidle hphase
  · exact hasks

/-- The steps of a cancellation after the flag is set. -/
def StopOp.delivers : StopOp C → Bool
  | .notifyAll | .lockCallbacks .drain | .drainCallbacks | .call _ | .unlockCallbacks | .setEvent => true
  | _ => false

section Users

variable [Fintype ι] [DecidableEq ι] [DecidableEq C] {α : ι → Type}
  {users : (i : ι) → Prog (StopCall C) CallAns (α i)} {programs : (i : ι) → StopProg C (α i)}
  {s : StopState ι C}

/-- The shared state, as the threads act on it. -/
def signalMachine : Machine ι (StopState ι C) (StopOp C) StopAns :=
  fun i s op answer s' => s.perform i op = some (answer, s')

/-- **A stop is not missed.** Whatever any number of threads call, and in whatever order they take their
steps: a callback runs at most as often as it was registered, and not before the cancellation. Once
cancelled, nobody stays asleep, no callback stays behind and the event does not stay unset: as long as
something is left to be done, a thread is at the step that does it or leads to it. And the threads do
not block each other: as long as one has not returned, one of them can take its step. -/
theorem stopSignal_delivers (h : Reaches signalMachine
      (fun i => (users i).interpret StopSignal.handle) .new programs s) :
    (∀ callback, s.called.count callback ≤ s.registered.count callback) ∧
    (s.called ≠ [] → s.cancelled = true) ∧
    (s.cancelled = true →
      (∀ callback, s.called.count callback < s.registered.count callback →
        s.holder.isSome = true ∨ ∃ i, (programs i).Asks .notifyAll ∨
          (programs i).Asks (.lockCallbacks .drain) ∨ (programs i).Asks (.call callback)) ∧
      (∀ i, s.asleep i = true → ∃ j, (programs j).Asks .notifyAll) ∧
      (s.nativeEvent = false → ∃ i op, (programs i).Asks op ∧ op.delivers = true)) ∧
    ((∃ i, (programs i).value = none) →
      ∃ i op outcome, (programs i).Asks op ∧ s.perform i op = some outcome) := by
  obtain ⟨l, hinv, hsafe⟩ := h.invariant (M := fun _ => stopMonitor fun _ => True)
    (Q := fun _ _ => (· = .idle)) StopInv (fun i => user_safe (users i)) stopInv_new
    fun l s i op answer s' hinv hmay hanswers => hinv.step hmay hanswers
  have hasks : ∀ i, l i ≠ .idle → ∃ op, (programs i).Asks op ∧ (l i).May (fun _ => True) op :=
    fun i => asks_of_phase (hsafe i)
  have hdrains : ∀ i, (l i).willDrain = true → s.holder.isSome = true ∨
      (programs i).Asks .notifyAll ∨ (programs i).Asks (.lockCallbacks .drain) := by
    intro i hwill
    have hholds := hinv.mutex i
    obtain ⟨op, hop, hmay⟩ := hasks i (by rintro hidle; rw [hidle] at hwill; cases hwill)
    cases hphase : l i <;> rw [hphase] at hwill hmay hholds <;> cases hwill
    · cases hmay
      exact .inr (.inl hop)
    · cases hmay
      exact .inr (.inr hop)
    · rw [hholds.mp rfl]
      exact .inl rfl
  refine ⟨fun callback => ?_, hinv.called, fun hflag => ⟨fun callback hlt => ?_, fun i hasleep => ?_,
    fun hevent => ?_⟩, fun ⟨i, hi⟩ => ?_⟩
  · have := hinv.counts callback
    omega
  · obtain ⟨i, hdrain | hmem⟩ := hinv.pending hflag hlt
    · rcases hdrains i hdrain with hholder | hnotify | hlock
      · exact .inl hholder
      · exact .inr ⟨i, .inl hnotify⟩
      · exact .inr ⟨i, .inr (.inl hlock)⟩
    · have hholds := hinv.mutex i
      obtain ⟨op, hop, hmay⟩ := hasks i (by rintro hidle; rw [hidle] at hmem; cases hmem)
      cases hphase : l i with
      | direct other =>
          rw [hphase] at hmem hmay
          cases List.mem_singleton.mp hmem
          cases hmay
          exact .inr ⟨i, .inr (.inr hop)⟩
      | calling _ | registering _ | pushing _ | refusing _ =>
          rw [hphase] at hholds
          rw [hholds.mp rfl]
          exact .inl rfl
      | _ =>
          rw [hphase] at hmem
          cases hmem
  · obtain ⟨j, hj⟩ := hinv.awake hflag i hasleep
    obtain ⟨op, hop, hmay⟩ := hasks j (by rw [hj]; rintro ⟨⟩)
    rw [hj] at hmay
    cases hmay
    exact ⟨j, hop⟩
  · obtain ⟨i, hi⟩ := hinv.event hflag hevent
    obtain ⟨op, hop, hmay⟩ := hasks i (by rintro hidle; rw [hidle] at hi; cases hi)
    refine ⟨i, op, hop, ?_⟩
    cases hphase : l i <;> rw [hphase] at hi hmay <;> cases hi <;> cases hmay <;> rfl
  · obtain ⟨op, hop⟩ : ∃ op, (programs i).Asks op := by
      cases hprogram : programs i with
      | pure value =>
          rw [hprogram] at hi
          cases hi
      | perform op resume => exact ⟨op, resume, rfl⟩
    by_cases hblocked : (s.perform i op).isSome = true
    · obtain ⟨outcome, houtcome⟩ := Option.isSome_iff_exists.mp hblocked
      exact ⟨i, op, outcome, hop, houtcome⟩
    · -- Who holds the lock is not blocked.
      obtain ⟨j, hj⟩ := Option.isSome_iff_exists.mp (perform_blocked hblocked)
      have hholds := (hinv.mutex j).mpr hj
      obtain ⟨op, hop, hmay⟩ := hasks j (by rintro hidle; rw [hidle] at hholds; cases hholds)
      have hfree : (s.perform j op).isSome = true := hmay.unblocked hholds
      obtain ⟨outcome, houtcome⟩ := Option.isSome_iff_exists.mp hfree
      exact ⟨j, op, outcome, hop, houtcome⟩

end Users

/-! One thread registers a callback while another cancels: it sees the flag unset, and registers after
it was set. -/

def racingUsers : Bool → Prog (StopCall Nat) CallAns Unit
  | true => .perform (.onCancel 0) .pure
  | false => .perform .cancel .pure

/-- Up to the canceller's lock. -/
def racing : (Bool → StopProg Nat Unit) × StopState Bool Nat :=
  schedule (fun i s op => s.perform i op) [true, true, false, false, true, true, false]
    (fun i => (racingUsers i).interpret StopSignal.handle) .new

theorem racing_delivers : racing.2.cancelled = true ∧
    racing.2.called.count 0 < racing.2.registered.count 0 ∧
    (racing.2.holder.isSome = true ∨ ∃ i, (racing.1 i).Asks .notifyAll ∨
      (racing.1 i).Asks (.lockCallbacks .drain) ∨ (racing.1 i).Asks (.call 0)) :=
  have h : Reaches signalMachine (fun i => (racingUsers i).interpret StopSignal.handle) .new racing.1
      racing.2 := schedule_reaches (fun _ _ _ _ _ h => h) _ _ _
  ⟨by decide, by decide, ((stopSignal_delivers h).2.2.1 (by decide)).1 0 (by decide)⟩

end VirtioMem.Guest
