import Mathlib.Logic.Basic

/-!
# Programs with effects, their runs, and safety automata

A small library for reasoning about sequential code that talks to an outside world it does not
control: it asks (reads a clock, a file, a device), it tells (writes a file, sends a command), and
the world answers as it likes.

* `Prog` is the code itself, an ordinary program tree: a value, or one operation together with how
  the program goes on for *every* answer.
* `Prog.Runs` says which sequences of (operation, answer) pairs a program may produce. A run may be
  **cut** after any event, which is what a crash is: nothing after the cut has happened, everything
  before it has.
* `Monitor` is a safety automaton over those events, and `Prog.Safe` says that a program never sends
  an operation the automaton forbids, whatever it is answered. It is the weakest precondition of the
  program with the automaton as its world; because the automaton is consulted at every operation,
  `Safe` speaks about all the cut runs and not only about the finished ones (`Prog.Safe.accepts`).
* `Action` puts a mutable state and an error exit around `Prog`. The rules named `wp_…` run such a
  program symbolically, one statement at a time.

Nothing here knows what the operations are.
-/

namespace VirtioMem.Effect

variable {Op Op' : Type} {Ans : Op → Type} {Ans' : Op' → Type} {α β : Type}

/-- A program over the operations `Op`, where `op` is answered by some `Ans op`. -/
inductive Prog (Op : Type) (Ans : Op → Type) (α : Type) : Type where
  | pure (value : α)
  | perform (op : Op) (resume : Ans op → Prog Op Ans α)

/-- One operation of a run together with the answer it got. -/
abbrev Event (Ans : Op → Type) : Type := (op : Op) × Ans op

namespace Prog

/-- Sequencing: graft `next` onto every leaf. -/
def bind : Prog Op Ans α → (α → Prog Op Ans β) → Prog Op Ans β
  | .pure value, next => next value
  | .perform op resume, next => .perform op fun answer => (resume answer).bind next

instance : Monad (Prog Op Ans) where
  pure := .pure
  bind := .bind

/-- The same program over a larger signature: `send` renames an operation and `receive` reads its
answer back. -/
def embed (send : Op → Op') (receive : (op : Op) → Ans' (send op) → Ans op) :
    Prog Op Ans α → Prog Op' Ans' α
  | .pure value => .pure value
  | .perform op resume =>
      .perform (send op) fun answer => (resume (receive op answer)).embed send receive

/-- The same program over other operations: `handler` carries out every operation of `p` by a program
of its own. -/
def interpret (handler : (op : Op) → Prog Op' Ans' (Ans op)) : Prog Op Ans α → Prog Op' Ans' α
  | .pure value => .pure value
  | .perform op resume => (handler op).bind fun answer => (resume answer).interpret handler

/-- `p.Runs events result`: answering the operations of `p` as in `events` brings it to `result`, or
leaves it unfinished when the result is `none`. -/
inductive Runs : Prog Op Ans α → List (Event Ans) → Option α → Prop
  | done (value : α) : Runs (.pure value) [] (some value)
  | cut (program : Prog Op Ans α) : Runs program [] none
  | step {op : Op} {resume : Ans op → Prog Op Ans α} {answer : Ans op} {events result} :
      Runs (resume answer) events result →
      Runs (.perform op resume) (⟨op, answer⟩ :: events) result

/-- Run a program against an environment that answers every operation from a world of its own. -/
def simulate {W : Type} (env : W → (op : Op) → Ans op × W) :
    Prog Op Ans α → W → List (Event Ans) × α × W
  | .pure value, w => ([], value, w)
  | .perform op resume, w =>
      let (answer, w') := env w op
      let (events, value, w'') := (resume answer).simulate env w'
      (⟨op, answer⟩ :: events, value, w'')

theorem simulate_runs {W : Type} (env : W → (op : Op) → Ans op × W) :
    ∀ (p : Prog Op Ans α) (w : W), p.Runs (p.simulate env w).1 (some (p.simulate env w).2.1)
  | .pure value, _ => .done value
  | .perform op resume, w => .step (simulate_runs env (resume (env w op).1) (env w op).2)

theorem simulate_bind {W : Type} (env : W → (op : Op) → Ans op × W) (p : Prog Op Ans α)
    (next : α → Prog Op Ans β) (w : W) :
    (p.bind next).simulate env w =
      ((p.simulate env w).1 ++ ((next (p.simulate env w).2.1).simulate env (p.simulate env w).2.2).1,
        ((next (p.simulate env w).2.1).simulate env (p.simulate env w).2.2).2) := by
  induction p generalizing w with
  | pure value => rfl
  | perform op resume ih => simp only [bind, simulate, ih, List.cons_append]

/-- What holds of everything an environment answers holds of every event. -/
theorem simulate_answers {W : Type} {env : W → (op : Op) → Ans op × W}
    {good : (op : Op) → Ans op → Prop} (henv : ∀ w op, good op (env w op).1) :
    ∀ (p : Prog Op Ans α) (w : W), ∀ event ∈ (p.simulate env w).1, good event.1 event.2
  | .pure _, _ => by simp [simulate]
  | .perform op resume, w => by
      intro event hmem
      rcases List.mem_cons.mp hmem with rfl | hmem
      · exact henv w op
      · exact simulate_answers henv (resume (env w op).1) (env w op).2 event hmem

/-- A run may be cut after any event. -/
theorem Runs.take {p : Prog Op Ans α} {events result} (h : p.Runs events result) (k : Nat) :
    p.Runs (events.take k) none := by
  induction h generalizing k with
  | done value => simpa using Runs.cut _
  | cut program => simpa using Runs.cut _
  | step _ ih =>
      cases k with
      | zero => exact .cut _
      | succ k => exact .step (ih k)

/-! ## Runs of a sequence -/

/-- A run of `p` and then `next` is a run of `p` that was cut, or a finished run of `p` followed by
one of `next`. -/
theorem Runs.bind_cases {p : Prog Op Ans α} {next : α → Prog Op Ans β} {events result}
    (h : (p.bind next).Runs events result) :
    (p.Runs events none ∧ result = none) ∨
      ∃ value first second, events = first ++ second ∧ p.Runs first (some value) ∧
        (next value).Runs second result := by
  induction p generalizing events with
  | pure value => exact .inr ⟨value, [], events, rfl, .done value, h⟩
  | perform op resume ih =>
      cases h with
      | cut => exact .inl ⟨.cut _, rfl⟩
      | @step _ _ answer events result h =>
          rcases ih answer h with ⟨hcut, rfl⟩ | ⟨value, first, second, rfl, hfirst, hsecond⟩
          · exact .inl ⟨.step hcut, rfl⟩
          · exact .inr ⟨value, ⟨op, answer⟩ :: first, second, rfl, .step hfirst, hsecond⟩

/-- A run of a renamed program, with its events read back, is a run of the program. -/
theorem Runs.of_embed {send : Op → Op'} {receive : (op : Op) → Ans' (send op) → Ans op}
    (project : Event Ans' → Option (Event Ans))
    (hproject : ∀ op answer, project ⟨send op, answer⟩ = some ⟨op, receive op answer⟩)
    {p : Prog Op Ans α} {events result} (h : (p.embed send receive).Runs events result) :
    p.Runs (events.filterMap project) result ∧
      ∀ event ∈ events, ∃ op answer, event = ⟨send op, answer⟩ := by
  induction p generalizing events with
  | pure value =>
      cases h with
      | done => exact ⟨.done value, by simp⟩
      | cut => exact ⟨.cut _, by simp⟩
  | perform op resume ih =>
      cases h with
      | cut => exact ⟨.cut _, by simp⟩
      | @step _ _ answer events result h =>
          obtain ⟨hruns, hsent⟩ := ih (receive op answer) h
          rw [List.filterMap_cons_some (hproject op answer)]
          refine ⟨.step hruns, fun event hmem => ?_⟩
          rcases List.mem_cons.mp hmem with rfl | hmem
          · exact ⟨op, answer, rfl⟩
          · exact hsent event hmem

end Prog

/-! ## Safety automata -/

/-- A safety automaton: which operations a program may send from a state, and where an answered
operation leads. The answers are not restricted; a law of the environment is a separate predicate on
events. -/
structure Monitor (W : Type) (Op : Type) (Ans : Op → Type) where
  may : W → Op → Prop
  next : W → (op : Op) → Ans op → W

namespace Monitor

variable {W W' : Type} (M : Monitor W Op Ans)

/-- Every operation of the sequence was allowed where it was sent. -/
def Accepts : W → List (Event Ans) → Prop
  | _, [] => True
  | w, ⟨op, answer⟩ :: events => M.may w op ∧ Accepts (M.next w op answer) events

/-- Where a sequence of events leads. -/
def after (w : W) (events : List (Event Ans)) : W :=
  events.foldl (fun w event => M.next w event.1 event.2) w

@[simp] theorem after_nil (w : W) : M.after w [] = w := rfl

@[simp] theorem after_cons (w : W) (event : Event Ans) (events : List (Event Ans)) :
    M.after w (event :: events) = M.after (M.next w event.1 event.2) events := rfl

@[simp] theorem accepts_nil (w : W) : M.Accepts w [] := trivial

theorem accepts_append (w : W) (first second : List (Event Ans)) :
    M.Accepts w (first ++ second) ↔ M.Accepts w first ∧ M.Accepts (M.after w first) second := by
  induction first generalizing w with
  | nil => simp
  | cons event first ih => simp [Accepts, ih, and_assoc]

/-- What both automata allow, where `f` reads the first one's world from the second one's. -/
def along (f : W' → W) (M' : Monitor W' Op Ans) : Monitor W' Op Ans where
  may w op := M.may (f w) op ∧ M'.may w op
  next := M'.next

end Monitor

namespace Prog

variable {W W' : Type} {M : Monitor W Op Ans} {M' : Monitor W' Op Ans}

/-- `p` sends only what `M` allows, whatever it is answered, and ends in `Q`. -/
def Safe (M : Monitor W Op Ans) : Prog Op Ans α → (α → W → Prop) → W → Prop
  | .pure value, Q, w => Q value w
  | .perform op resume, Q, w =>
      M.may w op ∧ ∀ answer, (resume answer).Safe M Q (M.next w op answer)

/-- **Soundness.** Every run of a safe program, finished or cut, is accepted, and a finished one
ends in the postcondition. -/
theorem Safe.accepts {p : Prog Op Ans α} {Q : α → W → Prop} {w : W} {events result}
    (h : p.Safe M Q w) (hr : p.Runs events result) :
    M.Accepts w events ∧ ∀ value, result = some value → Q value (M.after w events) := by
  induction hr generalizing w with
  | done value => exact ⟨trivial, by rintro _ ⟨⟩; exact h⟩
  | cut => exact ⟨trivial, nofun⟩
  | step _ ih =>
      obtain ⟨hacc, hpost⟩ := ih (h.2 _)
      exact ⟨⟨h.1, hacc⟩, hpost⟩

theorem Safe.mono {p : Prog Op Ans α} {Q Q' : α → W → Prop} {w : W}
    (h : p.Safe M Q w) (hQ : ∀ value w, Q value w → Q' value w) : p.Safe M Q' w := by
  induction p generalizing w with
  | pure value => exact hQ _ _ h
  | perform op resume ih => exact ⟨h.1, fun answer => ih answer (h.2 answer)⟩

/-- **Two automata at once.** What is safe for either is safe for both, where the second one's world
holds the first one's. -/
theorem Safe.along {f : W' → W} (hf : ∀ w op answer, f (M'.next w op answer) = M.next (f w) op answer)
    {p : Prog Op Ans α} {Q : α → W → Prop} {Q' : α → W' → Prop} {w : W'}
    (h : p.Safe M Q (f w)) (h' : p.Safe M' Q' w) :
    p.Safe (M.along f M') (fun value w => Q value (f w) ∧ Q' value w) w := by
  induction p generalizing w with
  | pure value => exact ⟨h, h'⟩
  | perform op resume ih =>
      exact ⟨⟨h.1, h'.1⟩, fun answer => ih answer (hf w op answer ▸ h.2 answer) (h'.2 answer)⟩

theorem safe_bind {p : Prog Op Ans α} {next : α → Prog Op Ans β} {Q : β → W → Prop} {w : W} :
    (p.bind next).Safe M Q w ↔ p.Safe M (fun value w => (next value).Safe M Q w) w := by
  induction p generalizing w with
  | pure value => exact Iff.rfl
  | perform op resume ih =>
      exact and_congr_right fun _ => forall_congr' fun answer => ih answer

/-- **Simulation between automata.** If `R` is kept by every step the first automaton allows, and
lets through only what the second allows, then what is safe for the first is safe for the second. -/
theorem Safe.transport {p : Prog Op Ans α} {Q : α → W → Prop} (R : W → W' → Prop)
    (hmay : ∀ w w' op, R w w' → M.may w op → M'.may w' op)
    (hnext : ∀ w w' op answer, R w w' → M.may w op →
      R (M.next w op answer) (M'.next w' op answer))
    {w : W} {w' : W'} (h : p.Safe M Q w) (hR : R w w') :
    p.Safe M' (fun value w' => ∃ w, R w w' ∧ Q value w) w' := by
  induction p generalizing w w' with
  | pure value => exact ⟨w, hR, h⟩
  | perform op resume ih =>
      exact ⟨hmay w w' op hR h.1,
        fun answer => ih answer (h.2 answer) (hnext w w' op answer hR h.1)⟩

/-- The same along a renaming of the operations. -/
theorem Safe.embed {send : Op → Op'} {receive : (op : Op) → Ans' (send op) → Ans op}
    {M' : Monitor W' Op' Ans'} {p : Prog Op Ans α} {Q : α → W → Prop} (R : W → W' → Prop)
    (hmay : ∀ w w' op, R w w' → M.may w op → M'.may w' (send op))
    (hnext : ∀ w w' op answer, R w w' → M.may w op →
      R (M.next w op (receive op answer)) (M'.next w' (send op) answer))
    {w : W} {w' : W'} (h : p.Safe M Q w) (hR : R w w') :
    (p.embed send receive).Safe M' (fun value w' => ∃ w, R w w' ∧ Q value w) w' := by
  induction p generalizing w w' with
  | pure value => exact ⟨w, hR, h⟩
  | perform op resume ih =>
      exact ⟨hmay w w' op hR h.1,
        fun answer => ih _ (h.2 _) (hnext w w' op answer hR h.1)⟩

/-- **Refinement.** Where the handler of every operation is safe for the second automaton and does what
the first one has for that operation, the program carried out by the handlers is safe. -/
theorem Safe.interpret {handler : (op : Op) → Prog Op' Ans' (Ans op)}
    {M' : Monitor W' Op' Ans'} {p : Prog Op Ans α} {Q : α → W → Prop} (R : W → W' → Prop)
    (hhandler : ∀ w w' op, R w w' → M.may w op →
      (handler op).Safe M' (fun answer w' => R (M.next w op answer) w') w')
    {w : W} {w' : W'} (h : p.Safe M Q w) (hR : R w w') :
    (p.interpret handler).Safe M' (fun value w' => ∃ w, R w w' ∧ Q value w) w' := by
  induction p generalizing w w' with
  | pure value => exact ⟨w, hR, h⟩
  | perform op resume ih =>
      refine safe_bind.mpr ((hhandler w w' op hR h.1).mono ?_)
      exact fun answer _ hnext => ih answer (h.2 answer) hnext

end Prog

/-! ## State and error exits -/

/-- A program with a mutable state `σ` and an error exit `ε`. The state survives the exit, as it does
behind a `&mut self`. -/
def Action (Op : Type) (Ans : Op → Type) (σ ε α : Type) : Type :=
  σ → Prog Op Ans (Except ε α × σ)

namespace Action

variable {σ ε : Type} {W : Type}

instance : Monad (Action Op Ans σ ε) where
  pure value := fun s => .pure (.ok value, s)
  bind action next := fun s => (action s).bind fun
    | (.ok value, s) => next value s
    | (.error error, s) => .pure (.error error, s)

instance : MonadStateOf σ (Action Op Ans σ ε) where
  get := fun s => .pure (.ok s, s)
  set s := fun _ => .pure (.ok ⟨⟩, s)
  modifyGet f := fun s => .pure (.ok (f s).1, (f s).2)

/-- Leave with an error, as `?` does. -/
def throw (error : ε) : Action Op Ans σ ε α := fun s => .pure (.error error, s)

/-- Go on with the value, or leave with the error. -/
def ofExcept : Except ε α → Action Op Ans σ ε α
  | .ok value => pure value
  | .error error => throw error

/-- Send one operation. -/
def perform (op : Op) : Action Op Ans σ ε (Ans op) :=
  fun s => .perform op fun answer => .pure (.ok answer, s)

/-- The weakest precondition of an action: `Q` if it returns, `E` if it leaves with an error. -/
def wp (M : Monitor W Op Ans) (action : Action Op Ans σ ε α) (Q : α → σ → W → Prop)
    (E : ε → σ → W → Prop) (s : σ) (w : W) : Prop :=
  (action s).Safe M (fun outcome w => match outcome with
    | (.ok value, s) => Q value s w
    | (.error error, s) => E error s w) w

variable {M : Monitor W Op Ans} {Q : α → σ → W → Prop} {E : ε → σ → W → Prop} {s : σ} {w : W}

@[simp] theorem wp_pure (value : α) :
    wp M (pure value : Action Op Ans σ ε α) Q E s w ↔ Q value s w := Iff.rfl

@[simp] theorem wp_bind (action : Action Op Ans σ ε α) (next : α → Action Op Ans σ ε β)
    {Q : β → σ → W → Prop} :
    wp M (action >>= next) Q E s w ↔
      wp M action (fun value s w => wp M (next value) Q E s w) E s w := by
  refine Prog.safe_bind.trans ⟨fun h => h.mono ?_, fun h => h.mono ?_⟩ <;>
  · rintro ⟨_ | _, _⟩ w h <;> exact h

@[simp] theorem wp_get {Q : σ → σ → W → Prop} :
    wp M (get : Action Op Ans σ ε σ) Q E s w ↔ Q s s w := Iff.rfl

@[simp] theorem wp_set (s' : σ) {Q : PUnit → σ → W → Prop} :
    wp M (set s' : Action Op Ans σ ε PUnit) Q E s w ↔ Q ⟨⟩ s' w := Iff.rfl

@[simp] theorem wp_modify (f : σ → σ) {Q : PUnit → σ → W → Prop} :
    wp M (modify f : Action Op Ans σ ε PUnit) Q E s w ↔ Q ⟨⟩ (f s) w := Iff.rfl

@[simp] theorem wp_throw (error : ε) :
    wp M (throw error : Action Op Ans σ ε α) Q E s w ↔ E error s w := Iff.rfl

@[simp] theorem wp_perform (op : Op) {Q : Ans op → σ → W → Prop} :
    wp M (perform op : Action Op Ans σ ε (Ans op)) Q E s w ↔
      M.may w op ∧ ∀ answer, Q answer s (M.next w op answer) := Iff.rfl

@[simp] theorem wp_ofExcept (answer : Except ε α) :
    wp M (ofExcept answer : Action Op Ans σ ε α) Q E s w ↔
      (∀ value, answer = .ok value → Q value s w) ∧
        ∀ error, answer = .error error → E error s w := by
  cases answer <;> simp [ofExcept]

theorem wp_ite (c : Prop) [Decidable c] (t e : Action Op Ans σ ε α) :
    wp M (if c then t else e) Q E s w ↔ (c → wp M t Q E s w) ∧ (¬c → wp M e Q E s w) := by
  split <;> simp_all

/-- A finished run of a sequence is one that left with an error before `next`, or one that went on. -/
theorem runs_bind {action : Action Op Ans σ ε α} {next : α → Action Op Ans σ ε β} {s : σ}
    {events : List (Event Ans)} {outcome : Except ε β × σ}
    (h : ((action >>= next) s).Runs events (some outcome)) :
    (∃ error s', (action s).Runs events (some (.error error, s')) ∧ outcome = (.error error, s')) ∨
      ∃ value s' first second, events = first ++ second ∧
        (action s).Runs first (some (.ok value, s')) ∧ (next value s').Runs second (some outcome) := by
  rcases Prog.Runs.bind_cases h with ⟨-, hcut⟩ | ⟨⟨answer, s'⟩, first, second, rfl, hfirst, hsecond⟩
  · cases hcut
  · cases answer with
    | ok value => exact .inr ⟨value, s', first, second, rfl, hfirst, hsecond⟩
    | error error =>
        cases hsecond
        rw [List.append_nil]
        exact .inl ⟨error, s', hfirst, rfl⟩

theorem runs_perform {op : Op} {s : σ} {events : List (Event Ans)} {outcome : Except ε (Ans op) × σ}
    (h : (perform op s : Prog Op Ans (Except ε (Ans op) × σ)).Runs events (some outcome)) :
    ∃ answer, events = [⟨op, answer⟩] ∧ outcome = (.ok answer, s) := by
  cases h with
  | @step _ _ answer events _ h =>
      cases h
      exact ⟨answer, rfl, rfl⟩

/-- The consequence rule. -/
theorem wp_mono {action : Action Op Ans σ ε α} {Q' : α → σ → W → Prop} {E' : ε → σ → W → Prop}
    (h : wp M action Q E s w) (hQ : ∀ value s w, Q value s w → Q' value s w)
    (hE : ∀ error s w, E error s w → E' error s w) : wp M action Q' E' s w := by
  refine Prog.Safe.mono h ?_
  rintro ⟨_ | _, _⟩ w h
  · exact hE _ _ _ h
  · exact hQ _ _ _ h

end Action

end VirtioMem.Effect
