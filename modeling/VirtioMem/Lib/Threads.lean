import VirtioMem.Lib.Effect
import Mathlib.Logic.Function.Basic

/-!
# Threads

Several programs over one world, each taking a step when it is scheduled. A `Machine` says what an
operation of a thread may be answered and what it does to the world; an operation that blocks has no
answer where it blocks.

Every thread has a safety automaton of its own. `Reaches.invariant` is the rule for what all of them
keep together: an invariant between where the automata stand and the world, kept by each step an
automaton allows, holds in every state the threads can reach, in any order of their steps.
-/

namespace VirtioMem.Effect

variable {ι W Op : Type} {Ans : Op → Type} {L α : ι → Type} {β : Type}

namespace Prog

/-- One operation and its answer. -/
def ask (op : Op) : Prog Op Ans (Ans op) := .perform op .pure

/-- The operation a program waits for the answer of. -/
def Asks (p : Prog Op Ans β) (op : Op) : Prop := ∃ resume, p = .perform op resume

/-- What the program returned. -/
def value : Prog Op Ans β → Option β
  | .pure value => some value
  | .perform _ _ => none

section Rules

variable {M : Monitor W Op Ans} {Q : β → W → Prop} {w : W}

@[simp] theorem safe_pure (value : β) :
    (pure value : Prog Op Ans β).Safe M Q w ↔ Q value w := Iff.rfl

@[simp] theorem safe_ask (op : Op) {Q : Ans op → W → Prop} :
    (ask op : Prog Op Ans (Ans op)).Safe M Q w ↔
      M.may w op ∧ ∀ answer, Q answer (M.next w op answer) := Iff.rfl

@[simp] theorem safe_seq {γ : Type} (p : Prog Op Ans β) (next : β → Prog Op Ans γ)
    {Q : γ → W → Prop} :
    (p >>= next).Safe M Q w ↔ p.Safe M (fun value w => (next value).Safe M Q w) w := safe_bind

end Rules

/-- A safe program has returned in its postcondition, or asks for what it may. -/
theorem Safe.asks {M : Monitor W Op Ans} {Q : β → W → Prop} {p : Prog Op Ans β} {w : W}
    (h : p.Safe M Q w) : (∃ value, p.value = some value ∧ Q value w) ∨ ∃ op, p.Asks op ∧ M.may w op := by
  cases p with
  | pure value => exact .inl ⟨value, rfl, h⟩
  | perform op resume => exact .inr ⟨op, ⟨resume, rfl⟩, h.1⟩

theorem Safe.may {M : Monitor W Op Ans} {Q : β → W → Prop} {p : Prog Op Ans β} {w : W} {op : Op}
    (h : p.Safe M Q w) (hasks : p.Asks op) : M.may w op := by
  obtain ⟨resume, rfl⟩ := hasks
  exact h.1

theorem Safe.returned {M : Monitor W Op Ans} {Q : β → W → Prop} {p : Prog Op Ans β} {w : W}
    {value : β} (h : p.Safe M Q w) (hvalue : p.value = some value) : Q value w := by
  cases p with
  | pure _ =>
      cases hvalue
      exact h
  | perform _ _ => cases hvalue

end Prog

/-- What a thread's operation may be answered in a world, and the world after it. -/
abbrev Machine (ι W Op : Type) (Ans : Op → Type) : Type :=
  ι → W → (op : Op) → Ans op → W → Prop

/-- The states that threads can bring each other to. -/
inductive Reaches [DecidableEq ι] (T : Machine ι W Op Ans) (programs : (i : ι) → Prog Op Ans (α i))
    (w : W) : ((i : ι) → Prog Op Ans (α i)) → W → Prop
  | refl : Reaches T programs w programs w
  | step {programs' : (i : ι) → Prog Op Ans (α i)} {w' w'' : W} (i : ι) {op : Op} {answer : Ans op}
      {resume : Ans op → Prog Op Ans (α i)} (h : Reaches T programs w programs' w')
      (hnext : programs' i = .perform op resume) (hanswers : T i w' op answer w'') :
      Reaches T programs w (Function.update programs' i (resume answer)) w''

/-- **Invariants of threads.** -/
theorem Reaches.invariant [DecidableEq ι] {T : Machine ι W Op Ans}
    {M : (i : ι) → Monitor (L i) Op Ans} {Q : (i : ι) → α i → L i → Prop}
    {programs programs' : (i : ι) → Prog Op Ans (α i)} {w w' : W} {l : (i : ι) → L i}
    (I : ((i : ι) → L i) → W → Prop) (hsafe : ∀ i, (programs i).Safe (M i) (Q i) (l i))
    (hI : I l w) (hstep : ∀ l w i op answer w', I l w → (M i).may (l i) op → T i w op answer w' →
      I (Function.update l i ((M i).next (l i) op answer)) w')
    (h : Reaches T programs w programs' w') :
    ∃ l', I l' w' ∧ ∀ i, (programs' i).Safe (M i) (Q i) (l' i) := by
  induction h with
  | refl => exact ⟨l, hI, hsafe⟩
  | @step programs' w' w'' i op answer resume _ hnext hanswers ih =>
      obtain ⟨l', hI', hsafe'⟩ := ih
      have hi := hsafe' i
      rw [hnext] at hi
      refine ⟨_, hstep l' w' i op answer w'' hI' hi.1 hanswers, fun j => ?_⟩
      by_cases hj : j = i
      · subst hj
        rw [Function.update_self, Function.update_self]
        exact hi.2 answer
      · rw [Function.update_of_ne hj, Function.update_of_ne hj]
        exact hsafe' j

/-! ## Schedules -/

/-- The threads of a list take a step each, as the world chooses to answer. One that has returned, or
is blocked, is passed over. -/
def schedule [DecidableEq ι] (choose : ι → W → (op : Op) → Option (Ans op × W)) :
    List ι → ((i : ι) → Prog Op Ans (α i)) → W → ((i : ι) → Prog Op Ans (α i)) × W
  | [], programs, w => (programs, w)
  | i :: rest, programs, w =>
    match programs i with
    | .pure _ => schedule choose rest programs w
    | .perform op resume =>
      match choose i w op with
      | none => schedule choose rest programs w
      | some (answer, w') =>
        schedule choose rest (Function.update programs i (resume answer)) w'

theorem Reaches.trans [DecidableEq ι] {T : Machine ι W Op Ans}
    {programs programs₁ programs₂ : (i : ι) → Prog Op Ans (α i)} {w w₁ w₂ : W}
    (h : Reaches T programs w programs₁ w₁) (h' : Reaches T programs₁ w₁ programs₂ w₂) :
    Reaches T programs w programs₂ w₂ := by
  induction h' with
  | refl => exact h
  | step i _ hnext hanswers ih => exact .step i ih hnext hanswers

/-- A schedule leads to a state that can be reached. -/
theorem schedule_reaches [DecidableEq ι] {T : Machine ι W Op Ans}
    {choose : ι → W → (op : Op) → Option (Ans op × W)}
    (hchoose : ∀ i w op answer w', choose i w op = some (answer, w') → T i w op answer w')
    (threads : List ι) (programs : (i : ι) → Prog Op Ans (α i)) (w : W) :
    Reaches T programs w (schedule choose threads programs w).1
      (schedule choose threads programs w).2 := by
  induction threads generalizing programs w with
  | nil => exact .refl
  | cons i rest ih =>
      unfold schedule
      cases hnext : programs i with
      | pure value => exact ih programs w
      | perform op resume =>
          dsimp only
          cases hanswer : choose i w op with
          | none => exact ih programs w
          | some outcome =>
              exact (Reaches.refl.step i hnext (hchoose i w op _ _ hanswer)).trans (ih _ _)

end VirtioMem.Effect
