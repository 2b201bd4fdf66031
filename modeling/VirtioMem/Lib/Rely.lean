import VirtioMem.Lib.Effect

/-!
# Relying on the answers

`Prog.Safe` lets the world answer as it likes. Some programs keep their promises only in a world that
keeps its own: the file can be written, the clock can be read. `Prog.SafeIf` is `Prog.Safe` with such
a reliance. A reliance says of every answer whether it was to be expected where the automaton stands,
and the program is asked for nothing any more once an answer was not.

`Action.relying` is the weakest precondition of an action under a reliance, with a postcondition for
the error exit. With `fun _ _ _ => False` there it says that the action does not fail.

`Action.Keeps` is the special case of an invariant: what holds before the action holds after it, if it
returns. It goes through code statement by statement, with no postcondition to be stated.
-/

namespace VirtioMem.Effect

variable {Op Op' : Type} {Ans : Op → Type} {Ans' : Op' → Type} {α β W W' : Type}

/-- Which answers to which operation are expected in a state. -/
abbrev Reliance (W : Type) (Op : Type) (Ans : Op → Type) : Type := W → (op : Op) → Ans op → Prop

/-- Every answer of the sequence was expected where it came. -/
def Monitor.Expects (M : Monitor W Op Ans) (A : Reliance W Op Ans) : W → List (Event Ans) → Prop
  | _, [] => True
  | w, ⟨op, answer⟩ :: events => A w op answer ∧ M.Expects A (M.next w op answer) events

theorem Monitor.expects_append {M : Monitor W Op Ans} {A : Reliance W Op Ans} (w : W)
    (first second : List (Event Ans)) :
    M.Expects A w (first ++ second) ↔ M.Expects A w first ∧ M.Expects A (M.after w first) second := by
  induction first generalizing w with
  | nil => simp [Expects]
  | cons event first ih => simp [Expects, ih, and_assoc]

namespace Prog

variable {M : Monitor W Op Ans} {M' : Monitor W' Op' Ans'} {A : Reliance W Op Ans}
  {A' : Reliance W' Op' Ans'}

/-- `p` sends only what `M` allows as long as it is answered as expected, and ends in `Q`. -/
def SafeIf (A : Reliance W Op Ans) (M : Monitor W Op Ans) :
    Prog Op Ans α → (α → W → Prop) → W → Prop
  | .pure value, Q, w => Q value w
  | .perform op resume, Q, w =>
      M.may w op ∧ ∀ answer, A w op answer → (resume answer).SafeIf A M Q (M.next w op answer)

/-- **Soundness.** A run that is answered as expected is accepted, finished or cut, and a finished one
ends in the postcondition. -/
theorem SafeIf.accepts {p : Prog Op Ans α} {Q : α → W → Prop} {w : W} {events result}
    (h : p.SafeIf A M Q w) (hr : p.Runs events result) (hexpects : M.Expects A w events) :
    M.Accepts w events ∧ ∀ value, result = some value → Q value (M.after w events) := by
  induction hr generalizing w with
  | done value => exact ⟨trivial, by rintro _ ⟨⟩; exact h⟩
  | cut => exact ⟨trivial, by rintro _ ⟨⟩⟩
  | step _ ih =>
      obtain ⟨hacc, hpost⟩ := ih (h.2 _ hexpects.1) hexpects.2
      exact ⟨⟨h.1, hacc⟩, hpost⟩

theorem SafeIf.mono {p : Prog Op Ans α} {Q Q' : α → W → Prop} {w : W}
    (h : p.SafeIf A M Q w) (hQ : ∀ value w, Q value w → Q' value w) : p.SafeIf A M Q' w := by
  induction p generalizing w with
  | pure value => exact hQ _ _ h
  | perform op resume ih => exact ⟨h.1, fun answer hanswer => ih answer (h.2 answer hanswer)⟩

theorem safeIf_bind {p : Prog Op Ans α} {next : α → Prog Op Ans β} {Q : β → W → Prop} {w : W} :
    (p.bind next).SafeIf A M Q w ↔
      p.SafeIf A M (fun value w => (next value).SafeIf A M Q w) w := by
  induction p generalizing w with
  | pure value => exact Iff.rfl
  | perform op resume ih =>
      exact and_congr_right fun _ => forall_congr' fun answer => imp_congr_right fun _ => ih answer

/-- **Simulation along a renaming of the operations.** Besides what `Safe.embed` asks for, an answer
the second world expects must be one the first relies on. -/
theorem SafeIf.embed {send : Op → Op'} {receive : (op : Op) → Ans' (send op) → Ans op}
    {p : Prog Op Ans α} {Q : α → W → Prop} (R : W → W' → Prop)
    (hmay : ∀ w w' op, R w w' → M.may w op → M'.may w' (send op))
    (hexpects : ∀ w w' op answer, R w w' → A' w' (send op) answer → A w op (receive op answer))
    (hnext : ∀ w w' op answer, R w w' → M.may w op →
      R (M.next w op (receive op answer)) (M'.next w' (send op) answer))
    {w : W} {w' : W'} (h : p.SafeIf A M Q w) (hR : R w w') :
    (p.embed send receive).SafeIf A' M' (fun value w' => ∃ w, R w w' ∧ Q value w) w' := by
  induction p generalizing w w' with
  | pure value => exact ⟨w, hR, h⟩
  | perform op resume ih =>
      refine ⟨hmay w w' op hR h.1, fun answer hanswer => ?_⟩
      exact ih _ (h.2 _ (hexpects w w' op answer hR hanswer)) (hnext w w' op answer hR h.1)

end Prog

namespace Action

variable {σ ε : Type} {A : Reliance W Op Ans} {M : Monitor W Op Ans}

/-- The weakest precondition of an action under a reliance: `Q` if it returns, `E` if it leaves with
an error. -/
def relying (A : Reliance W Op Ans) (M : Monitor W Op Ans) (action : Action Op Ans σ ε α)
    (Q : α → σ → W → Prop) (E : ε → σ → W → Prop) (s : σ) (w : W) : Prop :=
  (action s).SafeIf A M (fun outcome w => match outcome with
    | (.ok value, s) => Q value s w
    | (.error error, s) => E error s w) w

variable {Q : α → σ → W → Prop} {E : ε → σ → W → Prop} {s : σ} {w : W}

@[simp] theorem relying_pure (value : α) :
    relying A M (pure value : Action Op Ans σ ε α) Q E s w ↔ Q value s w := Iff.rfl

@[simp] theorem relying_bind (action : Action Op Ans σ ε α) (next : α → Action Op Ans σ ε β)
    {Q : β → σ → W → Prop} :
    relying A M (action >>= next) Q E s w ↔
      relying A M action (fun value s w => relying A M (next value) Q E s w) E s w := by
  refine Prog.safeIf_bind.trans ⟨fun h => h.mono ?_, fun h => h.mono ?_⟩ <;>
  · rintro ⟨_ | _, _⟩ w h <;> exact h

@[simp] theorem relying_perform (op : Op) {Q : Ans op → σ → W → Prop} :
    relying A M (perform op : Action Op Ans σ ε (Ans op)) Q E s w ↔
      M.may w op ∧ ∀ answer, A w op answer → Q answer s (M.next w op answer) := Iff.rfl

@[simp] theorem relying_ofExcept (answer : Except ε α) :
    relying A M (ofExcept answer : Action Op Ans σ ε α) Q E s w ↔
      (∀ value, answer = .ok value → Q value s w) ∧
        ∀ error, answer = .error error → E error s w := by
  cases answer <;> simp [ofExcept, relying, throw, pure, Prog.SafeIf]

/-- The consequence rule. -/
theorem relying_mono {action : Action Op Ans σ ε α} {Q' : α → σ → W → Prop}
    {E' : ε → σ → W → Prop} (h : relying A M action Q E s w)
    (hQ : ∀ value s w, Q value s w → Q' value s w) (hE : ∀ error s w, E error s w → E' error s w) :
    relying A M action Q' E' s w := by
  refine Prog.SafeIf.mono h ?_
  rintro ⟨_ | _, _⟩ w h
  · exact hE _ _ _ h
  · exact hQ _ _ _ h

/-! ## Invariants -/

/-- The action keeps the invariant, if it returns. -/
def Keeps (A : Reliance W Op Ans) (M : Monitor W Op Ans) (I : σ → W → Prop)
    (action : Action Op Ans σ ε α) : Prop :=
  ∀ s w, I s w → relying A M action (fun _ s w => I s w) (fun _ _ _ => True) s w

variable {I : σ → W → Prop}

theorem keeps_pure (value : α) : Keeps A M I (pure value : Action Op Ans σ ε α) :=
  fun _ _ h => h

theorem keeps_bind {action : Action Op Ans σ ε α} {next : α → Action Op Ans σ ε β}
    (h : Keeps A M I action) (hnext : ∀ value, Keeps A M I (next value)) :
    Keeps A M I (action >>= next) := by
  intro s w hI
  refine (relying_bind action next).mpr (relying_mono (h s w hI) ?_ fun _ _ _ _ => trivial)
  exact fun value s w hI => hnext value s w hI

theorem keeps_get : Keeps A M I (get : Action Op Ans σ ε σ) :=
  fun _ _ h => h

theorem keeps_modify {f : σ → σ} (h : ∀ s w, I s w → I (f s) w) :
    Keeps A M I (modify f : Action Op Ans σ ε PUnit) :=
  h

theorem keeps_perform {op : Op} (h : ∀ s w, I s w → M.may w op ∧
    ∀ answer, A w op answer → I s (M.next w op answer)) :
    Keeps A M I (perform op : Action Op Ans σ ε (Ans op)) :=
  h

theorem keeps_ofExcept (answer : Except ε α) :
    Keeps A M I (ofExcept answer : Action Op Ans σ ε α) :=
  fun _ _ h => (relying_ofExcept answer).mpr ⟨fun _ _ => h, fun _ _ => trivial⟩

/-- What is kept holds after a run that was answered as expected. -/
theorem Keeps.runs {action : Action Op Ans σ ε α} (h : Keeps A M I action) (hI : I s w)
    {events : List (Event Ans)} {result : Option (Except ε α × σ)}
    (hruns : (action s).Runs events result) (hexpects : M.Expects A w events) :
    M.Accepts w events ∧ ∀ value s', result = some (.ok value, s') → I s' (M.after w events) := by
  obtain ⟨haccepts, hpost⟩ := Prog.SafeIf.accepts (h s w hI) hruns hexpects
  exact ⟨haccepts, fun value s' hresult => hpost _ hresult⟩

end Action

end VirtioMem.Effect
