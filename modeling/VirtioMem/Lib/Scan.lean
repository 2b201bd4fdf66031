import Mathlib.Data.List.Infix
import Mathlib.Tactic.Common

/-!
# Programs that edit a text while they search it

A common way to rewrite a text is a loop: look for the next occurrence of a pattern behind an offset,
replace something near it in place, and go on behind what was written. Nothing says at first that such
a loop ends, nor which part of the text a replacement still depends on.

A `Loop` carries what it gets smaller by, so it ends (`Loop.ends`). A `Search` is such a loop over a
text and an offset. Two rules are enough to follow one along a text: what holds no beginning of the
pattern is passed over (`Search.runFrom_skip`), and a search that never looks back leaves what lies behind
it alone (`Search.Forward.run`).
-/

namespace VirtioMem.Scan

/-! ## Loops that end -/

/-- A loop: one round breaks with a result or goes on with a smaller state. -/
structure Loop (σ ρ : Type) where
  step : σ → ρ ⊕ σ
  size : σ → Nat
  shrinks : ∀ {s s'}, step s = .inr s' → size s' < size s

namespace Loop

variable {σ ρ σ' ρ' : Type} (l : Loop σ ρ)

/-- The result of the loop, with enough rounds for its size. -/
def runFor : (rounds : Nat) → (s : σ) → l.size s ≤ rounds → ρ
  | 0, s, hrounds =>
      match hstep : l.step s with
      | .inl r => r
      | .inr _ => absurd (l.shrinks hstep) (by omega)
  | rounds + 1, s, hrounds =>
      match hstep : l.step s with
      | .inl r => r
      | .inr s' => runFor rounds s' (by have := l.shrinks hstep; omega)

def run (s : σ) : ρ := l.runFor (l.size s) s (Nat.le_refl _)

/-- The loop breaks with this result after this many rounds. -/
inductive Ends : Nat → σ → ρ → Prop
  | done {s : σ} {r : ρ} : l.step s = .inl r → Ends 0 s r
  | next {n : Nat} {s s' : σ} {r : ρ} : l.step s = .inr s' → Ends n s' r → Ends (n + 1) s r

variable {l} {s s' : σ} {r r' : ρ} {n : Nat}

theorem runFor_ends (rounds : Nat) (s : σ) (h : l.size s ≤ rounds) :
    ∃ n ≤ rounds, l.Ends n s (l.runFor rounds s h) := by
  induction rounds generalizing s with
  | zero =>
      refine ⟨0, Nat.le_refl _, ?_⟩
      unfold runFor
      split
      · next hstep => exact .done hstep
      · next hstep => exact absurd (l.shrinks hstep) (by omega)
  | succ rounds ih =>
      unfold runFor
      split
      · next hstep => exact ⟨0, Nat.zero_le _, .done hstep⟩
      · next s' hstep =>
          obtain ⟨n, hn, hends⟩ := ih s' (by have := l.shrinks hstep; omega)
          exact ⟨n + 1, Nat.succ_le_succ hn, .next hstep hends⟩

/-- **The loop ends**, after no more rounds than its size. -/
theorem ends (s : σ) : ∃ n ≤ l.size s, l.Ends n s (l.run s) := runFor_ends _ _ _

theorem Ends.unique (h : l.Ends n s r) : ∀ {n' r'}, l.Ends n' s r' → r = r' := by
  induction h with
  | done hstep =>
      intro n' r' h'
      cases h' with
      | done hstep' => exact Sum.inl.inj (hstep.symm.trans hstep')
      | next hstep' _ => cases hstep.symm.trans hstep'
  | next hstep _ ih =>
      intro n' r' h'
      cases h' with
      | done hstep' => cases hstep.symm.trans hstep'
      | next hstep' h' =>
          cases hstep.symm.trans hstep'
          exact ih h'

theorem Ends.run_eq (h : l.Ends n s r) : l.run s = r :=
  let ⟨_, _, hrun⟩ := ends s
  hrun.unique h

theorem run_of_done (h : l.step s = .inl r) : l.run s = r := (Ends.done h).run_eq

theorem run_of_next (h : l.step s = .inr s') : l.run s = l.run s' :=
  let ⟨_, _, hends⟩ := ends s'
  (Ends.next h hends).run_eq

/-- Equal rounds have equal results. -/
theorem run_congr {t : σ} (h : l.step s = l.step t) : l.run s = l.run t := by
  cases hstep : l.step s with
  | inl r => rw [run_of_done hstep, run_of_done (h.symm.trans hstep)]
  | inr s' => rw [run_of_next hstep, run_of_next (h.symm.trans hstep)]

theorem Ends.map {l' : Loop σ' ρ'} {f : σ → σ'} {g : ρ → ρ'}
    (hstep : ∀ s, l'.step (f s) = (l.step s).map g f) (h : l.Ends n s r) :
    l'.Ends n (f s) (g r) := by
  induction h with
  | done hdone => exact .done (by rw [hstep, hdone]; rfl)
  | @next n s s' r hnext _ ih =>
      have hnext' : l'.step (f s) = .inr (f s') := by
        rw [hstep, hnext]
        rfl
      exact .next hnext' ih

/-- A loop that follows another, round by round. -/
theorem run_map {l' : Loop σ' ρ'} {f : σ → σ'} {g : ρ → ρ'}
    (hstep : ∀ s, l'.step (f s) = (l.step s).map g f) (s : σ) : l'.run (f s) = g (l.run s) :=
  let ⟨_, _, hends⟩ := ends s
  (hends.map hstep).run_eq

end Loop

/-! ## Occurrences -/

section Occurrences

variable {α : Type} {pattern text : List α} {i : Nat}

/-- Where a pattern occurs first. -/
def find [DecidableEq α] (pattern : List α) : List α → Option Nat
  | [] => if pattern <+: [] then some 0 else none
  | c :: text =>
      if pattern <+: c :: text then some 0 else (find pattern text).map (· + 1)

section Decidable

variable [DecidableEq α]

theorem find_of_found (h : pattern <+: text) : find pattern text = some 0 := by
  cases text with
  | nil => exact if_pos h
  | cons c text => exact if_pos h

theorem find_cons {c : α} (h : ¬pattern <+: c :: text) :
    find pattern (c :: text) = (find pattern text).map (· + 1) :=
  if_neg h

theorem find_eq_some (h : find pattern text = some i) : pattern <+: text.drop i := by
  induction text generalizing i with
  | nil =>
      unfold find at h
      split at h
      · next hbegins => simpa using hbegins
      · cases h
  | cons c text ih =>
      unfold find at h
      split at h
      · next hbegins =>
          cases h
          exact hbegins
      · obtain ⟨j, hj, rfl⟩ := Option.map_eq_some_iff.mp h
        simpa using ih hj

theorem find_eq_none_iff : find pattern text = none ↔ ¬pattern <:+: text := by
  induction text with
  | nil =>
      unfold find
      rw [List.infix_nil, ← List.prefix_nil]
      split <;> simp_all
  | cons c text ih =>
      rw [List.infix_cons_iff, not_or]
      unfold find
      split
      · next h => simp [h]
      · next h => simp [h, ih]

end Decidable

/-- No occurrence of the pattern begins in the piece, whatever follows it. -/
def Clear (pattern : List α) : List α → Prop
  | [] => True
  | c :: piece => (∀ rest, ¬pattern <+: c :: (piece ++ rest)) ∧ Clear pattern piece

/-- **What is clear is passed over** by a search. -/
theorem Clear.find_append [DecidableEq α] {piece : List α} (h : Clear pattern piece)
    (rest : List α) : find pattern (piece ++ rest) = (find pattern rest).map (· + piece.length) := by
  induction piece with
  | nil => simp
  | cons c piece ih =>
      rw [List.cons_append, find_cons (h.1 rest), ih h.2, Option.map_map]
      rfl

/-- A piece is clear without the first symbol of the pattern. -/
theorem clear_of_notMem {c : α} {piece : List α} (h : c ∉ piece) : Clear (c :: pattern) piece := by
  induction piece with
  | nil => trivial
  | cons d piece ih =>
      rw [List.mem_cons, not_or] at h
      refine ⟨fun rest hbegins => h.1 (List.cons_prefix_cons.mp hbegins).1, ih h.2⟩

/-- A pattern does not reach over a symbol it does not have. -/
theorem prefix_of_delimited {d : α} {piece rest : List α} (hd : d ∉ pattern)
    (h : pattern <+: piece ++ d :: rest) : pattern <+: piece := by
  rcases List.prefix_or_prefix_of_prefix h (List.prefix_append piece (d :: rest)) with
    h' | ⟨more, rfl⟩
  · exact h'
  · rw [List.prefix_append_right_inj] at h
    cases more with
    | nil => simp
    | cons c more =>
        obtain ⟨rfl, -⟩ := List.cons_prefix_cons.mp h
        simp at hd

/-- Up to a symbol that neither has, a pattern that begins a text is the whole piece. -/
theorem eq_of_delimited {d : α} {piece rest : List α} (hpattern : d ∉ pattern) (hpiece : d ∉ piece)
    (h : pattern ++ [d] <+: piece ++ d :: rest) : pattern = piece := by
  induction pattern generalizing piece with
  | nil =>
      cases piece with
      | nil => rfl
      | cons c piece =>
          obtain ⟨rfl, -⟩ := List.cons_prefix_cons.mp h
          exact absurd List.mem_cons_self hpiece
  | cons c pattern ih =>
      cases piece with
      | nil =>
          obtain ⟨rfl, -⟩ := List.cons_prefix_cons.mp h
          exact absurd List.mem_cons_self hpattern
      | cons c' piece =>
          obtain ⟨rfl, hrest⟩ := List.cons_prefix_cons.mp h
          rw [ih (fun hmem => hpattern (List.mem_cons_of_mem _ hmem))
            (fun hmem => hpiece (List.mem_cons_of_mem _ hmem)) hrest]

/-- A text is read back up to a symbol that its first part does not have. -/
theorem append_cons_inj {d : α} {piece piece' rest rest' : List α} (hpiece : d ∉ piece)
    (hpiece' : d ∉ piece') (h : piece ++ d :: rest = piece' ++ d :: rest') :
    piece = piece' ∧ rest = rest' := by
  have hbegins : piece ++ [d] <+: piece' ++ d :: rest' := by
    rw [← h]
    exact ⟨rest, by simp⟩
  obtain rfl := eq_of_delimited hpiece hpiece' hbegins
  exact ⟨rfl, (List.cons.inj (List.append_cancel_left h)).2⟩

/-- Whether a text begins with a symbol the pattern does not have, or is empty. -/
def Delimited (pattern : List α) : List α → Prop
  | [] => True
  | d :: _ => d ∉ pattern

/-- A piece without the pattern is passed over too, if the pattern cannot reach out of it. -/
theorem find_append_of_delimited [DecidableEq α] {piece rest : List α}
    (h : ¬pattern <:+: piece) (hrest : Delimited pattern rest) :
    find pattern (piece ++ rest) = (find pattern rest).map (· + piece.length) := by
  induction piece with
  | nil => simp
  | cons c piece ih =>
      rw [List.infix_cons_iff, not_or] at h
      have hhead : ¬pattern <+: c :: (piece ++ rest) := by
        cases rest with
        | nil =>
            rw [List.append_nil]
            exact h.1
        | cons d rest =>
            intro hbegins
            have hreach : pattern <+: (c :: piece) ++ d :: rest := hbegins
            exact h.1 (prefix_of_delimited hrest hreach)
      rw [List.cons_append, find_cons hhead, ih h.2, Option.map_map]
      rfl

end Occurrences

/-! ## Searches -/

/-- A text that is being edited, and how far it has been searched. -/
structure Cursor (α : Type) where
  text : List α
  offset : Nat
  deriving DecidableEq, Repr

/-- The text from `start` to `stop` replaced by another. -/
def replaceRange {α : Type} (text : List α) (start stop : Nat) (by_ : List α) : List α :=
  text.take start ++ by_ ++ text.drop stop

/-- A loop that looks for a pattern behind an offset, and edits the text where it finds it. -/
structure Search (α : Type) where
  pattern : List α
  /-- What is done about the occurrence that starts here. -/
  act : List α → Nat → List α ⊕ Cursor α
  progress : ∀ {text start next}, pattern <+: text.drop start → act text start = .inr next →
    next.text.length - next.offset < text.length - start

namespace Search

variable {α : Type} [DecidableEq α] (search : Search α)

def step (s : Cursor α) : List α ⊕ Cursor α :=
  match find search.pattern (s.text.drop s.offset) with
  | none => .inl s.text
  | some found => search.act s.text (s.offset + found)

def loop : Loop (Cursor α) (List α) where
  step := search.step
  size s := s.text.length - s.offset
  shrinks {s s'} h := by
    unfold step at h
    split at h
    · cases h
    · next found hfound =>
        have hbegins := find_eq_some hfound
        rw [List.drop_drop] at hbegins
        have := search.progress hbegins h
        omega

/-- What the search makes of a text, from this offset on. -/
def runFrom (text : List α) (offset : Nat) : List α := search.loop.run ⟨text, offset⟩

def run (text : List α) : List α := search.runFrom text 0

variable {search} {done rest piece : List α} {next : Cursor α}

/-- What is passed over by one search is passed over by the loop. -/
theorem runFrom_skip
    (h : find search.pattern (piece ++ rest) = (find search.pattern rest).map (· + piece.length)) :
    search.runFrom (done ++ (piece ++ rest)) done.length =
      search.runFrom (done ++ piece ++ rest) (done ++ piece).length := by
  apply Loop.run_congr
  show search.step _ = search.step _
  unfold step
  have hdone : (done ++ (piece ++ rest)).drop done.length = piece ++ rest := List.drop_left
  have hpiece : (done ++ piece ++ rest).drop (done ++ piece).length = rest := List.drop_left
  simp only [hdone, hpiece, h]
  cases find search.pattern rest with
  | none => simp
  | some found =>
      show search.act _ (done.length + (found + piece.length)) = search.act _ _
      rw [List.append_assoc, List.length_append, Nat.add_assoc, Nat.add_comm found]

/-- A text without the pattern is not changed. -/
theorem runFrom_absent (h : find search.pattern rest = none) :
    search.runFrom (done ++ rest) done.length = done ++ rest := by
  apply Loop.run_of_done
  show search.step _ = _
  unfold step
  simp only [List.drop_left, h]

theorem step_of_found (h : search.pattern <+: rest) :
    search.step ⟨done ++ rest, done.length⟩ = search.act (done ++ rest) done.length := by
  unfold step
  simp only [List.drop_left, find_of_found h]
  rfl

/-- An occurrence that is acted upon. -/
theorem runFrom_act (h : search.pattern <+: rest)
    (hact : search.act (done ++ rest) done.length = .inr next) :
    search.runFrom (done ++ rest) done.length = search.runFrom next.text next.offset :=
  Loop.run_of_next ((step_of_found h).trans hact)

/-! ### Searches that do not look back -/

/-- What is done about an occurrence does not depend on what lies behind it, and leaves it alone. -/
def Forward (search : Search α) : Prop :=
  ∀ done text start, search.act (done ++ text) (done.length + start) =
    (search.act text start).map (done ++ ·) fun s => ⟨done ++ s.text, done.length + s.offset⟩

namespace Forward

theorem step (h : search.Forward) (done : List α) (s : Cursor α) :
    search.step ⟨done ++ s.text, done.length + s.offset⟩ =
      (search.step s).map (done ++ ·) fun s => ⟨done ++ s.text, done.length + s.offset⟩ := by
  unfold Search.step
  have hdrop : (done ++ s.text).drop (done.length + s.offset) = s.text.drop s.offset := by
    rw [← List.drop_drop, List.drop_left]
  simp only [hdrop]
  cases find search.pattern (s.text.drop s.offset) with
  | none => rfl
  | some found =>
      show search.act _ _ = _
      rw [Nat.add_assoc]
      exact h done s.text (s.offset + found)

/-- **What has been passed is left alone.** -/
theorem run (h : search.Forward) (done rest : List α) :
    search.runFrom (done ++ rest) done.length = done ++ search.run rest :=
  @Loop.run_map _ _ _ _ search.loop search.loop _ _ (h.step done) ⟨rest, 0⟩

theorem skip (h : search.Forward) (hpiece : Clear search.pattern piece) :
    search.run (piece ++ rest) = piece ++ search.run rest := by
  rw [← h.run piece rest]
  exact @runFrom_skip _ _ search [] rest piece (hpiece.find_append rest)

theorem act (h : search.Forward) {text : List α} (hbegins : search.pattern <+: text)
    (hact : search.act text 0 = .inr ⟨done ++ rest, done.length⟩) :
    search.run text = done ++ search.run rest := by
  rw [← h.run done rest]
  exact @runFrom_act _ _ search [] text _ hbegins hact

end Forward

end Search

end VirtioMem.Scan
