import Mathlib.Algebra.GroupWithZero.Nat
import Mathlib.Data.List.Lex
import Mathlib.Data.List.Sort
import Mathlib.Order.Bounds.Basic

/-!
# Serving in turn out of one supply

Claimants are served in an order, each out of what those before it have left. Where every one takes the
greatest share it may have, what they take is the lexicographically greatest of all the assignments that
the supply allows (`Greedy.served_greatest`): nobody could have more without someone before it having
less.

Two facts about the supply alone carry the rest. It shrinks along the order (`Greedy.left_append_le`), so
serving a claimant earlier leaves more for it; and what a claimant leaves is all that those behind it can
share (`Greedy.sum_served`).
-/

namespace VirtioMem.Greedy

variable {ι : Type*} {take : ι → ℕ → ℕ} {free : ℕ}

/-- What each claimant takes. -/
def served (take : ι → ℕ → ℕ) : ℕ → List ι → List ℕ
  | _, [] => []
  | free, i :: order => take i free :: served take (free - take i free) order

/-- What is left in the end. -/
def left (take : ι → ℕ → ℕ) : ℕ → List ι → ℕ
  | free, [] => free
  | free, i :: order => left take (free - take i free) order

@[simp] theorem served_nil : served take free [] = [] := rfl

@[simp] theorem served_cons (i : ι) (order : List ι) :
    served take free (i :: order) = take i free :: served take (free - take i free) order := rfl

@[simp] theorem left_nil : left take free [] = free := rfl

@[simp] theorem left_cons (i : ι) (order : List ι) :
    left take free (i :: order) = left take (free - take i free) order := rfl

@[simp] theorem length_served (order : List ι) : (served take free order).length = order.length := by
  induction order generalizing free with
  | nil => rfl
  | cons i order ih => simp [ih]

theorem left_append (first second : List ι) :
    left take free (first ++ second) = left take (left take free first) second := by
  induction first generalizing free with
  | nil => rfl
  | cons i first ih => exact ih

theorem served_append (first second : List ι) :
    served take free (first ++ second) =
      served take free first ++ served take (left take free first) second := by
  induction first generalizing free with
  | nil => rfl
  | cons i first ih => simp [ih]

theorem left_le (order : List ι) : left take free order ≤ free := by
  induction order generalizing free with
  | nil => exact le_rfl
  | cons i order ih => exact ih.trans (Nat.sub_le _ _)

/-- **The supply shrinks along the order.** -/
theorem left_append_le (first second : List ι) :
    left take free (first ++ second) ≤ left take free first := by
  rw [left_append]
  exact left_le second

/-- What is taken and what is left make up the supply. -/
theorem sum_served (htake : ∀ i free, take i free ≤ free) (order : List ι) :
    (served take free order).sum + left take free order = free := by
  induction order generalizing free with
  | nil => simp
  | cons i order ih =>
      have hrest := @ih (free - take i free)
      have hfirst := htake i free
      simp only [served_cons, List.sum_cons, left_cons]
      omega

section Greatest

variable {S : ι → Set ℕ}

/-- An assignment that the supply allows: everyone has a share it may have. -/
structure Allowed (S : ι → Set ℕ) (free : ℕ) (order : List ι) (shares : List ℕ) : Prop where
  each : List.Forall₂ (fun i share => share ∈ S i) order shares
  sum_le : shares.sum ≤ free

variable (hgreatest : ∀ i free, IsGreatest {share | share ∈ S i ∧ share ≤ free} (take i free))
include hgreatest

theorem served_allowed (order : List ι) : Allowed S free order (served take free order) where
  each := by
    induction order generalizing free with
    | nil => exact .nil
    | cons i order ih => exact .cons (hgreatest i free).1.1 ih
  sum_le := by
    have hsum := @sum_served ι take free (fun i free => (hgreatest i free).1.2) order
    omega

/-- **Serving in turn is lexicographically greatest.** -/
theorem served_greatest {order : List ι} {shares : List ℕ} (h : Allowed S free order shares) :
    shares ≤ served take free order := by
  obtain ⟨heach, hsum⟩ := h
  induction heach generalizing free with
  | nil => exact le_rfl
  | @cons i share order shares hshare _ ih =>
      rw [List.sum_cons] at hsum
      have hle : share ≤ take i free := (hgreatest i free).2 ⟨hshare, by omega⟩
      rw [served_cons]
      rcases hle.lt_or_eq with hlt | rfl
      · exact le_of_lt (List.Lex.rel hlt)
      · exact List.cons_le_cons _ (ih (by omega))

end Greatest

/-! ## Two orders -/

/-- A claimant that is served after fewer others is not worse off. -/
theorem take_left_mono (hmono : ∀ i, Monotone (take i)) {i : ι} {few many : List ι}
    (h : few <+: many) : take i (left take free many) ≤ take i (left take free few) := by
  obtain ⟨rest, rfl⟩ := h
  exact hmono i (left_append_le few rest)

end VirtioMem.Greedy
