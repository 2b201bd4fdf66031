import Mathlib.Data.Nat.Log
import Mathlib.Data.ZMod.Defs
import Mathlib.Algebra.Order.Group.Nat
import Mathlib.Algebra.Order.Sub.Basic
import Mathlib.Tactic.Ring
import Mathlib.Tactic.Linarith

/-!
# Unsigned 64-bit arithmetic over `Nat`

Byte counts and times are `Nat`; what a machine word changes about them is exactly what happens when
an operation leaves the range, so only the operations that look at the range are defined here: the
saturating and the checked ones. Subtraction on `Nat` already saturates at zero.

The rest is alignment to a block size, rounded either way.
-/

namespace VirtioMem.Word

/-- The largest 64-bit value. -/
def maximum : Nat := 2 ^ 64 - 1

/-- A 64-bit value that came from outside and is therefore in range. -/
abbrev U64 : Type := Fin (2 ^ 64)

instance U64.neZero : NeZero (2 ^ 64) := ⟨by decide⟩

/-- Addition that stops at the largest value. -/
def saturatingAdd (a b : Nat) : Nat := min (a + b) maximum

/-- Multiplication that stops at the largest value. -/
def saturatingMul (a b : Nat) : Nat := min (a * b) maximum

/-- Addition that fails when the sum leaves the range. -/
def checkedAdd (a b : Nat) : Option Nat := if a + b ≤ maximum then some (a + b) else none

/-- Subtraction that fails below zero. -/
def checkedSub (a b : Nat) : Option Nat := if b ≤ a then some (a - b) else none

/-- Division rounded up. -/
def divCeil (a b : Nat) : Nat := (a + (b - 1)) / b

/-- A power of two, tested by the bit length. -/
def isPowerOfTwo (n : Nat) : Bool := n == 2 ^ Nat.log2 n

/-- The largest multiple of `block` that is at most `value`. -/
def alignDown (value block : Nat) : Nat := value - value % block

/-- The distance between two values. -/
def absDiff (a b : Nat) : Nat := (a - b) + (b - a)

/-! ## Ranges -/

theorem U64.le_maximum (a : U64) : (a : Nat) ≤ maximum := Nat.le_pred_of_lt a.isLt

/-- A saturating sum is the sum, cut off once. -/
theorem foldl_saturatingAdd (terms : List Nat) {start : Nat} (hstart : start ≤ maximum) :
    terms.foldl saturatingAdd start = min (start + terms.sum) maximum := by
  induction terms generalizing start with
  | nil => simpa using hstart
  | cons term terms ih =>
      have hnext : saturatingAdd start term ≤ maximum := min_le_right _ _
      rw [List.foldl_cons, ih hnext, List.sum_cons]
      unfold saturatingAdd
      omega

@[simp] theorem checkedSub_eq_some {a b c : Nat} : checkedSub a b = some c ↔ a = c + b := by
  unfold checkedSub
  split <;> simp <;> omega

@[simp] theorem checkedSub_eq_none {a b : Nat} : checkedSub a b = none ↔ a < b := by
  unfold checkedSub
  split <;> simp <;> omega

theorem checkedAdd_eq_some {a b c : Nat} :
    checkedAdd a b = some c ↔ c = a + b ∧ a + b ≤ maximum := by
  unfold checkedAdd
  split <;> simp_all [eq_comm]

theorem checkedAdd_eq_none {a b : Nat} : checkedAdd a b = none ↔ maximum < a + b := by
  unfold checkedAdd
  split <;> simp <;> omega

/-! ## Alignment -/

theorem alignDown_le (value block : Nat) : alignDown value block ≤ value := Nat.sub_le _ _

theorem alignDown_mod (value block : Nat) : alignDown value block % block = 0 := by
  unfold alignDown
  exact Nat.mod_eq_zero_of_dvd (Nat.dvd_sub_mod value)

theorem le_divCeil_mul {a b : Nat} (hb : 0 < b) : a ≤ divCeil a b * b := by
  unfold divCeil
  have h := Nat.div_add_mod (a + (b - 1)) b
  have hlt := Nat.mod_lt (a + (b - 1)) hb
  rw [Nat.mul_comm] at h
  omega

/-- Rounding up passes the value by less than one block. -/
theorem divCeil_mul_lt {a b : Nat} (hb : 0 < b) : divCeil a b * b < a + b := by
  unfold divCeil
  have h := Nat.div_mul_le_self (a + (b - 1)) b
  omega

end VirtioMem.Word
