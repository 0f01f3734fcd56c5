import Mathlib.Order.WithBot

/-!
# Floating-point order

Floating-point values as far as comparisons go: a totally ordered set with both infinities, and
a value that is not a number, for which every comparison is false. A condition and its negated
opposite come apart on that value only.
-/

namespace Core

variable {L : Type}

/-- A number, finite or infinite, or not a number. -/
inductive Floating (L : Type) where
  | nan
  | number (x : WithBot (WithTop L))
  deriving DecidableEq

namespace Floating

/-- A finite number. -/
def finite (x : L) : Floating L := .number (x : WithTop L)

instance (n : ℕ) [OfNat L n] : OfNat (Floating L) n := ⟨finite (OfNat.ofNat n)⟩

/-- `==`, which a value that is not a number fails even for itself. -/
instance [DecidableEq L] : BEq (Floating L) where
  beq
    | .number x, .number y => decide (x = y)
    | _, _ => false

variable [LinearOrder L]

instance : LT (Floating L) where
  lt
    | .number x, .number y => x < y
    | _, _ => False

instance : LE (Floating L) where
  le
    | .number x, .number y => x ≤ y
    | _, _ => False

instance : DecidableLT (Floating L)
  | .number x, .number y => inferInstanceAs (Decidable (x < y))
  | .nan, _ => isFalse id
  | .number _, .nan => isFalse id

variable {a : Floating L} {x y : WithBot (WithTop L)}

lemma number_lt_number : number x < number y ↔ x < y := Iff.rfl

lemma number_le_number : number x ≤ number y ↔ x ≤ y := Iff.rfl

lemma not_nan_lt : ¬ nan < a := by
  cases a <;> exact id

lemma not_lt_nan : ¬ a < nan := by
  cases a <;> exact id

lemma not_nan_le : ¬ nan ≤ a := by
  cases a <;> exact id

lemma nan_beq : ((nan : Floating L) == a) = false := rfl

/-- A value compares equal to itself exactly if it is a number. -/
lemma beq_self_iff : (a == a) = true ↔ a ≠ nan := by
  match a with
  | .nan => simp [BEq.beq]
  | .number x => simp [BEq.beq]

/-- What is not outside of a range is within it or is not a number. -/
lemma not_outside_iff : ¬ (a > number y ∨ a < number x) ↔
    a = nan ∨ (number x ≤ a ∧ a ≤ number y) := by
  match a with
  | .nan => simp [not_lt_nan, not_nan_lt]
  | .number z =>
    simp only [gt_iff_lt, number_lt_number, number_le_number, not_or, not_lt, reduceCtorEq,
      false_or]
    exact and_comm

end Floating

end Core
