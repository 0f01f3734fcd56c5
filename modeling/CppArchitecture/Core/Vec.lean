import Mathlib.Data.List.Basic
import Mathlib.Order.Lattice.Nat
import Mathlib.Tactic.Common

/-!
# Vectors with a capacity

A vector is its elements together with the space it has reserved. The space never shrinks, and
grows by itself only when an element does not fit.
-/

namespace Core

universe u

/-- A vector with the capacity it has reserved. -/
structure Vec (α : Type u) where
  elements : List α
  capacity : ℕ
  fits : elements.length ≤ capacity

namespace Vec

variable {α : Type u}

def reserve (xs : Vec α) (n : ℕ) : Vec α where
  elements := xs.elements
  capacity := max xs.capacity n
  fits := le_trans xs.fits (le_max_left _ _)

/-- Append an element; the capacity grows only if it has to. -/
def pushBack (xs : Vec α) (a : α) : Vec α where
  elements := xs.elements ++ [a]
  capacity := max xs.capacity (xs.elements.length + 1)
  fits := by simp

def size (xs : Vec α) : ℕ := xs.elements.length

/-- A default-constructed vector. -/
def empty : Vec α := ⟨[], 0, Nat.le_refl 0⟩

/-- Write an element at a position and let it be the last one. This is how an element is appended
at the end, if the position is the end. -/
def emplaceAt (xs : Vec α) (position : ℕ) (a : α) : Vec α where
  elements := xs.elements.take position ++ [a]
  capacity := max xs.capacity (position + 1)
  fits := by
    have hlen := List.length_take_le position xs.elements
    simp only [List.length_append, List.length_singleton]
    omega

lemma emplaceAt_size (xs : Vec α) (a : α) : xs.emplaceAt xs.size a = xs.pushBack a := by
  simp only [emplaceAt, pushBack, size, List.take_length]

@[simp] lemma elements_empty : (empty : Vec α).elements = [] := rfl

@[simp] lemma elements_reserve (xs : Vec α) (n : ℕ) : (xs.reserve n).elements = xs.elements := rfl

@[simp] lemma elements_pushBack (xs : Vec α) (a : α) :
    (xs.pushBack a).elements = xs.elements ++ [a] := rfl

lemma elements_foldl_pushBack (xs : Vec α) (as : List α) :
    (as.foldl pushBack xs).elements = xs.elements ++ as := by
  induction as generalizing xs with
  | nil => simp
  | cons a as ih => simp [ih]

end Vec

end Core
