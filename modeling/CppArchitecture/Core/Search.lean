import Mathlib.Data.List.Basic
import Mathlib.Tactic.Common

/-!
# Searches

Loops over machine words that leave with the first result found, and the search for two
neighbouring elements. The counter of a loop is smaller than its bound before every step, so it
never wraps, whatever the bound is.
-/

namespace Core

variable {ε α β : Type}

/-- Below a bound the counter does not wrap. -/
lemma toNat_succ_of_lt {i last : UInt64} (h : i < last) : (i + 1).toNat = i.toNat + 1 := by
  have hi : i.toNat < last.toNat := UInt64.lt_iff_toNat_lt.mp h
  have hlast : last.toNat < 2 ^ 64 := last.toNat_lt
  rw [UInt64.toNat_add, UInt64.toNat_one]
  exact Nat.mod_eq_of_lt (by omega)

lemma le_succ_of_lt {i last : UInt64} (h : i < last) : i ≤ i + 1 := by
  rw [UInt64.le_iff_toNat_le, toNat_succ_of_lt h]
  exact Nat.le_succ _

/-- The words from `i` on are `i` and those from `i + 1` on. -/
lemma eq_or_succ_le_of_lt {i j last : UInt64} (h : i < last) (hij : i ≤ j) :
    j = i ∨ i + 1 ≤ j := by
  rw [UInt64.le_iff_toNat_le] at hij
  rw [UInt64.le_iff_toNat_le, toNat_succ_of_lt h, ← UInt64.toNat_inj]
  omega

/-- `for (; i < last; ++i) body(i)`, where the body may return from the function around it. -/
def forWords (body : UInt64 → Except ε (Option β)) (last i : UInt64) : Except ε (Option β) :=
  if _h : i < last then do
    match ← body i with
    | some b => return some b
    | none => forWords body last (i + 1)
  else return none
termination_by last.toNat - i.toNat
decreasing_by
  have hi : i.toNat < last.toNat := UInt64.lt_iff_toNat_lt.mp _h
  rw [toNat_succ_of_lt _h]
  omega

section

variable {body : UInt64 → Except ε (Option β)} {last i : UInt64} {b : β}

lemma forWords_of_not_lt (h : ¬ i < last) : forWords body last i = .ok none := by
  rw [forWords, dif_neg h]
  rfl

lemma forWords_of_some (h : i < last) (hbody : body i = .ok (some b)) :
    forWords body last i = .ok (some b) := by
  rw [forWords, dif_pos h, hbody]
  rfl

lemma forWords_of_none (h : i < last) (hbody : body i = .ok none) :
    forWords body last i = forWords body last (i + 1) := by
  rw [forWords, dif_pos h, hbody]
  rfl

/-- A loop whose body looks for `p` stops at the first word that has it, or finds none. -/
theorem forWords_search {p : UInt64 → Prop} [DecidablePred p] {f : UInt64 → β}
    (hbody : ∀ j, i ≤ j → j < last → body j = .ok (if p j then some (f j) else none)) :
    (∃ k, i ≤ k ∧ k < last ∧ p k ∧ (∀ j, i ≤ j → j < k → ¬ p j) ∧
      forWords body last i = .ok (some (f k))) ∨
    ((∀ j, i ≤ j → j < last → ¬ p j) ∧ forWords body last i = .ok none) := by
  induction hn : last.toNat - i.toNat generalizing i with
  | zero =>
    have hi : ¬ i < last := by
      rw [UInt64.lt_iff_toNat_lt]
      omega
    exact .inr ⟨fun j hij hj => absurd (UInt64.lt_of_le_of_lt hij hj) hi, forWords_of_not_lt hi⟩
  | succ n ih =>
    have hi : i < last := by
      rw [UInt64.lt_iff_toNat_lt]
      omega
    by_cases hp : p i
    · refine .inl ⟨i, UInt64.le_refl i, hi, hp, ?_, ?_⟩
      · intro j hij hji
        exact absurd (UInt64.lt_of_le_of_lt hij hji) (UInt64.lt_irrefl i)
      · exact forWords_of_some hi (by rw [hbody i (UInt64.le_refl i) hi, if_pos hp])
    · have hstep : forWords body last i = forWords body last (i + 1) :=
        forWords_of_none hi (by rw [hbody i (UInt64.le_refl i) hi, if_neg hp])
      have hle : i ≤ i + 1 := le_succ_of_lt hi
      have hmeasure : last.toNat - (i + 1).toNat = n := by
        rw [toNat_succ_of_lt hi]
        omega
      rw [hstep]
      rcases ih (fun j hij hj => hbody j (UInt64.le_trans hle hij) hj) hmeasure with
        ⟨k, hik, hk, hpk, hfirst, hrun⟩ | ⟨hnone, hrun⟩
      · refine .inl ⟨k, UInt64.le_trans hle hik, hk, hpk, ?_, hrun⟩
        intro j hij hjk
        rcases eq_or_succ_le_of_lt hi hij with rfl | hij
        · exact hp
        · exact hfirst j hij hjk
      · refine .inr ⟨?_, hrun⟩
        intro j hij hj
        rcases eq_or_succ_le_of_lt hi hij with rfl | hij
        · exact hp
        · exact hnone j hij hj

end

/-! ### Neighbours -/

/-- `std::ranges::adjacent_find`: the position of the first of two neighbours related by `pred`,
or the end. -/
def adjacentFind (pred : α → α → Bool) : List α → ℕ
  | [] => 0
  | [_] => 1
  | x :: y :: xs => if pred x y then 0 else adjacentFind pred (y :: xs) + 1

/-- The elements at `k` and after it are related by `pred`. -/
def AdjacentAt (pred : α → α → Bool) (xs : List α) (k : ℕ) : Prop :=
  ∃ x y, xs[k]? = some x ∧ xs[k + 1]? = some y ∧ pred x y = true

section

variable {pred : α → α → Bool} {x y : α} {xs : List α} {k : ℕ}

@[simp] lemma adjacentAt_zero : AdjacentAt pred (x :: y :: xs) 0 ↔ pred x y = true := by
  simp [AdjacentAt]

@[simp] lemma adjacentAt_succ : AdjacentAt pred (x :: xs) (k + 1) ↔ AdjacentAt pred xs k := by
  simp [AdjacentAt]

lemma not_adjacentAt_singleton : ¬ AdjacentAt pred [x] k := by
  simp [AdjacentAt]

/-- The search stops at the first such neighbours, or at the end if there are none. -/
theorem adjacentFind_spec (pred : α → α → Bool) (xs : List α) :
    (AdjacentAt pred xs (adjacentFind pred xs) ∧
      ∀ j < adjacentFind pred xs, ¬ AdjacentAt pred xs j) ∨
    (adjacentFind pred xs = xs.length ∧ ∀ j, ¬ AdjacentAt pred xs j) := by
  match xs with
  | [] => exact .inr ⟨rfl, fun j => by simp [AdjacentAt]⟩
  | [x] => exact .inr ⟨rfl, fun j => not_adjacentAt_singleton⟩
  | x :: y :: xs =>
    by_cases hxy : pred x y = true
    · refine .inl ?_
      simp [adjacentFind, hxy]
    · have hfind : adjacentFind pred (x :: y :: xs) = adjacentFind pred (y :: xs) + 1 := by
        simp [adjacentFind, hxy]
      have hzero : ¬ AdjacentAt pred (x :: y :: xs) 0 := by simpa using hxy
      rw [hfind]
      rcases adjacentFind_spec pred (y :: xs) with ⟨hat, hfirst⟩ | ⟨hend, hnone⟩
      · refine .inl ⟨adjacentAt_succ.mpr hat, ?_⟩
        intro j hj
        match j with
        | 0 => exact hzero
        | j + 1 => exact fun h => hfirst j (Nat.lt_of_succ_lt_succ hj) (adjacentAt_succ.mp h)
      · refine .inr ⟨by rw [hend]; rfl, ?_⟩
        intro j
        match j with
        | 0 => exact hzero
        | j + 1 => exact fun h => hnone j (adjacentAt_succ.mp h)

end

end Core
