import CppArchitecture.Core.Search
import Mathlib.Algebra.Group.Int.Defs
import Mathlib.Algebra.Group.Nat.Defs

/-!
# Machine integers in loops

Loops whose index is a machine word and whose counter is an `int` of 32 bits. The index never
wraps, as it is below its bound before every step. The counter may run out of values, and then
another increment is undefined, as is any sum of `int`s that is none, where a conversion from a
wider integer keeps the lower bits.
-/

namespace Core

/-- Undefined behaviour of a loop. -/
inductive Undefined where
  | outOfBounds
  | overflow
  deriving DecidableEq, Repr

variable {α σ ε : Type}

/-- `xs[i]` -/
def readAt (xs : List α) (i : ℕ) : Except Undefined α :=
  match xs[i]? with
  | some x => .ok x
  | none => .error .outOfBounds

/-- `++count`, for an `int`. -/
def increment (count : ℤ) : Except Undefined ℤ :=
  if count < 2 ^ 31 - 1 then .ok (count + 1) else .error .overflow

/-- The conversion of an integer to `int`. -/
def toInt (z : ℤ) : ℤ := z.bmod (2 ^ 32)

/-- An operation on `int`s whose result is to be `z` overflows. -/
def overflows (z : ℤ) : Bool := decide (toInt z ≠ z)

/-- `for (; i < last; ++i) body(i)`, where the body changes `s`. -/
def foldWords (body : UInt64 → σ → Except ε σ) (last i : UInt64) (s : σ) : Except ε σ :=
  if _h : i < last then do
    let t ← body i s
    foldWords body last (i + 1) t
  else return s
termination_by last.toNat - i.toNat
decreasing_by
  have hi : i.toNat < last.toNat := UInt64.lt_iff_toNat_lt.mp _h
  rw [toNat_succ_of_lt _h]
  omega

lemma readAt_of_lt {xs : List α} {i : ℕ} (h : i < xs.length) : readAt xs i = .ok xs[i] := by
  rw [readAt, List.getElem?_eq_getElem h]

/-! ### The counter -/

lemma increment_of_lt {count : ℤ} (h : count < 2 ^ 31 - 1) : increment count = .ok (count + 1) :=
  if_pos h

lemma increment_of_le {count : ℤ} (h : 2 ^ 31 - 1 ≤ count) : increment count = .error .overflow :=
  if_neg (Int.not_lt.mpr h)

/-- A conversion keeps what an `int` can represent, and nothing else. -/
lemma toInt_eq_self_iff {z : ℤ} : toInt z = z ↔ -2 ^ 31 ≤ z ∧ z < 2 ^ 31 := by
  constructor
  · intro h
    have hle : -((2 ^ 32 : ℕ) / 2 : ℤ) ≤ toInt z := Int.le_bmod (by decide)
    have hlt : toInt z < ((2 ^ 32 : ℕ) + 1) / 2 := Int.bmod_lt (by decide)
    omega
  · rintro ⟨hle, hlt⟩
    exact Int.bmod_eq_of_le (by omega) (by omega)

lemma toInt_of_overflows {z : ℤ} (h : overflows z = false) : toInt z = z := by
  simpa [overflows] using h

lemma toInt_natCast {n : ℕ} (h : n < 2 ^ 31) : toInt n = n :=
  toInt_eq_self_iff.mpr ⟨by omega, by omega⟩

lemma overflows_of_le {z : ℤ} (h : 2 ^ 31 ≤ z) : overflows z = true := by
  rw [overflows, decide_eq_true_iff, Ne, toInt_eq_self_iff]
  omega

lemma overflows_of_lt {z : ℤ} (hle : -2 ^ 31 ≤ z) (hlt : z < 2 ^ 31) : overflows z = false := by
  rw [overflows, decide_eq_false_iff_not, not_not]
  exact toInt_eq_self_iff.mpr ⟨hle, hlt⟩

/-- What is not negative gets no larger. -/
lemma toInt_le {z : ℤ} (h : 0 ≤ z) : toInt z ≤ z := by
  rw [toInt, Int.bmod_def]
  split_ifs <;> omega

/-! ### The loop -/

section

variable {body : UInt64 → σ → Except ε σ} {last i : UInt64} {s : σ} {xs : List α}

lemma foldWords_of_not_lt (h : ¬ i < last) : foldWords body last i s = .ok s := by
  rw [foldWords, dif_neg h]
  rfl

lemma foldWords_of_lt (h : i < last) :
    foldWords body last i s = body i s >>= foldWords body last (i + 1) := by
  rw [foldWords, dif_pos h]

/-- A loop over the indices of a list is a fold over its elements. -/
theorem foldWords_eq_foldlM (step : σ → α → Except ε σ) (hlen : xs.length < 2 ^ 64)
    (hbody : ∀ (i : UInt64) s (h : i.toNat < xs.length), body i s = step s xs[i.toNat]) (s : σ) :
    foldWords body (UInt64.ofNat xs.length) 0 s = xs.foldlM step s := by
  have hsize : (UInt64.ofNat xs.length).toNat = xs.length := UInt64.toNat_ofNat_of_lt' hlen
  -- from an index on, the loop goes through the rest of the list
  have hrest : ∀ (n : ℕ) (i : UInt64) s, xs.length - i.toNat = n →
      foldWords body (UInt64.ofNat xs.length) i s = (xs.drop i.toNat).foldlM step s := by
    intro n
    induction n with
    | zero =>
      intro i s hn
      have hi : ¬ i < UInt64.ofNat xs.length := by
        rw [UInt64.lt_iff_toNat_lt, hsize]
        omega
      rw [foldWords_of_not_lt hi, List.drop_eq_nil_of_le (by omega)]
      rfl
    | succ n ih =>
      intro i s hn
      have hlt : i.toNat < xs.length := by omega
      have hi : i < UInt64.ofNat xs.length := by rwa [UInt64.lt_iff_toNat_lt, hsize]
      have hsucc := toNat_succ_of_lt hi
      rw [foldWords_of_lt hi, hbody i s hlt, List.drop_eq_getElem_cons hlt, List.foldlM_cons]
      congr 1
      funext t
      rw [ih (i + 1) t (by omega), hsucc]
  exact hrest _ 0 s rfl

end

/-- Counting the elements of a list overflows exactly if there are too many of them. -/
theorem foldlM_increment [DecidableEq α] (c : α) (xs : List α) {n : ℕ} (hn : n < 2 ^ 31) :
    xs.foldlM (fun count x => if x = c then increment count else .ok count) (n : ℤ) =
      if n + xs.count c < 2 ^ 31 then .ok ((n + xs.count c : ℕ) : ℤ) else .error .overflow := by
  induction xs generalizing n with
  | nil =>
    rw [List.count_nil, Nat.add_zero, if_pos hn]
    rfl
  | cons x xs ih =>
    rw [List.foldlM_cons]
    by_cases hx : x = c
    · subst hx
      rw [if_pos rfl, List.count_cons_self]
      by_cases hlast : n + 1 < 2 ^ 31
      · rw [increment_of_lt (by omega)]
        have hrest := ih hlast
        rw [Nat.add_right_comm, Nat.add_assoc] at hrest
        exact_mod_cast hrest
      · rw [increment_of_le (by omega), if_neg (by omega)]
        rfl
    · rw [if_neg hx, List.count_cons_of_ne hx]
      exact ih hn

end Core
