import CppArchitecture.Core.Integers

/-!
# Counting dots

Two versions of `count_dots`: a loop over the characters with a counter of type `int`, and a call
of `std::count`, whose result is converted to `int`. For a string with more dots than an `int`
can represent the counter of the loop overflows, and the conversion makes another number of the
result. Otherwise both count the dots.
-/

namespace Dots

open Core

namespace BadDots

/-- `if (str[i] == '.') count++;` -/
def countAt (str : List Char) (i : UInt64) (count : ℤ) : Except Undefined ℤ := do
  let c ← readAt str i.toNat
  if c = '.' then increment count else return count

/-- `count_dots(const char *str, std::size_t len)` -/
def countDots (str : List Char) (len : UInt64) : Except Undefined ℤ :=
  foldWords (countAt str) len 0 0

end BadDots

/-- `count_dots(std::string_view str)` -/
def GoodDots.countDots (str : List Char) : ℤ := toInt (str.count '.')

/-- Both versions return the number of dots. -/
def CountersExact (str : List Char) : Prop :=
  BadDots.countDots str (UInt64.ofNat str.length) = .ok (str.count '.' : ℤ) ∧
    GoodDots.countDots str = str.count '.'

variable {str : List Char}

/-- The loop counts up to the largest `int`. -/
lemma BadDots.countDots_eq (hlen : str.length < 2 ^ 64) :
    countDots str (UInt64.ofNat str.length) =
      if str.count '.' < 2 ^ 31 then .ok (str.count '.' : ℤ) else .error .overflow := by
  have hcount := foldlM_increment '.' str (Nat.two_pow_pos 31)
  rw [Nat.zero_add] at hcount
  refine Eq.trans (foldWords_eq_foldlM _ hlen ?_ 0) hcount
  intro i count h
  rw [countAt, readAt_of_lt h]
  rfl

lemma GoodDots.countDots_eq_iff : countDots str = str.count '.' ↔ str.count '.' < 2 ^ 31 := by
  rw [countDots, toInt_eq_self_iff]
  omega

/-- The counters are exact for the strings with fewer than 2^31 dots, and for these only. -/
theorem countersExact_iff (hlen : str.length < 2 ^ 63) :
    CountersExact str ↔ str.count '.' < 2 ^ 31 := by
  rw [CountersExact, GoodDots.countDots_eq_iff, BadDots.countDots_eq (by omega)]
  constructor
  · intro h
    exact h.2
  · intro h
    exact ⟨if_pos h, h⟩

/-- A path with three dots. -/
theorem countersExact_iff_path : CountersExact "../image.png".toList :=
  (countersExact_iff (by decide)).mpr (by decide)

/-- A string of 2^31 dots is too much for both. -/
theorem counters_overflow :
    ¬ ∀ str : List Char, str.length < 2 ^ 63 → CountersExact str := by
  intro hall
  have hexact : ∀ n, n < 2 ^ 63 → n < 2 ^ 31 := by
    intro n hn
    have hdots := hall (List.replicate n '.') (by rwa [List.length_replicate])
    have hcount := GoodDots.countDots_eq_iff.mp hdots.2
    rwa [List.count_replicate_self] at hcount
  exact absurd (hexact (2 ^ 31) (by decide)) (Nat.lt_irrefl _)

end Dots
