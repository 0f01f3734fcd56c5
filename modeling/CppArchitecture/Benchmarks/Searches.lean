import CppArchitecture.Core.BinarySearch
import CppArchitecture.Core.Vec

/-!
# Benchmarked searches

The benchmarks search a vector of the numbers from zero on, once by halving and once from the
front. The former ends where a needle would be inserted, the latter where it is. For a needle that
is not negative there is no difference: it is among the numbers, or past all of them.
-/

namespace Benchmarks

open Core

section

variable {T : Type} (next : T → Except Undefined T)

/-- `std::ranges::copy(views::iota(first) | views::take(size), std::back_inserter(sorted))`, which
increments the number after each copy, the last included. -/
def copyIota (first : T) : ℕ → Vec T → Except Undefined (Vec T)
  | 0, sorted => .ok sorted
  | size + 1, sorted => do
    let second ← next first
    copyIota second size (sorted.pushBack first)

/-- `make_sorted_vector<T>`, for a type `T` with the increment `next`. -/
def makeSortedVector [OfNat T 0] (size : ℕ) : Except Undefined (Vec T) :=
  copyIota next 0 size (Vec.empty.reserve size)

end

/-- The algorithms the benchmarks call, which return the position of an iterator. -/
abbrev Finder := Vec ℤ → ℤ → Except Undefined ℕ

/-- `lower_bound` -/
def binary : Finder := fun haystack needle =>
  lowerBound (fun x => decide (x < needle)) haystack.elements

/-- `find` -/
def linear : Finder := fun haystack needle =>
  .ok (haystack.elements.findIdx fun x => decide (x = needle))

def minHaystackSize : ℤ := 1000

def maxHaystackSize : ℤ := 10000000

/-- `search_in_sorted_vector`, for the needle and the size of the haystack that are the arguments
of the benchmark. -/
def searchInSortedVector (finder : Finder) (range : ℤ × ℤ) : Except Undefined ℕ := do
  let needle := range.1
  let haystack ← makeSortedVector increment range.2.toNat
  finder haystack needle

/-- The loop of `generate_sizes`. The sizes stay far below the largest `long`. -/
def generateSizesFrom (haystack : ℤ) (hpos : 0 < haystack) : List (ℤ × ℤ) :=
  if _h : haystack ≤ maxHaystackSize then
    [haystack / 8, haystack / 2, haystack - 1, haystack + 1].map (fun needle => (needle, haystack))
      ++ generateSizesFrom (haystack * 100) (Int.mul_pos hpos (by decide))
  else []
termination_by (maxHaystackSize + 1 - haystack).toNat
decreasing_by omega

/-- `generate_sizes` -/
def generateSizes : List (ℤ × ℤ) := generateSizesFrom minHaystackSize (by decide)

/-- `binary_search_in_sorted_vector` of the first version. -/
def binarySearchInSortedVector : Except Undefined ℕ :=
  searchInSortedVector binary (2137, maxHaystackSize)

/-- `linear_search_in_sorted_vector` of the first version. -/
def linearSearchInSortedVector : Except Undefined ℕ :=
  searchInSortedVector linear (2137, maxHaystackSize)

/-- Both searches return the position of the needle, or the end if it is not in the haystack. -/
def SearchesAgree (size : ℕ) (needle : ℤ) : Prop :=
  ∃ haystack position, makeSortedVector increment size = .ok haystack ∧ haystack.size = size ∧
    binary haystack needle = .ok position ∧ linear haystack needle = .ok position ∧
    (needle < size → haystack.elements[position]? = some needle) ∧
    (size ≤ needle → position = haystack.size)

/-! ### The haystack -/

variable {size : ℕ} {needle : ℤ} {haystack : Vec ℤ}

/-- The copy appends the numbers from `first` on, without an overflow. -/
lemma copyIota_run (first : ℕ) (sorted : Vec ℤ) (hsize : first + size < 2 ^ 31) :
    ∃ haystack, copyIota increment first size sorted = .ok haystack ∧
      haystack.elements = sorted.elements ++ (List.range' first size).map Nat.cast := by
  induction size generalizing first sorted with
  | zero => exact ⟨sorted, rfl, (List.append_nil _).symm⟩
  | succ size ih =>
    have hnext : increment first = .ok ((first + 1 : ℕ) : ℤ) := by
      rw [increment_of_lt (by omega)]
      rfl
    have hrest : first + 1 + size < 2 ^ 31 := by omega
    obtain ⟨haystack, hcopy, helements⟩ := ih (first + 1) (sorted.pushBack first) hrest
    refine ⟨haystack, ?_, ?_⟩
    · rw [copyIota, hnext]
      exact hcopy
    · rw [helements, Vec.elements_pushBack, List.append_assoc, List.range'_succ, List.map_cons,
        List.singleton_append]

/-- A haystack holds the numbers below its size, in their order. -/
lemma makeSortedVector_run (hsize : size < 2 ^ 31) :
    ∃ haystack, makeSortedVector increment size = .ok haystack ∧
      haystack.elements = (List.range size).map Nat.cast := by
  obtain ⟨haystack, hcopy, helements⟩ :=
    copyIota_run 0 (Vec.empty.reserve size) (by rwa [Nat.zero_add])
  refine ⟨haystack, hcopy, ?_⟩
  rw [helements, Vec.elements_reserve, Vec.elements_empty, List.nil_append, List.range_eq_range']

/-- An element of a haystack is its position. -/
lemma getElem?_eq_some_iff (hhaystack : haystack.elements = (List.range size).map Nat.cast)
    {i : ℕ} {x : ℤ} : haystack.elements[i]? = some x ↔ i < size ∧ x = i := by
  rw [hhaystack, List.getElem?_map]
  rcases Nat.lt_or_ge i size with hi | hi
  · rw [List.getElem?_range hi, Option.map_some, Option.some.injEq, eq_comm]
    exact (and_iff_right hi).symm
  · rw [List.getElem?_eq_none (by rwa [List.length_range]), Option.map_none]
    exact ⟨nofun, fun h => absurd h.1 (Nat.not_lt.mpr hi)⟩

lemma length_elements (hhaystack : haystack.elements = (List.range size).map Nat.cast) :
    haystack.elements.length = size := by
  rw [hhaystack, List.length_map, List.length_range]

/-! ### The searches -/

/-- The numbers below the needle end at its position, or at the end. -/
lemma isPartitionPoint (hhaystack : haystack.elements = (List.range size).map Nat.cast)
    (hneedle : 0 ≤ needle) : IsPartitionPoint (fun x => decide (x < needle)) haystack.elements
      (min needle.toNat size) where
  le_length := by
    rw [length_elements hhaystack]
    exact Nat.min_le_right _ _
  less_iff i x hx := by
    obtain ⟨hi, rfl⟩ := (getElem?_eq_some_iff hhaystack).mp hx
    rw [decide_eq_true_iff]
    omega

/-- For a needle that is not negative both searches end there. -/
lemma searchesAgree (hsize : size < 2 ^ 31) (hneedle : 0 ≤ needle) :
    SearchesAgree size needle := by
  obtain ⟨haystack, hmake, hhaystack⟩ := makeSortedVector_run hsize
  have hlength := length_elements hhaystack
  have hpoint := isPartitionPoint hhaystack hneedle
  refine ⟨haystack, min needle.toNat size, hmake, hlength, lowerBound_run hpoint, ?_, ?_, ?_⟩
  · refine congrArg Except.ok (findIdx_eq_of_isPartitionPoint hpoint ?_ ?_)
    · intro x hless
      rw [decide_eq_true_iff] at hless
      exact decide_eq_false (ne_of_lt hless)
    · intro x hx
      obtain ⟨hlt, rfl⟩ := (getElem?_eq_some_iff hhaystack).mp hx
      -- the point is before the end, so it is the position of the needle
      rw [decide_eq_true_iff]
      omega
  · intro hlt
    rw [getElem?_eq_some_iff hhaystack]
    omega
  · intro hle
    rw [Vec.size, hlength]
    omega

/-- Searches that agree make the same benchmark. -/
lemma SearchesAgree.searchInSortedVector_eq {range : ℤ × ℤ}
    (h : SearchesAgree range.2.toNat range.1) :
    searchInSortedVector binary range = searchInSortedVector linear range := by
  obtain ⟨haystack, position, hmake, _, hbinary, hlinear, _⟩ := h
  rw [searchInSortedVector, searchInSortedVector, hmake]
  exact hbinary.trans hlinear.symm

/-! ### The arguments of the benchmarks -/

/-- The needles are not negative, and the sizes are within the bounds. -/
lemma mem_generateSizesFrom {first : ℤ} (hpos : 0 < first) {range : ℤ × ℤ}
    (h : range ∈ generateSizesFrom first hpos) :
    0 ≤ range.1 ∧ 0 < range.2 ∧ range.2 ≤ maxHaystackSize := by
  fun_induction generateSizesFrom first hpos with
  | case1 first hpos hle ih =>
    rcases List.mem_append.mp h with hmem | hmem
    · obtain ⟨needle, hneedle, rfl⟩ := List.mem_map.mp hmem
      refine ⟨?_, hpos, hle⟩
      simp only [List.mem_cons, List.not_mem_nil, or_false] at hneedle
      omega
    · exact ih hmem
  | case2 first hpos hgt => cases h

/-- The two searches return the same for every haystack whose size is an `int` and every needle
that is not negative, and so for the arguments of all the benchmarks. -/
theorem searches_agree :
    (∀ (size : ℕ) (needle : ℤ), size < 2 ^ 31 → 0 ≤ needle → SearchesAgree size needle) ∧
    (∀ range ∈ generateSizes, SearchesAgree range.2.toNat range.1 ∧
      searchInSortedVector binary range = searchInSortedVector linear range) ∧
    binarySearchInSortedVector = linearSearchInSortedVector := by
  refine ⟨fun size needle hsize hneedle => searchesAgree hsize hneedle, fun range hrange => ?_, ?_⟩
  · obtain ⟨hneedle, hpos, hle⟩ := mem_generateSizesFrom (by decide) hrange
    rw [maxHaystackSize] at hle
    have hagree : SearchesAgree range.2.toNat range.1 := searchesAgree (by omega) hneedle
    exact ⟨hagree, hagree.searchInSortedVector_eq⟩
  · apply SearchesAgree.searchInSortedVector_eq
    exact searchesAgree (by decide) (by decide)

/-- A needle past the end of a haystack of three. -/
theorem searches_agree_past_end : SearchesAgree 3 5 :=
  searches_agree.1 3 5 (by decide) (by decide)

end Benchmarks
