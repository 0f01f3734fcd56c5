import CppArchitecture.Core.Heap
import Mathlib.Logic.Equiv.Basic

/-!
# Owning pointers

Pointers own a heap if no two of them share a block and every block has one of them. The rules
say how the ownership is kept when a pointer takes over a new block, gives its block up, is
exchanged with another one, or has its block written to. They also say what happens to the
values of the pointers, the elements behind them: nothing but what would happen to plain values.
-/

namespace Core

variable {ι T : Type}

/-- The pointers `hold` own the blocks of the heap, and `value` is what they point to. -/
structure Owns (h : Heap T) (hold : ι → Pointer) (value : ι → List T) : Prop where
  holds : ∀ i, Holds h (hold i) (value i)
  unique : ∀ i j a, hold i = some a → hold j = some a → i = j
  held : ∀ a ∈ h, ∃ i, hold i = some a

namespace Owns

variable {h : Heap T} {hold : ι → Pointer} {value : ι → List T} {i j : ι} {a : Addr}
  {xs : List T}

lemma empty : Owns (∅ : Heap T) (fun _ : ι => none) fun _ => [] where
  holds i := rfl
  unique i j a hi := by cases hi
  held a ha := absurd ha (Finmap.notMem_empty)

lemma ne_of_notMem (ho : Owns h hold value) (ha : a ∉ h) (i : ι) : hold i ≠ some a := by
  intro hi
  have hlookup := ho.holds i
  rw [hi] at hlookup
  exact ha (Heap.mem_of_lookup hlookup)

variable [DecidableEq ι]

/-- A pointer that has no block takes over a new one. -/
lemma adopt (ho : Owns h hold value) (hi : hold i = none) (ha : a ∉ h) :
    Owns (h.insert a xs) (Function.update hold i (some a)) (Function.update value i xs) where
  holds j := by
    by_cases hj : j = i
    · subst hj
      simp only [Function.update_self]
      exact Finmap.lookup_insert _
    · simp only [Function.update_of_ne hj]
      exact (ho.holds j).insert (ho.ne_of_notMem ha j)
  unique j k b hj hk := by
    by_cases hji : j = i <;> by_cases hki : k = i
    · rw [hji, hki]
    · rw [hji, Function.update_self] at hj
      rw [Function.update_of_ne hki, ← hj] at hk
      exact absurd hk (ho.ne_of_notMem ha k)
    · rw [hki, Function.update_self] at hk
      rw [Function.update_of_ne hji, ← hk] at hj
      exact absurd hj (ho.ne_of_notMem ha j)
    · rw [Function.update_of_ne hji] at hj
      rw [Function.update_of_ne hki] at hk
      exact ho.unique j k b hj hk
  held b hb := by
    rcases Finmap.mem_insert.mp hb with rfl | hb
    · exact ⟨i, Function.update_self i _ _⟩
    · obtain ⟨j, hj⟩ := ho.held b hb
      have hji : j ≠ i := by
        rintro rfl
        rw [hi] at hj
        cases hj
      exact ⟨j, (Function.update_of_ne hji _ _).trans hj⟩

/-- A pointer gives up its block, which is deleted. -/
lemma release (ho : Owns h hold value) (i : ι) :
    Owns (h.free (hold i)) (Function.update hold i none) (Function.update value i []) where
  holds j := by
    by_cases hj : j = i
    · subst hj
      simp only [Function.update_self]
      rfl
    · simp only [Function.update_of_ne hj]
      exact (ho.holds j).free fun b hb hib => hj (ho.unique j i b hb hib)
  unique j k b hj hk := by
    have hji : j ≠ i := by
      rintro rfl
      rw [Function.update_self] at hj
      cases hj
    have hki : k ≠ i := by
      rintro rfl
      rw [Function.update_self] at hk
      cases hk
    rw [Function.update_of_ne hji] at hj
    rw [Function.update_of_ne hki] at hk
    exact ho.unique j k b hj hk
  held b hb := by
    obtain ⟨hib, hbh⟩ := Heap.mem_free.mp hb
    obtain ⟨j, hj⟩ := ho.held b hbh
    have hji : j ≠ i := by
      rintro rfl
      exact hib hj
    exact ⟨j, (Function.update_of_ne hji _ _).trans hj⟩

/-- Two pointers exchange their blocks, and so their values. -/
lemma swap (ho : Owns h hold value) (i j : ι) :
    Owns h (hold ∘ Equiv.swap i j) (value ∘ Equiv.swap i j) where
  holds k := ho.holds _
  unique k l a hk hl := (Equiv.swap i j).injective (ho.unique _ _ a hk hl)
  held a ha := by
    obtain ⟨k, hk⟩ := ho.held a ha
    exact ⟨Equiv.swap i j k, by rwa [Function.comp_apply, Equiv.swap_apply_self]⟩

/-- Pointer `i` gives up its block and takes the one of pointer `j`, which becomes null. Moving a
pointer to itself changes nothing. -/
lemma move (ho : Owns h hold value) (i j : ι) :
    Owns (h.free (Function.update hold j none i))
      (Function.update (Function.update hold j none) i (hold j))
      (Function.update (Function.update value j []) i (value j)) := by
  by_cases hij : i = j
  · subst hij
    simpa using ho
  · have hmoved := (ho.release i).swap j i
    rw [Equiv.comp_swap_eq_update, Equiv.comp_swap_eq_update] at hmoved
    simpa [Function.update_of_ne hij, Function.update_of_ne (Ne.symm hij),
      Function.update_comm hij] using hmoved

/-- Writing to the block of a pointer changes the value of no other one. -/
lemma overwrite (ho : Owns h hold value) (hi : hold i = some a) :
    Owns (h.insert a xs) hold (Function.update value i xs) where
  holds j := by
    by_cases hj : j = i
    · subst hj
      rw [hi, Function.update_self]
      exact Finmap.lookup_insert _
    · rw [Function.update_of_ne hj]
      exact (ho.holds j).insert fun hja => hj (ho.unique j i a hja hi)
  unique := ho.unique
  held b hb := by
    rcases Finmap.mem_insert.mp hb with rfl | hb
    · exact ⟨i, hi⟩
    · exact ho.held b hb

end Owns

end Core
