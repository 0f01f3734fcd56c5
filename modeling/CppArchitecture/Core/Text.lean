import Mathlib.Data.List.Basic
import Mathlib.Data.List.Infix
import Mathlib.Tactic.Common

/-!
# Cutting text

A text is cut at the last occurrence of a character, which is searched from its end. What comes
after the cut is the only suffix without the character that the character precedes.
-/

namespace Core

variable {α : Type} [DecidableEq α]

/-- The last position below `n` at which `c` stands. -/
def findLastBefore (c : α) (xs : List α) : ℕ → Option ℕ
  | 0 => none
  | n + 1 => if xs[n]? = some c then some n else findLastBefore c xs n

/-- `xs.find_last_of(c)`, where `none` is `npos`. -/
def findLastOf (c : α) (xs : List α) : Option ℕ := findLastBefore c xs xs.length

/-- `xs.substr(pos)`, if it does not throw. -/
def substr (xs : List α) (pos : ℕ) : Option (List α) :=
  if pos ≤ xs.length then some (xs.drop pos) else none

/-- `xs.ends_with(suffix)` -/
def endsWith (xs suffix : List α) : Bool := decide (suffix <:+ xs)

variable {c : α} {xs ys stem e : List α} {n : ℕ}

lemma findLastBefore_append (h : n ≤ xs.length) :
    findLastBefore c (xs ++ ys) n = findLastBefore c xs n := by
  induction n with
  | zero => rfl
  | succ n ih =>
    rw [findLastBefore, findLastBefore, List.getElem?_append_left h, ih (Nat.le_of_succ_le h)]

lemma findLastOf_snoc (x : α) : findLastOf c (xs ++ [x]) =
    if x = c then some xs.length else findLastOf c xs := by
  rw [findLastOf, List.length_append, List.length_singleton, findLastBefore,
    findLastBefore_append le_rfl]
  simp [findLastOf]

lemma findLastOf_of_notMem (h : c ∉ xs) : findLastOf c xs = none := by
  induction xs using List.reverseRecOn with
  | nil => rfl
  | append_singleton xs x ih =>
    rw [List.mem_append, List.mem_singleton, not_or] at h
    rw [findLastOf_snoc, if_neg (Ne.symm h.2), ih h.1]

/-- The last occurrence is where nothing but a part without the character follows. -/
lemma findLastOf_append (h : c ∉ e) : findLastOf c (stem ++ c :: e) = some stem.length := by
  induction e using List.reverseRecOn with
  | nil => rw [findLastOf_snoc, if_pos rfl]
  | append_singleton e x ih =>
    rw [List.mem_append, List.mem_singleton, not_or] at h
    rw [← List.cons_append, ← List.append_assoc, findLastOf_snoc, if_neg (Ne.symm h.2), ih h.1]

/-- A text with the character in it can be cut at the last one. -/
lemma exists_last_cut (h : c ∈ xs) : ∃ stem e, xs = stem ++ c :: e ∧ c ∉ e := by
  induction xs using List.reverseRecOn with
  | nil => cases h
  | append_singleton xs x ih =>
    by_cases hx : x = c
    · exact ⟨xs, [], by rw [hx], List.not_mem_nil⟩
    · have hxs : c ∈ xs := by
        rcases List.mem_append.mp h with hxs | hcx
        · exact hxs
        · exact absurd (List.mem_singleton.mp hcx).symm hx
      obtain ⟨stem, e, rfl, he⟩ := ih hxs
      refine ⟨stem, e ++ [x], by simp, ?_⟩
      rw [List.mem_append, List.mem_singleton, not_or]
      exact ⟨he, Ne.symm hx⟩

/-- There is only one such cut. -/
lemma last_cut_unique {stem' e' : List α} (h : stem ++ c :: e = stem' ++ c :: e') (he : c ∉ e)
    (he' : c ∉ e') : stem = stem' ∧ e = e' := by
  have hlast : findLastOf c (stem ++ c :: e) = some stem.length := findLastOf_append he
  rw [h, findLastOf_append he'] at hlast
  obtain ⟨hstem, hrest⟩ := List.append_inj h (Option.some.inj hlast).symm
  exact ⟨hstem, List.tail_eq_of_cons_eq hrest⟩

omit [DecidableEq α] in
lemma substr_append : substr (stem ++ c :: e) (stem.length + 1) = some e := by
  rw [substr, if_pos (by simp)]
  simp

/-- A text ends with the character and some more exactly if it is cut so. -/
lemma endsWith_cons_iff : endsWith xs (c :: e) = true ↔ ∃ stem, xs = stem ++ c :: e := by
  rw [endsWith, decide_eq_true_iff]
  exact ⟨fun ⟨stem, h⟩ => ⟨stem, h.symm⟩, fun ⟨stem, h⟩ => ⟨stem, h.symm⟩⟩

end Core
