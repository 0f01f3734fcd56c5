import CppArchitecture.Core.Method
import Mathlib.Data.List.TakeWhile

/-!
# Input streams

A stream has the characters that are still to be read, and a flag that is lost at the first attempt
to read beyond the last of them. From then on nothing can be read until the flag is set again. The
functions below read into a fresh buffer, so that it stays empty where nothing is read.
-/

namespace Core

/-- A `std::istream`, where `good` is what `good()` returns. -/
@[ext]
structure IStream (α : Type) where
  rest : List α
  good : Bool := true
  deriving DecidableEq, Repr

namespace IStream

variable {α : Type}

/-- `in.get()`, where `none` is `EOF`. -/
def get (s : IStream α) : Option α × IStream α :=
  match s.good, s.rest with
  | true, c :: rest => (some c, { s with rest := rest })
  | true, [] => (none, { s with good := false })
  | false, _ => (none, s)

/-- `in.putback(c)` -/
def putback (c : α) (s : IStream α) : IStream α :=
  if s.good then { s with rest := c :: s.rest } else s

/-- `std::getline(in, line, delim)` -/
def getline [DecidableEq α] (delim : α) (s : IStream α) : List α × IStream α :=
  if s.good then
    (s.rest.takeWhile (· ≠ delim),
      match s.rest.dropWhile (· ≠ delim) with
      | _ :: rest => { s with rest := rest }
      | [] => ⟨[], false⟩)
  else ([], s)

/-- `in.read(buffer, count)` -/
def read (count : ℕ) (s : IStream α) : List α × IStream α :=
  if s.good then
    if count ≤ s.rest.length then (s.rest.take count, { s with rest := s.rest.drop count })
    else (s.rest, ⟨[], false⟩)
  else ([], s)

/-- `in.clear()` -/
def clear (s : IStream α) : IStream α := { s with good := true }

variable {s : IStream α} {c d : α} {xs ys : List α}

@[simp] lemma get_cons : (IStream.mk (c :: xs) true).get = (some c, ⟨xs, true⟩) := rfl

@[simp] lemma get_nil : (IStream.mk ([] : List α) true).get = (none, ⟨[], false⟩) := rfl

@[simp] lemma get_of_not_good : (IStream.mk xs false).get = (none, ⟨xs, false⟩) := by
  cases xs <;> rfl

/-- Nothing can be read from a stream that is not good. -/
lemma get_of_bad (h : s.good = false) : s.get = (none, s) := by
  obtain ⟨xs, good⟩ := s
  subst h
  exact get_of_not_good

lemma read_append : (IStream.mk (xs ++ ys) true).read xs.length = (xs, ⟨ys, true⟩) := by
  rw [read, if_pos rfl, if_pos (by simp)]
  simp

lemma read_of_lt {count : ℕ} (h : xs.length < count) :
    (IStream.mk xs true).read count = (xs, ⟨[], false⟩) := by
  rw [read, if_pos rfl, if_neg (by simpa using h)]

lemma length_read_le (count : ℕ) (s : IStream α) : (s.read count).1.length ≤ count := by
  rw [read]
  split_ifs with hgood hcount
  · rw [List.length_take]
    exact Nat.min_le_left _ _
  · exact (Nat.not_le.mp hcount).le
  · exact Nat.zero_le _

section

variable [DecidableEq α]

private lemma forall_ne (h : d ∉ xs) : ∀ c ∈ xs, decide (c ≠ d) = true := by
  intro c hc
  rw [decide_eq_true_iff]
  rintro rfl
  exact h hc

lemma getline_append (h : d ∉ xs) :
    (IStream.mk (xs ++ d :: ys) true).getline d = (xs, ⟨ys, true⟩) := by
  rw [getline, if_pos rfl]
  rw [List.takeWhile_append_of_pos (forall_ne h), List.dropWhile_append_of_pos (forall_ne h)]
  simp

lemma getline_of_notMem (h : d ∉ xs) : (IStream.mk xs true).getline d = (xs, ⟨[], false⟩) := by
  rw [getline, if_pos rfl]
  simp only [List.takeWhile_eq_self_iff.mpr (forall_ne h),
    List.dropWhile_eq_nil_iff.mpr (forall_ne h)]

/-- A line has no delimiter in it. -/
lemma notMem_getline (s : IStream α) : d ∉ (s.getline d).1 := by
  rw [getline]
  split_ifs with hgood
  · intro hd
    have hne := List.mem_takeWhile_imp hd
    simp at hne
  · exact List.not_mem_nil

end

end IStream

end Core
