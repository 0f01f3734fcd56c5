import CppArchitecture.Core.Method
import Mathlib.Data.Finmap
import Mathlib.Order.Lattice.Nat

/-!
# A heap of arrays

Blocks of elements that are allocated, read, written and deleted through pointers. A pointer is
the address of a block, or null. Every misuse of a pointer is an error: reading through null,
through a deleted block or past the end, and deleting what is not allocated.
-/

namespace Core

abbrev Addr := ℕ

/-- The allocated blocks. -/
abbrev Heap (T : Type) := Finmap fun _ : Addr => List T

abbrev Pointer := Option Addr

inductive HeapError where
  | nullPointer
  | danglingPointer
  | outOfBounds
  | badDelete
  deriving DecidableEq, Repr

/-- Where new blocks are put. -/
structure Allocator (T : Type) where
  address : Heap T → Addr
  fresh : ∀ h, address h ∉ h

variable {T : Type}

/-- The allocator that puts each block above all the others. -/
def Allocator.bump : Allocator T where
  address h := h.keys.sup id + 1
  fresh h hmem := by
    have hle := Finset.le_sup (f := id) (Finmap.mem_keys.mpr hmem)
    exact absurd hle (Nat.not_succ_le_self _)

/-- `p` is null and `xs` empty, or `p` points to a block with the elements `xs`. -/
def Holds (h : Heap T) : Pointer → List T → Prop
  | none, xs => xs = []
  | some a, xs => h.lookup a = some xs

namespace Heap

/-- The heap without the block behind `p`, if there is one. -/
def free (h : Heap T) : Pointer → Heap T
  | none => h
  | some a => h.erase a

/-- The heap with other elements in the block behind `p`. -/
def overwrite (h : Heap T) (p : Pointer) (xs : List T) : Heap T :=
  match p with
  | none => h
  | some a => h.insert a xs

/-- `new T[n]`, for a block that comes with the given elements. -/
def new (A : Allocator T) (elements : List T) : EStateM HeapError (Heap T) Pointer := do
  let h ← get
  set (h.insert (A.address h) elements)
  return A.address h

/-- `delete[] p` -/
def delete (p : Pointer) : EStateM HeapError (Heap T) PUnit := do
  match p with
  | none => return ⟨⟩
  | some a =>
    let h ← get
    if a ∈ h then set (h.free p) else throw .badDelete

/-- The block behind `p`. -/
def block (p : Pointer) : EStateM HeapError (Heap T) (List T) := do
  match p with
  | none => throw .nullPointer
  | some a =>
    match (← get).lookup a with
    | none => throw .danglingPointer
    | some xs => return xs

/-- Read `p[i]`. -/
def load (p : Pointer) (i : ℕ) : EStateM HeapError (Heap T) T := do
  let xs ← block p
  match xs[i]? with
  | none => throw .outOfBounds
  | some x => return x

/-- Write `p[i] = x`. -/
def store (p : Pointer) (i : ℕ) (x : T) : EStateM HeapError (Heap T) PUnit := do
  let xs ← block p
  if i < xs.length then modify fun h => h.overwrite p (xs.set i x) else throw .outOfBounds

/-- `std::copy_n(source, n, target)`, element by element. -/
def copyN (source target : Pointer) : ℕ → EStateM HeapError (Heap T) PUnit
  | 0 => return ⟨⟩
  | n + 1 => do
    copyN source target n
    let x ← load source n
    store target n x

/-- How a copy of elements ends early: on a misused pointer, or with an exception from the copy
of an element. -/
inductive CopyError where
  | heap (e : HeapError)
  | thrown
  deriving DecidableEq, Repr

/-- `std::copy_n(source, n, target)`, for elements whose copy throws at some positions. -/
def copyNThrowing (throwing : ℕ → Bool) (source target : Pointer) :
    ℕ → EStateM CopyError (Heap T) PUnit
  | 0 => return ⟨⟩
  | n + 1 => do
    copyNThrowing throwing source target n
    let x ← (load source n).adaptExcept .heap
    if throwing n then throw .thrown
    (store target n x).adaptExcept .heap

variable {h : Heap T} {a b : Addr} {p : Pointer} {xs ys : List T} {x : T} {i n : ℕ}

@[simp] lemma free_none : h.free none = h := rfl

@[simp] lemma free_some : h.free (some a) = h.erase a := rfl

@[simp] lemma overwrite_some : h.overwrite (some a) xs = h.insert a xs := rfl

lemma insert_lookup (hb : h.lookup a = some xs) : h.insert a xs = h := by
  apply Finmap.ext_lookup
  intro c
  by_cases hc : c = a
  · rw [hc, Finmap.lookup_insert, hb]
  · rw [Finmap.lookup_insert_of_ne _ hc]

lemma mem_of_lookup (hb : h.lookup a = some xs) : a ∈ h :=
  Finmap.mem_of_lookup_eq_some hb

lemma lookup_free_of_ne (hp : p ≠ some a) : (h.free p).lookup a = h.lookup a := by
  match p with
  | none => rfl
  | some b => exact Finmap.lookup_erase_ne fun hab => hp (congrArg some hab.symm)

lemma mem_free : b ∈ h.free p ↔ p ≠ some b ∧ b ∈ h := by
  match p with
  | none => simp
  | some a => simp [Finmap.mem_erase, eq_comm]

lemma free_insert (hp : p ≠ some a) : free (h.insert a xs) p = (h.free p).insert a xs := by
  match p with
  | none => rfl
  | some b =>
    apply Finmap.ext_lookup
    intro c
    have hab : a ≠ b := fun hab => hp (congrArg some hab.symm)
    by_cases hca : c = a
    · subst hca
      rw [free_some, Finmap.lookup_erase_ne hab, Finmap.lookup_insert, Finmap.lookup_insert]
    · rw [Finmap.lookup_insert_of_ne _ hca]
      by_cases hcb : c = b
      · subst hcb
        simp
      · rw [free_some, free_some, Finmap.lookup_erase_ne hcb, Finmap.lookup_erase_ne hcb,
          Finmap.lookup_insert_of_ne _ hca]

/-! ### Pointers to other blocks -/

end Heap

lemma Holds.insert {h : Heap T} {a : Addr} {p : Pointer} {xs ys : List T} (hp : Holds h p xs)
    (hne : p ≠ some a) : Holds (h.insert a ys) p xs := by
  match p with
  | none => exact hp
  | some b => exact (Finmap.lookup_insert_of_ne _ fun hab => hne (congrArg some hab)).trans hp

lemma Holds.free {h : Heap T} {p q : Pointer} {xs : List T} (hp : Holds h p xs)
    (hne : ∀ a, p = some a → q ≠ some a) : Holds (h.free q) p xs := by
  match p with
  | none => exact hp
  | some a => exact (Heap.lookup_free_of_ne (hne a rfl)).trans hp

/-! ### What the operations do -/

namespace Heap

variable {h : Heap T} {a b : Addr} {p : Pointer} {xs ys : List T} {x : T} {i n : ℕ}

lemma new_run (A : Allocator T) :
    (new A xs).run h = .ok (some (A.address h)) (h.insert (A.address h) xs) := rfl

lemma delete_run (hp : Holds h p xs) : (delete p).run h = .ok ⟨⟩ (h.free p) := by
  match p with
  | none => rfl
  | some a =>
    have ha : a ∈ h := mem_of_lookup hp
    simp [delete, ha]

lemma block_run (hb : h.lookup a = some xs) : (block (some a)).run h = .ok xs h := by
  simp [block, hb]

lemma load_run (hp : Holds h p xs) (hx : xs[i]? = some x) : (load p i).run h = .ok x h := by
  match p with
  | none =>
    obtain rfl : xs = [] := hp
    cases hx
  | some a =>
    simp only [load, EStateM.run_bind, block_run hp, hx, EStateM.run_pure]

lemma store_run (hp : Holds h p xs) (hi : i < xs.length) :
    (store p i x).run h = .ok ⟨⟩ (h.overwrite p (xs.set i x)) := by
  match p with
  | none =>
    obtain rfl : xs = [] := hp
    cases hi
  | some a => simp only [store, EStateM.run_bind, block_run hp, hi, if_true, EStateM.run_modify]

/-- Copying a whole array between different blocks overwrites the front of the target. -/
lemma copyN_run (hp : Holds h p xs) (hne : p ≠ some b) (hb : h.lookup b = some ys)
    (hn : n ≤ xs.length) (hy : n ≤ ys.length) :
    (copyN p (some b) n).run h = .ok ⟨⟩ (h.insert b (xs.take n ++ ys.drop n)) := by
  induction n with
  | zero =>
    rw [List.take_zero, List.drop_zero, List.nil_append, insert_lookup hb]
    rfl
  | succ n ih =>
    obtain ⟨x, hx⟩ : ∃ x, xs[n]? = some x := ⟨xs[n], List.getElem?_eq_getElem hn⟩
    have hlen : (xs.take n).length = n := List.length_take_of_le (Nat.le_of_succ_le hn)
    have hset : (xs.take n ++ ys.drop n).set n x = xs.take (n + 1) ++ ys.drop (n + 1) := by
      rw [List.set_append_right _ _ hlen.le, hlen, Nat.sub_self, List.drop_eq_getElem_cons hy,
        List.set_cons_zero, List.take_add_one, hx, Option.toList_some, List.append_assoc,
        List.singleton_append]
    simp only [copyN, EStateM.run_bind, ih (Nat.le_of_succ_le hn) (Nat.le_of_succ_le hy),
      load_run (hp.insert hne) hx]
    have htarget : Holds (h.insert b (xs.take n ++ ys.drop n)) (some b)
        (xs.take n ++ ys.drop n) := Finmap.lookup_insert _
    rw [store_run htarget (by simp [hlen]; omega), hset, overwrite_some, Finmap.insert_insert]

/-! ### Copies that throw -/

variable {throwing : ℕ → Bool} {q : Pointer} {k : ℕ}

/-- Without a throwing element it is the copy of before. -/
lemma copyNThrowing_of_forall_not (hno : ∀ i < n, throwing i = false) :
    (copyNThrowing throwing p q n : EStateM CopyError (Heap T) PUnit) =
      (copyN p q n).adaptExcept .heap := by
  induction n with
  | zero => rfl
  | succ n ih =>
    have hn : throwing n = false := hno n (Nat.lt_succ_self n)
    rw [copyNThrowing, copyN, ih fun i hi => hno i (Nat.lt_succ_of_lt hi)]
    simp only [adaptExcept_bind, hn]
    rfl

/-- The elements before the first that throws are in the target by then. -/
lemma copyNThrowing_run (hk : throwing k = true) (hfirst : ∀ i < k, throwing i = false)
    (hkn : k < n) (hp : Holds h p xs) (hne : p ≠ some b) (hb : h.lookup b = some ys)
    (hn : n ≤ xs.length) (hy : n ≤ ys.length) :
    (copyNThrowing throwing p (some b) n).run h =
      .error .thrown (h.insert b (xs.take k ++ ys.drop k)) := by
  induction n with
  | zero => cases hkn
  | succ n ih =>
    rcases Nat.lt_succ_iff_lt_or_eq.mp hkn with hlt | rfl
    · simp only [copyNThrowing, EStateM.run_bind, ih hlt (Nat.le_of_succ_le hn)
        (Nat.le_of_succ_le hy)]
    · have hcopy := copyN_run hp hne hb (Nat.le_of_succ_le hn) (Nat.le_of_succ_le hy)
      obtain ⟨x, hx⟩ : ∃ x, xs[k]? = some x := ⟨xs[k], List.getElem?_eq_getElem hn⟩
      have hload : (load p k).run (h.insert b (xs.take k ++ ys.drop k)) = .ok x _ :=
        load_run (hp.insert hne) hx
      simp only [copyNThrowing, copyNThrowing_of_forall_not hfirst, EStateM.run_bind,
        EStateM.run_adaptExcept, hcopy, hload, hk, if_true, run_throw]

end Heap

end Core
