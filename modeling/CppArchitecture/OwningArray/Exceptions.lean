import CppArchitecture.OwningArray.Refinement

/-!
# Copies that throw

The copy of an element may throw, and so may the copy constructor of an array, after it has
allocated its block. The destructor of an array whose constructor has not returned does not run,
and `array_` is a plain pointer, so nothing deletes the block. Apart from it all is as before:
the copy is made before anything is given up.
-/

namespace OwningArray

open Core

variable {Name T : Type}

/-- A program fails as before, or with the exception of an element. -/
inductive Failure where
  | fault (f : Fault)
  | thrown
  deriving DecidableEq, Repr

/-- Copy elements on the heap. -/
def onHeapThrowing {α : Type} (x : EStateM Heap.CopyError (Heap T) α) :
    EStateM Failure (Memory Name T) α :=
  zoom (·.heap) (fun m h => { m with heap := h }) (x.adaptExcept fun
    | .heap e => .fault (.heap e)
    | .thrown => .thrown)

variable (A : Allocator T) (policy : DebugPrintingPolicy) (throwing : ℕ → Bool)

/-- `Array(const Array &other)`, where the copies of the elements at some positions throw. -/
def Array.copyConstructThrowing (other : Array) (fresh : ℕ → T) :
    EStateM Failure (Memory Name T) Array := do
  let array ← (newArray A other.size_ fresh).adaptExcept .fault
  let this : Array := ⟨array, other.size_⟩
  (print policy "copy constructor").adaptExcept .fault
  -- an exception from here leaves the constructor, without a destructor for `this`
  onHeapThrowing (Heap.copyNThrowing throwing other.array_ this.array_ this.size_)
  return this

variable [DecidableEq Name]

/-- The statements that copy may throw. -/
def performThrowing : Op Name T → EStateM Failure (Memory Name T) PUnit
  | .copyConstruct x other fresh => do
    (undeclared x).adaptExcept .fault
    let other ← (object other).adaptExcept .fault
    let this ← other.copyConstructThrowing A policy throwing fresh
    (setObject x this).adaptExcept .fault
  | .copyAssign x other fresh => do
    -- the parameter is constructed before `operator=` is entered
    let other ← (object other).adaptExcept .fault
    let param ← other.copyConstructThrowing A policy throwing fresh
    let this ← (object x).adaptExcept .fault
    let this ← (this.assign policy param).adaptExcept .fault
    (setObject x this).adaptExcept .fault
  | op => (perform A policy op).adaptExcept .fault

/-- The live arrays are well formed, and no two of them share a block. -/
structure UniquelyOwned (m : Memory Name T) : Prop where
  wellFormed : ∀ x this, m.arrays x = some this →
    ∃ xs, Holds m.heap this.array_ xs ∧ this.size_ = xs.length
  unshared : ∀ x y this that a, m.arrays x = some this → m.arrays y = some that →
    this.array_ = some a → that.array_ = some a → x = y

/-- Every live array has the block, the size and the contents it had. -/
structure Unchanged (m m' : Memory Name T) : Prop where
  arrays : m'.arrays = m.arrays
  contents : ∀ x this xs, m.arrays x = some this → Holds m.heap this.array_ xs →
    Holds m'.heap this.array_ xs

/-- The statement exits with the exception, every live array is what it was, and the allocated
blocks are those of before. -/
def ExceptionSafe (m : Memory Name T) (op : Op Name T) : Prop :=
  ∃ m', (performThrowing A policy throwing op).run m = .error .thrown m' ∧
    Unchanged m m' ∧ ∀ a, a ∈ m'.heap ↔ a ∈ m.heap

/-- The statement exits with the exception, every live array is what it was, and one block more
is allocated, which no array has. -/
def Leaks (m : Memory Name T) (op : Op Name T) : Prop :=
  ∃ m' a, (performThrowing A policy throwing op).run m = .error .thrown m' ∧ Unchanged m m' ∧
    a ∉ m.heap ∧ (∀ b, b ∈ m'.heap ↔ b = a ∨ b ∈ m.heap) ∧
    ∀ x this, m'.arrays x = some this → this.array_ ≠ some a

variable {A policy throwing} {m : Memory Name T} {v : Values Name T} {x y : Name} {op : Op Name T}
  {other : Array} {xs : List T} {fresh : ℕ → T} {k : ℕ}

omit [DecidableEq Name] in
/-- So are the arrays that represent values. -/
lemma Represents.uniquelyOwned (hr : Represents m v) : UniquelyOwned m where
  wellFormed x this hx := by
    obtain ⟨xs, hv⟩ : ∃ xs, v x = some xs := by
      rw [← Option.ne_none_iff_exists', Ne, ← hr.arrays_eq_none_iff, hx]
      exact Option.some_ne_none _
    obtain ⟨that, hthat, hsize, hh⟩ := hr.exists_array hv
    obtain rfl : this = that := Option.some.inj (hx.symm.trans hthat)
    exact ⟨xs, hh, hsize⟩
  unshared := hr.refines.unshared

/-- A leak is not safe. -/
lemma Leaks.not_exceptionSafe (h : Leaks A policy throwing m op) :
    ¬ ExceptionSafe A policy throwing m op := by
  obtain ⟨m₁, a, hrun₁, _, ha, hmem, _⟩ := h
  rintro ⟨m₂, hrun₂, _, hsame⟩
  rw [hrun₁] at hrun₂
  cases hrun₂
  exact ha ((hsame a).mp ((hmem a).mpr (.inl rfl)))

/-! ### The copies -/

omit [DecidableEq Name] in
/-- The constructor exits with its block allocated, and a part of the elements in it. -/
lemma Array.copyConstructThrowing_run (A : Allocator T) (policy : DebugPrintingPolicy)
    (fresh : ℕ → T) (hp : Holds m.heap other.array_ xs) (hsize : other.size_ = xs.length)
    (hk : k < other.size_) (hthrow : throwing k = true) :
    ∃ ys output, (other.copyConstructThrowing A policy throwing fresh).run m =
      .error .thrown ⟨m.heap.insert (A.address m.heap) ys, m.arrays, output⟩ := by
  classical
  -- the first position that throws
  have hex : ∃ i, throwing i = true := ⟨k, hthrow⟩
  have hlt : Nat.find hex < other.size_ := (Nat.find_min' hex hthrow).trans_lt hk
  have hfirst : ∀ i < Nat.find hex, throwing i = false := fun i hi => by
    simpa using Nat.find_min hex hi
  have hne : other.array_ ≠ some (A.address m.heap) := by
    intro heq
    rw [heq] at hp
    exact A.fresh m.heap (Heap.mem_of_lookup hp)
  have hnew : (m.heap.insert (A.address m.heap) ((List.range other.size_).map fresh)).lookup
      (A.address m.heap) = some ((List.range other.size_).map fresh) := Finmap.lookup_insert _
  have hcopy := Heap.copyNThrowing_run (Nat.find_spec hex) hfirst hlt (hp.insert hne) hne hnew
    hsize.le (by simp)
  refine ⟨xs.take (Nat.find hex) ++ ((List.range other.size_).map fresh).drop (Nat.find hex),
    m.output ++ policy "copy constructor", ?_⟩
  rw [Finmap.insert_insert] at hcopy
  simp only [copyConstructThrowing, EStateM.run_bind, EStateM.run_adaptExcept, newArray_run,
    print_run, onHeapThrowing, run_zoom, hcopy]

omit [DecidableEq Name] in
/-- A block at a new address is no array's, and changes none. -/
lemma UniquelyOwned.insert (hm : UniquelyOwned m) {a : Addr} (ha : a ∉ m.heap) (ys : List T)
    (output : List String) : Unchanged m ⟨m.heap.insert a ys, m.arrays, output⟩ ∧
      ∀ x this, m.arrays x = some this → this.array_ ≠ some a := by
  have hne : ∀ x this, m.arrays x = some this → this.array_ ≠ some a := by
    intro x this hx hthis
    obtain ⟨xs, hh, _⟩ := hm.wellFormed x this hx
    rw [hthis] at hh
    exact ha (Heap.mem_of_lookup hh)
  exact ⟨⟨rfl, fun x this xs hx hh => hh.insert (hne x this hx)⟩, hne⟩

/-- Where the memory is left with a new block, it is leaked. -/
lemma leaks_of_run (hm : UniquelyOwned m) {ys : List T} {output : List String}
    (hrun : (performThrowing A policy throwing op).run m =
      .error .thrown ⟨m.heap.insert (A.address m.heap) ys, m.arrays, output⟩) :
    Leaks A policy throwing m op := by
  have ha := A.fresh m.heap
  obtain ⟨hsame, hne⟩ := hm.insert ha ys output
  exact ⟨_, A.address m.heap, hrun, hsame, ha, fun b => Finmap.mem_insert, hne⟩

/-- A copy construction that throws leaks the block of the copy. -/
lemma copyConstruct_leaks (hm : UniquelyOwned m) (hx : m.arrays x = none)
    (hy : m.arrays y = some other) (hk : k < other.size_) (hthrow : throwing k = true) :
    Leaks A policy throwing m (.copyConstruct x y fresh) := by
  obtain ⟨xs, hh, hsize⟩ := hm.wellFormed y other hy
  obtain ⟨ys, output, hcopy⟩ := Array.copyConstructThrowing_run A policy fresh hh hsize hk
    hthrow
  have hrun : (performThrowing A policy throwing (.copyConstruct x y fresh)).run m =
      .error .thrown ⟨m.heap.insert (A.address m.heap) ys, m.arrays, output⟩ := by
    simp only [performThrowing, EStateM.run_bind, EStateM.run_adaptExcept, undeclared_run hx,
      object_run hy, hcopy]
  exact leaks_of_run hm hrun

/-- So does an assignment whose parameter throws, before it touches the array assigned to. -/
lemma copyAssign_leaks (hm : UniquelyOwned m) (hy : m.arrays y = some other)
    (hk : k < other.size_) (hthrow : throwing k = true) :
    Leaks A policy throwing m (.copyAssign x y fresh) := by
  obtain ⟨xs, hh, hsize⟩ := hm.wellFormed y other hy
  obtain ⟨ys, output, hcopy⟩ := Array.copyConstructThrowing_run A policy fresh hh hsize hk
    hthrow
  have hrun : (performThrowing A policy throwing (.copyAssign x y fresh)).run m =
      .error .thrown ⟨m.heap.insert (A.address m.heap) ys, m.arrays, output⟩ := by
    simp only [performThrowing, EStateM.run_bind, EStateM.run_adaptExcept, object_run hy, hcopy]
  exact leaks_of_run hm hrun

/-- A copy that throws is never safe: it always leaks its block, and nothing else is changed. -/
theorem throwing_copies_leak (hm : UniquelyOwned m) (hy : m.arrays y = some other)
    (hk : k < other.size_) (hthrow : throwing k = true) (fresh : ℕ → T) :
    (m.arrays x = none → Leaks A policy throwing m (.copyConstruct x y fresh) ∧
      ¬ ExceptionSafe A policy throwing m (.copyConstruct x y fresh)) ∧
    ((m.arrays x).isSome → Leaks A policy throwing m (.copyAssign x y fresh) ∧
      ¬ ExceptionSafe A policy throwing m (.copyAssign x y fresh)) := by
  constructor
  · intro hx
    have hleak : Leaks A policy throwing m (.copyConstruct x y fresh) :=
      copyConstruct_leaks hm hx hy hk hthrow
    exact ⟨hleak, hleak.not_exceptionSafe⟩
  · intro _
    have hleak : Leaks A policy throwing m (.copyAssign x y fresh) :=
      copyAssign_leaks hm hy hk hthrow
    exact ⟨hleak, hleak.not_exceptionSafe⟩

/-! ### A memory with one array -/

/-- An array of two elements, named `0`. -/
def oneArray : Memory ℕ ℤ where
  heap := Finmap.insert 1 [5, 6] ∅
  arrays := Function.update (fun _ => none) 0 (some ⟨some 1, 2⟩)

lemma oneArray_uniquelyOwned : UniquelyOwned oneArray :=
  (Represents.empty.declare (x := 0) [] rfl Finmap.notMem_empty).uniquelyOwned

/-- The second element throws, as the array is assigned to itself. -/
theorem throwing_copies_leak_oneArray :
    ¬ ExceptionSafe .bump NullPrintingPolicy (fun i => i == 1) oneArray
      (.copyAssign 0 0 fun _ => 0) :=
  ((throwing_copies_leak (k := 1) (x := 0) oneArray_uniquelyOwned rfl (by decide) rfl
    fun _ => 0).2 rfl).2

/-- Copying the array leaks a block if its first element throws. -/
theorem copies_not_exceptionSafe : ¬ ∀ (policy : DebugPrintingPolicy) (throwing : ℕ → Bool)
    (m : Memory ℕ ℤ) (x y : ℕ) (other : Array) (fresh : ℕ → ℤ) (k : ℕ), UniquelyOwned m →
    m.arrays y = some other → k < other.size_ → throwing k = true →
    (m.arrays x = none → ExceptionSafe .bump policy throwing m (.copyConstruct x y fresh)) ∧
    ((m.arrays x).isSome → ExceptionSafe .bump policy throwing m (.copyAssign x y fresh)) := by
  intro hall
  have hsafe := (hall NullPrintingPolicy (fun _ => true) oneArray 1 0 ⟨some 1, 2⟩ (fun _ => 0) 0
    oneArray_uniquelyOwned rfl (by decide) rfl).1 rfl
  have hleak : Leaks .bump NullPrintingPolicy (fun _ => true) oneArray
      (.copyConstruct 1 0 fun _ => 0) :=
    copyConstruct_leaks (k := 0) oneArray_uniquelyOwned rfl rfl (by decide) rfl
  exact hleak.not_exceptionSafe hsafe

end OwningArray
