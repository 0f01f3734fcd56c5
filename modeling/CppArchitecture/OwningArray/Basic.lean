import CppArchitecture.Core.Heap
import Mathlib.Logic.Function.Basic

/-!
# The owning array

`Array<T, DebugPrintingPolicy>` owns a block of the heap: its copy constructor allocates, its
destructor deletes, and `operator=` takes its operand by value, exchanges the two arrays and lets
the parameter delete what was there before. The array without a policy is the one that prints
nothing.
-/

namespace OwningArray

open Core

/-- `DebugPrintingPolicy`: the lines written for a text. -/
abbrev DebugPrintingPolicy := String → List String

def NullPrintingPolicy : DebugPrintingPolicy := fun _ => []

def CoutPrintingPolicy : DebugPrintingPolicy := fun text => [text]

/-- The data members of an `Array`. -/
structure Array where
  array_ : Pointer
  size_ : ℕ
  deriving DecidableEq

/-- A program fails on a heap error, or by naming an array that is not there (or naming one
that is there already). -/
inductive Fault where
  | heap (e : HeapError)
  | noArray
  | alreadyDeclared
  deriving DecidableEq, Repr

/-- The heap, the live arrays under their names, and the text printed so far. -/
structure Memory (Name T : Type) where
  heap : Heap T := ∅
  arrays : Name → Option Array := fun _ => none
  output : List String := []

variable {Name T : Type}

def onHeap {α : Type} (x : EStateM HeapError (Heap T) α) : EStateM Fault (Memory Name T) α :=
  zoom (·.heap) (fun m h => { m with heap := h }) (x.adaptExcept .heap)

variable (A : Allocator T) (policy : DebugPrintingPolicy)

def print (text : String) : EStateM Fault (Memory Name T) PUnit :=
  modify fun m => { m with output := m.output ++ policy text }

/-- `new T[size]`, where `fresh` is what the block happens to hold. -/
def newArray (size : ℕ) (fresh : ℕ → T) : EStateM Fault (Memory Name T) Pointer :=
  onHeap (Heap.new A ((List.range size).map fresh))

namespace Array

/-- `Array(T *array, int size)` -/
def construct (array : Pointer) (size : ℕ) : EStateM Fault (Memory Name T) Array := do
  let this : Array := ⟨array, size⟩
  print policy "constructor"
  return this

/-- `Array(const Array &other)` -/
def copyConstruct (other : Array) (fresh : ℕ → T) : EStateM Fault (Memory Name T) Array := do
  let array ← newArray A other.size_ fresh
  let this : Array := ⟨array, other.size_⟩
  print policy "copy constructor"
  onHeap (Heap.copyN other.array_ this.array_ this.size_)
  return this

/-- `Array(Array &&other)`, with what it leaves of `other`. -/
def moveConstruct (other : Array) : EStateM Fault (Memory Name T) (Array × Array) := do
  let this : Array := ⟨other.array_, other.size_⟩
  let other : Array := ⟨none, 0⟩
  print policy "move constructor"
  return (this, other)

/-- `swap(Array &left, Array &right)` -/
def swap (left right : Array) : EStateM Fault (Memory Name T) (Array × Array) := do
  print policy "swap"
  return (⟨right.array_, right.size_⟩, ⟨left.array_, left.size_⟩)

/-- `~Array()` -/
def destroy (this : Array) : EStateM Fault (Memory Name T) PUnit := do
  print policy "destructor"
  onHeap (Heap.delete this.array_)

/-- `operator=(Array other)`, at whose end the parameter is destroyed. -/
def assign (this other : Array) : EStateM Fault (Memory Name T) Array := do
  print policy "assignment operator"
  let (this, other) ← swap policy this other
  destroy policy other
  return this

/-- `operator[]`, read from. -/
def read (this : Array) (index : ℕ) : EStateM Fault (Memory Name T) T :=
  onHeap (Heap.load this.array_ index)

/-- `operator[]`, assigned to. -/
def write (this : Array) (index : ℕ) (value : T) : EStateM Fault (Memory Name T) PUnit :=
  onHeap (Heap.store this.array_ index value)

def size (this : Array) : ℕ := this.size_

end Array

def makeArray (size : ℕ) (fresh : ℕ → T) : EStateM Fault (Memory Name T) Array := do
  Array.construct policy (← newArray A size fresh) size

/-! ### What the member functions do -/

variable {A policy} {m : Memory Name T} {this other : Array} {xs : List T} {fresh : ℕ → T}
  {n i : ℕ} {value : T}

lemma onHeap_ok {α : Type} {x : EStateM HeapError (Heap T) α} {a : α} {h k : Heap T}
    {arrays : Name → Option Array} {output : List String} (hx : x.run h = .ok a k) :
    (onHeap x).run ⟨h, arrays, output⟩ = .ok a ⟨k, arrays, output⟩ := by
  refine run_zoom_ok (p := k) ?_
  simp [EStateM.run_adaptExcept, hx]

@[simp] lemma print_run (text : String) : (print policy text).run m =
    .ok ⟨⟩ { m with output := m.output ++ policy text } := rfl

lemma newArray_run : (newArray A n fresh).run m = .ok (some (A.address m.heap))
    { m with heap := m.heap.insert (A.address m.heap) ((List.range n).map fresh) } :=
  onHeap_ok (Heap.new_run A)

lemma makeArray_run : (makeArray A policy n fresh).run m =
    .ok ⟨some (A.address m.heap), n⟩
      { m with
        heap := m.heap.insert (A.address m.heap) ((List.range n).map fresh)
        output := m.output ++ policy "constructor" } := by
  simp only [makeArray, EStateM.run_bind, newArray_run, Array.construct, print_run,
    EStateM.run_pure]

namespace Array

/-- The copy owns a new block, with the elements of the original in it. -/
lemma copyConstruct_run (hp : Holds m.heap other.array_ xs) (hsize : other.size_ = xs.length) :
    (copyConstruct A policy other fresh).run m =
      .ok ⟨some (A.address m.heap), xs.length⟩
        { m with
          heap := m.heap.insert (A.address m.heap) xs
          output := m.output ++ policy "copy constructor" } := by
  have hne : other.array_ ≠ some (A.address m.heap) := by
    intro heq
    rw [heq] at hp
    exact A.fresh m.heap (Heap.mem_of_lookup hp)
  have hnew : (m.heap.insert (A.address m.heap) ((List.range xs.length).map fresh)).lookup
      (A.address m.heap) = some ((List.range xs.length).map fresh) := Finmap.lookup_insert _
  have hcopy := Heap.copyN_run (hp.insert hne) hne hnew le_rfl (by simp)
  rw [Finmap.insert_insert, List.take_length, List.drop_eq_nil_of_le (by simp),
    List.append_nil] at hcopy
  simp only [copyConstruct, EStateM.run_bind, hsize, newArray_run, print_run, onHeap_ok hcopy,
    EStateM.run_pure]

lemma moveConstruct_run : (moveConstruct policy other).run m =
    .ok (other, ⟨none, 0⟩) { m with output := m.output ++ policy "move constructor" } := rfl

lemma swap_run : (swap policy this other).run m =
    .ok (other, this) { m with output := m.output ++ policy "swap" } := rfl

/-- The destructor deletes the block of the array, if it has one. -/
lemma destroy_run (hp : Holds m.heap this.array_ xs) : (destroy policy this).run m =
    .ok ⟨⟩ { m with
      heap := m.heap.free this.array_
      output := m.output ++ policy "destructor" } := by
  simp only [destroy, EStateM.run_bind, print_run]
  exact onHeap_ok (Heap.delete_run hp)

/-- Assignment hands over the block of the parameter and deletes the one that was there. -/
lemma assign_run (hp : Holds m.heap this.array_ xs) : (assign policy this other).run m =
    .ok other { m with
      heap := m.heap.free this.array_
      output := m.output ++ policy "assignment operator" ++ policy "swap" ++
        policy "destructor" } := by
  simp only [assign, EStateM.run_bind, print_run, swap_run]
  simp only [destroy, EStateM.run_bind, print_run, onHeap_ok (Heap.delete_run hp),
    EStateM.run_pure]

lemma read_run (hp : Holds m.heap this.array_ xs) (hx : xs[i]? = some value) :
    (read this i).run m = .ok value m :=
  onHeap_ok (Heap.load_run hp hx)

lemma write_run (hp : Holds m.heap this.array_ xs) (hi : i < xs.length) :
    (write this i value).run m =
      .ok ⟨⟩ { m with heap := m.heap.overwrite this.array_ (xs.set i value) } :=
  onHeap_ok (Heap.store_run hp hi)

end Array

end OwningArray
