import CppArchitecture.Core.Ownership
import CppArchitecture.OwningArray.Values

/-!
# Owning arrays refine values

The live arrays own the heap, and what they own are the values of their names. Every member
function keeps this, so a program that makes sense on values runs on the arrays without a heap
error, shares and leaks no block, and reads the elements it would read from plain values.
-/

namespace OwningArray

open Core

variable {Name T : Type} {A : Allocator T} {policy : DebugPrintingPolicy}

/-- The pointer of the array named `x`. -/
def pointers (arrays : Name → Option Array) (x : Name) : Pointer := (arrays x).bind (·.array_)

/-- The elements of the value of `x`. -/
def elements (v : Values Name T) (x : Name) : List T := (v x).getD []

lemma pointers_of_some {arrays : Name → Option Array} {x : Name} {this : Array}
    (hx : arrays x = some this) : pointers arrays x = this.array_ := by
  simp [pointers, hx]

lemma elements_of_some {v : Values Name T} {x : Name} {xs : List T} (hx : v x = some xs) :
    elements v x = xs := by
  simp [elements, hx]

/-- The arrays that are live own the heap, and hold the values. -/
structure Represents (m : Memory Name T) (v : Values Name T) : Prop where
  owns : Owns m.heap (pointers m.arrays) (elements v)
  sizes : ∀ x, Option.Rel (fun this xs => this.size_ = xs.length) (m.arrays x) (v x)

/-- Nothing is shared, leaked or left behind, and the arrays read like the values. -/
structure Refines (m : Memory Name T) (v : Values Name T) : Prop where
  declared : ∀ x, (m.arrays x).isSome ↔ (v x).isSome
  wellFormed : ∀ x this, m.arrays x = some this → (this.array_ = none ∧ this.size = 0) ∨
    ∃ a block, this.array_ = some a ∧ m.heap.lookup a = some block ∧ block.length = this.size
  unshared : ∀ x y this that a, m.arrays x = some this → m.arrays y = some that →
    this.array_ = some a → that.array_ = some a → x = y
  held : ∀ a ∈ m.heap, ∃ x this, m.arrays x = some this ∧ this.array_ = some a
  reads : ∀ x this xs, m.arrays x = some this → v x = some xs → this.size = xs.length ∧
    ∀ i value, xs[i]? = some value → (this.read i).run m = .ok value m

namespace Represents

variable {m : Memory Name T} {v : Values Name T} {x y : Name} {this : Array} {xs : List T}

lemma empty : Represents ({} : Memory Name T) (fun _ => none) where
  owns := Owns.empty
  sizes _ := .none

lemma arrays_eq_none_iff (hr : Represents m v) : m.arrays x = none ↔ v x = none := by
  have hx := hr.sizes x
  constructor
  · intro hm
    rw [hm] at hx
    cases hv : v x with
    | none => rfl
    | some xs =>
      rw [hv] at hx
      cases hx
  · intro hv
    rw [hv] at hx
    cases hm : m.arrays x with
    | none => rfl
    | some this =>
      rw [hm] at hx
      cases hx

/-- The array behind a value: its size and what its pointer holds. -/
lemma exists_array (hr : Represents m v) (hv : v x = some xs) :
    ∃ this, m.arrays x = some this ∧ this.size_ = xs.length ∧ Holds m.heap this.array_ xs := by
  have hx := hr.sizes x
  have hh := hr.owns.holds x
  rw [pointers, elements, hv] at hh
  cases hm : m.arrays x with
  | none => exact absurd (hr.arrays_eq_none_iff.mp hm) (by simp [hv])
  | some this =>
    rw [hm] at hh hx
    rw [hv] at hx
    cases hx with
    | some hsize => exact ⟨this, rfl, hsize, hh⟩

lemma refines (hr : Represents m v) : Refines m v where
  declared x := by
    rw [← not_iff_not]
    simpa using hr.arrays_eq_none_iff
  wellFormed x this hm := by
    obtain ⟨xs, hv⟩ : ∃ xs, v x = some xs := by
      rw [← Option.ne_none_iff_exists', Ne, ← hr.arrays_eq_none_iff, hm]
      exact Option.some_ne_none _
    obtain ⟨that, hthat, hsize, hh⟩ := hr.exists_array hv
    obtain rfl : this = that := Option.some.inj (hm.symm.trans hthat)
    cases hp : this.array_ with
    | none =>
      rw [hp] at hh
      obtain rfl : xs = [] := hh
      exact .inl ⟨rfl, hsize⟩
    | some a =>
      rw [hp] at hh
      exact .inr ⟨a, xs, rfl, hh, hsize.symm⟩
  unshared x y this that a hx hy ha hb :=
    hr.owns.unique x y a ((pointers_of_some hx).trans ha) ((pointers_of_some hy).trans hb)
  held a ha := by
    obtain ⟨x, hx⟩ := hr.owns.held a ha
    obtain ⟨this, hm, hp⟩ := Option.bind_eq_some_iff.mp hx
    exact ⟨x, this, hm, hp⟩
  reads x this xs hm hv := by
    obtain ⟨that, hthat, hsize, hh⟩ := hr.exists_array hv
    obtain rfl : this = that := Option.some.inj (hm.symm.trans hthat)
    exact ⟨hsize, fun i value hvalue => Array.read_run hh hvalue⟩

end Represents

variable [DecidableEq Name]

/-! ### Updates of one name -/

section

variable {v : Values Name T} {x y : Name} {arrays : Name → Option Array} {this : Option Array}
  {xs : Option (List T)}

lemma pointers_update : pointers (Function.update arrays x this) =
    Function.update (pointers arrays) x (this.bind (·.array_)) := by
  funext y
  by_cases hy : y = x
  · subst hy
    simp [pointers]
  · simp [pointers, Function.update_of_ne hy]

lemma elements_update : elements (Function.update v x xs) =
    Function.update (elements v) x (xs.getD []) := by
  funext y
  by_cases hy : y = x
  · subst hy
    simp [elements]
  · simp [elements, Function.update_of_ne hy]

lemma sizes_update
    (hs : ∀ y, Option.Rel (fun this xs => this.size_ = xs.length) (arrays y) (v y))
    (hx : Option.Rel (fun this xs => this.size_ = xs.length) this xs) (y : Name) :
    Option.Rel (fun this xs => this.size_ = xs.length)
      (Function.update arrays x this y) (Function.update v x xs y) := by
  by_cases hy : y = x
  · subst hy
    simpa using hx
  · simpa [Function.update_of_ne hy] using hs y

end

/-! ### What the statements keep -/

namespace Represents

variable {m : Memory Name T} {v : Values Name T} {x y : Name} {this that : Array}
  {xs ys : List T} {a : Addr}

/-- A new array takes over a new block. -/
lemma declare (hr : Represents m v) (output : List String) (hx : v x = none) (ha : a ∉ m.heap) :
    Represents ⟨m.heap.insert a xs, Function.update m.arrays x (some ⟨some a, xs.length⟩), output⟩
      (Function.update v x (some xs)) where
  owns := by
    have hnull : pointers m.arrays x = none := by
      rw [pointers, hr.arrays_eq_none_iff.mpr hx]
      rfl
    rw [pointers_update, elements_update]
    exact hr.owns.adopt hnull ha
  sizes := sizes_update hr.sizes (.some rfl)

/-- An array gives up its block and takes over a new one. -/
lemma replace (hr : Represents m v) (output : List String) (hx : m.arrays x = some this)
    (ha : a ∉ m.heap) :
    Represents ⟨Heap.free (m.heap.insert a xs) this.array_,
        Function.update m.arrays x (some ⟨some a, xs.length⟩), output⟩
      (Function.update v x (some xs)) where
  owns := by
    have hp := pointers_of_some hx
    have hne : this.array_ ≠ some a := hp ▸ hr.owns.ne_of_notMem ha x
    have hfree : a ∉ m.heap.free this.array_ := fun h => ha (Heap.mem_free.mp h).2
    rw [pointers_update, elements_update, Heap.free_insert hne]
    have howns := hr.owns.release x
    rw [hp] at howns
    simpa using howns.adopt (Function.update_self x _ _) hfree
  sizes := sizes_update hr.sizes (.some rfl)

/-- A block moves from one array to another, and the one that was there is given up. -/
lemma move (hr : Represents m v) (output : List String) (hy : m.arrays y = some that)
    (hv : v y = some ys) (hsize : that.size_ = ys.length) :
    Represents ⟨m.heap.free (pointers (Function.update m.arrays y (some ⟨none, 0⟩)) x),
        Function.update (Function.update m.arrays y (some ⟨none, 0⟩)) x (some that), output⟩
      (Function.update (Function.update v y (some [])) x (some ys)) where
  owns := by
    have howns := hr.owns.move x y
    rw [pointers_of_some hy, elements_of_some hv] at howns
    simp only [pointers_update, elements_update]
    exact howns
  sizes := sizes_update (sizes_update hr.sizes (.some rfl)) (.some hsize)

/-- Two arrays exchange their blocks. -/
lemma exchange (hr : Represents m v) (output : List String) (hx : m.arrays x = some this)
    (hy : m.arrays y = some that) (hvx : v x = some xs) (hvy : v y = some ys)
    (hsx : this.size_ = xs.length) (hsy : that.size_ = ys.length) :
    Represents ⟨m.heap,
        Function.update (Function.update m.arrays x (some that)) y (some this), output⟩
      (Function.update (Function.update v x (some ys)) y (some xs)) where
  owns := by
    have howns := hr.owns.swap y x
    rw [Equiv.comp_swap_eq_update, Equiv.comp_swap_eq_update] at howns
    rw [pointers_of_some hx, pointers_of_some hy, elements_of_some hvx,
      elements_of_some hvy] at howns
    simp only [pointers_update, elements_update]
    exact howns
  sizes := sizes_update (sizes_update hr.sizes (.some hsy)) (.some hsx)

/-- A write changes the value of its own array. -/
lemma written (hr : Represents m v) (hx : m.arrays x = some this) (hp : this.array_ = some a)
    (hlen : xs.length = this.size_) :
    Represents { m with heap := m.heap.insert a xs } (Function.update v x (some xs)) where
  owns := by
    rw [elements_update]
    exact hr.owns.overwrite ((pointers_of_some hx).trans hp)
  sizes y := by
    have hx' : Option.Rel (fun this xs => this.size_ = xs.length) (m.arrays x) (some xs) := by
      rw [hx]
      exact .some hlen.symm
    have hy := sizes_update (x := x) hr.sizes hx' y
    rwa [Function.update_eq_self] at hy

/-- An array gives up its block and is gone. -/
lemma gone (hr : Represents m v) (output : List String) (hx : m.arrays x = some this) :
    Represents ⟨m.heap.free this.array_, Function.update m.arrays x none, output⟩
      (Function.update v x none) where
  owns := by
    have hp := pointers_of_some hx
    rw [pointers_update, elements_update, ← hp]
    exact hr.owns.release x
  sizes := sizes_update hr.sizes .none

end Represents

/-! ### Statements and programs -/

section

variable {h : Heap T} {arrays : Name → Option Array} {output : List String} {x : Name}
  {this : Array}

omit [DecidableEq Name] in
lemma object_run (hx : arrays x = some this) :
    (object x).run (⟨h, arrays, output⟩ : Memory Name T) = .ok this ⟨h, arrays, output⟩ := by
  simp [object, hx]

omit [DecidableEq Name] in
lemma undeclared_run (hx : arrays x = none) :
    (undeclared x).run (⟨h, arrays, output⟩ : Memory Name T) = .ok ⟨⟩ ⟨h, arrays, output⟩ := by
  simp [undeclared, hx]

lemma setObject_run {this : Option Array} :
    (setObject x this).run (⟨h, arrays, output⟩ : Memory Name T) =
      .ok ⟨⟩ ⟨h, Function.update arrays x this, output⟩ := rfl

end

namespace Represents

variable {m : Memory Name T} {v v' : Values Name T} {op : Op Name T} {x : Name} {this : Array}

omit [DecidableEq Name] in
/-- The pointer of a live array is not a new address. -/
lemma ne_address (hr : Represents m v) (hx : m.arrays x = some this) :
    this.array_ ≠ some (A.address m.heap) := by
  have hne := hr.owns.ne_of_notMem (A.fresh m.heap) x
  rwa [pointers, hx] at hne

/-- An array can be read after a move, which has emptied it if it is the one moved from. -/
lemma exists_array_of_move {xs : List T} (hr : Represents m v) (y : Name) (hx : v x = some xs) :
    ∃ (this : Array) (zs : List T),
      Function.update m.arrays y (some ⟨none, 0⟩) x = some this ∧ Holds m.heap this.array_ zs := by
  by_cases hxy : x = y
  · exact ⟨⟨none, 0⟩, [], by rw [hxy, Function.update_self], rfl⟩
  · obtain ⟨this, hthis, -, hh⟩ := hr.exists_array hx
    exact ⟨this, xs, by rwa [Function.update_of_ne hxy], hh⟩

/-- A statement that makes sense on the values runs on the arrays, which then represent the
values it leaves. -/
lemma step (hr : Represents m v) (hop : valueMachine.step v op = some v') :
    ∃ m', (machine A policy).step m op = some m' ∧ Represents m' v' := by
  change v.perform op = some v' at hop
  simp only [machine, Machine.ofMethod_step]
  obtain ⟨h, arrays, output⟩ := m
  match op with
  | .makeArray x size fresh =>
    obtain ⟨hx, rfl⟩ := perform_makeArray_iff.mp hop
    refine ⟨_, ⟨⟨⟩, ?_⟩, hr.declare (output ++ policy "constructor") hx
      (A.fresh h)⟩
    simp only [perform, EStateM.run_bind, undeclared_run (hr.arrays_eq_none_iff.mpr hx),
      makeArray_run, setObject_run, List.length_map, List.length_range]
  | .copyConstruct x y fresh =>
    obtain ⟨hx, ys, hy, rfl⟩ := perform_copyConstruct_iff.mp hop
    obtain ⟨other, hother, hsize, hh⟩ := hr.exists_array hy
    refine ⟨_, ⟨⟨⟩, ?_⟩, hr.declare (output ++ policy "copy constructor") hx
      (A.fresh h)⟩
    simp only [perform, EStateM.run_bind, undeclared_run (hr.arrays_eq_none_iff.mpr hx),
      object_run hother, Array.copyConstruct_run hh hsize, setObject_run]
  | .moveConstruct x y =>
    obtain ⟨hx, ys, hy, rfl⟩ := perform_moveConstruct_iff.mp hop
    obtain ⟨other, hother, hsize, -⟩ := hr.exists_array hy
    have hmove := hr.move (x := x) (output ++ policy "move constructor")
      hother hy hsize
    have hxy : x ≠ y := by
      rintro rfl
      rw [hx] at hy
      cases hy
    have hnone : arrays x = none := hr.arrays_eq_none_iff.mpr hx
    have hnull : pointers (Function.update arrays y (some ⟨none, 0⟩)) x = none := by
      simp [pointers, Function.update_of_ne hxy, hnone]
    rw [hnull, Heap.free_none] at hmove
    refine ⟨_, ⟨⟨⟩, ?_⟩, hmove⟩
    simp only [perform, EStateM.run_bind, undeclared_run (hr.arrays_eq_none_iff.mpr hx),
      object_run hother, Array.moveConstruct_run, setObject_run]
  | .copyAssign x y fresh =>
    obtain ⟨xs, ys, hx, hy, rfl⟩ := perform_copyAssign_iff.mp hop
    obtain ⟨this, hthis, -, hhx⟩ := hr.exists_array hx
    obtain ⟨other, hother, hsize, hhy⟩ := hr.exists_array hy
    refine ⟨_, ⟨⟨⟩, ?_⟩, hr.replace (output ++ policy "copy constructor" ++
      policy "assignment operator" ++ policy "swap" ++ policy "destructor") hthis
      (A.fresh h)⟩
    have hassign : (Array.assign policy this ⟨some (A.address h), ys.length⟩).run
        ⟨h.insert (A.address h) ys, arrays, output ++ policy "copy constructor"⟩ = .ok _ _ :=
      Array.assign_run (hhx.insert (hr.ne_address hthis))
    simp only [perform, EStateM.run_bind, object_run hother, Array.copyConstruct_run hhy hsize,
      object_run hthis, hassign, setObject_run]
  | .moveAssign x y =>
    obtain ⟨xs, ys, hx, hy, rfl⟩ := perform_moveAssign_iff.mp hop
    obtain ⟨other, hother, hsize, -⟩ := hr.exists_array hy
    obtain ⟨this, zs, hthis, hh⟩ := hr.exists_array_of_move y hx
    have hmove := hr.move (x := x) (output ++ policy "move constructor" ++
      policy "assignment operator" ++ policy "swap" ++ policy "destructor") hother hy hsize
    rw [pointers, hthis] at hmove
    refine ⟨_, ⟨⟨⟩, ?_⟩, hmove⟩
    have hassign : (Array.assign policy this other).run
        ⟨h, Function.update arrays y (some ⟨none, 0⟩), output ++ policy "move constructor"⟩ =
          .ok _ _ := Array.assign_run hh
    simp only [perform, EStateM.run_bind, object_run hother, Array.moveConstruct_run,
      setObject_run, object_run hthis, hassign, Option.bind_some]
  | .swap x y =>
    obtain ⟨xs, ys, hx, hy, rfl⟩ := perform_swap_iff.mp hop
    obtain ⟨left, hleft, hsl, -⟩ := hr.exists_array hx
    obtain ⟨right, hright, hsr, -⟩ := hr.exists_array hy
    refine ⟨_, ⟨⟨⟩, ?_⟩, hr.exchange (output ++ policy "swap") hleft hright hx hy
      hsl hsr⟩
    simp only [perform, EStateM.run_bind, object_run hleft, object_run hright, Array.swap_run,
      setObject_run]
  | .write x i value =>
    obtain ⟨xs, hx, hi, rfl⟩ := perform_write_iff.mp hop
    obtain ⟨this, hthis, hsize, hh⟩ := hr.exists_array hx
    cases hp : this.array_ with
    | none =>
      rw [hp] at hh
      obtain rfl : xs = [] := hh
      cases hi
    | some a =>
      refine ⟨_, ⟨⟨⟩, ?_⟩, hr.written hthis hp (by rw [List.length_set, hsize])⟩
      simp only [perform, EStateM.run_bind, object_run hthis, Array.write_run hh hi, hp,
        Heap.overwrite_some]
  | .destroy x =>
    obtain ⟨xs, hx, rfl⟩ := perform_destroy_iff.mp hop
    obtain ⟨this, hthis, -, hh⟩ := hr.exists_array hx
    refine ⟨_, ⟨⟨⟩, ?_⟩, hr.gone (output ++ policy "destructor") hthis⟩
    simp only [perform, EStateM.run_bind, object_run hthis, Array.destroy_run hh, setObject_run]

end Represents

/-- At every point of a program that makes sense on values, the arrays have run without a heap
error, own their blocks, leak none, and read like the values. -/
theorem refines_values {ops bs : List (Op Name T)} {v : Values Name T}
    (hops : valueMachine.run (fun _ => none) ops = some v) (hpre : bs <+: ops) :
    ∃ m w, (machine A policy).run {} bs = some m ∧
      valueMachine.run (fun _ => none) bs = some w ∧ Refines m w := by
  obtain ⟨w, hw⟩ := Machine.exists_run_of_prefix hpre hops
  have hstep : ∀ (m : Memory Name T) (v : Values Name T) (op : Op Name T) (v' : Values Name T),
      Represents m v → valueMachine.step v op = some v' →
      ∃ m', (machine A policy).step m op = some m' ∧ Represents m' v' := by
    intro m v op v' hr hop
    exact hr.step hop
  obtain ⟨m, hm, hr⟩ := Machine.run_simulation hstep Represents.empty hw
  exact ⟨m, w, hm, hw, hr.refines⟩

/-- The program of `main`, its arrays numbered in the order of their declaration. -/
def main : List (Op ℕ ℤ) :=
  [.makeArray 0 7 fun _ => 0, .moveConstruct 1 0, .moveAssign 0 1, .copyConstruct 2 0 fun _ => 0,
    .copyAssign 0 2 fun _ => 0]

/-- The assertion of `main`: the first array has its seven elements back. -/
theorem refines_values_main : ∃ m this,
    (machine .bump CoutPrintingPolicy).run {} main = some m ∧ m.arrays 0 = some this ∧
      this.size = 7 := by
  have hmain : valueMachine.run (fun _ => none) main = some _ := rfl
  obtain ⟨m, w, hm, hw, href⟩ := refines_values hmain List.prefix_rfl
  cases hw
  obtain ⟨this, hthis⟩ := Option.isSome_iff_exists.mp ((href.declared 0).mpr rfl)
  exact ⟨m, this, hm, hthis, (href.reads 0 this _ hthis rfl).1⟩

end OwningArray
