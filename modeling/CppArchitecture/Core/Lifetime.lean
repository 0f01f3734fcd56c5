import CppArchitecture.Core.Method
import Mathlib.Data.Finset.Basic

/-!
# Lifetimes

Objects that live from their declaration to the end of the block they are declared in. They are
named in the order of their construction, so no object takes the name of another, and a block
leaves behind what it has found: its own object is dead, and all the others are as they were.
-/

namespace Core

/-- The objects that are alive, of those constructed so far. -/
structure Lifetimes where
  next : ℕ
  alive : Finset ℕ
  lt_next : ∀ n ∈ alive, n < next

namespace Lifetimes

/-- Nothing has been constructed yet. -/
def start : Lifetimes where
  next := 0
  alive := ∅
  lt_next n h := absurd h (Finset.notMem_empty n)

/-- The next object is constructed. -/
def construct (l : Lifetimes) : Lifetimes where
  next := l.next + 1
  alive := insert l.next l.alive
  lt_next n h := by
    rcases Finset.mem_insert.mp h with rfl | h
    · exact Nat.lt_succ_self _
    · exact Nat.lt_succ_of_lt (l.lt_next n h)

def destroy (l : Lifetimes) (n : ℕ) : Lifetimes where
  next := l.next
  alive := l.alive.erase n
  lt_next k h := l.lt_next k (Finset.mem_of_mem_erase h)

variable {l : Lifetimes} {n : ℕ}

@[simp] lemma alive_construct : l.construct.alive = insert l.next l.alive := rfl

@[simp] lemma alive_destroy : (l.destroy n).alive = l.alive.erase n := rfl

/-- The name of the next object is new. -/
lemma next_notMem : l.next ∉ l.alive := fun h => absurd (l.lt_next _ h) (Nat.lt_irrefl _)

/-- Where no object is left but the last one, its end leaves what was alive before it. -/
lemma alive_destroy_next {l' : Lifetimes} (h : l'.alive = l.construct.alive) :
    (l'.destroy l.next).alive = l.alive := by
  rw [alive_destroy, h, alive_construct, Finset.erase_insert next_notMem]

end Lifetimes

universe u

variable {ε S α : Type u}

/-- A block that declares an object. Whether it is left at its end or by an exception, the object
is destroyed. -/
def block (view : S → Lifetimes) (update : S → Lifetimes → S) (body : ℕ → EStateM ε S α) :
    EStateM ε S α := fun s =>
  match (body (view s).next).run (update s (view s).construct) with
  | .ok a t => .ok a (update t ((view t).destroy (view s).next))
  | .error e t => .error e (update t ((view t).destroy (view s).next))

end Core
