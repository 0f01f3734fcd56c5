import CppArchitecture.Core.Lifetime

/-!
# Memory resources

Functions that use polymorphic memory resources, some of which they declare themselves. The
default resource is a pointer for the whole program, which a function may point to one of its own
resources. It is read explicitly, and by every constructor that is given no resource.

The memory handed out by the resources is not modelled, other than that `null_memory_resource`
has none.
-/

namespace Arenas

open Core

/-- A pointer to a memory resource: to one of those that live forever, or to one that a function
has declared. -/
inductive Resource where
  | newDelete
  | nullMemory
  | declared (n : ℕ)
  deriving DecidableEq, Repr

/-- `std::bad_alloc` -/
inductive BadAlloc where
  | badAlloc
  deriving DecidableEq, Repr

/-- The resources that are alive, the default resource, and the resources that have been read from
it, with whether they were alive by then. -/
structure Memory where
  lifetimes : Lifetimes := .start
  defaultResource : Resource := .newDelete
  captured : List (Resource × Bool) := []

namespace Memory

def isAlive (m : Memory) : Resource → Bool
  | .newDelete => true
  | .nullMemory => true
  | .declared n => decide (n ∈ m.lifetimes.alive)

/-- The default resource is read. -/
def capture (m : Memory) : Memory :=
  { m with captured := m.captured ++ [(m.defaultResource, m.isAlive m.defaultResource)] }

def setDefault (m : Memory) (resource : Resource) : Memory :=
  { m with defaultResource := resource }

/-- The memory with other lifetimes. -/
def setLifetimes (m : Memory) (lifetimes : Lifetimes) : Memory :=
  { m with lifetimes := lifetimes }

variable {m : Memory} {r : Resource} {l : Lifetimes}

@[simp] lemma defaultResource_capture : m.capture.defaultResource = m.defaultResource := rfl

@[simp] lemma defaultResource_setDefault : (m.setDefault r).defaultResource = r := rfl

@[simp] lemma defaultResource_setLifetimes :
    (m.setLifetimes l).defaultResource = m.defaultResource := rfl

@[simp] lemma isAlive_declared {n : ℕ} :
    m.isAlive (.declared n) = decide (n ∈ m.lifetimes.alive) := rfl

/-- Whether a resource is alive depends on which are alive. -/
lemma isAlive_congr {m' : Memory} (h : m'.lifetimes.alive = m.lifetimes.alive) :
    m'.isAlive r = m.isAlive r := by
  cases r with
  | newDelete | nullMemory => rfl
  | declared n => rw [isAlive_declared, isAlive_declared, h]

end Memory

abbrev Program := EStateM BadAlloc Memory PUnit

def getDefaultResource : EStateM BadAlloc Memory Resource := do
  let m ← get
  set m.capture
  return m.defaultResource

def setDefaultResource (resource : Resource) : Program := modify (·.setDefault resource)

/-- A block with a resource declared in it. -/
def declare (body : Resource → Program) : Program :=
  block (·.lifetimes) Memory.setLifetimes fun n => body (.declared n)

/-- `resource->allocate(..)` -/
def allocate : Resource → Program
  | .nullMemory => throw .badAlloc
  | _ => return ⟨⟩

/-- `using_memory_arenas` -/
def usingMemoryArenas : Program := do
  -- the upstream of a pool that is given none
  let _ ← getDefaultResource
  declare fun singleThreadedPool => do
    setDefaultResource singleThreadedPool
    let _ints ← getDefaultResource
    let _alsoInts ← getDefaultResource
    return ⟨⟩

/-- `using_pool_resources_and_writing_your_own` -/
def usingPoolResourcesAndWritingYourOwn : Program := do
  -- the upstream of a buffer that is given none
  let _ ← getDefaultResource
  declare fun _monotonicResource =>
    declare fun _arena =>
      declare fun verboseArena =>
        let pooledInts := verboseArena
        allocate pooledInts

/-- `ensuring_no_unexpected_allocations` -/
def ensuringNoUnexpectedAllocations : Program := do
  setDefaultResource .nullMemory
  declare fun _resource => do
    try
      -- the string of the pair, and the map
      let _ ← getDefaultResource
      let map ← getDefaultResource
      allocate map
    catch
      | .badAlloc => pure ⟨⟩
    setDefaultResource .newDelete

/-- `winking_out` -/
def winkingOut : Program := do
  let _upstream ← getDefaultResource
  declare fun _verbose =>
    declare fun monotonic => do
      setDefaultResource monotonic
      let alloc ← getDefaultResource
      allocate alloc
      -- the temporary string that is pushed back
      let _ ← getDefaultResource
      let vector := alloc
      allocate vector

/-- The functions `main` calls. -/
inductive Call where
  | usingMemoryArenas
  | usingPoolResourcesAndWritingYourOwn
  | ensuringNoUnexpectedAllocations
  | winkingOut
  deriving DecidableEq, Repr

def call : Call → Program
  | .usingMemoryArenas => usingMemoryArenas
  | .usingPoolResourcesAndWritingYourOwn => usingPoolResourcesAndWritingYourOwn
  | .ensuringNoUnexpectedAllocations => ensuringNoUnexpectedAllocations
  | .winkingOut => winkingOut

/-- The calls of the functions, none of which throws. -/
def machine : Machine Memory Call := Machine.ofMethod call

end Arenas
