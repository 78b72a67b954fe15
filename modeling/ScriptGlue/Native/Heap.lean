import ScriptGlue.Native.Object
import ScriptGlue.Table

/-!
# Native functions and the heap

A native function is what a module exports under a symbol. What it does is up to the memory that it
works on. The memory of this library is a heap, where functions that create and destroy objects
leave a trace of events, by which one can tell how often each object is destroyed.
-/

namespace ScriptGlue

inductive NativeFunction
  /-- The entry point: it hands out a registration table. -/
  | register (table : Table)
  /-- Makes a new object like the prototype of a number. -/
  | create (prototype : Nat)
  | createNull
  | destroy (prototype : Nat)
  | get (cell : Cell)
  | set (cell : Cell)
deriving Repr, DecidableEq, Inhabited

/-- A memory that native functions work on, with what a function does there if it is called to
create, to destroy, to read or to write. Objects are known by their addresses. -/
class NativeMemory (σ : Type) where
  /-- Gives no object if the function returns null. -/
  create : NativeFunction → σ → Option Nat × σ
  destroy : NativeFunction → (object : Nat) → σ → σ
  get : NativeFunction → ScalarKind → (object : Nat) → σ → Scalar × σ
  set : NativeFunction → Scalar → (object : Nat) → σ → σ
  /-- A function that is called for a value of a kind has no other to give. -/
  kind_get : ∀ f kind object memory, (get f kind object memory).1.kind = kind

inductive Event
  | created (prototype object : Nat)
  | destroyed (prototype object : Nat)
deriving Repr, DecidableEq, Inhabited

/-- The live objects by their numbers, the number of the next one, and what has happened. -/
structure Heap where
  prototypes : List Object
  objects : List (Nat × Object)
  next : Nat
  events : List Event
  /-- A number that was given to an object is not given again. -/
  bounded : ∀ o ∈ objects, o.1 < next

namespace Heap

def start (prototypes : List Object) : Heap := ⟨prototypes, [], 0, [], nofun⟩

def object? (h : Heap) (object : Nat) : Option Object := h.objects.lookup object

def update (h : Heap) (object : Nat) (f : Object → Object) : Heap :=
  { h with
    objects := h.objects.map fun o => if o.1 = object then (o.1, f o.2) else o
    bounded := by
      intro o member
      obtain ⟨own, inside, rfl⟩ := List.mem_map.mp member
      have below := h.bounded own inside
      split <;> exact below }

/-- Adds an object like a prototype. A prototype that is not there is blank. -/
def create (h : Heap) (prototype : Nat) : Nat × Heap :=
  (h.next,
    { h with
      objects := h.objects ++ [(h.next, h.prototypes[prototype]?.getD .blank)]
      next := h.next + 1
      events := h.events ++ [.created prototype h.next]
      bounded := by
        intro o member
        rcases List.mem_append.mp member with old | new
        · exact Nat.lt_succ_of_lt (h.bounded o old)
        · obtain rfl := List.mem_singleton.mp new
          exact Nat.lt_succ_self h.next })

def destroy (h : Heap) (prototype object : Nat) : Heap :=
  { h with
    objects := h.objects.filter fun o => o.1 ≠ object
    events := h.events ++ [.destroyed prototype object]
    bounded := fun o member => h.bounded o (List.mem_filter.mp member).1 }

def forgetEvents (h : Heap) : Heap := { h with events := [] }

end Heap

namespace NativeFunction

/-- Calls an entry point. Any other function leaves the table as it was. -/
def callRegister : NativeFunction → Table
  | register table => table
  | _ => .blank

/-- Calls a creation function; null if it makes no object. -/
def callCreate : NativeFunction → Heap → Option Nat × Heap
  | create prototype, h => let (object, h) := h.create prototype; (some object, h)
  | _, h => (none, h)

def callDestroy : NativeFunction → Nat → Heap → Heap
  | destroy prototype, object, h => h.destroy prototype object
  | _, _, h => h

def callGet (f : NativeFunction) (kind : ScalarKind) (object : Nat) (h : Heap) : Scalar :=
  match f with
  | get cell =>
    match h.object? object with
    | some o => if cell.kind = kind then o.read cell else .zero kind
    | none => .zero kind
  | _ => .zero kind

def callSet (f : NativeFunction) (v : Scalar) (object : Nat) (h : Heap) : Heap :=
  match f with
  | set cell => if cell.kind = v.kind then h.update object (·.write cell.slot v) else h
  | _ => h

theorem kind_callGet (f : NativeFunction) (kind : ScalarKind) (object : Nat) (h : Heap) :
    (f.callGet kind object h).kind = kind := by
  cases f with
  | get cell =>
    rw [callGet]
    split
    · rename_i o _
      split
      · rename_i same
        rw [o.kind_read, same]
      · exact Scalar.kind_zero kind
    · exact Scalar.kind_zero kind
  | _ => exact Scalar.kind_zero kind

end NativeFunction

instance : NativeMemory Heap where
  create f h := f.callCreate h
  destroy f object h := f.callDestroy object h
  get f kind object h := (f.callGet kind object h, h)
  set f v object h := f.callSet v object h
  kind_get := NativeFunction.kind_callGet

end ScriptGlue
