import ScriptGlue.Loader.Interface

/-!
# Instances

An instance is a native object together with the interface that it was created through. Fields are
read and written by the declared kind only.
-/

namespace ScriptGlue

structure Instance where
  interface : Interface
  object : Nat
deriving Repr, DecidableEq, Inhabited

namespace Instance

variable {σ : Type} [NativeMemory σ]

def create (i : Interface) (memory : σ) : Except LoadError Instance × σ :=
  match NativeMemory.create i.create memory with
  | (some object, memory) => (.ok ⟨i, object⟩, memory)
  | (none, memory) => (.error (.createFailed i.name), memory)

def destroy (x : Instance) (memory : σ) : σ :=
  NativeMemory.destroy x.interface.destroy x.object memory

/-- The error for a value of a kind that the field is not declared with. -/
def mismatch (x : Instance) (f : BoundField) (found : ScalarKind) : LoadError :=
  .typeMismatch x.interface.name f.field.name f.field.type found

def get (x : Instance) (index : Nat) (memory : σ) : Except LoadError (Scalar × σ) := do
  let f ← x.interface.field index
  return NativeMemory.get f.accessor.getter f.accessor.kind x.object memory

/-- Reads the field at an index as a value of a kind, which the declaration has to be of and so has
the value that the accessor gives. -/
def getAs (x : Instance) (kind : ScalarKind) (index : Nat) (memory : σ) :
    Except LoadError (Scalar × σ) := do
  let f ← x.interface.field index
  if f.field.type = .scalar kind then
    let (v, memory) := NativeMemory.get f.accessor.getter f.accessor.kind x.object memory
    match v.ofKind? kind with
    | some v => return (v, memory)
    -- An accessor gives values of its kind, and a bound one is of the kind of the declaration. So it does
    -- not come to this, and no memory is lost.
    | none => throw (x.mismatch f kind)
  else throw (x.mismatch f kind)

def set (x : Instance) (index : Nat) (v : Scalar) (memory : σ) : Except LoadError σ := do
  let f ← x.interface.field index
  if f.accessor.kind = v.kind then return NativeMemory.set f.accessor.setter v x.object memory
  else throw (x.mismatch f v.kind)

/-- Writes the field at an index with a value that is known to be of a kind. -/
def setAs (x : Instance) {kind : ScalarKind} (index : Nat) (v : { v : Scalar // v.kind = kind })
    (memory : σ) : Except LoadError σ :=
  x.set index v.val memory

/-- Reads the first field of a name. -/
def getByName (x : Instance) (name : String) (memory : σ) : Except LoadError (Scalar × σ) := do
  x.get (← x.interface.fieldIndex name) memory

/-- Writes the first field of a name. -/
def setByName (x : Instance) (name : String) (v : Scalar) (memory : σ) : Except LoadError σ := do
  x.set (← x.interface.fieldIndex name) v memory

end Instance

end ScriptGlue
