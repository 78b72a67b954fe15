import ScriptGlue.Loader.Error
import ScriptGlue.Native.SymbolTable
import ScriptGlue.ScriptType

/-!
# Interfaces

An interface is a type whose symbols have been found: the functions that create and destroy its
objects, and for each field the functions that read and write it.
-/

namespace ScriptGlue

/-- The functions of a field, and the kind of value that they carry. -/
structure Accessor where
  kind : ScalarKind
  getter : NativeFunction
  setter : NativeFunction
deriving Repr, DecidableEq, Inhabited

structure BoundField where
  field : Field
  accessor : Accessor
deriving Repr, DecidableEq, Inhabited

structure Interface where
  type : ScriptType
  create : NativeFunction
  destroy : NativeFunction
  fields : List BoundField
deriving Repr, DecidableEq, Inhabited

namespace Interface

def name (i : Interface) : String := i.type.name

def lookup (m : Module) (typeName symbol : String) : Except LoadError NativeFunction :=
  match m.function? symbol with
  | some f => .ok f
  | none => .error (.missingSymbol typeName symbol)

def bindField (m : Module) (typeName : String) (f : Field) : Except LoadError BoundField :=
  match f.type.kind? with
  | none => .error (.unsupportedField typeName f.name f.type)
  | some kind => do
    let getter ← lookup m typeName f.getter
    let setter ← lookup m typeName f.setter
    return ⟨f, ⟨kind, getter, setter⟩⟩

/-- Finds the functions of a type. The first that is missing is the error: lifecycle first, then
field after field. -/
def resolve (m : Module) (t : ScriptType) : Except LoadError Interface := do
  let create ← lookup m t.name t.create
  let destroy ← lookup m t.name t.destroy
  let fields ← t.fields.mapM (bindField m t.name)
  return ⟨t, create, destroy, fields⟩

def field (i : Interface) (index : Nat) : Except LoadError BoundField :=
  match i.fields[index]? with
  | some f => .ok f
  | none => .error (.fieldIndex i.name index)

/-- The index of the first field of a name. -/
def fieldIndex (i : Interface) (name : String) : Except LoadError Nat :=
  match i.fields.findIdx? (·.field.name == name) with
  | some index => .ok index
  | none => .error (.unknownField i.name name)

end Interface

end ScriptGlue
