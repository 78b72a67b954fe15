import ScriptGlue.ScriptType
import ScriptGlue.Table

/-!
# Reading a table

Reading goes through a table in one fixed order and stops at the first fault, which it names by its
path: the array of types; then for each type its name, its fields, its methods, and its two symbols.
-/

namespace ScriptGlue

def RawText.read (what : String) (t : RawText) : Except TableError String :=
  match t.bytes? with
  | none => .error (.nullPointer what)
  | some bytes =>
    match String.fromUTF8? ⟨(bytes.takeWhile (· ≠ 0)).toArray⟩ with
    | none => .error (.invalidUtf8 what)
    | some text => .ok text

/-- The counted entries of an array. No pointer is followed for a count of zero. -/
def RawArray.read (what : String) (a : RawArray α) : Except TableError (List α) :=
  if a.count < 0 then .error (.negativeCount what a.count.toInt)
  else if a.count = 0 then .ok []
  else
    match a.items? with
    | none => .error (.nullPointer what)
    | some items => .ok (items.take a.count.toInt.toNat)

def RawField.read (what : String) (f : RawField) : Except TableError Field := do
  let name ← f.name.read s!"{what}.name"
  let getter ← f.getter.read s!"{what}.getter"
  let setter ← f.setter.read s!"{what}.setter"
  return ⟨FieldType.ofTag f.tag, name, getter, setter⟩

/-- Reads the record of a method: its parameters, then its name. -/
def RawMethod.read (what : String) (m : RawMethod) : Except TableError Method := do
  let parameters ← m.parameters.read s!"{what}.parameters"
  let name ← m.name.read s!"{what}.name"
  return ⟨name, parameters.map FieldType.ofTag, FieldType.ofTag m.returnTag⟩

/-- Reads the record of a type. Faults behind its name are named after it. -/
def RawScript.read (index : Nat) (s : RawScript) : Except TableError ScriptType := do
  let name ← s.name.read s!"script[{index}].name"
  let rawFields ← s.fields.read s!"{name}.fields"
  let fields ← rawFields.zipIdx.mapM fun f => f.1.read s!"{name}.fields[{f.2}]"
  let rawMethods ← s.methods.read s!"{name}.methods"
  let methods ← rawMethods.zipIdx.mapM fun m => m.1.read s!"{name}.methods[{m.2}]"
  let create ← s.create.read s!"{name}.create"
  let destroy ← s.destroy.read s!"{name}.destroy"
  return ⟨name, fields, methods, create, destroy⟩

def Table.decode (t : Table) : Except TableError (List ScriptType) := do
  let scripts ← RawArray.read "script" t
  scripts.zipIdx.mapM fun s => s.1.read s.2

end ScriptGlue
