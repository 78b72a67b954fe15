import ScriptGlue.ScriptType
import ScriptGlue.Table

/-!
# Writing a table

Records become a table if every text can end at its first zero byte and every list can be counted.
The first item that cannot is the error, in the order in which the items are written.
-/

namespace ScriptGlue

def RawText.of (what text : String) : Except TableError RawText :=
  let bytes := text.toUTF8.data.toList
  if 0 ∈ bytes then .error (.interiorNul what) else .ok ⟨some bytes⟩

def RawArray.maxLength : Nat := 2147483647

def RawArray.of (what : String) (items : List α) : Except TableError (RawArray α) :=
  if items.length ≤ maxLength then .ok ⟨some items, Int32.ofNat items.length⟩
  else .error (.tooLarge what items.length)

def RawField.of (f : Field) : Except TableError RawField := do
  let name ← RawText.of "field name" f.name
  let getter ← RawText.of "getter symbol" f.getter
  let setter ← RawText.of "setter symbol" f.setter
  return ⟨f.type.tag, name, getter, setter⟩

def RawMethod.of (m : Method) : Except TableError RawMethod := do
  let name ← RawText.of "method name" m.name
  let parameters ← RawArray.of "parameter" (m.parameters.map FieldType.tag)
  return ⟨name, parameters, m.returnType.tag⟩

/-- Writes a type: its members, then what stands in its own record. -/
def RawScript.of (t : ScriptType) : Except TableError RawScript := do
  let rawFields ← t.fields.mapM RawField.of
  let rawMethods ← t.methods.mapM RawMethod.of
  let name ← RawText.of "type name" t.name
  let fields ← RawArray.of "field" rawFields
  let methods ← RawArray.of "method" rawMethods
  let create ← RawText.of "create symbol" t.create
  let destroy ← RawText.of "destroy symbol" t.destroy
  return ⟨name, fields, methods, create, destroy⟩

def Table.encode (types : List ScriptType) : Except TableError Table := do
  RawArray.of "script" (← types.mapM RawScript.of)

end ScriptGlue
