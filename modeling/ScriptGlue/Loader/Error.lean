import ScriptGlue.FieldType
import ScriptGlue.Table

/-!
# Loading errors

Why a module or a type cannot be used, or a use of it is refused.
-/

namespace ScriptGlue

inductive LoadError
  | missingEntryPoint (moduleName symbol : String)
  | invalidTable (error : TableError)
  | missingSymbol (typeName symbol : String)
  | unsupportedField (typeName field : String) (type : FieldType)
  | duplicateType (typeName : String)
  | fieldIndex (typeName : String) (index : Nat)
  | unknownField (typeName field : String)
  /-- A value of kind `found` is offered or asked for where the field is declared otherwise. -/
  | typeMismatch (typeName field : String) (declared : FieldType) (found : ScalarKind)
  | createFailed (typeName : String)
deriving Repr, DecidableEq, Inhabited

namespace LoadError

def typeName? : LoadError → Option String
  | missingEntryPoint _ _ | invalidTable _ => none
  | missingSymbol t _ | unsupportedField t _ _ | duplicateType t | fieldIndex t _
  | unknownField t _ | typeMismatch t _ _ _ | createFailed t => some t

def message : LoadError → String
  | missingEntryPoint m s => s!"Module {m} does not export {s}"
  | invalidTable e => s!"Invalid registration table: {e.message}"
  | missingSymbol t s => s!"Type {t}: symbol {s} not found"
  | unsupportedField t f type => s!"Type {t}: field {f} has unsupported type {type.text}"
  | duplicateType t => s!"Duplicate type name: {t}"
  | fieldIndex t i => s!"Type {t} has no field at index {i}"
  | unknownField t f => s!"Type {t} has no field named {f}"
  | typeMismatch t f declared found =>
    s!"Type {t}: field {f} is {declared.text}, not {found.keyword}"
  | createFailed t => s!"Type {t}: creation function returned null"

end LoadError

end ScriptGlue
