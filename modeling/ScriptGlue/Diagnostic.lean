import ScriptGlue.Token

/-!
# Diagnostics

What reading a header can complain about. No diagnostic stops the reading.
-/

namespace ScriptGlue

inductive Diagnostic
  /-- A quote opens a literal that nothing closes. -/
  | unterminatedString (span : Span)
  /-- No `class` or `struct` with a name follows the type marker at `span`. -/
  | missingTypeName (span : Span)
  /-- The field named at `span` is declared with a type that no accessor can carry. -/
  | unknownFieldType (typeName field declared : String) (span : Span)
  /-- No declaration follows the field marker at `span`. -/
  | malformedField (typeName : String) (span : Span)
  /-- The method marker at `span` has no effect. -/
  | methodIgnored (typeName : String) (span : Span)
deriving Repr, DecidableEq, Inhabited

namespace Diagnostic

def span : Diagnostic → Span
  | unterminatedString s | missingTypeName s | unknownFieldType _ _ _ s
  | malformedField _ s | methodIgnored _ s => s

def typeName? : Diagnostic → Option String
  | unknownFieldType t _ _ _ | malformedField t _ | methodIgnored t _ => some t
  | _ => none

def message : Diagnostic → String
  | unterminatedString s => s!"Unterminated string literal at {s.text}"
  | missingTypeName s => s!"Annotated type at {s.text} has no declaration name"
  | unknownFieldType t f d s => s!"Field {t}::{f} at {s.text} has unsupported type '{d}'"
  | malformedField t s => s!"Annotated field in {t} at {s.text} is not a declaration"
  | methodIgnored t s =>
    s!"Annotated method in {t} at {s.text} ignored: method reflection is not supported"

end Diagnostic

end ScriptGlue
