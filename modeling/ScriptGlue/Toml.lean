/-!
# TOML documents

A document is a list of lines, each of which sets a key or opens a table.
-/

namespace ScriptGlue.Toml

/-- A key and the keys below it, as a dotted key spells them. -/
abbrev Key := List String

/-- What a key can be set to. -/
inductive Value
  | text (value : String)
  | flag (value : Bool)
  /-- A number or a moment. Which one is not kept. -/
  | quantity
  | array (elements : List Value)
  | table (members : List (Key × Value))
deriving Inhabited

inductive Line
  | assignment (key : Key) (value : Value)
  | header (key : Key)
  /-- The header of one more table in an array. -/
  | elementHeader (key : Key)
deriving Inhabited

/-- What a line sets, if it is no header. -/
def Line.assignment? : Line → Option (Key × Value)
  | .assignment key value => some (key, value)
  | _ => none

end ScriptGlue.Toml
