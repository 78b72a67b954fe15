import ScriptGlue.Toml
import ScriptGlue.Toml.Literal
import ScriptGlue.Toml.Quantity

/-!
# Reading TOML

A document is read line by line, TOML version 1.0. What the lines mean together is not looked at
here, but an inline table is whole by itself, so it must not set a key twice.
-/

namespace ScriptGlue.Toml

open Text Text.Reader Literal

def spaces : Reader Unit := do
  let _ ← takeWhile isSpace

def comment? : Reader Bool := do
  if ← accept "#" then
    let _ ← takeWhile isPrintable
    return true
  else return false

def lineEnd : Reader Unit := do
  unless (← peek?).isNone || (← newline?) do failure

def lineRest : Reader Unit := do
  spaces
  let _ ← comment?
  lineEnd

def lines : Reader Unit := do
  let _ ← many do
    if ← newline? then return some ()
    else if ← comment? then
      unless ← newline? do failure
      return some ()
    else if (← takeWhile isSpace).isEmpty then return none
    else return some ()

/-- Whether a character can stand in a key without quotes. -/
def isBare (c : Char) : Bool := c.isAlphanum || c == '_' || c == '-'

def keyPart : Reader String := do
  match ← peek? with
  | some '"' => onLine '"'
  | some '\'' => onLine '\''
  | _ =>
    let name ← takeWhile isBare
    if name.isEmpty then failure
    return String.ofList name

/-- The bound on the nesting of values, and on the parts of a key, each of which nests a table. -/
def nestingLimit : Nat := 80

def key : Reader Key := do
  spaces
  let first ← keyPart
  spaces
  let others ← many do
    if ← accept "." then
      spaces
      let part ← keyPart
      spaces
      return some part
    else return none
  let parts := first :: others
  if parts.length < nestingLimit then return parts else failure

def assignment (value : Reader Value) : Reader (Key × Value) := do
  let k ← key
  expect "="
  spaces
  let v ← value
  spaces
  return (k, v)

def array (value : Reader Value) : Reader Value := do
  let elements ← many do
    lines
    if (← peek?) = some ']' then return none
    let v ← value
    lines
    if (← peek?) ≠ some ']' then expect ","
    return some v
  expect "]"
  return .array elements

/-- Whether no key is set twice, nor set where another one needs a table. -/
def isConsistent : List Key → Bool
  | [] => true
  | k :: others =>
    others.all (fun l => !(k.isPrefixOf l || l.isPrefixOf k)) && isConsistent others

def inlineTable (value : Reader Value) : Reader Value := do
  spaces
  if ← accept "\x7d" then return .table []
  let first ← assignment value
  let others ← many do
    if ← accept "," then return some (← assignment value) else return none
  expect "\x7d"
  let members := first :: others
  if isConsistent (members.map (·.1)) then return .table members else failure

def quantity : Reader Value := do
  let text := Quantity.extent (← get)
  skip text.length
  if Quantity.isQuantity text then return .quantity else failure

def value : Nat → Reader Value
  | 0 => failure
  | depth + 1 => do
    match ← peek? with
    | some '"' => return .text (← string '"')
    | some '\'' => return .text (← string '\'')
    | some '[' =>
      skip 1
      if depth = 0 then failure else array (value depth)
    | some '\x7b' =>
      skip 1
      if depth = 0 then failure else inlineTable (value depth)
    | some 't' => expect "true"; return .flag true
    | some 'f' => expect "false"; return .flag false
    | _ => quantity

/-- Reads the line that stands here, empty or not: nothing at the end of the document. -/
def line? : Reader (Option (Option Line)) := do
  spaces
  match ← peek? with
  | none => return none
  | some '#' | some '\n' | some '\r' => lineRest; return some none
  | some '[' =>
    if ← accept "[[" then
      let k ← key
      expect "]]"
      lineRest
      return some (some (.elementHeader k))
    else
      skip 1
      let k ← key
      expect "]"
      lineRest
      return some (some (.header k))
  | some _ =>
    let (k, v) ← assignment (value nestingLimit)
    lineRest
    return some (some (.assignment k v))

/-- Reads the lines of a document. A byte order mark may stand in front of them. -/
def document : Reader (List Line) := do
  let _ ← accept "\ufeff"
  return (← many line?).filterMap id

def parse? (text : String) : Option (List Line) := whole? document text

end ScriptGlue.Toml
