import ScriptGlue.Text.Escaped

/-!
# JSON layout

A JSON value is laid out as lines. Members and elements stand on lines of their own, indented by two
spaces; an empty array or object takes no second line.
-/

namespace ScriptGlue.Text

abbrev Json := List String

namespace Json

/-- A character in a JSON text. Only quotes, backslashes and controls are escaped. -/
def escapeChar (c : Char) : List Char :=
  if c = '"' then ['\\', '"']
  else if c = '\\' then ['\\', '\\']
  else if c = '\x08' then ['\\', 'b']
  else if c = '\x0c' then ['\\', 'f']
  else if c = '\n' then ['\\', 'n']
  else if c = '\r' then ['\\', 'r']
  else if c = '\t' then ['\\', 't']
  else if c.toNat < 0x20 then
    let digits := hex c.toNat
    ['\\', 'u'] ++ List.replicate (4 - digits.length) '0' ++ digits
  else [c]

def quoted (s : String) : String := String.ofList ('"' :: s.toList.flatMap escapeChar ++ ['"'])

def text (s : String) : Json := [quoted s]

/-- Puts a text in front of the first line. -/
def prepend (front : String) : Json → Json
  | [] => []
  | line :: rest => (front ++ line) :: rest

def append (back : String) : Json → Json
  | [] => []
  | [line] => [line ++ back]
  | line :: next :: rest => line :: append back (next :: rest)

def stack : List Json → Json
  | [] => []
  | [part] => part
  | part :: next :: rest => append "," part ++ stack (next :: rest)

def bracket (opening closing : String) (parts : List Json) : Json :=
  if parts.isEmpty then [opening ++ closing]
  else opening :: (stack parts).map ("  " ++ ·) ++ [closing]

def array (elements : List Json) : Json := bracket "[" "]" elements

def object (members : List (String × Json)) : Json :=
  bracket "\x7b" "\x7d" (members.map fun m => prepend (quoted m.1 ++ ": ") m.2)

def render (value : Json) : String := "\n".intercalate value

end Json

end ScriptGlue.Text
