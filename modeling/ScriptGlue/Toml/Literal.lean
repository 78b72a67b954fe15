import ScriptGlue.Text.Reader

/-!
# TOML strings

A string stands between double quotes, with escapes, or between single quotes, without. Three quotes
in place of one let it run over lines.
-/

namespace ScriptGlue.Toml.Literal

open Text Text.Reader

/-- Whether a character can stand in strings and comments: no control but the tab. -/
def isPrintable (c : Char) : Bool := c == '\t' || (0x20 ≤ c.toNat && c.toNat ≠ 0x7f)

def isSpace (c : Char) : Bool := c == ' ' || c == '\t'

/-- Takes a line end, if one stands here: a newline, or a return and a newline. -/
def newline? : Reader Bool := do
  if ← accept "\n" then return true else accept "\r\n"

def hexDigit? (c : Char) : Option Nat :=
  if '0' ≤ c ∧ c ≤ '9' then some (c.toNat - 48)
  else if 'a' ≤ c ∧ c ≤ 'f' then some (c.toNat - 87)
  else if 'A' ≤ c ∧ c ≤ 'F' then some (c.toNat - 55)
  else none

def codePoint (digits : Nat) : Reader Char := do
  let text := (← get).take digits
  skip digits
  if text.length ≠ digits then failure
  match text.mapM hexDigit? with
  | none => failure
  | some values =>
    let n := values.foldl (16 * · + ·) 0
    if n.isValidChar then return Char.ofNat n else failure

def escape : Reader Char := do
  match ← next with
  | 'b' => return '\x08'
  | 't' => return '\t'
  | 'n' => return '\n'
  | 'f' => return '\x0c'
  | 'r' => return '\r'
  | '"' => return '"'
  | '\\' => return '\\'
  | 'u' => codePoint 4
  | 'U' => codePoint 8
  | _ => failure

def gap : Reader Unit := do
  let _ ← many do
    if ← newline? then return some ()
    else if (← takeWhile isSpace).isEmpty then return none
    else return some ()

def hiddenNewline? : Reader Bool := do
  match (← get).dropWhile isSpace with
  | '\n' :: _ | '\r' :: '\n' :: _ => gap; return true
  | _ => return false

/-- Reads what may stand in a string on one line: nothing at its closing quote. -/
def character? (quote : Char) : Reader (Option (List Char)) := do
  match ← peek? with
  | none => failure
  | some c =>
    if c = quote then return none
    else if c = '\\' ∧ quote = '"' then
      skip 1
      return some [← escape]
    else if isPrintable c then
      skip 1
      return some [c]
    else failure

/-- Reads what may stand in a string over lines: nothing where three quotes stand. -/
def lineCharacter? (quote : Char) : Reader (Option (List Char)) := do
  let quotes := (← get).takeWhile (· == quote)
  if 3 ≤ quotes.length then return none
  else if quotes ≠ [] then
    skip quotes.length
    return some quotes
  else if ← newline? then return some ['\n']
  else if quote = '"' ∧ (← peek?) = some '\\' then
    skip 1
    if ← hiddenNewline? then return some []
    else return some [← escape]
  else character? quote

def onLine (quote : Char) : Reader String := do
  let mark := String.singleton quote
  expect mark
  let parts ← many (character? quote)
  expect mark
  return String.ofList parts.flatten

/-- Reads a string over lines behind its opening quotes. A line end right behind them is no part of
it; of more than three quotes at its end, up to two are. -/
def overLines (quote : Char) : Reader String := do
  let _ ← newline?
  let parts ← many (lineCharacter? quote)
  let quotes ← takeWhile (· == quote)
  if 5 < quotes.length then failure
  return String.ofList (parts.flatten ++ quotes.drop 3)

def string (quote : Char) : Reader String := do
  let mark := String.singleton quote
  if ← accept (mark ++ mark ++ mark) then overLines quote else onLine quote

end ScriptGlue.Toml.Literal
