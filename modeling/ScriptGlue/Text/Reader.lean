/-!
# Readers

A reader takes a value off the front of a text, or fails.
-/

namespace ScriptGlue.Text

abbrev Reader := StateT (List Char) Option

namespace Reader

/-- The first character, which stays. -/
def peek? : Reader (Option Char) := return (← get).head?

def skip (count : Nat) : Reader Unit := modify (·.drop count)

def next : Reader Char := do
  match ← get with
  | [] => failure
  | c :: rest => set rest; return c

/-- Takes the characters that are as asked, up to the first that is not. -/
def takeWhile (p : Char → Bool) : Reader (List Char) := do
  let s ← get
  set (s.dropWhile p)
  return s.takeWhile p

/-- Takes a text if it stands here. -/
def accept (text : String) : Reader Bool := do
  if text.toList.isPrefixOf (← get) then skip text.length; return true
  else return false

def expect (text : String) : Reader Unit := do
  unless ← accept text do failure

def repeated (item? : Reader (Option α)) : Nat → Reader (List α)
  | 0 => failure
  | fuel + 1 => do
    match ← item? with
    | none => return []
    | some a => return a :: (← repeated item? fuel)

/-- Reads items until there is none. Each item takes at least one character. -/
def many (item? : Reader (Option α)) : Reader (List α) := do
  repeated item? ((← get).length + 1)

def whole? (r : Reader α) (text : String) : Option α :=
  match r.run text.toList with
  | some (a, []) => some a
  | _ => none

end Reader

end ScriptGlue.Text
