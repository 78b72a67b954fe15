import ScriptGlue.Text.Extender

/-!
# Escaped text

How messages show characters that could be misread. The usual escapes are short, and what cannot be
shown is written by its code point. Rules differ in which quotes they escape and in whether a
character that joins the one before it may stand.
-/

namespace ScriptGlue.Text

/-- What a rule escapes beside the characters that every rule escapes. -/
structure EscapeRule where
  singleQuotes : Bool
  doubleQuotes : Bool
  extenders : Bool
deriving Repr, DecidableEq, Inhabited

def hex (n : Nat) : List Char := Nat.toDigits 16 n

def codePointEscape (c : Char) : List Char := ['\\', 'u', '\x7b'] ++ hex c.toNat ++ ['\x7d']

def escapeChar (rule : EscapeRule) (c : Char) : List Char :=
  if c = '\x00' then ['\\', '0']
  else if c = '\t' then ['\\', 't']
  else if c = '\r' then ['\\', 'r']
  else if c = '\n' then ['\\', 'n']
  else if c = '\\' then ['\\', '\\']
  else if c = '"' then if rule.doubleQuotes then ['\\', '"'] else ['"']
  else if c = '\'' then if rule.singleQuotes then ['\\', '\''] else ['\'']
  else if rule.extenders && isExtender c then codePointEscape c
  else if isUnprintable c then codePointEscape c
  else [c]

def charLiteral (c : Char) : String :=
  String.ofList ('\'' :: escapeChar ⟨true, false, true⟩ c ++ ['\''])

def textLiteral (s : String) : String :=
  String.ofList ('"' :: s.toList.flatMap (escapeChar ⟨false, true, true⟩) ++ ['"'])

/-- A text without quotes around it. Only an extender at its front could join what stands before. -/
def escaped (s : String) : String :=
  match s.toList with
  | [] => ""
  | c :: rest =>
    String.ofList (escapeChar ⟨true, true, true⟩ c
      ++ rest.flatMap (escapeChar ⟨true, true, false⟩))

def codePointName (n : Nat) : String :=
  let digits := (hex n).map Char.toUpper
  "U+" ++ String.ofList (List.replicate (4 - digits.length) '0' ++ digits)

end ScriptGlue.Text
