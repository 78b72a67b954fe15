/-!
# Texts of the operating system

To the operating system a name is a row of bytes. Most names are texts in UTF-8, but none has to be one.
What is no text can still be shown: a replacement stands for each stretch of bytes that spells no
character.
-/

namespace ScriptGlue

structure OsText where
  bytes : List UInt8
deriving Repr, DecidableEq, Inhabited

namespace OsText

def encode (s : List Char) : List UInt8 := s.flatMap String.utf8EncodeChar

def ofText (s : String) : OsText := ⟨encode s.toList⟩

instance : Coe String OsText := ⟨ofText⟩

instance : Coe (List String) (List OsText) := ⟨List.map ofText⟩

def size (t : OsText) : Nat := t.bytes.length

/-- The text that some bytes spell, if they spell one. -/
def text? (t : OsText) : Option String := String.fromUTF8? ⟨t.bytes.toArray⟩

/-! ### Showing what may be no text -/

/-- The character that some bytes begin with, if they begin with one. -/
def first? (bytes : List UInt8) : Option Char := bytes.toByteArray.utf8DecodeChar? 0

/-- A byte that continues a character. -/
def isTail (b : UInt8) : Bool := 0x80 ≤ b && b ≤ 0xbf

/-- Whether a byte can come second in a character of three or four bytes. Some first bytes leave it
less to choose from: the character would have a shorter spelling, or be none. -/
def isSecond (first b : UInt8) : Bool :=
  if first = 0xe0 then 0xa0 ≤ b && b ≤ 0xbf
  else if first = 0xed then 0x80 ≤ b && b ≤ 0x9f
  else if first = 0xf0 then 0x90 ≤ b && b ≤ 0xbf
  else if first = 0xf4 then 0x80 ≤ b && b ≤ 0x8f
  else 0xe1 ≤ first && first ≤ 0xf3 && isTail b

/-- How many bytes are replaced together where no character begins: the beginning of a character that
does not go on, or else one byte. -/
def strayLength : List UInt8 → Nat
  | first :: second :: rest =>
    if isSecond first second then if rest.head?.any isTail then 3 else 2 else 1
  | _ => 1

/-- The characters that bytes spell, and none for each stretch that spells no character. The first
bytes, so many as the number says, belong to what has been read. -/
def glyphsAfter : Nat → List UInt8 → List (Option Char)
  | _, [] => []
  | behind + 1, _ :: rest => glyphsAfter behind rest
  | 0, b :: rest =>
    match first? (b :: rest) with
    | some c => some c :: glyphsAfter (c.utf8Size - 1) rest
    | none => none :: glyphsAfter (strayLength (b :: rest) - 1) rest

def glyphs (t : OsText) : List (Option Char) := glyphsAfter 0 t.bytes

def replacement : Char := '\uFFFD'

/-- The text with a replacement for what is no text. -/
def shown (t : OsText) : String := String.ofList (t.glyphs.map (·.getD replacement))

end OsText

end ScriptGlue
