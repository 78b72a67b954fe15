import ScriptGlue.Diagnostic

/-!
# Scanning

A source is cut into pieces that lose no character: blanks and comments, tokens, and quotes that
nothing closes. Tokens and diagnostics are then read off the pieces and their places.
`Piece.next_append` says that a piece and what follows it are the source again.
-/

namespace ScriptGlue

/-- One cut of a source. -/
inductive Piece
  /-- Text without meaning: a blank, a comment, or a character outside the token set. -/
  | trivia (text : List Char)
  | token (kind : Token.Kind) (text : List Char)
  /-- A quote that nothing closes, with the rest of its line. -/
  | openQuote (text : List Char)
deriving Repr, DecidableEq, Inhabited

namespace Piece

def text : Piece → List Char
  | trivia t | token _ t | openQuote t => t

def isBlank (c : Char) : Bool :=
  c = ' ' || c = '\t' || c = '\r' || c = '\n' || c = '\x0b' || c = '\x0c'

def isWordStart (c : Char) : Bool := c.isAlpha || c = '_'

def isWordPart (c : Char) : Bool := c.isAlphanum || c = '_'

/-- Cuts behind the first star and slash, or at the end. -/
def cutComment : List Char → List Char × List Char
  | [] => ([], [])
  | '*' :: '/' :: rest => (['*', '/'], rest)
  | c :: rest => let (a, b) := cutComment rest; (c :: a, b)

/-- Cuts behind the first quote that no backslash hides; a backslash hides the next character. -/
def cutLiteral? : List Char → Option (List Char × List Char)
  | [] => none
  | '"' :: rest => some (['"'], rest)
  | '\\' :: [] => none
  | '\\' :: c :: rest => (cutLiteral? rest).map fun (a, b) => ('\\' :: c :: a, b)
  | c :: rest => (cutLiteral? rest).map fun (a, b) => (c :: a, b)

/-- Cuts behind the first newline, or at the end. -/
def cutLine : List Char → List Char × List Char
  | [] => ([], [])
  | '\n' :: rest => (['\n'], rest)
  | c :: rest => let (a, b) := cutLine rest; (c :: a, b)

/-- The first piece of a source and the rest. -/
def next : List Char → Option (Piece × List Char)
  | [] => none
  | '/' :: '/' :: rest =>
    some (trivia ('/' :: '/' :: rest.takeWhile (· ≠ '\n')), rest.dropWhile (· ≠ '\n'))
  | '/' :: '*' :: rest =>
    let (a, b) := cutComment rest
    some (trivia ('/' :: '*' :: a), b)
  | '"' :: rest =>
    match cutLiteral? rest with
    | some (a, b) => some (token .literal ('"' :: a), b)
    | none => let (a, b) := cutLine rest; some (openQuote ('"' :: a), b)
  | c :: rest =>
    if isWordStart c then
      let word := c :: rest.takeWhile isWordPart
      some (token (Token.Kind.ofWord (String.ofList word)) word, rest.dropWhile isWordPart)
    else
      match Token.Kind.ofPunctuation? c with
      | some kind => some (token kind [c], rest)
      | none => some (trivia [c], rest)

/-! ### Pieces lose no character -/

theorem cutComment_append (s : List Char) : (cutComment s).1 ++ (cutComment s).2 = s := by
  fun_induction cutComment s with
  | case1 => rfl
  | case2 => rfl
  | case3 c rest _ a b h ih => simpa [h] using ih

theorem cutLine_append (s : List Char) : (cutLine s).1 ++ (cutLine s).2 = s := by
  fun_induction cutLine s with
  | case1 => rfl
  | case2 => rfl
  | case3 c rest _ a b h ih => simpa [h] using ih

theorem cutLiteral?_append {s a b : List Char} (h : cutLiteral? s = some (a, b)) : a ++ b = s := by
  fun_induction cutLiteral? s generalizing a b with
  | case1 => simp at h
  | case2 rest =>
    obtain ⟨rfl, rfl⟩ := Prod.mk.inj (Option.some.inj h)
    rfl
  | case3 => simp at h
  | case4 c rest ih =>
    obtain ⟨⟨a', b'⟩, hc, e⟩ := Option.map_eq_some_iff.1 h
    obtain ⟨rfl, rfl⟩ := Prod.mk.inj e
    simpa using ih hc
  | case5 c rest _ _ _ ih =>
    obtain ⟨⟨a', b'⟩, hc, e⟩ := Option.map_eq_some_iff.1 h
    obtain ⟨rfl, rfl⟩ := Prod.mk.inj e
    simpa using ih hc

/-- A piece and the rest are the source, and a piece is never empty. -/
theorem next_append {s rest : List Char} {p : Piece} (h : next s = some (p, rest)) :
    p.text ++ rest = s ∧ p.text ≠ [] := by
  unfold next at h
  split at h
  · simp at h
  · obtain ⟨rfl, rfl⟩ := Prod.mk.inj (Option.some.inj h)
    simp [text, List.takeWhile_append_dropWhile]
  · rename_i r
    obtain ⟨rfl, rfl⟩ := Prod.mk.inj (Option.some.inj h)
    simpa [text] using cutComment_append r
  · rename_i r
    split at h
    · rename_i a b hc
      obtain ⟨rfl, rfl⟩ := Prod.mk.inj (Option.some.inj h)
      simpa [text] using cutLiteral?_append hc
    · obtain ⟨rfl, rfl⟩ := Prod.mk.inj (Option.some.inj h)
      simpa [text] using cutLine_append r
  · split at h
    · obtain ⟨rfl, rfl⟩ := Prod.mk.inj (Option.some.inj h)
      simp [text, List.takeWhile_append_dropWhile]
    · split at h <;>
      · obtain ⟨rfl, rfl⟩ := Prod.mk.inj (Option.some.inj h)
        simp [text]

theorem length_lt_of_next {s rest : List Char} {p : Piece} (h : next s = some (p, rest)) :
    rest.length < s.length := by
  obtain ⟨rfl, ne⟩ := next_append h
  have := List.length_pos_iff.2 ne
  simp; omega

/-- All pieces of a source, in order. -/
def all (s : List Char) : List Piece :=
  match _h : next s with
  | none => []
  | some (p, rest) => p :: all rest
termination_by s.length
decreasing_by exact length_lt_of_next ‹_›

def located (p : Position) : List Piece → List (Position × Piece)
  | [] => []
  | piece :: rest => (p, piece) :: located (p.advance piece.text) rest

end Piece

/-- What scanning a source yields. -/
structure Scan where
  tokens : List Token
  diagnostics : List Diagnostic
deriving Repr, DecidableEq, Inhabited

namespace Scan

def token? : Position × Piece → Option Token
  | (p, .token kind text) => some ⟨kind, String.ofList text, .fromTo p (p.advance text).offset⟩
  | _ => none

/-- The complaint about a piece at a place, in a source that ends at the byte `stop`. -/
def diagnostic? (stop : Nat) : Position × Piece → Option Diagnostic
  | (p, .openQuote _) => some (.unterminatedString (.fromTo p stop))
  | _ => none

def endToken (p : Position) : Token := ⟨.endOfInput, "EOF", .fromTo p p.offset⟩

/-- Scans a source given as its characters. -/
def ofChars (source : List Char) : Scan :=
  let pieces := Piece.located .start (Piece.all source)
  let stop := Position.start.advance source
  { tokens := pieces.filterMap token? ++ [endToken stop]
    diagnostics := pieces.filterMap (diagnostic? stop.offset) }

def of (source : String) : Scan := ofChars source.toList

end Scan

end ScriptGlue
