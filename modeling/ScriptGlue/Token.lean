/-!
# Tokens of an annotated header

Only the constructs that declare annotated types are tokens. Numbers, operators and commas have
none. A token keeps its text and the place it was read from.
-/

namespace ScriptGlue

/-- A place between two characters of a source: bytes before it, and its line and column from 1. -/
structure Position where
  offset : Nat
  line : Nat
  column : Nat
deriving Repr, DecidableEq, Inhabited

namespace Position

def start : Position := ⟨0, 1, 1⟩

/-- The place behind `c`. A newline begins a line, any other character fills one column. -/
def after (p : Position) (c : Char) : Position :=
  if c = '\n' then ⟨p.offset + 1, p.line + 1, 1⟩
  else ⟨p.offset + c.utf8Size, p.line, p.column + 1⟩

def advance (p : Position) (text : List Char) : Position :=
  text.foldl after p

theorem advance_nil (p : Position) : p.advance [] = p := rfl

theorem advance_cons (p : Position) (c : Char) (text : List Char) :
    p.advance (c :: text) = (p.after c).advance text := rfl

theorem advance_append (p : Position) (a b : List Char) :
    p.advance (a ++ b) = (p.advance a).advance b :=
  List.foldl_append

end Position

/-- A stretch of source: first byte, byte behind the last, and the line and column it begins at. -/
structure Span where
  first : Nat
  stop : Nat
  line : Nat
  column : Nat
deriving Repr, DecidableEq, Inhabited

namespace Span

def fromTo (p : Position) (stop : Nat) : Span := ⟨p.offset, stop, p.line, p.column⟩

def text (s : Span) : String := s!"{s.line}:{s.column}"

end Span

namespace Token

inductive Kind
  | openParen | closeParen | openBrace | closeBrace | openAngle | closeAngle
  | colon | semicolon | equals | star | ampersand | hash
  /-- A quoted literal; its text includes the quotes. -/
  | literal
  | identifier
  | classWord | structWord | constWord | autoWord
  | typeMarker | aggregateMarker | fieldMarker | methodMarker
  | endOfInput
deriving Repr, DecidableEq, Inhabited

namespace Kind

def punctuation : List (Char × Kind) :=
  [('(', openParen), (')', closeParen), ('\x7b', openBrace), ('\x7d', closeBrace),
   ('<', openAngle), ('>', closeAngle), (':', colon), (';', semicolon),
   ('=', equals), ('*', star), ('&', ampersand), ('#', hash)]

/-- The words that are no identifiers. -/
def reserved : List (String × Kind) :=
  [("class", classWord), ("struct", structWord), ("const", constWord), ("auto", autoWord),
   ("UCLASS", typeMarker), ("USTRUCT", aggregateMarker),
   ("UPROPERTY", fieldMarker), ("UFUNCTION", methodMarker)]

def ofPunctuation? (c : Char) : Option Kind := punctuation.lookup c

/-- The kind of a word: its reserved kind, or an identifier. -/
def ofWord (word : String) : Kind := (reserved.lookup word).getD identifier

def isTypeMarker : Kind → Bool
  | typeMarker | aggregateMarker => true
  | _ => false

def isMarker : Kind → Bool
  | typeMarker | aggregateMarker | fieldMarker | methodMarker => true
  | _ => false

def isTypeKeyword : Kind → Bool
  | classWord | structWord => true
  | _ => false

def text : Kind → String
  | openParen => "'('"
  | closeParen => "')'"
  | openBrace => "'\x7b'"
  | closeBrace => "'\x7d'"
  | openAngle => "'<'"
  | closeAngle => "'>'"
  | colon => "':'"
  | semicolon => "';'"
  | equals => "'='"
  | star => "'*'"
  | ampersand => "'&'"
  | hash => "'#'"
  | literal => "string literal"
  | identifier => "identifier"
  | classWord => "'class'"
  | structWord => "'struct'"
  | constWord => "'const'"
  | autoWord => "'auto'"
  | typeMarker => "'UCLASS'"
  | aggregateMarker => "'USTRUCT'"
  | fieldMarker => "'UPROPERTY'"
  | methodMarker => "'UFUNCTION'"
  | endOfInput => "end of input"

end Kind

end Token

/-- A token, its source text and its place. The end of input has the text `EOF`. -/
structure Token where
  kind : Token.Kind
  lexeme : String
  span : Span
deriving Repr, DecidableEq, Inhabited

end ScriptGlue
