import ScriptGlue.ScriptType
import ScriptGlue.Token.Scan

/-!
# Extraction

Annotated types are read from tokens. A type marker begins a segment that runs up to the next type
marker, and nothing of a declaration reaches past its segment. Inside a segment the first `class` or
`struct` is followed by the type's name, and each field marker by one declaration.
-/

namespace ScriptGlue

/-- A declaration split into the name it declares and the tokens of its type. -/
structure Declarator where
  name : Token
  typeTokens : List Token
deriving Repr, DecidableEq, Inhabited

namespace Declarator

/-- Reads a declaration. A scalar keyword and an identifier in front decide it, whatever follows;
otherwise the last token is the name and must be an identifier with a type before it. -/
def ofTokens? (tokens : List Token) : Option Declarator :=
  match leading? tokens with
  | some d => some d
  | none =>
    match tokens.getLast?, tokens.dropLast with
    | some name, t :: ts => if name.kind = .identifier then some ⟨name, t :: ts⟩ else none
    | _, _ => none
where
  /-- A scalar keyword and an identifier at the front. -/
  leading? : List Token → Option Declarator
    | type :: name :: _ =>
      if type.kind = .identifier && name.kind = .identifier
          && FieldType.ofKeyword type.lexeme ≠ .unknown then
        some ⟨name, [type]⟩
      else none
    | _ => none

/-- The declared type: one keyword is a scalar, all else is unknown. -/
def type (d : Declarator) : FieldType :=
  match d.typeTokens with
  | [t] => if t.kind = .identifier then FieldType.ofKeyword t.lexeme else .unknown
  | _ => .unknown

def isWord (t : Token) : Bool := t.kind = .identifier || t.kind = .autoWord

def spell : List Token → String
  | [] => ""
  | [t] => t.lexeme
  | t :: u :: rest =>
    t.lexeme ++ (if isWord t && isWord u then " " else "") ++ spell (u :: rest)

def typeText (d : Declarator) : String := spell d.typeTokens

end Declarator

/-- What one member marker in a type's body amounts to. -/
inductive Member
  | field (declarator : Declarator)
  | malformed (marker : Span)
  | method (marker : Span)
deriving Repr, DecidableEq, Inhabited

namespace Member

def closeParens (depth : Nat) : List Token → Option (List Token)
  | [] => none
  | t :: rest =>
    match t.kind, depth with
    | .openParen, _ => closeParens (depth + 1) rest
    | .closeParen, 0 => some rest
    | .closeParen, d + 1 => closeParens d rest
    | _, _ => closeParens depth rest

/-- The tokens behind a marker's argument list, if it has one; none if the list is not closed. -/
def afterArguments : List Token → Option (List Token)
  | [] => some []
  | t :: rest => if t.kind = .openParen then closeParens 0 rest else some (t :: rest)

def endsDeclaration (t : Token) : Bool :=
  t.kind.isMarker || t.kind = .semicolon || t.kind = .equals || t.kind = .openBrace

def ofDeclaration (marker : Span) (tokens : List Token) : Member :=
  match Declarator.ofTokens? (tokens.filter (·.kind ≠ .constWord)) with
  | some d => .field d
  | none => .malformed marker

/-- The member that a field marker makes of the tokens behind it, and the tokens left over. -/
def ofMarker (marker : Span) (tokens : List Token) : Member × List Token :=
  match afterArguments tokens with
  | none => (.malformed marker, [])
  | some rest =>
    (ofDeclaration marker (rest.takeWhile fun t => !endsDeclaration t),
      rest.dropWhile fun t => !endsDeclaration t)

theorem length_closeParens {depth : Nat} {tokens rest : List Token}
    (h : closeParens depth tokens = some rest) : rest.length ≤ tokens.length := by
  fun_induction closeParens depth tokens <;> simp_all <;> omega

theorem length_ofMarker (marker : Span) (tokens : List Token) :
    (ofMarker marker tokens).2.length ≤ tokens.length := by
  unfold ofMarker
  split
  · simp
  · rename_i rest h
    have drop := (List.dropWhile_suffix (fun t => !endsDeclaration t) (l := rest)).length_le
    have args : rest.length ≤ tokens.length := by
      unfold afterArguments at h
      split at h
      · cases h; simp
      · split at h
        · have := length_closeParens h
          simp; omega
        · cases h; simp
    exact Nat.le_trans drop args

/-- The members of a type's body, in the order of their markers. -/
def ofBody : List Token → List Member
  | [] => []
  | t :: rest =>
    match t.kind with
    | .fieldMarker =>
      let split := ofMarker t.span rest
      split.1 :: ofBody split.2
    | .methodMarker => .method t.span :: ofBody rest
    | _ => ofBody rest
termination_by tokens => tokens.length
decreasing_by
  · have := length_ofMarker t.span rest
    simp; omega
  · simp
  · simp

def diagnostic? (typeName : String) : Member → Option Diagnostic
  | .field d =>
    if d.type.isAccessible then none
    else some (.unknownFieldType typeName d.name.lexeme d.typeText d.name.span)
  | .malformed marker => some (.malformedField typeName marker)
  | .method marker => some (.methodIgnored typeName marker)

def field? (typeName : String) : Member → Option Field
  | .field d => some (Field.declared typeName d.type d.name.lexeme)
  | _ => none

end Member

/-- A type marker and the tokens from it up to the next one. -/
structure Segment where
  marker : Span
  tokens : List Token
deriving Repr, DecidableEq, Inhabited

/-- Annotated types and complaints, each in source order. -/
structure Extraction where
  types : List ScriptType
  diagnostics : List Diagnostic
deriving Repr, DecidableEq, Inhabited

namespace Segment

def all : List Token → List Segment
  | [] => []
  | t :: rest =>
    if t.kind.isTypeMarker then
      ⟨t.span, rest.takeWhile fun u => !u.kind.isTypeMarker⟩ :: all rest
    else all rest

def declaration? (s : Segment) : Option (Token × List Token) :=
  match s.tokens.dropWhile fun t => !t.kind.isTypeKeyword with
  | _ :: name :: body => if name.kind = .identifier then some (name, body) else none
  | _ => none

def extract (s : Segment) : Extraction :=
  match s.declaration? with
  | none => ⟨[], [.missingTypeName s.marker]⟩
  | some (name, body) =>
    let members := Member.ofBody body
    let type := ScriptType.declared name.lexeme
    ⟨[{ type with fields := members.filterMap (Member.field? name.lexeme) }],
      members.filterMap (Member.diagnostic? name.lexeme)⟩

end Segment

namespace Extraction

/-- Reads the tokens before the first end of input. -/
def ofTokens (tokens : List Token) : Extraction :=
  let parts := (Segment.all (tokens.takeWhile (·.kind ≠ .endOfInput))).map Segment.extract
  ⟨parts.flatMap (·.types), parts.flatMap (·.diagnostics)⟩

/-- Reads a source. Complaints of scanning come before those of extraction. -/
def ofSource (source : String) : Extraction :=
  let scan := Scan.of source
  let found := ofTokens scan.tokens
  ⟨found.types, scan.diagnostics ++ found.diagnostics⟩

end Extraction

end ScriptGlue
