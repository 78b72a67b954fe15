import ScriptGlue.Proofs.Token.Exact

/-!
# Scanning undoes printing

Lexemes are printed with blanks and comments in front, between and behind. Scanning reads the
lexemes back, each with its kind, whatever the comments say (`scan_text`).
-/

namespace ScriptGlue

namespace Layout
open Piece

/-- Text that means nothing. -/
inductive Trivia
  | blank (c : Char) (blank : isBlank c)
  | line (body : List Char) (clear : '\n' ∉ body)
  | block (body : List Char) (free : ¬commentEnd <:+: body)

/-- A text that is one token. -/
inductive Lexeme
  | identifier (word : String) (isWord : IsWord word)
      (free : ∀ e ∈ Token.Kind.reserved, e.1 ≠ word)
  | reserved (word : String) (kind : Token.Kind) (known : (word, kind) ∈ Token.Kind.reserved)
  | punctuation (c : Char) (kind : Token.Kind) (known : (c, kind) ∈ Token.Kind.punctuation)
  | literal (body : List Char) (inside : LiteralBody body)

def Trivia.text : Trivia → List Char
  | blank c _ => [c]
  | line body _ => '/' :: '/' :: (body ++ ['\n'])
  | block body _ => '/' :: '*' :: (body ++ commentEnd)

namespace Lexeme

def text : Lexeme → List Char
  | identifier word _ _ | reserved word _ _ => word.toList
  | punctuation c _ _ => [c]
  | literal body _ => '"' :: (body ++ ['"'])

def kind : Lexeme → Token.Kind
  | identifier .. => .identifier
  | reserved _ kind _ | punctuation _ kind _ => kind
  | literal .. => .literal

end Lexeme

end Layout

/-- Lexemes laid out: trivia in front of them, and trivia behind each. -/
structure Layout where
  front : List Layout.Trivia
  items : List (Layout.Lexeme × List Layout.Trivia)
  /-- No lexeme touches the next. -/
  apart : ∀ item ∈ items.dropLast, item.2 ≠ []

namespace Layout
open Piece

def text (l : Layout) : List Char :=
  l.front.flatMap Trivia.text ++
    l.items.flatMap fun item => item.1.text ++ item.2.flatMap Trivia.text

/-! ### Trivia -/

/-- The newline behind a line comment is a piece of its own. -/
def Trivia.pieces : Trivia → List Piece
  | blank c _ => [.trivia [c]]
  | line body _ => [.trivia ('/' :: '/' :: body), .trivia ['\n']]
  | block body _ => [.trivia ('/' :: '*' :: (body ++ commentEnd))]

theorem Trivia.text_pieces (t : Trivia) : t.pieces.flatMap Piece.text = t.text := by
  cases t with
  | blank c _ => rfl
  | line body _ => simp [pieces, text, Piece.text]
  | block body _ => simp [pieces, text, Piece.text]

theorem apart_of_isBlank {c : Char} (blank : isBlank c) : c ≠ '"' ∧ c ≠ '/' ∧
    isWordStart c = false ∧ isWordPart c = false ∧ Token.Kind.ofPunctuation? c = none := by
  have six : c = ' ' ∨ c = '\t' ∨ c = '\r' ∨ c = '\n' ∨ c = '\x0b' ∨ c = '\x0c' := by
    simpa [isBlank, or_assoc] using blank
  rcases six with rfl | rfl | rfl | rfl | rfl | rfl <;> decide

theorem leads_blank {c : Char} (blank : isBlank c) (rest : List Char) :
    Leads (.trivia [c]) rest := by
  obtain ⟨quote, slash, start, -, unknown⟩ := apart_of_isBlank blank
  exact .single quote start unknown fun same => absurd same slash

theorem Trivia.cut_append (t : Trivia) {ps : List Piece} (cut : Cut ps) :
    Cut (t.pieces ++ ps) := by
  cases t with
  | blank c blank => exact ⟨leads_blank blank _, cut⟩
  | line body clear =>
    refine ⟨.lineComment clear ?_, leads_blank rfl _, cut⟩
    intro c head
    exact (Option.some.inj head).symm
  | block body free => exact ⟨.comment free _, cut⟩

theorem cut_trivia (ts : List Trivia) {ps : List Piece} (cut : Cut ps) :
    Cut (ts.flatMap Trivia.pieces ++ ps) := by
  induction ts with
  | nil => exact cut
  | cons t ts ih =>
    rw [List.flatMap_cons, List.append_assoc]
    exact t.cut_append ih

theorem text_trivia (ts : List Trivia) :
    (ts.flatMap Trivia.pieces).flatMap Piece.text = ts.flatMap Trivia.text := by
  rw [List.flatMap_assoc]
  simp only [Trivia.text_pieces]

theorem Trivia.ends_text (t : Trivia) (rest : List Char) :
    ∀ c ∈ (t.text ++ rest).head?, isWordPart c = false := by
  intro c head
  cases t with
  | blank b blank =>
    obtain rfl := Option.some.inj head
    exact (apart_of_isBlank blank).2.2.2.1
  | line body _ =>
    obtain rfl := Option.some.inj head
    rfl
  | block body _ =>
    obtain rfl := Option.some.inj head
    rfl

/-! ### Lexemes -/

theorem leads_word {word : String} (isWord : IsWord word) {rest : List Char}
    (ends : ∀ c ∈ rest.head?, isWordPart c = false) :
    Leads (.token (Token.Kind.ofWord word) word.toList) rest := by
  obtain ⟨first, parts, whole, start, continues⟩ := isWord
  have leads := Leads.word start continues ends
  rw [← whole, String.ofList_toList] at leads
  exact leads

theorem Lexeme.leads (l : Lexeme) {rest : List Char}
    (ends : ∀ c ∈ rest.head?, isWordPart c = false) : Leads (.token l.kind l.text) rest := by
  cases l with
  | identifier word isWord free =>
    have leads := leads_word isWord ends
    rw [Token.Kind.ofWord_eq_identifier_iff.mpr free] at leads
    exact leads
  | reserved word kind known =>
    have words : ∀ e ∈ Token.Kind.reserved, IsWord e.1 ∧ Token.Kind.ofWord e.1 = e.2 := by decide
    obtain ⟨isWord, same⟩ := words _ known
    have leads := leads_word isWord ends
    rw [same] at leads
    exact leads
  | punctuation c kind known =>
    have marks : ∀ e ∈ Token.Kind.punctuation, Token.Kind.ofPunctuation? e.1 = some e.2 := by
      decide
    exact .punctuation (marks _ known) rest
  | literal body inside => exact .literal inside rest

theorem Lexeme.kind_eq_iff (l : Lexeme) {e : String × Token.Kind}
    (member : e ∈ Token.Kind.reserved) : l.kind = e.2 ↔ String.ofList l.text = e.1 := by
  cases l with
  | identifier word isWord free =>
    have kinds : ∀ e ∈ Token.Kind.reserved, e.2 ≠ .identifier := by decide
    rw [text, String.ofList_toList]
    exact iff_of_false (kinds e member).symm (free e member).symm
  | reserved word kind known =>
    have table : ∀ e ∈ Token.Kind.reserved, ∀ d ∈ Token.Kind.reserved,
        e.2 = d.2 ↔ e.1 = d.1 := by decide
    rw [text, String.ofList_toList]
    exact table _ known e member
  | punctuation c kind known =>
    have apart : ∀ m ∈ Token.Kind.punctuation, ∀ e ∈ Token.Kind.reserved,
        m.2 ≠ e.2 ∧ String.ofList [m.1] ≠ e.1 := by decide
    exact iff_of_false (apart _ known e member).1 (apart _ known e member).2
  | literal body inside =>
    have apart : ∀ e ∈ Token.Kind.reserved, e.2 ≠ .literal ∧ '"' ∉ e.1.toList := by decide
    refine iff_of_false (apart e member).1.symm fun same => (apart e member).2 ?_
    rw [← same, text, String.toList_ofList]
    exact List.mem_cons_self

/-! ### Layouts -/

def itemPieces (item : Lexeme × List Trivia) : List Piece :=
  .token item.1.kind item.1.text :: item.2.flatMap Trivia.pieces

def pieces (l : Layout) : List Piece := l.front.flatMap Trivia.pieces ++ l.items.flatMap itemPieces

theorem text_pieces (l : Layout) : l.pieces.flatMap Piece.text = l.text := by
  have item (i : Lexeme × List Trivia) :
      (itemPieces i).flatMap Piece.text = i.1.text ++ i.2.flatMap Trivia.text := by
    rw [itemPieces, List.flatMap_cons, text_trivia]
    rfl
  rw [pieces, List.flatMap_append, text_trivia, List.flatMap_assoc, text]
  simp only [item]

/-- Where a lexeme ends the trivia behind it says, or the end of the source. -/
theorem ends_items {behind : List Trivia} {items : List (Lexeme × List Trivia)}
    (apart : items ≠ [] → behind ≠ []) :
    ∀ c ∈ ((behind.flatMap Trivia.pieces ++ items.flatMap itemPieces).flatMap
      Piece.text).head?, isWordPart c = false := by
  intro c head
  rw [List.flatMap_append, text_trivia] at head
  cases behind with
  | nil =>
    cases items with
    | nil => exact nomatch head
    | cons item items => exact absurd rfl (apart (List.cons_ne_nil item items))
  | cons t ts =>
    rw [List.flatMap_cons, List.append_assoc] at head
    exact t.ends_text _ c head

theorem cut_items {items : List (Lexeme × List Trivia)}
    (apart : ∀ item ∈ items.dropLast, item.2 ≠ []) : Cut (items.flatMap itemPieces) := by
  induction items with
  | nil => trivial
  | cons item items ih =>
    have later : ∀ other ∈ items.dropLast, other.2 ≠ [] := by
      intro other member
      apply apart
      cases items with
      | nil => exact nomatch member
      | cons next items => exact List.mem_cons_of_mem item member
    have here : items ≠ [] → item.2 ≠ [] := by
      intro more
      apply apart
      cases items with
      | nil => exact absurd rfl more
      | cons next items => exact List.mem_cons_self
    rw [List.flatMap_cons, itemPieces, List.cons_append]
    exact ⟨item.1.leads (ends_items here), cut_trivia item.2 (ih later)⟩

theorem all_text (l : Layout) : all l.text = l.pieces := by
  rw [all_eq_iff, text_pieces]
  exact ⟨rfl, cut_trivia l.front (cut_items l.apart)⟩

end Layout

/-! ### Scanning a layout -/

/-- What a piece is read as: a kind and a text. -/
def Piece.reading? : Piece → Option (Token.Kind × String)
  | token kind text => some (kind, String.ofList text)
  | _ => none

theorem Scan.map_tokensFrom (p : Position) (pieces : List Piece) :
    (tokensFrom p pieces).map (fun t => (t.kind, t.lexeme)) =
      pieces.filterMap Piece.reading? ++ [(.endOfInput, "EOF")] := by
  induction pieces generalizing p with
  | nil => rfl
  | cons piece pieces ih =>
    cases piece with
    | token kind text =>
      rw [tokensFrom_token, List.map_cons, ih]
      rfl
    | trivia text =>
      rw [tokensFrom_of_kind?_eq_none rfl, ih]
      rfl
    | openQuote text =>
      rw [tokensFrom_of_kind?_eq_none rfl, ih]
      rfl

namespace Layout
open Piece

theorem reading_trivia (ts : List Trivia) :
    (ts.flatMap Trivia.pieces).filterMap reading? = [] := by
  rw [List.filterMap_flatMap, List.flatMap_eq_nil_iff]
  intro t _
  cases t <;> rfl

theorem reading_pieces (l : Layout) : l.pieces.filterMap reading? =
    l.items.map fun item => (item.1.kind, String.ofList item.1.text) := by
  have item (i : Lexeme × List Trivia) : (itemPieces i).filterMap reading? =
      [(i.1.kind, String.ofList i.1.text)] := by
    rw [itemPieces, List.filterMap_cons, reading_trivia]
    rfl
  rw [pieces, List.filterMap_append, reading_trivia, List.filterMap_flatMap, List.nil_append]
  simp only [item]
  exact List.map_eq_flatMap.symm

theorem openQuote_not_mem_trivia (ts : List Trivia) (text : List Char) :
    .openQuote text ∉ ts.flatMap Trivia.pieces := by
  intro member
  obtain ⟨t, -, inside⟩ := List.mem_flatMap.mp member
  cases t <;> simp [Trivia.pieces] at inside

theorem openQuote_not_mem_pieces (l : Layout) (text : List Char) : .openQuote text ∉ l.pieces := by
  intro member
  rcases List.mem_append.mp member with front | later
  · exact openQuote_not_mem_trivia l.front text front
  · obtain ⟨item, -, inside⟩ := List.mem_flatMap.mp later
    rcases List.mem_cons.mp inside with lexeme | behind
    · exact nomatch lexeme
    · exact openQuote_not_mem_trivia item.2 text behind

/-- Scanning undoes printing: of a layout are read its lexemes, each with its kind, and the end, and
nothing is complained about. Of a reserved kind are exactly the lexemes that are the reserved word. -/
theorem scan_text (l : Layout) :
    (Scan.of (String.ofList l.text)).tokens.map (fun t => (t.kind, t.lexeme)) =
      l.items.map (fun item => (item.1.kind, String.ofList item.1.text)) ++
        [(.endOfInput, "EOF")] ∧
    (Scan.of (String.ofList l.text)).diagnostics = [] ∧
    ∀ item ∈ l.items, ∀ e ∈ Token.Kind.reserved,
      (item.1.kind = e.2 ↔ String.ofList item.1.text = e.1) := by
  rw [Scan.of, String.toList_ofList]
  refine ⟨?_, ?_, fun item _ e => item.1.kind_eq_iff⟩
  · rw [Scan.tokens_ofChars, all_text, Scan.map_tokensFrom, reading_pieces]
  · rw [Scan.diagnostics_ofChars, Scan.diagnosticsFrom_eq_nil_iff, all_text]
    exact openQuote_not_mem_pieces l

/-- Openers inside comments, a marker and quotes inside comments and literals, and a word that begins like a
reserved one. -/
def nested : Layout where
  front := [.block ['/'] (by decide)]
  items :=
    [(.identifier "classy" (by decide) (by decide), [.block ['*'] (by decide)]),
      (.reserved "class" .classWord (by decide), [.line "\"UCLASS".toList (by decide)]),
      (.literal "/*\\\"".toList
        (.plain (by decide) (by decide) (.plain (by decide) (by decide) (.escape '"' .nil))), [.blank ' ' rfl]),
      (.reserved "UCLASS" .typeMarker (by decide), [.block " // ".toList (by decide)])]
  apart := by decide

example : String.ofList nested.text = "/*/*/classy/***/class//\"UCLASS\n\"/*\\\"\" UCLASS/* // */" ∧
    (Scan.of (String.ofList nested.text)).tokens.map (fun t => (t.kind, t.lexeme)) =
      [(.identifier, "classy"), (.classWord, "class"), (.literal, "\"/*\\\"\""),
        (.typeMarker, "UCLASS"), (.endOfInput, "EOF")] := by
  decide +kernel

end Layout

end ScriptGlue
