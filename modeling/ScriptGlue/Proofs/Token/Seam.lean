import ScriptGlue.Proofs.Token.Place

/-!
# Sources one behind the other

A newline ends every mode of the scanner but an open comment and a literal that nothing closes, so
what is behind it is scanned as if it stood alone, only further on (`of_append_newline`).
-/

namespace ScriptGlue

/-! ### Places further on -/

namespace Position

/-- The same place in a source that has so many bytes and lines more in front. -/
def shift (bytes lines : Nat) (p : Position) : Position :=
  { p with offset := p.offset + bytes, line := p.line + lines }

theorem after_shift (bytes lines : Nat) (p : Position) (c : Char) :
    (p.shift bytes lines).after c = (p.after c).shift bytes lines := by
  unfold after shift
  split
  · simp only [Nat.add_right_comm]
  · simp only [Nat.add_right_comm]

theorem advance_shift (bytes lines : Nat) (p : Position) (text : List Char) :
    (p.shift bytes lines).advance text = (p.advance text).shift bytes lines := by
  induction text generalizing p with
  | nil => rfl
  | cons c text ih => rw [advance_cons, after_shift, ih, advance_cons]

end Position

def Span.shift (bytes lines : Nat) (s : Span) : Span :=
  { s with first := s.first + bytes, stop := s.stop + bytes, line := s.line + lines }

def Token.shift (bytes lines : Nat) (t : Token) : Token :=
  { t with span := t.span.shift bytes lines }

def Diagnostic.shift (bytes lines : Nat) : Diagnostic → Diagnostic
  | unterminatedString s => unterminatedString (s.shift bytes lines)
  | missingTypeName s => missingTypeName (s.shift bytes lines)
  | unknownFieldType t f d s => unknownFieldType t f d (s.shift bytes lines)
  | malformedField t s => malformedField t (s.shift bytes lines)
  | methodIgnored t s => methodIgnored t (s.shift bytes lines)

namespace Piece

theorem located_shift (bytes lines : Nat) (p : Position) (ps : List Piece) :
    located (p.shift bytes lines) ps =
      (located p ps).map fun e => (e.1.shift bytes lines, e.2) := by
  induction ps generalizing p with
  | nil => rfl
  | cons piece ps ih => rw [located, Position.advance_shift, ih, located, List.map_cons]

end Piece

namespace Scan

theorem tokensFrom_shift (bytes lines : Nat) (p : Position) (ps : List Piece) :
    tokensFrom (p.shift bytes lines) ps = (tokensFrom p ps).map (Token.shift bytes lines) := by
  induction ps generalizing p with
  | nil => rfl
  | cons piece ps ih =>
    cases piece with
    | token kind text =>
      rw [tokensFrom_token, Position.advance_shift, ih, tokensFrom_token, List.map_cons]
      rfl
    | trivia text =>
      rw [tokensFrom_of_kind?_eq_none rfl, Position.advance_shift, ih,
        tokensFrom_of_kind?_eq_none rfl]
    | openQuote text =>
      rw [tokensFrom_of_kind?_eq_none rfl, Position.advance_shift, ih,
        tokensFrom_of_kind?_eq_none rfl]

theorem diagnosticsFrom_shift (bytes lines stop : Nat) (p : Position) (ps : List Piece) :
    diagnosticsFrom (stop + bytes) (p.shift bytes lines) ps =
      (diagnosticsFrom stop p ps).map (Diagnostic.shift bytes lines) := by
  unfold diagnosticsFrom
  rw [Piece.located_shift, List.filterMap_map, List.map_filterMap]
  congr 1
  funext ⟨place, piece⟩
  cases piece <;> rfl

end Scan

/-! ### The seam -/

namespace Piece

/-- A comment that nothing ends. -/
def isOpenComment : Piece → Bool
  | trivia ('/' :: '*' :: body) => !decide (commentEnd <:+: body)
  | _ => false

/-- A comment up to the end of its line. -/
def isLineComment : Piece → Bool
  | trivia ('/' :: '/' :: _) => true
  | _ => false

/-- A piece stays the first where a character that it could not take in comes to stand behind. -/
theorem Leads.before {p : Piece} {rest : List Char} {c : Char} (leads : Leads p rest)
    (noQuote : ∀ text, p ≠ .openQuote text) (noComment : ¬p.isOpenComment)
    (apart : isWordPart c = false ∧ c ≠ '/' ∧ c ≠ '*')
    (line : rest = [] → p.isLineComment → c = '\n') (more : List Char) :
    Leads p (rest ++ c :: more) := by
  -- Only when nothing followed the piece is the character what it now has in front of it.
  have front {d : Char} (head : d ∈ (rest ++ c :: more).head?) :
      d ∈ rest.head? ∨ rest = [] ∧ d = c := by
    cases rest with
    | nil => exact .inr ⟨rfl, (Option.some.inj head).symm⟩
    | cons e rest => exact .inl head
  cases leads with
  | lineComment clear ends =>
    refine .lineComment clear fun d head => ?_
    rcases front head with inside | ⟨last, rfl⟩
    · exact ends d inside
    · exact line last rfl
  | comment free => exact .comment free _
  | openComment free => exact absurd (by simpa [isOpenComment] using free) noComment
  | literal inside => exact .literal inside _
  | openQuote => exact absurd rfl (noQuote _)
  | lastQuote => exact absurd rfl (noQuote _)
  | word start continues ends =>
    refine .word start continues fun d head => ?_
    rcases front head with inside | ⟨-, rfl⟩
    · exact ends d inside
    · exact apart.1
  | punctuation known => exact .punctuation known _
  | single quote start unknown noComment =>
    refine .single quote start unknown fun slash d head => ?_
    rcases front head with inside | ⟨-, rfl⟩
    · exact noComment slash d inside
    · exact apart.2

section Append

variable {c : Char} (apart : isWordPart c = false ∧ c ≠ '/' ∧ c ≠ '*')
include apart

theorem cut_append {ps qs : List Piece} {rest : List Char} (cut : Cut ps)
    (noQuote : ∀ text, .openQuote text ∉ ps) (noComment : ∀ p ∈ ps, ¬p.isOpenComment)
    (line : ∀ p ∈ ps.getLast?, p.isLineComment → c = '\n') (behind : Cut qs)
    (front : qs.flatMap text = c :: rest) : Cut (ps ++ qs) := by
  induction ps with
  | nil => exact behind
  | cons p ps ih =>
    have leads : Leads p ((ps ++ qs).flatMap text) := by
      rw [List.flatMap_append, front]
      refine cut.1.before ?_ (noComment p List.mem_cons_self) apart (fun nothing => ?_) rest
      · rintro text rfl
        exact noQuote text List.mem_cons_self
      · obtain rfl := cut.2.eq_nil nothing
        exact line p rfl
    refine ⟨leads, ih cut.2 ?_ ?_ fun q last => line q ?_⟩
    · exact fun text member => noQuote text (List.mem_cons_of_mem p member)
    · exact fun q member => noComment q (List.mem_cons_of_mem p member)
    · rw [List.getLast?_cons, Option.mem_def.mp last]
      rfl

/-- A source that leaves nothing open in front of a character is cut as it is on its own, and so is
what begins with the character. -/
theorem all_append {a b : List Char} (noQuote : ∀ text, .openQuote text ∉ all a)
    (noComment : ∀ p ∈ all a, ¬p.isOpenComment)
    (line : ∀ p ∈ (all a).getLast?, p.isLineComment → c = '\n') (first : b.head? = some c) :
    all (a ++ b) = all a ++ all b := by
  obtain ⟨rest, rfl⟩ := List.head?_eq_some_iff.mp first
  obtain ⟨textA, cutA⟩ := cut_all a
  obtain ⟨textB, cutB⟩ := cut_all (c :: rest)
  refine all_eq_iff.mpr ⟨?_, cut_append apart cutA noQuote noComment line cutB textB⟩
  rw [List.flatMap_append, textA, textB]

end Append

theorem all_append_of_newline {a b : List Char} (noQuote : ∀ text, .openQuote text ∉ all a)
    (noComment : ∀ p ∈ all a, ¬p.isOpenComment) (newline : b.head? = some '\n') :
    all (a ++ b) = all a ++ all b :=
  all_append (by decide) noQuote noComment (fun _ _ _ => rfl) newline

theorem all_append_newline {a : List Char} (noQuote : ∀ text, .openQuote text ∉ all a)
    (noComment : ∀ p ∈ all a, ¬p.isOpenComment) (b : List Char) :
    all (a ++ '\n' :: b) = all a ++ .trivia ['\n'] :: all b := by
  have own : all ('\n' :: b) = .trivia ['\n'] :: all b := all_of_next rfl
  rw [all_append_of_newline noQuote noComment rfl, own]

end Piece

namespace Scan

/-- The source ends inside a comment that nothing ends. -/
def EndsInComment (source : String) : Prop := ∃ p ∈ Piece.all source.toList, p.isOpenComment

instance (source : String) : Decidable (EndsInComment source) :=
  inferInstanceAs (Decidable (∃ p ∈ Piece.all source.toList, p.isOpenComment))

theorem dropLast_tokens (source : List Char) : (ofChars source).tokens.dropLast =
    (Piece.located .start (Piece.all source)).filterMap token? :=
  List.dropLast_concat

theorem advance_line (a : String) : Position.start.advance (a.toList ++ ['\n']) =
    Position.start.shift (a.utf8ByteSize + 1) (a.toList.count '\n' + 1) := by
  rw [Position.advance_append, Position.advance_start, String.ofList_toList]
  have lines : 1 + a.toList.count '\n' + 1 = 1 + (a.toList.count '\n' + 1) := by omega
  simp [Position.advance, Position.after, Position.behind, Position.shift, Position.start, lines]

/-- Behind a source that leaves no literal and no comment open, and behind a newline, another is
scanned as it is on its own: its tokens and complaints are those of it alone, moved on by the bytes
and lines in front. -/
theorem of_append_newline {a : String} (silent : (Scan.of a).diagnostics = [])
    (closed : ¬EndsInComment a) (b : String) :
    (Scan.of (a ++ "\n" ++ b)).tokens = (Scan.of a).tokens.dropLast ++
      (Scan.of b).tokens.map (Token.shift (a.utf8ByteSize + 1) (a.toList.count '\n' + 1)) ∧
    (Scan.of (a ++ "\n" ++ b)).diagnostics = (Scan.of b).diagnostics.map
      (Diagnostic.shift (a.utf8ByteSize + 1) (a.toList.count '\n' + 1)) := by
  have noQuote := diagnosticsFrom_eq_nil_iff.mp silent
  have noComment : ∀ p ∈ Piece.all a.toList, ¬p.isOpenComment := by
    intro p member isOpen
    exact closed ⟨p, member, isOpen⟩
  have whole : (a ++ "\n" ++ b).toList = a.toList ++ '\n' :: b.toList := by simp
  have pieces := Piece.all_append_newline noQuote noComment b.toList
  have seam : (Position.start.advance a.toList).advance ['\n'] =
      Position.start.shift (a.utf8ByteSize + 1) (a.toList.count '\n' + 1) := by
    rw [← Position.advance_append, advance_line]
  constructor
  · rw [Scan.of, whole, tokens_ofChars, pieces, tokensFrom_append,
      tokensFrom_of_kind?_eq_none rfl, (Piece.cut_all a.toList).1, Piece.text, seam,
      tokensFrom_shift, ← tokens_ofChars, Scan.of, dropLast_tokens, Scan.of]
  · have stop : (Position.start.advance (a.toList ++ '\n' :: b.toList)).offset =
        (Position.start.advance b.toList).offset + (a.utf8ByteSize + 1) := by
      rw [← List.singleton_append, Position.advance_append, Position.advance_append, seam,
        Position.advance_shift]
      rfl
    rw [Scan.of, whole, diagnostics_ofChars, pieces, diagnosticsFrom_append,
      diagnosticsFrom_eq_nil_iff.mpr noQuote, List.nil_append, (Piece.cut_all a.toList).1, stop]
    change diagnosticsFrom _ ((Position.start.advance a.toList).advance ['\n']) _ = _
    rw [seam, diagnosticsFrom_shift]
    rfl

/-- Ends in a line comment that looks like the beginning of another. -/
def commentedSource : String := "é \"\\\"\" // /* \\"

def quotedSource : String := "x \"y"

theorem of_append_newline_commentedSource :
    (Scan.of commentedSource).diagnostics = [] ∧ ¬EndsInComment commentedSource ∧
    (Scan.of (commentedSource ++ "\n" ++ quotedSource)).tokens =
      [⟨.literal, "\"\\\"\"", ⟨3, 7, 1, 3⟩⟩, ⟨.identifier, "x", ⟨16, 17, 2, 1⟩⟩,
        ⟨.endOfInput, "EOF", ⟨20, 20, 2, 5⟩⟩] ∧
    (Scan.of (commentedSource ++ "\n" ++ quotedSource)).diagnostics =
      [.unterminatedString ⟨18, 20, 2, 3⟩] := by
  have silent : (Scan.of commentedSource).diagnostics = [] := by decide +kernel
  have closed : ¬EndsInComment commentedSource := by decide +kernel
  obtain ⟨tokens, complaints⟩ := of_append_newline silent closed quotedSource
  exact ⟨silent, closed, tokens.trans (by decide +kernel), complaints.trans (by decide +kernel)⟩

end Scan

end ScriptGlue
