import ScriptGlue.Proofs.Token.Place
import Mathlib.Data.List.Chain

/-!
# Scanning is exact

Every token is what stands in the source where its span says, and what stands between two tokens is
nothing to read (`tokens_exact`).
-/

namespace ScriptGlue

/-- The span of `text` in a source that has it behind `before`. -/
def Span.behind (before text : String) : Span :=
  .fromTo (.behind before) (before ++ text).utf8ByteSize

/-- A span holds `text`: this is what the source has from its first byte to its last, both at the
edge of a character, and line and column are those of the first. -/
def Span.Holds (s : Span) (source text : String) : Prop :=
  ∃ before after, source = before ++ text ++ after ∧ s = .behind before text

theorem Token.Kind.ofWord_ne_endOfInput (word : String) : ofWord word ≠ .endOfInput := by
  have reserved : ∀ e ∈ reserved, e.2 ≠ .endOfInput := by decide
  rcases ofWord_cases word with ⟨identifier, -⟩ | member
  · rw [identifier]
    exact Token.Kind.noConfusion
  · exact reserved _ member

namespace Piece

theorem kind_ne_endOfInput {kind : Token.Kind} {text rest : List Char}
    (leads : Leads (.token kind text) rest) : kind ≠ .endOfInput := by
  cases leads with
  | literal => exact Token.Kind.noConfusion
  | word => exact Token.Kind.ofWord_ne_endOfInput _
  | punctuation known =>
    have punctuation : ∀ e ∈ Token.Kind.punctuation, e.2 ≠ .endOfInput := by decide
    exact punctuation _ (mem_punctuation known)

theorem Cut.text_ne_nil {ps : List Piece} (cut : Cut ps) {p : Piece} (member : p ∈ ps) :
    ps.flatMap text ≠ [] :=
  fun empty => List.ne_nil_of_mem member (cut.eq_nil empty)

theorem Leads.exists_quote {text rest : List Char} (leads : Leads (.openQuote text) rest) :
    ∃ line, text = '"' :: line := by
  cases leads with
  | openQuote => exact ⟨_, rfl⟩
  | lastQuote => exact ⟨_, rfl⟩

theorem Leads.newline_mem {line rest : List Char} (leads : Leads (.openQuote line) rest)
    (more : rest ≠ []) : '\n' ∈ line := by
  cases leads with
  | openQuote => simp
  | lastQuote => exact absurd rfl more

end Piece

namespace Scan
open Piece

/-! ### Tokens -/

theorem token_of_mem_located {pieces : List Piece} (cut : Cut pieces)
    {source before : String} (whole : source = before ++ join pieces) {t : Token}
    (member : t ∈ (located (.behind before) pieces).filterMap token?) :
    t.kind ≠ .endOfInput ∧ t.span.first < t.span.stop ∧ t.span.Holds source t.lexeme := by
  induction pieces generalizing before with
  | nil => exact nomatch member
  | cons piece pieces ih =>
    rw [located, List.filterMap_cons, Position.advance_behind] at member
    rw [join_cons] at whole
    have further := whole.trans String.append_assoc.symm
    cases piece with
    | token kind text =>
      rcases List.mem_cons.mp member with rfl | later
      · have size : (String.ofList text).utf8ByteSize ≠ 0 := by
          rw [Ne, String.utf8ByteSize_eq_zero_iff, String.ofList_eq_empty_iff]
          exact cut.1.text_ne_nil
        rw [Position.advance_behind]
        refine ⟨kind_ne_endOfInput cut.1, ?_, before, join pieces, further, rfl⟩
        change before.utf8ByteSize < (before ++ String.ofList text).utf8ByteSize
        rw [String.utf8ByteSize_append]
        omega
      · exact ih cut.2 further later
    | trivia text => exact ih cut.2 further member
    | openQuote text => exact ih cut.2 further member

/-! ### Gaps -/

/-- From one byte of a source to another, both at the edge of a character, is nothing to read: the
text there, scanned on its own, has no token but the end. -/
def Blank (source : String) (first stop : Nat) : Prop :=
  ∃ before gap after, source = before ++ gap ++ after ∧ before.utf8ByteSize = first ∧
    (before ++ gap).utf8ByteSize = stop ∧ (Scan.of gap).tokens = [endToken (.behind gap)]

/-- One span stops where the other begins, or before, and nothing to read is between them. -/
def Follows (source : String) (s t : Span) : Prop :=
  s.stop ≤ t.first ∧ Blank source s.stop t.first

theorem follows_of_gap {source : String} {xs gap ps : List Piece}
    (whole : all source.toList = xs ++ (gap ++ ps)) (none : ∀ piece ∈ gap, piece.kind? = none)
    {s t : Span} (stop : s.stop = (join xs).utf8ByteSize)
    (first : t.first = (join xs ++ join gap).utf8ByteSize) : Follows source s t := by
  unfold Follows
  rw [stop, first]
  constructor
  · rw [String.utf8ByteSize_append]
    omega
  · refine ⟨join xs, join gap, join ps, ?_, rfl, rfl, ?_⟩
    · rw [← join_all source, whole, join_append, join_append, String.append_assoc]
    · have alone : all (gap.flatMap text) = gap := all_between whole
      rw [Scan.of, join, String.toList_ofList, tokens_ofChars, alone, tokensFrom_of_gap none,
        Position.advance_start]

/-- The gap in front of a token grows piece by piece until the token closes it. -/
theorem isChain_tokensFrom {source : String} {ps : List Piece} : ∀ {xs gap : List Piece},
    all source.toList = xs ++ (gap ++ ps) → (∀ piece ∈ gap, piece.kind? = none) →
    ∀ {s : Span}, s.stop = (join xs).utf8ByteSize →
    (s :: (tokensFrom (.behind (join xs ++ join gap)) ps).map Token.span).IsChain
      (Follows source) := by
  induction ps with
  | nil =>
    intro xs gap whole none s stop
    exact .cons_cons (follows_of_gap whole none stop rfl) (.singleton _)
  | cons piece ps ih =>
    intro xs gap whole none s stop
    have longer : join xs ++ join gap ++ String.ofList piece.text =
        join xs ++ join (gap ++ [piece]) := by
      rw [join_append, join_singleton, String.append_assoc]
    cases read : piece.kind? with
    | none =>
      have further : all source.toList = xs ++ (gap ++ [piece] ++ ps) := by
        rw [whole, List.append_assoc, List.singleton_append]
      rw [tokensFrom_of_kind?_eq_none read, Position.advance_behind, longer]
      refine ih further (fun q member => ?_) stop
      rcases List.mem_append.mp member with earlier | last
      · exact none q earlier
      · rw [List.mem_singleton.mp last, read]
    | some _ =>
      cases piece with
      | trivia text => exact nomatch read
      | openQuote text => exact nomatch read
      | token kind text =>
        have further : all source.toList = (xs ++ (gap ++ [.token kind text])) ++ ([] ++ ps) := by
          rw [whole, List.nil_append, List.append_assoc, List.append_assoc, List.singleton_append]
        have place : join xs ++ join gap ++ String.ofList text =
            join (xs ++ (gap ++ [.token kind text])) ++ join [] := by
          rw [join_nil, String.append_empty, join_append, ← longer]
          rfl
        rw [tokensFrom_token, Position.advance_behind, List.map_cons, place]
        refine .cons_cons (follows_of_gap whole none stop rfl) (ih further nofun ?_)
        change (join _ ++ join []).utf8ByteSize = _
        rw [join_nil, String.append_empty]

/-! ### Complaints -/

theorem diagnostic_of_mem_located {pieces : List Piece} (cut : Cut pieces)
    {source before : String} (whole : source = before ++ join pieces) {d : Diagnostic}
    (member : d ∈ diagnosticsFrom source.utf8ByteSize (.behind before) pieces) :
    ∃ front rest, source = front ++ "\"" ++ rest ∧
      d = .unterminatedString (.fromTo (.behind front) source.utf8ByteSize) := by
  induction pieces generalizing before with
  | nil => exact nomatch member
  | cons piece pieces ih =>
    rw [diagnosticsFrom, located, List.filterMap_cons, Position.advance_behind] at member
    rw [join_cons] at whole
    have further := whole.trans String.append_assoc.symm
    cases piece with
    | token kind text => exact ih cut.2 further member
    | trivia text => exact ih cut.2 further member
    | openQuote text =>
      rcases List.mem_cons.mp member with rfl | later
      · obtain ⟨line, rfl⟩ := cut.1.exists_quote
        have quote : String.ofList ('"' :: line) = "\"" ++ String.ofList line := by
          apply String.toList_injective
          simp
        rw [Piece.text, quote, String.append_assoc, ← String.append_assoc] at whole
        exact ⟨before, String.ofList line ++ join pieces, whole, rfl⟩
      · exact ih cut.2 further later

theorem line_of_diagnostic? {stop : Nat} {e : Position × Piece} {d : Diagnostic}
    (said : diagnostic? stop e = some d) : d.span.line = e.1.line := by
  obtain ⟨place, piece⟩ := e
  cases piece with
  | openQuote _ =>
    obtain rfl := Option.some.inj said
    rfl
  | token _ _ => simp [diagnostic?] at said
  | trivia _ => simp [diagnostic?] at said

theorem pairwise_line (p : Position) {pieces : List Piece} (cut : Cut pieces) (stop : Nat) :
    (diagnosticsFrom stop p pieces).Pairwise (fun d e => d.span.line < e.span.line) := by
  induction pieces generalizing p with
  | nil => exact .nil
  | cons piece pieces ih =>
    have rest := ih (p.advance piece.text) cut.2
    rw [diagnosticsFrom, located, List.filterMap_cons]
    cases piece with
    | token kind text => exact rest
    | trivia text => exact rest
    | openQuote text =>
      refine List.pairwise_cons.mpr ⟨fun e member => ?_, rest⟩
      obtain ⟨place, inside, said⟩ := List.mem_filterMap.mp member
      have line := line_of_diagnostic? said
      have more : pieces.flatMap Piece.text ≠ [] := cut.2.text_ne_nil (mem_of_mem_located inside)
      have below := Position.line_lt_advance p (cut.1.newline_mem more)
      have later : (p.advance text).line ≤ place.1.line := line_le_of_mem_located inside
      change p.line < e.span.line
      omega

/-- Scanning is exact. The tokens end with the end of the source, the one token of its kind; every
other token is a text of the source, not empty, and stands where its span says; and neither in front
of the first token nor between two of them is anything to read. Every complaint is about a quote at
the place it names, reaches to the end of the source, and is on a line of its own. -/
theorem tokens_exact (source : String) :
    (∃ tokens, (Scan.of source).tokens = tokens ++ [endToken (.behind source)] ∧
      ∀ t ∈ tokens, t.kind ≠ .endOfInput ∧ t.span.first < t.span.stop ∧
        t.span.Holds source t.lexeme) ∧
    (.behind "" "" :: (Scan.of source).tokens.map Token.span).IsChain (Follows source) ∧
    (∀ d ∈ (Scan.of source).diagnostics, ∃ before rest, source = before ++ "\"" ++ rest ∧
      d = .unterminatedString (.fromTo (.behind before) source.utf8ByteSize)) ∧
    (Scan.of source).diagnostics.Pairwise (fun d e => d.span.line < e.span.line) := by
  have cut := (cut_all source.toList).2
  have whole : source = "" ++ join (all source.toList) := by
    rw [join_all, String.empty_append]
  have stop : Position.start.advance source.toList = .behind source := by
    rw [Position.advance_start, String.ofList_toList]
  refine ⟨⟨(located .start (all source.toList)).filterMap token?, ?_, ?_⟩, ?_, ?_,
    pairwise_line .start cut _⟩
  · rw [Scan.of, ofChars, stop]
  · intro t member
    exact token_of_mem_located cut whole member
  · rw [Scan.of, tokens_ofChars]
    exact @isChain_tokensFrom source _ [] [] rfl nofun _ rfl
  · intro d member
    rw [Scan.of, diagnostics_ofChars, stop] at member
    exact diagnostic_of_mem_located cut whole member

/-- Bytes are counted from the start of the source, and columns in characters. -/
example : Scan.of "A /* é */ b;\n\"no" =
    ⟨[⟨.identifier, "A", ⟨0, 1, 1, 1⟩⟩, ⟨.identifier, "b", ⟨11, 12, 1, 11⟩⟩,
        ⟨.semicolon, ";", ⟨12, 13, 1, 12⟩⟩, ⟨.endOfInput, "EOF", ⟨17, 17, 2, 4⟩⟩],
      [.unterminatedString ⟨14, 17, 2, 1⟩]⟩ := by
  decide +kernel

end Scan

end ScriptGlue
