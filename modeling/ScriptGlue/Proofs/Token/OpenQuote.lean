import ScriptGlue.Proofs.Token.Seam

/-!
# Quotes that nothing closes

A quote that nothing closes costs the rest of its line and no more: the line is passed over with one
complaint, and what is behind it is scanned as a source of its own (`of_openQuote`).
-/

namespace ScriptGlue

namespace Piece

/-- A quote that nothing closes is a piece with the rest of its line, whatever the line holds. -/
theorem all_openQuote {line rest : List Char} (clear : '\n' ∉ line)
    (unclosed : Unclosed (line ++ '\n' :: rest)) :
    all ('"' :: (line ++ '\n' :: rest)) = .openQuote ('"' :: (line ++ ['\n'])) :: all rest := by
  have whole : '"' :: (line ++ '\n' :: rest) =
      (openQuote ('"' :: (line ++ ['\n']))).text ++ rest := by simp [text]
  rw [whole, all_of_next (next_of_leads (.openQuote clear unclosed))]

end Piece

namespace Scan
open Piece

/-- The source ends inside a comment that the end of a line would end. -/
def EndsInLineComment (source : String) : Prop :=
  ∃ p ∈ (all source.toList).getLast?, p.isLineComment

instance (source : String) : Decidable (EndsInLineComment source) :=
  inferInstanceAs (Decidable (∃ p ∈ (all source.toList).getLast?, p.isLineComment))

/-- Behind pieces that are cut alike in front of it, a source is scanned as on its own, only further
on. -/
theorem scan_behind {source rest : List Char} {front : List Piece} {bytes lines : Nat}
    (pieces : all source = front ++ all rest)
    (seam : Position.start.advance (front.flatMap text) = Position.start.shift bytes lines) :
    (ofChars source).tokens = (located .start front).filterMap token? ++
      (ofChars rest).tokens.map (Token.shift bytes lines) ∧
    (ofChars source).diagnostics =
      diagnosticsFrom (Position.start.advance source).offset .start front ++
        (ofChars rest).diagnostics.map (Diagnostic.shift bytes lines) := by
  have whole : front.flatMap text ++ rest = source := by
    rw [← (cut_all source).1, pieces, List.flatMap_append, (cut_all rest).1]
  have stop : (Position.start.advance source).offset =
      (Position.start.advance rest).offset + bytes := by
    rw [← whole, Position.advance_append, seam, Position.advance_shift]
    rfl
  constructor
  · rw [tokens_ofChars, pieces, tokensFrom_append, seam, tokensFrom_shift, ← tokens_ofChars]
  · rw [diagnostics_ofChars, pieces, diagnosticsFrom_append, seam]
    congr 1
    rw [stop, diagnosticsFrom_shift]
    rfl

section

variable {before line rest : String}

theorem all_of_openQuote (silent : (Scan.of before).diagnostics = [])
    (closed : ¬EndsInComment before) (ended : ¬EndsInLineComment before) (clear : '\n' ∉ line.toList)
    (unclosed : Unclosed (line.toList ++ '\n' :: rest.toList)) :
    all (before ++ "\"" ++ line ++ "\n" ++ rest).toList =
      (all before.toList ++ [.openQuote ('"' :: (line.toList ++ ['\n']))]) ++ all rest.toList := by
  have whole : (before ++ "\"" ++ line ++ "\n" ++ rest).toList =
      before.toList ++ '"' :: (line.toList ++ '\n' :: rest.toList) := by
    simp
  have noComment : ∀ p ∈ all before.toList, ¬p.isOpenComment :=
    fun p member isOpen => closed ⟨p, member, isOpen⟩
  have noLine : ∀ p ∈ (all before.toList).getLast?, p.isLineComment → '"' = '\n' :=
    fun p last isLine => absurd ⟨p, last, isLine⟩ ended
  rw [whole, all_append (by decide) (diagnosticsFrom_eq_nil_iff.mp silent) noComment noLine rfl,
    all_openQuote clear unclosed, List.append_assoc, List.singleton_append]

theorem advance_openQuote (clear : '\n' ∉ line.toList) :
    Position.start.advance
        ((all before.toList ++ [Piece.openQuote ('"' :: (line.toList ++ ['\n']))]).flatMap text) =
      Position.start.shift (before ++ "\"" ++ line ++ "\n").utf8ByteSize
        (before.toList.count '\n' + 1) := by
  have front : (all before.toList ++ [Piece.openQuote ('"' :: (line.toList ++ ['\n']))]).flatMap text =
      (before ++ "\"" ++ line).toList ++ ['\n'] := by
    simp [List.flatMap_append, (cut_all before.toList).1, text]
  have newlines : (before ++ "\"" ++ line).toList.count '\n' = before.toList.count '\n' := by
    simp [List.count_eq_zero_of_not_mem clear]
  have size : (before ++ "\"" ++ line ++ "\n").utf8ByteSize =
      (before ++ "\"" ++ line).utf8ByteSize + 1 := String.utf8ByteSize_append ..
  rw [front, advance_line, newlines, size]

/-- Behind a source that leaves nothing open, a quote that nothing closes is complained about, from
the quote to the end, and the rest of its line is passed over. From the next line on a source is
scanned as it is on its own: its tokens and complaints are those of it alone, moved on by the bytes
and lines in front. -/
theorem of_openQuote (silent : (Scan.of before).diagnostics = []) (closed : ¬EndsInComment before)
    (ended : ¬EndsInLineComment before) (clear : '\n' ∉ line.toList)
    (unclosed : Unclosed (line.toList ++ '\n' :: rest.toList)) :
    let source := before ++ "\"" ++ line ++ "\n" ++ rest
    let bytes := (before ++ "\"" ++ line ++ "\n").utf8ByteSize
    let lines := before.toList.count '\n' + 1
    (Scan.of source).tokens = (Scan.of before).tokens.dropLast ++
      (Scan.of rest).tokens.map (Token.shift bytes lines) ∧
    (Scan.of source).diagnostics =
      .unterminatedString (.fromTo (.behind before) source.utf8ByteSize) ::
        (Scan.of rest).diagnostics.map (Diagnostic.shift bytes lines) := by
  intro source bytes lines
  have pieces : all source.toList = _ := all_of_openQuote silent closed ended clear unclosed
  obtain ⟨tokens, diagnostics⟩ := scan_behind pieces (advance_openQuote clear)
  have noQuote := diagnosticsFrom_eq_nil_iff.mp silent
  have stop : (Position.start.advance source.toList).offset = source.utf8ByteSize := by
    rw [Position.advance_start, String.ofList_toList]
    rfl
  have quote : Position.start.advance ((all before.toList).flatMap text) = .behind before := by
    rw [(cut_all before.toList).1, Position.advance_start, String.ofList_toList]
  constructor
  · have noToken (place : Position) (quoted : List Char) :
        (located place [.openQuote quoted]).filterMap token? = [] := rfl
    rw [Scan.of, tokens, located_append, List.filterMap_append, noToken, List.append_nil, Scan.of,
      dropLast_tokens]
    rfl
  · rw [Scan.of, diagnostics, diagnosticsFrom_append, diagnosticsFrom_eq_nil_iff.mpr noQuote, stop,
      quote]
    rfl

end

/-- A comment and a literal that are closed. -/
def closedSource : String := "é \"\\\"\" // x\n/* \" */ UCLASS"

/-- Ends in a backslash, which hides the newline behind it from a literal but not from the line. -/
def oopsLine : String := "class \\\" é \\"

/-- Has a quote that is hidden from a literal begun before it, but opens one on its own. -/
def hiddenSource : String := "x \\\"y\nz"

theorem of_openQuote_oopsLine :
    (Scan.of closedSource).diagnostics = [] ∧ ¬EndsInComment closedSource ∧
    ¬EndsInLineComment closedSource ∧ '\n' ∉ oopsLine.toList ∧
    Unclosed (oopsLine.toList ++ '\n' :: hiddenSource.toList) ∧
    (Scan.of (closedSource ++ "\"" ++ oopsLine ++ "\n" ++ hiddenSource)).tokens =
      [⟨.literal, "\"\\\"\"", ⟨3, 7, 1, 3⟩⟩, ⟨.typeMarker, "UCLASS", ⟨21, 27, 2, 9⟩⟩,
        ⟨.identifier, "x", ⟨42, 43, 3, 1⟩⟩, ⟨.identifier, "z", ⟨48, 49, 4, 1⟩⟩,
        ⟨.endOfInput, "EOF", ⟨49, 49, 4, 2⟩⟩] ∧
    (Scan.of (closedSource ++ "\"" ++ oopsLine ++ "\n" ++ hiddenSource)).diagnostics =
      [.unterminatedString ⟨27, 49, 2, 15⟩, .unterminatedString ⟨45, 49, 3, 4⟩] := by
  have silent : (Scan.of closedSource).diagnostics = [] := by decide +kernel
  have closed : ¬EndsInComment closedSource := by decide +kernel
  have ended : ¬EndsInLineComment closedSource := by decide +kernel
  have clear : '\n' ∉ oopsLine.toList := by decide +kernel
  have unclosed : Unclosed (oopsLine.toList ++ '\n' :: hiddenSource.toList) :=
    cutLiteral?_eq_none_iff.mp (by decide +kernel)
  obtain ⟨tokens, complaints⟩ := of_openQuote silent closed ended clear unclosed
  exact ⟨silent, closed, ended, clear, unclosed, tokens.trans (by decide +kernel),
    complaints.trans (by decide +kernel)⟩

end Scan

end ScriptGlue
