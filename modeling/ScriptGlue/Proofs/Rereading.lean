import ScriptGlue.Project
import ScriptGlue.Proofs.Extraction.Faithful
import ScriptGlue.Proofs.Glue.Scanning
import ScriptGlue.Proofs.Token.Seam

/-!
# Generated headers read again

A generated header yields the types and complaints of its source, if the source leaves no literal
and no comment open and its last token is a semicolon or a right brace (`ofSource_generate`).
-/

namespace ScriptGlue

namespace Scan
open Piece

theorem map_kind_located (p : Position) (pieces : List Piece) :
    ((located p pieces).filterMap token?).map (·.kind) = pieces.filterMap kind? := by
  induction pieces generalizing p with
  | nil => rfl
  | cons piece pieces ih =>
    cases piece with
    | token kind text => exact congrArg (kind :: ·) (ih (p.advance text))
    | trivia text => exact ih (p.advance text)
    | openQuote text => exact ih (p.advance text)

theorem kind_ne_endOfInput_of_mem_dropLast (source : String) :
    ∀ t ∈ (Scan.of source).tokens.dropLast, t.kind ≠ .endOfInput := by
  intro t member
  rw [Scan.of, dropLast_tokens] at member
  have whole : source = "" ++ join (all source.toList) := by
    rw [join_all, String.empty_append]
  exact (token_of_mem_located (cut_all source.toList).2 whole member).1

theorem exists_end (source : String) : ∃ last, (Scan.of source).tokens =
    (Scan.of source).tokens.dropLast ++ [last] ∧ last.kind = .endOfInput := by
  refine ⟨endToken (Position.start.advance source.toList), ?_, rfl⟩
  rw [Scan.of, dropLast_tokens]
  rfl

/-- Behind a source that leaves nothing open, text on a new line that leaves nothing open only adds
its own tokens. -/
theorem of_append_quiet {source text : String} (silent : (Scan.of source).diagnostics = [])
    (closed : ¬EndsInComment source) (newline : text.toList.head? = some '\n')
    (noQuote : ∀ line, .openQuote line ∉ all text.toList) :
    (Scan.of (source ++ text)).diagnostics = [] ∧
    ∃ added last, (Scan.of (source ++ text)).tokens =
        (Scan.of source).tokens.dropLast ++ added ++ [last] ∧
      added.map (·.kind) = (all text.toList).filterMap kind? ∧ last.kind = .endOfInput := by
  have before := diagnosticsFrom_eq_nil_iff.mp silent
  have noComment : ∀ p ∈ all source.toList, ¬p.isOpenComment :=
    fun p member isOpen => closed ⟨p, member, isOpen⟩
  have pieces : all (source ++ text).toList = all source.toList ++ all text.toList := by
    rw [String.toList_append, all_append_of_newline before noComment newline]
  constructor
  · rw [Scan.of, diagnostics_ofChars, diagnosticsFrom_eq_nil_iff, pieces]
    intro line member
    rcases List.mem_append.mp member with front | behind
    · exact before line front
    · exact noQuote line behind
  · let seam := Position.start.advance source.toList
    refine ⟨(located seam (all text.toList)).filterMap token?,
      endToken (seam.advance text.toList), ?_, map_kind_located seam _, rfl⟩
    rw [Scan.of, tokens_ofChars, pieces, tokensFrom_append, Scan.of, dropLast_tokens, tokensFrom,
      (cut_all source.toList).1, (cut_all text.toList).1, List.append_assoc]

end Scan

theorem Glue.head?_text {types : List ScriptType} (some : types ≠ []) :
    (text types).toList.head? = .some '\n' := by
  obtain ⟨t, types, rfl⟩ := List.exists_cons_of_ne_nil some
  simp [text, items, Item.text, Text.unlines]

theorem Extraction.emittable_of_mem_ofSource {source : String} {t : ScriptType}
    (member : t ∈ (ofSource source).types) : Glue.Emittable t := by
  obtain ⟨name, fields⟩ := isIdentifier_of_mem_ofSource member
  exact ⟨declared_of_mem_ofSource member, name, fields⟩

namespace Project
open Extraction

theorem ofSource_generate {source : String} (silent : (Scan.of source).diagnostics = [])
    (closed : ¬Scan.EndsInComment source)
    (settles : ∃ t ∈ (Scan.of source).tokens.dropLast.getLast?,
      t.kind = .semicolon ∨ t.kind = .closeBrace) :
    ofSource (generate source).contents = ofSource source := by
  by_cases none : (ofSource source).types = []
  · -- Without types there is no glue.
    have unchanged : (generate source).contents = source := by
      rw [generate, none]
      exact String.append_empty
    rw [unchanged]
  · obtain ⟨kinds, firm, inert⟩ :=
      Glue.exists_inert_text none fun t member => emittable_of_mem_ofSource member
    obtain ⟨pieces, cut, rfl, noQuote⟩ := firm []
    rw [List.append_nil, Piece.all_nil, List.append_nil] at cut
    obtain ⟨quiet, added, last, tokens, kinds, isEnd⟩ :=
      Scan.of_append_quiet silent closed (Glue.head?_text none) (cut ▸ noQuote)
    have noEnd := Scan.kind_ne_endOfInput_of_mem_dropLast source
    obtain ⟨ownLast, ownTokens, ownEnd⟩ := Scan.exists_end source
    have own : ofTokens (Scan.of source).tokens = ofTokens (Scan.of source).tokens.dropLast :=
      (congrArg ofTokens ownTokens).trans (ofTokens_append_end _ ownEnd)
    have same : ofTokens (Scan.of (generate source).contents).tokens =
        ofTokens (Scan.of source).tokens := by
      rw [generate, Glue.render, tokens, ofTokens_append_end _ isEnd, own]
      exact ofTokens_append_inert noEnd settles (by rw [kinds, cut]; exact inert)
    have bothQuiet : (Scan.of (generate source).contents).diagnostics = [] := quiet
    rw [ofSource, ofSource, same, silent, bothQuiet]

/-- Ends in a line comment, in the middle of a declaration. -/
def unfinishedHeader : String := "UCLASS class Lamp UPROPERTY int level; UPROPERTY size_t \x7d // \x7b"

theorem ofSource_generate_unfinishedHeader :
    (Scan.of unfinishedHeader).diagnostics = [] ∧ ¬Scan.EndsInComment unfinishedHeader ∧
    (∃ t ∈ (Scan.of unfinishedHeader).tokens.dropLast.getLast?,
      t.kind = .semicolon ∨ t.kind = .closeBrace) ∧
    ofSource (generate unfinishedHeader).contents =
      ⟨[(ScriptType.declared "Lamp").pushField (.scalar .int) "level"],
        [.malformedField "Lamp" ⟨39, 48, 1, 40⟩]⟩ := by
  have silent : (Scan.of unfinishedHeader).diagnostics = [] := by decide +kernel
  have closed : ¬Scan.EndsInComment unfinishedHeader := by decide +kernel
  have settles : ∃ t ∈ (Scan.of unfinishedHeader).tokens.dropLast.getLast?,
      t.kind = .semicolon ∨ t.kind = .closeBrace := by decide +kernel
  have same := ofSource_generate silent closed settles
  exact ⟨silent, closed, settles, same.trans (by decide +kernel)⟩

end Project

end ScriptGlue
