import ScriptGlue.Proofs.Text.Layout
import ScriptGlue.Token.Scan
import Mathlib.Data.List.Basic

/-!
# Lexemes

The lexemes of C++ text, as far as tables of constants need them: words, string literals without
escapes, and single marks.
-/

namespace ScriptGlue.Registration
open Text

inductive Lexeme
  /-- A name, a keyword or a number. -/
  | word (text : String)
  | literal (text : String)
  | mark (c : Char)
  /-- A literal with an escape, or one that its line does not close. -/
  | stray
deriving Repr, DecidableEq

def isGap (c : Char) : Bool := c = ' ' || c = '\t'

/-- The lexemes of one line. -/
def lexemes : List Char → List Lexeme
  | [] => []
  | c :: rest =>
    if isGap c then lexemes rest
    else if c = '"' then
      if '"' ∈ rest ∧ '\\' ∉ (cut '"' rest).1 then
        .literal (.ofList (cut '"' rest).1) :: lexemes (cut '"' rest).2
      -- Behind an open literal nothing on the line can be told apart.
      else [.stray]
    else if Piece.isWordPart c then
      .word (.ofList (c :: rest.takeWhile Piece.isWordPart))
        :: lexemes (rest.dropWhile Piece.isWordPart)
    else .mark c :: lexemes rest
termination_by text => text.length
decreasing_by
  · simp
  · have shorter := (List.dropWhile_suffix (· ≠ '"') (l := rest)).length_le
    simp only [cut, List.length_drop, List.length_cons]
    omega
  · have shorter := (List.dropWhile_suffix Piece.isWordPart (l := rest)).length_le
    simp only [List.length_cons]
    omega
  · simp

/-! ### One lexeme -/

theorem lexemes_nil : lexemes [] = [] := by rw [lexemes]

theorem lexemes_gap {c : Char} (gap : isGap c) (rest : List Char) :
    lexemes (c :: rest) = lexemes rest := by
  rw [lexemes, if_pos gap]

theorem lexemes_literal {text : String} (quote : '"' ∉ text.toList) (escape : '\\' ∉ text.toList)
    (rest : List Char) :
    lexemes ('"' :: (text.toList ++ '"' :: rest)) = .literal text :: lexemes rest := by
  rw [lexemes, if_neg (by decide), if_pos rfl, cut_append quote, if_pos ⟨by simp, escape⟩,
    String.ofList_toList]

/-- A text that a word in front of it does not run into. -/
def Breaks (rest : List Char) : Prop := ∀ c ∈ rest.head?, Piece.isWordPart c = false

theorem breaks_cons {c : Char} (other : Piece.isWordPart c = false) (rest : List Char) :
    Breaks (c :: rest) := by
  intro d head
  obtain rfl := Option.some.inj head
  exact other

theorem takeWhile_of_breaks {rest : List Char} (breaks : Breaks rest) :
    rest.takeWhile Piece.isWordPart = [] ∧ rest.dropWhile Piece.isWordPart = rest := by
  cases rest with
  | nil => exact ⟨rfl, rfl⟩
  | cons c tail =>
    have other := breaks c rfl
    exact ⟨List.takeWhile_cons_of_neg (by simp [other]),
      List.dropWhile_cons_of_neg (by simp [other])⟩

theorem lexemes_word {text : String} (some : text ≠ "")
    (all : ∀ c ∈ text.toList, Piece.isWordPart c) {rest : List Char} (breaks : Breaks rest) :
    lexemes (text.toList ++ rest) = .word text :: lexemes rest := by
  obtain ⟨c, tail, whole⟩ := List.exists_cons_of_ne_nil (mt String.toList_eq_nil_iff.mp some)
  have head : Piece.isWordPart c := all c (whole ▸ List.mem_cons_self)
  have inside : ∀ d ∈ tail, Piece.isWordPart d :=
    fun d member => all d (whole ▸ List.mem_cons_of_mem c member)
  obtain ⟨taken, dropped⟩ := takeWhile_of_breaks breaks
  have gap : isGap c ≠ true := by
    intro gap
    simp only [isGap, Bool.or_eq_true, decide_eq_true_eq] at gap
    rcases gap with rfl | rfl <;> exact nomatch head
  have quote : c ≠ '"' := by
    rintro rfl
    exact nomatch head
  rw [whole, List.cons_append, lexemes, if_neg gap, if_neg quote, if_pos head,
    List.takeWhile_append_of_pos inside, List.dropWhile_append_of_pos inside, taken, dropped,
    List.append_nil, ← whole, String.ofList_toList]

theorem lexemes_mark {c : Char} (gap : isGap c = false) (quote : c ≠ '"')
    (other : Piece.isWordPart c = false) (rest : List Char) :
    lexemes (c :: rest) = .mark c :: lexemes rest := by
  rw [lexemes, if_neg (by simp [gap]), if_neg quote, if_neg (by simp [other])]

/-! ### Lines -/

/-- The lexemes of a line; one that includes a file has none. -/
def lineLexemes (line : List Char) : List Lexeme :=
  if "#include ".toList.isPrefixOf line then [] else lexemes line

theorem lineLexemes_nil : lineLexemes [] = [] := (if_neg (by decide)).trans lexemes_nil

/-- The lexemes of a file. None of them goes on behind its line. -/
def sourceLexemes (source : String) : List Lexeme := (lines source.toList).flatMap lineLexemes

theorem sourceLexemes_unlines {items : List String} (clear : ∀ line ∈ items, '\n' ∉ line.toList) :
    sourceLexemes (unlines items) = items.flatMap fun line => lineLexemes line.toList := by
  rw [sourceLexemes, lines_unlines clear, List.flatMap_append, List.flatMap_map,
    List.flatMap_singleton, lineLexemes_nil, List.append_nil]

end ScriptGlue.Registration
