import ScriptGlue.Proofs.Token.Word
import Mathlib.Data.List.DropRight

/-!
# Places in a source

A place can be told from the text before it alone. Following a source piece by piece gives each piece
the place that counting from the start would give it.
-/

namespace ScriptGlue

namespace Position

/-- The place behind `before`, counted from the start. -/
def behind (before : String) : Position :=
  ⟨before.utf8ByteSize, 1 + before.toList.count '\n',
    1 + (before.toList.rtakeWhile (· ≠ '\n')).length⟩

theorem after_behind (before : String) (c : Char) :
    (behind before).after c = behind (before.push c) := by
  unfold after behind
  rw [String.utf8ByteSize_push, String.toList_push, List.count_append, List.rtakeWhile_concat]
  by_cases newline : c = '\n'
  · subst newline
    have size : '\n'.utf8Size = 1 := rfl
    simp [size, Nat.add_assoc]
  · simp [newline, Nat.add_assoc]

theorem advance_behind (before : String) (text : List Char) :
    (behind before).advance text = behind (before ++ String.ofList text) := by
  induction text generalizing before with
  | nil => simp [advance_nil]
  | cons c text ih =>
    have same : before.push c ++ String.ofList text = before ++ String.ofList (c :: text) := by
      apply String.toList_injective
      simp
    rw [advance_cons, after_behind, ih, same]

theorem advance_start (text : List Char) : start.advance text = behind (String.ofList text) := by
  have same : "" ++ String.ofList text = String.ofList text := by simp
  rw [← same, ← advance_behind]
  rfl

theorem line_le_advance (p : Position) (text : List Char) : p.line ≤ (p.advance text).line := by
  induction text generalizing p with
  | nil => exact Nat.le_refl _
  | cons c text ih =>
    have step : p.line ≤ (p.after c).line := by
      unfold after
      split
      · exact Nat.le_succ _
      · exact Nat.le_refl _
    exact Nat.le_trans step (ih _)

theorem line_lt_advance (p : Position) {text : List Char} (newline : '\n' ∈ text) :
    p.line < (p.advance text).line := by
  induction text generalizing p with
  | nil => exact nomatch newline
  | cons c text ih =>
    rcases List.mem_cons.mp newline with rfl | later
    · exact line_le_advance (p.after '\n') text
    · exact Nat.lt_of_le_of_lt (line_le_advance p [c]) (ih _ later)

end Position

/-! ### Tokens and complaints of located pieces -/

namespace Piece

/-- The kind of the token that a piece is, if it is one. -/
def kind? : Piece → Option Token.Kind
  | token kind _ => some kind
  | _ => none

/-- The source that some pieces make up. -/
def join (ps : List Piece) : String := String.ofList (ps.flatMap text)

theorem join_nil : join [] = "" := rfl

theorem join_append (ps qs : List Piece) : join (ps ++ qs) = join ps ++ join qs := by
  rw [join, List.flatMap_append, String.ofList_append]
  rfl

theorem join_cons (p : Piece) (ps : List Piece) : join (p :: ps) = String.ofList p.text ++ join ps := by
  rw [join, List.flatMap_cons, String.ofList_append]
  rfl

theorem join_singleton (p : Piece) : join [p] = String.ofList p.text := by
  rw [join_cons, join_nil, String.append_empty]

theorem join_all (source : String) : join (all source.toList) = source := by
  rw [join, (cut_all source.toList).1, String.ofList_toList]

theorem located_append (p : Position) (ps qs : List Piece) :
    located p (ps ++ qs) = located p ps ++ located (p.advance (ps.flatMap text)) qs := by
  induction ps generalizing p with
  | nil => rfl
  | cons piece ps ih =>
    rw [List.cons_append, located, located, ih, List.cons_append, List.flatMap_cons,
      Position.advance_append]

theorem map_located (p : Position) (ps : List Piece) : (located p ps).map Prod.snd = ps := by
  induction ps generalizing p with
  | nil => rfl
  | cons piece ps ih => rw [located, List.map_cons, ih]

theorem line_le_of_mem_located {p : Position} {ps : List Piece} {e : Position × Piece}
    (member : e ∈ located p ps) : p.line ≤ e.1.line := by
  induction ps generalizing p with
  | nil => exact nomatch member
  | cons piece ps ih =>
    rcases List.mem_cons.mp member with rfl | later
    · exact Nat.le_refl _
    · exact Nat.le_trans (Position.line_le_advance p piece.text) (ih later)

end Piece

namespace Scan

/-- The tokens that some pieces make from a place on, and the end behind them. -/
def tokensFrom (p : Position) (pieces : List Piece) : List Token :=
  (Piece.located p pieces).filterMap token? ++ [endToken (p.advance (pieces.flatMap Piece.text))]

theorem tokensFrom_token (p : Position) (kind : Token.Kind) (text : List Char)
    (rest : List Piece) :
    tokensFrom p (.token kind text :: rest) =
      ⟨kind, String.ofList text, .fromTo p (p.advance text).offset⟩
        :: tokensFrom (p.advance text) rest := by
  unfold tokensFrom
  rw [List.flatMap_cons, Position.advance_append]
  rfl

theorem tokensFrom_of_kind?_eq_none {piece : Piece} (none : piece.kind? = none) (p : Position)
    (rest : List Piece) :
    tokensFrom p (piece :: rest) = tokensFrom (p.advance piece.text) rest := by
  unfold tokensFrom
  rw [List.flatMap_cons, Position.advance_append]
  cases piece with
  | token kind text => exact nomatch none
  | trivia text => rfl
  | openQuote text => rfl

theorem tokens_ofChars (source : List Char) :
    (ofChars source).tokens = tokensFrom .start (Piece.all source) := by
  unfold tokensFrom
  rw [(Piece.cut_all source).1]
  rfl

theorem tokensFrom_append (p : Position) (ps qs : List Piece) :
    tokensFrom p (ps ++ qs) =
      (Piece.located p ps).filterMap token? ++ tokensFrom (p.advance (ps.flatMap Piece.text)) qs := by
  unfold tokensFrom
  rw [Piece.located_append, List.filterMap_append, List.flatMap_append, Position.advance_append,
    List.append_assoc]

theorem tokensFrom_of_gap {gap : List Piece} (none : ∀ piece ∈ gap, piece.kind? = none)
    (p : Position) : tokensFrom p gap = [endToken (p.advance (gap.flatMap Piece.text))] := by
  induction gap generalizing p with
  | nil => rfl
  | cons piece gap ih =>
    rw [tokensFrom_of_kind?_eq_none (none piece List.mem_cons_self),
      ih fun q member => none q (List.mem_cons_of_mem piece member), List.flatMap_cons,
      Position.advance_append]

/-- The complaints about some pieces from a place on, in a source that ends at the byte `stop`. -/
def diagnosticsFrom (stop : Nat) (p : Position) (pieces : List Piece) : List Diagnostic :=
  (Piece.located p pieces).filterMap (diagnostic? stop)

theorem diagnostics_ofChars (source : List Char) : (ofChars source).diagnostics =
    diagnosticsFrom (Position.start.advance source).offset .start (Piece.all source) := rfl

theorem diagnosticsFrom_append (stop : Nat) (p : Position) (ps qs : List Piece) :
    diagnosticsFrom stop p (ps ++ qs) =
      diagnosticsFrom stop p ps ++ diagnosticsFrom stop (p.advance (ps.flatMap Piece.text)) qs := by
  unfold diagnosticsFrom
  rw [Piece.located_append, List.filterMap_append]

theorem diagnosticsFrom_eq_nil_iff {stop : Nat} {p : Position} {pieces : List Piece} :
    diagnosticsFrom stop p pieces = [] ↔ ∀ text, .openQuote text ∉ pieces := by
  unfold diagnosticsFrom
  rw [List.filterMap_eq_nil_iff]
  constructor
  · intro silent text member
    rw [← Piece.map_located p pieces] at member
    obtain ⟨⟨q, piece⟩, inside, rfl⟩ := List.mem_map.mp member
    exact nomatch silent (q, .openQuote text) inside
  · rintro absent ⟨q, piece⟩ inside
    cases piece with
    | openQuote text => exact absurd (Piece.mem_of_mem_located inside) (absent text)
    | token kind text => rfl
    | trivia text => rfl

end Scan

end ScriptGlue
