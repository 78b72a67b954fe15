import ScriptGlue.Proofs.Registration.Lexeme
import ScriptGlue.Proofs.Token.Word
import Mathlib.Data.List.Forall2

/-!
# Declarations

A source file of constant arrays with one function behind them, which hands out an array and its
length. What a part of the file declares does not depend on what stands behind it.
-/

namespace ScriptGlue.Registration
open Text

/-! ### Cells -/

inductive Cell
  | number (n : Nat)
  | text (text : String)
  | name (text : String)
deriving Repr, DecidableEq

/-- The number that a word is the decimal form of. A leading zero makes it octal, so it is none. -/
def decimal? (text : String) : Option Nat :=
  if toString (Nat.ofDigitChars 10 text.toList 0) = text then some (Nat.ofDigitChars 10 text.toList 0)
  else none

def Cell.ofLexeme? : Lexeme → Option Cell
  | .word t =>
    match decimal? t with
    | some n => some (.number n)
    | none => if IsWord t then some (.name t) else none
  | .literal t => some (.text t)
  | _ => none

def Cell.lexeme : Cell → Lexeme
  | number n => .word (toString n)
  | text t => .literal t
  | name t => .word t

/-- A text that a literal holds without escapes. -/
def Quotable (text : String) : Prop :=
  '"' ∉ text.toList ∧ '\\' ∉ text.toList ∧ '\n' ∉ text.toList

instance (text : String) : Decidable (Quotable text) := inferInstanceAs (Decidable (_ ∧ _ ∧ _))

/-- A cell that stands in a source file as it is. -/
def Cell.Plain : Cell → Prop
  | number _ => True
  | text t => Quotable t
  | name t => IsWord t

theorem decimal?_toString (n : Nat) : decimal? (toString n) = some n := by
  have value : Nat.ofDigitChars 10 (toString n).toList 0 = n := by
    rw [Nat.toString_eq_ofList_toDigits, String.toList_ofList, Nat.ofDigitChars_ten_toDigits]
  rw [decimal?, value, if_pos rfl]

theorem toString_injective {i j : Nat} (same : toString i = toString j) : i = j := by
  have value := congrArg decimal? same
  rw [decimal?_toString, decimal?_toString] at value
  exact Option.some.inj value

theorem isDigit_of_mem_toString {n : Nat} {c : Char} (member : c ∈ (toString n).toList) :
    c.isDigit := by
  rw [Nat.toString_eq_ofList_toDigits, String.toList_ofList] at member
  exact Nat.isDigit_of_mem_toDigits (by decide) (by decide) member

theorem isWordPart_of_mem_toString {n : Nat} {c : Char} (member : c ∈ (toString n).toList) :
    Piece.isWordPart c := by
  simp [Piece.isWordPart, Char.isAlphanum, isDigit_of_mem_toString member]

theorem not_isWordStart_of_isDigit {c : Char} (digit : c.isDigit) : Piece.isWordStart c = false := by
  rw [Bool.eq_false_iff]
  intro start
  change (decide (c.val ≥ 48) && decide (c.val ≤ 57)) = true at digit
  change ((decide (c.val ≥ 65 ∧ c.val ≤ 90)
    || (decide (c.val ≥ 97) && decide (c.val ≤ 122))) || decide (c = '_')) = true at start
  simp only [Bool.and_eq_true, Bool.or_eq_true, decide_eq_true_eq] at digit start
  have below : c.val.toNat ≤ 57 := UInt32.le_iff_toNat_le.mp digit.2
  rcases start with (upper | lower) | rfl
  · have above : 65 ≤ c.val.toNat := UInt32.le_iff_toNat_le.mp upper.1
    omega
  · have above : 97 ≤ c.val.toNat := UInt32.le_iff_toNat_le.mp lower.1
    omega
  · exact absurd digit.2 (by decide)

theorem not_isWord_toString (n : Nat) : ¬IsWord (toString n) := by
  rintro ⟨first, rest, whole, start, -⟩
  have digit : first.isDigit := isDigit_of_mem_toString (whole ▸ List.mem_cons_self)
  rw [not_isWordStart_of_isDigit digit] at start
  exact nomatch start

theorem decimal?_eq_none {text : String} (word : IsWord text) : decimal? text = none := by
  rw [decimal?, if_neg]
  intro same
  exact not_isWord_toString _ (same ▸ word)

theorem Cell.ofLexeme?_lexeme {c : Cell} (plain : c.Plain) : ofLexeme? c.lexeme = some c := by
  cases c with
  | number n => rw [lexeme, ofLexeme?, decimal?_toString]
  | text t => rfl
  | name t =>
    rw [lexeme, ofLexeme?, decimal?_eq_none plain]
    exact if_pos plain

def cell? : List Lexeme → Option (Cell × List Lexeme)
  | lexeme :: rest => (Cell.ofLexeme? lexeme).map (·, rest)
  | [] => none

theorem cell?_lexeme {c : Cell} (plain : c.Plain) (rest : List Lexeme) :
    cell? (c.lexeme :: rest) = some (c, rest) := by
  rw [cell?, Cell.ofLexeme?_lexeme plain, Option.map_some]

/-! ### Lists within braces -/

/-- The items up to the closing brace. A comma may follow the last. -/
def items? {α : Type} (item? : List Lexeme → Option (α × List Lexeme)) (s : List Lexeme) :
    Option (List α × List Lexeme) :=
  match item? s with
  | some (a, .mark ',' :: rest) =>
    -- Every item takes a lexeme, so the test never fails; it is what the recursion ends by.
    if rest.length < s.length then (items? item? rest).map fun r => (a :: r.1, r.2) else none
  | some (a, .mark '\x7d' :: rest) => some ([a], rest)
  | some _ => none
  | none =>
    match s with
    | .mark '\x7d' :: rest => some ([], rest)
    | _ => none
termination_by s.length

section Items

variable {α β : Type} {item? : List Lexeme → Option (α × List Lexeme)} {s rest : List Lexeme}

theorem items?_nil (none : item? (.mark '\x7d' :: rest) = none) :
    items? item? (.mark '\x7d' :: rest) = some ([], rest) := by
  rw [items?.eq_def, none]
  rfl

theorem items?_last {a : α} (read : item? s = some (a, .mark '\x7d' :: rest)) :
    items? item? s = some ([a], rest) := by
  rw [items?.eq_def, read]
  rfl

theorem items?_cons {a : α}
    (read : item? (s ++ .mark ',' :: rest) = some (a, .mark ',' :: rest)) :
    items? item? (s ++ .mark ',' :: rest) =
      (items? item? rest).map fun r => (a :: r.1, r.2) := by
  have shorter : rest.length < (s ++ .mark ',' :: rest).length := by
    rw [List.length_append, List.length_cons]
    omega
  rw [items?.eq_def, read]
  exact if_pos shorter

theorem items?_intersperse {lexeme : β → Lexeme} {value : β → α} {bs : List β}
    (none : ∀ rest, item? (.mark '\x7d' :: rest) = none)
    (read : ∀ b ∈ bs, ∀ rest, item? (lexeme b :: rest) = some (value b, rest))
    (rest : List Lexeme) :
    items? item? ((bs.map lexeme).intersperse (.mark ',') ++ .mark '\x7d' :: rest) =
      some (bs.map value, rest) := by
  -- A comma stands between two items, so the step looks at the item behind.
  induction bs with
  | nil => exact items?_nil (none rest)
  | cons b bs ih =>
    have first := read b List.mem_cons_self
    cases bs with
    | nil => exact items?_last (first _)
    | cons b' bs =>
      have later := ih fun other member => read other (List.mem_cons_of_mem b member)
      rw [List.map_cons, List.map_cons, List.intersperse_cons_cons, List.cons_append,
        List.cons_append]
      refine (items?_cons (s := [lexeme b]) (first _)).trans ?_
      rw [← List.map_cons, later]
      rfl

end Items

/-- A row of cells, or a cell without braces of its own. -/
def row? : List Lexeme → Option (List Cell × List Lexeme)
  | .mark '\x7b' :: rest => items? cell? rest
  | s => (cell? s).map fun r => ([r.1], r.2)

def rowLexemes (cells : List Cell) : List Lexeme :=
  .mark '\x7b' :: (cells.map Cell.lexeme).intersperse (.mark ',') ++ [.mark '\x7d']

theorem row?_append {cells : List Cell} (plain : ∀ c ∈ cells, c.Plain) (rest : List Lexeme) :
    row? (rowLexemes cells ++ rest) = some (cells, rest) := by
  have inside := items?_intersperse (fun _ => rfl) (fun c member => cell?_lexeme (plain c member)) rest
  rw [List.map_id'] at inside
  rw [rowLexemes, List.cons_append, List.cons_append, List.append_assoc]
  exact inside

theorem row?_lexeme {c : Cell} (plain : c.Plain) (rest : List Lexeme) :
    row? (c.lexeme :: rest) = some ([c], rest) := by
  have bare : row? (c.lexeme :: rest) = (cell? (c.lexeme :: rest)).map fun r => ([r.1], r.2) := by
    cases c <;> rfl
  rw [bare, cell?_lexeme plain, Option.map_some]

theorem items?_rows {rows : List (List Cell)} (plain : ∀ r ∈ rows, ∀ c ∈ r, c.Plain)
    (rest : List Lexeme) :
    items? row? ((rows.flatMap fun r => rowLexemes r ++ [.mark ',']) ++ .mark '\x7d' :: rest) =
      some (rows, rest) := by
  induction rows with
  | nil => exact items?_nil rfl
  | cons r rows ih =>
    have first := row?_append (plain r List.mem_cons_self)
    have later := ih fun other member => plain other (List.mem_cons_of_mem r member)
    rw [List.flatMap_cons, List.append_assoc, List.append_assoc, List.singleton_append]
    rw [items?_cons (first _), later]
    rfl

theorem items?_cells {cells : List Cell} (plain : ∀ c ∈ cells, c.Plain) (rest : List Lexeme) :
    items? row? ((cells.map Cell.lexeme).intersperse (.mark ',') ++ .mark '\x7d' :: rest) =
      some (cells.map ([·]), rest) :=
  items?_intersperse (fun _ => rfl) (fun c member => row?_lexeme (plain c member)) rest

/-! ### Arrays and the entry point -/

structure ArrayDefinition where
  elementType : String
  name : String
  rows : List (List Cell)
deriving Repr, DecidableEq

/-- What a source file defines: arrays, and what its entry point hands out. -/
structure SourceUnit where
  arrays : List ArrayDefinition
  count : Cell
  scripts : Cell
deriving Repr, DecidableEq

def SourceUnit.precededBy (arrays : List ArrayDefinition) (u : SourceUnit) : SourceUnit :=
  { u with arrays := arrays ++ u.arrays }

def arrayDefinition? : List Lexeme → Option (ArrayDefinition × List Lexeme)
  | .word "static" :: .word "const" :: .word elementType :: .word name :: .mark '[' :: .mark ']' ::
      .mark '=' :: .mark '\x7b' :: s =>
    match items? row? s with
    | some (rows, .mark ';' :: rest) => some (⟨elementType, name, rows⟩, rest)
    | _ => none
  | _ => none

def arrayHead (elementType name : String) : List Lexeme :=
  [.word "static", .word "const", .word elementType, .word name, .mark '[', .mark ']', .mark '=',
    .mark '\x7b']

theorem arrayDefinition?_append {elementType name : String} {rows : List (List Cell)}
    {s rest : List Lexeme} (read : items? row? s = some (rows, .mark ';' :: rest)) :
    arrayDefinition? (arrayHead elementType name ++ s) = some (⟨elementType, name, rows⟩, rest) := by
  change (match items? row? s with
    | some (rows, .mark ';' :: rest) => some (ArrayDefinition.mk elementType name rows, rest)
    | _ => none) = _
  rw [read]
  rfl

def signature : String :=
  "extern \"C\" void getGeneratedScripts(int* count, const ns_script_info** scripts) \x7b"

def entryPoint? (s : List Lexeme) : Option (Cell × Cell) :=
  match (lexemes signature.toList).isPrefixOf? s with
  | some [.mark '*', .word "count", .mark '=', count, .mark ';',
      .mark '*', .word "scripts", .mark '=', scripts, .mark ';', .mark '\x7d'] => do
    return (← Cell.ofLexeme? count, ← Cell.ofLexeme? scripts)
  | _ => none

theorem lexemes_name {text : String} (word : IsWord text) {rest : List Char}
    (breaks : Breaks rest) : lexemes (text.toList ++ rest) = .word text :: lexemes rest := by
  refine lexemes_word ?_ (fun _ => word.isWordPart) breaks
  rintro rfl
  exact absurd word (by decide)

/-- Arrays, and the entry point as the last. -/
def unit? (s : List Lexeme) : Option SourceUnit :=
  match arrayDefinition? s with
  | some (array, rest) =>
    if rest.length < s.length then (unit? rest).map (·.precededBy [array]) else none
  | none => (entryPoint? s).map fun e => ⟨[], e.1, e.2⟩
termination_by s.length

def SourceUnit.of? (source : String) : Option SourceUnit := unit? (sourceLexemes source)

theorem unit?_array {elementType name : String} {rows : List (List Cell)} {s : List Lexeme}
    (read : ∀ rest, items? row? (s ++ .mark '\x7d' :: rest) = some (rows, rest))
    (rest : List Lexeme) :
    unit? (arrayHead elementType name ++ (s ++ [.mark '\x7d', .mark ';']) ++ rest) =
      (unit? rest).map (·.precededBy [⟨elementType, name, rows⟩]) := by
  rw [List.append_assoc, List.append_assoc]
  change unit? (arrayHead elementType name ++ (s ++ .mark '\x7d' :: .mark ';' :: rest)) = _
  rw [unit?, arrayDefinition?_append (read (.mark ';' :: rest))]
  refine if_pos ?_
  simp only [List.length_append, List.length_cons]
  omega

def entryPointLexemes (count scripts : Cell) : List Lexeme :=
  lexemes signature.toList ++ [.mark '*', .word "count", .mark '=', count.lexeme, .mark ';',
    .mark '*', .word "scripts", .mark '=', scripts.lexeme, .mark ';', .mark '\x7d']

theorem entryPoint?_lexemes {count scripts : Cell} (counted : count.Plain)
    (handed : scripts.Plain) :
    entryPoint? (entryPointLexemes count scripts) = some (count, scripts) := by
  rw [entryPoint?, entryPointLexemes, isPrefixOf?_append]
  change (do
    return (← Cell.ofLexeme? count.lexeme, ← Cell.ofLexeme? scripts.lexeme)) = some (count, scripts)
  rw [Cell.ofLexeme?_lexeme counted, Cell.ofLexeme?_lexeme handed]
  rfl

theorem unit?_entryPoint {count scripts : Cell} (counted : count.Plain) (handed : scripts.Plain) :
    unit? (entryPointLexemes count scripts) = some ⟨[], count, scripts⟩ := by
  -- The first word is not that of an array.
  have noArray : arrayDefinition? (entryPointLexemes count scripts) = none := by
    have split : signature.toList = "extern".toList ++ ' ' :: signature.toList.drop 7 := by decide
    rw [entryPointLexemes, split, lexemes_name (by decide) (breaks_cons (by decide) _)]
    rfl
  rw [unit?, noArray, entryPoint?_lexemes counted handed]
  rfl

end ScriptGlue.Registration
