import ScriptGlue.Glue.Registration
import ScriptGlue.Proofs.Registration.Declaration

/-!
# Printed declarations

The lines of an array definition are read as that array, whatever lines stand behind them
(`Declares`).
-/

namespace ScriptGlue.Registration
open Text

/-! ### Cells -/

def Cell.print : Cell → String
  | number n => toString n
  | text t => quoted t
  | name t => t

theorem toList_quoted (text : String) : (quoted text).toList = '"' :: (text.toList ++ ['"']) := by
  simp [quoted]

theorem lexemes_print {c : Cell} (plain : c.Plain) {rest : List Char} (breaks : Breaks rest) :
    lexemes (c.print.toList ++ rest) = c.lexeme :: lexemes rest := by
  cases c with
  | number n =>
    refine lexemes_word ?_ (fun _ => isWordPart_of_mem_toString) breaks
    rw [Ne, ← String.toList_eq_nil_iff, Nat.toString_eq_ofList_toDigits, String.toList_ofList]
    exact Nat.toDigits_ne_nil
  | text t =>
    rw [Cell.print, toList_quoted, List.cons_append, List.append_assoc,
      List.singleton_append, lexemes_literal plain.1 plain.2.1]
    rfl
  | name t => exact lexemes_name plain breaks

theorem newline_not_mem_print {c : Cell} (plain : c.Plain) : '\n' ∉ c.print.toList := by
  cases c with
  | number n => exact fun member => nomatch isDigit_of_mem_toString member
  | text t => simpa [Cell.print, toList_quoted] using plain.2.2
  | name t => exact IsWord.not_mem plain (by decide)

/-! ### Lists of cells -/

theorem lexemes_close (rest : List Char) :
    lexemes (' ' :: '\x7d' :: rest) = .mark '\x7d' :: lexemes rest := by
  rw [lexemes_gap (by decide), lexemes_mark (by decide) (by decide) (by decide)]

theorem toList_commaList_cons (first second : String) (items : List String) :
    (commaList (first :: second :: items)).toList =
      first.toList ++ ',' :: ' ' :: (commaList (second :: items)).toList := by
  simp [commaList]

theorem lexemes_commaList {cells : List Cell} (plain : ∀ c ∈ cells, c.Plain) (rest : List Char) :
    lexemes ((commaList (cells.map Cell.print)).toList ++ ' ' :: '\x7d' :: rest) =
      (cells.map Cell.lexeme).intersperse (.mark ',') ++ .mark '\x7d' :: lexemes rest := by
  induction cells with
  | nil => exact lexemes_close rest
  | cons c cells ih =>
    have first := plain c List.mem_cons_self
    cases cells with
    | nil =>
      have single : commaList [c.print] = c.print := String.intercalate_singleton
      rw [List.map_singleton, single, lexemes_print first (breaks_cons (by decide) _), lexemes_close]
      rfl
    | cons c' cells =>
      have later := ih fun other member => plain other (List.mem_cons_of_mem c member)
      rw [List.map_cons, List.map_cons, toList_commaList_cons, ← List.map_cons, List.append_assoc,
        List.cons_append, List.cons_append, lexemes_print first (breaks_cons (by decide) _),
        lexemes_mark (by decide) (by decide) (by decide), lexemes_gap (by decide), later]
      rfl

theorem newline_not_mem_commaList {items : List String}
    (clear : ∀ item ∈ items, '\n' ∉ item.toList) : '\n' ∉ (commaList items).toList := by
  induction items with
  | nil => exact nofun
  | cons item items ih =>
    have first := clear item List.mem_cons_self
    cases items with
    | nil => rwa [commaList, String.intercalate_singleton]
    | cons next items =>
      have later := ih fun other member => clear other (List.mem_cons_of_mem item member)
      rw [toList_commaList_cons]
      simp [first, later]

theorem clear_print {cells : List Cell} (plain : ∀ c ∈ cells, c.Plain) :
    '\n' ∉ (commaList (cells.map Cell.print)).toList := by
  apply newline_not_mem_commaList
  intro item member
  obtain ⟨c, inside, rfl⟩ := List.mem_map.mp member
  exact newline_not_mem_print (plain c inside)

/-! ### Lines -/

theorem lineLexemes_of_ne {c : Char} (other : c ≠ '#') (rest : List Char) :
    lineLexemes (c :: rest) = lexemes (c :: rest) := by
  have inclusion : "#include ".toList = '#' :: "include ".toList := by decide
  have differ : ('#' == c) = false := by simpa using other.symm
  rw [lineLexemes, inclusion, List.isPrefixOf_cons_cons, differ, Bool.false_and]
  rfl

theorem lineLexemes_row {cells : List Cell} (plain : ∀ c ∈ cells, c.Plain) :
    lineLexemes (row (cells.map Cell.print)).toList = rowLexemes cells ++ [.mark ','] := by
  have text : (row (cells.map Cell.print)).toList = '\t' :: '\x7b' :: ' ' ::
      ((commaList (cells.map Cell.print)).toList ++ ' ' :: '\x7d' :: [',']) := by simp [row]
  rw [text, lineLexemes_of_ne (by decide), lexemes_gap (by decide),
    lexemes_mark (by decide) (by decide) (by decide), lexemes_gap (by decide),
    lexemes_commaList plain, lexemes_mark (by decide) (by decide) (by decide), lexemes,
    rowLexemes]
  simp

theorem lexemes_arrayHead {elementType name : String} (typed : IsWord elementType)
    (named : IsWord name) (rest : List Char) :
    lexemes (("static const " ++ elementType ++ " " ++ name ++ "[] = \x7b").toList ++ rest) =
      arrayHead elementType name ++ lexemes rest := by
  have text : ("static const " ++ elementType ++ " " ++ name ++ "[] = \x7b").toList ++ rest =
      "static".toList ++ ' ' :: ("const".toList ++ ' ' :: (elementType.toList ++ ' ' ::
        (name.toList ++ '[' :: ']' :: ' ' :: '=' :: ' ' :: '\x7b' :: rest))) := by simp
  rw [text, lexemes_name (by decide) (breaks_cons (by decide) _), lexemes_gap (by decide),
    lexemes_name (by decide) (breaks_cons (by decide) _), lexemes_gap (by decide),
    lexemes_name typed (breaks_cons (by decide) _), lexemes_gap (by decide),
    lexemes_name named (breaks_cons (by decide) _), lexemes_mark (by decide) (by decide) (by decide),
    lexemes_mark (by decide) (by decide) (by decide), lexemes_gap (by decide),
    lexemes_mark (by decide) (by decide) (by decide), lexemes_gap (by decide),
    lexemes_mark (by decide) (by decide) (by decide)]
  rfl

theorem lineLexemes_arrayHead {elementType name : String} (typed : IsWord elementType)
    (named : IsWord name) (rest : List Char) :
    lineLexemes (("static const " ++ elementType ++ " " ++ name ++ "[] = \x7b").toList ++ rest) =
      arrayHead elementType name ++ lexemes rest := by
  rw [← lexemes_arrayHead typed named]
  have first : "static const ".toList = 's' :: "tatic const ".toList := by decide
  simp only [String.toList_append, first, List.cons_append]
  exact lineLexemes_of_ne (by decide) _

theorem newline_not_mem_arrayHead {elementType name : String} (typed : IsWord elementType)
    (named : IsWord name) :
    '\n' ∉ ("static const " ++ elementType ++ " " ++ name ++ "[] = \x7b").toList := by
  have inType : '\n' ∉ elementType.toList := typed.not_mem (by decide)
  have inName : '\n' ∉ name.toList := named.not_mem (by decide)
  simp [inType, inName]

/-! ### Definitions -/

theorem SourceUnit.precededBy_append (first second : List ArrayDefinition) (u : SourceUnit) :
    u.precededBy (first ++ second) = (u.precededBy second).precededBy first := by
  rw [precededBy, List.append_assoc]
  rfl

/-- Lines that declare some arrays in front of whatever else there is. -/
structure Declares (lines : List String) (arrays : List ArrayDefinition) : Prop where
  clear : ∀ line ∈ lines, '\n' ∉ line.toList
  read : ∀ rest, unit? ((lines.flatMap fun line => lineLexemes line.toList) ++ rest) =
    (unit? rest).map (·.precededBy arrays)

namespace Declares

theorem nil : Declares [] [] := ⟨nofun, fun _ => Option.map_id'.symm⟩

theorem append {first second : List String} {arrays more : List ArrayDefinition}
    (front : Declares first arrays) (back : Declares second more) :
    Declares (first ++ second) (arrays ++ more) := by
  refine ⟨fun line member => ?_, fun rest => ?_⟩
  · rcases List.mem_append.mp member with before | behind
    · exact front.clear line before
    · exact back.clear line behind
  · rw [List.flatMap_append, List.append_assoc, front.read, back.read, Option.map_map]
    simp only [Function.comp_def, SourceUnit.precededBy_append]

theorem flatMap {α : Type} {lines : α → List String} {arrays : α → List ArrayDefinition}
    {items : List α} (each : ∀ a ∈ items, Declares (lines a) (arrays a)) :
    Declares (items.flatMap lines) (items.flatMap arrays) := by
  induction items with
  | nil => exact nil
  | cons a items ih =>
    exact (each a List.mem_cons_self).append
      (ih fun other member => each other (List.mem_cons_of_mem a member))

theorem of_isEmpty {α : Type} {items : List α} {lines : List String}
    {arrays : List ArrayDefinition} (none : items = [] → arrays = [])
    (some : items ≠ [] → Declares lines arrays) :
    Declares (if items.isEmpty then [] else lines) arrays := by
  by_cases empty : items = []
  · rw [none empty, empty]
    exact nil
  · rw [if_neg (by simpa using empty)]
    exact some empty

theorem silent {t : String} (clear : '\n' ∉ t.toList) (none : lineLexemes t.toList = []) :
    Declares [t] [] := by
  refine ⟨fun other member => List.mem_singleton.mp member ▸ clear, fun rest => ?_⟩
  rw [List.flatMap_singleton, none]
  exact nil.read rest

theorem inclusion : Declares [includeLine headerName] [] := silent (by decide) (if_pos (by decide))

theorem blank {lines : List String} {arrays : List ArrayDefinition}
    (declares : Declares lines arrays) : Declares ("" :: lines) arrays :=
  (silent (t := "") (by decide) lineLexemes_nil).append declares

theorem rows {elementType name : String} {rows : List (List Cell)} (typed : IsWord elementType)
    (named : IsWord name) (plain : ∀ r ∈ rows, ∀ c ∈ r, c.Plain) :
    Declares (array elementType name (rows.map fun r => row (r.map Cell.print)))
      [⟨elementType, name, rows⟩] := by
  refine ⟨fun line member => ?_, fun rest => ?_⟩
  · rcases List.mem_cons.mp member with rfl | behind
    · exact newline_not_mem_arrayHead typed named
    · rcases List.mem_append.mp behind with inside | last
      · obtain ⟨r, inRows, rfl⟩ := List.mem_map.mp inside
        simpa [row] using clear_print (plain r inRows)
      · rw [List.mem_singleton.mp last]
        decide
  · have head := lineLexemes_arrayHead typed named []
    have inside : (rows.map fun r => row (r.map Cell.print)).flatMap
        (fun line => lineLexemes line.toList) = rows.flatMap fun r => rowLexemes r ++ [.mark ','] := by
      rw [List.flatMap_map]
      exact List.flatMap_congr fun r member => lineLexemes_row (plain r member)
    have close : lineLexemes "\x7d;".toList = [.mark '\x7d', .mark ';'] := by
      rw [show "\x7d;".toList = ['\x7d', ';'] by decide, lineLexemes_of_ne (by decide),
        lexemes_mark (by decide) (by decide) (by decide),
        lexemes_mark (by decide) (by decide) (by decide), lexemes_nil]
    rw [List.append_nil, lexemes_nil, List.append_nil] at head
    rw [array, List.flatMap_append, List.flatMap_cons, List.flatMap_singleton, head, inside, close,
      List.append_assoc (arrayHead elementType name)]
    exact unit?_array (items?_rows plain) rest

/-- Records, one printed row for each. -/
theorem records {α : Type} {elementType name : String} {items : List α} {line : α → String}
    {cells : α → List Cell} (typed : IsWord elementType) (named : IsWord name)
    (printed : ∀ a, line a = row ((cells a).map Cell.print))
    (plain : ∀ a ∈ items, ∀ c ∈ cells a, c.Plain) :
    Declares (array elementType name (items.map line))
      [⟨elementType, name, items.map cells⟩] := by
  have same : items.map line = (items.map cells).map fun r => row (r.map Cell.print) := by
    rw [List.map_map]
    exact List.map_congr_left fun a _ => printed a
  rw [same]
  refine rows typed named fun r member => ?_
  obtain ⟨a, inside, rfl⟩ := List.mem_map.mp member
  exact plain a inside

theorem line {name : String} {cells : List Cell} (named : IsWord name)
    (plain : ∀ c ∈ cells, c.Plain) :
    Declares ["static const int " ++ name ++ "[] = \x7b " ++ commaList (cells.map Cell.print)
      ++ " \x7d;"] [⟨"int", name, cells.map ([·])⟩] := by
  have split : "static const int " ++ name ++ "[] = \x7b " ++ commaList (cells.map Cell.print)
      ++ " \x7d;" = ("static const " ++ "int" ++ " " ++ name ++ "[] = \x7b")
        ++ (" " ++ commaList (cells.map Cell.print) ++ " \x7d;") := by
    apply String.toList_injective
    simp
  rw [split]
  refine ⟨fun line member => ?_, fun rest => ?_⟩
  · have head := newline_not_mem_arrayHead (by decide : IsWord "int") named
    rw [List.mem_singleton.mp member, String.toList_append, List.mem_append, not_or]
    exact ⟨head, by simpa using clear_print plain⟩
  · have tail : (" " ++ commaList (cells.map Cell.print) ++ " \x7d;").toList =
        ' ' :: ((commaList (cells.map Cell.print)).toList ++ ' ' :: '\x7d' :: [';']) := by simp
    rw [List.flatMap_singleton, String.toList_append, lineLexemes_arrayHead (by decide) named, tail,
      lexemes_gap (by decide), lexemes_commaList plain,
      lexemes_mark (by decide) (by decide) (by decide), lexemes_nil]
    exact unit?_array (items?_cells plain) rest

end Declares

end ScriptGlue.Registration
