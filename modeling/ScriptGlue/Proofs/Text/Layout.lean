import ScriptGlue.Text.Lines
import Mathlib.Data.List.TakeWhile

/-!
# Layout

Reading back what was laid out as text: the lines of a file, the parts before and behind a
separator, and what stands between two fixed texts.
-/

namespace ScriptGlue.Text

/-! ### Lines -/

def lines (text : List Char) : List (List Char) := text.splitOn '\n'

theorem unlines_append (first second : List String) :
    unlines (first ++ second) = unlines first ++ unlines second := by
  apply String.toList_injective
  simp [unlines]

theorem unlines_flatMap {α : Type} (f : α → List String) (items : List α) :
    unlines (items.flatMap f) = String.join (items.map fun a => unlines (f a)) := by
  induction items with
  | nil => rfl
  | cons a items ih =>
    rw [List.flatMap_cons, unlines_append, ih]
    apply String.toList_injective
    simp

/-- Lines are read back if none of them holds a newline; behind the last newline is nothing. -/
theorem lines_unlines {items : List String} (clear : ∀ line ∈ items, '\n' ∉ line.toList) :
    lines (unlines items).toList = items.map String.toList ++ [[]] := by
  induction items with
  | nil => rfl
  | cons line items ih =>
    have rest := ih fun other member => clear other (List.mem_cons_of_mem line member)
    have first : (unlines (line :: items)).toList =
        line.toList ++ '\n' :: (unlines items).toList := by simp [unlines]
    rw [lines, first,
      List.splitOn_append_cons_self_of_not_mem (clear line List.mem_cons_self)]
    exact congrArg (line.toList :: ·) rest

/-! ### Parts -/

/-- What stands before the first `c`, and what stands behind it. -/
def cut (c : Char) (text : List Char) : List Char × List Char :=
  (text.takeWhile (· ≠ c), (text.dropWhile (· ≠ c)).drop 1)

theorem cut_append {c : Char} {before : List Char} (absent : c ∉ before) (rest : List Char) :
    cut c (before ++ c :: rest) = (before, rest) := by
  have pass : ∀ d ∈ before, (decide (d ≠ c)) = true := by
    intro d member
    exact decide_eq_true fun same => absent (same ▸ member)
  rw [cut, List.takeWhile_append_of_pos pass, List.dropWhile_append_of_pos pass]
  simp

theorem isPrefixOf?_cons {α : Type} [BEq α] (c d : α) (first text : List α) :
    (c :: first).isPrefixOf? (d :: text) = if c == d then first.isPrefixOf? text else none := rfl

theorem isPrefixOf?_append {α : Type} [BEq α] [ReflBEq α] (first rest : List α) :
    first.isPrefixOf? (first ++ rest) = some rest := by
  induction first with
  | nil => cases rest <;> rfl
  | cons c first ih => rw [List.cons_append, isPrefixOf?_cons, if_pos BEq.rfl, ih]

theorem isPrefixOf?_eq_none {first front : List Char}
    (differ : (first.zip front).any fun p => p.1 != p.2) (rest : List Char) :
    first.isPrefixOf? (front ++ rest) = none := by
  induction first generalizing front with
  | nil => exact nomatch differ
  | cons c first ih =>
    cases front with
    | nil => exact nomatch differ
    | cons d front =>
      rw [List.cons_append, isPrefixOf?_cons]
      by_cases same : c = d
      · subst same
        rw [if_pos BEq.rfl]
        apply ih
        simpa using differ
      · rw [if_neg (by simpa using same)]

theorem isSuffixOf?_append (rest last : List Char) :
    last.isSuffixOf? (rest ++ last) = some rest := by
  change (last.reverse.isPrefixOf? (rest ++ last).reverse).map List.reverse = some rest
  rw [List.reverse_append, isPrefixOf?_append, Option.map_some, List.reverse_reverse]

/-- What stands between two texts that begin and end another. -/
def between? (first last text : String) : Option String :=
  ((first.toList.isPrefixOf? text.toList).bind last.toList.isSuffixOf?).map String.ofList

theorem between?_append (first text last : String) :
    between? first last (first ++ text ++ last) = some text := by
  have characters : (first ++ text ++ last).toList =
      first.toList ++ (text.toList ++ last.toList) := by simp
  rw [between?, characters, isPrefixOf?_append, Option.bind_some, isSuffixOf?_append,
    Option.map_some, String.ofList_toList]

theorem between?_eq_none {first front : String}
    (differ : (first.toList.zip front.toList).any fun p => p.1 != p.2) (last rest : String) :
    between? first last (front ++ rest) = none := by
  rw [between?, String.toList_append, isPrefixOf?_eq_none differ]
  rfl

end ScriptGlue.Text
