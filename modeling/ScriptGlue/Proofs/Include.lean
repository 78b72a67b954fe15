import ScriptGlue.Include
import ScriptGlue.Proofs.Project
import Mathlib.Data.List.Find

/-!
# Includes in front of glue

Glue begins on a line of its own and has no hash. So a directive that a source leaves open does not
reach into the glue behind it, and renaming what the source includes and appending the glue can be
done in either order (`rewrite_append_glue`).
-/

namespace ScriptGlue.Include

/-- A text that begins with a newline and a letter that no directive has there, if with anything. -/
inductive Opens : List Char → Prop
  | nil : Opens []
  | letter (rest : List Char) : Opens ('\n' :: 'e' :: rest)

variable {g : List Char}

/-- A word without newlines does not reach into what begins with one. -/
theorem isPrefixOf_append (opens : Opens g) {word : List Char} (clear : '\n' ∉ word) (s : List Char) :
    word.isPrefixOf (s ++ g) = word.isPrefixOf s := by
  induction s generalizing word with
  | nil =>
    cases word with
    | nil => rfl
    | cons c word =>
      cases opens with
      | nil => rfl
      | letter rest =>
        have other : (c == '\n') = false := beq_false_of_ne (List.ne_of_not_mem_cons clear).symm
        simp [List.isPrefixOf, other]
  | cons a s ih =>
    cases word with
    | nil => rfl
    | cons c word =>
      rw [List.cons_append, List.isPrefixOf, List.isPrefixOf, ih (List.not_mem_of_not_mem_cons clear)]

/-- Behind blanks either more of the source stands, or nothing that continues a directive. -/
theorem dropWhile_append_cases (s : List Char) :
    (s.takeWhile Text.isBlank = s ∧ s.dropWhile Text.isBlank = [] ∧
      (s ++ g).dropWhile Text.isBlank = g.dropWhile Text.isBlank) ∨
    ((s ++ g).takeWhile Text.isBlank = s.takeWhile Text.isBlank ∧ s.dropWhile Text.isBlank ≠ [] ∧
      (s ++ g).dropWhile Text.isBlank = s.dropWhile Text.isBlank ++ g) := by
  induction s with
  | nil => exact .inl ⟨rfl, rfl, rfl⟩
  | cons c s ih =>
    by_cases blank : Text.isBlank c = true
    · simpa [blank] using ih
    · exact .inr (by simp [blank])

theorem opens_dropWhile (opens : Opens g) :
    g.dropWhile Text.isBlank = [] ∨ ∃ rest, g.dropWhile Text.isBlank = 'e' :: rest := by
  cases opens with
  | nil => exact .inl rfl
  | letter rest => exact .inr ⟨rest, rfl⟩

theorem opening?_of_ne {c : Char} (other : c ≠ '#') (s : List Char) : opening? (c :: s) = none := by
  unfold opening?
  split
  · rename_i same
    exact absurd (List.cons.inj same).1 other
  · rfl

theorem opening?_hash (s : List Char) : opening? ('#' :: s) =
    if "include".toList.isPrefixOf (s.dropWhile Text.isBlank) then
      match ((s.dropWhile Text.isBlank).drop "include".toList.length).dropWhile Text.isBlank with
      | '"' :: rest =>
        some ('#' :: s.takeWhile Text.isBlank ++ "include".toList ++
          ((s.dropWhile Text.isBlank).drop "include".toList.length).takeWhile Text.isBlank ++ ['"'], rest)
      | _ => none
    else none := rfl

theorem opening?_append_right (opens : Opens g) (s : List Char) :
    opening? (s ++ g) = (opening? s).map fun d => (d.1, d.2 ++ g) := by
  cases s with
  | nil => cases opens <;> rfl
  | cons c s =>
    by_cases hash : c = '#'
    swap
    · rw [List.cons_append, opening?_of_ne hash, opening?_of_ne hash, Option.map_none]
    subst hash
    rw [List.cons_append, opening?_hash, opening?_hash]
    rcases dropWhile_append_cases (g := g) s with ⟨-, nothing, behind⟩ | ⟨gap, -, behind⟩
    · -- The word would have to begin in the glue.
      rw [behind, nothing]
      rcases opens_dropWhile opens with none | ⟨rest, letter⟩
      · rw [none]
        rfl
      · rw [letter]
        rfl
    · rw [gap, behind, isPrefixOf_append opens (by decide)]
      by_cases word : "include".toList.isPrefixOf (s.dropWhile Text.isBlank)
      swap
      · rw [if_neg word, if_neg word, Option.map_none]
      obtain ⟨s₃, same⟩ := List.isPrefixOf_iff_prefix.mp word
      rw [if_pos word, if_pos word, ← same, List.append_assoc, List.drop_left, List.drop_left]
      rcases dropWhile_append_cases (g := g) s₃ with ⟨-, nothing, behind⟩ | ⟨gap, some, behind⟩
      · -- The quote would have to stand in the glue.
        rw [behind, nothing]
        rcases opens_dropWhile opens with none | ⟨rest, letter⟩
        · rw [none]
          rfl
        · rw [letter]
          rfl
      · rw [gap, behind]
        obtain ⟨c, s₄, cut⟩ := List.exists_cons_of_ne_nil some
        rw [cut, List.cons_append]
        by_cases quote : c = '"'
        · subst quote
          rfl
        · split
          · rename_i same
            exact absurd (List.cons.inj same).1 quote
          · split
            · rename_i same
              exact absurd (List.cons.inj same).1 quote
            · rfl

theorem directories_append (opens : Opens g) (s : List Char) :
    directories (s ++ g) = (directories s).map fun d => (d.1, d.2 ++ g) := by
  induction s with
  | nil => cases opens <;> rfl
  | cons c s ih =>
    rw [List.cons_append, directories, directories]
    split
    · rfl
    · simp only [ih, List.filter_map, List.map_append, List.map_map]
      rfl

theorem name?_append_right (opens : Opens g) {names : List (List Char)}
    (clear : ∀ name ∈ names, '\n' ∉ name) (s : List Char) :
    name? names (s ++ g) = (name? names s).map fun d => (d.1, d.2 ++ g) := by
  have alike : names.find? (fun name => (name ++ ['"']).isPrefixOf (s ++ g)) =
      names.find? fun name => (name ++ ['"']).isPrefixOf s := by
    apply List.find?_congr
    intro name member
    exact isPrefixOf_append opens (by simpa using clear name member) s
  unfold name?
  rw [alike, Option.map_map]
  apply Option.map_congr
  intro name found
  have fits : (name ++ ['"']).isPrefixOf s = true := by simpa using List.find?_some found
  have short := (List.isPrefixOf_iff_prefix.mp fits).length_le
  have short : name.length + 1 ≤ s.length := by simpa using short
  simp only [Function.comp, List.drop_append_of_le_length short]

theorem directive?_append_right (opens : Opens g) {names : List (List Char)}
    (clear : ∀ name ∈ names, '\n' ∉ name) (s : List Char) :
    directive? names (s ++ g) =
      (directive? names s).map fun d => { d with rest := d.rest ++ g } := by
  unfold directive?
  rw [opening?_append_right opens]
  cases opening? s with
  | none => rfl
  | some d =>
    simp only [Option.map_some, Option.bind_eq_bind, Option.bind_some, directories_append opens,
      List.findSome?_map]
    induction directories d.2 with
    | nil => rfl
    | cons e rest ih =>
      rw [List.findSome?_cons, List.findSome?_cons]
      simp only [Function.comp, name?_append_right opens clear]
      cases name? names e.2 with
      | none => exact ih
      | some found => rfl

/-! ### Renaming -/

theorem renameAll_of_clear {names : List (List Char)} {s : List Char} (clear : '#' ∉ s) :
    renameAll names s = s := by
  induction s with
  | nil =>
    rw [renameAll]
    split
    · rename_i found
      cases found
    · rfl
  | cons c s ih =>
    have none : directive? names (c :: s) = none := by
      unfold directive?
      rw [opening?_of_ne (List.ne_of_not_mem_cons clear).symm]
      rfl
    rw [renameAll]
    split
    · rename_i found
      rw [none] at found
      cases found
    · exact congrArg (c :: ·) (ih (List.not_mem_of_not_mem_cons clear))

theorem renameAll_append {names : List (List Char)} (opens : Opens g) (hashless : '#' ∉ g)
    (clear : ∀ name ∈ names, '\n' ∉ name) (s : List Char) :
    renameAll names (s ++ g) = renameAll names s ++ g := by
  fun_induction renameAll names s with
  | case1 s d found ih =>
    have found' := directive?_append_right opens clear s
    rw [found] at found'
    rw [renameAll]
    split
    · rename_i d' same
      obtain rfl := Option.some.inj (same.symm.trans found')
      rw [List.append_assoc, ← ih]
      rfl
    · rename_i none
      exact nomatch none.symm.trans found'
  | case2 none => exact renameAll_of_clear hashless
  | case3 c s none ih =>
    have none' := directive?_append_right opens clear (c :: s)
    rw [none] at none'
    rw [List.cons_append, renameAll]
    split
    · rename_i found
      exact nomatch found.symm.trans none'
    · exact congrArg (c :: ·) ih

/-! ### Glue -/

theorem hashless_function {f : Glue.ExportedFunction} (returns : '#' ∉ f.returns.toList)
    (symbol : '#' ∉ f.symbol.toList) (parameters : '#' ∉ f.parameters.toList)
    (statement : '#' ∉ f.statement.toList) : '#' ∉ (Glue.Item.function f).text.toList := by
  simp [Glue.Item.text, Glue.Item.lines, Glue.ExportedFunction.lines, Text.unlines, returns, symbol,
    parameters, statement]

theorem hashless_items {t : ScriptType} (words : t.IsIdentified) {i : Glue.Item}
    (member : i ∈ Glue.items t) : '#' ∉ i.text.toList := by
  have name : '#' ∉ t.name.toList := words.name.not_mem rfl
  rcases List.mem_append.mp member with lifecycle | field
  · rcases List.mem_pair.mp lifecycle with rfl | rfl
    · apply hashless_function <;> simp [Glue.creation, name, words.create.not_mem (c := '#') rfl]
    · apply hashless_function <;> simp [Glue.destruction, name, words.destroy.not_mem (c := '#') rfl]
  · obtain ⟨f, inside, own⟩ := List.mem_flatMap.mp field
    obtain ⟨fieldName, getter, setter⟩ := words.fields f inside
    have fieldName : '#' ∉ f.name.toList := fieldName.not_mem rfl
    have getter : '#' ∉ f.getter.toList := getter.not_mem rfl
    have setter : '#' ∉ f.setter.toList := setter.not_mem rfl
    unfold Glue.fieldItems at own
    split at own
    · rename_i kind _
      have keyword : '#' ∉ kind.keyword.toList := Glue.not_mem_keyword kind rfl
      rcases List.mem_pair.mp own with rfl | rfl
      · apply hashless_function <;> simp [Glue.getter, name, fieldName, getter, keyword]
      · apply hashless_function <;> simp [Glue.setter, name, fieldName, setter, keyword]
    · obtain rfl := List.mem_singleton.mp own
      simp [Glue.Item.text, Glue.Item.lines, Text.unlines, name, fieldName, getter, setter]

variable {types : List ScriptType}

theorem hashless_glue (words : ∀ t ∈ types, t.IsIdentified) : '#' ∉ (Glue.text types).toList := by
  rw [Glue.text, String.toList_join]
  intro member
  obtain ⟨text, inside, own⟩ := List.mem_flatMap.mp member
  obtain ⟨i, item, rfl⟩ := List.mem_map.mp inside
  obtain ⟨t, type, member⟩ := List.mem_flatMap.mp item
  exact hashless_items (words t type) member own

theorem opens_glue (types : List ScriptType) : Opens (Glue.text types).toList := by
  cases types with
  | nil => exact .nil
  | cons t types =>
    have first : (Glue.text (t :: types)).toList = '\n' :: 'e' :: (Glue.text (t :: types)).toList.drop 2 := by
      simp [Glue.text, Glue.items, Glue.Item.text, Glue.Item.lines, Glue.ExportedFunction.lines,
        Text.unlines]
    rw [first]
    exact .letter _

theorem mem_pieces_of_fileName? {p : Path} {name : OsText} (named : p.fileName? = some name) :
    name ∈ p.pieces := by
  unfold Path.fileName? at named
  split at named
  · rename_i found last
    obtain rfl : found = name := Option.some.inj named
    have member := List.mem_of_getLast? last
    have step : Path.Component.name found ∈ (p.pieces.filter (!Path.isBlank ·)).map fun (piece : OsText) =>
        if piece = ".." then Path.Component.parent else .name piece := by
      unfold Path.components at member
      split at member
      · exact (List.mem_cons.mp member).resolve_left nofun
      · exact (List.mem_cons.mp member).resolve_left nofun
      · exact member
    obtain ⟨piece, inside, same⟩ := List.mem_map.mp step
    split at same
    · exact nomatch same
    · obtain rfl := Path.Component.name.inj same
      exact (List.mem_filter.mp inside).1
  · exact nomatch named

/-- What is renamed in a header with its glue is what is renamed in the header. -/
theorem rewrite_append_glue {headers : List Path}
    (clear : ∀ h ∈ headers, ∀ piece ∈ h.pieces, '\n' ∉ piece.shown.toList)
    (words : ∀ t ∈ types, t.IsIdentified) (source : String) :
    rewrite headers (source ++ Glue.text types) = rewrite headers source ++ Glue.text types := by
  have clearTargets : ∀ name ∈ targets headers, '\n' ∉ name := by
    intro name member
    rw [targets, List.mem_mergeSort] at member
    obtain ⟨h, inside, named⟩ := List.mem_filterMap.mp member
    obtain ⟨text, own, rfl⟩ := Option.map_eq_some_iff.mp named
    exact clear h inside text (mem_pieces_of_fileName? own)
  apply String.toList_injective
  simp only [rewrite, String.toList_ofList, String.toList_append]
  exact renameAll_append (opens_glue types) (hashless_glue words) clearTargets source.toList

end ScriptGlue.Include
