import ScriptGlue.Proofs.Include
import ScriptGlue.Proofs.Path

/-!
# Inclusions

The directives of a source that name a file, told by their parts: a hash, blanks, the word, blanks, and
between quotes a directory and a name. A text begins with an inclusion in one way only (`text_append_inj`),
no inclusion reaches into another (`exists_of_overlap`), and an inclusion of one of some plain names is what
the search for a directive finds (`exists_of_directive?`).
-/

namespace ScriptGlue.Include

/-- An inclusion by its parts. -/
structure Inclusion where
  /-- What stands between the hash and the word. -/
  space : List Char
  /-- What stands between the word and the quote. -/
  gap : List Char
  directory : List Char
  name : List Char

/-- A name that can stand between quotes and has no hash. -/
def IsPlain (name : List Char) : Prop := '"' ∉ name ∧ '#' ∉ name ∧ '\n' ∉ name

/-- The name of a file that some characters spell. -/
def asFileName (name : List Char) : OsText := .ofText (String.ofList name)

namespace Inclusion

def word : List Char := "include".toList

/-- All up to the quoted path. -/
def opening (i : Inclusion) : List Char := '#' :: (i.space ++ word ++ i.gap ++ ['"'])

def text (i : Inclusion) : List Char := i.opening ++ (i.directory ++ (i.name ++ ['"']))

/-- The blanks are blanks, and the name is the last step of a path that quotes can hold. -/
structure IsSpelled (i : Inclusion) : Prop where
  space : ∀ c ∈ i.space, Text.isBlank c
  gap : ∀ c ∈ i.gap, Text.isBlank c
  directory : ∀ c ∈ i.directory.getLast?, c = '/'
  quoted : ∀ c ∈ i.directory ++ i.name, ¬(c = '"' ∨ c = '\n')
  last : '/' ∉ i.name

/-- The inclusion of the generated counterpart. -/
def renamed (i : Inclusion) : Inclusion :=
  { i with name := (Path.ofNames [asFileName i.name]).generated.text.toList }

end Inclusion

/-! ### Cutting a text at a character -/

theorem append_cons_inj {p : Char → Prop} {a b r s : List Char} {x y : Char} (before : ∀ c ∈ a, p c)
    (before' : ∀ c ∈ b, p c) (here : ¬p x) (here' : ¬p y) (same : a ++ x :: r = b ++ y :: s) :
    a = b ∧ x = y ∧ r = s := by
  induction a generalizing b with
  | nil =>
    cases b with
    | nil => simpa using same
    | cons c b =>
      obtain ⟨rfl, -⟩ := List.cons.inj same
      exact absurd (before' x List.mem_cons_self) here
  | cons c a ih =>
    cases b with
    | nil =>
      obtain ⟨rfl, -⟩ := List.cons.inj same
      exact absurd (before c List.mem_cons_self) here'
    | cons c' b =>
      obtain ⟨rfl, rest⟩ := List.cons.inj same
      obtain ⟨rfl, rfl, rfl⟩ := ih (fun c member => before c (List.mem_cons_of_mem _ member))
        (fun c member => before' c (List.mem_cons_of_mem _ member)) rest
      exact ⟨rfl, rfl, rfl⟩

theorem directory_append_inj {a b m n : List Char} (ends : ∀ c ∈ a.getLast?, c = '/')
    (ends' : ∀ c ∈ b.getLast?, c = '/') (last : '/' ∉ m) (last' : '/' ∉ n) (same : a ++ m = b ++ n) :
    a = b ∧ m = n := by
  have whole {a m : List Char} (ends : ∀ c ∈ a.getLast?, c = '/') (last : '/' ∉ m) :
      (a ++ m).reverse.takeWhile (· ≠ '/') = m.reverse := by
    rw [List.reverse_append, List.takeWhile_append_of_pos]
    · rw [List.head?_reverse.symm] at ends
      cases cut : a.reverse with
      | nil => simp
      | cons c above =>
        rw [cut] at ends
        simp [ends c rfl]
    · intro c member
      have : c ≠ '/' := fun slash => last (slash ▸ List.mem_reverse.mp member)
      simpa using this
  have names : m.reverse = n.reverse := by rw [← whole ends last, same, whole ends' last']
  obtain rfl := List.reverse_injective names
  exact ⟨List.append_cancel_right same, rfl⟩

theorem exists_of_append_eq {a d b front behind : List Char} {c : Char} (before : c ∉ a) (after : c ∉ b)
    (same : a ++ (d ++ b) = front ++ c :: behind) : ∃ x y, d = x ++ c :: y ∧ behind = y ++ b := by
  have inner : ∃ x, d ++ b = x ++ c :: behind := by
    rcases List.append_eq_append_iff.mp same with ⟨x, -, rest⟩ | ⟨x, whole, rest⟩
    · exact ⟨x, rest⟩
    · cases x with
      | nil => exact ⟨[], rest.symm⟩
      | cons e x =>
        obtain ⟨rfl, -⟩ := List.cons.inj rest
        exact absurd (whole ▸ List.mem_append_right front List.mem_cons_self) before
  obtain ⟨x, inner⟩ := inner
  rcases List.append_eq_append_iff.mp inner with ⟨y, -, whole⟩ | ⟨y, whole, rest⟩
  · exact absurd (whole ▸ List.mem_append_right y List.mem_cons_self) after
  · cases y with
    | nil =>
      rw [List.nil_append] at rest
      exact absurd (rest ▸ List.mem_cons_self) after
    | cons e y =>
      obtain ⟨rfl, rfl⟩ := List.cons.inj rest
      exact ⟨x, y, whole, rfl⟩

namespace Inclusion

variable {i j : Inclusion} {r before after : List Char}

theorem text_append (i : Inclusion) (r : List Char) : i.text ++ r =
    '#' :: (i.space ++ 'i' :: (word.tail ++ (i.gap ++ '"' :: (i.directory ++ i.name ++ '"' :: r)))) := by
  have first : word = 'i' :: word.tail := by decide
  rw [text, opening, first]
  simp

theorem IsSpelled.quoted_ne (spelled : i.IsSpelled) : ∀ c ∈ i.directory ++ i.name, c ≠ '"' :=
  fun c member same => spelled.quoted c member (.inl same)

/-- A text begins with an inclusion in one way only. -/
theorem IsSpelled.text_append_inj {s : List Char} (spelled : i.IsSpelled) (spelled' : j.IsSpelled)
    (same : i.text ++ r = j.text ++ s) : i = j ∧ r = s := by
  rw [text_append, text_append] at same
  obtain ⟨space, -, behind⟩ := append_cons_inj spelled.space spelled'.space (by decide) (by decide)
    (List.cons.inj same).2
  obtain ⟨gap, -, path⟩ := append_cons_inj spelled.gap spelled'.gap (by decide) (by decide)
    (List.append_cancel_left behind)
  obtain ⟨whole, -, rest⟩ := append_cons_inj spelled.quoted_ne spelled'.quoted_ne (by simp) (by simp) path
  obtain ⟨directory, name⟩ :=
    directory_append_inj spelled.directory spelled'.directory spelled.last spelled'.last whole
  cases i
  cases j
  simp_all

theorem IsSpelled.not_mem_opening (spelled : i.IsSpelled) {c : Char} (visible : Text.isBlank c = false)
    (other : c ∉ word) : c ∉ i.space ++ word ++ i.gap := by
  simp only [List.mem_append, not_or]
  refine ⟨⟨fun member => ?_, other⟩, fun member => ?_⟩
  · exact Bool.false_ne_true (visible.symm.trans (spelled.space c member))
  · exact Bool.false_ne_true (visible.symm.trans (spelled.gap c member))

/-- What an inclusion holds behind a hash of its own is a directory and the name. -/
theorem IsSpelled.exists_of_hash (spelled : i.IsSpelled) (plain : '#' ∉ i.name) {behind : List Char}
    (later : before ≠ []) (whole : i.text = before ++ '#' :: behind) :
    ∃ rest, behind = rest ++ i.name ++ ['"'] ∧ '/' ∈ rest ∧ ∀ c ∈ rest ++ i.name, c ≠ '"' := by
  obtain ⟨first, front, rfl⟩ := List.exists_cons_of_ne_nil later
  have inner : (i.space ++ word ++ i.gap ++ ['"']) ++ (i.directory ++ (i.name ++ ['"'])) =
      front ++ '#' :: behind := (List.cons.inj whole).2
  have opening : '#' ∉ i.space ++ word ++ i.gap ++ ['"'] := by
    have := spelled.not_mem_opening (c := '#') (by decide) (by decide)
    simp_all
  obtain ⟨x, y, directory, rfl⟩ := exists_of_append_eq opening (by simp [plain]) inner
  refine ⟨y, by rw [List.append_assoc], ?_, fun c member => spelled.quoted_ne c ?_⟩
  · have last := spelled.directory
    rw [directory, List.getLast?_append_cons, List.getLast?_cons] at last
    cases ends : y.getLast? with
    | none => simp [ends] at last
    | some c =>
      have slash : c = '/' := by simpa [ends] using last
      exact slash ▸ List.mem_of_getLast? ends
  · rw [directory]
    rcases List.mem_append.mp member with above | own
    · simp [above]
    · exact List.mem_append_right _ own

/-- No inclusion begins within another. -/
theorem IsSpelled.exists_of_overlap (spelled : i.IsSpelled) (spelled' : j.IsSpelled) (plain : '#' ∉ i.name)
    (later : before ≠ []) (same : i.text ++ r = before ++ (j.text ++ after)) :
    ∃ rest, before = i.text ++ rest ∧ r = rest ++ (j.text ++ after) := by
  rcases List.append_eq_append_iff.mp same with behind | ⟨within, whole, rest⟩
  · exact behind
  cases within with
  | nil => exact ⟨[], by simpa using whole.symm, by simpa using rest.symm⟩
  | cons c within =>
    -- A hash within an inclusion is in its directory, so a slash comes before the next quote.
    exfalso
    have parts : j.text ++ after = '#' :: (j.space ++ word ++ j.gap ++
        '"' :: (j.directory ++ (j.name ++ '"' :: after))) := by simp [text, opening]
    obtain ⟨rfl, behind⟩ := List.cons.inj (parts.symm.trans rest)
    obtain ⟨directory, rfl, slash, quoted⟩ := spelled.exists_of_hash plain later whole
    have clear : ∀ c ∈ j.space ++ word ++ j.gap, c ≠ '"' := by
      rintro c member rfl
      exact spelled'.not_mem_opening (by decide) (by decide) member
    have cut : j.space ++ word ++ j.gap ++ '"' :: (j.directory ++ (j.name ++ '"' :: after)) =
        directory ++ i.name ++ '"' :: r := by simpa using behind
    obtain ⟨same, -⟩ := append_cons_inj clear quoted (by simp) (by simp) cut
    exact spelled'.not_mem_opening (c := '/') (by decide) (by decide)
      (same ▸ List.mem_append_left _ slash)

/-! ### Finding an inclusion -/

theorem cut_blanks {a r : List Char} {x : Char} (blank : ∀ c ∈ a, Text.isBlank c)
    (visible : Text.isBlank x = false) : (a ++ x :: r).takeWhile Text.isBlank = a ∧
      (a ++ x :: r).dropWhile Text.isBlank = x :: r := by
  rw [List.takeWhile_append_of_pos blank, List.dropWhile_append_of_pos blank]
  simp [visible]

theorem opening?_text (spelled : i.IsSpelled) (r : List Char) :
    opening? (i.text ++ r) = some (i.opening, i.directory ++ i.name ++ '"' :: r) := by
  let quoted := '"' :: (i.directory ++ i.name ++ '"' :: r)
  obtain ⟨gap, path⟩ := cut_blanks (x := '"') (r := i.directory ++ i.name ++ '"' :: r) spelled.gap (by decide)
  obtain ⟨space, behind⟩ := cut_blanks (x := 'i') (r := word.tail ++ (i.gap ++ quoted)) spelled.space
    (by decide)
  have first : 'i' :: word.tail = word := by decide
  have begins := List.isPrefixOf_iff_prefix.mpr (List.prefix_append word (i.gap ++ quoted))
  rw [text_append, opening?_hash, show "include".toList = word from rfl, space, behind,
    ← List.cons_append, first, if_pos begins, List.drop_left, path, gap]
  simp [opening]

theorem exists_of_opening? {s front path : List Char} (found : opening? s = some (front, path)) :
    ∃ space gap, (∀ c ∈ space, Text.isBlank c) ∧ (∀ c ∈ gap, Text.isBlank c) ∧
      front = '#' :: (space ++ word ++ gap ++ ['"']) := by
  cases s with
  | nil => exact nomatch found
  | cons c s =>
    by_cases hash : c = '#'
    swap
    · rw [opening?_of_ne hash] at found
      exact nomatch found
    rw [hash, opening?_hash, show "include".toList = word from rfl] at found
    split at found
    · split at found
      · obtain ⟨rfl, -⟩ := Prod.mk.inj (Option.some.inj found)
        exact ⟨s.takeWhile Text.isBlank,
          ((s.dropWhile Text.isBlank).drop word.length).takeWhile Text.isBlank,
          fun c => List.mem_takeWhile_imp, fun c => List.mem_takeWhile_imp, rfl⟩
      · exact nomatch found
    · exact nomatch found

theorem ends_cons_iff {c : Char} {s : List Char} : (∀ e ∈ (c :: s).getLast?, e = '/') ↔
    (c = '/' ∨ s ≠ []) ∧ ∀ e ∈ s.getLast?, e = '/' := by
  rw [List.getLast?_cons]
  cases ends : s.getLast? with
  | none =>
    obtain rfl := List.getLast?_eq_none_iff.mp ends
    simp
  | some e =>
    have some : s ≠ [] := by
      rintro rfl
      exact nomatch ends
    simp [some]

theorem mem_directories_iff {s directory rest : List Char} : (directory, rest) ∈ directories s ↔
    directory ++ rest = s ∧ (∀ c ∈ directory.getLast?, c = '/') ∧
      ∀ c ∈ directory, ¬(c = '"' ∨ c = '\n') := by
  induction s generalizing directory rest with
  | nil =>
    simp only [directories, List.mem_singleton, Prod.mk.injEq, List.append_eq_nil_iff]
    constructor
    · rintro ⟨rfl, rfl⟩
      simp
    · exact And.left
  | cons c s ih =>
    rw [directories]
    cases directory with
    | nil => split <;> simp
    | cons x directory =>
      rw [ends_cons_iff, List.forall_mem_cons, List.cons_append, List.cons.injEq]
      split
      · rename_i stop
        constructor
        · simp
        · rintro ⟨⟨rfl, -⟩, -, go, -⟩
          exact absurd stop go
      · rename_i go
        simp only [List.mem_append, List.mem_map, List.mem_filter, List.mem_singleton, Prod.exists,
          Prod.mk.injEq, List.cons.injEq, reduceCtorEq, false_and, or_false, ih, decide_eq_true_eq]
        constructor
        · rintro ⟨_, _, ⟨⟨whole, ends, quoted⟩, longer⟩, ⟨rfl, rfl⟩, rfl⟩
          exact ⟨⟨rfl, whole⟩, ⟨longer, ends⟩, go, quoted⟩
        · rintro ⟨⟨rfl, whole⟩, ⟨longer, ends⟩, -, quoted⟩
          exact ⟨directory, rest, ⟨⟨whole, ends, quoted⟩, longer⟩, ⟨rfl, rfl⟩, rfl⟩

variable {names : List (List Char)}

theorem directive?_isSome (spelled : i.IsSpelled) (listed : i.name ∈ names) (r : List Char) :
    (directive? names (i.text ++ r)).isSome := by
  have found : (name? names (i.name ++ '"' :: r)).isSome := by
    have fits : (i.name ++ ['"']).isPrefixOf (i.name ++ '"' :: r) :=
      List.isPrefixOf_iff_prefix.mpr ⟨r, by simp⟩
    rw [name?, Option.isSome_map, List.find?_isSome]
    exact ⟨i.name, listed, fits⟩
  have directory : (i.directory, i.name ++ '"' :: r) ∈ directories (i.directory ++ i.name ++ '"' :: r) :=
    mem_directories_iff.mpr ⟨by rw [List.append_assoc], spelled.directory,
      fun c member => spelled.quoted c (List.mem_append_left _ member)⟩
  rw [directive?, opening?_text spelled]
  refine List.findSome?_isSome_iff.mpr ⟨_, directory, ?_⟩
  rw [Option.isSome_map]
  exact found

theorem exists_of_directive? (plain : ∀ name ∈ names, IsPlain name) (single : ∀ name ∈ names, '/' ∉ name)
    {s : List Char} {d : Directive} (found : directive? names s = some d) :
    ∃ i : Inclusion, i.IsSpelled ∧ i.name = d.name ∧ i.name ∈ names ∧ s = i.text ++ d.rest ∧
      d.front = i.opening ++ i.directory := by
  obtain ⟨⟨front, path⟩, opened, found⟩ := Option.bind_eq_some_iff.mp found
  obtain ⟨⟨directory, behind⟩, member, found⟩ := List.exists_of_findSome?_eq_some found
  obtain ⟨⟨name, rest⟩, named, rfl⟩ := Option.map_eq_some_iff.mp found
  obtain ⟨space, gap, spaceBlank, gapBlank, rfl⟩ := exists_of_opening? opened
  obtain ⟨rfl, ends, quoted⟩ := mem_directories_iff.mp member
  obtain ⟨listed, rfl⟩ := name?_append named
  obtain ⟨quote, -, newline⟩ := plain name listed
  refine ⟨⟨space, gap, directory, name⟩, ⟨spaceBlank, gapBlank, ends, ?_, single name listed⟩, rfl, listed,
    ?_, rfl⟩
  · refine List.forall_mem_append.mpr ⟨quoted, ?_⟩
    rintro c own (rfl | rfl)
    · exact quote own
    · exact newline own
  · rw [← (opening?_append opened).1]
    simp [text, opening]

end Inclusion

end ScriptGlue.Include
