import ScriptGlue.Proofs.Path
import Mathlib.Data.List.DropRight

/-!
# Generated counterparts of spelled paths

A path may be spelled with empty pieces, single dots and steps up. Its generated counterpart stands in the
same folder, is read back from its text as it is, and is known for what it is; the counterparts of two
different files are different files (`generated_unambiguous`).
-/

namespace ScriptGlue.Path

variable {p q : Path} {name : OsText}

/-- The extension of the name that a path ends in. -/
def extension? (p : Path) : Option OsText :=
  p.fileName?.bind fun name => (FileName.of name).extension?

/-- Whether a path ends in the name of a generated file. -/
def isGenerated (p : Path) : Bool := p.fileName?.any fun name => (FileName.of name).isGenerated

/-! ### Steps -/

def Start.steps : Start → List Component
  | root => [.root]
  | here => [.here]
  | bare => []

/-- The steps that some pieces of a path say. -/
def steps (pieces : List OsText) : List Component :=
  (pieces.filter (!isBlank ·)).map fun (piece : OsText) => if piece = ".." then .parent else .name piece

theorem components_eq (p : Path) : p.components = p.start.steps ++ steps p.pieces := by
  obtain ⟨start, pieces⟩ := p
  cases start <;> rfl

theorem steps_append (a b : List OsText) : steps (a ++ b) = steps a ++ steps b := by
  rw [steps, List.filter_append, List.map_append]
  rfl

theorem steps_of_blank {blanks : List OsText} (blank : ∀ piece ∈ blanks, isBlank piece) :
    steps blanks = [] := by
  have none : blanks.filter (!isBlank ·) = [] :=
    List.filter_eq_nil_iff.mpr fun piece member => by simp [blank piece member]
  rw [steps, none, List.map_nil]

theorem steps_singleton (named : isBlank name = false) (down : name ≠ "..") :
    steps [name] = [.name name] := by
  simp [steps, named, down]

theorem steps_rdropWhile (pieces : List OsText) : steps (pieces.rdropWhile isBlank) = steps pieces := by
  have whole := List.rdropWhile_append_rtakeWhile (p := isBlank) (l := pieces)
  have blank : steps (pieces.rtakeWhile isBlank) = [] :=
    steps_of_blank fun _ => List.mem_rtakeWhile_imp
  rw [← congrArg steps whole, steps_append, blank, List.append_nil]

theorem steps_front (p : Path) : steps p.front = steps p.pieces := by
  unfold front
  split
  · rename_i last
    rw [← congrArg steps (List.dropLast_append_getLast? _ last), steps_append]
    exact (List.append_nil _).symm
  · rfl
  · rename_i none _
    rw [List.getLast?_eq_none_iff.mp none]
    rfl
  · rename_i none _
    rw [List.getLast?_eq_none_iff.mp none]

/-! ### The name that a path ends in -/

/-- The pieces of a path that ends in a name: those above it, and blanks behind it. -/
structure Ends (p : Path) (above : List OsText) (name : OsText) (blanks : List OsText) : Prop where
  pieces : p.pieces = above ++ name :: blanks
  blank : ∀ piece ∈ blanks, isBlank piece
  named : isBlank name = false
  down : name ≠ ".."

variable {above blanks : List OsText}

theorem exists_ends (ends : p.fileName? = some name) : ∃ above blanks, p.Ends above name blanks := by
  have whole := List.rdropWhile_append_rtakeWhile (p := isBlank) (l := p.pieces)
  have last : p.components.getLast? = some (.name name) := by
    unfold fileName? at ends
    split at ends
    · rename_i own is
      rw [is, Option.some.inj ends]
    · exact nomatch ends
  rw [components_eq, ← steps_rdropWhile] at last
  rcases List.eq_nil_or_concat (p.pieces.rdropWhile isBlank) with empty | ⟨above, own, cut⟩
  · rw [empty] at last
    cases start : p.start <;> simp [start, Start.steps, steps] at last
  · have named : isBlank own = false := by
      have stops := List.rdropWhile_last_not isBlank p.pieces (by simp [cut])
      simpa [cut] using stops
    rw [List.concat_eq_append] at cut
    rw [cut, steps_append, ← List.append_assoc] at last
    by_cases down : own = ".."
    · simp [down, steps, isBlank] at last
    · rw [steps_singleton named down, List.getLast?_concat] at last
      obtain rfl := Component.name.inj (Option.some.inj last)
      refine ⟨above, p.pieces.rtakeWhile isBlank, ?_, fun _ => List.mem_rtakeWhile_imp, named, down⟩
      rw [← List.singleton_append, ← List.append_assoc, ← cut, whole]

namespace Ends

variable (ends : p.Ends above name blanks)
include ends

theorem components : p.components = (p.start.steps ++ steps above) ++ [.name name] := by
  rw [components_eq, ends.pieces, ← List.singleton_append, steps_append, steps_append,
    steps_singleton ends.named ends.down, steps_of_blank ends.blank, List.append_nil,
    List.append_assoc]

theorem fileName? : p.fileName? = some name := by
  unfold Path.fileName?
  rw [ends.components, List.getLast?_concat]

/-- The folder is said without the blanks in front of the name. -/
theorem parent? : p.parent? = some ⟨p.start, above.rdropWhile isBlank⟩ := by
  have whole : p.pieces.reverse.dropWhile isBlank = name :: above.reverse := by
    have turned : p.pieces.reverse = blanks.reverse ++ name :: above.reverse := by
      simp [ends.pieces]
    rw [turned, List.dropWhile_append_of_pos fun piece member =>
      ends.blank piece (List.mem_reverse.mp member)]
    exact List.dropWhile_cons_of_neg (by simp [ends.named])
  rw [Path.parent?, whole]
  rfl

theorem generated : p.generated = (⟨p.start, above.rdropWhile isBlank⟩ : Path).below
    [.ofText (FileName.of name).generated] := by
  rw [Path.generated, withFileName, ends.fileName?, ends.parent?]
  rfl

end Ends

/-! ### Reading back -/

/-- How the pieces of a path that was read from a text begin. -/
def Begins : Start → List OsText → Prop
  | .root, pieces => pieces ≠ []
  | .here, pieces => pieces = [] ∨ ∃ piece rest, pieces = .ofText "" :: piece :: rest
  | .bare, pieces => pieces = [.ofText ""] ∨ ∃ piece rest, pieces = piece :: rest ∧ isBlank piece = false

/-- A path as it is read from a text: each piece is a text without a slash. -/
structure IsRead (p : Path) : Prop where
  spelled : ∀ piece ∈ p.pieces, piece = .ofText piece.shown
  clear : ∀ piece ∈ p.pieces, '/' ∉ piece.shown.toList
  begins : Begins p.start p.pieces

theorem not_mem_of_mem_splitOn {s piece : List Char} (member : piece ∈ s.splitOn '/') : '/' ∉ piece := by
  induction s generalizing piece with
  | nil =>
    rw [List.splitOn_nil] at member
    obtain rfl := List.mem_singleton.mp member
    exact List.not_mem_nil
  | cons c s ih =>
    rw [List.splitOn_eq_splitOnP, List.splitOnP_cons_eq_if_modifyHead,
      ← List.splitOn_eq_splitOnP] at member
    obtain ⟨first, rest, cut⟩ := List.exists_cons_of_ne_nil (List.splitOn_ne_nil '/' s)
    rw [cut] at ih member
    split at member
    · rcases List.mem_cons.mp member with rfl | later
      · exact List.not_mem_nil
      · exact ih later
    · rename_i other
      rcases List.mem_cons.mp member with rfl | later
      · have plain : '/' ∉ first := ih List.mem_cons_self
        have apart : '/' ≠ c := fun same => other (by simp [← same])
        exact fun inside => (List.mem_cons.mp inside).elim apart plain
      · exact ih (List.mem_cons_of_mem first later)

theorem exists_of_mem_cut {s : List Char} {piece : OsText} (member : piece ∈ cut s) :
    ∃ text, piece = ⟨OsText.encode text⟩ ∧ '/' ∉ text := by
  obtain ⟨text, inside, rfl⟩ := List.mem_map.mp member
  exact ⟨text, rfl, not_mem_of_mem_splitOn inside⟩

theorem spelled_of_mem_cut {s : List Char} {piece : OsText} (member : piece ∈ cut s) :
    piece = .ofText piece.shown := by
  obtain ⟨text, rfl, -⟩ := exists_of_mem_cut member
  rw [OsText.ofText, OsText.shown_encode]

theorem clear_of_mem_cut {s : List Char} {piece : OsText} (member : piece ∈ cut s) :
    '/' ∉ piece.shown.toList := by
  obtain ⟨text, rfl, clear⟩ := exists_of_mem_cut member
  rwa [OsText.shown_encode]

theorem cut_ne_nil (s : List Char) : cut s ≠ [] := by
  simp [cut, List.splitOn_ne_nil]

theorem intercalate_shown_cut (s : List Char) :
    ['/'].intercalate ((cut s).map (·.shown.toList)) = s := by
  have same : (·.shown.toList) ∘ (fun piece => ⟨OsText.encode piece⟩ : List Char → OsText) = id :=
    funext OsText.shown_encode
  rw [cut, List.map_map, same, List.map_id, List.intercalate_splitOn]

theorem cut_intercalate {pieces : List OsText} (spelled : ∀ piece ∈ pieces, piece = .ofText piece.shown)
    (clear : ∀ piece ∈ pieces, '/' ∉ piece.shown.toList) (some : pieces ≠ []) :
    cut (['/'].intercalate (pieces.map (·.shown.toList))) = pieces := by
  rw [cut, List.splitOn_intercalate '/' _ (by simpa using some), List.map_map]
  · exact (List.map_congr_left fun piece member => (spelled piece member).symm).trans (List.map_id _)
  · intro text member
    obtain ⟨piece, inside, rfl⟩ := List.mem_map.mp member
    exact clear piece inside

theorem cut_slash (s : List Char) : cut ('/' :: s) = .ofText "" :: cut s := by
  rw [cut, List.splitOn_eq_splitOnP, List.splitOnP_cons_eq_if_modifyHead,
    if_pos (beq_self_eq_true '/'), ← List.splitOn_eq_splitOnP]
  rfl

/-- Behind the first piece there is nothing or a slash. -/
theorem exists_tail (piece : OsText) (rest : List OsText) :
    ∃ tail, ['/'].intercalate ((piece :: rest).map (·.shown.toList)) = piece.shown.toList ++ tail ∧
      (tail = [] ∨ ∃ more, tail = '/' :: more) := by
  cases rest with
  | nil => exact ⟨[], by simp, .inl rfl⟩
  | cons next rest =>
    refine ⟨'/' :: ['/'].intercalate ((next :: rest).map (·.shown.toList)), ?_, .inr ⟨_, rfl⟩⟩
    simp [List.intercalate_cons_cons]

theorem begins_cut {s : List Char} (noRoot : ∀ rest, s ≠ '/' :: rest) (noDot : s ≠ ['.'])
    (noHere : ∀ rest, s ≠ '.' :: '/' :: rest) : Begins .bare (cut s) := by
  obtain ⟨first, rest, pieces⟩ := List.exists_cons_of_ne_nil (cut_ne_nil s)
  have whole := intercalate_shown_cut s
  obtain ⟨tail, text, ends⟩ := exists_tail first rest
  rw [pieces, text] at whole
  cases blank : isBlank first with
  | false => exact .inr ⟨first, rest, pieces, blank⟩
  | true =>
    have short : first = "" ∨ first = "." := by simpa [isBlank] using blank
    rcases short with rfl | rfl <;> rcases ends with rfl | ⟨more, rfl⟩
    · exact .inl (by rw [← whole, OsText.shown_ofText]; rfl)
    · exact absurd (whole.symm.trans (by rw [OsText.shown_ofText]; rfl)) (noRoot more)
    · exact absurd (whole.symm.trans (by rw [OsText.shown_ofText]; rfl)) noDot
    · exact absurd (whole.symm.trans (by rw [OsText.shown_ofText]; rfl)) (noHere more)

theorem isRead_ofText (s : String) : (ofText s).IsRead := by
  unfold ofText ofChars
  split
  · exact ⟨fun _ => spelled_of_mem_cut, fun _ => clear_of_mem_cut, cut_ne_nil _⟩
  · exact ⟨nofun, nofun, .inl rfl⟩
  · rename_i rest _
    obtain ⟨first, others, pieces⟩ := List.exists_cons_of_ne_nil (cut_ne_nil rest)
    exact ⟨fun _ => spelled_of_mem_cut, fun _ => clear_of_mem_cut,
      .inr ⟨first, others, by rw [cut_slash, pieces]⟩⟩
  · rename_i noRoot noDot noHere
    exact ⟨fun _ => spelled_of_mem_cut, fun _ => clear_of_mem_cut, begins_cut noRoot noDot noHere⟩

theorem ofChars_bare {piece : OsText} {tail : List Char} (named : isBlank piece = false)
    (clear : '/' ∉ piece.shown.toList) :
    ofChars (piece.shown.toList ++ tail) = ⟨.bare, cut (piece.shown.toList ++ tail)⟩ := by
  obtain ⟨noText, noPoint⟩ : piece ≠ "" ∧ piece ≠ "." := by simpa [isBlank] using named
  have some : piece.shown.toList ≠ [] := fun empty =>
    noText (congrArg OsText.mk (OsText.toList_shown_eq_nil_iff.mp empty))
  have noDot : piece.shown.toList ≠ ['.'] := fun dot =>
    noPoint ((OsText.shown_eq_iff (by decide)).mp (String.toList_injective dot))
  obtain ⟨c, front, first⟩ := List.exists_cons_of_ne_nil some
  rw [first] at clear noDot ⊢
  unfold ofChars
  split
  · rename_i same
    exact absurd (List.mem_cons_self) ((List.cons.inj same).1 ▸ clear)
  · rename_i same
    obtain ⟨rfl, none⟩ := List.cons.inj same
    exact absurd (by rw [(List.append_eq_nil_iff.mp none).1]) noDot
  · rename_i same
    obtain ⟨rfl, rest⟩ := List.cons.inj same
    cases front with
    | nil => exact absurd rfl noDot
    | cons d front =>
      obtain ⟨rfl, -⟩ := List.cons.inj rest
      exact absurd (List.mem_cons_of_mem _ List.mem_cons_self) clear
  · rfl

/-- A path that was read is read back from its text. -/
theorem IsRead.ofText_text (read : p.IsRead) : ofText p.text = p := by
  obtain ⟨start, pieces⟩ := p
  obtain ⟨spelled, clear, begins⟩ := read
  have text := toList_text ⟨start, pieces⟩
  rw [ofText, text]
  cases start with
  | root =>
    have whole := cut_intercalate spelled clear begins
    simpa [Start.text, ofChars] using whole
  | here =>
    rcases begins with rfl | ⟨piece, rest, rfl⟩
    · rfl
    · have whole := cut_intercalate spelled clear (List.cons_ne_nil _ _)
      have slashed : ['/'].intercalate ((OsText.ofText "" :: piece :: rest).map (·.shown.toList)) =
          '/' :: ['/'].intercalate ((piece :: rest).map (·.shown.toList)) := by
        simp [List.intercalate_cons_cons]
      rw [slashed] at whole
      simp only [slashed]
      exact congrArg (Path.mk .here) whole
  | bare =>
    rcases begins with rfl | ⟨piece, rest, rfl, named⟩
    · rfl
    · obtain ⟨tail, first, -⟩ := exists_tail piece rest
      have whole := cut_intercalate spelled clear (List.cons_ne_nil _ _)
      have bare : Start.bare.text.toList = [] := rfl
      simp only [first] at whole ⊢
      rw [bare, List.nil_append, ofChars_bare named (clear piece List.mem_cons_self), whole]

/-! ### The counterpart -/

theorem front_trimmed (start : Start) (above : List OsText) :
    (⟨start, above.rdropWhile isBlank⟩ : Path).front =
      if above.rdropWhile isBlank = [] ∧ start = .here then [.ofText ""] else above.rdropWhile isBlank := by
  generalize trimmed : above.rdropWhile isBlank = folder
  unfold front
  split
  · rename_i last
    obtain ⟨others, rfl⟩ := List.getLast?_eq_some_iff.mp last
    have stops := List.rdropWhile_last_not isBlank above (by simp [trimmed])
    simp only [trimmed, List.getLast_concat] at stops
    exact absurd rfl stops
  · rename_i last
    rw [if_neg]
    rintro ⟨rfl, -⟩
    simp at last
  · simp_all
  · simp_all

theorem exists_cons_of_rdropWhile {first : OsText} {rest : List OsText}
    (some : (first :: rest).rdropWhile isBlank ≠ []) :
    ∃ more, (first :: rest).rdropWhile isBlank = first :: more := by
  obtain ⟨behind, whole⟩ := List.rdropWhile_prefix isBlank (l := first :: rest)
  obtain ⟨own, more, cut⟩ := List.exists_cons_of_ne_nil some
  rw [cut] at whole
  exact ⟨more, by rw [cut, (List.cons.inj whole).1]⟩

/-- A name in place of the last one leaves the beginning of a path as it is. -/
theorem begins_trimmed {start : Start} (begins : Begins start (above ++ name :: blanks))
    {other : OsText} (named : isBlank other = false) :
    Begins start ((⟨start, above.rdropWhile isBlank⟩ : Path).front ++ [other]) := by
  rw [front_trimmed]
  cases start with
  | root => simp [Begins]
  | here =>
    refine .inr ?_
    cases above with
    | nil => exact ⟨other, [], by simp⟩
    | cons first rest =>
      obtain ⟨piece, more, pieces⟩ := begins.resolve_left (List.cons_ne_nil _ _)
      obtain ⟨rfl, -⟩ := List.cons.inj pieces
      by_cases empty : (.ofText "" :: rest).rdropWhile isBlank = []
      · exact ⟨other, [], by simp [empty]⟩
      · obtain ⟨folder, cut⟩ := exists_cons_of_rdropWhile empty
        rw [if_neg fun both => empty both.1, cut]
        cases folder with
        | nil =>
          have stops := List.rdropWhile_last_not isBlank _ empty
          simp [cut, isBlank] at stops
        | cons next folder => exact ⟨next, folder ++ [other], rfl⟩
  | bare =>
    refine .inr ?_
    rw [if_neg (by simp)]
    cases above with
    | nil => exact ⟨other, [], rfl, named⟩
    | cons first rest =>
      rcases begins with single | ⟨piece, more, pieces, nonBlank⟩
      · simp at single
      · obtain ⟨rfl, -⟩ := List.cons.inj pieces
        have some : (first :: rest).rdropWhile isBlank ≠ [] := by
          rw [Ne, List.rdropWhile_eq_nil_iff]
          intro blank
          exact Bool.false_ne_true (nonBlank ▸ blank first List.mem_cons_self)
        obtain ⟨folder, cut⟩ := exists_cons_of_rdropWhile some
        exact ⟨first, folder ++ [other], by rw [cut]; rfl, nonBlank⟩

namespace Ends

variable (ends : p.Ends above name blanks)
include ends

theorem isName (read : p.IsRead) : IsName name := by
  obtain ⟨some, noDot⟩ : name ≠ "" ∧ name ≠ "." := by simpa [isBlank] using ends.named
  refine ⟨some, noDot, ends.down, ?_⟩
  rw [slash_mem_iff]
  exact read.clear name (by simp [ends.pieces])

theorem generated_eq : p.generated = ⟨p.start, (⟨p.start, above.rdropWhile isBlank⟩ : Path).front ++
    [.ofText (FileName.of name).generated]⟩ := by
  rw [ends.generated, below_eq]

theorem isRead_generated (read : p.IsRead) (isName : IsName (FileName.of name).generated) :
    p.generated.IsRead := by
  rw [ends.generated_eq]
  have begins := read.begins
  rw [ends.pieces] at begins
  have each : ∀ piece ∈ (⟨p.start, above.rdropWhile isBlank⟩ : Path).front ++
      [.ofText (FileName.of name).generated], piece = .ofText piece.shown ∧ '/' ∉ piece.shown.toList := by
    intro piece member
    rcases List.mem_append.mp member with before | last
    · rw [front_trimmed] at before
      split at before
      · obtain rfl := List.mem_singleton.mp before
        simp
      · have inside : piece ∈ p.pieces := by
          rw [ends.pieces]
          exact List.mem_append_left _ ((List.rdropWhile_prefix isBlank _).subset before)
        exact ⟨read.spelled piece inside, read.clear piece inside⟩
    · obtain rfl := List.mem_singleton.mp last
      rw [OsText.shown_ofText]
      exact ⟨rfl, fun slash => isName.2.2.2 (slash_mem_iff.mpr (by rwa [OsText.shown_ofText]))⟩
  exact ⟨fun piece member => (each piece member).1, fun piece member => (each piece member).2,
    begins_trimmed begins isName.not_isBlank⟩

/-- The counterpart ends in the generated name, behind the same steps. -/
theorem ends_generated (isName : IsName (FileName.of name).generated) :
    p.generated.Ends (⟨p.start, above.rdropWhile isBlank⟩ : Path).front
      (FileName.of name).generated [] where
  pieces := by rw [ends.generated_eq]
  blank := nofun
  named := isName.not_isBlank
  down := isName.2.2.1

theorem components_generated (isName : IsName (FileName.of name).generated) :
    p.generated.components =
      (p.start.steps ++ steps above) ++ [.name (FileName.of name).generated] := by
  have start : p.generated.start = p.start := by rw [ends.generated_eq]
  rw [(ends.ends_generated isName).components, start, steps_front, steps_rdropWhile]

theorem parent?_generated (isName : IsName (FileName.of name).generated) :
    p.generated.parent? = p.parent? := by
  have start : p.generated.start = p.start := by rw [ends.generated_eq]
  rw [(ends.ends_generated isName).parent?, start, ends.parent?, front_trimmed]
  split
  · rename_i empty
    rw [empty.1]
    rfl
  · rw [List.rdropWhile_idempotent]

end Ends

/-! ### Distinct files -/

/-- A path that ends in a name with an extension. The name is a text. -/
structure IsFile (p : Path) (above : List OsText) (name : OsText) (blanks : List OsText)
    (extension : OsText) : Prop where
  ends : p.Ends above name blanks
  spelled : name = .ofText name.shown
  extension? : (FileName.of name).extension? = some extension
  generated : IsName (FileName.of name).generated

theorem exists_isFile {extension : OsText} (read : p.IsRead) (has : p.extension? = some extension) :
    ∃ above name blanks, p.IsFile above name blanks extension := by
  obtain ⟨name, last, extension?⟩ := Option.bind_eq_some_iff.mp has
  obtain ⟨above, blanks, ends⟩ := exists_ends last
  exact ⟨above, name, blanks, ends, read.spelled name (by simp [ends.pieces]), extension?,
    (ends.isName read).generated extension?⟩

theorem IsFile.extension?_generated {extension : OsText} (file : p.IsFile above name blanks extension) :
    (FileName.of (FileName.of name).generated).extension? = some extension := by
  have shown := FileName.of_shown file.extension?
  rw [← file.spelled] at shown
  rw [FileName.of_generated file.extension?, ← file.extension?, shown]

theorem IsFile.eq_of_generated {aboveP aboveQ blanksP blanksQ : List OsText} {nameP nameQ : OsText}
    {extensionP extensionQ : OsText} (pFile : p.IsFile aboveP nameP blanksP extensionP)
    (qFile : q.IsFile aboveQ nameQ blanksQ extensionQ)
    (same : p.generated.components = q.generated.components) : p.components = q.components := by
  rw [pFile.ends.components_generated pFile.generated,
    qFile.ends.components_generated qFile.generated] at same
  obtain ⟨folders, names⟩ := List.append_inj' same rfl
  have texts := OsText.ofText_injective (Component.name.inj (List.cons.inj names).1)
  rw [FileName.generated_eq_iff pFile.extension? qFile.extension?] at texts
  have name : nameP = nameQ := by rw [pFile.spelled, qFile.spelled, texts]
  rw [pFile.ends.components, qFile.ends.components, folders, name]

/-- The counterpart of a file whose name has an extension is read back as it is, stands in the same folder,
has the same extension and the mark of a generated file. Another file has another counterpart. -/
theorem generated_unambiguous {a : String} {extension : OsText}
    (has : (ofText a).extension? = some extension) :
    ofText (ofText a).generated.text = (ofText a).generated ∧
    (∃ folder, (ofText a).parent? = some folder ∧ (ofText a).generated.parent? = some folder) ∧
    (ofText a).generated.extension? = some extension ∧
    (ofText a).generated.isGenerated ∧
    ∀ b : String, (ofText b).extension?.isSome → (ofText a).components ≠ (ofText b).components →
      (ofText a).generated.components ≠ (ofText b).generated.components := by
  have read := isRead_ofText a
  obtain ⟨above, name, blanks, file⟩ := exists_isFile read has
  have last := (file.ends.ends_generated file.generated).fileName?
  refine ⟨(file.ends.isRead_generated read file.generated).ofText_text,
    ⟨_, file.ends.parent?, (file.ends.parent?_generated file.generated).trans file.ends.parent?⟩,
    ?_, ?_, ?_⟩
  · rw [extension?, last, Option.bind_some, file.extension?_generated]
  · rw [isGenerated, last]
    exact FileName.isGenerated_of_generated file.extension?
  · intro b bHas apart same
    obtain ⟨bExtension, bHas⟩ := Option.isSome_iff_exists.mp bHas
    obtain ⟨_, _, _, bFile⟩ := exists_isFile (isRead_ofText b) bHas
    exact apart (file.eq_of_generated bFile same)

/-- One is spelled with a step up, blanks and a mark in its name; the other lacks the mark. -/
theorem generated_unambiguous_dottedNames :
    (ofText "../game//.enemy.generated.h/.").extension? = some "h" ∧
    (ofText "../game/.enemy.h").extension?.isSome ∧
    (ofText "../game//.enemy.generated.h/.").components ≠ (ofText "../game/.enemy.h").components ∧
    (ofText "../game//.enemy.generated.h/.").generated.text = "../game/.enemy.generated.generated.h" ∧
    (ofText "../game//.enemy.generated.h/.").generated.isGenerated ∧
    (ofText "../game//.enemy.generated.h/.").generated.components ≠
      (ofText "../game/.enemy.h").generated.components := by
  have has : (ofText "../game//.enemy.generated.h/.").extension? = some (.ofText "h") := by
    decide +kernel
  have other : (ofText "../game/.enemy.h").extension?.isSome := by decide +kernel
  have apart : (ofText "../game//.enemy.generated.h/.").components ≠
      (ofText "../game/.enemy.h").components := by decide +kernel
  obtain ⟨-, -, -, isGenerated, distinct⟩ := generated_unambiguous has
  exact ⟨has, other, apart, by decide +kernel, isGenerated, distinct _ other apart⟩

end ScriptGlue.Path
