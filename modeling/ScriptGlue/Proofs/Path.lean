import ScriptGlue.Path
import ScriptGlue.Proofs.FileName
import Mathlib.Logic.Relation

/-!
# Paths of generated files

The file that is generated for another stands in the same folder. Of two files it is the same one just
where they stand in one folder and their names are shown alike (`generated_ofNames_eq_iff`).
-/

namespace ScriptGlue.Path

/-! ### Spellings -/

/-- A path that is a text is shown as that. -/
theorem text_ofText (s : String) : (ofText s).text = s := by
  rw [text, raw_ofText, OsText.shown_ofText]

theorem ascii_slash : '/'.toNat < 128 := by decide

theorem slash_mem_iff {piece : OsText} : slash ∈ piece.bytes ↔ '/' ∈ piece.shown.toList :=
  (OsText.mem_shown_iff ascii_slash).symm

theorem toList_text (p : Path) : p.text.toList =
    p.start.text.toList ++ ['/'].intercalate (p.pieces.map (·.shown.toList)) := by
  have pieces (pieces : List OsText) : (OsText.shown ⟨[slash].intercalate (pieces.map (·.bytes))⟩).toList =
      ['/'].intercalate (pieces.map (·.shown.toList)) := by
    induction pieces with
    | nil => exact OsText.toList_shown_eq_nil_iff.mpr rfl
    | cons piece pieces ih =>
      cases pieces with
      | nil => simp
      | cons next pieces =>
        simp only [List.map_cons, List.intercalate_cons_cons] at ih ⊢
        rw [List.append_assoc, List.append_assoc, List.singleton_append, List.singleton_append, ← ih]
        exact OsText.toList_shown_append ascii_slash _ _
  rw [text, raw, OsText.toList_shown_encode, pieces]

theorem text_ofNames_singleton (name : OsText) : (ofNames [name]).text = name.shown := by
  apply String.toList_injective
  simp [toList_text, ofNames, Start.text]

/-! ### Paths made of names -/

/-- A name that an entry of a folder can have: one step of a path, and a step down. -/
def IsName (name : OsText) : Prop :=
  name ≠ "" ∧ name ≠ "." ∧ name ≠ ".." ∧ slash ∉ name.bytes

instance (name : OsText) : Decidable (IsName name) := inferInstanceAs (Decidable (_ ∧ _))

/-- A text that is a name is one step of a path. -/
theorem ofText_of_isName {text : String} (isName : IsName text) : ofText text = ofNames [.ofText text] := by
  have single : '/' ∉ text.toList := by
    have slash := isName.2.2.2
    rwa [slash_mem_iff, OsText.shown_ofText] at slash
  have whole : cut text.toList = [.ofText text] := by
    have alone : (['/'].intercalate [text.toList]).splitOn '/' = [text.toList] :=
      List.splitOn_intercalate '/' (by simpa using single) (by simp)
    rw [List.intercalate_singleton] at alone
    rw [cut, alone]
    rfl
  unfold ofText ofChars
  split
  · rename_i starts
    exact absurd (starts ▸ List.mem_cons_self) single
  · rename_i dot
    exact absurd (congrArg OsText.ofText (String.toList_injective (dot.trans (by decide : _ = ".".toList))))
      isName.2.1
  · rename_i starts
    exact absurd (starts ▸ List.mem_cons_of_mem _ List.mem_cons_self) single
  · rw [whole]
    rfl

theorem IsName.not_isBlank {name : OsText} (isName : IsName name) : isBlank name = false := by
  obtain ⟨some, noDot, -⟩ := isName
  simp [isBlank, some, noDot]

theorem dropWhile_isBlank {names : List OsText} (areNames : ∀ name ∈ names, IsName name) :
    names.dropWhile isBlank = names := by
  cases names with
  | nil => rfl
  | cons name names =>
    exact List.dropWhile_cons_of_neg (by simp [(areNames name List.mem_cons_self).not_isBlank])

variable {route : List OsText} {name : OsText}

theorem fileName?_ofNames (areNames : ∀ n ∈ route ++ [name], IsName n) :
    (ofNames (route ++ [name])).fileName? = some name := by
  have last : IsName name := areNames name (by simp)
  simp [fileName?, components, ofNames, last.not_isBlank, last.2.2.1]

theorem parent?_ofNames (areNames : ∀ n ∈ route ++ [name], IsName n) :
    (ofNames (route ++ [name])).parent? = some (ofNames route) := by
  obtain ⟨above, last⟩ := List.forall_mem_append.mp areNames
  have steps : (route ++ [name]).reverse.dropWhile isBlank = name :: route.reverse := by
    rw [List.reverse_concat]
    exact List.dropWhile_cons_of_neg (by simp [(last name (by simp)).not_isBlank])
  have rest : route.reverse.dropWhile isBlank = route.reverse :=
    dropWhile_isBlank fun n member => above n (List.mem_reverse.mp member)
  simp only [parent?, ofNames, steps, rest, List.reverse_reverse]

theorem below_ofNames (areNames : ∀ n ∈ route, IsName n) (names : List OsText) :
    (ofNames route).below names = ofNames (route ++ names) := by
  unfold below ofNames
  split
  · rename_i last
    exact absurd rfl (areNames "" (List.mem_of_getLast? last)).1
  · rfl
  · rename_i start
    exact nomatch start
  · rename_i none _
    obtain rfl := List.getLast?_eq_none_iff.mp none
    rfl

/-- The generated file stands in the folder of the file that it is made from. -/
theorem generated_ofNames (areNames : ∀ n ∈ route ++ [name], IsName n) :
    (ofNames (route ++ [name])).generated =
      ofNames (route ++ [.ofText (FileName.of name).generated]) := by
  have above : ∀ n ∈ route, IsName n := fun n member => areNames n (List.mem_append_left _ member)
  rw [generated, withFileName, fileName?_ofNames areNames, parent?_ofNames areNames]
  exact below_ofNames above _

/-- A path of names, the last of which has an extension. -/
def IsNamed (p : Path) : Prop :=
  ∃ above name extension, p = .ofNames (above ++ [name]) ∧ (∀ n ∈ above ++ [name], IsName n) ∧
    (FileName.of name).extension? = some extension

theorem generated_ofNames_eq_iff {above other : List OsText} {name twin extension twinExtension : OsText}
    (areNames : ∀ n ∈ above ++ [name], IsName n) (ends : (FileName.of name).extension? = some extension)
    (twinNames : ∀ n ∈ other ++ [twin], IsName n)
    (twinEnds : (FileName.of twin).extension? = some twinExtension) :
    (ofNames (above ++ [name])).generated = (ofNames (other ++ [twin])).generated ↔
      above = other ∧ name.shown = twin.shown := by
  rw [generated_ofNames areNames, generated_ofNames twinNames, ← FileName.generated_eq_iff ends twinEnds]
  constructor
  · intro same
    obtain ⟨rfl, last⟩ := List.append_inj' (Path.mk.inj same).2 rfl
    exact ⟨rfl, OsText.ofText_injective (List.cons.inj last).1⟩
  · rintro ⟨rfl, same⟩
    rw [same]

/-- No name but its own is shown as a text without a replacement. -/
theorem IsNamed.mem_map_generated_iff {files : List Path} (named : ∀ p ∈ files, p.IsNamed)
    {text : String} {extension : OsText} (areNames : ∀ n ∈ route ++ [.ofText text], IsName n)
    (ends : (FileName.of text).extension? = some extension) (clear : OsText.replacement ∉ text.toList) :
    (ofNames (route ++ [.ofText text])).generated ∈ files.map generated ↔
      ofNames (route ++ [.ofText text]) ∈ files := by
  constructor
  · intro member
    obtain ⟨q, inside, same⟩ := List.mem_map.mp member
    obtain ⟨above, name, own, rfl, names, nameEnds⟩ := named q inside
    obtain ⟨rfl, shown⟩ := (generated_ofNames_eq_iff names nameEnds areNames ends).mp same
    rw [OsText.shown_ofText, OsText.shown_eq_iff clear] at shown
    exact shown ▸ inside
  · exact List.mem_map_of_mem

/-- The generated file of a path is a name alone only if the path is. -/
theorem IsNamed.of_generated_eq {p : Path} (named : p.IsNamed) {text : String}
    (same : p.generated = .ofNames [.ofText text]) :
    ∃ name extension, p = .ofNames [name] ∧ (FileName.of name).extension? = some extension ∧
      (FileName.of name).generated = text := by
  obtain ⟨above, name, extension, rfl, areNames, ends⟩ := named
  rw [generated_ofNames areNames] at same
  have whole : above ++ [.ofText (FileName.of name).generated] = [] ++ [.ofText text] :=
    (Path.mk.inj same).2
  obtain ⟨rfl, last⟩ := List.append_inj' whole rfl
  exact ⟨name, extension, rfl, ends, OsText.ofText_injective (List.cons.inj last).1⟩

theorem IsName.generated (isName : IsName name) {extension : OsText}
    (ends : (FileName.of name).extension? = some extension) :
    IsName (FileName.of name).generated := by
  have parts := FileName.toList_generated ends
  have long (short : String) (few : short.toList.length ≤ 2) :
      OsText.ofText (FileName.of name).generated ≠ short := by
    intro same
    rw [← OsText.ofText_injective same, parts] at few
    have some : 2 < FileName.mark.toList.length := by decide
    simp only [List.length_append, List.length_cons] at few
    omega
  refine ⟨long "" (by simp), long "." (by simp), long ".." (by simp), ?_⟩
  have slash : '/' ∉ name.shown.toList := fun inside => isName.2.2.2 (slash_mem_iff.mpr inside)
  have mark : '/' ∉ FileName.mark.toList := by decide
  rw [FileName.toList_shown ends] at slash
  rw [slash_mem_iff, OsText.shown_ofText, parts]
  simp_all

theorem fileName?_generated {extension : OsText} (areNames : ∀ n ∈ route ++ [name], IsName n)
    (ends : (FileName.of name).extension? = some extension) :
    (ofNames (route ++ [name])).generated.fileName? = some (.ofText (FileName.of name).generated) := by
  obtain ⟨above, last⟩ := List.forall_mem_append.mp areNames
  have isName := (last name (by simp)).generated ends
  rw [generated_ofNames areNames]
  exact fileName?_ofNames (List.forall_mem_append.mpr ⟨above, by simpa using isName⟩)

/-! ### Paths below a directory -/

/-- The folder that a path stands in, the one above that, and so on. -/
def IsBelow : Path → Path → Prop := Relation.TransGen fun p q => p.parent? = some q

def EndsInName (p : Path) : Prop := ∃ above name, p.pieces = above ++ [name] ∧ IsName name

/-- A path ends in its last piece that is not empty, and in slashes. -/
theorem pieces_of_dropWhile {p : Path} {last : OsText} {above : List OsText}
    (cut : p.pieces.reverse.dropWhile (· == ("" : OsText)) = last :: above) :
    last ≠ "" ∧ ∃ ends, p.pieces = above.reverse ++ last :: ends ∧ ∀ piece ∈ ends, piece = "" := by
  have whole := List.takeWhile_append_dropWhile (p := (· == ("" : OsText))) (l := p.pieces.reverse)
  have stop := List.head_dropWhile_not (· == ("" : OsText)) (l := p.pieces.reverse) (by rw [cut]; simp)
  rw [cut] at whole
  simp only [cut, List.head_cons] at stop
  refine ⟨by simpa using stop, (p.pieces.reverse.takeWhile (· == ("" : OsText))).reverse, ?_, ?_⟩
  · simpa using congrArg List.reverse whole.symm
  · intro piece member
    have blank := List.mem_takeWhile_imp (List.mem_reverse.mp member)
    simpa using blank

theorem parent?_of_pieces {p : Path} {above : List OsText} {name : OsText}
    (pieces : p.pieces = above ++ [name]) (isName : IsName name) :
    p.parent? = some ⟨p.start, (above.reverse.dropWhile isBlank).reverse⟩ := by
  have ends : p.pieces.reverse.dropWhile isBlank = name :: above.reverse := by
    rw [pieces, List.reverse_concat]
    exact List.dropWhile_cons_of_neg (by simp [isName.not_isBlank])
  rw [parent?, ends]

/-- What paths below a directory begin with. -/
def front (p : Path) : List OsText :=
  match p.pieces.getLast?, p.start with
  | some ⟨[]⟩, _ => p.pieces.dropLast
  | some _, _ => p.pieces
  | none, .here => [""]
  | none, _ => []

theorem below_eq (p : Path) (names : List OsText) : p.below names = ⟨p.start, p.front ++ names⟩ := by
  unfold below front
  split <;> simp_all

theorem endsInName_below (p : Path) {above : List OsText} {name : OsText} (isName : IsName name) :
    (p.below (above ++ [name])).EndsInName :=
  ⟨p.front ++ above, name, by rw [below_eq, List.append_assoc], isName⟩

end ScriptGlue.Path
