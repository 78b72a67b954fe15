import ScriptGlue.Generation
import ScriptGlue.Proofs.Disk.Standing
import ScriptGlue.Proofs.Path

/-!
# Writing files

Writing a file makes the folders above it that are missing, sets the file, and touches nothing else.
Of files written in turn, what stands at the end is the last that was written at each address.
-/

namespace ScriptGlue

namespace Disk

variable {d d' : Disk} {p : Path} {place a : Address} {name : OsText} {text : String}

/-- A change at one address. -/
structure Puts (d : Disk) (a : Address) (s : Standing) (d' : Disk) : Prop where
  grows : Grows d d'
  standing? : ∀ b, d'.standing? b = if b = a then some s else d.standing? b

theorem absent (gone : d.standing? a = none) (access : Access) : d.refusal? access a = none := by
  rw [standing?, FileTree.standing?, Option.map_eq_none_iff] at gone
  exact d.volume.absent access a gone

/-- Where all that is there stays, the same is refused. -/
theorem refusal?_setAt {entry : FileTree.Entry}
    (stays : ∀ b, d.standing? b ≠ none → (d.setAt entry a).standing? b ≠ none) (access : Access)
    (b : Address) : (d.setAt entry a).refusal? access b = d.refusal? access b := by
  have eq : (d.setAt entry a).refusal? access b =
      if ((d.setAt entry a).root.find? b).isSome then d.refusal? access b else none := rfl
  by_cases here : d.standing? b = none
  · rw [eq, absent here, ite_self]
  · have there := stays b here
    rw [standing?, FileTree.standing?, Ne, Option.map_eq_none_iff] at there
    exact if_pos (Option.isSome_iff_ne_none.mpr there)

theorem puts_setAt {entry : FileTree.Entry} (bare : entry.IsBare)
    (folder : d.standing? place = some .folder) (noFolder : d.standing? (place ++ [name]) ≠ some .folder)
    (file : ∀ content, d.standing? (place ++ [name]) = some (.file content) →
      ∃ content', entry = .file content') :
    Puts d (place ++ [name]) entry.standing (d.setAt entry (place ++ [name])) := by
  have standing (b : Address) : (d.setAt entry (place ++ [name])).standing? b =
      if b = place ++ [name] then some entry.standing else d.standing? b :=
    FileTree.standing?_setAt bare folder noFolder b
  constructor
  case standing? => exact standing
  case grows =>
    constructor
    case workingFolder => rfl
    case refusal? =>
      refine refusal?_setAt fun b here => ?_
      rw [standing]
      split
      · exact Option.some_ne_none _
      · exact here
    case folder =>
      intro b here
      refine (standing b).trans ((if_neg ?_).trans here)
      rintro rfl
      exact noFolder here
    case file =>
      intro b old here
      by_cases same : b = place ++ [name]
      · obtain ⟨content, rfl⟩ := file old (same ▸ here)
        exact ⟨content, (standing b).trans (if_pos same)⟩
      · exact ⟨old, (standing b).trans ((if_neg same).trans here)⟩
    case distinct =>
      intro distinct
      refine distinct.setAt (fun inside same => ?_) _
      subst same
      obtain rfl : inside = .empty := bare
      trivial

theorem puts_folder (folder : d.standing? place = some .folder)
    (vacant : d.standing? (place ++ [name]) = none) :
    Puts d (place ++ [name]) .folder (d.setAt (.folder .empty) (place ++ [name])) := by
  have bare : FileTree.Entry.IsBare (.folder .empty) := rfl
  exact puts_setAt bare folder (fun here => nomatch vacant.symm.trans here)
    fun _ here => nomatch vacant.symm.trans here

theorem puts_file (folder : d.standing? place = some .folder)
    (noFolder : d.standing? (place ++ [name]) ≠ some .folder) (content : ByteArray) :
    Puts d (place ++ [name]) (.file content) (d.setAt (.file content) (place ++ [name])) := by
  have bare : FileTree.Entry.IsBare (.file content) := trivial
  exact puts_setAt bare folder noFolder fun _ _ => ⟨content, rfl⟩

/-! ### One file -/

theorem exists_of_holder (held : d.holder p = .ok (place, some name)) :
    ∃ start above ends, d.base p = .ok start ∧ p.pieces = above ++ name :: ends ∧
      (∀ piece ∈ ends, piece = "") ∧ above.foldlM d.step start = .ok place ∧
      d.standing? place = some .folder ∧ d.refusal? .search place = none ∧ name ≠ "" ∧ name ≠ "." ∧ name ≠ ".." ∧
      name.size ≤ longestName := by
  unfold holder at held
  obtain ⟨start, based, held⟩ := bind_eq_ok_iff.mp held
  split at held
  · exact nomatch held
  · rename_i last above cut
    obtain ⟨found, walked, held⟩ := bind_eq_ok_iff.mp held
    obtain ⟨inside, folder, held⟩ := bind_eq_ok_iff.mp held
    obtain ⟨open', held⟩ := ask_bind_eq_ok_iff.mp held
    split at held
    · exact nomatch held
    rename_i named
    split at held
    · exact nomatch held
    rename_i short
    obtain ⟨rfl, same⟩ := Prod.mk.inj (Except.ok.inj held)
    obtain rfl := Option.some.inj same
    obtain ⟨some, ends, pieces, empty⟩ := Path.pieces_of_dropWhile cut
    exact ⟨start, above.reverse, ends, based, pieces, empty, walked,
      exists_folder_iff.mp ⟨inside, folder⟩, open', some, fun same => named (.inl same),
      fun same => named (.inr same), by omega⟩

theorem walk_empties (folder : d.standing? place = some .folder) {ends : List OsText}
    (empty : ∀ piece ∈ ends, piece = "") : ends.foldlM d.step place = .ok place := by
  induction ends with
  | nil => rfl
  | cons piece ends ih =>
    obtain ⟨rfl, later⟩ := List.forall_mem_cons.mp empty
    rw [List.foldlM_cons, bind_eq_ok_iff]
    exact ⟨place, step_eq_ok_iff.mpr ⟨folder, fun some => absurd rfl some, by rfl⟩, ih later⟩

/-- A path leads to what has been put where it is to be. -/
theorem Puts.locate {s : Standing} (held : d.holder p = .ok (place, some name))
    (puts : Puts d (place ++ [name]) s d') (leaf : s = .folder ∨ p.EndsInName) :
    d'.locate p = .ok (place ++ [name]) := by
  obtain ⟨start, above, ends, based, pieces, empty, walked, folder, open', some, noDot, noUp, short⟩ :=
    exists_of_holder held
  have there : d'.standing? (place ++ [name]) = .some s := (puts.standing? _).trans (if_pos rfl)
  have down : d'.step place name = .ok (place ++ [name]) := by
    refine step_eq_ok_iff.mpr ⟨puts.grows.folder place folder,
      fun _ => (puts.grows.refusal? _ _).trans open', ?_⟩
    rw [if_neg (by simp [Path.isBlank, some, noDot]), if_neg noUp]
    exact ⟨short, by simp [there], rfl⟩
  have stays : ends.foldlM d'.step (place ++ [name]) = .ok (place ++ [name]) := by
    rcases leaf with rfl | ⟨front, last, same, isName⟩
    · exact walk_empties there empty
    · -- The path ends in the name, so there is nothing behind it.
      rcases List.eq_nil_or_concat ends with rfl | ⟨_, piece, rfl⟩
      · rfl
      · have lasts := congrArg List.getLast? (pieces.symm.trans same)
        simp only [List.getLast?_append, List.getLast?_singleton, ← List.cons_append, ← List.append_assoc,
          Option.some_or, Option.some.injEq, List.concat_eq_append] at lasts
        exact absurd (lasts.symm.trans (empty piece (by simp))) isName.1
  rw [Disk.locate, bind_eq_ok_iff]
  refine ⟨start, (puts.grows.base p).trans based, ?_⟩
  rw [pieces, List.foldlM_append, bind_eq_ok_iff]
  refine ⟨place, puts.grows.walk walked, ?_⟩
  rw [List.foldlM_cons, bind_eq_ok_iff]
  exact ⟨_, down, stays⟩

theorem makeFolder_spec (made : d.makeFolder p = .ok d') :
    ∃ a, d.standing? a = none ∧ Puts d a .folder d' ∧ d'.locate p = .ok a := by
  obtain ⟨⟨place, name?⟩, held, made⟩ := bind_eq_ok_iff.mp made
  cases name? with
  | none => exact nomatch made
  | some name =>
    dsimp only at made
    split at made
    · exact nomatch made
    rename_i gone
    obtain ⟨-, made⟩ := ask_bind_eq_ok_iff.mp made
    obtain rfl := Except.ok.inj made
    obtain ⟨-, -, -, -, -, -, -, folder, -⟩ := exists_of_holder held
    have vacant : d.standing? (place ++ [name]) = none := by
      rw [standing?, FileTree.standing?, Option.map_eq_none_iff]
      simpa using gone
    have puts := puts_folder folder vacant
    exact ⟨_, vacant, puts, puts.locate held (.inl rfl)⟩

theorem writeText_spec (leaf : p.EndsInName) (written : d.writeText p text = .ok d') :
    ∃ a, d.refusal? .write a = none ∧ Puts d a (.file text.toUTF8) d' ∧ d'.locate p = .ok a := by
  obtain ⟨⟨place, name?⟩, held, written⟩ := bind_eq_ok_iff.mp written
  cases name? with
  | none => exact nomatch written
  | some name =>
    obtain ⟨-, -, -, -, -, -, -, folder, -⟩ := exists_of_holder held
    have set (noFolder : d.standing? (place ++ [name]) ≠ some .folder)
        (open' : d.refusal? .write (place ++ [name]) = none)
        (same : d.setAt (.file text.toUTF8) (place ++ [name]) = d') :
        ∃ a, d.refusal? .write a = none ∧ Puts d a (.file text.toUTF8) d' ∧ d'.locate p = .ok a := by
      subst same
      have puts := puts_file folder noFolder text.toUTF8
      exact ⟨_, open', puts, puts.locate held (.inr leaf)⟩
    dsimp only at written
    split at written
    · exact nomatch written
    · rename_i content found
      obtain ⟨open', written⟩ := ask_bind_eq_ok_iff.mp written
      refine set ?_ open' (Except.ok.inj written)
      simp [standing?, FileTree.standing?, found, FileTree.Entry.standing]
    · rename_i found
      obtain ⟨-, written⟩ := ask_bind_eq_ok_iff.mp written
      have gone : d.standing? (place ++ [name]) = none := by simp [standing?, FileTree.standing?, found]
      exact set (by simp [gone]) (absent gone .write) (Except.ok.inj written)

/-! ### Folders -/

/-- Nothing but folders on a way is new. -/
structure Opens (way : Path → Prop) (d d' : Disk) : Prop where
  grows : Grows d d'
  others : ∀ b, d'.standing? b = d.standing? b ∨
    d.standing? b = none ∧ d'.standing? b = some .folder ∧ ∃ q, way q ∧ d'.locate q = .ok b

namespace Opens

variable {way : Path → Prop}

theorem refl (d : Disk) : Opens way d d := ⟨.refl d, fun _ => .inl rfl⟩

theorem trans {d'' : Disk} (first : Opens way d d') (second : Opens way d' d'') : Opens way d d'' where
  grows := first.grows.trans second.grows
  others b := by
    rcases second.others b with same | ⟨absent, folder, q, on, there⟩
    · rcases first.others b with same' | ⟨absent, folder, q, on, there⟩
      · exact .inl (same.trans same')
      · exact .inr ⟨absent, same.trans folder, q, on, second.grows.locate there⟩
    · rcases first.others b with same' | ⟨-, folder', -⟩
      · exact .inr ⟨same' ▸ absent, folder, q, on, there⟩
      · exact nomatch absent.symm.trans folder'

theorem imp {wider : Path → Prop} (opens : Opens way d d') (on : ∀ q, way q → wider q) :
    Opens wider d d' where
  grows := opens.grows
  others b := (opens.others b).imp_right fun ⟨absent, folder, q, here, there⟩ =>
    ⟨absent, folder, q, on q here, there⟩

end Opens

theorem opens_makeFolder (made : d.makeFolder p = .ok d') : Opens (· = p) d d' := by
  obtain ⟨a, vacant, puts, there⟩ := makeFolder_spec made
  refine ⟨puts.grows, fun b => ?_⟩
  rw [puts.standing?]
  split
  · rename_i same
    exact .inr ⟨same ▸ vacant, rfl, p, rfl, same ▸ there⟩
  · exact .inl rfl

theorem opens_makeFolders (made : d.makeFolders p = .ok d') :
    Opens (fun q => q = p ∨ p.IsBelow q) d d' := by
  fun_induction makeFolders d p generalizing d' with
  | case1 p none =>
    obtain rfl := Except.ok.inj made
    exact .refl d
  | case2 p some d₁ here =>
    obtain rfl := Except.ok.inj made
    exact (opens_makeFolder here).imp fun _ => .inl
  | case5 p some missing above up d₁ below d₂ here ih =>
    obtain rfl := Except.ok.inj made
    have first : Opens (fun q => q = p ∨ p.IsBelow q) d d₁ := by
      refine (ih below).imp ?_
      rintro q (rfl | further)
      · exact .inr (.single up)
      · exact .inr (.head up further)
    exact first.trans ((opens_makeFolder here).imp fun _ => .inl)
  | case6 p some missing above up d₁ below e failed there ih =>
    obtain rfl := Except.ok.inj made
    refine (ih below).imp ?_
    rintro q (rfl | further)
    · exact .inr (.single up)
    · exact .inr (.head up further)
  | case8 p some e other failed there =>
    obtain rfl := Except.ok.inj made
    exact .refl d
  | _ => exact nomatch made

/-! ### Paths below a directory -/

/-- The folder that a path starts from. -/
def start (d : Disk) (p : Path) : Address := if p.start = .root then [] else d.workingFolder

theorem eq_start_of_origin (begun : d.origin p = .ok a) : a = d.start p := by
  unfold origin at begun
  split at begun
  · exact nomatch begun
  · split at begun
    · exact nomatch begun
    · exact (Except.ok.inj begun).symm

theorem eq_start_of_base (based : d.base p = .ok a) : a = d.start p := by
  obtain ⟨start, begun, reach⟩ := bind_eq_ok_iff.mp based
  split at reach
  · obtain rfl := pure_eq_ok_iff.mp reach
    exact eq_start_of_origin begun
  · exact nomatch reach

variable {names others : List OsText}

/-- Names lead down, each to an entry of the folder before. -/
theorem eq_append_of_walk (areNames : ∀ n ∈ names, Path.IsName n)
    (walked : names.foldlM d.step place = .ok a) : a = place ++ names := by
  induction names generalizing place with
  | nil =>
    obtain rfl := pure_eq_ok_iff.mp walked
    exact (List.append_nil _).symm
  | cons name names ih =>
    obtain ⟨isName, later⟩ := List.forall_mem_cons.mp areNames
    rw [List.foldlM_cons] at walked
    obtain ⟨next, one, rest⟩ := bind_eq_ok_iff.mp walked
    obtain ⟨-, -, way⟩ := step_eq_ok_iff.mp one
    rw [if_neg (by simp [isName.not_isBlank]), if_neg isName.2.2.1] at way
    rw [ih later rest, way.2.2, List.append_assoc]
    rfl

theorem exists_front_of_locate (areNames : ∀ n ∈ names, Path.IsName n)
    (there : d.locate (p.below names) = .ok a) :
    ∃ place, p.front.foldlM d.step (d.start p) = .ok place ∧ a = place ++ names := by
  rw [Path.below_eq] at there
  obtain ⟨begun, based, walked⟩ := bind_eq_ok_iff.mp there
  obtain rfl := eq_start_of_base based
  rw [List.foldlM_append] at walked
  obtain ⟨place, front, rest⟩ := bind_eq_ok_iff.mp walked
  exact ⟨place, front, eq_append_of_walk areNames rest⟩

/-- Different names below one directory lead to different addresses. -/
theorem eq_of_locate_below (areNames : ∀ n ∈ names, Path.IsName n)
    (otherNames : ∀ n ∈ others, Path.IsName n) (one : d.locate (p.below names) = .ok a)
    (other : d.locate (p.below others) = .ok a) : names = others := by
  obtain ⟨place, front, rfl⟩ := exists_front_of_locate areNames one
  obtain ⟨place', front', same⟩ := exists_front_of_locate otherNames other
  obtain rfl := Except.ok.inj (front.symm.trans front')
  exact List.append_cancel_left same

end Disk

namespace Generation
open Disk

variable {d d' : Disk} {file : Path} {text : String}

theorem writeFile_spec (leaf : file.EndsInName) (written : writeFile d file text = .ok d') :
    ∃ d₁ a, Opens file.IsBelow d d₁ ∧ d₁.refusal? .write a = none ∧ Puts d₁ a (.file text.toUTF8) d' ∧
      d'.locate file = .ok a := by
  obtain ⟨above, name, pieces, isName⟩ := leaf
  have up := Path.parent?_of_pieces pieces isName
  unfold writeFile at written
  rw [up] at written
  obtain ⟨d₁, made, written⟩ := bind_eq_ok_iff.mp written
  have opens := opens_makeFolders (mapError_eq_ok_iff.mp made)
  obtain ⟨a, open', puts, there⟩ := writeText_spec ⟨above, name, pieces, isName⟩
    (mapError_eq_ok_iff.mp written)
  refine ⟨d₁, a, opens.imp ?_, open', puts, there⟩
  rintro q (rfl | further)
  · exact .single up
  · exact .head up further

/-! ### Many files -/

/-- What writing files below a directory does to a disk. -/
structure Writes (output : Path) (files : List (Path × String)) (d d' : Disk) : Prop where
  grows : Grows d d'
  placed : ∀ f ∈ files, ∃ a content, d'.locate (output.below f.1.pieces) = .ok a ∧
    d'.refusal? .write a = none ∧ d'.standing? a = some (.file content)
  /-- Where no file is written nothing changes, but that a folder above one is made. -/
  others : ∀ b, (∀ f ∈ files, d'.locate (output.below f.1.pieces) ≠ .ok b) →
    d'.standing? b = d.standing? b ∨ d.standing? b = none ∧ d'.standing? b = some .folder ∧
      ∃ f ∈ files, ∃ q, (output.below f.1.pieces).IsBelow q ∧ d'.locate q = .ok b
  /-- Of the files written at one address, the last is there. -/
  last : ∀ front f back, files = front ++ f :: back → ∀ a,
    d'.locate (output.below f.1.pieces) = .ok a →
    (∀ g ∈ back, d'.locate (output.below g.1.pieces) ≠ .ok a) →
    d'.standing? a = some (.file f.2.toUTF8)

variable {output : Path} {files : List (Path × String)}

theorem write_spec (leaves : ∀ f ∈ files, (output.below f.1.pieces).EndsInName)
    (written : write output d files = .ok d') : Writes output files d d' := by
  induction files generalizing d with
  | nil =>
    obtain rfl := Except.ok.inj written
    exact ⟨.refl d, nofun, fun b _ => .inl rfl, fun front f back same => by simp at same⟩
  | cons f files ih =>
    rw [write, List.foldlM_cons] at written
    obtain ⟨d₂, first, rest⟩ := bind_eq_ok_iff.mp written
    obtain ⟨leaf, later⟩ := List.forall_mem_cons.mp leaves
    obtain ⟨d₁, a, opens, open', puts, there⟩ := writeFile_spec leaf first
    have then' := ih later rest
    have there' := then'.grows.locate there
    have own : d₂.standing? a = some (.file f.2.toUTF8) := (puts.standing? a).trans (if_pos rfl)
    constructor
    case grows => exact opens.grows.trans (puts.grows.trans then'.grows)
    case placed =>
      intro g member
      rcases List.mem_cons.mp member with rfl | member
      · obtain ⟨content, stays⟩ := then'.grows.file a _ own
        have grows := puts.grows.trans then'.grows
        exact ⟨a, content, there', (grows.refusal? _ _).trans open', stays⟩
      · exact then'.placed g member
    case others =>
      intro b unwritten
      obtain ⟨apart, unwritten⟩ := List.forall_mem_cons.mp unwritten
      have differ : b ≠ a := by
        rintro rfl
        exact apart there'
      have one : d₂.standing? b = d₁.standing? b := (puts.standing? b).trans (if_neg differ)
      rcases then'.others b unwritten with same | ⟨absent, folder, g, member, q, on, way⟩
      · rcases opens.others b with same' | ⟨absent, folder, q, on, way⟩
        · exact .inl (same.trans (one.trans same'))
        · exact .inr ⟨absent, same.trans (one.trans folder), f, List.mem_cons_self, q, on,
            then'.grows.locate (puts.grows.locate way)⟩
      · rcases opens.others b with same' | ⟨-, folder', -⟩
        · exact .inr ⟨(one.trans same').symm.trans absent, folder, g, List.mem_cons_of_mem f member, q, on, way⟩
        · exact nomatch absent.symm.trans (one.trans folder')
    case last =>
      intro front g back same b way apart
      cases front with
      | nil =>
        obtain ⟨rfl, rfl⟩ := List.cons.inj same
        obtain rfl : a = b := Except.ok.inj (there'.symm.trans way)
        rcases then'.others a apart with same | ⟨absent, -⟩
        · exact same.trans own
        · exact nomatch absent.symm.trans own
      | cons h front => exact then'.last front g back (List.cons.inj same).2 b way apart

end Generation

end ScriptGlue
