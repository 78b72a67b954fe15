import ScriptGlue.Proofs.Disk.Standing
import ScriptGlue.Proofs.Path
import ScriptGlue.SourceTree
import Mathlib.Data.List.Nodup

/-!
# What a walk finds

A walk asks for every folder that it enters and for every entry of it (`asked`). If nothing of that is
refused, it has found what is there to be listed (`walk_stopsAt`, `eq_listed_of_walk`). In a tree as file
systems have them that is each file once, called by the names on the way to it (`nodup_collect`,
`named_of_mem_collect`).
-/

namespace ScriptGlue

namespace FileTree

/-- A tree as a file system has it: no folder has two entries of one name, and each is a name that an
entry can have. -/
def Proper : FileTree → Prop
  | empty => True
  | file name _ others => Path.IsName name ∧ others.get? name = none ∧ others.Proper
  | folder name inside others =>
    Path.IsName name ∧ others.get? name = none ∧ inside.Proper ∧ others.Proper

instance decidableProper : (t : FileTree) → Decidable t.Proper
  | empty => isTrue trivial
  | file _ _ others =>
    have := decidableProper others
    inferInstanceAs (Decidable (_ ∧ _ ∧ _))
  | folder _ inside others =>
    have := decidableProper inside
    have := decidableProper others
    inferInstanceAs (Decidable (_ ∧ _ ∧ _ ∧ _))

theorem Proper.distinct {t : FileTree} (proper : t.Proper) : t.Distinct := by
  induction t with
  | empty => trivial
  | file name content others ih => exact ⟨proper.2.1, ih proper.2.2⟩
  | folder name inside others ihInside ih =>
    exact ⟨proper.2.1, ihInside proper.2.2.1, ih proper.2.2.2⟩

theorem Proper.of_get? {t inside : FileTree} {name : OsText} (proper : t.Proper)
    (entry : t.get? name = some (.folder inside)) : inside.Proper := by
  induction t with
  | empty => cases entry
  | file n content others ih =>
    obtain ⟨-, -, later⟩ := proper
    rw [get?] at entry
    split at entry
    · cases entry
    · exact ih later entry
  | folder n own others _ ih =>
    obtain ⟨-, -, properOwn, later⟩ := proper
    rw [get?] at entry
    split at entry
    · obtain rfl := Entry.folder.inj (Option.some.inj entry)
      exact properOwn
    · exact ih later entry

theorem Proper.of_find? {t inside : FileTree} {address : Address} (proper : t.Proper)
    (entry : t.find? address = some (.folder inside)) : inside.Proper := by
  induction address generalizing t with
  | nil =>
    obtain rfl := Entry.folder.inj (Option.some.inj entry)
    exact proper
  | cons name rest ih =>
    rw [find?] at entry
    split at entry
    · rename_i below here
      exact ih (proper.of_get? here) entry
    · split at entry
      · cases entry
      · cases entry
    · cases entry

theorem get?_file_ne_none {others : FileTree} {n name : OsText} {content : ByteArray}
    (here : others.get? name ≠ none) : (file n content others).get? name ≠ none := by
  rw [get?]
  split
  · simp
  · exact here

theorem get?_folder_ne_none {inside others : FileTree} {n name : OsText}
    (here : others.get? name ≠ none) : (folder n inside others).get? name ≠ none := by
  rw [get?]
  split
  · simp
  · exact here

theorem Proper.isName {t : FileTree} (proper : t.Proper) {name : OsText}
    (here : t.get? name ≠ none) : Path.IsName name := by
  induction t with
  | empty => exact absurd rfl here
  | file n content others ih =>
    rw [get?] at here
    split at here
    · rename_i same
      exact same ▸ proper.1
    · exact ih proper.2.2 here
  | folder n own others _ ih =>
    rw [get?] at here
    split at here
    · rename_i same
      exact same ▸ proper.1
    · exact ih proper.2.2.2 here

theorem Proper.areNames {t : FileTree} (proper : t.Proper) {address : Address}
    (here : t.standing? address ≠ none) : ∀ n ∈ address, Path.IsName n := by
  induction address generalizing t with
  | nil => exact nofun
  | cons name rest ih =>
    have own : t.get? name ≠ none := by
      intro absent
      rw [standing?_cons, absent] at here
      exact here rfl
    refine List.forall_mem_cons.mpr ⟨proper.isName own, ?_⟩
    by_cases last : rest = []
    · exact last ▸ nofun
    · obtain ⟨standing, found⟩ := Option.ne_none_iff_exists'.mp here
      obtain ⟨inside, entry, below⟩ := exists_folder_of_standing? last found
      exact ih (proper.of_get? entry) (by simp [below])

end FileTree

namespace SourceTree

variable {d : Disk} {c : Configuration} {skip : Option Address} {root : Path} {place route : Address}
  {t : FileTree} {found : Address × Kind}

/-! ### The walk -/

/-- What a walk lists where nothing is refused. -/
def listed (d : Disk) (c : Configuration) (skip : Option Address) (root : Path) (route : Address) :
    FileTree → List (Address × Kind)
  | .empty => []
  | .file name _ others => asFile c route name ++ listed d c skip root route others
  | .folder name inside others =>
    let path := root.below (route ++ [name])
    (if !d.isFolder path then asFile c route name
      else if isEntered d c skip path name then listed d c skip root (route ++ [name]) inside
      else []) ++ listed d c skip root route others

/-- What a walk asks for, by the names from the root. -/
def asked (d : Disk) (c : Configuration) (skip : Option Address) (root : Path) (route : Address) :
    FileTree → List (Access × Address)
  | .empty => []
  | .file name _ others => (.entry, route ++ [name]) :: asked d c skip root route others
  | .folder name inside others =>
    let path := root.below (route ++ [name])
    (.entry, route ++ [name]) ::
      ((if d.isFolder path && isEntered d c skip path name then
          (.list, route ++ [name]) :: asked d c skip root (route ++ [name]) inside
        else []) ++ asked d c skip root route others)

/-- What is refused of what a walk asks for. -/
def refusals (d : Disk) (place : Address) (asked : List (Access × Address)) : List DiskError :=
  asked.filterMap fun q => d.refusal? q.1 (place ++ q.2)

theorem refusals_append (asked others : List (Access × Address)) :
    refusals d place (asked ++ others) = refusals d place asked ++ refusals d place others :=
  List.filterMap_append

theorem eq_listed_of_walk {all : List (Address × Kind)}
    (walked : walk d c skip root place route t = .ok all) : all = listed d c skip root route t := by
  induction t generalizing route all with
  | empty => exact (pure_eq_ok_iff.mp walked).symm
  | file name content others ih =>
    obtain ⟨-, walked⟩ := Disk.ask_bind_eq_ok_iff.mp walked
    obtain ⟨behind, walked, same⟩ := bind_eq_ok_iff.mp walked
    rw [listed, ← pure_eq_ok_iff.mp same, ih walked]
  | folder name inside others ihInside ih =>
    obtain ⟨-, walked⟩ := Disk.ask_bind_eq_ok_iff.mp walked
    obtain ⟨here, own, walked⟩ := bind_eq_ok_iff.mp walked
    obtain ⟨behind, walked, same⟩ := bind_eq_ok_iff.mp walked
    rw [listed, ← pure_eq_ok_iff.mp same, ih walked]
    refine congrArg (· ++ _) ?_
    split at own
    · rename_i far
      rw [if_pos far, pure_eq_ok_iff.mp own]
    · rename_i near
      rw [if_neg near]
      split at own
      · rename_i entered
        obtain ⟨-, own⟩ := Disk.ask_bind_eq_ok_iff.mp own
        rw [if_pos entered, ihInside own]
      · rename_i passed
        rw [if_neg passed, pure_eq_ok_iff.mp own]

theorem mem_asFile_iff {name : OsText} :
    found ∈ asFile c route name ↔ found.1 = route ++ [name] ∧ kind? c name = some found.2 := by
  obtain ⟨address, kind⟩ := found
  rw [asFile]
  cases kind? c name with
  | none => simp
  | some k => simp [eq_comm]

/-- The way to what is found begins with an entry of the tree. -/
theorem first_of_mem_listed (member : found ∈ listed d c skip root route t) :
    ∃ first rest, found.1 = route ++ first :: rest ∧ t.get? first ≠ none := by
  induction t generalizing route with
  | empty => cases member
  | file name content others ih =>
    rcases List.mem_append.mp member with here | later
    · exact ⟨name, [], (mem_asFile_iff.mp here).1, by simp [FileTree.get?]⟩
    · obtain ⟨first, rest, way, entry⟩ := ih later
      exact ⟨first, rest, way, FileTree.get?_file_ne_none entry⟩
  | folder name inside others ihInside ih =>
    rcases List.mem_append.mp member with here | later
    · have own : (FileTree.folder name inside others).get? name ≠ none := by simp [FileTree.get?]
      split at here
      · exact ⟨name, [], (mem_asFile_iff.mp here).1, own⟩
      · split at here
        · obtain ⟨first, rest, way, -⟩ := ihInside here
          exact ⟨name, first :: rest, by simp [way], own⟩
        · cases here
    · obtain ⟨first, rest, way, entry⟩ := ih later
      exact ⟨first, rest, way, FileTree.get?_folder_ne_none entry⟩

theorem named_of_mem_listed (proper : t.Proper) (member : found ∈ listed d c skip root route t) :
    ∃ above name, found.1 = route ++ (above ++ [name]) ∧
      (∀ n ∈ above ++ [name], Path.IsName n) ∧ kind? c name = some found.2 := by
  induction t generalizing route with
  | empty => exact nomatch member
  | file name content others ih =>
    obtain ⟨isName, -, later⟩ := proper
    rcases List.mem_append.mp member with here | behind
    · obtain ⟨way, kind⟩ := mem_asFile_iff.mp here
      exact ⟨[], name, way, by simpa using isName, kind⟩
    · exact ih later behind
  | folder name inside others ihInside ih =>
    obtain ⟨isName, -, properInside, later⟩ := proper
    rcases List.mem_append.mp member with here | behind
    · split at here
      · obtain ⟨way, kind⟩ := mem_asFile_iff.mp here
        exact ⟨[], name, way, by simpa using isName, kind⟩
      · split at here
        · obtain ⟨above, last, way, areNames, kind⟩ := ihInside properInside here
          exact ⟨name :: above, last, by simp [way], List.forall_mem_cons.mpr ⟨isName, areNames⟩, kind⟩
        · exact nomatch here
    · exact ih later behind

theorem nodup_asFile (name : OsText) : ((asFile c route name).map (·.1)).Nodup := by
  rw [asFile]
  cases kind? c name with
  | none => exact .nil
  | some k => exact List.nodup_singleton _

/-- What is found below an entry is not found below the others. -/
theorem disjoint_listed {name : OsText} {others : FileTree} (absent : others.get? name = none)
    {below : List (Address × Kind)} (ways : ∀ e ∈ below, ∃ rest, e.1 = route ++ name :: rest) :
    (below.map (·.1)).Disjoint ((listed d c skip root route others).map (·.1)) := by
  intro address inside behind
  obtain ⟨e, member, rfl⟩ := List.mem_map.mp inside
  obtain ⟨other, memberOther, same⟩ := List.mem_map.mp behind
  obtain ⟨rest, way⟩ := ways e member
  obtain ⟨first, more, wayOther, entry⟩ := first_of_mem_listed memberOther
  rw [way, wayOther, List.append_cancel_left_eq] at same
  obtain ⟨rfl, -⟩ := List.cons.inj same
  exact entry absent

theorem nodup_listed (distinct : t.Distinct) : ((listed d c skip root route t).map (·.1)).Nodup := by
  induction t generalizing route with
  | empty => exact .nil
  | file name content others ih =>
    obtain ⟨absent, later⟩ := distinct
    rw [listed, List.map_append]
    refine (nodup_asFile name).append (ih later) (disjoint_listed absent fun e member => ?_)
    exact ⟨[], (mem_asFile_iff.mp member).1⟩
  | folder name inside others ihInside ih =>
    obtain ⟨absent, below, later⟩ := distinct
    rw [listed, List.map_append]
    refine List.Nodup.append ?_ (ih later) (disjoint_listed absent fun e member => ?_)
    · split
      · exact nodup_asFile name
      · split
        · exact ihInside below
        · exact .nil
    · split at member
      · exact ⟨[], (mem_asFile_iff.mp member).1⟩
      · split at member
        · obtain ⟨first, rest, way, -⟩ := first_of_mem_listed member
          exact ⟨first :: rest, by simp [way]⟩
        · exact nomatch member

/-! ### The headers and sources of a folder -/

theorem sorted_perm (found : List (Address × Kind)) (kind : Kind) :
    (sorted found kind).Perm (((found.filter (·.2 = kind)).map (·.1)).map .ofNames) :=
  (List.mergeSort_perm _ _).map _

/-- What is found in order is listed as it is. -/
theorem sorted_of_pairwise {found : List (Address × Kind)} {kind : Kind}
    (ordered : ((found.filter (·.2 = kind)).map (·.1)).Pairwise fun a b => !isBefore b a) :
    sorted found kind = ((found.filter (·.2 = kind)).map (·.1)).map .ofNames :=
  congrArg (List.map Path.ofNames) (List.mergeSort_of_pairwise ordered)

theorem mem_sorted_iff {found : List (Address × Kind)} {kind : Kind} {p : Path} :
    p ∈ sorted found kind ↔ ∃ address, (address, kind) ∈ found ∧ p = .ofNames address := by
  rw [(sorted_perm found kind).mem_iff]
  constructor
  · intro member
    obtain ⟨address, inside, rfl⟩ := List.mem_map.mp member
    obtain ⟨⟨a, k⟩, kept, rfl⟩ := List.mem_map.mp inside
    obtain ⟨listed, same⟩ := List.mem_filter.mp kept
    exact ⟨a, of_decide_eq_true same ▸ listed, rfl⟩
  · rintro ⟨address, listed, rfl⟩
    have kept : (address, kind) ∈ found.filter (·.2 = kind) := by simpa using listed
    exact List.mem_map_of_mem (List.mem_map_of_mem kept)

theorem ofNames_injective : Function.Injective Path.ofNames :=
  fun _ _ same => (Path.mk.inj same).2

theorem nodup_sorted {found : List (Address × Kind)} (distinct : (found.map (·.1)).Nodup) :
    (sorted found .header ++ sorted found .source).Nodup := by
  have each (kind : Kind) : (sorted found kind).Nodup := by
    rw [(sorted_perm found kind).nodup_iff]
    exact (distinct.sublist (List.filter_sublist.map _)).map ofNames_injective
  refine (each .header).append (each .source) ?_
  intro p isHeader isSource
  obtain ⟨address, header, rfl⟩ := mem_sorted_iff.mp isHeader
  obtain ⟨other, source, same⟩ := mem_sorted_iff.mp isSource
  obtain rfl := ofNames_injective same
  have one := List.inj_on_of_nodup_map distinct header source rfl
  exact nomatch (Prod.mk.inj one).2

variable {skip : Option Path} {tree : SourceTree}

/-- The folder that is not entered, if it can be found. -/
def skipped (d : Disk) (skip : Option Path) : Option Address := skip.bind fun p => (d.canonical p).toOption

theorem collect_of_walk {inside : FileTree} {found : List (Address × Kind)} (located : d.locate root = .ok place)
    (folder : d.folder place = .ok inside) (open' : d.refusal? .list place = none)
    (walked : walk d c (skipped d skip) root place [] inside = .ok found) :
    collect d root c skip = .ok ⟨sorted found .header, sorted found .source⟩ := by
  refine bind_eq_ok_iff.mpr ⟨place, located, bind_eq_ok_iff.mpr ⟨inside, folder, ?_⟩⟩
  exact Disk.ask_bind_eq_ok_iff.mpr ⟨open', bind_eq_ok_iff.mpr ⟨found, walked, rfl⟩⟩

theorem exists_listed_of_collect (collected : collect d root c skip = .ok tree) :
    ∃ place inside, d.locate root = .ok place ∧ d.folder place = .ok inside ∧
      tree = ⟨sorted (listed d c (skipped d skip) root [] inside) .header,
        sorted (listed d c (skipped d skip) root [] inside) .source⟩ := by
  unfold collect at collected
  obtain ⟨place, located, collected⟩ := bind_eq_ok_iff.mp collected
  obtain ⟨inside, folder, collected⟩ := bind_eq_ok_iff.mp collected
  obtain ⟨-, collected⟩ := Disk.ask_bind_eq_ok_iff.mp collected
  obtain ⟨found, walked, collected⟩ := bind_eq_ok_iff.mp collected
  obtain rfl := eq_listed_of_walk walked
  exact ⟨place, inside, located, folder, (pure_eq_ok_iff.mp collected).symm⟩

theorem proper_of_folder {place : Address} {inside : FileTree} (proper : d.root.Proper)
    (folder : d.folder place = .ok inside) : inside.Proper := by
  unfold Disk.folder at folder
  split at folder
  · rename_i found
    obtain rfl := Except.ok.inj folder
    exact proper.of_find? found
  · exact nomatch folder
  · exact nomatch folder

theorem nodup_collect (proper : d.root.Proper) (collected : collect d root c skip = .ok tree) :
    (tree.headers ++ tree.sources).Nodup := by
  obtain ⟨place, inside, -, folder, rfl⟩ := exists_listed_of_collect collected
  exact nodup_sorted (nodup_listed (proper_of_folder proper folder).distinct)

def files (t : SourceTree) : Kind → List Path
  | .header => t.headers
  | .source => t.sources

theorem files_sorted (found : List (Address × Kind)) (kind : Kind) :
    files ⟨sorted found .header, sorted found .source⟩ kind = sorted found kind := by
  cases kind <;> rfl

theorem kind_of_mem_files (proper : d.root.Proper) (collected : collect d root c skip = .ok tree)
    {kind : Kind} {p : Path} (member : p ∈ tree.files kind) :
    ∃ above name, p = .ofNames (above ++ [name]) ∧ (∀ n ∈ above ++ [name], Path.IsName n) ∧
      kind? c name = some kind := by
  obtain ⟨place, inside, -, folder, rfl⟩ := exists_listed_of_collect collected
  rw [files_sorted] at member
  obtain ⟨address, found, rfl⟩ := mem_sorted_iff.mp member
  obtain ⟨above, name, way, areNames, isKind⟩ :=
    named_of_mem_listed (proper_of_folder proper folder) found
  obtain rfl : address = above ++ [name] := way
  exact ⟨above, name, rfl, areNames, isKind⟩

theorem extension_of_kind? {name : OsText} {kind : Kind} (isKind : kind? c name = some kind) :
    ∃ extension, (FileName.of name).extension? = some extension := by
  cases ends : (FileName.of name).extension? with
  | none =>
    rw [kind?, ends] at isKind
    exact nomatch isKind
  | some extension => exact ⟨extension, rfl⟩

theorem named_of_mem_collect (proper : d.root.Proper)
    (collected : collect d root c skip = .ok tree) {p : Path}
    (member : p ∈ tree.headers ++ tree.sources) : p.IsNamed := by
  have listed : ∃ kind, p ∈ tree.files kind := by
    rcases List.mem_append.mp member with header | source
    · exact ⟨.header, header⟩
    · exact ⟨.source, source⟩
  obtain ⟨kind, listed⟩ := listed
  obtain ⟨above, name, rfl, areNames, isKind⟩ := kind_of_mem_files proper collected listed
  obtain ⟨extension, ends⟩ := extension_of_kind? isKind
  exact ⟨above, name, extension, rfl, areNames, ends⟩

end SourceTree

end ScriptGlue
