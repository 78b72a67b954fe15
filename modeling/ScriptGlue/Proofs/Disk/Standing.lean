import ScriptGlue.Disk
import ScriptGlue.Proofs.Traversal

/-!
# What stands on a disk

Looking a path up depends only on what stands at the addresses on the way: a folder, a file, or
nothing. What is set at an address changes what stands there and nowhere else (`standing?_setAt`),
and as long as files stay files and folders stay folders, a path that led somewhere leads to the
same address (`Grows.locate`).
-/

namespace ScriptGlue

/-- What stands at an address, whatever a folder holds. -/
inductive Standing
  | file (content : ByteArray)
  | folder

namespace FileTree

def Entry.standing : Entry → Standing
  | file content => .file content
  | folder _ => .folder

def standing? (t : FileTree) (address : Address) : Option Standing :=
  (t.find? address).map Entry.standing

variable {t inside : FileTree} {name : OsText} {place rest : Address}

def Entry.below? (rest : Address) : Entry → Option Standing
  | folder inside => inside.standing? rest
  | file content => if rest = [] then some (.file content) else none

theorem standing?_cons (t : FileTree) (name : OsText) (rest : Address) :
    t.standing? (name :: rest) = (t.get? name).bind (Entry.below? rest) := by
  rw [standing?, find?]
  cases t.get? name with
  | none => rfl
  | some entry =>
    cases entry with
    | folder inside => rfl
    | file content =>
      simp only [Option.bind_some, Entry.below?]
      split <;> rfl

/-- The addresses of all folders. -/
def folders : FileTree → List Address
  | empty => [[]]
  | file _ _ others => others.folders
  | folder name inside others => inside.folders.map (name :: ·) ++ others.folders

def Entry.IsBare : Entry → Prop
  | file _ => True
  | folder inside => inside = .empty

theorem Entry.IsBare.below? {entry : Entry} (bare : entry.IsBare) (rest : Address) :
    entry.below? rest = if rest = [] then some entry.standing else none := by
  cases entry with
  | file content => rfl
  | folder inside =>
    obtain rfl : inside = .empty := bare
    cases rest <;> rfl

theorem standing?_get? {entry : Entry} (here : t.get? name = some entry) :
    t.standing? [name] = some entry.standing := by
  rw [standing?_cons, here]
  cases entry <;> rfl

theorem exists_folder_of_standing? {standing : Standing} (more : rest ≠ [])
    (found : t.standing? (name :: rest) = some standing) :
    ∃ inside, t.get? name = some (.folder inside) ∧ inside.standing? rest = some standing := by
  rw [standing?_cons] at found
  obtain ⟨entry, here, below⟩ := Option.bind_eq_some_iff.mp found
  cases entry with
  | file content => exact nomatch (if_neg more).symm.trans below
  | folder inside => exact ⟨inside, here, below⟩

theorem setAt_cons (entry : Entry) (here : t.get? name = some (.folder inside)) (some : rest ≠ []) :
    t.setAt entry (name :: rest) = t.set name (.folder (inside.setAt entry rest)) := by
  cases rest with
  | nil => exact absurd rfl some
  | cons next rest => rw [setAt, here]

theorem exists_get?_of_folder (folder : t.standing? (name :: rest) = some .folder) :
    ∃ inside, t.get? name = some (.folder inside) ∧ inside.standing? rest = some .folder := by
  cases rest with
  | nil =>
    rw [standing?_cons] at folder
    obtain ⟨entry, here, below⟩ := Option.bind_eq_some_iff.mp folder
    cases entry with
    | file content => exact nomatch below
    | folder inside => exact ⟨inside, here, rfl⟩
  | cons next rest => exact exists_folder_of_standing? (List.cons_ne_nil _ _) folder

theorem standing?_set {entry : Entry} (bare : entry.IsBare)
    (vacant : t.standing? [name] ≠ some .folder) (address : Address) :
    (t.set name entry).standing? address =
      if address = [name] then some entry.standing else t.standing? address := by
  cases address with
  | nil => rfl
  | cons first rest =>
    rw [standing?_cons, get?_set, standing?_cons]
    by_cases same : name = first
    · subst same
      rw [if_pos rfl, Option.bind_some, bare.below?]
      by_cases last : rest = []
      · rw [if_pos last, if_pos (by rw [last])]
      · rw [if_neg last, if_neg (by simpa using last)]
        cases here : t.get? name with
        | none => rfl
        | some old =>
          cases old with
          | file content => exact (if_neg last).symm
          | folder inside => exact absurd (standing?_get? here) vacant
    · rw [if_neg same, if_neg fun h => same (List.cons.inj h).1.symm]

/-- What is set at an address in a folder stands there, and nothing else changes. -/
theorem standing?_setAt {entry : Entry} (bare : entry.IsBare) (folder : t.standing? place = some .folder)
    (vacant : t.standing? (place ++ [name]) ≠ some .folder) (address : Address) :
    (t.setAt entry (place ++ [name])).standing? address =
      if address = place ++ [name] then some entry.standing else t.standing? address := by
  induction place generalizing t address with
  | nil => exact standing?_set bare vacant address
  | cons first place ih =>
    obtain ⟨inside, here, folder⟩ := exists_get?_of_folder folder
    have below (rest : Address) : t.standing? (first :: rest) = inside.standing? rest := by
      rw [standing?_cons, here]
      rfl
    rw [List.cons_append, below] at vacant
    rw [List.cons_append, setAt_cons entry here (by simp)]
    cases address with
    | nil => rfl
    | cons other rest =>
      by_cases same : first = other
      · subst same
        rw [standing?_cons, get?_set, if_pos rfl, below]
        simp only [List.cons.injEq, true_and]
        exact ih folder vacant rest
      · rw [standing?_cons, get?_set, if_neg same, standing?_cons,
          if_neg fun h => same (List.cons.inj h).1.symm]

theorem standing?_append (folder : t.find? place = some (.folder inside)) (rest : Address) :
    t.standing? (place ++ rest) = inside.standing? rest := by
  induction place generalizing t with
  | nil =>
    obtain rfl := Entry.folder.inj (Option.some.inj folder)
    rfl
  | cons name place ih =>
    rw [find?] at folder
    split at folder
    · rename_i below here
      rw [List.cons_append, standing?_cons, here]
      exact ih folder
    · split at folder
      · exact nomatch folder
      · exact nomatch folder
    · exact nomatch folder

/-- In no folder there are two entries of one name. -/
def Distinct : FileTree → Prop
  | empty => True
  | file name _ others => others.get? name = none ∧ others.Distinct
  | folder name inside others => others.get? name = none ∧ inside.Distinct ∧ others.Distinct

theorem Distinct.of_get? (distinct : t.Distinct) (here : t.get? name = some (.folder inside)) :
    inside.Distinct := by
  induction t with
  | empty => cases here
  | file n content others ih =>
    rw [get?] at here
    split at here
    · cases here
    · exact ih distinct.2 here
  | folder n own others _ ih =>
    rw [get?] at here
    split at here
    · obtain rfl := Entry.folder.inj (Option.some.inj here)
      exact distinct.2.1
    · exact ih distinct.2.2 here

theorem Distinct.of_find? (distinct : t.Distinct) {address : Address}
    (entry : t.find? address = some (.folder inside)) : inside.Distinct := by
  induction address generalizing t with
  | nil =>
    obtain rfl := Entry.folder.inj (Option.some.inj entry)
    exact distinct
  | cons name rest ih =>
    rw [find?] at entry
    split at entry
    · rename_i below here
      exact ih (distinct.of_get? here) entry
    · split at entry
      · cases entry
      · cases entry
    · cases entry

theorem distinct_cons {entry : Entry} (own : ∀ inside, entry = .folder inside → inside.Distinct)
    (absent : t.get? name = none) (distinct : t.Distinct) : (cons name t entry).Distinct := by
  cases entry with
  | file content => exact ⟨absent, distinct⟩
  | folder inside => exact ⟨absent, own inside rfl, distinct⟩

theorem Distinct.set {entry : Entry} (distinct : t.Distinct)
    (own : ∀ inside, entry = .folder inside → inside.Distinct) : (t.set name entry).Distinct := by
  induction t with
  | empty => exact distinct_cons own rfl trivial
  | file n content others ih =>
    obtain ⟨absent, later⟩ := distinct
    rw [FileTree.set]
    split
    · rename_i same
      exact distinct_cons own (same ▸ absent) later
    · rename_i other
      exact ⟨by rw [get?_set, if_neg (Ne.symm other), absent], ih later⟩
  | folder n inside others _ ih =>
    obtain ⟨absent, here, later⟩ := distinct
    rw [FileTree.set]
    split
    · rename_i same
      exact distinct_cons own (same ▸ absent) later
    · rename_i other
      exact ⟨by rw [get?_set, if_neg (Ne.symm other), absent], here, ih later⟩

theorem Distinct.setAt {entry : Entry} (distinct : t.Distinct)
    (own : ∀ inside, entry = .folder inside → inside.Distinct) (address : Address) :
    (t.setAt entry address).Distinct := by
  induction address generalizing t with
  | nil => exact distinct
  | cons first rest ih =>
    cases rest with
    | nil => exact distinct.set own
    | cons next rest =>
      rw [FileTree.setAt]
      split
      · rename_i inside here
        refine distinct.set fun below same => ?_
        obtain rfl := Entry.folder.inj same
        exact ih (distinct.of_get? here)
      · exact distinct

end FileTree

/-! ### Looking up -/

namespace Disk

variable {d d' : Disk} {place a : Address} {piece : OsText}

def standing? (d : Disk) (address : Address) : Option Standing := d.root.standing? address

theorem folder_eq_ok_iff {inside : FileTree} :
    d.folder place = .ok inside ↔ d.root.find? place = some (.folder inside) := by
  unfold folder
  split
  · rename_i other found
    rw [found]
    simp
  · rename_i content found
    rw [found]
    simp
  · rename_i found
    rw [found]
    simp

theorem exists_folder_iff : (∃ inside, d.folder place = .ok inside) ↔ d.standing? place = some .folder := by
  simp only [folder_eq_ok_iff, standing?, FileTree.standing?, Option.map_eq_some_iff]
  constructor
  · rintro ⟨inside, found⟩
    exact ⟨_, found, rfl⟩
  · rintro ⟨entry, found, standing⟩
    cases entry with
    | file content => exact nomatch standing
    | folder inside => exact ⟨inside, found⟩

theorem ask_eq_ok_iff {access : Access} : d.ask access a = .ok () ↔ d.refusal? access a = none := by
  unfold ask
  cases d.refusal? access a <;> simp

theorem ask_bind_eq_ok_iff {access : Access} {α : Type} {next : Except DiskError α} {x : α} :
    (d.ask access a >>= fun _ => next) = .ok x ↔ d.refusal? access a = none ∧ next = .ok x := by
  rw [bind_eq_ok_iff, ← ask_eq_ok_iff]
  exact ⟨fun ⟨_, asked, then'⟩ => ⟨asked, then'⟩, fun ⟨asked, then'⟩ => ⟨(), asked, then'⟩⟩

theorem readText_eq_ok_iff {p : Path} {text : String} : d.readText p = .ok text ↔
    ∃ a content, d.locate p = .ok a ∧ d.refusal? .read a = none ∧
      d.standing? a = some (.file content) ∧ String.fromUTF8? content = some text := by
  unfold readText
  rw [bind_eq_ok_iff]
  apply exists_congr
  intro a
  rw [ask_bind_eq_ok_iff, exists_and_left, exists_and_left]
  apply and_congr_right
  intro _
  apply and_congr_right
  intro _
  simp only [standing?, FileTree.standing?]
  cases d.root.find? a with
  | none => simp [throw, throwThe, MonadExceptOf.throw]
  | some entry =>
    cases entry with
    | folder inside => simp [throw, throwThe, MonadExceptOf.throw, FileTree.Entry.standing]
    | file content =>
      cases decoded : String.fromUTF8? content with
      | none => simp [throw, throwThe, MonadExceptOf.throw, FileTree.Entry.standing, decoded]
      | some read => simp [pure, Except.pure, FileTree.Entry.standing, decoded]

theorem standing?_concat {inside : FileTree} (folder : d.folder place = .ok inside) (name : OsText) :
    d.standing? (place ++ [name]) = (inside.get? name).map FileTree.Entry.standing := by
  rw [standing?, FileTree.standing?_append (folder_eq_ok_iff.mp folder), FileTree.standing?_cons]
  cases inside.get? name with
  | none => rfl
  | some entry => cases entry <;> rfl

/-- A step down leads to what stands there; other steps need nothing but the folder. What is no empty
piece asks to look up what the folder holds. -/
theorem step_eq_ok_iff : d.step place piece = .ok a ↔ d.standing? place = some .folder ∧
    (piece ≠ "" → d.refusal? .search place = none) ∧
    (if Path.isBlank piece then a = place
      else if piece = ".." then a = place.dropLast
      else piece.size ≤ longestName ∧ d.standing? (place ++ [piece]) ≠ none ∧
        a = place ++ [piece]) := by
  rw [step, bind_eq_ok_iff, ← exists_folder_iff, ← exists_and_right]
  apply exists_congr
  intro inside
  apply and_congr_right
  intro folder
  rw [standing?_concat folder]
  by_cases empty : piece = ""
  · subst empty
    rw [if_pos rfl, pure_eq_ok_iff, if_pos (by rfl)]
    simp [eq_comm]
  · rw [if_neg empty, ask_bind_eq_ok_iff]
    simp only [ne_eq, empty, not_false_eq_true, forall_const]
    apply and_congr_right
    intro _
    by_cases here : piece = "."
    · subst here
      rw [if_pos rfl, pure_eq_ok_iff, if_pos (by rfl), eq_comm]
    · have named : ¬Path.isBlank piece = true := by simp [Path.isBlank, empty, here]
      rw [if_neg here, if_neg named]
      split
      · rw [pure_eq_ok_iff, eq_comm]
      · cases inside.get? piece with
        | none =>
          by_cases long : longestName < piece.size <;>
            simp [long, throw, throwThe, MonadExceptOf.throw]
        | some entry =>
          by_cases long : longestName < piece.size
          · simp [long, Nat.not_le.mpr long, throw, throwThe, MonadExceptOf.throw]
          · simp [long, Nat.not_lt.mp long, pure, Except.pure, eq_comm]

/-! ### Growth -/

/-- Files stay files and folders stay folders, and more may come. What is refused is refused as before. -/
structure Grows (d d' : Disk) : Prop where
  workingFolder : d'.workingFolder = d.workingFolder
  refusal? : ∀ access a, d'.refusal? access a = d.refusal? access a
  folder : ∀ a, d.standing? a = some .folder → d'.standing? a = some .folder
  file : ∀ a content, d.standing? a = some (.file content) →
    ∃ content', d'.standing? a = some (.file content')
  distinct : d.root.Distinct → d'.root.Distinct

namespace Grows

theorem refl (d : Disk) : Grows d d :=
  ⟨rfl, fun _ _ => rfl, fun _ => id, fun _ content here => ⟨content, here⟩, id⟩

theorem trans {d d' d'' : Disk} (first : Grows d d') (second : Grows d' d'') : Grows d d'' where
  workingFolder := second.workingFolder.trans first.workingFolder
  refusal? access a := (second.refusal? access a).trans (first.refusal? access a)
  folder a here := second.folder a (first.folder a here)
  file a content here := by
    obtain ⟨content', here⟩ := first.file a content here
    exact second.file a content' here
  distinct one := second.distinct (first.distinct one)

variable {p : Path} (grows : Grows d d')
include grows

theorem stays (here : d.standing? a ≠ none) : d'.standing? a ≠ none := by
  cases standing : d.standing? a with
  | none => exact absurd standing here
  | some s =>
    cases s with
    | folder => simp [grows.folder a standing]
    | file content =>
      obtain ⟨content', later⟩ := grows.file a content standing
      simp [later]

theorem step (ok : d.step place piece = .ok a) : d'.step place piece = .ok a := by
  rw [step_eq_ok_iff] at ok ⊢
  obtain ⟨folder, open', way⟩ := ok
  refine ⟨grows.folder place folder, fun some => (grows.refusal? _ _).trans (open' some), ?_⟩
  by_cases blank : Path.isBlank piece = true
  · rwa [if_pos blank] at way ⊢
  · rw [if_neg blank] at way ⊢
    by_cases up : piece = ".."
    · rwa [if_pos up] at way ⊢
    · rw [if_neg up] at way ⊢
      obtain ⟨short, here, same⟩ := way
      exact ⟨short, grows.stays here, same⟩

theorem walk {pieces : List OsText} (ok : pieces.foldlM d.step place = .ok a) :
    pieces.foldlM d'.step place = .ok a := by
  induction pieces generalizing place with
  | nil => exact ok
  | cons piece pieces ih =>
    rw [List.foldlM_cons] at ok ⊢
    obtain ⟨next, one, rest⟩ := bind_eq_ok_iff.mp ok
    exact bind_eq_ok_iff.mpr ⟨next, grows.step one, ih rest⟩

theorem origin (p : Path) : d'.origin p = d.origin p := by
  rw [Disk.origin, Disk.origin, grows.workingFolder]

theorem base (p : Path) : d'.base p = d.base p := by
  rw [Disk.base, Disk.base, grows.origin]

theorem locate (ok : d.locate p = .ok a) : d'.locate p = .ok a := by
  obtain ⟨start, based, ok⟩ := bind_eq_ok_iff.mp ok
  exact bind_eq_ok_iff.mpr ⟨start, (grows.base p).trans based, grows.walk ok⟩

/-- A text stays as long as what stands at its address does. -/
theorem readText {text : String} (read : d.readText p = .ok text)
    (same : ∀ a content, d.locate p = .ok a → d.standing? a = some (.file content) →
      d'.standing? a = d.standing? a) : d'.readText p = .ok text := by
  obtain ⟨a, content, located, open', file, decoded⟩ := readText_eq_ok_iff.mp read
  have stays := (same a content located file).trans file
  exact readText_eq_ok_iff.mpr
    ⟨a, content, grows.locate located, (grows.refusal? _ _).trans open', stays, decoded⟩

theorem canonical (ok : d.canonical p = .ok a) : d'.canonical p = .ok a := by
  obtain ⟨start, begun, ok⟩ := bind_eq_ok_iff.mp ok
  exact bind_eq_ok_iff.mpr ⟨start, (grows.origin p).trans begun, grows.walk ok⟩

end Grows

end Disk

end ScriptGlue
