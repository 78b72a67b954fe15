import ScriptGlue.Proofs.Include.Inclusion
import ScriptGlue.Proofs.Listing

/-!
# Renaming what a source includes

A source is divided into its inclusions of listed headers and the stretches between them. Rewriting puts
the name of the generated counterpart into each of these inclusions and changes nothing else; no inclusion
of a listed header is left, so a second rewriting changes nothing (`rewrite_exact`).
-/

namespace ScriptGlue.Include

variable {names : List (List Char)} {i j : Inclusion} {before after s : List Char}

/-- An inclusion of one of some names. -/
def Inclusion.IsOf (names : List (List Char)) (i : Inclusion) : Prop := i.IsSpelled ∧ i.name ∈ names

/-- No inclusion of the names stands in a text. -/
def IsFree (names : List (List Char)) (s : List Char) : Prop :=
  ∀ before (i : Inclusion) after, i.IsOf names → s ≠ before ++ (i.text ++ after)

/-- A text divided into inclusions and the stretches between them. -/
structure Division where
  /-- Each inclusion with the stretch in front of it. -/
  parts : List (List Char × Inclusion)
  tail : List Char

namespace Division

def text (d : Division) : List Char := d.parts.flatMap (fun p => p.1 ++ p.2.text) ++ d.tail

/-- The text with each inclusion renamed. -/
def renamed (d : Division) : Division := { d with parts := d.parts.map fun p => (p.1, p.2.renamed) }

/-- An inclusion is a part, with this text before it and this one behind. -/
def Has (d : Division) (before : List Char) (i : Inclusion) (after : List Char) : Prop :=
  ∃ front stretch back, d.parts = front ++ (stretch, i) :: back ∧
    before = text ⟨front, stretch⟩ ∧ after = text ⟨back, d.tail⟩

/-- The inclusions are proper ones, and in the stretches there is none of the names. -/
structure Separates (names : List (List Char)) (d : Division) : Prop where
  parts : ∀ p ∈ d.parts, p.2.IsSpelled ∧ '#' ∉ p.2.name ∧ IsFree names p.1
  tail : IsFree names d.tail

def push (c : Char) (d : Division) : Division :=
  match d.parts with
  | [] => ⟨[], c :: d.tail⟩
  | p :: parts => ⟨(c :: p.1, p.2) :: parts, d.tail⟩

variable {d : Division}

theorem text_cons (p : List Char × Inclusion) (parts : List (List Char × Inclusion)) (tail : List Char) :
    text ⟨p :: parts, tail⟩ = p.1 ++ (p.2.text ++ text ⟨parts, tail⟩) := by
  simp [text]

theorem text_push (c : Char) (d : Division) : (d.push c).text = c :: d.text := by
  obtain ⟨parts, tail⟩ := d
  cases parts <;> simp [push, text]

theorem renamed_push (c : Char) (d : Division) : (d.push c).renamed = d.renamed.push c := by
  obtain ⟨parts, tail⟩ := d
  cases parts <;> rfl

theorem Has.text_eq (has : d.Has before i after) : d.text = before ++ (i.text ++ after) := by
  obtain ⟨front, stretch, back, parts, rfl, rfl⟩ := has
  simp [text, parts]

theorem has_of_text (separates : d.Separates names) (isOf : j.IsOf names) (hashless : '#' ∉ j.name)
    (same : d.text = before ++ (j.text ++ after)) : d.Has before j after := by
  obtain ⟨parts, tail⟩ := d
  induction parts generalizing before with
  | nil => exact absurd same (separates.tail before j after isOf)
  | cons p parts ih =>
    obtain ⟨stretch, i⟩ := p
    obtain ⟨⟨spelled, plain, free⟩, others⟩ := List.forall_mem_cons.mp separates.parts
    have here (whole : i.text ++ text ⟨parts, tail⟩ = j.text ++ after) :
        Has ⟨(stretch, i) :: parts, tail⟩ stretch j after := by
      obtain ⟨rfl, rfl⟩ := spelled.text_append_inj isOf.1 whole
      exact ⟨[], stretch, parts, rfl, rfl, rfl⟩
    rw [text_cons] at same
    rcases List.append_eq_append_iff.mp same with ⟨more, rfl, rest⟩ | ⟨more, cut, rest⟩
    · by_cases none : more = []
      · subst none
        rw [List.append_nil]
        exact here rest
      · obtain ⟨behind, rfl, later⟩ := spelled.exists_of_overlap isOf.1 plain none rest
        obtain ⟨front, last, back, cut, rfl, rfl⟩ := ih ⟨others, separates.tail⟩ later
        exact ⟨(stretch, i) :: front, last, back, congrArg _ cut, by rw [text_cons], rfl⟩
    · by_cases none : more = []
      · subst none
        rw [List.append_nil] at cut
        subst cut
        exact here rest.symm
      · -- The inclusion would end within the stretch.
        obtain ⟨behind, rfl, -⟩ := isOf.1.exists_of_overlap spelled hashless none rest
        exact absurd cut (free before j behind isOf)

end Division

/-! ### Names that are renamed -/

theorem shown_asFileName (name : List Char) : (asFileName name).shown.toList = name := by
  rw [asFileName, OsText.shown_ofText, String.toList_ofList]

/-- Names of files that are read: each has an extension, and no mark of a generated file. -/
structure Suited (names : List (List Char)) : Prop where
  plain : ∀ name ∈ names, IsPlain name
  isName : ∀ name ∈ names, Path.IsName (asFileName name)
  extension : ∀ name ∈ names, ∃ extension, (FileName.of (asFileName name)).extension? = some extension
  unmarked : ∀ name ∈ names, ¬(FileName.of (asFileName name)).isGenerated

theorem not_mem_generated {name extension : OsText} {c : Char}
    (ends : (FileName.of name).extension? = some extension) (absent : c ∉ name.shown.toList)
    (unmarked : c ∉ FileName.mark.toList) : c ∉ (FileName.of name).generated.toList := by
  rw [FileName.toList_shown ends] at absent
  rw [FileName.toList_generated ends]
  simp only [List.mem_append, List.mem_cons, not_or] at absent ⊢
  exact ⟨⟨absent.1, absent.2.1, unmarked⟩, absent.2⟩

theorem IsPlain.generated {name extension : OsText} (plain : IsPlain name.shown.toList)
    (ends : (FileName.of name).extension? = some extension) :
    IsPlain (FileName.of name).generated.toList := by
  obtain ⟨quote, hash, newline⟩ := plain
  exact ⟨not_mem_generated ends quote (by decide), not_mem_generated ends hash (by decide),
    not_mem_generated ends newline (by decide)⟩

namespace Inclusion

theorem renamed_eq (isName : Path.IsName (asFileName i.name)) :
    i.renamed = { i with name := (FileName.of (asFileName i.name)).generated.toList } := by
  have single : ∀ n ∈ [] ++ [asFileName i.name], Path.IsName n := by simpa using isName
  have generated := Path.generated_ofNames single
  rw [List.nil_append, List.nil_append] at generated
  rw [renamed, generated, Path.text_ofNames_singleton, OsText.shown_ofText]

/-- With another last step for its name, an inclusion stays spelled. -/
theorem IsSpelled.withName {name : List Char} (spelled : i.IsSpelled) (plain : IsPlain name)
    (last : '/' ∉ name) : IsSpelled { i with name := name } := by
  refine ⟨spelled.space, spelled.gap, spelled.directory, List.forall_mem_append.mpr ⟨?_, ?_⟩, last⟩
  · exact fun c member => spelled.quoted c (List.mem_append_left _ member)
  · rintro c own (rfl | rfl)
    · exact plain.1 own
    · exact plain.2.2 own

/-- A renamed inclusion is one of a name that is not listed. -/
theorem IsOf.renamed (suited : Suited names) (isOf : i.IsOf names) :
    i.renamed.IsSpelled ∧ '#' ∉ i.renamed.name ∧ i.renamed.name ∉ names := by
  obtain ⟨spelled, listed⟩ := isOf
  obtain ⟨extension, ends⟩ := suited.extension i.name listed
  have isName := suited.isName i.name listed
  have plain : IsPlain (asFileName i.name).shown.toList :=
    (shown_asFileName i.name).symm ▸ suited.plain i.name listed
  have slash := (isName.generated ends).2.2.2
  rw [Path.slash_mem_iff, OsText.shown_ofText] at slash
  have unlisted : (FileName.of (asFileName i.name)).generated.toList ∉ names := by
    refine fun again => suited.unmarked _ again ?_
    rw [asFileName, String.ofList_toList]
    exact FileName.isGenerated_of_generated ends
  rw [renamed_eq isName]
  dsimp only
  exact ⟨spelled.withName (plain.generated ends) slash, (plain.generated ends).2.1, unlisted⟩

end Inclusion

/-! ### Dividing a text -/

theorem isFree_cons {c : Char} (free : IsFree names s)
    (first : ∀ (i : Inclusion) after, i.IsOf names → c :: s ≠ i.text ++ after) : IsFree names (c :: s) := by
  intro before i after isOf same
  cases before with
  | nil => exact first i after isOf same
  | cons c' before => exact free before i after isOf (List.cons.inj same).2

theorem isFree_nil : IsFree names [] := by
  intro before i after _ same
  simp [Inclusion.text, Inclusion.opening] at same

theorem Directive.renamed_eq {d : Directive} (front : d.front = i.opening ++ i.directory)
    (name : i.name = d.name) (isName : Path.IsName (asFileName i.name)) :
    d.renamed = i.renamed.text := by
  have path : Path.ofText (String.ofList d.name) = .ofNames [asFileName i.name] :=
    name ▸ Path.ofText_of_isName isName
  rw [Inclusion.text, Directive.renamed, path, front, Inclusion.renamed]
  simp [Inclusion.opening]

/-- Renaming divides a text at the inclusions of the names, and renames these. -/
theorem exists_division (suited : Suited names) (s : List Char) :
    ∃ d : Division, d.Separates names ∧ (∀ p ∈ d.parts, p.2.IsOf names) ∧ d.text = s ∧
      renameAll names s = d.renamed.text := by
  have single : ∀ name ∈ names, '/' ∉ name := by
    intro name member
    have slash := (suited.isName name member).2.2.2
    rwa [Path.slash_mem_iff, shown_asFileName] at slash
  -- A character that begins no inclusion of the names joins the stretch in front of the first part.
  fun_induction renameAll names s with
  | case1 s directive found ih =>
    obtain ⟨⟨parts, tail⟩, separates, listed, text, renamed⟩ := ih
    obtain ⟨i, spelled, name, own, rfl, front⟩ := Inclusion.exists_of_directive? suited.plain single found
    refine ⟨⟨([], i) :: parts, tail⟩, ⟨List.forall_mem_cons.mpr ⟨?_, separates.parts⟩, separates.tail⟩,
      List.forall_mem_cons.mpr ⟨⟨spelled, own⟩, listed⟩, ?_, ?_⟩
    · exact ⟨spelled, (suited.plain i.name own).2.1, isFree_nil⟩
    · rw [Division.text_cons, text, List.nil_append]
    · rw [Directive.renamed_eq front name (suited.isName i.name own), renamed]
      exact (Division.text_cons ([], i.renamed) (parts.map fun p => (p.1, p.2.renamed)) tail).symm
  | case2 none => exact ⟨⟨[], []⟩, ⟨List.forall_mem_nil _, isFree_nil⟩, List.forall_mem_nil _, rfl, rfl⟩
  | case3 c s none ih =>
    obtain ⟨⟨parts, tail⟩, separates, listed, text, renamed⟩ := ih
    have first (i : Inclusion) (after : List Char) (isOf : i.IsOf names) : c :: s ≠ i.text ++ after := by
      intro same
      have found := Inclusion.directive?_isSome isOf.1 isOf.2 after
      rw [← same, none] at found
      cases found
    refine ⟨Division.push c ⟨parts, tail⟩, ?_, ?_, by rw [Division.text_push, text], ?_⟩
    · subst text
      cases parts with
      | nil => exact ⟨List.forall_mem_nil _, isFree_cons separates.tail first⟩
      | cons p parts =>
        obtain ⟨⟨spelled, hashless, free⟩, others⟩ := List.forall_mem_cons.mp separates.parts
        refine ⟨List.forall_mem_cons.mpr ⟨⟨spelled, hashless, isFree_cons free ?_⟩, others⟩, separates.tail⟩
        intro i after isOf same
        refine first i (after ++ (p.2.text ++ Division.text ⟨parts, tail⟩)) isOf ?_
        rw [Division.text_cons, ← List.cons_append, same, List.append_assoc]
    · cases parts with
      | nil => exact List.forall_mem_nil _
      | cons p parts => exact List.forall_mem_cons.mpr (List.forall_mem_cons.mp listed)
    · rw [Division.renamed_push, Division.text_push, renamed]

theorem renameAll_of_isFree (suited : Suited names) (free : IsFree names s) : renameAll names s = s := by
  obtain ⟨⟨parts, tail⟩, -, listed, rfl, renamed⟩ := exists_division suited s
  cases parts with
  | nil => exact renamed
  | cons p parts =>
    exact absurd (Division.text_cons p parts tail) (free p.1 p.2 _ (listed p List.mem_cons_self))

/-- No inclusion of the names is left by a renaming. -/
theorem isFree_renamed (suited : Suited names) {d : Division} (separates : d.Separates names)
    (listed : ∀ p ∈ d.parts, p.2.IsOf names) : IsFree names d.renamed.text := by
  have others : d.renamed.Separates names := by
    refine ⟨fun q member => ?_, separates.tail⟩
    obtain ⟨p, inside, rfl⟩ := List.mem_map.mp member
    obtain ⟨spelled, hashless, -⟩ := (listed p inside).renamed suited
    exact ⟨spelled, hashless, (separates.parts p inside).2.2⟩
  intro before i after isOf same
  obtain ⟨front, stretch, back, cut, -, -⟩ :=
    Division.has_of_text others isOf (suited.plain i.name isOf.2).2.1 same
  have member : (stretch, i) ∈ d.renamed.parts := cut ▸ List.mem_append_right front List.mem_cons_self
  obtain ⟨p, inside, same⟩ := List.mem_map.mp member
  obtain ⟨-, rfl⟩ := Prod.mk.inj same
  exact ((listed p inside).renamed suited).2.2 isOf.2

/-! ### Sources of a project -/

variable {headers : List Path}

/-- An inclusion of one of some headers: its last component is the file name of one, as it is shown. -/
def Inclusion.Names (headers : List Path) (i : Inclusion) : Prop :=
  i.IsSpelled ∧ ∃ h ∈ headers, ∃ name, h.fileName? = some name ∧ name.shown.toList = i.name

theorem mem_targets_iff {name : List Char} : name ∈ targets headers ↔
    ∃ h ∈ headers, ∃ own, h.fileName? = some own ∧ own.shown.toList = name := by
  rw [targets, (List.mergeSort_perm _ _).mem_iff, List.mem_filterMap]
  simp only [Option.map_eq_some_iff]

theorem Inclusion.isOf_targets_iff : i.IsOf (targets headers) ↔ i.Names headers :=
  and_congr_right fun _ => mem_targets_iff

variable {d : Disk} {root : Path} {c : Configuration} {skip : Option Path} {tree : SourceTree}

/-- A name that is shown as some characters is theirs, but for what is no text. -/
theorem asFileName_shown (name : OsText) : asFileName name.shown.toList = .ofText name.shown := by
  rw [asFileName, String.ofList_toList]

theorem isName_shown {name : OsText} (isName : Path.IsName name) : Path.IsName name.shown := by
  obtain ⟨some, noDot, noParent, single⟩ := isName
  have other {text : String} (clear : OsText.replacement ∉ text.toList) (differs : name ≠ text) :
      OsText.ofText name.shown ≠ text := by
    intro same
    exact differs ((OsText.shown_eq_iff clear).mp (OsText.ofText_injective same))
  refine ⟨other (by decide) some, other (by decide) noDot, other (by decide) noParent, ?_⟩
  rwa [Path.slash_mem_iff, OsText.shown_ofText, ← Path.slash_mem_iff]

theorem suited_targets (proper : d.root.Proper) (collected : SourceTree.collect d root c skip = .ok tree)
    (plain : ∀ h ∈ tree.headers, ∀ name, h.fileName? = some name → IsPlain name.shown.toList) :
    Suited (targets tree.headers) := by
  have header {name : List Char} (member : name ∈ targets tree.headers) : ∃ own : OsText,
      own.shown.toList = name ∧ IsPlain name ∧ Path.IsName own ∧ SourceTree.kind? c own = some .header := by
    obtain ⟨h, listed, own, named, rfl⟩ := mem_targets_iff.mp member
    have ofKind : h ∈ tree.files .header := listed
    obtain ⟨above, last, rfl, areNames, isKind⟩ :=
      SourceTree.kind_of_mem_files proper collected ofKind
    obtain rfl := Option.some.inj ((Path.fileName?_ofNames areNames).symm.trans named)
    exact ⟨last, rfl, plain _ listed _ named, areNames _ (by simp), isKind⟩
  refine ⟨fun name member => ?_, fun name member => ?_, fun name member => ?_,
    fun name member generated => ?_⟩
  · obtain ⟨own, -, isPlain, -⟩ := header member
    exact isPlain
  · obtain ⟨own, rfl, -, isName, -⟩ := header member
    rw [asFileName_shown]
    exact isName_shown isName
  · obtain ⟨own, rfl, -, -, isKind⟩ := header member
    obtain ⟨extension, ends⟩ := SourceTree.extension_of_kind? isKind
    exact ⟨_, by rw [asFileName_shown, FileName.of_shown ends]⟩
  · obtain ⟨own, rfl, -, -, isKind⟩ := header member
    rw [asFileName_shown] at generated
    rw [SourceTree.kind?_of_isGenerated (FileName.isGenerated_of_shown generated)] at isKind
    cases isKind

theorem fileName?_generated_of_names (proper : d.root.Proper)
    (collected : SourceTree.collect d root c skip = .ok tree) {h : Path} (listed : h ∈ tree.headers)
    {own : OsText} (named : h.fileName? = some own) (same : own.shown.toList = i.name) :
    h.generated.fileName? = some (asFileName i.renamed.name) := by
  obtain ⟨above, name, extension, rfl, areNames, ends⟩ :=
    SourceTree.named_of_mem_collect proper collected (List.mem_append_left _ listed)
  obtain rfl := Option.some.inj ((Path.fileName?_ofNames areNames).symm.trans named)
  have isName : Path.IsName (asFileName i.name) := by
    rw [← same, asFileName_shown]
    exact isName_shown (areNames _ (by simp))
  rw [Path.fileName?_generated areNames ends, Inclusion.renamed_eq isName, ← same, asFileName_shown,
    FileName.generated_of_shown ends, asFileName, String.ofList_toList]

/-- Rewriting a source puts the file name of the generated header into each inclusion of a header, and
leaves all else as it is. No inclusion of a header is left in what comes out, so that stays as it is. -/
theorem rewrite_exact (proper : d.root.Proper) (collected : SourceTree.collect d root c skip = .ok tree)
    (plain : ∀ h ∈ tree.headers, ∀ name, h.fileName? = some name → IsPlain name.shown.toList)
    (text : String) :
    (∃ division : Division, division.text = text.toList ∧
      (rewrite tree.headers text).toList = division.renamed.text ∧
      (∀ p ∈ division.parts, p.2.Names tree.headers) ∧
      ∀ before (i : Inclusion) after, i.Names tree.headers →
        (text.toList = before ++ (i.text ++ after) ↔ division.Has before i after)) ∧
    (∀ i : Inclusion, ∀ h ∈ tree.headers, ∀ name, h.fileName? = some name → name.shown.toList = i.name →
      h.generated.fileName? = some (asFileName i.renamed.name)) ∧
    (∀ before (i : Inclusion) after, i.Names tree.headers →
      (rewrite tree.headers text).toList ≠ before ++ (i.text ++ after)) ∧
    rewrite tree.headers (rewrite tree.headers text) = rewrite tree.headers text := by
  have suited := suited_targets proper collected plain
  obtain ⟨division, separates, listed, whole, renamed⟩ := exists_division suited text.toList
  have result : (rewrite tree.headers text).toList = division.renamed.text := by
    rw [rewrite, String.toList_ofList, renamed]
  have free := isFree_renamed suited separates listed
  refine ⟨⟨division, whole, result, fun p member => Inclusion.isOf_targets_iff.mp (listed p member),
    fun before i after names => ⟨fun same => ?_, fun has => whole ▸ has.text_eq⟩⟩,
    fun i h listed name named same => fileName?_generated_of_names proper collected listed named same,
    fun before i after names same => ?_, ?_⟩
  · have isOf := Inclusion.isOf_targets_iff.mpr names
    exact Division.has_of_text separates isOf (suited.plain i.name isOf.2).2.1 (whole.trans same)
  · exact free before i after (Inclusion.isOf_targets_iff.mpr names) (result.symm.trans same)
  · apply String.toList_injective
    rw [rewrite, String.toList_ofList, result, renameAll_of_isFree suited free]

def shelfDisk : Disk := ⟨FileTree.folder "in" (.file "a.h" .empty .empty) .empty, []⟩

def shelfTree : SourceTree := ⟨[.ofNames ["a.h"]], []⟩

/-- A name that ends in that of a header, and a header behind a directory. -/
def shelfSource : String := "#include \"ba.h\"\n# include \"lib/a.h\"\n"

theorem rewrite_exact_shelfSource :
    shelfDisk.root.Proper ∧ SourceTree.collect shelfDisk (.ofText "in") .standard none = .ok shelfTree ∧
      (∀ h ∈ shelfTree.headers, ∀ name, h.fileName? = some name → IsPlain name.shown.toList) ∧
      rewrite shelfTree.headers shelfSource = "#include \"ba.h\"\n# include \"lib/a.generated.h\"\n" ∧
      (∀ before (i : Inclusion) after, i.Names shelfTree.headers →
        (rewrite shelfTree.headers shelfSource).toList ≠ before ++ (i.text ++ after)) ∧
      rewrite shelfTree.headers (rewrite shelfTree.headers shelfSource) =
        rewrite shelfTree.headers shelfSource := by
  have proper : shelfDisk.root.Proper := by decide
  have collected : SourceTree.collect shelfDisk (.ofText "in") .standard none = .ok shelfTree := by
    decide +kernel
  have plain : ∀ h ∈ shelfTree.headers, ∀ name, h.fileName? = some name → IsPlain name.shown.toList := by
    intro h member name named
    obtain rfl := List.mem_singleton.mp member
    obtain rfl := Option.some.inj ((by decide : _ = some (OsText.ofText "a.h")).symm.trans named)
    rw [OsText.shown_ofText]
    exact ⟨by decide, by decide, by decide⟩
  have rewritten : rewrite shelfTree.headers shelfSource =
      "#include \"ba.h\"\n# include \"lib/a.generated.h\"\n" := by
    decide +kernel
  obtain ⟨-, -, free, again⟩ := rewrite_exact proper collected plain shelfSource
  exact ⟨proper, collected, plain, rewritten, free, again⟩

/-- A header whose name is no text: the byte in front of the extension spells no character. -/
def strayHeader : OsText := ⟨[0xe9, 0x2e, 0x68]⟩

def strayShelf : Disk := ⟨FileTree.folder "in" (.file strayHeader .empty .empty) .empty, []⟩

/-- A text cannot spell the name of such a header. What is renamed is another name, that which the header's
is shown as. And a quoted path ends with its line, so a directory whose name has a newline is none of it. -/
theorem rewrite_differs_strayShelf :
    (∃ tree, SourceTree.collect strayShelf (.ofText "in") .standard none = .ok tree ∧
      (∀ h ∈ tree.headers, h.fileName? ≠ some (.ofText "\uFFFD.h")) ∧
      rewrite tree.headers "#include \"\uFFFD.h\"\n" = "#include \"\uFFFD.generated.h\"\n") ∧
    ∃ tree, SourceTree.collect shelfDisk (.ofText "in") .standard none = .ok tree ∧
      (Path.ofText "lib\n/a.h").fileName? = some (.ofText "a.h") ∧ .ofNames ["a.h"] ∈ tree.headers ∧
      rewrite tree.headers "#include \"lib\n/a.h\"\n" = "#include \"lib\n/a.h\"\n" := by
  have stray : SourceTree.collect strayShelf (.ofText "in") .standard none =
      .ok ⟨[.ofNames [strayHeader]], []⟩ := by
    decide +kernel
  have taken : rewrite [.ofNames [strayHeader]] "#include \"\uFFFD.h\"\n" =
      "#include \"\uFFFD.generated.h\"\n" := by
    decide +kernel
  have shelf : SourceTree.collect shelfDisk (.ofText "in") .standard none = .ok shelfTree := by
    decide +kernel
  have left : rewrite shelfTree.headers "#include \"lib\n/a.h\"\n" = "#include \"lib\n/a.h\"\n" := by
    decide +kernel
  refine ⟨⟨_, stray, ?_, taken⟩, shelfTree, shelf, by decide, List.mem_singleton.mpr rfl, left⟩
  intro h member
  obtain rfl := List.mem_singleton.mp member
  decide

end ScriptGlue.Include
