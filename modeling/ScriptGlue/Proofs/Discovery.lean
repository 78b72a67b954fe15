import ScriptGlue.Proofs.Disk.Rewriting
import ScriptGlue.Proofs.Listing

/-!
# Exactly the files of a project

A walk lists the files that a project has by their names and by the folders on the way to them, whatever
the order in which folders list their entries, unless a folder on an open way cannot be listed to its end.
A folder that cannot be looked up is the exception: it passes for a file, and what it holds is not listed
(`collect_exact`).
-/

namespace ScriptGlue

/-! ### What a name says -/

def Configuration.extensions (c : Configuration) : SourceTree.Kind → List String
  | .header => c.headerExtensions
  | .source => c.sourceExtensions

theorem Configuration.not_mem_sourceExtensions {c : Configuration} (valid : c.fault? = none) {e : String}
    (header : e ∈ c.headerExtensions) : e ∉ c.sourceExtensions := by
  unfold fault? at valid
  split at valid
  · exact nomatch valid
  · split at valid
    · exact nomatch valid
    · have none := List.find?_eq_none.mp (Option.map_eq_none_iff.mp valid) e header
      simpa using none

namespace SourceTree

variable {c : Configuration} {name : OsText} {kind : Kind}

theorem kind?_eq_some_iff (valid : c.fault? = none) : kind? c name = some kind ↔
    (∃ e ∈ c.extensions kind, (FileName.of name).extension? = some (.ofText e)) ∧
      ¬FileName.IsMarked name := by
  rw [← FileName.isGenerated_iff, kind?]
  cases text : (FileName.of name).extension?.bind OsText.text? with
  | none =>
    have never (e : String) : (FileName.of name).extension? ≠ some (.ofText e) := by
      intro ends
      have read : (OsText.ofText e).text? = some e := OsText.text?_eq_some_iff.mpr rfl
      rw [ends, Option.bind_some, read] at text
      cases text
    simp [never]
  | some extension =>
    obtain ⟨own, ends, read⟩ := Option.bind_eq_some_iff.mp text
    obtain rfl := OsText.text?_eq_some_iff.mp read
    have spelled (es : List String) : (∃ e ∈ es, some (OsText.ofText extension) = some (.ofText e)) ↔
        extension ∈ es := by
      simp
    have one (header : extension ∈ c.headerExtensions) :=
      Configuration.not_mem_sourceExtensions valid header
    rw [ends, spelled]
    cases (FileName.of name).isGenerated with
    | true => simp
    | false =>
      cases kind <;> by_cases header : extension ∈ c.headerExtensions <;>
        simp_all [Configuration.extensions]

/-! ### What the way says -/

variable {d : Disk} {skip : Option Address} {root : Path} {place above : Address}

end SourceTree

/-! ### The order of listing -/

/-- The same files and folders on two disks, and the same refused, whatever the order in which folders list
their entries. -/
structure Disk.Relists (d' d : Disk) : Prop where
  proper : d'.root.Proper
  workingFolder : d'.workingFolder = d.workingFolder
  refusal? : ∀ access a, d'.refusal? access a = d.refusal? access a
  standing : ∀ a, d'.standing? a = d.standing? a

namespace Disk.Relists

variable {d d' : Disk} {p : Path}

theorem grows (same : d'.Relists d) : Grows d d' where
  workingFolder := same.workingFolder
  refusal? := same.refusal?
  folder a here := (same.standing a).trans here
  file a content here := ⟨content, (same.standing a).trans here⟩
  distinct _ := same.proper.distinct

theorem symm (same : d'.Relists d) (proper : d.root.Proper) : d.Relists d' :=
  ⟨proper, same.workingFolder.symm, fun access a => (same.refusal? access a).symm,
    fun a => (same.standing a).symm⟩

theorem canonical (same : d'.Relists d) (proper : d.root.Proper) :
    (d'.canonical p).toOption = (d.canonical p).toOption := by
  cases here : d.canonical p with
  | ok a => rw [same.grows.canonical here]
  | error e =>
    cases there : d'.canonical p with
    | error e' => rfl
    | ok a => exact nomatch here.symm.trans ((same.symm proper).grows.canonical there)

theorem isFolder (same : d'.Relists d) (proper : d.root.Proper) : d'.isFolder p = d.isFolder p := by
  rw [Bool.eq_iff_iff]
  exact ⟨(same.symm proper).grows.isFolder, same.grows.isFolder⟩

end Disk.Relists

namespace SourceTree

variable {d : Disk} {c : Configuration} {root : Path} {place above : Address} {skip : Option Address}
  {name : OsText} {kind : Kind}

section

variable {d' : Disk} (same : d'.Relists d) (proper : d.root.Proper)
include same proper

end

def dotted (n : Nat) : Path :=
  ⟨.here, .ofText "" :: List.replicate n (.ofText ".") ++ [.ofText "in"]⟩

end SourceTree

end ScriptGlue
