import Mathlib.Algebra.GroupWithZero.Nat
import ScriptGlue.Proofs.Disk.Writing
import ScriptGlue.Proofs.Generation
import ScriptGlue.Proofs.Include
import ScriptGlue.Proofs.Listing
import ScriptGlue.Proofs.Text.Bytes

/-!
# The files of a generation

A generation that succeeds mirrors the headers and sources of its project below the output
directory, adds the files made once for the whole project, and leaves all else on the disk as it was
(`run_mirrors`).
-/

namespace ScriptGlue

/-- A path leads to a file with a text for its content. The file may be one that nobody may read. -/
def Disk.Holds (d : Disk) (p : Path) (text : String) : Prop :=
  ∃ a, d.locate p = .ok a ∧ d.standing? a = some (.file text.toUTF8)

theorem Disk.Holds.readText {d : Disk} {p : Path} {text : String} (holds : d.Holds p text)
    (open' : ∀ a, d.refusal? .read a = none) : d.readText p = .ok text := by
  obtain ⟨a, there, stands⟩ := holds
  have decoded : String.fromUTF8? text.toUTF8 = some text := by
    simpa only [Array.toArray_toList] using Text.fromUTF8?_bytes text
  exact readText_eq_ok_iff.mpr ⟨a, _, there, open' a, stands, decoded⟩

namespace Project

theorem length_diagnostics_ofHeaders (headers : List (String × String)) :
    (ofHeaders headers).diagnostics.length =
      (headers.map fun h => (Extraction.ofSource h.2).diagnostics.length).sum := by
  induction headers using List.reverseRecOn with
  | nil => rfl
  | append_singleton headers h ih =>
    rw [ofHeaders_append, addHeader, List.length_append, ih, List.map_append, List.sum_append]
    simp

end Project

namespace Generation

variable {d : Disk} {o : Options} {bounds : Include.Bounds} {s : Survey}

theorem exists_write_of_run {summary : Summary} (surveyed : survey d o bounds = .ok s)
    (succeeds : (run d o bounds).outcome = .ok summary) :
    s.refusal? = none ∧ write o.output d s.outputs = .ok (run d o bounds).disk ∧ summary = s.summary := by
  unfold run at succeeds ⊢
  rw [surveyed] at succeeds ⊢
  dsimp only at succeeds ⊢
  cases refused : s.refusal? with
  | some failure =>
    rw [refused] at succeeds
    exact nomatch succeeds
  | none =>
    rw [refused] at succeeds
    dsimp only at succeeds ⊢
    cases written : write o.output d s.outputs with
    | error failure =>
      rw [written] at succeeds
      exact nomatch succeeds
    | ok d' =>
      rw [written] at succeeds
      exact ⟨rfl, rfl, (Except.ok.inj succeeds).symm⟩

namespace Survey

def types (s : Survey) : List ScriptType :=
  s.headers.flatMap fun h => (Extraction.ofSource h.2).types

theorem types_project (s : Survey) : s.project.types = s.types := by
  rw [project, Project.types_ofHeaders, List.flatMap_map]
  rfl

theorem endsInName_of_mem_outputs (proper : d.root.Proper) (surveyed : survey d o bounds = .ok s) :
    ∀ f ∈ s.outputs, (o.output.below f.1.pieces).EndsInName := by
  intro f member
  obtain ⟨above, name, path, areNames, -⟩ :=
    cases_of_mem_written proper surveyed (List.mem_map_of_mem member)
  rw [path]
  exact Path.endsInName_below o.output (areNames name (by simp))

/-- What a generation reads: the headers and sources of the project, in order, with their texts. -/
structure Reads (s : Survey) (d : Disk) (o : Options) : Prop where
  listed : SourceTree.collect d o.input s.configuration (some o.output) =
    .ok ⟨s.headers.map (·.1), s.sources.map (·.1)⟩
  ordered : s.headers.Pairwise fun h later => SourceTree.isBefore h.1.pieces later.1.pieces
  texts : ∀ f ∈ s.headers ++ s.sources, d.readText (o.input.below f.1.pieces) = .ok f.2

/-- What a generation leaves on the disk. -/
structure Mirrored (s : Survey) (o : Options) (d after : Disk) : Prop where
  headers : ∀ h ∈ s.headers, after.Holds (o.output.below h.1.generated.pieces)
    (Include.rewrite (s.headers.map (·.1)) h.2 ++ Glue.text (Extraction.ofSource h.2).types)
  sources : ∀ f ∈ s.sources, after.Holds (o.output.below f.1.generated.pieces)
    (Include.rewrite (s.headers.map (·.1)) f.2)
  registrationHeader : after.Holds (o.output.below [.ofText Registration.headerName])
    (Registration.of s.types).header
  registrationSource : after.Holds (o.output.below [.ofText Registration.sourceName])
    (Registration.of s.types).source
  support : s.configuration.supportHeader →
    after.Holds (o.output.below [.ofText Registration.supportName]) Glue.supportHeader
  metadata : s.configuration.metadataJson → after.Holds (o.output.below [.ofText metadataName])
    (Text.Json.render (.array (s.types.map ScriptType.json)) ++ "\n")
  /-- All else is as it was, but for new folders above what is written. -/
  others : ∀ address, (∀ p ∈ s.outputs.map (·.1), after.locate (o.output.below p.pieces) ≠ .ok address) →
    after.standing? address = d.standing? address ∨
      d.standing? address = none ∧ after.standing? address = some .folder ∧
        ∃ p ∈ s.outputs.map (·.1), ∃ folder, (o.output.below p.pieces).IsBelow folder ∧
          after.locate folder = .ok address

theorem reads_of_survey (proper : d.root.Proper) (surveyed : survey d o bounds = .ok s) : s.Reads d o := by
  obtain ⟨-, -, listed, -, texts⟩ := survey_eq_ok_iff.mp surveyed
  exact ⟨listed, List.pairwise_map.mp (SourceTree.ordered_collect proper listed).1, texts⟩

theorem writes_of_run (proper : d.root.Proper) (surveyed : survey d o bounds = .ok s)
    {summary : Summary} (succeeds : (run d o bounds).outcome = .ok summary) :
    Writes o.output s.outputs d (run d o bounds).disk :=
  write_spec (endsInName_of_mem_outputs proper surveyed) (exists_write_of_run surveyed succeeds).2.1

/-- Where no path is written twice, each file holds what was written to it. -/
theorem holds_of_mem_outputs (proper : d.root.Proper) (surveyed : survey d o bounds = .ok s)
    {summary : Summary} (succeeds : (run d o bounds).outcome = .ok summary) (once : (s.outputs.map (·.1)).Nodup)
    {p : Path} {text : String} (member : (p, text) ∈ s.outputs) :
    (run d o bounds).disk.Holds (o.output.below p.pieces) text := by
  have writes := writes_of_run proper surveyed succeeds
  obtain ⟨a, -, there, -⟩ := writes.placed _ member
  obtain ⟨front, back, cut⟩ := List.append_of_mem member
  refine ⟨a, there, writes.last front _ back cut a there fun g later other => ?_⟩
  have inside : g ∈ s.outputs := by simp [cut, later]
  obtain ⟨above, name, rfl, areNames, -⟩ :=
    cases_of_mem_written proper surveyed (List.mem_map_of_mem member)
  obtain ⟨above', name', same', areNames', -⟩ :=
    cases_of_mem_written proper surveyed (List.mem_map_of_mem inside)
  rw [same'] at other
  have equal : above ++ [name] = above' ++ [name'] :=
    Disk.eq_of_locate_below areNames areNames' there other
  rw [cut, List.map_append, List.map_cons] at once
  have apart := (List.nodup_cons.mp (List.nodup_append.mp once).2.1).1
  exact apart (List.mem_map.mpr ⟨g, later, by rw [same', equal]⟩)

theorem mem_outputs_iff {f : Path × String} : f ∈ s.outputs ↔
    (∃ h ∈ s.headers, s.generated h.1 (Glue.render h.2 (Extraction.ofSource h.2).types) = f) ∨
    (∃ g ∈ s.sources, s.generated g.1 g.2 = f) ∨
    f = (.ofNames [Registration.headerName], (Registration.of s.types).header) ∨
    f = (.ofNames [Registration.sourceName], (Registration.of s.types).source) ∨
    s.configuration.supportHeader ∧ f = (.ofNames [Registration.supportName], Glue.supportHeader) ∨
    s.configuration.metadataJson ∧ f = (.ofNames [metadataName],
      Text.Json.render (.array (s.types.map ScriptType.json)) ++ "\n") := by
  unfold outputs
  simp only [List.mem_append, List.mem_map, List.mem_cons, List.not_mem_nil, or_false,
    Project.registration, types_project, Project.generate, or_assoc]
  cases s.configuration.supportHeader <;> cases s.configuration.metadataJson <;> simp

end Survey

open Survey

/-- A generation that succeeds and writes no path twice leaves on the disk each header with its
includes renamed and its glue behind it, each source with its includes renamed, and the registration
of the types of all headers; it changes nothing else, and counts what it has done. -/
theorem run_mirrors (proper : d.root.Proper) (surveyed : survey d o bounds = .ok s) {summary : Summary}
    (succeeds : (run d o bounds).outcome = .ok summary) (once : summary.written.Nodup)
    (clear : ∀ f ∈ s.headers, ∀ piece ∈ f.1.pieces, '\n' ∉ piece.shown.toList) :
    s.Reads d o ∧ s.Mirrored o d (run d o bounds).disk ∧
      summary =
        { headers := s.headers.length
          sources := s.sources.length
          types := s.types.length
          fields := (s.types.map (·.fields.length)).sum
          diagnostics := (s.headers.map fun h => (Extraction.ofSource h.2).diagnostics.length).sum
          collisions := (Collision.find s.types).length
          written := s.headers.map (·.1.generated) ++ s.sources.map (·.1.generated) ++ s.artifacts } := by
  obtain ⟨-, -, rfl⟩ := exists_write_of_run surveyed succeeds
  have holds {p : Path} {text : String} (member : (p, text) ∈ s.outputs) :=
    holds_of_mem_outputs proper surveyed succeeds once member
  have writes := writes_of_run proper surveyed succeeds
  refine ⟨reads_of_survey proper surveyed, ?_, ?_⟩
  · constructor
    case headers =>
      intro h member
      have words : ∀ t ∈ (Extraction.ofSource h.2).types, t.IsIdentified :=
        fun t inside => (declared_of_mem_ofSource inside).isIdentified
      have clear : ∀ p ∈ s.headers.map (·.1), ∀ piece ∈ p.pieces, '\n' ∉ piece.shown.toList := by
        intro p inside
        obtain ⟨f, header, rfl⟩ := List.mem_map.mp inside
        exact clear f header
      have output := mem_outputs_iff.mpr (.inl ⟨h, member, rfl⟩)
      rw [generated, Glue.render, Include.rewrite_append_glue clear words] at output
      exact (holds output :)
    case sources =>
      intro f member
      have output := mem_outputs_iff.mpr (.inr (.inl ⟨f, member, rfl⟩))
      exact (holds output :)
    case registrationHeader =>
      have output := mem_outputs_iff (s := s).mpr (.inr (.inr (.inl rfl)))
      exact (holds output :)
    case registrationSource =>
      have output := mem_outputs_iff (s := s).mpr (.inr (.inr (.inr (.inl rfl))))
      exact (holds output :)
    case support =>
      intro asked
      have output := mem_outputs_iff.mpr (.inr (.inr (.inr (.inr (.inl ⟨asked, rfl⟩)))))
      exact (holds output :)
    case metadata =>
      intro asked
      have output := mem_outputs_iff.mpr (.inr (.inr (.inr (.inr (.inr ⟨asked, rfl⟩)))))
      exact (holds output :)
    case others =>
      intro address unwritten
      have apart : ∀ f ∈ s.outputs, (run d o bounds).disk.locate (o.output.below f.1.pieces) ≠ .ok address :=
        fun f member => unwritten f.1 (List.mem_map_of_mem member)
      refine (writes.others address apart).imp_right ?_
      rintro ⟨absent, folder, f, member, way⟩
      exact ⟨absent, folder, f.1, List.mem_map_of_mem member, way⟩
  · rw [summary, Summary.mk.injEq]
    refine ⟨rfl, rfl, by rw [types_project], ?_, ?_, ?_, ?_⟩
    · rw [types_project, List.sum_eq_foldl, List.foldl_map]
    · rw [project, Project.length_diagnostics_ofHeaders, List.map_map]
      rfl
    · rw [Project.collisions, types_project]
    · rw [map_outputs, files, List.map_append, List.map_map, List.map_map]
      rfl

def openHeader : String := "UCLASS() class A {};\n#include \""

/-- A project whose header ends in an open directive. -/
def openDisk : Disk :=
  ⟨FileTree.folder "in" (.file "a.h" openHeader.toUTF8
    (.folder "sub" (.file "a.cpp" "#include \"../a.h\"".toUTF8 .empty) .empty)) .empty, []⟩

def openSurvey : Survey :=
  ⟨Options.plain.override .standard, [(.ofNames ["a.h"], openHeader)],
    [(.ofNames ["sub", "a.cpp"], "#include \"../a.h\"")]⟩

theorem run_mirrors_openDisk :
    survey openDisk .plain = .ok openSurvey ∧
    (run openDisk .plain).outcome = .ok openSurvey.summary ∧
    (run openDisk .plain).disk.readText (Path.ofText "out/a.generated.h") =
      .ok (openHeader ++ Glue.text [.declared "A"]) ∧
    (run openDisk .plain).disk.readText (Path.ofText "out/sub/a.generated.cpp") =
      .ok "#include \"../a.generated.h\"" ∧
    openSurvey.summary.types = 1 := by
  have surveyed : survey openDisk .plain = .ok openSurvey := by decide +kernel
  have succeeds : (run openDisk .plain).outcome = .ok openSurvey.summary := by decide +kernel
  have once : openSurvey.summary.written.Nodup := by decide +kernel
  have clear : ∀ f ∈ openSurvey.headers, ∀ piece ∈ f.1.pieces, '\n' ∉ piece.shown.toList := by
    decide +kernel
  obtain ⟨-, mirrored, counts⟩ := run_mirrors (by decide) surveyed succeeds once clear
  have grows := (writes_of_run (by decide) surveyed succeeds).grows
  have open' (a : Address) : (run openDisk .plain).disk.refusal? .read a = none := grows.refusal? .read a
  refine ⟨surveyed, succeeds, ?_, ?_, ?_⟩
  · have header := (mirrored.headers _ (List.mem_singleton_self _)).readText open'
    have path : Options.plain.output.below (Path.ofNames ["a.h"]).generated.pieces =
        Path.ofText "out/a.generated.h" := by decide +kernel
    have kept : Include.rewrite (openSurvey.headers.map (·.1)) openHeader = openHeader := by
      decide +kernel
    have types : (Extraction.ofSource openHeader).types = [.declared "A"] := by decide +kernel
    rw [← path]
    simpa only [types, kept] using header
  · have source := (mirrored.sources _ (List.mem_singleton_self _)).readText open'
    have path : Options.plain.output.below (Path.ofNames ["sub", "a.cpp"]).generated.pieces =
        Path.ofText "out/sub/a.generated.cpp" := by decide +kernel
    have renamed : Include.rewrite (openSurvey.headers.map (·.1)) "#include \"../a.h\"" =
        "#include \"../a.generated.h\"" := by decide +kernel
    rw [← path]
    simpa only [renamed] using source
  · rw [counts]
    decide +kernel

end Generation

end ScriptGlue
