import ScriptGlue.Generation
import ScriptGlue.Proofs.SourceTree
import Mathlib.Data.List.Duplicate

/-!
# What a generation writes

Two files of a project share a generated file only if they are in one folder and their names are shown
alike. The registration has names that generated files can have too. Other paths are not written twice
(`duplicate_written_iff`).
-/

namespace ScriptGlue

namespace Path

theorem generated_scriptsHeader :
    (ofNames ["scripts.h"]).generated = ofNames [Registration.headerName] := by decide

theorem generated_scriptsSource :
    (ofNames ["scripts.cpp"]).generated = ofNames [Registration.sourceName] := by decide

theorem IsNamed.isGenerated_of_eq {p : Path} (named : p.IsNamed) {text : String}
    (same : p.generated = .ofNames [.ofText text]) : (FileName.of text).isGenerated := by
  obtain ⟨name, extension, -, ends, rfl⟩ := named.of_generated_eq same
  exact FileName.isGenerated_of_generated ends

end Path

namespace Generation

/-! ### The survey of a run -/

variable {d : Disk} {o : Options} {bounds : Include.Bounds}

theorem exists_survey_of_run {summary : Summary} (succeeds : (run d o bounds).outcome = .ok summary) :
    ∃ s, survey d o bounds = .ok s ∧ summary = s.summary := by
  unfold run at succeeds
  split at succeeds
  · exact nomatch succeeds
  · rename_i s surveyed
    split at succeeds
    · exact nomatch succeeds
    · split at succeeds
      · exact nomatch succeeds
      · exact ⟨s, surveyed, (Except.ok.inj succeeds).symm⟩

theorem mapM_readSource_eq_ok_iff {input : Path} {files : List Path} {read : List (Path × String)} :
    files.mapM (readSource d input) = .ok read ↔
      files = read.map (·.1) ∧ ∀ f ∈ read, d.readText (input.below f.1.pieces) = .ok f.2 := by
  have each (file : Path) (f : Path × String) : readSource d input file = .ok f ↔
      file = f.1 ∧ d.readText (input.below f.1.pieces) = .ok f.2 := by
    simp only [readSource]
    split
    · rename_i text read
      constructor
      · intro ok
        obtain rfl := Except.ok.inj ok
        exact ⟨rfl, read⟩
      · rintro ⟨rfl, same⟩
        rw [Except.ok.inj (read.symm.trans same)]
    · rename_i failure unread
      constructor
      · intro impossible
        exact nomatch impossible
      · rintro ⟨rfl, same⟩
        exact nomatch unread.symm.trans same
  rw [mapM_eq_ok_iff]
  simp only [each]
  induction files generalizing read with
  | nil => cases read <;> simp
  | cons file files ih =>
    cases read with
    | nil => simp
    | cons f read =>
      simp only [List.forall₂_cons, ih, List.map_cons, List.forall_mem_cons, List.cons.injEq]
      tauto

theorem survey_eq_ok_iff {s : Survey} : survey d o bounds = .ok s ↔
    d.isFolder o.input ∧ (∃ c, o.project d = .ok c ∧ s.configuration = o.override c) ∧
      SourceTree.collect d o.input s.configuration (some o.output) =
        .ok ⟨s.headers.map (·.1), s.sources.map (·.1)⟩ ∧
      Include.setUp bounds (s.headers.map (·.1)) = .ok () ∧
      ∀ f ∈ s.headers ++ s.sources, d.readText (o.input.below f.1.pieces) = .ok f.2 := by
  simp only [survey, List.forall_mem_append]
  cases folder : d.isFolder o.input with
  | false => simp [throw, throwThe, MonadExceptOf.throw, bind, Except.bind]
  | true =>
    simp only [↓reduceIte, bind_eq_ok_iff, pure_eq_ok_iff, mapError_eq_ok_iff,
      mapM_readSource_eq_ok_iff, true_and]
    constructor
    · rintro ⟨c, project, ⟨_, _⟩, collected, _, bounded, headers, ⟨rfl, readHeaders⟩, sources,
        ⟨rfl, readSources⟩, rfl⟩
      exact ⟨⟨c, project, rfl⟩, collected, bounded, readHeaders, readSources⟩
    · obtain ⟨configuration, headers, sources⟩ := s
      rintro ⟨⟨c, project, rfl⟩, collected, bounded, readHeaders, readSources⟩
      exact ⟨c, project, _, collected, _, bounded, headers, ⟨rfl, readHeaders⟩, sources,
        ⟨rfl, readSources⟩, rfl⟩

/-! ### The files that are read and written -/

namespace Survey

def files (s : Survey) : List Path := s.headers.map (·.1) ++ s.sources.map (·.1)

/-- The paths of the files that are written once for the whole project. -/
def artifacts (s : Survey) : List Path :=
  [.ofNames [Registration.headerName], .ofNames [Registration.sourceName]]
    ++ (if s.configuration.supportHeader then [.ofNames [Registration.supportName]] else [])
    ++ if s.configuration.metadataJson then [.ofNames [metadataName]] else []

variable {s : Survey}

theorem map_outputs : s.outputs.map (·.1) = s.files.map Path.generated ++ s.artifacts := by
  unfold outputs files artifacts generated
  cases s.configuration.supportHeader <;> cases s.configuration.metadataJson <;>
    simp [Function.comp_def]

theorem nodup_artifacts (s : Survey) : s.artifacts.Nodup := by
  unfold artifacts
  cases s.configuration.supportHeader <;> cases s.configuration.metadataJson <;> decide

theorem mem_artifacts_iff {p : Path} : p ∈ s.artifacts ↔
    p = .ofNames [Registration.headerName] ∨ p = .ofNames [Registration.sourceName] ∨
      s.configuration.supportHeader ∧ p = .ofNames [Registration.supportName] ∨
      s.configuration.metadataJson ∧ p = .ofNames [metadataName] := by
  unfold artifacts
  cases s.configuration.supportHeader <;> cases s.configuration.metadataJson <;> simp

theorem mem_artifacts {p : Path} (member : p ∈ s.artifacts) :
    p = .ofNames [Registration.headerName] ∨ p = .ofNames [Registration.sourceName] ∨
      ∃ name : String, p = .ofNames [name] ∧ ¬(FileName.of name).isGenerated := by
  rcases mem_artifacts_iff.mp member with rfl | rfl | ⟨-, rfl⟩ | ⟨-, rfl⟩
  · exact .inl rfl
  · exact .inr (.inl rfl)
  · exact .inr (.inr ⟨_, rfl, by decide⟩)
  · exact .inr (.inr ⟨_, rfl, by decide⟩)

theorem exists_collect_of_survey (surveyed : survey d o bounds = .ok s) :
    ∃ tree, SourceTree.collect d o.input s.configuration (some o.output) = .ok tree ∧
      s.files = tree.headers ++ tree.sources := by
  obtain ⟨-, -, collected, -⟩ := survey_eq_ok_iff.mp surveyed
  exact ⟨_, collected, rfl⟩

theorem nodup_files (proper : d.root.Proper) (surveyed : survey d o bounds = .ok s) : s.files.Nodup := by
  obtain ⟨tree, collected, same⟩ := exists_collect_of_survey surveyed
  rw [same]
  exact SourceTree.nodup_collect proper collected

theorem named_of_mem_files (proper : d.root.Proper) (surveyed : survey d o bounds = .ok s) {p : Path}
    (member : p ∈ s.files) : p.IsNamed := by
  obtain ⟨tree, collected, same⟩ := exists_collect_of_survey surveyed
  rw [same] at member
  exact SourceTree.named_of_mem_collect proper collected member

theorem exists_name_of_mem_artifacts {p : Path} (member : p ∈ s.artifacts) :
    ∃ name, p = .ofNames [name] ∧ Path.IsName name ∧ name ≠ .ofText configurationName := by
  rcases mem_artifacts_iff.mp member with rfl | rfl | ⟨-, rfl⟩ | ⟨-, rfl⟩
  · exact ⟨_, rfl, by decide, by decide⟩
  · exact ⟨_, rfl, by decide, by decide⟩
  · exact ⟨_, rfl, by decide, by decide⟩
  · exact ⟨_, rfl, by decide, by decide⟩

/-- A written path is that of a generated file beside one that is read, or that of an artifact. -/
theorem cases_of_mem_written (proper : d.root.Proper) (surveyed : survey d o bounds = .ok s) {p : Path}
    (member : p ∈ s.outputs.map (·.1)) :
    ∃ above name, p = .ofNames (above ++ [name]) ∧ (∀ n ∈ above ++ [name], Path.IsName n) ∧
      name ≠ .ofText configurationName ∧
      ((∃ own, .ofNames (above ++ [own]) ∈ s.files ∧ (FileName.of name).isGenerated) ∨
        above = [] ∧ p ∈ s.artifacts) := by
  rw [map_outputs] at member
  rcases List.mem_append.mp member with mirrored | artifact
  · obtain ⟨file, inside, rfl⟩ := List.mem_map.mp mirrored
    obtain ⟨above, own, extension, rfl, areNames, ends⟩ := named_of_mem_files proper surveyed inside
    obtain ⟨others, last⟩ := List.forall_mem_append.mp areNames
    have generated := FileName.isGenerated_of_generated ends
    refine ⟨above, _, Path.generated_ofNames areNames, ?_, ?_, .inl ⟨own, inside, generated⟩⟩
    · refine List.forall_mem_append.mpr ⟨others, fun n member => ?_⟩
      obtain rfl := List.mem_singleton.mp member
      exact (last own (List.mem_singleton_self own)).generated ends
    · intro same
      rw [same] at generated
      exact absurd generated (by decide)
  · obtain ⟨name, rfl, isName, other⟩ := exists_name_of_mem_artifacts artifact
    exact ⟨[], name, rfl, by simpa using isName, other, .inr ⟨rfl, artifact⟩⟩

end Survey

/-! ### What is written twice -/

theorem duplicate_append_iff {paths others : List Path} (once : others.Nodup) {p : Path} :
    List.Duplicate p (paths ++ others) ↔ List.Duplicate p paths ∨ p ∈ paths ∧ p ∈ others := by
  have one := List.nodup_iff_count_le_one.mp once p
  rw [List.duplicate_iff_two_le_count, List.duplicate_iff_two_le_count, List.count_append,
    ← List.count_pos_iff, ← List.count_pos_iff]
  omega

theorem duplicate_map_iff {files : List Path} (once : files.Nodup) (f : Path → Path) {p : Path} :
    List.Duplicate p (files.map f) ↔ ∃ file ∈ files, ∃ twin ∈ files, file ≠ twin ∧ f file = p ∧ f twin = p := by
  induction files with
  | nil => simp
  | cons first files ih =>
    obtain ⟨apart, once⟩ := List.nodup_cons.mp once
    rw [List.map_cons, List.duplicate_cons_iff, ih once]
    constructor
    · rintro (⟨rfl, member⟩ | ⟨file, inside, twin, twinInside, differ, same, twinSame⟩)
      · obtain ⟨twin, inside, same⟩ := List.mem_map.mp member
        exact ⟨first, List.mem_cons_self, twin, List.mem_cons_of_mem first inside,
          fun equal => apart (equal ▸ inside), rfl, same⟩
      · exact ⟨file, List.mem_cons_of_mem first inside, twin, List.mem_cons_of_mem first twinInside,
          differ, same, twinSame⟩
    · rintro ⟨file, inside, twin, twinInside, differ, rfl, same⟩
      rcases List.mem_cons.mp inside with rfl | later <;>
        rcases List.mem_cons.mp twinInside with rfl | twinLater
      · exact absurd rfl differ
      · exact .inl ⟨rfl, List.mem_map.mpr ⟨twin, twinLater, same⟩⟩
      · exact .inl ⟨same, List.mem_map_of_mem later⟩
      · exact .inr ⟨file, later, twin, twinLater, differ, rfl, same⟩

theorem duplicate_generated_iff (proper : d.root.Proper) {s : Survey}
    (surveyed : survey d o bounds = .ok s) {p : Path} :
    List.Duplicate p (s.files.map Path.generated) ↔ ∃ above name twin,
      .ofNames (above ++ [name]) ∈ s.files ∧ .ofNames (above ++ [twin]) ∈ s.files ∧
        name ≠ twin ∧ name.shown = twin.shown ∧ p = (Path.ofNames (above ++ [name])).generated := by
  rw [duplicate_map_iff (Survey.nodup_files proper surveyed)]
  constructor
  · rintro ⟨file, inside, twin, twinInside, differ, rfl, same⟩
    obtain ⟨above, name, extension, rfl, areNames, ends⟩ :=
      Survey.named_of_mem_files proper surveyed inside
    obtain ⟨other, twin, twinExtension, rfl, twinNames, twinEnds⟩ :=
      Survey.named_of_mem_files proper surveyed twinInside
    obtain ⟨rfl, shown⟩ := (Path.generated_ofNames_eq_iff areNames ends twinNames twinEnds).mp same.symm
    exact ⟨above, name, twin, inside, twinInside, fun equal => differ (equal ▸ rfl), shown, rfl⟩
  · rintro ⟨above, name, twin, inside, twinInside, differ, shown, rfl⟩
    have ends {n : OsText} (member : .ofNames (above ++ [n]) ∈ s.files) :
        ∃ extension, (∀ m ∈ above ++ [n], Path.IsName m) ∧
          (FileName.of n).extension? = some extension := by
      obtain ⟨others, own, extension, same, areNames, ends⟩ :=
        Survey.named_of_mem_files proper surveyed member
      obtain ⟨rfl, last⟩ := List.append_inj' (Path.mk.inj same).2 rfl
      obtain rfl := (List.cons.inj last).1
      exact ⟨extension, areNames, ends⟩
    obtain ⟨extension, areNames, nameEnds⟩ := ends inside
    obtain ⟨twinExtension, twinNames, twinEnds⟩ := ends twinInside
    refine ⟨_, inside, _, twinInside, fun same => differ ?_, rfl, ?_⟩
    · exact (List.cons.inj (List.append_cancel_left (Path.mk.inj same).2)).1
    · exact (Path.generated_ofNames_eq_iff twinNames twinEnds areNames nameEnds).mpr ⟨rfl, shown.symm⟩

/-- A successful generation writes a path twice only where a file at the root of the project has
the name that the registration is generated from, and where two names in one folder differ in what is no
text. -/
theorem duplicate_written_iff (proper : d.root.Proper) {summary : Summary}
    (succeeds : (run d o bounds).outcome = .ok summary) :
    ∃ s, survey d o bounds = .ok s ∧ ∀ p, List.Duplicate p summary.written ↔
      p = .ofNames [Registration.headerName] ∧ .ofNames ["scripts.h"] ∈ s.files ∨
      p = .ofNames [Registration.sourceName] ∧ .ofNames ["scripts.cpp"] ∈ s.files ∨
      ∃ above name twin, .ofNames (above ++ [name]) ∈ s.files ∧ .ofNames (above ++ [twin]) ∈ s.files ∧
        name ≠ twin ∧ name.shown = twin.shown ∧ p = (Path.ofNames (above ++ [name])).generated := by
  obtain ⟨s, surveyed, rfl⟩ := exists_survey_of_run succeeds
  refine ⟨s, surveyed, fun p => ?_⟩
  have named : ∀ file ∈ s.files, file.IsNamed :=
    fun _ member => Survey.named_of_mem_files proper surveyed member
  have header : .ofNames [Registration.headerName] ∈ s.files.map Path.generated ↔
      .ofNames ["scripts.h"] ∈ s.files := by
    rw [← Path.generated_scriptsHeader]
    have ends : (FileName.of "scripts.h").extension? = some (.ofText "h") := by decide
    have areNames : ∀ n ∈ [] ++ [.ofText "scripts.h"], Path.IsName n := by decide
    exact Path.IsNamed.mem_map_generated_iff named areNames ends (by decide)
  have source : .ofNames [Registration.sourceName] ∈ s.files.map Path.generated ↔
      .ofNames ["scripts.cpp"] ∈ s.files := by
    rw [← Path.generated_scriptsSource]
    have ends : (FileName.of "scripts.cpp").extension? = some (.ofText "cpp") := by decide
    have areNames : ∀ n ∈ [] ++ [.ofText "scripts.cpp"], Path.IsName n := by decide
    exact Path.IsNamed.mem_map_generated_iff named areNames ends (by decide)
  have written : s.summary.written = s.files.map Path.generated ++ s.artifacts := Survey.map_outputs
  -- Artifacts are without repetition.
  rw [written, duplicate_append_iff s.nodup_artifacts, duplicate_generated_iff proper surveyed,
    or_comm, ← or_assoc]
  refine or_congr_left ?_
  constructor
  · rintro ⟨mirrored, artifact⟩
    rcases Survey.mem_artifacts artifact with rfl | rfl | ⟨name, rfl, unmarked⟩
    · exact .inl ⟨rfl, header.mp mirrored⟩
    · exact .inr ⟨rfl, source.mp mirrored⟩
    · obtain ⟨file, member, same⟩ := List.mem_map.mp mirrored
      exact absurd ((named file member).isGenerated_of_eq same) unmarked
  · rintro (⟨rfl, member⟩ | ⟨rfl, member⟩)
    · exact ⟨header.mpr member, by simp [Survey.artifacts]⟩
    · exact ⟨source.mpr member, by simp [Survey.artifacts]⟩

/-- A generation from `in` into `out` that leaves out what it can. -/
def Options.plain : Options := ⟨.ofText "in", .ofText "out", none, false, true, false⟩

/-- The name of a header, but for a byte that is no text. -/
def strayName (b : UInt8) : OsText := ⟨[b, 0x2e, 0x68]⟩

/-- A project of two files with the names that the registration is generated from, and of two headers whose
names are shown alike. Only the headers are at the root. -/
def namesakeProject : FileTree :=
  .file "scripts.h" .empty (.file (strayName 0xe8) .empty (.file (strayName 0xe9) .empty
    (.folder "sub" (.file "scripts.cpp" .empty .empty) .empty)))

def namesakeDisk : Disk := ⟨FileTree.folder "in" namesakeProject .empty, []⟩

/-- The survey of this project. No file holds a declaration. -/
def namesakeSurvey : Survey :=
  ⟨Options.plain.override .standard,
    [(.ofNames ["scripts.h"], ""), (.ofNames [strayName 0xe8], ""), (.ofNames [strayName 0xe9], "")],
    [(.ofNames ["sub", "scripts.cpp"], "")]⟩

def namesakeSummary : Summary :=
  ⟨3, 1, 0, 0, 0, 0, [.ofNames ["scripts.generated.h"], .ofNames ["\uFFFD.generated.h"],
    .ofNames ["\uFFFD.generated.h"], .ofNames ["sub", "scripts.generated.cpp"],
    .ofNames ["scripts.generated.h"], .ofNames ["scripts.generated.cpp"]]⟩

theorem setUp_none (headers : List Path) : Include.setUp .none headers = .ok () := by
  unfold Include.setUp
  split
  · rfl
  · rfl

theorem survey_namesakeDisk : survey namesakeDisk .plain = .ok namesakeSurvey := by
  have located : namesakeDisk.locate Options.plain.input = .ok ["in"] := by decide +kernel
  have folder : namesakeDisk.folder ["in"] = .ok namesakeProject := Disk.folder_eq_ok_iff.mpr rfl
  have walked : SourceTree.walk namesakeDisk namesakeSurvey.configuration
      (SourceTree.skipped namesakeDisk (some Options.plain.output)) Options.plain.input ["in"] []
      namesakeProject = .ok [([.ofText "scripts.h"], .header), ([strayName 0xe8], .header),
        ([strayName 0xe9], .header), ([.ofText "sub", .ofText "scripts.cpp"], .source)] := by decide +kernel
  have collected := SourceTree.collect_of_walk located folder rfl walked
  rw [SourceTree.sorted_of_pairwise (by decide), SourceTree.sorted_of_pairwise (by decide)] at collected
  exact survey_eq_ok_iff.mpr ⟨by decide +kernel, ⟨.standard, by decide +kernel, rfl⟩, collected,
    setUp_none _, by decide +kernel⟩

theorem run_namesakeDisk : (run namesakeDisk .plain).outcome = .ok namesakeSummary := by
  unfold run
  rw [survey_namesakeDisk]
  decide +kernel

theorem cases_of_mem_namesakeFiles {above : Address} {name : OsText}
    (member : .ofNames (above ++ [name]) ∈ namesakeSurvey.files) :
    above = [] ∧ (name = "scripts.h" ∨ name = strayName 0xe8 ∨ name = strayName 0xe9) ∨
      above = [.ofText "sub"] ∧ name = "scripts.cpp" := by
  have cut (front : Address) {own : OsText} (same : Path.ofNames (above ++ [name]) = .ofNames (front ++ [own])) :
      above = front ∧ name = own := by
    obtain ⟨ways, last⟩ := List.append_inj' (Path.mk.inj same).2 rfl
    exact ⟨ways, (List.cons.inj last).1⟩
  simp only [Survey.files, namesakeSurvey, List.map_cons, List.map_nil, List.cons_append, List.nil_append,
    List.mem_cons, List.not_mem_nil, or_false] at member
  rcases member with same | same | same | same
  · obtain ⟨rfl, rfl⟩ := cut [] same
    simp
  · obtain ⟨rfl, rfl⟩ := cut [] same
    simp
  · obtain ⟨rfl, rfl⟩ := cut [] same
    simp
  · obtain ⟨rfl, rfl⟩ := cut [.ofText "sub"] same
    simp

theorem duplicate_written_iff_namesakes :
    namesakeDisk.root.Proper ∧ (run namesakeDisk .plain).outcome = .ok namesakeSummary ∧
      ∀ p, List.Duplicate p namesakeSummary.written ↔
        p = .ofNames [Registration.headerName] ∨ p = .ofNames ["\uFFFD.generated.h"] := by
  have proper : namesakeDisk.root.Proper := by decide
  obtain ⟨s, surveyed, twice⟩ := duplicate_written_iff proper run_namesakeDisk
  obtain rfl := Except.ok.inj (survey_namesakeDisk.symm.trans surveyed)
  have header : Path.ofNames ["scripts.h"] ∈ namesakeSurvey.files := by decide
  have noSource : Path.ofNames ["scripts.cpp"] ∉ namesakeSurvey.files := by decide
  have first : Path.ofNames ([] ++ [strayName 0xe8]) ∈ namesakeSurvey.files := by decide
  have second : Path.ofNames ([] ++ [strayName 0xe9]) ∈ namesakeSurvey.files := by decide
  have shared : (Path.ofNames ([] ++ [strayName 0xe8])).generated = .ofNames ["\uFFFD.generated.h"] := by
    decide +kernel
  have sharedToo : (Path.ofNames ([] ++ [strayName 0xe9])).generated = .ofNames ["\uFFFD.generated.h"] := by
    decide +kernel
  have other : OsText.shown "scripts.h" ≠ (strayName 0xe8).shown := by decide +kernel
  have otherToo : OsText.shown "scripts.h" ≠ (strayName 0xe9).shown := by decide +kernel
  refine ⟨proper, run_namesakeDisk, fun p => ?_⟩
  simp only [twice, header, noSource, and_true, and_false, false_or]
  refine or_congr_right ⟨?_, ?_⟩
  · rintro ⟨above, name, twin, inside, twinInside, differ, shown, rfl⟩
    rcases cases_of_mem_namesakeFiles inside with ⟨rfl, rfl | rfl | rfl⟩ | ⟨rfl, rfl⟩
    · rcases cases_of_mem_namesakeFiles twinInside with ⟨-, rfl | rfl | rfl⟩ | ⟨empty, -⟩
      · exact absurd rfl differ
      · exact absurd shown other
      · exact absurd shown otherToo
      · exact nomatch empty
    · exact shared
    · exact sharedToo
    · rcases cases_of_mem_namesakeFiles twinInside with ⟨some, -⟩ | ⟨-, rfl⟩
      · exact nomatch some
      · exact absurd rfl differ
  · rintro rfl
    exact ⟨[], strayName 0xe8, strayName 0xe9, first, second, by decide, by decide +kernel, shared.symm⟩

theorem written_twice_namesakeHeader :
    namesakeDisk.root.Proper ∧ ∃ summary, (run namesakeDisk .plain).outcome = .ok summary ∧
      ¬summary.written.Nodup :=
  ⟨by decide, namesakeSummary, run_namesakeDisk, by decide⟩

end Generation

end ScriptGlue
