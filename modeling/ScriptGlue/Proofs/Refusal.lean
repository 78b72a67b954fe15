import ScriptGlue.Proofs.Mirror

/-!
# Generations that fail

A generation reads all that it needs before it writes. One that fails while it reads, or over the
collisions that it has found, leaves the disk as it was; it does so exactly where something is in its way
(`run_refused`).
-/

namespace ScriptGlue.Generation

/-- A folder could not be made, or a file not be written. -/
def Failure.IsWriting : Failure → Prop
  | makeFolder _ _ => True
  | write _ _ => True
  | _ => False

variable {d : Disk} {o : Options} {bounds : Include.Bounds} {f : Failure}

/-! ### What can be in the way -/

/-- A file that is no configuration: it cannot be read, or its text is malformed or sets what is invalid. -/
inductive Unusable (d : Disk) (file : Path) : ConfigurationFailure → Prop
  | unread {e : DiskError} (unread : d.readText file = .error e) : Unusable d file (.unread e)
  | refused {text : String} {e : Configuration.TextError} (read : d.readText file = .ok text)
      (refused : Configuration.ofText text = .error e) : Unusable d file (.refused e)

/-- The headers of a project under a configuration, in order, each with its text. -/
def AreHeaders (d : Disk) (o : Options) (c : Configuration) (headers : List (Path × String)) : Prop :=
  ∃ tree, SourceTree.collect d o.input (o.override c) (some o.output) = .ok tree ∧
    tree.headers = headers.map (·.1) ∧ ∀ h ∈ headers, d.readText (o.input.below h.1.pieces) = .ok h.2

def typesOf (headers : List (Path × String)) : List ScriptType :=
  headers.flatMap fun h => (Extraction.ofSource h.2).types

/-- What keeps a generation from writing, by the failure that tells it. -/
inductive Obstacle (d : Disk) (o : Options) (bounds : Include.Bounds) : Failure → Prop
  | input (missing : ¬d.isFolder o.input) : Obstacle d o bounds (.noInput o.input)
  /-- The configuration that was asked for. -/
  | asked {file : Path} {cause : ConfigurationFailure} (asked : o.configuration? = some file)
      (unusable : Unusable d file cause) : Obstacle d o bounds (.configuration (some file) cause)
  /-- The configuration in the project. -/
  | own {cause : ConfigurationFailure} (unasked : o.configuration? = none)
      (present : d.isFile (o.input.below [.ofText configurationName]))
      (unusable : Unusable d (o.input.below [.ofText configurationName]) cause) :
      Obstacle d o bounds (.configuration none cause)
  /-- A folder that may not be listed, or an entry that the listing breaks off at. -/
  | walk {c : Configuration} {e : DiskError} (project : o.project d = .ok c)
      (stuck : SourceTree.collect d o.input (o.override c) (some o.output) = .error e) :
      Obstacle d o bounds (.walk o.input e)
  /-- The search for includes, where there are headers. -/
  | pattern {c : Configuration} {tree : SourceTree} {cause : String} (project : o.project d = .ok c)
      (collected : SourceTree.collect d o.input (o.override c) (some o.output) = .ok tree)
      (searched : Include.targets tree.headers ≠ []) (bounded : bounds (Include.targets tree.headers) = some cause) :
      Obstacle d o bounds (.pattern cause)
  /-- A header or a source that is no text, cannot be looked up or may not be read. -/
  | file {c : Configuration} {tree : SourceTree} {p : Path} {e : DiskError} (project : o.project d = .ok c)
      (collected : SourceTree.collect d o.input (o.override c) (some o.output) = .ok tree)
      (listed : p ∈ tree.headers ++ tree.sources)
      (unread : d.readText (o.input.below p.pieces) = .error e) :
      Obstacle d o bounds (.read (o.input.below p.pieces) e)
  | collisions {c : Configuration} {headers : List (Path × String)} (project : o.project d = .ok c)
      (read : AreHeaders d o c headers) (denied : o.denyCollisions ∨ c.denyCollisions)
      (some : Collision.find (typesOf headers) ≠ []) :
      Obstacle d o bounds (.collisions (Collision.find (typesOf headers)))

theorem Obstacle.not_isWriting (obstacle : Obstacle d o bounds f) : ¬f.IsWriting := by
  cases obstacle <;> exact id

/-! ### Reading -/

theorem readConfiguration_eq_error_iff {file : Path} {cause : ConfigurationFailure} :
    readConfiguration d file = .error cause ↔ Unusable d file cause := by
  unfold readConfiguration
  constructor
  · intro failed
    split at failed
    · rename_i e unread
      obtain rfl := Except.error.inj failed
      exact .unread unread
    · rename_i text read
      cases refused : Configuration.ofText text with
      | error e =>
        rw [refused] at failed
        obtain rfl := Except.error.inj failed
        exact .refused read refused
      | ok c =>
        rw [refused] at failed
        exact nomatch failed
  · rintro (unread | ⟨read, refused⟩)
    · simp only [unread]
    · simp only [read, refused, Except.mapError]

theorem setUp_eq_error_iff {headers : List Path} {cause : String} :
    Include.setUp bounds headers = .error cause ↔
      Include.targets headers ≠ [] ∧ bounds (Include.targets headers) = some cause := by
  unfold Include.setUp
  split
  · rename_i none
    simp [none]
  · rename_i some
    cases bounds (Include.targets headers) <;> simp [some]

theorem obstacle_of_project (failed : o.project d = .error f) : Obstacle d o bounds f := by
  unfold Options.project at failed
  split at failed
  · rename_i file asked
    obtain ⟨cause, unusable, rfl⟩ := mapError_eq_error_iff.mp failed
    exact .asked asked (readConfiguration_eq_error_iff.mp unusable)
  · rename_i unasked
    dsimp only at failed
    split at failed
    · rename_i present
      obtain ⟨cause, unusable, rfl⟩ := mapError_eq_error_iff.mp failed
      exact .own unasked present (readConfiguration_eq_error_iff.mp unusable)
    · exact nomatch failed

theorem exists_unread {input : Path} {files : List Path}
    (failed : files.mapM (readSource d input) = .error f) : ∃ p ∈ files, ∃ e,
      d.readText (input.below p.pieces) = .error e ∧ f = .read (input.below p.pieces) e := by
  obtain ⟨p, listed, failed⟩ := exists_of_mapM_eq_error failed
  simp only [readSource] at failed
  split at failed
  · cases failed
  · rename_i e unread
    exact ⟨p, listed, e, unread, (Except.error.inj failed).symm⟩

theorem obstacle_of_survey (failed : survey d o bounds = .error f) : Obstacle d o bounds f := by
  -- The steps of a survey in turn: each fails over what stands in its way, or leads to the next.
  unfold survey at failed
  cases folder : d.isFolder o.input with
  | false =>
    rw [folder] at failed
    obtain rfl := Except.error.inj failed
    exact .input (by simp [folder])
  | true =>
    rw [folder] at failed
    simp only [↓reduceIte] at failed
    rcases bind_eq_error_iff.mp failed with failed | ⟨c, project, failed⟩
    · exact obstacle_of_project failed
    rcases bind_eq_error_iff.mp failed with failed | ⟨tree, collected, failed⟩
    · obtain ⟨e, stuck, rfl⟩ := mapError_eq_error_iff.mp failed
      exact .walk project stuck
    have collected := mapError_eq_ok_iff.mp collected
    rcases bind_eq_error_iff.mp failed with failed | ⟨_, -, failed⟩
    · obtain ⟨cause, refused, rfl⟩ := mapError_eq_error_iff.mp failed
      obtain ⟨some, bounded⟩ := setUp_eq_error_iff.mp refused
      exact .pattern project collected some bounded
    rcases bind_eq_error_iff.mp failed with failed | ⟨headers, -, failed⟩
    · obtain ⟨p, listed, e, unread, rfl⟩ := exists_unread failed
      exact .file project collected (List.mem_append_left _ listed) unread
    rcases bind_eq_error_iff.mp failed with failed | ⟨sources, -, failed⟩
    · obtain ⟨p, listed, e, unread, rfl⟩ := exists_unread failed
      exact .file project collected (List.mem_append_right _ listed) unread
    exact nomatch failed

variable {s : Survey}

theorem areHeaders_of_survey (surveyed : survey d o bounds = .ok s) :
    ∃ c, o.project d = .ok c ∧ s.configuration = o.override c ∧ AreHeaders d o c s.headers := by
  obtain ⟨-, ⟨c, project, configuration⟩, collected, -, texts⟩ := survey_eq_ok_iff.mp surveyed
  refine ⟨c, project, configuration, _, configuration ▸ collected, rfl, fun h member => ?_⟩
  exact texts h (List.mem_append_left _ member)

theorem AreHeaders.unique {c : Configuration} {headers headers' : List (Path × String)}
    (one : AreHeaders d o c headers) (other : AreHeaders d o c headers') : headers = headers' := by
  obtain ⟨tree, collected, files, texts⟩ := one
  obtain ⟨tree', collected', files', texts'⟩ := other
  obtain rfl := Except.ok.inj (collected.symm.trans collected')
  have read := mapM_readSource_eq_ok_iff.mpr ⟨files, texts⟩
  have read' := mapM_readSource_eq_ok_iff.mpr ⟨files', texts'⟩
  exact Except.ok.inj (read.symm.trans read')

theorem refusal?_eq_some_iff : s.refusal? = some f ↔ s.configuration.denyCollisions ∧
    Collision.find s.types ≠ [] ∧ f = .collisions (Collision.find s.types) := by
  have found : s.project.collisions = Collision.find s.types := by
    rw [Project.collisions, Survey.types_project]
  unfold Survey.refusal?
  rw [found]
  cases s.configuration.denyCollisions <;> cases Collision.find s.types <;> simp [eq_comm]

theorem obstacle_of_refusal (surveyed : survey d o bounds = .ok s) (refused : s.refusal? = some f) :
    Obstacle d o bounds f := by
  obtain ⟨c, project, configuration, headers⟩ := areHeaders_of_survey surveyed
  obtain ⟨denied, some, rfl⟩ := refusal?_eq_some_iff.mp refused
  rw [configuration] at denied
  exact .collisions project headers (Bool.or_eq_true_iff.mp denied).symm some

/-- Where something is in the way of a generation that has read all, it is a collision. -/
theorem refusal_of_obstacle (obstacle : Obstacle d o bounds f) (surveyed : survey d o bounds = .ok s) :
    s.refusal? = some f := by
  obtain ⟨c, project, configuration, headers⟩ := areHeaders_of_survey surveyed
  obtain ⟨folder, -, collected, ready, texts⟩ := survey_eq_ok_iff.mp surveyed
  -- Each obstacle but the last is at odds with what has been read.
  cases obstacle with
  | input missing => exact absurd folder missing
  | asked asked unusable =>
    simp [Options.project, asked, readConfiguration_eq_error_iff.mpr unusable, Except.mapError] at project
  | own unasked present unusable =>
    simp [Options.project, unasked, present, readConfiguration_eq_error_iff.mpr unusable,
      Except.mapError] at project
  | walk project' stuck =>
    obtain rfl := Except.ok.inj (project.symm.trans project')
    rw [← configuration, collected] at stuck
    exact nomatch stuck
  | pattern project' collected' some bounded =>
    obtain rfl := Except.ok.inj (project.symm.trans project')
    rw [← configuration, collected] at collected'
    obtain rfl := Except.ok.inj collected'
    exact nomatch ready.symm.trans (setUp_eq_error_iff.mpr ⟨some, bounded⟩)
  | file project' collected' listed unread =>
    obtain rfl := Except.ok.inj (project.symm.trans project')
    rw [← configuration, collected] at collected'
    obtain rfl := Except.ok.inj collected'
    rw [← List.map_append] at listed
    obtain ⟨read, member, rfl⟩ := List.mem_map.mp listed
    exact nomatch (texts read member).symm.trans unread
  | collisions project' read denied some =>
    obtain rfl := Except.ok.inj (project.symm.trans project')
    obtain rfl := headers.unique read
    refine refusal?_eq_some_iff.mpr ⟨?_, some, rfl⟩
    rw [configuration]
    exact Bool.or_eq_true_iff.mpr denied.symm

/-! ### Writing -/

theorem isWriting_of_writeFile {d' : Disk} {file : Path} {text : String}
    (failed : writeFile d file text = .error (f, d')) : f.IsWriting := by
  rcases bind_eq_error_iff.mp failed with folders | ⟨_, -, unwritten⟩
  · obtain ⟨_, -, same⟩ := mapError_eq_error_iff.mp folders
    obtain ⟨rfl, -⟩ := Prod.mk.inj same
    trivial
  · obtain ⟨_, -, same⟩ := mapError_eq_error_iff.mp unwritten
    obtain ⟨rfl, -⟩ := Prod.mk.inj same
    trivial

theorem isWriting_of_write {output : Path} {files : List (Path × String)} {d' : Disk}
    (failed : write output d files = .error (f, d')) : f.IsWriting := by
  induction files generalizing d with
  | nil => exact nomatch failed
  | cons file files ih =>
    rw [write, List.foldlM_cons] at failed
    rcases bind_eq_error_iff.mp failed with here | ⟨_, -, later⟩
    · exact isWriting_of_writeFile here
    · exact ih later

/-! ### Running -/

/-- A generation meets an obstacle and leaves the disk alone, or it has read all and begins to write. -/
theorem run_cases (d : Disk) (o : Options) (bounds : Include.Bounds) :
    (∃ f, Obstacle d o bounds f ∧ (run d o bounds).outcome = .error f ∧ (run d o bounds).disk = d) ∨
      ∃ s, survey d o bounds = .ok s ∧ s.refusal? = none ∧
        ((∃ f, f.IsWriting ∧ (run d o bounds).outcome = .error f) ∨ (run d o bounds).outcome = .ok s.summary) := by
  unfold run
  cases surveyed : survey d o bounds with
  | error f => exact .inl ⟨f, obstacle_of_survey surveyed, rfl, rfl⟩
  | ok s =>
    dsimp only
    cases refused : s.refusal? with
    | some f => exact .inl ⟨f, obstacle_of_refusal surveyed refused, rfl, rfl⟩
    | none =>
      refine .inr ⟨s, rfl, refused, ?_⟩
      dsimp only
      cases written : write o.output d s.outputs with
      | error failure => exact .inl ⟨failure.1, isWriting_of_write written, rfl⟩
      | ok d' => exact .inr rfl

/-- A generation that fails other than in writing leaves the disk as it was, and tells what is in its way.
Wherever something is in its way it fails so. One that succeeds where collisions are denied has found none
among the types of all headers. -/
theorem run_refused (d : Disk) (o : Options) (bounds : Include.Bounds) :
    (∀ f, (run d o bounds).outcome = .error f → ¬f.IsWriting → (run d o bounds).disk = d ∧ Obstacle d o bounds f) ∧
    ((∃ f, Obstacle d o bounds f) →
      (run d o bounds).disk = d ∧ ∃ f, (run d o bounds).outcome = .error f ∧ ¬f.IsWriting ∧ Obstacle d o bounds f) ∧
    ∀ summary, (run d o bounds).outcome = .ok summary → ∃ c headers, o.project d = .ok c ∧
      AreHeaders d o c headers ∧
        (o.denyCollisions ∨ c.denyCollisions → Collision.find (typesOf headers) = []) := by
  rcases run_cases d o bounds with ⟨f, obstacle, outcome, same⟩ | ⟨s, surveyed, accepted, ending⟩
  · refine ⟨fun f' failed _ => ?_, fun _ => ⟨same, f, outcome, obstacle.not_isWriting, obstacle⟩,
      fun summary succeeds => ?_⟩
    · obtain rfl := Except.error.inj (outcome.symm.trans failed)
      exact ⟨same, obstacle⟩
    · exact nomatch outcome.symm.trans succeeds
  · refine ⟨fun f failed reading => ?_, fun ⟨f, obstacle⟩ => ?_, fun summary _ => ?_⟩
    · rcases ending with ⟨f', writing, outcome⟩ | outcome
      · obtain rfl := Except.error.inj (outcome.symm.trans failed)
        exact absurd writing reading
      · exact nomatch outcome.symm.trans failed
    · exact nomatch accepted.symm.trans (refusal_of_obstacle obstacle surveyed)
    · obtain ⟨c, project, configuration, headers⟩ := areHeaders_of_survey surveyed
      refine ⟨c, s.headers, project, headers, fun denied => ?_⟩
      by_contra some
      have refused := refusal_of_obstacle (.collisions project headers denied some) surveyed
      exact nomatch accepted.symm.trans refused

def Options.denying : Options := { Options.plain with denyCollisions := true }

/-- A header with two types of one name. -/
def clashDisk : Disk :=
  ⟨FileTree.folder "in" (.file "a.h" "UCLASS() class A {}; UCLASS() class A {};".toUTF8 .empty) .empty, []⟩

def clashes : List Collision :=
  [⟨"createA", ["A (create)", "A (create)"]⟩, ⟨"destroyA", ["A (destroy)", "A (destroy)"]⟩]

def denied : DiskError := .refused "Permission denied (os error 13)"

/-- A project with a folder that may be looked up but not listed. -/
def lockedDisk : Disk where
  workingFolder := []
  volume :=
    { root := .folder "in" (.file "a.h" .empty (.folder "sub" (.file "b.h" .empty .empty) .empty)) .empty
      refusal? access a := if access = .list ∧ a = [.ofText "in", .ofText "sub"] then some denied else none
      absent access a gone := by
        split
        · rename_i locked
          rw [locked.2] at gone
          exact absurd gone (by decide)
        · rfl }

/-- A search that is too large for any name. -/
def tight : Include.Bounds := fun _ => some "too large"

theorem run_refused_clashDisk :
    ((run clashDisk .denying).outcome = .error (.collisions clashes) ∧
      (run clashDisk .denying).disk = clashDisk ∧
      Obstacle clashDisk .denying .none (.collisions clashes)) ∧
    ((run lockedDisk .plain).outcome = .error (.walk (.ofText "in") denied) ∧
      (run lockedDisk .plain).disk = lockedDisk ∧
      Obstacle lockedDisk .plain .none (.walk (.ofText "in") denied)) ∧
    (run clashDisk .plain tight).outcome = .error (.pattern "too large") ∧
      (run clashDisk .plain tight).disk = clashDisk ∧
      Obstacle clashDisk .plain tight (.pattern "too large") := by
  have collided : (run clashDisk .denying).outcome = .error (.collisions clashes) := by decide +kernel
  have stuck : (run lockedDisk .plain).outcome = .error (.walk (.ofText "in") denied) := by decide +kernel
  have large : (run clashDisk .plain tight).outcome = .error (.pattern "too large") := by decide +kernel
  exact ⟨⟨collided, (run_refused clashDisk .denying .none).1 _ collided id⟩,
    ⟨stuck, (run_refused lockedDisk .plain .none).1 _ stuck id⟩,
    large, (run_refused clashDisk .plain tight).1 _ large id⟩

end ScriptGlue.Generation
