import ScriptGlue.Generation.Failure
import ScriptGlue.Generation.Summary
import ScriptGlue.Glue.SupportHeader
import ScriptGlue.Include
import ScriptGlue.Project
import ScriptGlue.Report
import ScriptGlue.SourceTree

/-!
# Generation

Generation reads a project, works out every file that it will write, and only then writes. What it
has read is a survey; all that it writes is a function of the survey. So a generation that fails
before it writes leaves the disk as it was.
-/

namespace ScriptGlue

namespace Generation

structure Options where
  input : Path
  output : Path
  /-- The configuration file, if not the one in the project. -/
  configuration? : Option Path
  denyCollisions : Bool
  noSupportHeader : Bool
  metadataJson : Bool
deriving Repr, DecidableEq, Inhabited

def configurationName : String := "nsg.toml"

/-- The name of the file with the types as JSON. -/
def metadataName : String := "scripts.metadata.json"

def readConfiguration (d : Disk) (file : Path) : Except ConfigurationFailure Configuration :=
  match d.readText file with
  | .error e => .error (.unread e)
  | .ok text => (Configuration.ofText text).mapError .refused

/-- The configuration of a project: of the file asked for, of the one in the project, or the
standard one. -/
def Options.project (o : Options) (d : Disk) : Except Failure Configuration :=
  match o.configuration? with
  | some file => (readConfiguration d file).mapError (.configuration (some file))
  | none =>
    let file := o.input.below [configurationName]
    if d.isFile file then (readConfiguration d file).mapError (.configuration none)
    else .ok .standard

def Options.override (o : Options) (c : Configuration) : Configuration :=
  { c with
    denyCollisions := c.denyCollisions || o.denyCollisions
    supportHeader := c.supportHeader && !o.noSupportHeader
    metadataJson := c.metadataJson || o.metadataJson }

/-- All that a generation reads. Files are by their paths from the root of the project. -/
structure Survey where
  configuration : Configuration
  headers : List (Path × String)
  sources : List (Path × String)
deriving Repr, DecidableEq, Inhabited

def readSource (d : Disk) (input file : Path) : Except Failure (Path × String) :=
  let full := input.below file.pieces
  match d.readText full with
  | .ok text => .ok (file, text)
  | .error e => .error (.read full e)

def survey (d : Disk) (o : Options) (bounds : Include.Bounds := .none) : Except Failure Survey := do
  unless d.isFolder o.input do throw (.noInput o.input)
  let c := o.override (← o.project d)
  let tree ← (SourceTree.collect d o.input c (some o.output)).mapError (.walk o.input)
  (Include.setUp bounds tree.headers).mapError .pattern
  let headers ← tree.headers.mapM (readSource d o.input)
  let sources ← tree.sources.mapM (readSource d o.input)
  return ⟨c, headers, sources⟩

namespace Survey

/-- The project of the headers, each called by its path. -/
def project (s : Survey) : Project := .ofHeaders (s.headers.map fun h => (h.1.text, h.2))

def generated (s : Survey) (file : Path) (text : String) : Path × String :=
  (file.generated, Include.rewrite (s.headers.map (·.1)) text)

def outputs (s : Survey) : List (Path × String) :=
  let p := s.project
  s.headers.map (fun h => s.generated h.1 (Project.generate h.2).contents)
    ++ s.sources.map (fun f => s.generated f.1 f.2)
    ++ [(.ofNames [Registration.headerName], p.registration.header),
      (.ofNames [Registration.sourceName], p.registration.source)]
    ++ (if s.configuration.supportHeader then
        [(.ofNames [Registration.supportName], Glue.supportHeader)] else [])
    ++ if s.configuration.metadataJson then
        [(.ofNames [metadataName],
          Text.Json.render (.array (p.types.map ScriptType.json)) ++ "\n")] else []

def refusal? (s : Survey) : Option Failure :=
  if s.configuration.denyCollisions && !s.project.collisions.isEmpty then
    some (.collisions s.project.collisions)
  else none

def summary (s : Survey) : Summary where
  headers := s.headers.length
  sources := s.sources.length
  types := s.project.types.length
  fields := s.project.types.foldl (fun count t => count + t.fields.length) 0
  diagnostics := s.project.diagnostics.length
  collisions := s.project.collisions.length
  written := s.outputs.map (·.1)

end Survey

/-- Writes one file and makes the folders that it needs. A failure keeps what was done before. -/
def writeFile (d : Disk) (file : Path) (text : String) : Except (Failure × Disk) Disk := do
  let folder := file.parent?.getD file
  let d ← (d.makeFolders folder).mapError fun (e, d) => (.makeFolder folder e, d)
  (d.writeText file text).mapError fun e => (.write file e, d)

/-- Writes files below a directory in turn. A failure keeps what was done before. -/
def write (output : Path) (d : Disk) (files : List (Path × String)) :
    Except (Failure × Disk) Disk :=
  files.foldlM (fun d f => writeFile d (output.below f.1.pieces) f.2) d

structure Result where
  disk : Disk
  diagnostics : List FileDiagnostic
  outcome : Except Failure Summary

def run (d : Disk) (o : Options) (bounds : Include.Bounds := .none) : Result :=
  match survey d o bounds with
  | .error f => ⟨d, [], .error f⟩
  | .ok s =>
    match s.refusal? with
    | some f => ⟨d, s.project.diagnostics, .error f⟩
    | none =>
      match write o.output d s.outputs with
      | .error (f, d) => ⟨d, s.project.diagnostics, .error f⟩
      | .ok d => ⟨d, s.project.diagnostics, .ok s.summary⟩

end Generation

end ScriptGlue
