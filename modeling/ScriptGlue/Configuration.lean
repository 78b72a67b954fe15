/-!
# Configurations

What a project sets for the generation of its glue.
-/

namespace ScriptGlue

/-- The settings of a project. Extensions are without their dot. -/
structure Configuration where
  /-- The extensions of the files that are read for annotations. -/
  headerExtensions : List String
  /-- The extensions of the files that are copied with their includes renamed. -/
  sourceExtensions : List String
  /-- Whether the support header is written. -/
  supportHeader : Bool
  /-- Whether the types are written as JSON. -/
  metadataJson : Bool
  /-- Whether a collision of symbols ends the generation. -/
  denyCollisions : Bool
  /-- The names of the directories that are passed over. -/
  exclude : List String
deriving Repr, DecidableEq, Inhabited

inductive Configuration.Fault
  | noHeaderExtensions
  | malformedExtension (extension : String)
  | sharedExtension (extension : String)
deriving Repr, DecidableEq, Inhabited

namespace Configuration

def standard : Configuration where
  headerExtensions := ["h", "hpp"]
  sourceExtensions := ["cpp", "cc", "cxx"]
  supportHeader := true
  metadataJson := false
  denyCollisions := false
  exclude := []

def Fault.message : Fault → String
  | noHeaderExtensions => "Invalid config: header-extensions must not be empty"
  | malformedExtension e =>
    s!"Invalid config: extension '{e}' must be non-empty and without a leading dot"
  | sharedExtension e => s!"Invalid config: extension '{e}' is listed as both header and source"

def isExtension (text : String) : Bool :=
  match text.toList with
  | [] => false
  | c :: _ => c ≠ '.'

def fault? (c : Configuration) : Option Fault :=
  if c.headerExtensions.isEmpty then some .noHeaderExtensions
  else
    match (c.headerExtensions ++ c.sourceExtensions).find? (!isExtension ·) with
    | some e => some (.malformedExtension e)
    | none => (c.headerExtensions.find? (c.sourceExtensions.contains ·)).map .sharedExtension

end Configuration

end ScriptGlue
