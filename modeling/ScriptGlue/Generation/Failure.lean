import ScriptGlue.Collision
import ScriptGlue.Configuration.Document
import ScriptGlue.Disk

/-!
# Failures of a generation

A failure is told as a chain of messages, each the cause of the one before.
-/

namespace ScriptGlue.Generation

inductive ConfigurationFailure
  | unread (cause : DiskError)
  | refused (cause : Configuration.TextError)
deriving Repr, DecidableEq, Inhabited

inductive Failure
  | noInput (input : Path)
  /-- `file?` is the configuration file that was asked for; one found by itself goes unnamed. -/
  | configuration (file? : Option Path) (cause : ConfigurationFailure)
  | walk (root : Path) (cause : DiskError)
  /-- The search for includes cannot be set up. -/
  | pattern (cause : String)
  | read (file : Path) (cause : DiskError)
  | collisions (found : List Collision)
  | makeFolder (folder : Path) (cause : DiskError)
  | write (file : Path) (cause : DiskError)
deriving Repr, DecidableEq, Inhabited

/-- The messages of a failure with a configuration. The cause of a read that failed, and of a text
that is malformed, is told both in a sentence and alone. -/
def ConfigurationFailure.chain : ConfigurationFailure → List String
  | unread cause => [s!"Failed to read config file: {cause.message}", cause.message]
  | refused .malformed => [Configuration.TextError.malformed.message, Configuration.malformedCause]
  | refused cause => [cause.message]

namespace Failure

/-- The messages of a failure, the outermost first. -/
def chain : Failure → List String
  | noInput input => [s!"Input directory not found: {input.text}"]
  | configuration none cause => cause.chain
  | configuration (some file) cause => s!"Failed to load {file.text}" :: cause.chain
  | walk root cause => [s!"Failed to walk {root.text}", cause.message]
  | pattern cause => ["Failed to build include pattern", cause]
  | read file cause => [s!"Failed to read {file.text}", cause.message]
  | collisions found =>
    ["\n".intercalate (s!"{found.length} symbol collision(s):"
      :: found.map fun c => s!"  {c.message}")]
  | makeFolder folder cause => [s!"Failed to create {folder.text}", cause.message]
  | write file cause => [s!"Failed to write {file.text}", cause.message]

def message (f : Failure) : String := ": ".intercalate f.chain

def indent (first others text : String) : String :=
  first ++ ("\n" ++ others).intercalate ((text.toList.splitOn '\n').map String.ofList)

/-- The causes of a failure, one below the other. Several are numbered. -/
def causes : List String → List String
  | [] => []
  | [cause] => ["", "Caused by:", indent "    " "    " cause]
  | several =>
    ["", "Caused by:"] ++ several.zipIdx.map fun c => indent s!"    {c.2}: " "       " c.1

/-- A failure as a report. -/
def report (f : Failure) : String :=
  "\n".intercalate (("Error: " ++ f.chain.headD "") :: causes f.chain.tail)

end Failure

end ScriptGlue.Generation
