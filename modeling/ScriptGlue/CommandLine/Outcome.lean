import ScriptGlue.CommandLine
import ScriptGlue.Generation

/-!
# Outcomes of a command line

What a command line prints, the code that it exits with, and the disk that it leaves.
-/

namespace ScriptGlue.CommandLine

structure Outcome where
  code : Nat
  output : String
  errors : String
  disk : Disk

def version : String := "nsg 0.1.0"

def usage : String := Text.unlines [
  "Usage: nsg [-v]... [-q] generate <INPUT> <OUTPUT> [-c <CONFIG>] [--deny-collisions]",
  "         [--no-support-header] [--metadata-json]",
  "       nsg [-v]... [-q] inspect <MODULE> [--json] [--overwrite-duplicates] [--skip-broken]",
  "       nsg --version"]

/-- The outcome of a generation. Diagnostics are warnings. A quiet run does not print its summary. -/
def Outcome.ofGeneration (quiet : Bool) (r : Generation.Result) : Outcome :=
  let warnings := Text.unlines (r.diagnostics.map fun d => s!"warning: {d.message}")
  match r.outcome with
  | .ok summary => ⟨0, if quiet then "" else summary.text ++ "\n", warnings, r.disk⟩
  | .error failure => ⟨1, "", warnings ++ failure.report ++ "\n", r.disk⟩

/-- Carries out a command. No module can be opened from here. -/
def Invocation.run (d : Disk) (i : Invocation) : Outcome :=
  match i.command with
  | .generate input output config? denyCollisions noSupportHeader metadataJson =>
    .ofGeneration i.quiet (Generation.run d
      ⟨input, output, config?, denyCollisions, noSupportHeader, metadataJson⟩)
  | .inspect library _ _ _ => ⟨1, "", s!"error: could not open module {library.text}\n", d⟩

def run (d : Disk) (texts : List String) : Outcome :=
  match parse texts with
  | .ok invocation => invocation.run d
  | .error .version => ⟨0, version ++ "\n", "", d⟩
  | .error .help => ⟨0, usage, "", d⟩
  | .error .usage => ⟨2, "", usage, d⟩

end ScriptGlue.CommandLine
