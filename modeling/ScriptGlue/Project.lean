import ScriptGlue.Collision
import ScriptGlue.Extraction
import ScriptGlue.Glue
import ScriptGlue.Glue.Registration

/-!
# Projects

A project takes annotated headers one after the other. Each is answered with its generated header;
the types of all of them make the registration.
-/

namespace ScriptGlue

structure FileDiagnostic where
  file : String
  diagnostic : Diagnostic
deriving Repr, DecidableEq, Inhabited

def FileDiagnostic.message (d : FileDiagnostic) : String :=
  s!"{d.file}:{d.diagnostic.span.text}: {d.diagnostic.message}"

structure GeneratedHeader where
  contents : String
  types : List ScriptType
  diagnosticCount : Nat
deriving Repr, DecidableEq, Inhabited

/-- What the headers so far have yielded. -/
structure Project where
  types : List ScriptType
  diagnostics : List FileDiagnostic
deriving Repr, DecidableEq, Inhabited

namespace Project

def empty : Project := ⟨[], []⟩

def generate (source : String) : GeneratedHeader :=
  let found := Extraction.ofSource source
  ⟨Glue.render source found.types, found.types, found.diagnostics.length⟩

def addHeader (p : Project) (file source : String) : Project :=
  let found := Extraction.ofSource source
  ⟨p.types ++ found.types, p.diagnostics ++ found.diagnostics.map (⟨file, ·⟩)⟩

/-- The project of some headers, each with its file. -/
def ofHeaders (headers : List (String × String)) : Project :=
  headers.foldl (fun p h => p.addHeader h.1 h.2) empty

def registration (p : Project) : Registration := .of p.types

def collisions (p : Project) : List Collision := Collision.find p.types

end Project

end ScriptGlue
