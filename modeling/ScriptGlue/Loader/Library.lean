import ScriptGlue.Text.Escaped

/-!
# Libraries

A library is named by a path, which is taken from the working directory and never searched for. This
loader opens no native code, so what it can tell of a path is only why the path does not open.
-/

namespace ScriptGlue.Library

inductive OpenError
  | notFound (path : String)
  /-- A path with a zero character has no C spelling. -/
  | invalidName (path : String)
deriving Repr, DecidableEq, Inhabited

def nameMessage (path : String) : String := s!"Invalid name: {Text.escaped path}"

/-- A path as it is from the root if taken from `directory`. -/
def resolve (directory path : String) : String :=
  if path.startsWith "/" then path
  else if directory.endsWith "/" then directory ++ path
  else directory ++ "/" ++ path

def openError (directory path : String) : OpenError :=
  let full := resolve directory path
  if '\x00' ∈ full.toList then .invalidName full else .notFound full

end ScriptGlue.Library
