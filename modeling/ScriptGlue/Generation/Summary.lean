import ScriptGlue.Path

/-!
# Summaries

What a generation says of itself when it is done.
-/

namespace ScriptGlue.Generation

structure Summary where
  headers : Nat
  sources : Nat
  types : Nat
  fields : Nat
  diagnostics : Nat
  collisions : Nat
  /-- By their paths from the output directory. -/
  written : List Path
deriving Repr, DecidableEq, Inhabited

/-- The line of a summary. Diagnostics and collisions are named where there are any. -/
def Summary.text (s : Summary) : String :=
  s!"Generated {s.types} type(s) with {s.fields} field(s) from {s.headers} header(s) and "
    ++ s!"{s.sources} source(s); {s.written.length} file(s) written"
    ++ (if s.diagnostics = 0 then "" else s!", {s.diagnostics} diagnostic(s)")
    ++ if s.collisions = 0 then "" else s!", {s.collisions} symbol collision(s)"

end ScriptGlue.Generation
