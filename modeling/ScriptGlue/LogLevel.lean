/-!
# Log levels

How much a run says about itself.
-/

namespace ScriptGlue

/-- From the least to the most talkative. -/
inductive LogLevel
  | error
  | warn
  | info
  | debug
  | trace
deriving Repr, DecidableEq, Inhabited

namespace LogLevel

/-- The level that the flags ask for: `verbose` is how often the verbose flag was given. -/
def ofFlags (verbose : Nat) (quiet : Bool) : LogLevel :=
  if quiet then error
  else
    match verbose with
    | 0 => warn
    | 1 => info
    | 2 => debug
    | _ => trace

def name : LogLevel → String
  | error => "ERROR"
  | warn => "WARN"
  | info => "INFO"
  | debug => "DEBUG"
  | trace => "TRACE"

end LogLevel

end ScriptGlue
