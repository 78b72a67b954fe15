import ScriptGlue.Configuration
import ScriptGlue.Toml.Document

/-!
# Configuration documents

A configuration is written in TOML, under the one key `generate`: as a table of its own, by dotted
keys, or as a value. What is not set has its standard value; a key that sets nothing is refused.
-/

namespace ScriptGlue.Configuration

open Toml

/-- What makes a text no configuration. -/
inductive TextError
  /-- It is no TOML, has unknown keys, or sets a key to a value of the wrong kind. -/
  | malformed
  | invalid (fault : Fault)
deriving Repr, DecidableEq, Inhabited

def malformedCause : String := "not a table of known settings"

def TextError.message : TextError → String
  | malformed => "Failed to parse config: " ++ malformedCause
  | invalid fault => fault.message

def texts? : Value → Option (List String)
  | .array elements => elements.mapM fun
    | .text t => some t
    | _ => none
  | _ => none

def flag? : Value → Option Bool
  | .flag b => some b
  | _ => none

/-- The names of the settings, in the order in which a list gives them. -/
def settings : List String :=
  ["header-extensions", "source-extensions", "support-header", "metadata-json", "deny-collisions",
    "exclude"]

def set? (c : Configuration) (name : String) (v : Value) : Option Configuration :=
  match name with
  | "header-extensions" => (texts? v).map fun l => { c with headerExtensions := l }
  | "source-extensions" => (texts? v).map fun l => { c with sourceExtensions := l }
  | "support-header" => (flag? v).map fun b => { c with supportHeader := b }
  | "metadata-json" => (flag? v).map fun b => { c with metadataJson := b }
  | "deny-collisions" => (flag? v).map fun b => { c with denyCollisions := b }
  | "exclude" => (texts? v).map fun l => { c with exclude := l }
  | _ => none

/-- The configuration that sets these settings, each at most once. -/
def ofMembers? (members : List (Key × Value)) : Option Configuration :=
  if isConsistent (members.map (·.1)) then
    members.foldlM (fun c m =>
      match m with
      | ([name], v) => c.set? name v
      | _ => none) standard
  else none

/-- The configuration that a value is. A list gives the settings in their order. -/
def ofValue? : Value → Option Configuration
  | .table members => ofMembers? members
  | .array elements => ofMembers? ((settings.map ([·])).zip elements)
  | _ => none

/-- What dotted keys below `generate` set, if there are no other lines. -/
def members? (lines : List Line) : Option (List (Key × Value)) := do
  (← lines.mapM Line.assignment?).mapM fun m =>
    match m with
    | ("generate" :: name :: rest, v) => some (name :: rest, v)
    | _ => none

/-- The configuration that a document is. The one key is set in one way only. -/
def ofLines? : List Line → Option Configuration
  | [] => some standard
  | [.assignment ["generate"] v] => ofValue? v
  | .header ["generate"] :: lines => (lines.mapM Line.assignment?).bind ofMembers?
  | lines => (members? lines).bind ofMembers?

def ofText (text : String) : Except TextError Configuration :=
  match (parse? text).bind ofLines? with
  | none => .error .malformed
  | some c =>
    match c.fault? with
    | some fault => .error (.invalid fault)
    | none => .ok c

end ScriptGlue.Configuration
