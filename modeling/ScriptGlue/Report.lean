import ScriptGlue.Loader.Collection
import ScriptGlue.Text.Json

/-!
# Reports

What a module registers, as a listing to read and as JSON.
-/

namespace ScriptGlue

/-- The types of a module, and why others were left out. -/
structure Report where
  moduleName : String
  types : List ScriptType
  skipped : List String
deriving Repr, DecidableEq, Inhabited

def Field.json (f : Field) : Text.Json :=
  .object [("type", .text f.type.name), ("name", .text f.name),
    ("getter", .text f.getter), ("setter", .text f.setter)]

def Method.json (m : Method) : Text.Json :=
  .object [("name", .text m.name), ("parameters", .array (m.parameters.map (.text ·.name))),
    ("return_type", .text m.returnType.name)]

def ScriptType.json (t : ScriptType) : Text.Json :=
  .object [("name", .text t.name), ("fields", .array (t.fields.map Field.json)),
    ("methods", .array (t.methods.map Method.json)), ("create", .text t.create),
    ("destroy", .text t.destroy)]

namespace Report

def ofCollection (c : Collection) : Report :=
  ⟨c.moduleName, c.interfaces.map (·.type), c.skipped.map (·.message)⟩

def fieldLine (f : Field) : String :=
  s!"  {f.type.text} {f.name}  [{f.getter}, {f.setter}]"

def methodLine (m : Method) : String :=
  s!"  {m.returnType.text} {m.name}(" ++ Text.commaList (m.parameters.map (·.text))
    ++ ")  [not callable]"

def typeLines (t : ScriptType) : List String :=
  ["", s!"{t.name} ({t.create} / {t.destroy})"] ++ t.fields.map fieldLine ++ t.methods.map methodLine

def text (r : Report) : String :=
  Text.unlines (s!"{r.moduleName}: {r.types.length} type(s)" :: r.types.flatMap typeLines
    ++ if r.skipped.isEmpty then [] else ["", "skipped:"] ++ r.skipped.map ("  " ++ ·))

def json (r : Report) : String :=
  Text.Json.render (.object [("module", .text r.moduleName),
    ("types", .array (r.types.map ScriptType.json)), ("skipped", .array (r.skipped.map .text))])

end Report

end ScriptGlue
