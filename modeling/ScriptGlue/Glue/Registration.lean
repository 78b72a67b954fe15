import ScriptGlue.ScriptType
import ScriptGlue.Text.Lines

/-!
# Registration

The registration header declares the entry point of a module, and the registration source defines
it together with the tables it hands out. C++ has no arrays without elements, so an empty table is
a null pointer.
-/

namespace ScriptGlue

/-- The two files that register a project's types. -/
structure Registration where
  header : String
  source : String
deriving Repr, DecidableEq, Inhabited

namespace Registration

def headerName : String := "scripts.generated.h"

def sourceName : String := "scripts.generated.cpp"

def supportName : String := "ns.h"

/-- A C string literal around a text that needs no escapes. -/
def quoted (text : String) : String := "\"" ++ text ++ "\""

def includeLine (file : String) : String := "#include " ++ quoted file

def parameters : String := "(int* count, const ns_script_info** scripts)"

def row (cells : List String) : String := "\t\x7b " ++ Text.commaList cells ++ " \x7d,"

/-- The definition of an array, one row a line. -/
def array (elementType name : String) (rows : List String) : List String :=
  ("static const " ++ elementType ++ " " ++ name ++ "[] = \x7b") :: rows ++ ["\x7d;"]

def reference (name : String) (length : Nat) : String :=
  if length = 0 then "nullptr" else name

def fieldsName (index : Nat) : String := s!"ns_fields_{index}"

def methodsName (index : Nat) : String := s!"ns_methods_{index}"

def parametersName (index method : Nat) : String := s!"ns_params_{index}_{method}"

def scriptsName : String := "ns_scripts"

def tagText (type : FieldType) : String := toString type.tag.toInt

def fieldRow (f : Field) : String :=
  row [tagText f.type, quoted f.name, quoted f.getter, quoted f.setter]

def fieldTable (index : Nat) (fields : List Field) : List String :=
  array "ns_field_info" (fieldsName index) (fields.map fieldRow)

def parameterTable (index : Nat) (m : Method × Nat) : List String :=
  if m.1.parameters.isEmpty then []
  else ["static const int " ++ parametersName index m.2 ++ "[] = \x7b "
    ++ Text.commaList (m.1.parameters.map tagText) ++ " \x7d;"]

def methodRow (index : Nat) (m : Method × Nat) : String :=
  row [quoted m.1.name, reference (parametersName index m.2) m.1.parameters.length,
    toString m.1.parameters.length, tagText m.1.returnType]

/-- The arrays of a type's methods: the parameters of each, then the methods. -/
def methodTable (index : Nat) (methods : List Method) : List String :=
  methods.zipIdx.flatMap (parameterTable index)
    ++ array "ns_method_info" (methodsName index) (methods.zipIdx.map (methodRow index))

/-- The arrays that the row of a type refers to, each set off by an empty line. -/
def memberTables (t : ScriptType × Nat) : List String :=
  (if t.1.fields.isEmpty then [] else "" :: fieldTable t.2 t.1.fields)
    ++ (if t.1.methods.isEmpty then [] else "" :: methodTable t.2 t.1.methods)

def scriptRow (t : ScriptType × Nat) : String :=
  row [quoted t.1.name, reference (fieldsName t.2) t.1.fields.length,
    toString t.1.fields.length, reference (methodsName t.2) t.1.methods.length,
    toString t.1.methods.length, quoted t.1.create, quoted t.1.destroy]

def scriptTable (types : List ScriptType) : List String :=
  if types.isEmpty then []
  else "" :: array "ns_script_info" scriptsName (types.zipIdx.map scriptRow)

/-- The entry point, which hands out the array and its length. -/
def entryPoint (count : Nat) : List String :=
  ["", "extern \"C\" void " ++ Symbol.registration ++ parameters ++ " \x7b",
   s!"\t*count = {count};",
   "\t*scripts = " ++ reference scriptsName count ++ ";", "\x7d"]

def headerLines : List String :=
  ["#pragma once", "", includeLine supportName, "",
   "extern \"C\" NS_EXPORT void " ++ Symbol.registration ++ parameters ++ ";"]

def sourceLines (types : List ScriptType) : List String :=
  includeLine headerName :: types.zipIdx.flatMap memberTables
    ++ scriptTable types ++ entryPoint types.length

def of (types : List ScriptType) : Registration :=
  ⟨Text.unlines headerLines, Text.unlines (sourceLines types)⟩

end Registration

end ScriptGlue
