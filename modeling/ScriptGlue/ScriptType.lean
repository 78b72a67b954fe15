import ScriptGlue.FieldType

/-!
# Script types

What is known of one annotated type: its fields, its methods, and the symbols under which its native
functions are exported. Symbols follow one naming convention, which `Symbol` states.
-/

namespace ScriptGlue

namespace Symbol

def registration : String := "getGeneratedScripts"

def create (typeName : String) : String := "create" ++ typeName

def destroy (typeName : String) : String := "destroy" ++ typeName

def getter (typeName fieldName : String) : String := typeName ++ "_get_" ++ fieldName

def setter (typeName fieldName : String) : String := typeName ++ "_set_" ++ fieldName

end Symbol

/-- A field and the symbols of its accessors. -/
structure Field where
  type : FieldType
  name : String
  getter : String
  setter : String
deriving Repr, DecidableEq, Inhabited

/-- A method. Tables have room for methods, but nothing finds or calls them. -/
structure Method where
  name : String
  parameters : List FieldType
  returnType : FieldType
deriving Repr, DecidableEq, Inhabited

/-- A type and the symbols of its lifecycle functions. -/
structure ScriptType where
  name : String
  fields : List Field
  methods : List Method
  create : String
  destroy : String
deriving Repr, DecidableEq, Inhabited

def Field.declared (typeName : String) (type : FieldType) (name : String) : Field :=
  ⟨type, name, Symbol.getter typeName name, Symbol.setter typeName name⟩

namespace ScriptType

/-- A type without members, with the symbols that the convention gives it. -/
def declared (name : String) : ScriptType :=
  ⟨name, [], [], Symbol.create name, Symbol.destroy name⟩

def pushField (t : ScriptType) (type : FieldType) (name : String) : ScriptType :=
  { t with fields := t.fields ++ [Field.declared t.name type name] }

def field? (t : ScriptType) (name : String) : Option Field := t.fields.find? (·.name == name)

/-- The symbols that glue for the type exports; a field that is not accessible exports none. -/
def exportedSymbols (t : ScriptType) : List String :=
  [t.create, t.destroy] ++
    (t.fields.filter (·.type.isAccessible)).flatMap fun f => [f.getter, f.setter]

end ScriptType

end ScriptGlue
