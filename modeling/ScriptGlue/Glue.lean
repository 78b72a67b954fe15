import ScriptGlue.ScriptType
import ScriptGlue.Text.Lines

/-!
# Glue

A generated header is the annotated header followed by exported functions: for each type one that
creates and one that destroys an object, and for each accessible field one that reads and one that
writes it.
-/

namespace ScriptGlue.Glue

/-- A function that glue defines under an unmangled name. -/
structure ExportedFunction where
  returns : String
  symbol : String
  parameters : String
  statement : String
deriving Repr, DecidableEq, Inhabited

inductive Item
  | function (f : ExportedFunction)
  /-- A remark about a field that gets no accessors. -/
  | remark (text : String)
deriving Repr, DecidableEq, Inhabited

def ExportedFunction.lines (f : ExportedFunction) : List String :=
  ["extern \"C\" NS_EXPORT " ++ f.returns ++ " " ++ f.symbol ++ "(" ++ f.parameters ++ ") \x7b",
   "\t" ++ f.statement, "\x7d"]

def Item.lines : Item → List String
  | .function f => f.lines
  | .remark text => ["// " ++ text]

def Item.text (i : Item) : String := Text.unlines ("" :: i.lines)

def creation (t : ScriptType) : ExportedFunction :=
  ⟨t.name ++ "*", t.create, "", "return new " ++ t.name ++ "();"⟩

def destruction (t : ScriptType) : ExportedFunction :=
  ⟨"void", t.destroy, t.name ++ "* x", "delete x;"⟩

def getter (typeName : String) (f : Field) (kind : ScalarKind) : ExportedFunction :=
  ⟨kind.keyword, f.getter, typeName ++ "* x", "return x->" ++ f.name ++ ";"⟩

def setter (typeName : String) (f : Field) (kind : ScalarKind) : ExportedFunction :=
  ⟨"void", f.setter, typeName ++ "* x, " ++ kind.keyword ++ " v", "x->" ++ f.name ++ " = v;"⟩

def fieldItems (typeName : String) (f : Field) : List Item :=
  match f.type with
  | .scalar kind => [.function (getter typeName f kind), .function (setter typeName f kind)]
  | _ =>
    [.remark ("nsg: " ++ typeName ++ "::" ++ f.name ++ " has no supported scalar type; "
      ++ f.getter ++ " and " ++ f.setter ++ " not generated")]

def items (t : ScriptType) : List Item :=
  [.function (creation t), .function (destruction t)] ++ t.fields.flatMap (fieldItems t.name)

def text (types : List ScriptType) : String :=
  String.join ((types.flatMap items).map Item.text)

/-- The generated header: the source as it is, then the glue. -/
def render (source : String) (types : List ScriptType) : String := source ++ text types

end ScriptGlue.Glue
