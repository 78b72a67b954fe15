/-!
# Field types

The closed set of types that a field can be declared with: six scalar kinds, `void`, and everything
else as `unknown`. Each has a tag in the registration table.
-/

namespace ScriptGlue

/-- The six kinds of value that cross an accessor. -/
inductive ScalarKind
  | int | char | bool | float | double | wide
deriving Repr, DecidableEq, Inhabited

/-- The declared type of a field, parameter or result. -/
inductive FieldType
  | unknown
  | scalar (kind : ScalarKind)
  | void
deriving Repr, DecidableEq, Inhabited

namespace ScalarKind

def all : List ScalarKind := [int, char, bool, float, double, wide]

def keyword : ScalarKind → String
  | int => "int"
  | char => "char"
  | bool => "bool"
  | float => "float"
  | double => "double"
  | wide => "wchar_t"

def name : ScalarKind → String
  | wide => "w_char"
  | kind => kind.keyword

def tag : ScalarKind → Int32
  | int => 1
  | char => 2
  | bool => 3
  | float => 4
  | double => 5
  | wide => 6

def ofName? (name : String) : Option ScalarKind := all.find? (·.name == name)

end ScalarKind

namespace FieldType

def all : List FieldType := unknown :: ScalarKind.all.map scalar ++ [void]

def tag : FieldType → Int32
  | unknown => 0
  | scalar kind => kind.tag
  | void => 7

/-- The type of a tag; a tag outside the table is `unknown`. -/
def ofTag (tag : Int32) : FieldType := (all.find? (·.tag == tag)).getD unknown

def keyword? : FieldType → Option String
  | unknown => none
  | scalar kind => some kind.keyword
  | void => some "void"

/-- The type that a word declares; a word outside the table is `unknown`. -/
def ofKeyword (word : String) : FieldType := (all.find? (·.keyword? == some word)).getD unknown

def kind? : FieldType → Option ScalarKind
  | scalar kind => some kind
  | _ => none

def isAccessible (type : FieldType) : Bool := type.kind?.isSome

def text (type : FieldType) : String := type.keyword?.getD "<unknown>"

def name : FieldType → String
  | unknown => "unknown"
  | scalar kind => kind.name
  | void => "void"

def ofName? (name : String) : Option FieldType := all.find? (·.name == name)

end FieldType

end ScriptGlue
