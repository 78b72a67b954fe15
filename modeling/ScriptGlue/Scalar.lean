import ScriptGlue.Decimal.Shortest
import ScriptGlue.FieldType
import ScriptGlue.Text.Escaped

/-!
# Scalars

The values that cross an accessor. Floating-point values are kept as their bits, so that a value
read back is the one written, NaN included.
-/

namespace ScriptGlue

inductive Scalar
  | int (value : Int32)
  | char (value : Int8)
  | bool (value : Bool)
  | float (bits : UInt32)
  | double (bits : UInt64)
  | wide (value : Int32)
deriving Repr, DecidableEq, Inhabited

namespace Scalar

def kind : Scalar → ScalarKind
  | int _ => .int
  | char _ => .char
  | bool _ => .bool
  | float _ => .float
  | double _ => .double
  | wide _ => .wide

def zero : ScalarKind → Scalar
  | .int => int 0
  | .char => char 0
  | .bool => bool false
  | .float => float 0
  | .double => double 0
  | .wide => wide 0

@[simp] theorem kind_zero (k : ScalarKind) : (zero k).kind = k := by cases k <;> rfl

def ofKind? (k : ScalarKind) (v : Scalar) : Option Scalar := if v.kind = k then some v else none

/-- A wide character, or the number of one that is no character. -/
def wideText (value : Int32) : String :=
  let n := value.toUInt32.toNat
  if n.isValidChar then Text.charLiteral (Char.ofNat n) else Text.codePointName n

/-- How a value is shown. A `char` is shown as the character of its byte. -/
def text : Scalar → String
  | int v => toString v.toInt
  | char v => Text.charLiteral (Char.ofNat v.toUInt8.toNat)
  | bool v => if v then "true" else "false"
  | float bits => Decimal.text Decimal.single bits.toNat
  | double bits => Decimal.text Decimal.double bits.toNat
  | wide v => wideText v

end Scalar

end ScriptGlue
