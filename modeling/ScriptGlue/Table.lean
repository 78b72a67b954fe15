/-!
# Registration tables

The table that a module hands out: arrays with counts beside them, and texts as bytes. Nothing in
it is trusted. A count may disagree with its array, and a pointer may be null.
-/

namespace ScriptGlue

inductive TableError
  | negativeCount (what : String) (count : Int)
  | nullPointer (what : String)
  | invalidUtf8 (what : String)
  | interiorNul (what : String)
  | tooLarge (what : String) (length : Nat)
deriving Repr, DecidableEq, Inhabited

def TableError.message : TableError → String
  | negativeCount what count => s!"Negative {what} count: {count}"
  | nullPointer what => s!"Null pointer for {what}"
  | invalidUtf8 what => s!"{what} is not valid UTF-8"
  | interiorNul what => s!"{what} contains an interior NUL byte"
  | tooLarge what length => s!"Too many {what} entries: {length}"

/-- A pointer to bytes that end before the first zero byte, or null. -/
structure RawText where
  bytes? : Option (List UInt8)
deriving Repr, DecidableEq, Inhabited

/-- A pointer to an array, or null, and the count beside it. -/
structure RawArray (α : Type) where
  items? : Option (List α)
  count : Int32
deriving Repr, DecidableEq, Inhabited

structure RawField where
  tag : Int32
  name : RawText
  getter : RawText
  setter : RawText
deriving Repr, DecidableEq, Inhabited

structure RawMethod where
  name : RawText
  parameters : RawArray Int32
  returnTag : Int32
deriving Repr, DecidableEq, Inhabited

structure RawScript where
  name : RawText
  fields : RawArray RawField
  methods : RawArray RawMethod
  create : RawText
  destroy : RawText
deriving Repr, DecidableEq, Inhabited

abbrev Table := RawArray RawScript

def Table.blank : Table := ⟨none, 0⟩

end ScriptGlue
