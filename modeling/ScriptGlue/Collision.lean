import ScriptGlue.ScriptType
import ScriptGlue.Text.Lines

/-!
# Collisions

Glue defines every symbol of every type. Two types can define the same one: types of one name do,
and so do type `A` with field `get_x` and type `A_get` with field `x`.
-/

namespace ScriptGlue

structure Definition where
  symbol : String
  owner : String
deriving Repr, DecidableEq, Inhabited

namespace Definition

def ofField (typeName : String) (f : Field) : List Definition :=
  if f.type.isAccessible then
    [⟨f.getter, s!"{typeName}.{f.name} (getter)"⟩, ⟨f.setter, s!"{typeName}.{f.name} (setter)"⟩]
  else []

def ofType (t : ScriptType) : List Definition :=
  [⟨t.create, s!"{t.name} (create)"⟩, ⟨t.destroy, s!"{t.name} (destroy)"⟩]
    ++ t.fields.flatMap (ofField t.name)

end Definition

/-- A symbol with more than one definition, and who makes them. -/
structure Collision where
  symbol : String
  owners : List String
deriving Repr, DecidableEq, Inhabited

namespace Collision

def message (c : Collision) : String :=
  s!"symbol '{c.symbol}' defined by {Text.commaList c.owners}"

/-- The collision at a symbol, if it has more than one definition. -/
def at? (definitions : List Definition) (symbol : String) : Option Collision :=
  let owners := (definitions.filter (·.symbol == symbol)).map (·.owner)
  if 1 < owners.length then some ⟨symbol, owners⟩ else none

/-- The collisions among some types, in the order of the first definitions. -/
def find (types : List ScriptType) : List Collision :=
  let definitions := types.flatMap Definition.ofType
  (definitions.map (·.symbol)).eraseDups.filterMap (at? definitions)

end Collision

end ScriptGlue
