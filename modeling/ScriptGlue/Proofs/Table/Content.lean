import ScriptGlue.Proofs.Text.Bytes
import ScriptGlue.Table.Decode
import Mathlib.Data.List.Forall2

/-!
# Content of a table

What the records of a table say, stated without reading them. A table that is well formed describes
records, one for each entry within a count; any other has flaws, listed in the order of the table.
-/

namespace ScriptGlue

variable {α β : Type}

/-! ### What is described -/

/-- The bytes in front of the first zero byte are those of a text. -/
def RawText.Spells (t : RawText) (text : String) : Prop :=
  ∃ bytes, t.bytes? = some bytes ∧ bytes.takeWhile (· ≠ 0) = text.toUTF8.data.toList

/-- A tag outside the table stands for a type that is not known. -/
def FieldType.Tagged (tag : Int32) (type : FieldType) : Prop :=
  type.tag = tag ∨ type = .unknown ∧ ¬(1 ≤ tag.toInt ∧ tag.toInt ≤ 7)

/-- The entries within the count. -/
def RawArray.counted (a : RawArray α) : List α := (a.items?.getD []).take a.count.toInt.toNat

/-- An array with one entry for each of some items, and perhaps more behind its count. -/
structure RawArray.Describes (item : α → β → Prop) (a : RawArray α) (items : List β) : Prop where
  count : a.count.toInt = items.length
  entries : List.Forall₂ item a.counted items

structure RawField.Describes (raw : RawField) (f : Field) : Prop where
  type : FieldType.Tagged raw.tag f.type
  name : raw.name.Spells f.name
  getter : raw.getter.Spells f.getter
  setter : raw.setter.Spells f.setter

structure RawMethod.Describes (raw : RawMethod) (m : Method) : Prop where
  name : raw.name.Spells m.name
  parameters : raw.parameters.Describes FieldType.Tagged m.parameters
  returnType : FieldType.Tagged raw.returnTag m.returnType

structure RawScript.Describes (raw : RawScript) (t : ScriptType) : Prop where
  name : raw.name.Spells t.name
  fields : raw.fields.Describes RawField.Describes t.fields
  methods : raw.methods.Describes RawMethod.Describes t.methods
  create : raw.create.Spells t.create
  destroy : raw.destroy.Spells t.destroy

def Table.Describes (t : Table) (types : List ScriptType) : Prop :=
  RawArray.Describes RawScript.Describes t types

/-! ### Well-formed tables -/

def RawText.WellFormed (t : RawText) : Prop := ∃ text, t.Spells text

/-- A count that is not negative, and an array if it counts anything. -/
structure RawArray.Sound (a : RawArray α) : Prop where
  count : 0 ≤ a.count.toInt
  present : 0 < a.count.toInt → a.items? ≠ none

structure RawField.WellFormed (f : RawField) : Prop where
  name : f.name.WellFormed
  getter : f.getter.WellFormed
  setter : f.setter.WellFormed

structure RawMethod.WellFormed (m : RawMethod) : Prop where
  parameters : m.parameters.Sound
  name : m.name.WellFormed

structure RawScript.WellFormed (s : RawScript) : Prop where
  name : s.name.WellFormed
  fieldArray : s.fields.Sound
  fields : ∀ f ∈ s.fields.counted, f.WellFormed
  methodArray : s.methods.Sound
  methods : ∀ m ∈ s.methods.counted, m.WellFormed
  create : s.create.WellFormed
  destroy : s.destroy.WellFormed

structure Table.WellFormed (t : Table) : Prop where
  array : RawArray.Sound t
  scripts : ∀ s ∈ RawArray.counted t, s.WellFormed

/-! ### Memory behind a table -/

/-- An array that is there is at least as long as its count says. -/
def RawArray.Covers (a : RawArray α) : Prop :=
  ∀ items ∈ a.items?, a.count.toInt ≤ items.length

instance (a : RawArray α) : Decidable a.Covers :=
  inferInstanceAs (Decidable (∀ items ∈ a.items?, a.count.toInt ≤ items.length))

structure RawScript.Covers (s : RawScript) : Prop where
  fields : s.fields.Covers
  methods : s.methods.Covers
  parameters : ∀ m ∈ s.methods.counted, m.parameters.Covers

instance (s : RawScript) : Decidable s.Covers :=
  decidable_of_iff
    (s.fields.Covers ∧ s.methods.Covers ∧ ∀ m ∈ s.methods.counted, m.parameters.Covers)
    ⟨fun ⟨fields, methods, parameters⟩ => ⟨fields, methods, parameters⟩,
      fun ⟨fields, methods, parameters⟩ => ⟨fields, methods, parameters⟩⟩

/-- No count reaches past the end of its array. -/
structure Table.Covers (t : Table) : Prop where
  array : RawArray.Covers t
  scripts : ∀ s ∈ RawArray.counted t, s.Covers

instance (t : Table) : Decidable t.Covers :=
  decidable_of_iff (RawArray.Covers t ∧ ∀ s ∈ RawArray.counted t, s.Covers)
    ⟨fun ⟨array, scripts⟩ => ⟨array, scripts⟩, fun ⟨array, scripts⟩ => ⟨array, scripts⟩⟩

/-! ### Flaws -/

def RawText.text? (t : RawText) : Option String :=
  t.bytes?.bind fun bytes => String.fromUTF8? ⟨(bytes.takeWhile (· ≠ 0)).toArray⟩

theorem RawText.text?_eq_some_iff {t : RawText} {text : String} :
    t.text? = some text ↔ t.Spells text := by
  simp only [text?, Spells, Option.bind_eq_some_iff, Text.fromUTF8?_eq_some_iff]

def RawText.flaws (what : String) (t : RawText) : List TableError :=
  match t.bytes?, t.text? with
  | none, _ => [.nullPointer what]
  | some _, none => [.invalidUtf8 what]
  | some _, some _ => []

def RawArray.flaws (what : String) (a : RawArray α) : List TableError :=
  if a.count.toInt < 0 then [.negativeCount what a.count.toInt]
  else if 0 < a.count.toInt ∧ a.items?.isNone then [.nullPointer what]
  else []

def RawField.flaws (what : String) (f : RawField) : List TableError :=
  f.name.flaws s!"{what}.name"
    ++ (f.getter.flaws s!"{what}.getter" ++ f.setter.flaws s!"{what}.setter")

def RawMethod.flaws (what : String) (m : RawMethod) : List TableError :=
  m.parameters.flaws s!"{what}.parameters" ++ m.name.flaws s!"{what}.name"

/-- The flaws behind the name of a type, by which their places are named. -/
def RawScript.memberFlaws (s : RawScript) (name : String) : List TableError :=
  s.fields.flaws s!"{name}.fields"
    ++ ((s.fields.counted.zipIdx.flatMap fun f => f.1.flaws s!"{name}.fields[{f.2}]")
    ++ (s.methods.flaws s!"{name}.methods"
    ++ ((s.methods.counted.zipIdx.flatMap fun m => m.1.flaws s!"{name}.methods[{m.2}]")
    ++ (s.create.flaws s!"{name}.create" ++ s.destroy.flaws s!"{name}.destroy"))))

def RawScript.flaws (index : Nat) (s : RawScript) : List TableError :=
  s.name.flaws s!"script[{index}].name" ++ (s.name.text?.map s.memberFlaws).getD []

def Table.flaws (t : Table) : List TableError :=
  RawArray.flaws "script" t ++ (RawArray.counted t).zipIdx.flatMap fun s => s.1.flaws s.2

end ScriptGlue
