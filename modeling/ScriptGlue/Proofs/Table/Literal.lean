import ScriptGlue.Proofs.Table.Decoding

/-!
# Literal tables

A table without slack: every count is the length of the array beside it, and an array that would be
empty is a null pointer instead. The literal table of some types is read as these types
(`decode_literal`).
-/

namespace ScriptGlue

variable {α β : Type}

/-! ### Tables without slack -/

/-- A count that is the length, and no pointer to an array of no entries. -/
structure RawArray.Exact (a : RawArray α) : Prop where
  count : a.count.toInt = (a.items?.getD []).length
  filled : a.items? ≠ some []

structure RawScript.Exact (s : RawScript) : Prop where
  fields : s.fields.Exact
  methods : s.methods.Exact
  parameters : ∀ m ∈ s.methods.items?.getD [], m.parameters.Exact

structure Table.Exact (t : Table) : Prop where
  array : RawArray.Exact t
  scripts : ∀ s ∈ t.items?.getD [], s.Exact

theorem RawArray.Exact.counted {a : RawArray α} (exact : a.Exact) :
    a.counted = a.items?.getD [] := by
  rw [RawArray.counted, exact.count, Int.toNat_natCast, List.take_length]

theorem RawArray.Exact.covers {a : RawArray α} (exact : a.Exact) : a.Covers := by
  intro items present
  rw [exact.count, Option.mem_def.mp present]
  exact Int.le_refl _

theorem RawScript.Exact.covers {s : RawScript} (exact : s.Exact) : s.Covers := by
  refine ⟨exact.fields.covers, exact.methods.covers, fun m member => ?_⟩
  rw [exact.methods.counted] at member
  exact (exact.parameters m member).covers

theorem Table.Exact.covers {t : Table} (exact : t.Exact) : t.Covers := by
  refine ⟨exact.array.covers, fun s member => ?_⟩
  rw [exact.array.counted] at member
  exact (exact.scripts s member).covers

/-! ### Literal records -/

def RawText.literal (text : String) : RawText := ⟨some text.toUTF8.data.toList⟩

def RawArray.literal (items : List α) : RawArray α :=
  ⟨if items.isEmpty then none else some items, Int32.ofNat items.length⟩

def RawField.literal (f : Field) : RawField :=
  ⟨f.type.tag, .literal f.name, .literal f.getter, .literal f.setter⟩

def RawMethod.literal (m : Method) : RawMethod :=
  ⟨.literal m.name, .literal (m.parameters.map FieldType.tag), m.returnType.tag⟩

def RawScript.literal (t : ScriptType) : RawScript :=
  ⟨.literal t.name, .literal (t.fields.map RawField.literal),
    .literal (t.methods.map RawMethod.literal), .literal t.create, .literal t.destroy⟩

def Table.literal (types : List ScriptType) : Table :=
  RawArray.literal (types.map RawScript.literal)

theorem RawText.spells_literal {text : String} (free : '\x00' ∉ text.toList) :
    (literal text).Spells text :=
  ⟨_, rfl, Text.takeWhile_bytes free⟩

theorem RawArray.getD_literal (items : List α) : (literal items).items?.getD [] = items := by
  cases items <;> rfl

theorem RawArray.exact_literal {items : List α} (bound : items.length ≤ maxLength) :
    (literal items).Exact := by
  refine ⟨?_, ?_⟩
  · rw [getD_literal]
    exact toInt_count bound
  · cases items <;> exact nofun

theorem RawArray.describes_literal {item : α → β → Prop} {write : β → α} {items : List β}
    (bound : items.length ≤ maxLength) (each : ∀ b ∈ items, item (write b) b) :
    (literal (items.map write)).Describes item items := by
  have exact : (literal (items.map write)).Exact := exact_literal (by rwa [List.length_map])
  refine ⟨?_, ?_⟩
  · rw [exact.count, getD_literal, List.length_map]
  · rw [exact.counted, getD_literal, List.forall₂_map_left_iff]
    exact List.forall₂_same.mpr each

theorem RawField.describes_literal {f : Field} (name : '\x00' ∉ f.name.toList)
    (getter : '\x00' ∉ f.getter.toList) (setter : '\x00' ∉ f.setter.toList) :
    (literal f).Describes f :=
  ⟨.inl rfl, RawText.spells_literal name, RawText.spells_literal getter,
    RawText.spells_literal setter⟩

theorem RawMethod.describes_literal {m : Method} (name : '\x00' ∉ m.name.toList)
    (bound : m.parameters.length ≤ RawArray.maxLength) : (literal m).Describes m :=
  ⟨RawText.spells_literal name, RawArray.describes_literal bound fun _ _ => .inl rfl, .inl rfl⟩

theorem RawScript.describes_literal {t : ScriptType} (encodable : t.Encodable) :
    (literal t).Describes t where
  name := RawText.spells_literal encodable.name
  fields := RawArray.describes_literal encodable.fieldCount fun f member =>
    have ⟨name, getter, setter⟩ := encodable.fields f member
    RawField.describes_literal name getter setter
  methods := RawArray.describes_literal encodable.methodCount fun m member =>
    have ⟨name, bound⟩ := encodable.methods m member
    RawMethod.describes_literal name bound
  create := RawText.spells_literal encodable.create
  destroy := RawText.spells_literal encodable.destroy

theorem RawScript.exact_literal {t : ScriptType} (encodable : t.Encodable) :
    (literal t).Exact := by
  refine ⟨RawArray.exact_literal ?_, RawArray.exact_literal ?_, fun raw member => ?_⟩
  · rw [List.length_map]
    exact encodable.fieldCount
  · rw [List.length_map]
    exact encodable.methodCount
  · rw [literal, RawArray.getD_literal] at member
    obtain ⟨m, inside, rfl⟩ := List.mem_map.mp member
    apply RawArray.exact_literal
    rw [List.length_map]
    exact (encodable.methods m inside).2

/-! ### Literal tables -/

namespace Table

variable {types : List ScriptType}

theorem exact_literal (encodable : ∀ t ∈ types, t.Encodable)
    (bound : types.length ≤ RawArray.maxLength) : (literal types).Exact := by
  refine ⟨RawArray.exact_literal (by rwa [List.length_map]), fun raw member => ?_⟩
  rw [literal, RawArray.getD_literal] at member
  obtain ⟨t, inside, rfl⟩ := List.mem_map.mp member
  exact RawScript.exact_literal (encodable t inside)

theorem decode_literal (encodable : ∀ t ∈ types, t.Encodable)
    (bound : types.length ≤ RawArray.maxLength) : (literal types).decode = .ok types := by
  rw [decode_eq_ok_iff (exact_literal encodable bound).covers]
  exact RawArray.describes_literal bound fun t member =>
    RawScript.describes_literal (encodable t member)

end Table

end ScriptGlue
