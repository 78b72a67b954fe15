import ScriptGlue.Proofs.Registration.Declaration
import ScriptGlue.Proofs.Table.Literal

/-!
# Meaning

The table that a source file of constant arrays hands out. Each initializer goes to the member at
its place, and the name of an array is a pointer to it.
-/

namespace ScriptGlue.Registration

/-! ### Initializers -/

def Cell.int? : Cell → Option Int32
  | number n => if n ≤ RawArray.maxLength then some (Int32.ofNat n) else none
  | _ => none

def Cell.text? : Cell → Option RawText
  | text t => some (.literal t)
  | _ => none

namespace SourceUnit

variable {α : Type} (u : SourceUnit)

/-- The rows of the array that a name stands for. -/
def rows? (elementType name : String) : Option (List (List Cell)) :=
  ((u.arrays.find? (·.name == name)).filter (·.elementType == elementType)).map (·.rows)

/-- An array and the count beside it. -/
def array? (elementType : String) (element? : List Cell → Option α) (first count : Cell) :
    Option (RawArray α) := do
  let count ← count.int?
  match first with
  | .name name =>
    if name = "nullptr" then return ⟨none, count⟩
    else return ⟨some (← (← u.rows? elementType name).mapM element?), count⟩
  | _ => none

end SourceUnit

def parameter? : List Cell → Option Int32
  | [tag] => tag.int?
  | _ => none

def field? : List Cell → Option RawField
  | [tag, name, getter, setter] => do
    return ⟨← tag.int?, ← name.text?, ← getter.text?, ← setter.text?⟩
  | _ => none

def method? (u : SourceUnit) : List Cell → Option RawMethod
  | [name, parameters, count, returnTag] => do
    return ⟨← name.text?, ← u.array? "int" parameter? parameters count, ← returnTag.int?⟩
  | _ => none

def script? (u : SourceUnit) : List Cell → Option RawScript
  | [name, fields, fieldCount, methods, methodCount, create, destroy] => do
    return ⟨← name.text?, ← u.array? "ns_field_info" field? fields fieldCount,
      ← u.array? "ns_method_info" (method? u) methods methodCount, ← create.text?,
      ← destroy.text?⟩
  | _ => none

/-- What the entry point hands out. -/
def SourceUnit.table? (u : SourceUnit) : Option Table :=
  u.array? "ns_script_info" (script? u) u.scripts u.count

/-! ### Well-formed files -/

/-- The array that a cell refers to. -/
def Cell.reference? : Cell → Option String
  | name t => if t = "nullptr" then none else some t
  | _ => none

def ArrayDefinition.references (a : ArrayDefinition) : List String :=
  a.rows.flatten.filterMap Cell.reference?

/-- No array refers to another that is neither known nor in front of it. -/
def Ordered (known : List String) : List ArrayDefinition → Prop
  | [] => True
  | a :: arrays => (∀ name ∈ a.references, name ∈ known) ∧ Ordered (a.name :: known) arrays

/-- Every array that something refers to is defined once, in front of it, and has elements. -/
structure SourceUnit.WellFormed (u : SourceUnit) : Prop where
  distinct : (u.arrays.map (·.name)).Nodup
  filled : ∀ a ∈ u.arrays, a.rows ≠ []
  ordered : Ordered [] u.arrays
  handed : ∀ name ∈ u.scripts.reference?, name ∈ u.arrays.map (·.name)

theorem ArrayDefinition.mem_references {a : ArrayDefinition} {name : String} :
    name ∈ a.references ↔ ∃ row ∈ a.rows, ∃ c ∈ row, c.reference? = some name := by
  simp only [references, List.mem_filterMap, List.mem_flatten]
  constructor
  · rintro ⟨c, ⟨row, inRows, inRow⟩, refers⟩
    exact ⟨row, inRows, c, inRow, refers⟩
  · rintro ⟨row, inRows, c, inRow, refers⟩
    exact ⟨c, ⟨row, inRows, inRow⟩, refers⟩

theorem Ordered.mono {known more : List String} (subset : known ⊆ more)
    {arrays : List ArrayDefinition} (ordered : Ordered known arrays) : Ordered more arrays := by
  -- The step makes the head known, so both lists vary.
  induction arrays generalizing known more with
  | nil => trivial
  | cons a arrays ih =>
    exact ⟨fun name member => subset (ordered.1 name member),
      ih (List.cons_subset_cons a.name subset) ordered.2⟩

theorem ordered_append {known : List String} {first second : List ArrayDefinition} :
    Ordered known (first ++ second) ↔
      Ordered known first ∧ Ordered ((first.map (·.name)).reverse ++ known) second := by
  induction first generalizing known with
  | nil => simp [Ordered]
  | cons a first ih => simp [Ordered, ih, and_assoc]

theorem ordered_of_subset {known : List String} {arrays : List ArrayDefinition}
    (each : ∀ a ∈ arrays, a.references ⊆ known) : Ordered known arrays := by
  induction arrays with
  | nil => trivial
  | cons a arrays ih =>
    have later := ih fun other member => each other (List.mem_cons_of_mem a member)
    exact ⟨fun name member => each a List.mem_cons_self member,
      later.mono (List.subset_cons_self a.name known)⟩

theorem ordered_flatMap {β : Type} {f : β → List ArrayDefinition} {items : List β}
    (each : ∀ b ∈ items, Ordered [] (f b)) : Ordered [] (items.flatMap f) := by
  induction items with
  | nil => trivial
  | cons b items ih =>
    rw [List.flatMap_cons, ordered_append]
    have later := ih fun other member => each other (List.mem_cons_of_mem b member)
    exact ⟨each b List.mem_cons_self, later.mono (List.nil_subset _)⟩

/-! ### Resolving names -/

theorem find?_name {arrays : List ArrayDefinition} (distinct : (arrays.map (·.name)).Nodup)
    {a : ArrayDefinition} (member : a ∈ arrays) : arrays.find? (·.name == a.name) = some a := by
  induction arrays with
  | nil => exact nomatch member
  | cons b arrays ih =>
    obtain ⟨fresh, distinct⟩ := List.nodup_cons.mp distinct
    rcases List.mem_cons.mp member with rfl | later
    · exact List.find?_cons_of_pos BEq.rfl
    · have other : b.name ≠ a.name := by
        intro same
        exact fresh (List.mem_map.mpr ⟨a, later, same.symm⟩)
      rw [List.find?_cons_of_neg (by simpa using other)]
      exact ih distinct later

theorem SourceUnit.rows?_of_mem {u : SourceUnit} (distinct : (u.arrays.map (·.name)).Nodup)
    {a : ArrayDefinition} (member : a ∈ u.arrays) :
    u.rows? a.elementType a.name = some a.rows := by
  rw [rows?, find?_name distinct member]
  simp

/-! ### Reading arrays -/

theorem int?_number {n : Nat} (bound : n ≤ RawArray.maxLength) :
    (Cell.number n).int? = some (Int32.ofNat n) :=
  if_pos bound

theorem mapM_map_eq_some {α β : Type} {element? : List Cell → Option α} {cells : β → List Cell}
    {write : β → α} {items : List β} (each : ∀ b ∈ items, element? (cells b) = some (write b)) :
    (items.map cells).mapM element? = some (items.map write) := by
  induction items with
  | nil => rfl
  | cons b items ih =>
    have later := ih fun other member => each other (List.mem_cons_of_mem b member)
    rw [List.map_cons, List.mapM_cons, each b List.mem_cons_self, later]
    rfl

namespace SourceUnit

variable {α β : Type} {u : SourceUnit}

theorem array?_null {elementType : String} {element? : List Cell → Option α} :
    u.array? elementType element? (.name "nullptr") (.number 0) = some (.literal []) := rfl

/-- A pointer to an array of the file, with the number of its rows. -/
theorem array?_of_mem (distinct : (u.arrays.map (·.name)).Nodup) {a : ArrayDefinition}
    (member : a ∈ u.arrays) (pointed : a.name ≠ "nullptr") {element? : List Cell → Option α}
    {cells : β → List Cell} {write : β → α} {items : List β} (rows : a.rows = items.map cells)
    (filled : items ≠ []) (bound : items.length ≤ RawArray.maxLength)
    (each : ∀ b ∈ items, element? (cells b) = some (write b)) :
    u.array? a.elementType element? (.name a.name) (.number items.length) =
      some (.literal (items.map write)) := by
  obtain ⟨b, tail, rfl⟩ := List.exists_cons_of_ne_nil filled
  have read := mapM_map_eq_some each
  rw [array?, int?_number bound]
  simp only [bind, Option.bind_some, if_neg pointed, rows?_of_mem distinct member, rows, read]
  rw [RawArray.literal, List.length_map]
  rfl

end SourceUnit

end ScriptGlue.Registration
