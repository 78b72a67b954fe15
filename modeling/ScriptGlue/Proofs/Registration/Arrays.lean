import ScriptGlue.Glue.Registration
import ScriptGlue.Proofs.Registration.Meaning
import Mathlib.Data.List.Sigma

/-!
# Arrays of a registration

The arrays that some types are registered with, and what they mean. No two of them have one name,
each stands behind those that it refers to, and together they are the literal table of the types
(`table?_unitOf`).
-/

namespace ScriptGlue.Registration
open Text

/-! ### Names -/

inductive ArrayName
  | fields (index : Nat)
  | parameters (index method : Nat)
  | methods (index : Nat)
  | scripts

namespace ArrayName

def text : ArrayName → String
  | fields index => fieldsName index
  | parameters index method => parametersName index method
  | methods index => methodsName index
  | scripts => scriptsName

/-- The first letter behind the prefix that all names share. -/
def letter : ArrayName → Char
  | fields _ => 'f'
  | parameters _ _ => 'p'
  | methods _ => 'm'
  | scripts => 's'

theorem text_fields (i : Nat) : (fields i).text = "ns_fields_" ++ toString i := rfl

theorem text_parameters (i m : Nat) :
    (parameters i m).text = "ns_params_" ++ (toString i ++ "_" ++ toString m) := by
  rw [← String.append_assoc, ← String.append_assoc]
  rfl

theorem text_methods (i : Nat) : (methods i).text = "ns_methods_" ++ toString i := rfl

-- The fourth character tells the sorts of names apart, and the digits behind it the indices.
theorem getElem?_text (n : ArrayName) : n.text.toList[3]? = some n.letter := by
  cases n with
  | fields i => simp [text_fields, letter]
  | parameters i m => simp [text_parameters, letter]
  | methods i => simp [text_methods, letter]
  | scripts => decide

theorem isWord (n : ArrayName) : IsWord n.text := by
  have digits (n : Nat) : ∀ c ∈ (toString n).toList, Piece.isWordPart c :=
    fun _ => isWordPart_of_mem_toString
  cases n with
  | fields i => exact IsWord.append (by decide) (digits i)
  | parameters i m =>
    have front : IsWord ("ns_params_" ++ toString i) := IsWord.append (by decide) (digits i)
    have underscore : ∀ c ∈ "_".toList, Piece.isWordPart c := List.all_eq_true.mp (by decide)
    exact (front.append underscore).append (digits m)
  | methods i => exact IsWord.append (by decide) (digits i)
  | scripts => decide

theorem text_ne_nullptr (n : ArrayName) : n.text ≠ "nullptr" := by
  intro same
  have fourth := n.getElem?_text
  rw [same] at fourth
  cases n <;> exact nomatch fourth

theorem indices_injective {i j m k : Nat}
    (same : toString i ++ "_" ++ toString m = toString j ++ "_" ++ toString k) :
    i = j ∧ m = k := by
  have absent (n : Nat) : '_' ∉ (toString n).toList :=
    fun member => nomatch isDigit_of_mem_toString member
  have parts := congrArg (fun t => cut '_' t.toList) same
  have split (n m : Nat) : (toString n ++ "_" ++ toString m).toList =
      (toString n).toList ++ '_' :: (toString m).toList := by simp
  simp only [split, cut_append (absent _), Prod.mk.injEq, String.toList_inj] at parts
  exact ⟨toString_injective parts.1, toString_injective parts.2⟩

theorem text_injective : Function.Injective text := by
  intro first second same
  have letters : first.letter = second.letter := by
    have fourth := first.getElem?_text
    rw [same, second.getElem?_text] at fourth
    exact (Option.some.inj fourth).symm
  cases first <;> cases second <;> simp only [letter, Char.reduceEq] at letters
  case fields.fields i j =>
    rw [toString_injective ((String.append_right_inj _).mp same)]
  case parameters.parameters i m j k =>
    rw [text_parameters, text_parameters, String.append_right_inj] at same
    obtain ⟨rfl, rfl⟩ := indices_injective same
    rfl
  case methods.methods i j =>
    rw [toString_injective ((String.append_right_inj _).mp same)]
  case scripts.scripts => rfl

end ArrayName

/-! ### Rows -/

def tagCell (type : FieldType) : Cell := .number type.tag.toInt.toNat

def pointer (n : ArrayName) (length : Nat) : Cell := .name (reference n.text length)

def fieldCells (f : Field) : List Cell :=
  [tagCell f.type, .text f.name, .text f.getter, .text f.setter]

def methodCells (index : Nat) (m : Method × Nat) : List Cell :=
  [.text m.1.name, pointer (.parameters index m.2) m.1.parameters.length,
    .number m.1.parameters.length, tagCell m.1.returnType]

def scriptCells (t : ScriptType × Nat) : List Cell :=
  [.text t.1.name, pointer (.fields t.2) t.1.fields.length, .number t.1.fields.length,
    pointer (.methods t.2) t.1.methods.length, .number t.1.methods.length, .text t.1.create,
    .text t.1.destroy]

/-! ### Arrays -/

def fieldArray (t : ScriptType × Nat) : ArrayDefinition :=
  ⟨"ns_field_info", (ArrayName.fields t.2).text, t.1.fields.map fieldCells⟩

def parameterArray (index : Nat) (m : Method × Nat) : ArrayDefinition :=
  ⟨"int", (ArrayName.parameters index m.2).text, m.1.parameters.map fun type => [tagCell type]⟩

def methodArray (t : ScriptType × Nat) : ArrayDefinition :=
  ⟨"ns_method_info", (ArrayName.methods t.2).text, t.1.methods.zipIdx.map (methodCells t.2)⟩

def memberArrays (t : ScriptType × Nat) : List ArrayDefinition :=
  fieldArray t :: t.1.methods.zipIdx.map (parameterArray t.2) ++ [methodArray t]

def scriptArray (types : List ScriptType) : ArrayDefinition :=
  ⟨"ns_script_info", ArrayName.scripts.text, types.zipIdx.map scriptCells⟩

/-- The arrays that have elements. -/
def filled (arrays : List ArrayDefinition) : List ArrayDefinition :=
  arrays.filter fun a => !a.rows.isEmpty

/-- What the types are registered with. -/
def unitOf (types : List ScriptType) : SourceUnit :=
  ⟨filled (types.zipIdx.flatMap memberArrays ++ [scriptArray types]), .number types.length,
    pointer .scripts types.length⟩

theorem mem_filled {arrays : List ArrayDefinition} {a : ArrayDefinition} :
    a ∈ filled arrays ↔ a ∈ arrays ∧ a.rows ≠ [] := by
  simp [filled]

theorem filled_eq_nil {a : ArrayDefinition} (none : a.rows = []) : filled [a] = [] := by
  simp [filled, none]

theorem filled_eq_self {a : ArrayDefinition} (some : a.rows ≠ []) : filled [a] = [a] := by
  simp [filled, some]

theorem filled_append (first second : List ArrayDefinition) :
    filled (first ++ second) = filled first ++ filled second :=
  List.filter_append first second

theorem filled_flatMap {α : Type} (f : α → List ArrayDefinition) (items : List α) :
    filled (items.flatMap f) = items.flatMap fun a => filled (f a) :=
  List.filter_flatMap

/-! ### Distinct names -/

def memberNames (t : ScriptType × Nat) : List ArrayName :=
  .fields t.2 :: t.1.methods.zipIdx.map (fun m => .parameters t.2 m.2) ++ [.methods t.2]

theorem names_memberArrays (t : ScriptType × Nat) :
    (memberArrays t).map (·.name) = (memberNames t).map ArrayName.text := by
  simp only [memberArrays, memberNames, List.cons_append, List.map_cons, List.map_append,
    List.map_map, List.map_nil]
  rfl

theorem nodup_memberNames (t : ScriptType × Nat) : (memberNames t).Nodup := by
  have parameters : (t.1.methods.zipIdx.map fun m => ArrayName.parameters t.2 m.2).Nodup := by
    have numbers := List.nodup_zipIdx_map_snd t.1.methods
    rw [List.nodup_iff_pairwise_ne, List.pairwise_map] at numbers ⊢
    exact numbers.imp fun different same => different (ArrayName.parameters.inj same).2
  have front : ArrayName.fields t.2 ∉ t.1.methods.zipIdx.map fun m => .parameters t.2 m.2 := by simp
  refine List.nodup_append.mpr
    ⟨List.nodup_cons.mpr ⟨front, parameters⟩, List.nodup_singleton _, fun n inside last member => ?_⟩
  rw [List.mem_singleton.mp member]
  rcases List.mem_cons.mp inside with rfl | behind
  · exact nofun
  · obtain ⟨m, -, rfl⟩ := List.mem_map.mp behind
    exact nofun

/-- The type whose member an array holds. -/
def ArrayName.index? : ArrayName → Option Nat
  | fields index => some index
  | parameters index _ => some index
  | methods index => some index
  | scripts => none

theorem index?_of_mem {t : ScriptType × Nat} {n : ArrayName} (member : n ∈ memberNames t) :
    n.index? = some t.2 := by
  rcases List.mem_append.mp member with front | last
  · rcases List.mem_cons.mp front with rfl | inside
    · rfl
    · obtain ⟨m, -, rfl⟩ := List.mem_map.mp inside
      rfl
  · rw [List.mem_singleton.mp last]
    rfl

theorem nodup_names (types : List ScriptType) :
    (types.zipIdx.flatMap memberNames ++ [ArrayName.scripts]).Nodup := by
  have numbers := List.nodup_zipIdx_map_snd types
  rw [List.nodup_iff_pairwise_ne, List.pairwise_map] at numbers
  have members : (types.zipIdx.flatMap memberNames).Nodup := by
    refine List.nodup_flatMap.mpr ⟨fun t _ => nodup_memberNames t, numbers.imp ?_⟩
    intro first second different n inFirst inSecond
    have index := (index?_of_mem inFirst).symm.trans (index?_of_mem inSecond)
    exact different (Option.some.inj index)
  refine List.nodup_append.mpr ⟨members, List.nodup_singleton _, fun n inside last member same => ?_⟩
  obtain ⟨t, -, inType⟩ := List.mem_flatMap.mp inside
  rw [same, List.mem_singleton.mp member] at inType
  exact nomatch index?_of_mem inType

theorem distinct_unitOf (types : List ScriptType) :
    ((unitOf types).arrays.map (·.name)).Nodup := by
  have names : (types.zipIdx.flatMap memberArrays ++ [scriptArray types]).map (·.name) =
      (types.zipIdx.flatMap memberNames ++ [ArrayName.scripts]).map ArrayName.text := by
    rw [List.map_append, List.map_flatMap, List.map_append, List.map_flatMap]
    simp only [names_memberArrays]
    rfl
  have whole := (nodup_names types).map ArrayName.text_injective
  rw [← names] at whole
  exact whole.sublist (List.filter_sublist.map _)

/-! ### References -/

theorem pointer_of_ne (n : ArrayName) {length : Nat} (some : length ≠ 0) :
    pointer n length = .name n.text := by
  rw [pointer, reference, if_neg some]

theorem of_reference?_pointer {n : ArrayName} {length : Nat} {name : String}
    (refers : (pointer n length).reference? = some name) : length ≠ 0 ∧ name = n.text := by
  by_cases none : length = 0
  · subst none
    exact nomatch refers
  · rw [pointer_of_ne n none, Cell.reference?, if_neg n.text_ne_nullptr] at refers
    exact ⟨none, (Option.some.inj refers).symm⟩

theorem references_fieldArray (t : ScriptType × Nat) : (fieldArray t).references = [] := by
  refine List.eq_nil_iff_forall_not_mem.mpr fun name member => ?_
  obtain ⟨row, inRows, c, inRow, refers⟩ := ArrayDefinition.mem_references.mp member
  obtain ⟨f, -, rfl⟩ := List.mem_map.mp inRows
  simp only [fieldCells, List.mem_cons, List.not_mem_nil, or_false] at inRow
  rcases inRow with rfl | rfl | rfl | rfl <;> exact nomatch refers

theorem references_parameterArray (index : Nat) (m : Method × Nat) :
    (parameterArray index m).references = [] := by
  refine List.eq_nil_iff_forall_not_mem.mpr fun name member => ?_
  obtain ⟨row, inRows, c, inRow, refers⟩ := ArrayDefinition.mem_references.mp member
  obtain ⟨type, -, rfl⟩ := List.mem_map.mp inRows
  rw [List.mem_singleton.mp inRow] at refers
  exact nomatch refers

theorem of_mem_references_methodArray {t : ScriptType × Nat} {name : String}
    (member : name ∈ (methodArray t).references) :
    ∃ m ∈ t.1.methods.zipIdx, (parameterArray t.2 m).rows ≠ [] ∧
      name = (parameterArray t.2 m).name := by
  obtain ⟨row, inRows, c, inRow, refers⟩ := ArrayDefinition.mem_references.mp member
  obtain ⟨m, inMethods, rfl⟩ := List.mem_map.mp inRows
  simp only [methodCells, List.mem_cons, List.not_mem_nil, or_false] at inRow
  rcases inRow with rfl | rfl | rfl | rfl
  · exact nomatch refers
  · obtain ⟨some, rfl⟩ := of_reference?_pointer refers
    exact ⟨m, inMethods, by simpa [parameterArray] using some, rfl⟩
  · exact nomatch refers
  · exact nomatch refers

theorem of_mem_references_scriptArray {types : List ScriptType} {name : String}
    (member : name ∈ (scriptArray types).references) :
    ∃ t ∈ types.zipIdx, ∃ a ∈ memberArrays t, a.rows ≠ [] ∧ name = a.name := by
  obtain ⟨row, inRows, c, inRow, refers⟩ := ArrayDefinition.mem_references.mp member
  obtain ⟨t, inTypes, rfl⟩ := List.mem_map.mp inRows
  simp only [scriptCells, List.mem_cons, List.not_mem_nil, or_false] at inRow
  rcases inRow with rfl | rfl | rfl | rfl | rfl | rfl | rfl
  · exact nomatch refers
  · obtain ⟨some, rfl⟩ := of_reference?_pointer refers
    refine ⟨t, inTypes, fieldArray t, by simp [memberArrays], ?_, rfl⟩
    simpa [fieldArray] using some
  · exact nomatch refers
  · obtain ⟨some, rfl⟩ := of_reference?_pointer refers
    refine ⟨t, inTypes, methodArray t, by simp [memberArrays], ?_, rfl⟩
    simpa [methodArray] using some
  · exact nomatch refers
  · exact nomatch refers
  · exact nomatch refers

theorem ordered_memberArrays (t : ScriptType × Nat) : Ordered [] (filled (memberArrays t)) := by
  rw [memberArrays, filled_append, ordered_append]
  refine ⟨ordered_of_subset fun a member => ?_, ordered_of_subset fun a member => ?_⟩
  · rcases List.mem_cons.mp (mem_filled.mp member).1 with rfl | inside
    · rw [references_fieldArray]
      exact List.nil_subset _
    · obtain ⟨m, -, rfl⟩ := List.mem_map.mp inside
      rw [references_parameterArray]
      exact List.nil_subset _
  · -- The array of methods refers to arrays of parameters, all of which stand in front of it.
    rw [List.mem_singleton.mp (mem_filled.mp member).1]
    intro name refers
    obtain ⟨m, inMethods, some, rfl⟩ := of_mem_references_methodArray refers
    have parameters : parameterArray t.2 m ∈
        filled (fieldArray t :: t.1.methods.zipIdx.map (parameterArray t.2)) :=
      mem_filled.mpr ⟨List.mem_cons_of_mem _ (List.mem_map_of_mem inMethods), some⟩
    exact List.mem_append_left _ (List.mem_reverse.mpr (List.mem_map_of_mem parameters))

theorem mem_filled_members {types : List ScriptType} {t : ScriptType × Nat} (inTypes : t ∈ types.zipIdx)
    {a : ArrayDefinition} (member : a ∈ memberArrays t) (some : a.rows ≠ []) :
    a ∈ filled (types.zipIdx.flatMap memberArrays) :=
  mem_filled.mpr ⟨List.mem_flatMap.mpr ⟨t, inTypes, member⟩, some⟩

theorem wellFormed_unitOf (types : List ScriptType) : (unitOf types).WellFormed where
  distinct := distinct_unitOf types
  filled := fun a member => (mem_filled.mp member).2
  ordered := by
    rw [unitOf, filled_append, ordered_append]
    -- Only the array of types refers to arrays of another type's group.
    refine ⟨?_, ordered_of_subset fun a member => ?_⟩
    · rw [filled_flatMap]
      exact ordered_flatMap fun t _ => ordered_memberArrays t
    · rw [List.mem_singleton.mp (mem_filled.mp member).1]
      intro name refers
      obtain ⟨t, inTypes, a, inType, some, rfl⟩ := of_mem_references_scriptArray refers
      have inside := List.mem_map_of_mem (f := (·.name)) (mem_filled_members inTypes inType some)
      exact List.mem_append_left _ (List.mem_reverse.mpr inside)
  handed := by
    intro name refers
    obtain ⟨some, rfl⟩ := of_reference?_pointer refers
    have scripts : scriptArray types ∈ (unitOf types).arrays :=
      mem_filled.mpr ⟨by simp, by simpa [scriptArray] using some⟩
    exact List.mem_map_of_mem (f := (·.name)) scripts

/-! ### Meaning -/

theorem int?_tagCell (type : FieldType) : (tagCell type).int? = some type.tag := by
  cases type with
  | unknown => rfl
  | scalar kind => cases kind <;> rfl
  | void => rfl

theorem array?_pointer {α β : Type} {u : SourceUnit} (distinct : (u.arrays.map (·.name)).Nodup)
    {n : ArrayName} {elementType : String} {element? : List Cell → Option α}
    {cells : β → List Cell} {write : β → α} {items : List β}
    (defined : items ≠ [] → ⟨elementType, n.text, items.map cells⟩ ∈ u.arrays)
    (bound : items.length ≤ RawArray.maxLength)
    (each : ∀ b ∈ items, element? (cells b) = some (write b)) :
    u.array? elementType element? (pointer n items.length) (.number items.length) =
      some (.literal (items.map write)) := by
  by_cases none : items = []
  · subst none
    exact SourceUnit.array?_null
  · rw [pointer_of_ne n (by simpa using none)]
    exact SourceUnit.array?_of_mem distinct (defined none) n.text_ne_nullptr rfl none bound each

theorem field?_fieldCells (f : Field) : field? (fieldCells f) = some (RawField.literal f) := by
  simp only [field?, fieldCells, int?_tagCell]
  rfl

section Members

variable {u : SourceUnit} (distinct : (u.arrays.map (·.name)).Nodup) {t : ScriptType × Nat}
  (defined : ∀ a ∈ memberArrays t, a.rows ≠ [] → a ∈ u.arrays) (encodable : t.1.Encodable)

include distinct defined encodable

theorem array?_fields :
    u.array? "ns_field_info" field? (pointer (.fields t.2) t.1.fields.length)
      (.number t.1.fields.length) = some (.literal (t.1.fields.map RawField.literal)) := by
  refine array?_pointer distinct (fun some => ?_) encodable.fieldCount
    fun f _ => field?_fieldCells f
  exact defined (fieldArray t) (by simp [memberArrays]) (by simpa [fieldArray] using some)

theorem method?_methodCells {m : Method × Nat} (member : m ∈ t.1.methods.zipIdx) :
    method? u (methodCells t.2 m) = some (RawMethod.literal m.1) := by
  have bound := (encodable.methods m.1 (List.fst_mem_of_mem_zipIdx member)).2
  have parameters : u.array? "int" parameter? (pointer (.parameters t.2 m.2) m.1.parameters.length)
      (.number m.1.parameters.length) = some (.literal (m.1.parameters.map FieldType.tag)) := by
    have read : ∀ type ∈ m.1.parameters, parameter? [tagCell type] = some type.tag :=
      fun type _ => int?_tagCell type
    refine array?_pointer distinct (fun some => ?_) bound read
    have inside : parameterArray t.2 m ∈ memberArrays t :=
      List.mem_append_left _ (List.mem_cons_of_mem _ (List.mem_map_of_mem member))
    exact defined (parameterArray t.2 m) inside (by simpa [parameterArray] using some)
  simp only [method?, methodCells, parameters, int?_tagCell]
  rfl

theorem array?_methods :
    u.array? "ns_method_info" (method? u) (pointer (.methods t.2) t.1.methods.length)
      (.number t.1.methods.length) = some (.literal (t.1.methods.map RawMethod.literal)) := by
  have read : ∀ m ∈ t.1.methods.zipIdx,
      method? u (methodCells t.2 m) = some ((RawMethod.literal ∘ Prod.fst) m) :=
    fun m member => method?_methodCells distinct defined encodable member
  have inside : t.1.methods.zipIdx ≠ [] → methodArray t ∈ u.arrays := fun some =>
    defined (methodArray t) (by simp [memberArrays]) (by simpa [methodArray] using some)
  have bound : t.1.methods.zipIdx.length ≤ RawArray.maxLength := by
    rw [List.length_zipIdx]
    exact encodable.methodCount
  -- What a method is written as does not depend on its number.
  have array := array?_pointer distinct inside bound read
  rwa [List.length_zipIdx, ← List.map_map, List.zipIdx_map_fst] at array

theorem script?_scriptCells : script? u (scriptCells t) = some (RawScript.literal t.1) := by
  simp only [script?, scriptCells, array?_fields distinct defined encodable,
    array?_methods distinct defined encodable]
  rfl

end Members

theorem table?_unitOf {types : List ScriptType} (encodable : ∀ t ∈ types, t.Encodable)
    (bound : types.length ≤ RawArray.maxLength) :
    (unitOf types).table? = some (Table.literal types) := by
  have distinct := distinct_unitOf types
  have read : ∀ t ∈ types.zipIdx,
      script? (unitOf types) (scriptCells t) = some ((RawScript.literal ∘ Prod.fst) t) := by
    intro t inTypes
    refine script?_scriptCells distinct (fun a member some => ?_)
      (encodable t.1 (List.fst_mem_of_mem_zipIdx inTypes))
    rw [unitOf, filled_append]
    exact List.mem_append_left _ (mem_filled_members inTypes member some)
  have inside : types.zipIdx ≠ [] → scriptArray types ∈ (unitOf types).arrays := fun some =>
    mem_filled.mpr ⟨by simp, by simpa [scriptArray] using some⟩
  have counted : types.zipIdx.length ≤ RawArray.maxLength := by rwa [List.length_zipIdx]
  have array := array?_pointer distinct inside counted read
  rwa [List.length_zipIdx, ← List.map_map, List.zipIdx_map_fst] at array

end ScriptGlue.Registration
