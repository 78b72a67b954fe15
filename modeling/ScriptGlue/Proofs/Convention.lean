import Mathlib.Data.List.Flatten
import Mathlib.Data.List.Induction
import ScriptGlue.Proofs.Symbol

/-!
# The naming convention

Within a type the convention gives each function a symbol of its own, whatever the names are
(`exportedSymbols_apart`). The accessors of a type are told from its lifecycle functions by the
number of underscores, since any of these words may stand in the names themselves.
-/

namespace ScriptGlue

namespace Symbol

/-! ### Two symbols of one type -/

theorem create_ne_destroy (typeName : String) : create typeName ≠ destroy typeName := by
  intro same
  have first := congrArg (·.toList.head?) same
  simp [create, destroy] at first

theorem getter_injective (typeName : String) : Function.Injective (getter typeName) :=
  fun _ _ same => (String.append_right_inj _).mp same

theorem setter_injective (typeName : String) : Function.Injective (setter typeName) :=
  fun _ _ same => (String.append_right_inj _).mp same

theorem getter_ne_setter (typeName f g : String) : getter typeName f ≠ setter typeName g := by
  intro same
  rw [getter, setter, String.append_assoc, String.append_assoc, String.append_right_inj] at same
  have behind := congrArg (·.toList[1]?) same
  simp at behind

def underscores (symbol : String) : Nat := symbol.toList.count '_'

theorem underscores_append (a b : String) : underscores (a ++ b) = underscores a + underscores b := by
  rw [underscores, String.toList_append, List.count_append]
  rfl

theorem underscores_create (typeName : String) :
    underscores (create typeName) = underscores typeName := by
  rw [create, underscores_append]
  exact Nat.zero_add _

theorem underscores_destroy (typeName : String) :
    underscores (destroy typeName) = underscores typeName := by
  rw [destroy, underscores_append]
  exact Nat.zero_add _

theorem underscores_getter (typeName fieldName : String) :
    underscores (getter typeName fieldName) = underscores typeName + 2 + underscores fieldName := by
  rw [getter, underscores_append, underscores_append]
  rfl

theorem underscores_setter (typeName fieldName : String) :
    underscores (setter typeName fieldName) = underscores typeName + 2 + underscores fieldName := by
  rw [setter, underscores_append, underscores_append]
  rfl

/-- Every accessor of a type has more underscores than its lifecycle functions. -/
theorem accessor_ne_lifecycle {typeName fieldName accessor lifecycle : String}
    (isAccessor : accessor ∈ [getter typeName fieldName, setter typeName fieldName])
    (isLifecycle : lifecycle ∈ [create typeName, destroy typeName]) : accessor ≠ lifecycle := by
  have more : underscores accessor = underscores typeName + 2 + underscores fieldName := by
    rcases List.mem_pair.mp isAccessor with rfl | rfl
    · exact underscores_getter typeName fieldName
    · exact underscores_setter typeName fieldName
  have fewer : underscores lifecycle = underscores typeName := by
    rcases List.mem_pair.mp isLifecycle with rfl | rfl
    · exact underscores_create typeName
    · exact underscores_destroy typeName
  rintro rfl
  omega

/-! ### All symbols of one type -/

/-- The symbols that the convention gives to a type with some fields. -/
def ofType (typeName : String) (fieldNames : List String) : List String :=
  [create typeName, destroy typeName] ++
    fieldNames.flatMap fun f => [getter typeName f, setter typeName f]

theorem nodup_ofType (typeName : String) {fieldNames : List String} (distinct : fieldNames.Nodup) :
    (ofType typeName fieldNames).Nodup := by
  refine List.nodup_append.mpr ⟨?_, List.nodup_flatMap.mpr ⟨fun f _ => ?_, ?_⟩, ?_⟩
  · simpa using create_ne_destroy typeName
  · simpa using getter_ne_setter typeName f f
  · refine distinct.imp fun {f g} differ => List.disjoint_left.mpr fun symbol one other => ?_
    rcases List.mem_pair.mp one with rfl | rfl <;> rcases List.mem_pair.mp other with same | same
    · exact differ (getter_injective typeName same)
    · exact getter_ne_setter typeName f g same
    · exact getter_ne_setter typeName g f same.symm
    · exact differ (setter_injective typeName same)
  · intro lifecycle isLifecycle accessor member
    obtain ⟨f, -, isAccessor⟩ := List.mem_flatMap.mp member
    exact (accessor_ne_lifecycle isAccessor isLifecycle).symm

theorem registration_not_mem_ofType (typeName : String) (fieldNames : List String) :
    registration ∉ ofType typeName fieldNames := by
  intro member
  rcases List.mem_append.mp member with lifecycle | accessor
  · rcases List.mem_pair.mp lifecycle with same | same
    · exact create_ne_registration typeName same.symm
    · exact destroy_ne_registration typeName same.symm
  · obtain ⟨f, -, isAccessor⟩ := List.mem_flatMap.mp accessor
    rcases List.mem_pair.mp isAccessor with same | same
    · exact getter_ne_registration typeName f same.symm
    · exact setter_ne_registration typeName f same.symm

end Symbol

/-! ### Types made by the convention -/

namespace ScriptType

/-- The type of a name, with fields pushed one after the other. -/
def ofFields (name : String) (fields : List (FieldType × String)) : ScriptType :=
  fields.foldl (fun t f => t.pushField f.1 f.2) (declared name)

/-- Every symbol of a type, also those of fields that are not accessible and export none. -/
def symbols (t : ScriptType) : List String :=
  [t.create, t.destroy] ++ t.fields.flatMap fun f => [f.getter, f.setter]

theorem exportedSymbols_sublist (t : ScriptType) : t.exportedSymbols.Sublist t.symbols :=
  (List.Sublist.refl _).append (List.filter_sublist.flatMap _)

theorem ofFields_eq (name : String) (fields : List (FieldType × String)) :
    ofFields name fields =
      { declared name with fields := fields.map fun f => Field.declared name f.1 f.2 } := by
  induction fields using List.reverseRecOn with
  | nil => rfl
  | append_singleton fields f ih =>
    rw [ofFields, List.foldl_append, ← ofFields, ih]
    simp [pushField, declared]

theorem symbols_ofFields (name : String) (fields : List (FieldType × String)) :
    (ofFields name fields).symbols = Symbol.ofType name (fields.map (·.2)) := by
  rw [ofFields_eq, symbols, Symbol.ofType, List.flatMap_map, List.flatMap_map]
  rfl

/-- The exported symbols of a type are pairwise distinct if its field names are, whatever words the
names are made of, and so are all its symbols, exported or not. None of any type is that of the entry
point. -/
theorem exportedSymbols_apart (typeName : String) {fields : List (FieldType × String)}
    (distinct : (fields.map (·.2)).Nodup) :
    (ofFields typeName fields).exportedSymbols.Nodup ∧
    (ofFields typeName fields).symbols.Nodup ∧
    ∀ (otherName : String) (otherFields : List (FieldType × String)),
      Symbol.registration ∉ (ofFields otherName otherFields).symbols := by
  have apart : (ofFields typeName fields).symbols.Nodup := by
    rw [symbols_ofFields]
    exact Symbol.nodup_ofType typeName distinct
  refine ⟨apart.sublist (exportedSymbols_sublist _), apart, fun otherName otherFields => ?_⟩
  rw [symbols_ofFields]
  exact Symbol.registration_not_mem_ofType otherName _

/-- Fields that are named after parts of symbols. -/
def wilyFields : List (FieldType × String) :=
  [(.scalar .int, ""), (.scalar .wide, "create"), (.unknown, "_get_"), (.scalar .bool, "_set__get_")]

theorem exportedSymbols_apart_wilyFields :
    (wilyFields.map (·.2)).Nodup ∧ (ofFields "create_get_" wilyFields).exportedSymbols.Nodup ∧
    (ofFields "create_get_" wilyFields).symbols.length = 10 := by
  have distinct : (wilyFields.map (·.2)).Nodup := by decide
  exact ⟨distinct, (exportedSymbols_apart "create_get_" distinct).1, rfl⟩

end ScriptType

end ScriptGlue
