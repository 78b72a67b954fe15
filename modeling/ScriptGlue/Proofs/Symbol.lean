import ScriptGlue.Collision
import Mathlib.Data.List.Count
import Mathlib.Data.List.Nodup

/-!
# Symbols

Which symbols of a project coincide. None is that of the entry point, and there is no collision
exactly if the exported symbols are pairwise distinct (`find_eq_nil_iff`); then so are the names.
-/

namespace ScriptGlue

/-! ### The entry point -/

namespace Symbol

theorem create_ne_registration (typeName : String) : create typeName ≠ registration := by
  intro same
  have first := congrArg (·.toList.head?) same
  simp [create, registration] at first

theorem destroy_ne_registration (typeName : String) : destroy typeName ≠ registration := by
  intro same
  have first := congrArg (·.toList.head?) same
  simp [destroy, registration] at first

theorem underscore_not_mem_registration : '_' ∉ registration.toList := by decide

theorem getter_ne_registration (typeName fieldName : String) :
    getter typeName fieldName ≠ registration := by
  intro same
  have underscore : '_' ∈ (getter typeName fieldName).toList := by simp [getter]
  exact underscore_not_mem_registration (same ▸ underscore)

theorem setter_ne_registration (typeName fieldName : String) :
    setter typeName fieldName ≠ registration := by
  intro same
  have underscore : '_' ∈ (setter typeName fieldName).toList := by simp [setter]
  exact underscore_not_mem_registration (same ▸ underscore)

end Symbol

/-! ### Collisions -/

/-- The exported symbols without the filter: a field that is not accessible adds none. -/
theorem ScriptType.exportedSymbols_eq (t : ScriptType) :
    t.exportedSymbols = [t.create, t.destroy] ++ t.fields.flatMap fun f =>
      if f.type.isAccessible then [f.getter, f.setter] else [] := by
  rw [exportedSymbols]
  congr 1
  induction t.fields with
  | nil => rfl
  | cons f fields ih =>
    rw [List.flatMap_cons, ← ih]
    by_cases accessible : f.type.isAccessible <;> simp [accessible]

theorem Definition.map_symbol_ofType (t : ScriptType) :
    (Definition.ofType t).map (·.symbol) = t.exportedSymbols := by
  have field (f : Field) : (Definition.ofField t.name f).map (·.symbol) =
      if f.type.isAccessible then [f.getter, f.setter] else [] := by
    unfold Definition.ofField
    split <;> rfl
  rw [Definition.ofType, List.map_append, List.map_flatMap, t.exportedSymbols_eq]
  simp only [field, List.map_cons, List.map_nil]

theorem Definition.map_symbol_flatMap (types : List ScriptType) :
    (types.flatMap ofType).map (·.symbol) = types.flatMap ScriptType.exportedSymbols := by
  simp only [List.map_flatMap, map_symbol_ofType]

namespace Collision

theorem length_owners (definitions : List Definition) (symbol : String) :
    ((definitions.filter (·.symbol == symbol)).map (·.owner)).length =
      (definitions.map (·.symbol)).count symbol := by
  rw [List.length_map, ← List.countP_eq_length_filter, List.count, List.countP_map]
  rfl

theorem at?_eq_none_iff {definitions : List Definition} {symbol : String} :
    at? definitions symbol = none ↔ (definitions.map (·.symbol)).count symbol ≤ 1 := by
  simp only [at?, length_owners]
  split
  · simp; omega
  · simp; omega

theorem find_eq_nil_iff {types : List ScriptType} :
    find types = [] ↔ (types.flatMap ScriptType.exportedSymbols).Nodup := by
  rw [← Definition.map_symbol_flatMap, List.nodup_iff_count_le_one]
  simp only [find, List.filterMap_eq_nil_iff, List.mem_eraseDups, at?_eq_none_iff]
  constructor
  · intro each symbol
    by_cases member : symbol ∈ (types.flatMap Definition.ofType).map (·.symbol)
    · exact each symbol member
    · rw [List.count_eq_zero_of_not_mem member]
      exact Nat.zero_le 1
  · exact fun each symbol _ => each symbol

theorem map_at? (definitions : List Definition) (symbol : String) :
    (at? definitions symbol).map (fun c => (c.symbol, c.owners.length)) =
      if 1 < (definitions.map (·.symbol)).count symbol
        then some (symbol, (definitions.map (·.symbol)).count symbol) else none := by
  simp only [at?, length_owners]
  split
  · simp only [Option.map_some, length_owners]
  · rfl

/-- A collision is found for each symbol that is exported more than once, with as many owners. -/
theorem map_find (types : List ScriptType) :
    (find types).map (fun c => (c.symbol, c.owners.length)) =
      ((types.flatMap ScriptType.exportedSymbols).eraseDups.filter fun s =>
        1 < (types.flatMap ScriptType.exportedSymbols).count s).map
          fun s => (s, (types.flatMap ScriptType.exportedSymbols).count s) := by
  rw [← Definition.map_symbol_flatMap, find, List.map_filterMap]
  simp only [map_at?]
  rw [← List.filterMap_eq_map (f := fun s : String => (s, _)), List.filterMap_filter]
  simp only [decide_eq_true_eq, Function.comp_apply]

end Collision

theorem names_nodup {types : List ScriptType}
    (named : ∀ t ∈ types, t.create = Symbol.create t.name)
    (distinct : (types.flatMap ScriptType.exportedSymbols).Nodup) : (types.map (·.name)).Nodup := by
  have apart := (List.nodup_flatMap.mp distinct).2
  refine List.pairwise_map.mpr (apart.imp_of_mem ?_)
  intro first second firstMember secondMember disjoint same
  have shared : first.create = second.create := by
    rw [named first firstMember, named second secondMember, same]
  exact disjoint (a := first.create) (by simp [ScriptType.exportedSymbols])
    (by simp [shared, ScriptType.exportedSymbols])

theorem fieldNames_nodup {t : ScriptType}
    (named : ∀ f ∈ t.fields, f.getter = Symbol.getter t.name f.name)
    (accessible : ∀ f ∈ t.fields, f.type.isAccessible)
    (distinct : t.exportedSymbols.Nodup) : (t.fields.map (·.name)).Nodup := by
  have accessors := (List.nodup_append.mp distinct).2.1
  rw [List.filter_eq_self.mpr accessible] at accessors
  refine List.pairwise_map.mpr ((List.nodup_flatMap.mp accessors).2.imp_of_mem ?_)
  intro first second firstMember secondMember disjoint same
  have shared : first.getter = second.getter := by
    rw [named first firstMember, named second secondMember, same]
  exact disjoint (a := first.getter) (by simp) (by simp [shared])

end ScriptGlue
