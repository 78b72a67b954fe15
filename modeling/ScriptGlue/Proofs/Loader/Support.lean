import ScriptGlue.Proofs.Extraction.Diagnosis
import ScriptGlue.Proofs.Loader.Check
import ScriptGlue.Proofs.Loader.Strictness

/-!
# Supported entries

What loading makes of a module that exports whatever its types name. Nothing is missing then, and
the fields and the names of the entries settle which of them come in (`admission_eq_supported`).
-/

namespace ScriptGlue
open Interface

/-- What keeps an entry out if nothing is missing: the first field that cannot be accessed, or else
an earlier entry of its name without such a field. -/
def supported : Verdict := fun before t =>
  match t.fields.find? (!·.type.isAccessible) with
  | some f => some (.unsupportedField t.name f.name f.type)
  | none =>
    if ∃ u ∈ before, (∀ f ∈ u.fields, f.type.isAccessible) ∧ u.name = t.name then
      some (.duplicateType t.name)
    else none

/-- An error that speaks of what an entry declares, and not of the module. -/
def LoadError.IsRefusal : LoadError → Prop
  | unsupportedField _ _ _ | duplicateType _ => True
  | _ => False

theorem find?_eq_none_iff_accessible {t : ScriptType} :
    t.fields.find? (!·.type.isAccessible) = none ↔ ∀ f ∈ t.fields, f.type.isAccessible := by
  simp

theorem supported_eq_unsupportedField_iff {before : List ScriptType} {t : ScriptType}
    {name field : String} {type : FieldType} :
    supported before t = some (.unsupportedField name field type) ↔
      ∃ f, t.fields.find? (!·.type.isAccessible) = some f ∧
        LoadError.unsupportedField name field type = .unsupportedField t.name f.name f.type := by
  unfold supported
  split
  · rename_i f found
    simp [found, eq_comm]
  · rename_i none
    simp [none]

/-! ### A module that exports what its types name -/

section Exporting

variable {m : Module} {t : ScriptType}

theorem head?_fieldFaults {typeName : String} {fields : List Field}
    (exported : ∀ f ∈ fields, f.type.isAccessible →
      (m.function? f.getter).isSome ∧ (m.function? f.setter).isSome) :
    (fields.flatMap (fieldFaults m typeName)).head? =
      (fields.find? (!·.type.isAccessible)).map fun f =>
        .unsupportedField typeName f.name f.type := by
  induction fields with
  | nil => rfl
  | cons f fields ih =>
    by_cases accessible : f.type.isAccessible
    · have sound : fieldFaults m typeName f = [] :=
        fieldFaults_eq_nil_iff.mpr ⟨accessible, exported f List.mem_cons_self accessible⟩
      rw [List.flatMap_cons, sound, List.nil_append,
        ih fun g member => exported g (List.mem_cons_of_mem f member)]
      simp [accessible]
    · simp [fieldFaults, accessible]

theorem head?_faults (exported : ∀ s ∈ t.exportedSymbols, (m.function? s).isSome) :
    (faults m t).head? = (t.fields.find? (!·.type.isAccessible)).map fun f =>
      .unsupportedField t.name f.name f.type := by
  have create : symbolFaults m t.name t.create = [] :=
    symbolFaults_eq_nil_iff.mpr (exported _ (by simp [ScriptType.exportedSymbols]))
  have destroy : symbolFaults m t.name t.destroy = [] :=
    symbolFaults_eq_nil_iff.mpr (exported _ (by simp [ScriptType.exportedSymbols]))
  rw [faults, create, destroy, List.nil_append, List.nil_append]
  exact head?_fieldFaults fun f member => accessors_of_exported exported member

theorem resolvable_iff_accessible (exported : ∀ s ∈ t.exportedSymbols, (m.function? s).isSome) :
    Resolvable m t ↔ ∀ f ∈ t.fields, f.type.isAccessible := by
  rw [resolvable_iff_exported]
  exact and_iff_right exported

theorem verdict_eq_supported {before : List ScriptType}
    (earlier : ∀ u ∈ before, ∀ s ∈ u.exportedSymbols, (m.function? s).isSome)
    (exported : ∀ s ∈ t.exportedSymbols, (m.function? s).isSome) :
    Collection.verdict m before t = supported before t := by
  have duplicate : (∃ u ∈ before, Resolvable m u ∧ u.name = t.name) ↔
      ∃ u ∈ before, (∀ f ∈ u.fields, f.type.isAccessible) ∧ u.name = t.name := by
    constructor
    · rintro ⟨u, member, resolvable, same⟩
      exact ⟨u, member, (resolvable_iff_accessible (earlier u member)).mp resolvable, same⟩
    · rintro ⟨u, member, accessible, same⟩
      exact ⟨u, member, (resolvable_iff_accessible (earlier u member)).mpr accessible, same⟩
  unfold supported
  cases found : t.fields.find? (!·.type.isAccessible) with
  | some f =>
    have fault := head?_faults exported
    rw [found] at fault
    exact Collection.verdict_of_fault fault
  | none =>
    have resolvable := (resolvable_iff_accessible exported).mpr
      (find?_eq_none_iff_accessible.mp found)
    simp only [Collection.verdict, if_pos resolvable, duplicate]

/-- The entries that come in and the refusals are settled by the fields alone. -/
theorem admission_eq_supported {types : List ScriptType}
    (exported : ∀ s ∈ types.flatMap ScriptType.exportedSymbols, (m.function? s).isSome) :
    (Collection.verdict m).admitted types = supported.admitted types ∧
      (Collection.verdict m).refusals types = supported.refusals types := by
  have each : ∀ t ∈ types, ∀ s ∈ t.exportedSymbols, (m.function? s).isSome :=
    fun t member s own => exported s (List.mem_flatMap.mpr ⟨t, member, own⟩)
  apply Verdict.congr
  rintro before t after rfl
  exact verdict_eq_supported (fun u member => each u (by simp [member])) (each t (by simp))

theorem refusal_of_load {types : List ScriptType}
    (registered : Collection.registeredTypes m = .ok types)
    (exported : ∀ s ∈ types.flatMap ScriptType.exportedSymbols, (m.function? s).isSome)
    {options : LoadOptions} {e : LoadError}
    (met : Collection.load m options = .error e ∨
      ∃ c, Collection.load m options = .ok c ∧ e ∈ c.skipped) :
    e.IsRefusal := by
  have kept := Collection.mem_skipped_of_load registered met
  rcases Collection.mem_skipped_run kept with ⟨t, member, fault⟩ | ⟨name, rfl⟩
  · rw [head?_faults fun s own => exported s (List.mem_flatMap.mpr ⟨t, member, own⟩)] at fault
    obtain ⟨f, -, rfl⟩ := Option.map_eq_some_iff.mp fault
    trivial
  · trivial

end Exporting

theorem supported_eq_none {before after : List ScriptType} {t : ScriptType}
    (accessible : ∀ f ∈ t.fields, f.type.isAccessible)
    (distinct : ((before ++ t :: after).map (·.name)).Nodup) : supported before t = none := by
  have fresh : ¬ ∃ u ∈ before, (∀ f ∈ u.fields, f.type.isAccessible) ∧ u.name = t.name := by
    rintro ⟨u, member, -, same⟩
    rw [List.map_append, List.nodup_append] at distinct
    exact distinct.2.2 u.name (List.mem_map_of_mem member) t.name (by simp) same
  rw [supported, find?_eq_none_iff_accessible.mpr accessible]
  exact if_neg fresh

theorem supported_whole {types : List ScriptType}
    (accessible : ∀ t ∈ types, ∀ f ∈ t.fields, f.type.isAccessible)
    (distinct : (types.map (·.name)).Nodup) :
    supported.admitted types = types ∧ supported.refusals types = [] := by
  apply Verdict.eq_self_of_none
  rintro before t after rfl
  exact supported_eq_none (accessible t (by simp)) distinct

/-- A name has an unsupported field exactly if an entry of the name is refused for a field, although
the entry is refused for its first such field only. -/
theorem unsupported_iff_refused {types : List ScriptType} {name : String} :
    (∃ field, (name, field) ∈ types.flatMap ScriptType.unsupported) ↔
      ∃ field type, .unsupportedField name field type ∈ supported.refusals types := by
  constructor
  · rintro ⟨field, member⟩
    obtain ⟨t, inside, own⟩ := List.mem_flatMap.mp member
    obtain ⟨f, kept, same⟩ := List.mem_map.mp own
    obtain ⟨rfl, -⟩ := Prod.mk.inj same
    obtain ⟨before, after, split⟩ := List.append_of_mem inside
    obtain ⟨inType, inaccessible⟩ := List.mem_filter.mp kept
    cases found : t.fields.find? (!·.type.isAccessible) with
    | none =>
      rw [find?_eq_none_iff_accessible.mp found f inType] at inaccessible
      exact nomatch inaccessible
    | some g =>
      have said : supported before t = some (.unsupportedField t.name g.name g.type) :=
        supported_eq_unsupportedField_iff.mpr ⟨g, found, rfl⟩
      exact ⟨g.name, g.type, Verdict.mem_refusals_iff.mpr ⟨before, t, after, split, said⟩⟩
  · rintro ⟨field, type, member⟩
    obtain ⟨before, t, after, rfl, said⟩ := Verdict.mem_refusals_iff.mp member
    obtain ⟨f, found, same⟩ := supported_eq_unsupportedField_iff.mp said
    obtain ⟨rfl, rfl, rfl⟩ := LoadError.unsupportedField.inj same
    have inaccessible := List.find?_some found
    have kept : f ∈ t.fields.filter (!·.type.isAccessible) :=
      List.mem_filter.mpr ⟨List.mem_of_find?_eq_some found, inaccessible⟩
    exact ⟨f.name, List.mem_flatMap.mpr ⟨t, by simp, List.mem_map_of_mem kept⟩⟩

end ScriptGlue
