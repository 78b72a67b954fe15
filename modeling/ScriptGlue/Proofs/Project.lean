import ScriptGlue.Project
import ScriptGlue.Proofs.Extraction.Diagnosis
import ScriptGlue.Proofs.Glue.Reading
import Mathlib.Data.List.Induction

/-!
# Headers of a project

A project holds what extraction finds in its headers, one header after the other, and the generated
headers define together what its types ask for (`glue_eq`).
-/

namespace ScriptGlue.Project

theorem ofHeaders_append (headers : List (String × String)) (h : String × String) :
    ofHeaders (headers ++ [h]) = (ofHeaders headers).addHeader h.1 h.2 :=
  List.foldl_append

theorem types_ofHeaders (headers : List (String × String)) :
    (ofHeaders headers).types = headers.flatMap fun h => (Extraction.ofSource h.2).types := by
  induction headers using List.reverseRecOn with
  | nil => rfl
  | append_singleton headers h ih =>
    rw [ofHeaders_append, List.flatMap_append, List.flatMap_singleton, ← ih]
    rfl

theorem declared_of_mem_ofHeaders {headers : List (String × String)} {t : ScriptType}
    (member : t ∈ (ofHeaders headers).types) : t.IsDeclared := by
  rw [types_ofHeaders] at member
  obtain ⟨h, -, inside⟩ := List.mem_flatMap.mp member
  exact declared_of_mem_ofSource inside

theorem unsupported_ofHeaders (headers : List (String × String)) :
    (ofHeaders headers).diagnostics.filterMap (·.diagnostic.unsupported?) =
      (ofHeaders headers).types.flatMap ScriptType.unsupported := by
  induction headers using List.reverseRecOn with
  | nil => rfl
  | append_singleton headers h ih =>
    rw [ofHeaders_append, addHeader, List.filterMap_append, List.flatMap_append, ih,
      List.filterMap_map, ← Extraction.unsupported_ofSource]
    rfl

theorem diagnosed_iff {headers : List (String × String)} {name : String} :
    (∃ d ∈ (ofHeaders headers).diagnostics, ∃ field declared span,
        d.diagnostic = .unknownFieldType name field declared span) ↔
      ∃ field, (name, field) ∈ (ofHeaders headers).types.flatMap ScriptType.unsupported := by
  simp only [← unsupported_ofHeaders, List.mem_filterMap, Diagnostic.unsupported?_eq_some_iff]
  constructor
  · rintro ⟨d, member, field, complaint⟩
    exact ⟨field, d, member, complaint⟩
  · rintro ⟨field, d, member, complaint⟩
    exact ⟨d, member, field, complaint⟩

/-- What a generated header has behind its source. -/
def appended (source : String) : List Char :=
  (generate source).contents.toList.drop source.toList.length

/-- The symbols that the generated headers define, each with what its function does. -/
def glue (headers : List (String × String)) : List (String × Glue.Action) :=
  headers.flatMap fun h => Glue.definitions (appended h.2)

theorem appended_eq (source : String) :
    appended source = (Glue.text (Extraction.ofSource source).types).toList := by
  have contents : (generate source).contents.toList =
      source.toList ++ (Glue.text (Extraction.ofSource source).types).toList :=
    String.toList_append
  rw [appended, contents, List.drop_left]

theorem glue_eq (headers : List (String × String)) :
    glue headers = (ofHeaders headers).types.flatMap Glue.wanted := by
  rw [types_ofHeaders, List.flatMap_assoc]
  apply List.flatMap_congr
  intro h _
  rw [appended_eq]
  exact Glue.definitions_text fun t member => (declared_of_mem_ofSource member).isIdentified

theorem symbols_glue (headers : List (String × String)) :
    (glue headers).map (·.1) = (ofHeaders headers).types.flatMap ScriptType.exportedSymbols := by
  simp only [glue_eq, List.map_flatMap, Glue.symbols_wanted]

theorem registration_not_mem_glue (headers : List (String × String)) :
    Symbol.registration ∉ (glue headers).map (·.1) := by
  rw [symbols_glue]
  intro member
  obtain ⟨t, inside, own⟩ := List.mem_flatMap.mp member
  have declared := declared_of_mem_ofHeaders inside
  rcases List.mem_append.mp own with lifecycle | accessor
  · simp only [List.mem_cons, List.not_mem_nil, or_false, declared.create, declared.destroy]
      at lifecycle
    rcases lifecycle with same | same
    · exact Symbol.create_ne_registration t.name same.symm
    · exact Symbol.destroy_ne_registration t.name same.symm
  · obtain ⟨f, kept, symbol⟩ := List.mem_flatMap.mp accessor
    rw [declared.fields f (List.mem_filter.mp kept).1] at symbol
    simp only [Field.declared, List.mem_cons, List.not_mem_nil, or_false] at symbol
    rcases symbol with same | same
    · exact Symbol.getter_ne_registration t.name f.name same.symm
    · exact Symbol.setter_ne_registration t.name f.name same.symm

end ScriptGlue.Project
