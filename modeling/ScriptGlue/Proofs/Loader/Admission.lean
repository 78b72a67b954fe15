import ScriptGlue.Loader.Error
import ScriptGlue.ScriptType
import Mathlib.Data.List.Induction
import Mathlib.Data.List.Basic

/-!
# Admission

Which entries of a table come into a collection and which are refused, as a verdict on each entry
that may depend on the entries before it.
-/

namespace ScriptGlue

/-- What keeps an entry out, given the entries before it; nothing if it comes in. -/
abbrev Verdict := List ScriptType → ScriptType → Option LoadError

namespace Verdict

/-- The entries that come in, in the order of the table. -/
def admitted (verdict : Verdict) (types : List ScriptType) : List ScriptType :=
  (types.zipIdx.filter fun e => (verdict (types.take e.2) e.1).isNone).map (·.1)

/-- What keeps the other entries out, in the order of the table. -/
def refusals (verdict : Verdict) (types : List ScriptType) : List LoadError :=
  types.zipIdx.filterMap fun e => verdict (types.take e.2) e.1

theorem take_of_mem_zipIdx {types : List ScriptType} {e : ScriptType × Nat}
    (member : e ∈ types.zipIdx) (t : ScriptType) :
    (types ++ [t]).take e.2 = types.take e.2 := by
  have bound := (List.mem_zipIdx' member).1
  exact List.take_append_of_le_length (Nat.le_of_lt bound)

theorem admitted_append (verdict : Verdict) (types : List ScriptType) (t : ScriptType) :
    verdict.admitted (types ++ [t]) =
      verdict.admitted types ++ if (verdict types t).isNone then [t] else [] := by
  unfold admitted
  rw [List.zipIdx_append, List.filter_append, List.map_append]
  congr 1
  · congr 1
    apply List.filter_congr
    intro e member
    rw [take_of_mem_zipIdx member]
  · by_cases fine : (verdict types t).isNone <;> simp [fine]

theorem refusals_append (verdict : Verdict) (types : List ScriptType) (t : ScriptType) :
    verdict.refusals (types ++ [t]) = verdict.refusals types ++ (verdict types t).toList := by
  unfold refusals
  rw [List.zipIdx_append, List.filterMap_append]
  congr 1
  · apply List.filterMap_congr
    intro e member
    rw [take_of_mem_zipIdx member]
  · cases said : verdict types t <;> simp [said]

theorem length_admitted_add_refusals (verdict : Verdict) (types : List ScriptType) :
    (verdict.admitted types).length + (verdict.refusals types).length = types.length := by
  induction types using List.reverseRecOn with
  | nil => rfl
  | append_singleton types t ih =>
    rw [admitted_append, refusals_append]
    cases verdict types t <;> simp <;> omega

theorem congr {first second : Verdict} {types : List ScriptType}
    (same : ∀ before t after, types = before ++ t :: after → first before t = second before t) :
    first.admitted types = second.admitted types ∧ first.refusals types = second.refusals types := by
  induction types using List.reverseRecOn with
  | nil => exact ⟨rfl, rfl⟩
  | append_singleton types t ih =>
    obtain ⟨admitted, refusals⟩ := ih fun before u after split =>
      same before u (after ++ [t]) (by simp [split])
    simp only [admitted_append, refusals_append, admitted, refusals, same types t [] rfl, and_self]

theorem eq_self_of_none {verdict : Verdict} {types : List ScriptType}
    (fine : ∀ before t after, types = before ++ t :: after → verdict before t = none) :
    verdict.admitted types = types ∧ verdict.refusals types = [] := by
  induction types using List.reverseRecOn with
  | nil => exact ⟨rfl, rfl⟩
  | append_singleton types t ih =>
    obtain ⟨admitted, refusals⟩ := ih fun before u after split =>
      fine before u (after ++ [t]) (by simp [split])
    rw [admitted_append, refusals_append, admitted, refusals, fine types t [] rfl]
    exact ⟨rfl, rfl⟩

theorem mem_refusals_iff {verdict : Verdict} {types : List ScriptType} {e : LoadError} :
    e ∈ verdict.refusals types ↔
      ∃ before t after, types = before ++ t :: after ∧ verdict before t = some e := by
  simp only [refusals, List.mem_filterMap, Prod.exists, List.mk_mem_zipIdx_iff_getElem?]
  constructor
  · rintro ⟨t, place, found, said⟩
    obtain ⟨bound, value⟩ := List.getElem?_eq_some_iff.mp found
    refine ⟨types.take place, t, types.drop (place + 1), ?_, said⟩
    rw [← value, ← List.drop_eq_getElem_cons bound, List.take_append_drop]
  · rintro ⟨before, t, after, rfl, said⟩
    exact ⟨t, before.length, by simp, by simpa using said⟩

end Verdict

end ScriptGlue
