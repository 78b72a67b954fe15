import ScriptGlue.Loader.Collection
import ScriptGlue.Proofs.Loader.Resolution
import Mathlib.Data.List.Nodup

/-!
# The index of a collection

A collection finds an interface by the place that its index gives for the name. `Indexed` says that
the index is the inverse of the list of names; `indexed_absorb` that taking a type keeps it so.
-/

namespace ScriptGlue.Collection

/-- The index gives a place for a name exactly if the name stands there. -/
def Indexed (c : Collection) : Prop :=
  ∀ name slot, c.slot? name = some slot ↔ c.names[slot]? = some name

theorem indexed_empty (moduleName : String) : Indexed (empty moduleName) := by
  simp [Indexed, slot?, names, empty]

theorem Indexed.nodup {c : Collection} (indexed : Indexed c) : c.names.Nodup := by
  rw [List.nodup_iff_getElem?_ne_getElem?]
  intro first second order bound same
  have present : c.names[second]? = some c.names[second] := List.getElem?_eq_getElem bound
  have early := (indexed _ first).mpr (same.trans present)
  rw [(indexed _ second).mpr present] at early
  exact Nat.ne_of_gt order (Option.some.inj early)

theorem Indexed.slot?_eq_none_iff {c : Collection} (indexed : Indexed c) {name : String} :
    c.slot? name = none ↔ name ∉ c.names := by
  simp only [List.mem_iff_getElem?, ← indexed name, Option.eq_none_iff_forall_ne_some, not_exists]

theorem names_append (c : Collection) (i : Interface) (index : List (String × Nat)) :
    names { c with interfaces := c.interfaces ++ [i], index } = c.names ++ [i.name] := by
  simp [names]

theorem Indexed.append {c : Collection} (indexed : Indexed c) {i : Interface}
    (fresh : i.name ∉ c.names) :
    Indexed { c with
      interfaces := c.interfaces ++ [i]
      index := (i.name, c.interfaces.length) :: c.index } := by
  intro name slot
  have size : c.names.length = c.interfaces.length := List.length_map _
  rw [names_append, slot?, List.lookup_cons, List.getElem?_append, size]
  by_cases same : name = i.name
  · subst same
    have absent : c.names[slot]? ≠ some i.name := fun found => fresh (List.mem_of_getElem? found)
    simp only [BEq.rfl, Option.some.injEq]
    split
    · simp [absent]; omega
    · rw [List.getElem?_singleton]
      split <;> simp <;> omega
  · have different : (name == i.name) = false := beq_false_of_ne same
    simp only [different]
    split
    · exact indexed name slot
    · rename_i outside
      have past : c.names[slot]? = none := List.getElem?_eq_none (by omega)
      have missing := mt (indexed name slot).mp (by simp [past])
      simp only [slot?] at missing
      rw [List.getElem?_singleton]
      split <;> simp [missing, Ne.symm same]

theorem names_set {c : Collection} {i : Interface} {slot : Nat}
    (place : c.names[slot]? = some i.name) :
    (c.interfaces.set slot i).map (·.name) = c.names := by
  obtain ⟨bound, value⟩ := List.getElem?_eq_some_iff.mp place
  rw [List.map_set, ← value]
  exact List.set_getElem_self bound

theorem Indexed.set {c : Collection} (indexed : Indexed c) {i : Interface} {slot : Nat}
    (place : c.names[slot]? = some i.name) :
    Indexed { c with interfaces := c.interfaces.set slot i } := by
  intro name other
  rw [names, names_set place]
  exact indexed name other

theorem Indexed.set_eq_map {c : Collection} (indexed : Indexed c) {i : Interface} {slot : Nat}
    (place : c.names[slot]? = some i.name) :
    c.interfaces.set slot i = c.interfaces.map fun j => if j.name = i.name then i else j := by
  apply List.ext_getElem?
  intro other
  rw [List.getElem?_set, List.getElem?_map]
  have named : c.names[other]? = (c.interfaces[other]?).map (·.name) := List.getElem?_map
  cases found : c.interfaces[other]? with
  | none =>
    have outside := List.getElem?_eq_none_iff.mp found
    simp; omega
  | some j =>
    rw [found] at named
    have inside := (List.getElem?_eq_some_iff.mp found).1
    by_cases same : slot = other
    · subst same
      have : j.name = i.name := Option.some.inj (named.symm.trans place)
      simp [this, inside]
    · have different : j.name ≠ i.name := by
        intro equal
        have again := (indexed i.name other).mpr (by rw [named, Option.map_some, equal])
        rw [(indexed i.name slot).mpr place] at again
        exact same (Option.some.inj again)
      simp [same, different]

end ScriptGlue.Collection
