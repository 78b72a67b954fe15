import ScriptGlue.Proofs.Loader.Strictness

/-!
# Interfaces of a loaded collection

A collection holds nothing but interfaces bound to what the module exports (`bound_of_load`), and
what it finds by a name has that name (`Indexed.name_of_get?`).
-/

namespace ScriptGlue.Collection
open Interface

variable {m : Module} {options : LoadOptions} {types : List ScriptType} {c : Collection}

/-- Under either policy, what is loaded is what leaving out the types that fail would yield. -/
theorem eq_run_of_load (registered : registeredTypes m = .ok types)
    (loaded : load m options = .ok c) : c = run m options.duplicates types := by
  obtain ⟨policy, unresolved⟩ := options
  cases unresolved with
  | skipBroken =>
    rw [load_skipBroken registered] at loaded
    exact (Except.ok.inj loaded).symm
  | strict =>
    rw [load_strict registered] at loaded
    split at loaded
    · exact (Except.ok.inj loaded).symm
    · exact nomatch loaded

theorem exists_types_of_load (loaded : load m options = .ok c) :
    ∃ types, registeredTypes m = .ok types := by
  cases registered : registeredTypes m with
  | ok types => exact ⟨types, rfl⟩
  | error e =>
    rw [load_error_of_unregistered options registered] at loaded
    exact nomatch loaded

theorem bound_of_mem_run {policy : DuplicatePolicy} {i : Interface}
    (member : i ∈ (run m policy types).interfaces) : Binding m i.type i := by
  induction types using List.reverseRecOn with
  | nil => exact nomatch member
  | append_singleton types t ih =>
    rw [run_append] at member
    rcases absorb_cases m policy indexed_run t with
      ⟨e, -, eq⟩ | ⟨j, bound, -, eq⟩ | ⟨-, -, -, eq⟩ | ⟨-, j, slot, bound, -, eq⟩
    · rw [eq] at member
      exact ih member
    · rw [eq] at member
      rcases List.mem_append.mp member with old | new
      · exact ih old
      · obtain rfl := List.mem_singleton.mp new
        rwa [bound.type]
    · rw [eq] at member
      exact ih member
    · rw [eq] at member
      rcases List.mem_or_eq_of_mem_set member with old | rfl
      · exact ih old
      · rwa [bound.type]

theorem bound_of_load (loaded : load m options = .ok c) {i : Interface}
    (member : i ∈ c.interfaces) : Binding m i.type i := by
  obtain ⟨types, registered⟩ := exists_types_of_load loaded
  rw [eq_run_of_load registered loaded] at member
  exact bound_of_mem_run member

theorem indexed_of_load (loaded : load m options = .ok c) : Indexed c := by
  obtain ⟨types, registered⟩ := exists_types_of_load loaded
  rw [eq_run_of_load registered loaded]
  exact indexed_run

theorem mem_of_get? {name : String} {i : Interface} (found : c.get? name = some i) :
    i ∈ c.interfaces := by
  obtain ⟨slot, -, stands⟩ := Option.bind_eq_some_iff.mp found
  exact List.mem_of_getElem? stands

theorem Indexed.name_of_get? (indexed : Indexed c) {name : String} {i : Interface}
    (found : c.get? name = some i) : i.name = name := by
  obtain ⟨slot, place, stands⟩ := Option.bind_eq_some_iff.mp found
  have named := (indexed name slot).mp place
  rw [names, List.getElem?_map, stands] at named
  exact Option.some.inj named

end ScriptGlue.Collection
