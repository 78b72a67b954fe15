import ScriptGlue.Proofs.Loader.Bindings
import ScriptGlue.Proofs.Loader.Check

/-!
# Looking up types

What a collection answers by name agrees with its list, and no entry of the table is lost: its name
is in the list, or an error is about a type of that name (`load_index`).
-/

namespace ScriptGlue
open Interface

theorem Interface.typeName?_of_mem_faults {m : Module} {t : ScriptType} {e : LoadError}
    (fault : e ∈ faults m t) : e.typeName? = some t.name := by
  rw [faults_eq_flatMap] at fault
  obtain ⟨check, -, found⟩ := List.mem_flatMap.mp fault
  unfold Check.faults at found
  split at found
  · exact nomatch found
  · obtain rfl := List.mem_singleton.mp found
    cases check <;> rfl

namespace Collection

variable {m : Module} {options : LoadOptions} {policy : DuplicatePolicy} {types : List ScriptType}
  {c d : Collection}

/-! ### Answers by name -/

theorem Indexed.get?_eq_some_iff (indexed : Indexed c) {name : String} {i : Interface} :
    c.get? name = some i ↔ i ∈ c.interfaces ∧ i.name = name := by
  constructor
  · intro found
    exact ⟨mem_of_get? found, indexed.name_of_get? found⟩
  · rintro ⟨member, rfl⟩
    obtain ⟨slot, stands⟩ := List.getElem?_of_mem member
    have named : c.names[slot]? = some i.name := by
      rw [names, List.getElem?_map, stands]
      rfl
    rw [get?, (indexed i.name slot).mpr named]
    exact stands

theorem Indexed.get?_eq_none_iff (indexed : Indexed c) {name : String} :
    c.get? name = none ↔ name ∉ c.names := by
  simp only [Option.eq_none_iff_forall_ne_some, ne_eq, indexed.get?_eq_some_iff, names,
    List.mem_map, not_exists]

theorem Indexed.contains_iff (indexed : Indexed c) {name : String} :
    c.contains name ↔ name ∈ c.names := by
  rw [contains, Option.isSome_iff_ne_none, ne_eq, indexed.slot?_eq_none_iff, not_not]

/-! ### Entries -/

/-- A type of a name is among the interfaces, or one was left out for an error that names it. -/
def Accounts (c : Collection) (name : String) : Prop :=
  name ∈ c.names ∨ ∃ e ∈ c.skipped, e.typeName? = some name

theorem Accounts.mono {name : String} (accounted : c.Accounts name) (names : c.names ⊆ d.names)
    (skipped : c.skipped ⊆ d.skipped) : d.Accounts name := by
  rcases accounted with listed | ⟨e, kept, about⟩
  · exact .inl (names listed)
  · exact .inr ⟨e, skipped kept, about⟩

theorem accounts_skip (c : Collection) {e : LoadError} {name : String}
    (about : e.typeName? = some name) :
    Accounts { c with skipped := c.skipped ++ [e] } name ∧
      ∀ other, c.Accounts other → Accounts { c with skipped := c.skipped ++ [e] } other :=
  ⟨.inr ⟨e, by simp, about⟩,
    fun _ accounted => accounted.mono (fun _ listed => listed) (List.subset_append_left _ _)⟩

/-- Taking an entry accounts for it, and keeps account of the entries before. -/
theorem accounts_absorb (m : Module) (policy : DuplicatePolicy) (indexed : Indexed c)
    (t : ScriptType) : (absorb m policy c t).Accounts t.name ∧
      ∀ name, c.Accounts name → (absorb m policy c t).Accounts name := by
  rcases absorb_cases m policy indexed t with
    ⟨e, fault, eq⟩ | ⟨i, bound, -, eq⟩ | ⟨-, -, -, eq⟩ | ⟨-, i, slot, bound, place, eq⟩
  · rw [eq]
    exact accounts_skip c (typeName?_of_mem_faults (List.mem_of_head? fault))
  · rw [eq]
    refine ⟨.inl ?_, fun name accounted => accounted.mono ?_ fun _ kept => kept⟩
    · simp [names_append, bound.name_eq]
    · simp [names_append]
  · rw [eq]
    exact accounts_skip c rfl
  · have same : names { c with interfaces := c.interfaces.set slot i } = c.names :=
      names_set (bound.name_eq ▸ place)
    rw [eq]
    refine ⟨.inl ?_, fun name accounted => accounted.mono ?_ fun _ kept => kept⟩
    · exact same ▸ List.mem_of_getElem? place
    · exact fun _ listed => same ▸ listed

theorem accounts_run {t : ScriptType} (member : t ∈ types) :
    (run m policy types).Accounts t.name := by
  induction types using List.reverseRecOn with
  | nil => exact nomatch member
  | append_singleton types last ih =>
    rw [run_append]
    obtain ⟨new, old⟩ := accounts_absorb m policy indexed_run last
    rcases List.mem_append.mp member with before | here
    · exact old t.name (ih before)
    · obtain rfl := List.mem_singleton.mp here
      exact new

/-- Whatever the policies, the index of a loaded collection agrees with its list: the interfaces have
names of their own, by which they and nothing else are found. The names and the size are those of the
list, and each entry of the table is accounted for. -/
theorem load_index (loaded : load m options = .ok c) :
    c.Indexed ∧ c.names.Nodup ∧
    (∀ name i, c.get? name = some i ↔ i ∈ c.interfaces ∧ i.name = name) ∧
    (∀ name, c.get? name = none ↔ name ∉ c.names) ∧
    (∀ name, c.contains name ↔ name ∈ c.names) ∧
    (c.names = c.interfaces.map (·.name) ∧ c.size = c.names.length ∧
      (c.isEmpty ↔ c.names = [])) ∧
    ∃ types, registeredTypes m = .ok types ∧ ∀ t ∈ types, c.Accounts t.name := by
  have indexed := indexed_of_load loaded
  obtain ⟨types, registered⟩ := exists_types_of_load loaded
  refine ⟨indexed, indexed.nodup, fun _ _ => indexed.get?_eq_some_iff,
    fun _ => indexed.get?_eq_none_iff, fun _ => indexed.contains_iff, ⟨rfl, ?_, ?_⟩, types,
    registered, fun t member => ?_⟩
  · rw [size, names, List.length_map]
  · rw [isEmpty, List.isEmpty_iff, names, List.map_eq_nil_iff]
  · rw [eq_run_of_load registered loaded]
    exact accounts_run member

/-- What is loaded if the last resolvable lamp replaces the first. -/
def lampCollection : Collection :=
  (load partialModule ⟨.overwrite, .skipBroken⟩).toOption.getD (.empty "partial")

theorem load_index_lampCollection :
    load partialModule ⟨.overwrite, .skipBroken⟩ = .ok lampCollection ∧
    lampCollection.get? "Lamp" = some ⟨⟨"Lamp", [], [], "makeLamp", "destroyLamp"⟩,
      .create 1, .destroy 0, []⟩ ∧
    lampCollection.get? "Door" = none ∧ lampCollection.contains "Lamp" ∧
    ∀ t ∈ partialTypes, lampCollection.Accounts t.name := by
  have loaded : load partialModule ⟨.overwrite, .skipBroken⟩ = .ok lampCollection := by
    decide +kernel
  have table : registeredTypes partialModule = .ok partialTypes := by decide +kernel
  have names : lampCollection.names = ["Lamp"] := by decide +kernel
  obtain ⟨-, -, found, absent, known, -, types, registered, accounted⟩ := load_index loaded
  obtain rfl : types = partialTypes := Except.ok.inj (registered.symm.trans table)
  refine ⟨loaded, (found _ _).mpr ⟨by decide +kernel, rfl⟩, (absent _).mpr ?_, (known _).mpr ?_,
    accounted⟩
  · simp [names]
  · simp [names]

end Collection

end ScriptGlue
