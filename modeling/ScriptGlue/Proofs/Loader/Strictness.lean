import ScriptGlue.Proofs.Loader.Skipping

/-!
# Strictness

A strict loading is one that leaves types out, stopped at the first error (`load_strict`): up to there
the two share their collection.
-/

namespace ScriptGlue.Collection

variable {m : Module} {policy : DuplicatePolicy} {types : List ScriptType}

theorem insert_skipped {c d : Collection} {i : Interface} (inserted : c.insert policy i = .ok d) :
    d.skipped = c.skipped := by
  unfold insert at inserted
  split at inserted
  · cases policy with
    | reject => exact nomatch inserted
    | overwrite => rw [← Except.ok.inj inserted]
  · rw [← Except.ok.inj inserted]

theorem add_strict_ok {c d : Collection} {t : ScriptType}
    (added : add m ⟨policy, .strict⟩ c t = .ok d) :
    absorb m policy c t = d ∧ d.skipped = c.skipped := by
  unfold add at added
  unfold absorb
  cases result : Interface.resolve m t >>= c.insert policy with
  | error e => rw [result] at added; exact nomatch added
  | ok next =>
    rw [result] at added
    obtain rfl := Except.ok.inj added
    obtain ⟨i, -, inserted⟩ := bind_eq_ok_iff.mp result
    exact ⟨rfl, insert_skipped inserted⟩

theorem add_strict_error {c : Collection} {t : ScriptType} {e : LoadError}
    (failed : add m ⟨policy, .strict⟩ c t = .error e) :
    absorb m policy c t = { c with skipped := c.skipped ++ [e] } := by
  unfold add at failed
  unfold absorb
  cases result : Interface.resolve m t >>= c.insert policy with
  | ok next => rw [result] at failed; exact nomatch failed
  | error e' =>
    rw [result] at failed
    obtain rfl := Except.error.inj failed
    rfl

theorem skipped_foldl_absorb (types : List ScriptType) (c : Collection) :
    ∃ rest, (types.foldl (absorb m policy) c).skipped = c.skipped ++ rest := by
  induction types generalizing c with
  | nil => exact ⟨[], by simp⟩
  | cons t types ih =>
    obtain ⟨rest, eq⟩ := ih (absorb m policy c t)
    rw [List.foldl_cons, eq]
    cases added : add m ⟨policy, .strict⟩ c t with
    | ok d =>
      obtain ⟨same, kept⟩ := add_strict_ok added
      exact ⟨rest, by rw [same, kept]⟩
    | error e => exact ⟨e :: rest, by simp [add_strict_error added]⟩

theorem foldlM_strict_ok {types : List ScriptType} {c d : Collection}
    (loaded : types.foldlM (add m ⟨policy, .strict⟩) c = .ok d) :
    types.foldl (absorb m policy) c = d ∧ d.skipped = c.skipped := by
  induction types generalizing c with
  | nil =>
    obtain rfl := Except.ok.inj loaded
    exact ⟨rfl, rfl⟩
  | cons t types ih =>
    rw [List.foldlM_cons] at loaded
    obtain ⟨next, added, rest⟩ := bind_eq_ok_iff.mp loaded
    obtain ⟨same, kept⟩ := add_strict_ok added
    obtain ⟨final, keeps⟩ := ih rest
    exact ⟨by rw [List.foldl_cons, same, final], keeps.trans kept⟩

theorem foldlM_strict_error {types : List ScriptType} {c : Collection} {e : LoadError}
    (failed : types.foldlM (add m ⟨policy, .strict⟩) c = .error e) :
    ∃ rest, (types.foldl (absorb m policy) c).skipped = c.skipped ++ e :: rest := by
  induction types generalizing c with
  | nil => exact nomatch failed
  | cons t types ih =>
    rw [List.foldlM_cons] at failed
    rw [List.foldl_cons]
    rcases bind_eq_error_iff.mp failed with here | ⟨next, added, later⟩
    · obtain ⟨rest, eq⟩ := skipped_foldl_absorb types (absorb m policy c t)
      exact ⟨rest, by rw [eq, add_strict_error here]; simp⟩
    · obtain ⟨same, kept⟩ := add_strict_ok added
      obtain ⟨rest, eq⟩ := ih later
      exact ⟨rest, by rw [same, eq, kept]⟩

/-- A strict loading yields what the other does, unless that has kept an error. -/
theorem load_strict (registered : registeredTypes m = .ok types) :
    load m ⟨policy, .strict⟩ =
      match (run m policy types).skipped.head? with
      | none => .ok (run m policy types)
      | some e => .error e := by
  have strict : load m ⟨policy, .strict⟩ =
      types.foldlM (add m ⟨policy, .strict⟩) (empty m.name) := by
    rw [load, registered]
    rfl
  rw [strict]
  cases result : types.foldlM (add m ⟨policy, .strict⟩) (empty m.name) with
  | ok d =>
    obtain ⟨same, none⟩ := foldlM_strict_ok result
    have nothing : (run m policy types).skipped = [] := by
      rw [run, same, none]
      rfl
    rw [nothing]
    exact congrArg Except.ok same.symm
  | error e =>
    obtain ⟨rest, first⟩ := foldlM_strict_error result
    have kept : (run m policy types).skipped = e :: rest := first
    rw [kept]
    rfl

theorem mem_skipped_of_load (registered : registeredTypes m = .ok types) {options : LoadOptions}
    {e : LoadError}
    (met : load m options = .error e ∨ ∃ c, load m options = .ok c ∧ e ∈ c.skipped) :
    e ∈ (run m options.duplicates types).skipped := by
  obtain ⟨policy, unresolved⟩ := options
  cases unresolved with
  | skipBroken =>
    rw [load_skipBroken registered] at met
    rcases met with failed | ⟨c, loaded, kept⟩
    · exact nomatch failed
    · obtain rfl := Except.ok.inj loaded
      exact kept
  | strict =>
    rw [load_strict registered] at met
    cases first : (run m policy types).skipped.head? with
    | none =>
      rw [first] at met
      rcases met with failed | ⟨c, loaded, kept⟩
      · exact nomatch failed
      · obtain rfl := Except.ok.inj loaded
        exact kept
    | some e' =>
      rw [first] at met
      rcases met with failed | ⟨c, loaded, -⟩
      · obtain rfl := Except.error.inj failed
        exact List.mem_of_head? first
      · exact nomatch loaded

theorem mem_skipped_run {e : LoadError} (member : e ∈ (run m policy types).skipped) :
    (∃ t ∈ types, (Interface.faults m t).head? = some e) ∨ ∃ name, e = .duplicateType name := by
  cases policy with
  | overwrite =>
    rw [run_overwrite.2] at member
    exact .inl (List.mem_filterMap.mp member)
  | reject =>
    rw [run_reject.2] at member
    obtain ⟨before, t, after, rfl, said⟩ := Verdict.mem_refusals_iff.mp member
    unfold verdict at said
    split at said
    · split at said
      · exact .inr ⟨t.name, (Option.some.inj said).symm⟩
      · exact nomatch said
    · exact .inl ⟨t, by simp, said⟩

theorem load_error_of_unregistered (options : LoadOptions) {e : LoadError}
    (unregistered : registeredTypes m = .error e) : load m options = .error e := by
  rw [load, unregistered]
  rfl

theorem registeredTypes_eq_error {e : LoadError} (failed : registeredTypes m = .error e) :
    e = .missingEntryPoint m.name Symbol.registration ∨ ∃ fault, e = .invalidTable fault := by
  unfold registeredTypes at failed
  split at failed
  · exact .inl (Except.error.inj failed).symm
  · rename_i entry _
    cases decoded : entry.callRegister.decode with
    | ok types => rw [decoded] at failed; exact nomatch failed
    | error fault =>
      rw [decoded] at failed
      exact .inr ⟨fault, (Except.error.inj failed).symm⟩

/-- A strict loading succeeds exactly if one that leaves types out leaves out none, and then both
yield the same collection. It fails exactly with the error for which neither has a table, or with
the first error that the other keeps. -/
theorem load_strict_iff (m : Module) (policy : DuplicatePolicy) :
    (∀ c, load m ⟨policy, .strict⟩ = .ok c ↔
      load m ⟨policy, .skipBroken⟩ = .ok c ∧ c.skipped = []) ∧
    (∀ e, load m ⟨policy, .strict⟩ = .error e ↔
      load m ⟨policy, .skipBroken⟩ = .error e ∨
        ∃ c, load m ⟨policy, .skipBroken⟩ = .ok c ∧ c.skipped.head? = some e) ∧
    (∀ e, load m ⟨policy, .skipBroken⟩ = .error e →
      e = .missingEntryPoint m.name Symbol.registration ∨ ∃ fault, e = .invalidTable fault) := by
  cases table : registeredTypes m with
  | error e =>
    have strict := load_error_of_unregistered ⟨policy, .strict⟩ table
    have skipping := load_error_of_unregistered ⟨policy, .skipBroken⟩ table
    refine ⟨by simp [strict, skipping], by simp [strict, skipping], ?_⟩
    intro e' failed
    rw [skipping] at failed
    obtain rfl := Except.error.inj failed
    exact registeredTypes_eq_error table
  | ok types =>
    rw [load_strict table, load_skipBroken table]
    cases first : (run m policy types).skipped.head? with
    | none =>
      have nothing := List.head?_eq_none_iff.mp first
      refine ⟨fun c => ⟨?_, And.left⟩, fun e => by simp [nothing], by simp⟩
      intro loaded
      obtain rfl := Except.ok.inj loaded
      exact ⟨rfl, nothing⟩
    | some e =>
      refine ⟨?_, fun e' => by simp [first], by simp⟩
      intro c
      constructor
      · exact nofun
      · rintro ⟨loaded, nothing⟩
        obtain rfl := Except.ok.inj loaded
        rw [nothing] at first
        exact nomatch first

/-- The module leaves out its first entry and its last. A strict loading stops at the first. -/
example :
    ((load partialModule ⟨.overwrite, .skipBroken⟩).toOption.map fun c => (c.names, c.skipped)) =
      some (["Lamp"], [.missingSymbol "Lamp" "absent", .missingSymbol "Lamp" "absent"]) ∧
    load partialModule ⟨.overwrite, .strict⟩ = .error (.missingSymbol "Lamp" "absent") := by
  decide +kernel

end ScriptGlue.Collection
