import ScriptGlue.Proofs.Loader.Resolution

/-!
# Checks

Resolving a type goes through a fixed list of checks and stops at the first that fails. A type is
resolved exactly if all pass, and is then bound field by field; otherwise the error is that of the
first check that fails: `resolve_outcome`.
-/

namespace ScriptGlue.Interface

/-- What is checked of a type: that a symbol is exported, or that a field can be accessed. -/
inductive Check
  | symbol (symbol : String)
  | access (f : Field)
deriving Repr, DecidableEq

namespace Check

def Passes (m : Module) : Check → Prop
  | symbol s => (m.function? s).isSome
  | access f => f.type.isAccessible

instance (m : Module) : DecidablePred (Passes m) := fun c =>
  match c with
  | symbol s => inferInstanceAs (Decidable ((m.function? s).isSome = true))
  | access f => inferInstanceAs (Decidable (f.type.isAccessible = true))

/-- The error of a check that fails. It names the type, and the symbol or the field. -/
def error (typeName : String) : Check → LoadError
  | symbol s => .missingSymbol typeName s
  | access f => .unsupportedField typeName f.name f.type

end Check

/-- The checks of a type, in their order: the two symbols of its own, then for each field its type,
its getter and its setter. -/
def checks (t : ScriptType) : List Check :=
  [.symbol t.create, .symbol t.destroy] ++
    t.fields.flatMap fun f => [.access f, .symbol f.getter, .symbol f.setter]

/-- An error is that of the first check that fails. -/
def FailsFirst (m : Module) (t : ScriptType) (e : LoadError) : Prop :=
  ∃ before check after, checks t = before ++ check :: after ∧ (∀ c ∈ before, c.Passes m) ∧
    ¬check.Passes m ∧ e = check.error t.name

variable {m : Module} {t : ScriptType}

/-! ### Checks and faults -/

/-- The fault that a check finds, if any. -/
def Check.faults (m : Module) (typeName : String) (c : Check) : List LoadError :=
  if c.Passes m then [] else [c.error typeName]

theorem Check.head?_faults_eq_none_iff {typeName : String} {c : Check} :
    (c.faults m typeName).head? = none ↔ c.Passes m := by
  unfold Check.faults
  split <;> simp_all

theorem Check.head?_faults_eq_some_iff {typeName : String} {c : Check} {e : LoadError} :
    (c.faults m typeName).head? = some e ↔ ¬c.Passes m ∧ e = c.error typeName := by
  unfold Check.faults
  split <;> simp_all [eq_comm]

/-- The faults of a type are those that its checks find. -/
theorem faults_eq_flatMap : faults m t = (checks t).flatMap (Check.faults m t.name) := by
  have field : fieldFaults m t.name = fun f =>
      [Check.access f, .symbol f.getter, .symbol f.setter].flatMap (Check.faults m t.name) := by
    funext f
    simp only [List.flatMap_cons, List.flatMap_nil, List.append_nil]
    rfl
  simp only [faults, checks, field, List.flatMap_append, List.flatMap_assoc, List.flatMap_cons,
    List.flatMap_nil, List.append_nil, List.append_assoc]
  rfl

theorem head?_faults_eq_some_iff {e : LoadError} :
    (faults m t).head? = some e ↔ FailsFirst m t e := by
  rw [faults_eq_flatMap, List.head?_flatMap, List.findSome?_eq_some_iff]
  simp only [Check.head?_faults_eq_some_iff, Check.head?_faults_eq_none_iff]
  constructor
  · rintro ⟨before, check, after, cut, ⟨fails, rfl⟩, pass⟩
    exact ⟨before, check, after, cut, pass, fails, rfl⟩
  · rintro ⟨before, check, after, cut, pass, fails, rfl⟩
    exact ⟨before, check, after, cut, ⟨fails, rfl⟩, pass⟩

/-! ### What a type exports -/

theorem accessors_of_exported (exported : ∀ s ∈ t.exportedSymbols, (m.function? s).isSome)
    {f : Field} (member : f ∈ t.fields) (accessible : f.type.isAccessible) :
    (m.function? f.getter).isSome ∧ (m.function? f.setter).isSome := by
  have kept : f ∈ t.fields.filter (·.type.isAccessible) := List.mem_filter.mpr ⟨member, accessible⟩
  constructor
  · exact exported f.getter (List.mem_append_right _ (List.mem_flatMap.mpr ⟨f, kept, by simp⟩))
  · exact exported f.setter (List.mem_append_right _ (List.mem_flatMap.mpr ⟨f, kept, by simp⟩))

theorem resolvable_iff_exported : Resolvable m t ↔
    (∀ s ∈ t.exportedSymbols, (m.function? s).isSome) ∧ ∀ f ∈ t.fields, f.type.isAccessible := by
  constructor
  · rintro ⟨create, destroy, accessible, accessors⟩
    refine ⟨fun s exported => ?_, accessible⟩
    rcases List.mem_append.mp exported with lifecycle | accessor
    · rcases List.mem_pair.mp lifecycle with rfl | rfl
      · exact create
      · exact destroy
    · obtain ⟨f, kept, isAccessor⟩ := List.mem_flatMap.mp accessor
      obtain ⟨getter, setter⟩ := accessors f (List.mem_of_mem_filter kept)
      rcases List.mem_pair.mp isAccessor with rfl | rfl
      · exact getter
      · exact setter
  · rintro ⟨exported, accessible⟩
    refine ⟨exported _ (by simp [ScriptType.exportedSymbols]),
      exported _ (by simp [ScriptType.exportedSymbols]), accessible, fun f member => ?_⟩
    exact accessors_of_exported exported member (accessible f member)

/-- A type is resolved exactly if the module has every symbol that the type exports and every field
can be accessed. It is then bound as it stands, each field to the functions of its own symbols, and
otherwise refused with the error of the first check that fails. -/
theorem resolve_outcome (m : Module) (t : ScriptType) :
    ((∃ i, resolve m t = .ok i) ↔
      (∀ s ∈ t.exportedSymbols, (m.function? s).isSome) ∧ ∀ f ∈ t.fields, f.type.isAccessible) ∧
    (∀ i, resolve m t = .ok i ↔ Binding m t i) ∧
    (∀ e, resolve m t = .error e ↔ FailsFirst m t e) := by
  refine ⟨?_, fun i => resolve_eq_ok_iff, fun e => ?_⟩
  · simp only [resolve_eq_ok_iff]
    rw [← resolvable_iff, resolvable_iff_exported]
  · rw [resolve_stopsAt e, head?_faults_eq_some_iff]

/-- The type of a field is checked before its symbols, and a field before the next. -/
example : resolve ⟨"partial", fun s => if s = "missing" then none else some .createNull⟩
      ⟨"Lamp", [⟨.scalar .int, "level", "get", "set"⟩, ⟨.void, "shade", "missing", "set"⟩,
        ⟨.scalar .bool, "lit", "missing", "missing"⟩], [], "create", "destroy"⟩ =
    .error (.unsupportedField "Lamp" "shade" .void) := by
  decide +kernel

end ScriptGlue.Interface
