import ScriptGlue.Loader.Interface
import ScriptGlue.Proofs.Traversal

/-!
# Resolution

What it takes for a type to be resolved, said without the order of the search. `resolve_eq_ok_iff`
shows that an interface is bound to what the module exports, and `resolve_stopsAt` that a refusal
names the first fault.
-/

namespace ScriptGlue.Interface

/-- A type all of whose symbols are exported and all of whose fields can be accessed. -/
structure Resolvable (m : Module) (t : ScriptType) : Prop where
  create : (m.function? t.create).isSome
  destroy : (m.function? t.destroy).isSome
  accessible : ∀ f ∈ t.fields, f.type.isAccessible
  accessors : ∀ f ∈ t.fields, (m.function? f.getter).isSome ∧ (m.function? f.setter).isSome

def symbolFaults (m : Module) (typeName symbol : String) : List LoadError :=
  if (m.function? symbol).isSome then [] else [.missingSymbol typeName symbol]

/-- The faults of a field: its type, its getter, its setter. -/
def fieldFaults (m : Module) (typeName : String) (f : Field) : List LoadError :=
  (if f.type.isAccessible then [] else [.unsupportedField typeName f.name f.type])
    ++ (symbolFaults m typeName f.getter ++ symbolFaults m typeName f.setter)

/-- Every fault of a type: the two symbols of its own, then field after field. -/
def faults (m : Module) (t : ScriptType) : List LoadError :=
  symbolFaults m t.name t.create ++ (symbolFaults m t.name t.destroy
    ++ t.fields.flatMap (fieldFaults m t.name))

/-- A field with the functions that a module exports under its symbols. -/
structure FieldBinding (m : Module) (f : Field) (b : BoundField) : Prop where
  field : b.field = f
  type : f.type = .scalar b.accessor.kind
  getter : m.function? f.getter = some b.accessor.getter
  setter : m.function? f.setter = some b.accessor.setter

/-- A type with the functions that a module exports under its symbols. -/
structure Binding (m : Module) (t : ScriptType) (i : Interface) : Prop where
  type : i.type = t
  create : m.function? t.create = some i.create
  destroy : m.function? t.destroy = some i.destroy
  fields : List.Forall₂ (FieldBinding m) t.fields i.fields

variable {m : Module} {t : ScriptType}

theorem Binding.name_eq {i : Interface} (bound : Binding m t i) : i.name = t.name := by
  rw [name, bound.type]

/-! ### Faults -/

theorem symbolFaults_eq_nil_iff {typeName symbol : String} :
    symbolFaults m typeName symbol = [] ↔ (m.function? symbol).isSome := by
  unfold symbolFaults
  split <;> simp_all

theorem fieldFaults_eq_nil_iff {typeName : String} {f : Field} :
    fieldFaults m typeName f = [] ↔ f.type.isAccessible ∧
      (m.function? f.getter).isSome ∧ (m.function? f.setter).isSome := by
  simp [fieldFaults, symbolFaults_eq_nil_iff]

theorem faults_eq_nil_iff : faults m t = [] ↔ Resolvable m t := by
  simp only [faults, List.append_eq_nil_iff, List.flatMap_eq_nil_iff, symbolFaults_eq_nil_iff,
    fieldFaults_eq_nil_iff]
  constructor
  · rintro ⟨create, destroy, fields⟩
    exact ⟨create, destroy, fun f member => (fields f member).1, fun f member => (fields f member).2⟩
  · rintro ⟨create, destroy, accessible, accessors⟩
    exact ⟨create, destroy, fun f member => ⟨accessible f member, accessors f member⟩⟩

theorem head?_faults_eq_none_iff : (faults m t).head? = none ↔ Resolvable m t := by
  rw [List.head?_eq_none_iff, faults_eq_nil_iff]

instance : Decidable (Resolvable m t) := decidable_of_iff _ faults_eq_nil_iff

/-! ### The search finds what is there, and stops at the first fault -/

theorem lookup_eq_ok_iff {typeName symbol : String} {f : NativeFunction} :
    lookup m typeName symbol = .ok f ↔ m.function? symbol = some f := by
  unfold lookup
  cases m.function? symbol <;> simp

theorem lookup_stopsAt {typeName symbol : String} :
    StopsAt (lookup m typeName symbol) (symbolFaults m typeName symbol) := by
  intro e
  unfold lookup symbolFaults
  cases m.function? symbol <;> simp

theorem kind?_eq_some_iff {type : FieldType} {kind : ScalarKind} :
    type.kind? = some kind ↔ type = .scalar kind := by
  cases type <;> simp [FieldType.kind?]

theorem bindField_eq_ok_iff {typeName : String} {f : Field} {b : BoundField} :
    bindField m typeName f = .ok b ↔ FieldBinding m f b := by
  unfold bindField
  split
  · rename_i kindless
    constructor
    · exact nofun
    · intro bound
      rw [kind?_eq_some_iff.mpr bound.type] at kindless
      exact nomatch kindless
  · rename_i kind known
    simp only [bind_eq_ok_iff, pure_eq_ok_iff, lookup_eq_ok_iff]
    constructor
    · rintro ⟨getter, read, setter, written, rfl⟩
      exact ⟨rfl, kind?_eq_some_iff.mp known, read, written⟩
    · rintro ⟨rfl, type, read, written⟩
      rw [kind?_eq_some_iff, type] at known
      obtain rfl := FieldType.scalar.inj known
      exact ⟨_, read, _, written, rfl⟩

theorem bindField_stopsAt {typeName : String} {f : Field} :
    StopsAt (bindField m typeName f) (fieldFaults m typeName f) := by
  unfold bindField fieldFaults FieldType.isAccessible
  split
  · rename_i kindless
    intro e
    simp [kindless]
  · rename_i kind known
    rw [known, Option.isSome_some, if_pos rfl, List.nil_append]
    exact lookup_stopsAt.bind fun _ _ => lookup_stopsAt.bind_pure

theorem resolve_eq_ok_iff {i : Interface} : resolve m t = .ok i ↔ Binding m t i := by
  unfold resolve
  simp only [bind_eq_ok_iff, pure_eq_ok_iff, lookup_eq_ok_iff, mapM_eq_ok_iff, bindField_eq_ok_iff]
  constructor
  · rintro ⟨create, created, destroy, destroyed, fields, bound, rfl⟩
    exact ⟨rfl, created, destroyed, bound⟩
  · rintro ⟨rfl, created, destroyed, bound⟩
    exact ⟨i.create, created, i.destroy, destroyed, i.fields, bound, rfl⟩

theorem resolve_stopsAt : StopsAt (resolve m t) (faults m t) :=
  lookup_stopsAt.bind fun _ _ => lookup_stopsAt.bind fun _ _ =>
    (StopsAt.mapM (fun _ => bindField_stopsAt) t.fields).bind_pure

theorem resolvable_iff : Resolvable m t ↔ ∃ i, Binding m t i := by
  simp only [← faults_eq_nil_iff, ← resolve_eq_ok_iff]
  exact resolve_stopsAt.exists_ok_iff.symm

end ScriptGlue.Interface
