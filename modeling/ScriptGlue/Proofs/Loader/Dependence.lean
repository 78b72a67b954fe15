import ScriptGlue.Proofs.Loader.Lookup

/-!
# What loading depends on

Loading looks for nothing but the table of a module and the symbols that it names (`load_congr`). A
module that exports more than another makes no type unavailable, although it may bring in entries that
refuse or replace others (`load_depends`).
-/

namespace ScriptGlue
open Interface

namespace Module

/-- The table that a module hands out. -/
def table? (m : Module) : Option Table := (m.function? Symbol.registration).map (·.callRegister)

/-- What the other module exports, this one exports too, and the same under each symbol. -/
def Extends (n m : Module) : Prop :=
  ∀ symbol f, m.function? symbol = some f → n.function? symbol = some f

theorem Extends.isSome {m n : Module} (more : n.Extends m) {symbol : String}
    (exported : (m.function? symbol).isSome) : (n.function? symbol).isSome := by
  obtain ⟨f, found⟩ := Option.isSome_iff_exists.mp exported
  exact Option.isSome_iff_exists.mpr ⟨f, more symbol f found⟩

/-- The module with another function behind a symbol. -/
def exporting (m : Module) (symbol : String) (f : NativeFunction) : Module :=
  ⟨m.name, fun s => if s = symbol then some f else m.function? s⟩

theorem function?_exporting (m : Module) {symbol other : String} (f : NativeFunction)
    (differ : other ≠ symbol) : (m.exporting symbol f).function? other = m.function? other :=
  if_neg differ

theorem extends_exporting {m : Module} {symbol : String} (absent : m.function? symbol = none)
    (f : NativeFunction) : (m.exporting symbol f).Extends m := by
  intro other g found
  have differ : other ≠ symbol := by
    rintro rfl
    exact nomatch absent.symm.trans found
  rw [function?_exporting m f differ, found]

end Module

variable {m n : Module} {t : ScriptType}

/-! ### One type -/

namespace Interface

theorem lookup_congr {symbol : String} (same : m.function? symbol = n.function? symbol)
    (typeName : String) : lookup m typeName symbol = lookup n typeName symbol := by
  rw [lookup, lookup, same]

theorem bindField_congr {f : Field} (typeName : String)
    (same : f.type.isAccessible → m.function? f.getter = n.function? f.getter ∧
      m.function? f.setter = n.function? f.setter) :
    bindField m typeName f = bindField n typeName f := by
  unfold bindField
  cases known : f.type.kind? with
  | none => rfl
  | some kind =>
    have accessible : f.type.isAccessible := by rw [FieldType.isAccessible, known]; rfl
    obtain ⟨getter, setter⟩ := same accessible
    rw [lookup_congr getter, lookup_congr setter]

theorem resolve_congr (same : ∀ symbol ∈ t.exportedSymbols, m.function? symbol = n.function? symbol) :
    resolve m t = resolve n t := by
  have create := same t.create (by simp [ScriptType.exportedSymbols])
  have destroy := same t.destroy (by simp [ScriptType.exportedSymbols])
  have fields : t.fields.mapM (bindField m t.name) = t.fields.mapM (bindField n t.name) := by
    apply mapM_congr
    intro f member
    apply bindField_congr
    intro accessible
    have accessor (symbol : String) (own : symbol ∈ [f.getter, f.setter]) : symbol ∈ t.exportedSymbols :=
      List.mem_append_right _ (List.mem_flatMap.mpr ⟨f, List.mem_filter.mpr ⟨member, accessible⟩, own⟩)
    exact ⟨same _ (accessor _ (by simp)), same _ (accessor _ (by simp))⟩
  rw [resolve, resolve, lookup_congr create, lookup_congr destroy, fields]

theorem Resolvable.mono (more : n.Extends m) (resolvable : Resolvable m t) : Resolvable n t where
  create := more.isSome resolvable.create
  destroy := more.isSome resolvable.destroy
  accessible := resolvable.accessible
  accessors f member :=
    ⟨more.isSome (resolvable.accessors f member).1, more.isSome (resolvable.accessors f member).2⟩

theorem Binding.mono {i : Interface} (more : n.Extends m) (bound : Binding m t i) : Binding n t i where
  type := bound.type
  create := more _ _ bound.create
  destroy := more _ _ bound.destroy
  fields := bound.fields.imp fun _ _ field =>
    ⟨field.field, field.type, more _ _ field.getter, more _ _ field.setter⟩

/-- What is resolved already is resolved alike by a module that exports more. -/
theorem resolve_of_extends {i : Interface} (more : n.Extends m) (resolved : resolve m t = .ok i) :
    resolve m t = resolve n t := by
  rw [resolved, resolve_eq_ok_iff.mpr ((resolve_eq_ok_iff.mp resolved).mono more)]

end Interface

/-! ### The whole table -/

namespace Collection

variable {options : LoadOptions} {policy : DuplicatePolicy} {types : List ScriptType} {c d : Collection}

theorem registeredTypes_congr (sameName : m.name = n.name) (sameTable : m.table? = n.table?) :
    registeredTypes m = registeredTypes n := by
  unfold Module.table? at sameTable
  unfold registeredTypes
  rw [sameName]
  cases first : m.function? Symbol.registration with
  | none =>
    rw [first] at sameTable
    rw [Option.map_eq_none_iff.mp sameTable.symm]
  | some f =>
    rw [first] at sameTable
    obtain ⟨g, second, same⟩ := Option.map_eq_some_iff.mp sameTable.symm
    rw [second]
    exact congrArg (fun table : Table => table.decode.mapError LoadError.invalidTable) same.symm

theorem foldlM_add_congr (same : ∀ t ∈ types, resolve m t = resolve n t) (c : Collection) :
    types.foldlM (add m options) c = types.foldlM (add n options) c := by
  induction types generalizing c with
  | nil => rfl
  | cons t types ih =>
    have first : add m options c t = add n options c t := by
      rw [add, add, same t List.mem_cons_self]
    rw [List.foldlM_cons, List.foldlM_cons, first]
    congr 1
    funext next
    exact ih (fun u member => same u (List.mem_cons_of_mem t member)) next

/-- Two modules of one name and one table are loaded alike if each entry is resolved alike. -/
theorem load_congr (sameName : m.name = n.name) (sameTable : m.table? = n.table?)
    (same : ∀ types, registeredTypes m = .ok types → ∀ t ∈ types, resolve m t = resolve n t)
    (options : LoadOptions) : load m options = load n options := by
  have tables := registeredTypes_congr sameName sameTable
  cases registered : registeredTypes m with
  | error e =>
    rw [load_error_of_unregistered options registered,
      load_error_of_unregistered options (tables.symm.trans registered)]
  | ok types =>
    rw [load, load, ← tables, registered, sameName]
    exact foldlM_add_congr (same types registered) _

theorem resolve_of_foldlM_strict (loaded : types.foldlM (add m ⟨policy, .strict⟩) c = .ok d) :
    ∀ t ∈ types, ∃ i, resolve m t = .ok i := by
  induction types generalizing c with
  | nil => exact fun t member => nomatch member
  | cons t types ih =>
    rw [List.foldlM_cons] at loaded
    obtain ⟨next, added, rest⟩ := bind_eq_ok_iff.mp loaded
    refine List.forall_mem_cons.mpr ⟨?_, ih rest⟩
    cases result : resolve m t with
    | ok i => exact ⟨i, rfl⟩
    | error e =>
      rw [add, result] at added
      exact nomatch added

theorem available_iff (registered : registeredTypes m = .ok types)
    (loaded : load m ⟨policy, .skipBroken⟩ = .ok c) {name : String} :
    (c.get? name).isSome ↔ ∃ t ∈ types, Resolvable m t ∧ t.name = name := by
  rw [load_skipBroken registered] at loaded
  obtain rfl := Except.ok.inj loaded
  rw [Option.isSome_iff_ne_none, ne_eq, indexed_run.get?_eq_none_iff, not_not, names_run,
    mem_admitted_names]

/-- A symbol that the table of a module names. The accessors of a field that cannot be accessed do not
count: nothing looks for them. -/
def Names (m : Module) (symbol : String) : Prop :=
  ∃ types, registeredTypes m = .ok types ∧ ∃ t ∈ types, symbol ∈ t.exportedSymbols

/-- Modules of one name that hand out the same table are loaded alike, under all policies, if they
agree on the symbols that it names. If one exports what the other does and more, it is loaded strictly
as the other is, where that succeeds; and leaving out what fails, it makes every type available that the
other does. -/
theorem load_depends (sameName : m.name = n.name) (sameTable : m.table? = n.table?) :
    ((∀ symbol, Names m symbol → m.function? symbol = n.function? symbol) →
      ∀ options, load m options = load n options) ∧
    (n.Extends m →
      (∀ policy c, load m ⟨policy, .strict⟩ = .ok c → load n ⟨policy, .strict⟩ = .ok c) ∧
      ∀ policy c, load m ⟨policy, .skipBroken⟩ = .ok c →
        ∃ d, load n ⟨policy, .skipBroken⟩ = .ok d ∧
          ∀ name, (c.get? name).isSome → (d.get? name).isSome) := by
  have tables := registeredTypes_congr sameName sameTable
  constructor
  · intro agree
    apply load_congr sameName sameTable
    intro types registered t member
    exact resolve_congr fun symbol own => agree symbol ⟨types, registered, t, member, own⟩
  intro more
  constructor
  case left =>
    intro policy c loaded
    obtain ⟨types, registered⟩ := exists_types_of_load loaded
    have folded := loaded
    rw [load, registered] at folded
    have resolved := resolve_of_foldlM_strict (c := empty m.name) folded
    rw [← load_congr sameName sameTable _ ⟨policy, .strict⟩, loaded]
    intro same registered' t member
    obtain rfl := Except.ok.inj (registered.symm.trans registered')
    obtain ⟨i, here⟩ := resolved t member
    exact resolve_of_extends more here
  case right =>
    intro policy c loaded
    obtain ⟨types, registered⟩ := exists_types_of_load loaded
    have other : load n ⟨policy, .skipBroken⟩ = _ := load_skipBroken (tables.symm.trans registered)
    refine ⟨_, other, fun name here => ?_⟩
    obtain ⟨t, member, resolvable, same⟩ := (available_iff registered loaded).mp here
    exact (available_iff (tables.symm.trans registered) other).mpr
      ⟨t, member, resolvable.mono more, same⟩

theorem load_depends_partialModule :
    (∀ options, load (partialModule.exporting "spare" .createNull) options = load partialModule options) ∧
    (partialModule.exporting "absent" (.create 2)).Extends partialModule ∧
    (∃ c, load partialModule ⟨.reject, .skipBroken⟩ = .ok c ∧
      (c.get? "Lamp").map (·.create) = some (.create 0)) ∧
    ∃ d, load (partialModule.exporting "absent" (.create 2)) ⟨.reject, .skipBroken⟩ = .ok d ∧
      (d.get? "Lamp").isSome ∧ (d.get? "Lamp").map (·.create) = some (.create 2) := by
  have registered : registeredTypes partialModule = .ok partialTypes := by decide +kernel
  have lacks : partialModule.function? "absent" = none := rfl
  have more := Module.extends_exporting lacks (.create 2)
  refine ⟨fun options => .symm ?_, more, ?_⟩
  · refine (load_depends (m := partialModule) (n := partialModule.exporting "spare" .createNull)
      rfl rfl).1 ?_ options
    rintro symbol ⟨types, registered', t, member, own⟩
    obtain rfl := Except.ok.inj (registered.symm.trans registered')
    have named : symbol ≠ "spare" := by
      rintro rfl
      revert t
      decide +kernel
    rw [Module.function?_exporting _ _ named]
  · have loaded : load partialModule ⟨.reject, .skipBroken⟩ =
        .ok (run partialModule .reject partialTypes) := load_skipBroken registered
    have depends := load_depends (m := partialModule) (n := partialModule.exporting "absent" (.create 2))
      rfl rfl
    obtain ⟨d, other, available⟩ := (depends.2 more).2 .reject _ loaded
    have whole : registeredTypes (partialModule.exporting "absent" (.create 2)) = .ok partialTypes := by
      decide +kernel
    refine ⟨⟨_, loaded, by decide +kernel⟩, d, other, available "Lamp" (by decide +kernel), ?_⟩
    -- What stands under the name is another entry of the table now.
    rw [load_skipBroken whole] at other
    obtain rfl := Except.ok.inj other
    decide +kernel

end Collection

end ScriptGlue
