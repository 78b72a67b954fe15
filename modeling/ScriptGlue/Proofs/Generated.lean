import ScriptGlue.Proofs.Loader.Support
import ScriptGlue.Proofs.Project
import ScriptGlue.Proofs.Table.RoundTrip

/-!
# Generated modules

What loading makes of a module that is built from the generated headers of a project: it is refused
for nothing but what the headers declare, and without such a declaration it loads whole, each type
with its own functions.
-/

namespace ScriptGlue
open Interface

/-! ### The table of a project -/

theorem encodable_of_declared {t : ScriptType} (declared : t.IsDeclared)
    (fieldCount : t.fields.length ≤ RawArray.maxLength) : t.Encodable := by
  have words := declared.isIdentified
  refine ⟨words.name.not_mem rfl, words.create.not_mem rfl, words.destroy.not_mem rfl, ?_,
    by simp [declared.methods], fieldCount, by simp [declared.methods]⟩
  intro f member
  obtain ⟨name, getter, setter⟩ := words.fields f member
  exact ⟨name.not_mem rfl, getter.not_mem rfl, setter.not_mem rfl⟩

namespace Project
open Collection

variable {headers : List (String × String)}

theorem exists_table (typeCount : (ofHeaders headers).types.length ≤ RawArray.maxLength)
    (fieldCount : ∀ t ∈ (ofHeaders headers).types, t.fields.length ≤ RawArray.maxLength) :
    ∃ table, Table.encode (ofHeaders headers).types = .ok table := by
  refine Table.exists_encode_iff.mpr ⟨fun t member => ?_, typeCount⟩
  exact encodable_of_declared (declared_of_mem_ofHeaders member) (fieldCount t member)

theorem registeredTypes_of_encode {m : Module} {types : List ScriptType} {table : Table}
    (served : m.function? Symbol.registration = some (.register table))
    (written : Table.encode types = .ok table) : registeredTypes m = .ok types := by
  simp only [registeredTypes, served, NativeFunction.callRegister, Table.decode_encode written]
  rfl

/-! ### The module of a project -/

/-- A module that serves a table and exports what the generated headers define. -/
structure Serves (m : Module) (table : Table) (headers : List (String × String)) : Prop where
  entry : m.function? Symbol.registration = some (.register table)
  exports : ∀ d ∈ glue headers, (m.function? d.1).isSome

theorem Serves.exported {m : Module} {table : Table} (serves : Serves m table headers) :
    ∀ s ∈ (ofHeaders headers).types.flatMap ScriptType.exportedSymbols,
      (m.function? s).isSome := by
  intro s member
  rw [← symbols_glue] at member
  obtain ⟨d, defined, rfl⟩ := List.mem_map.mp member
  exact serves.exports d defined

/-- The module that generated headers make: behind each symbol of the glue the native function for
what the glue does there, and a table at the entry point. -/
def builtModule (name : String) (native : Glue.Action → NativeFunction) (table : Table)
    (headers : List (String × String)) : Module where
  name := name
  function? symbol :=
    if symbol = Symbol.registration then some (.register table)
    else ((glue headers).lookup symbol).map native

theorem serves_builtModule (name : String) (native : Glue.Action → NativeFunction) (table : Table)
    (headers : List (String × String)) :
    Serves (builtModule name native table headers) table headers where
  entry := by simp [builtModule]
  exports := by
    intro d defined
    have other : d.1 ≠ Symbol.registration := by
      intro same
      exact registration_not_mem_glue headers (same ▸ List.mem_map_of_mem defined)
    simp only [builtModule, if_neg other, Option.isSome_map, List.lookup_isSome_iff]
    exact ⟨d, defined, BEq.rfl⟩

/-! ### Any project -/

/-- A module built from generated headers is refused only for what its types declare: a field that
cannot be accessed, or a name that is taken. Leaving such types out, loading keeps the others, and
the names it refuses for a field are those that the project complains about. -/
theorem load_generated
    (typeCount : (ofHeaders headers).types.length ≤ RawArray.maxLength)
    (fieldCount : ∀ t ∈ (ofHeaders headers).types, t.fields.length ≤ RawArray.maxLength) :
    ∃ table, Table.encode (ofHeaders headers).types = .ok table ∧
      ∀ m, Serves m table headers →
        (∀ options e, (load m options = .error e ∨ ∃ c, load m options = .ok c ∧ e ∈ c.skipped) →
          e.IsRefusal) ∧
        ∃ c, load m ⟨.reject, .skipBroken⟩ = .ok c ∧
          List.Forall₂ (Binding m) (supported.admitted (ofHeaders headers).types) c.interfaces ∧
          c.skipped = supported.refusals (ofHeaders headers).types ∧
          ∀ name, (∃ d ∈ (ofHeaders headers).diagnostics, ∃ field declared span,
              d.diagnostic = .unknownFieldType name field declared span) ↔
            ∃ field type, .unsupportedField name field type ∈ c.skipped := by
  obtain ⟨table, written⟩ := exists_table typeCount fieldCount
  refine ⟨table, written, fun m serves => ?_⟩
  have registered := registeredTypes_of_encode serves.entry written
  obtain ⟨admitted, refusals⟩ := admission_eq_supported serves.exported
  obtain ⟨interfaces, skipped⟩ := @run_reject m (ofHeaders headers).types
  rw [admitted] at interfaces
  rw [refusals] at skipped
  refine ⟨fun options e => refusal_of_load registered serves.exported, _,
    load_skipBroken registered, interfaces, skipped, fun name => ?_⟩
  rw [skipped, diagnosed_iff]
  exact unsupported_iff_refused

/-- A header with a field that has no accessors, and two that declare one name. -/
def flawedHeaders : List (String × String) :=
  [("bag.h", "UCLASS() class Bag { UPROPERTY() size_t count; }; UCLASS() class Box {};"),
   ("box.h", "USTRUCT() struct Box { UPROPERTY() int x; };")]

theorem types_flawedHeaders : (ofHeaders flawedHeaders).types =
    [(ScriptType.declared "Bag").pushField .unknown "count", ScriptType.declared "Box",
      (ScriptType.declared "Box").pushField (.scalar .int) "x"] := by
  decide +kernel

theorem load_generated_flawedHeaders :
    ∃ table c, Table.encode (ofHeaders flawedHeaders).types = .ok table ∧
      Serves (builtModule "flawed" (fun _ => .createNull) table flawedHeaders) table flawedHeaders ∧
      load (builtModule "flawed" (fun _ => .createNull) table flawedHeaders)
        ⟨.reject, .skipBroken⟩ = .ok c ∧
      c.skipped = [.unsupportedField "Bag" "count" .unknown, .duplicateType "Box"] := by
  have typeCount : (ofHeaders flawedHeaders).types.length ≤ RawArray.maxLength := by
    rw [types_flawedHeaders]
    decide
  have fieldCount : ∀ t ∈ (ofHeaders flawedHeaders).types, t.fields.length ≤ RawArray.maxLength := by
    rw [types_flawedHeaders]
    decide
  obtain ⟨table, written, each⟩ := load_generated typeCount fieldCount
  have serves := serves_builtModule "flawed" (fun _ => .createNull) table flawedHeaders
  obtain ⟨-, c, loaded, -, skipped, -⟩ := each _ serves
  refine ⟨table, c, written, serves, loaded, skipped.trans ?_⟩
  rw [types_flawedHeaders]
  decide +kernel

/-! ### A project without collisions -/

/-- A field bound to the functions that the glue has for it. -/
structure BuiltField (native : Glue.Action → NativeFunction) (typeName : String) (f : Field)
    (b : BoundField) : Prop where
  field : b.field = f
  type : f.type = .scalar b.accessor.kind
  getter : b.accessor.getter = native (.get typeName f.name b.accessor.kind)
  setter : b.accessor.setter = native (.set typeName f.name b.accessor.kind)

/-- A type bound to the functions that the glue has for it. -/
structure BuiltInterface (native : Glue.Action → NativeFunction) (t : ScriptType)
    (i : Interface) : Prop where
  type : i.type = t
  create : i.create = native (.create t.name)
  destroy : i.destroy = native (.destroy t.name)
  fields : List.Forall₂ (BuiltField native t.name) t.fields i.fields

variable {name : String} {native : Glue.Action → NativeFunction} {table : Table}

theorem lookup_of_mem {α : Type} {entries : List (String × α)}
    (distinct : (entries.map (·.1)).Nodup) {d : String × α} (member : d ∈ entries) :
    entries.lookup d.1 = some d.2 := by
  obtain ⟨before, after, rfl⟩ := List.append_of_mem member
  refine List.lookup_eq_some_iff.mpr ⟨before, after, rfl, fun e earlier => ?_⟩
  rw [List.map_append, List.nodup_append] at distinct
  have different := distinct.2.2 e.1 (List.mem_map_of_mem earlier) d.1 (by simp)
  simpa using different.symm

theorem distinct_glue (apart : (ofHeaders headers).collisions = []) :
    ((glue headers).map (·.1)).Nodup := by
  rw [symbols_glue]
  exact Collision.find_eq_nil_iff.mp apart

theorem typeNames_nodup (apart : (ofHeaders headers).collisions = []) :
    ((ofHeaders headers).types.map (·.name)).Nodup :=
  names_nodup (fun _ member => (declared_of_mem_ofHeaders member).create)
    (Collision.find_eq_nil_iff.mp apart)

theorem memberNames_nodup (apart : (ofHeaders headers).collisions = []) {t : ScriptType}
    (member : t ∈ (ofHeaders headers).types)
    (accessible : ∀ f ∈ t.fields, f.type.isAccessible) : (t.fields.map (·.name)).Nodup := by
  have declared := declared_of_mem_ofHeaders member
  have distinct := (List.nodup_flatMap.mp (Collision.find_eq_nil_iff.mp apart)).1 t member
  refine fieldNames_nodup (fun f inside => ?_) accessible distinct
  rw [declared.fields f inside]
  rfl

theorem function?_builtModule (apart : (ofHeaders headers).collisions = [])
    {d : String × Glue.Action} (defined : d ∈ glue headers) :
    (builtModule name native table headers).function? d.1 = some (native d.2) := by
  have other : d.1 ≠ Symbol.registration := by
    intro same
    exact registration_not_mem_glue headers (same ▸ List.mem_map_of_mem defined)
  simp only [builtModule, if_neg other, lookup_of_mem (distinct_glue apart) defined,
    Option.map_some]

theorem builtInterface_of_binding (apart : (ofHeaders headers).collisions = []) {t : ScriptType}
    (member : t ∈ (ofHeaders headers).types) {i : Interface}
    (bound : Binding (builtModule name native table headers) t i) :
    BuiltInterface native t i := by
  have defined : ∀ d ∈ Glue.wanted t,
      (builtModule name native table headers).function? d.1 = some (native d.2) := by
    intro d own
    apply function?_builtModule apart
    rw [glue_eq]
    exact List.mem_flatMap.mpr ⟨t, member, own⟩
  have create := defined (t.create, .create t.name) (by simp [Glue.wanted])
  have destroy := defined (t.destroy, .destroy t.name) (by simp [Glue.wanted])
  refine ⟨bound.type, Option.some.inj (bound.create.symm.trans create),
    Option.some.inj (bound.destroy.symm.trans destroy), ?_⟩
  have fields : List.Forall₂ (fun f b => f ∈ t.fields ∧ FieldBinding _ f b) t.fields i.fields :=
    (List.forall₂_and_left t.fields i.fields).mpr ⟨fun _ inside => inside, bound.fields⟩
  refine fields.imp ?_
  rintro f b ⟨inside, field⟩
  have accessor : ∀ d ∈ Glue.wantedField t.name f,
      (builtModule name native table headers).function? d.1 = some (native d.2) :=
    fun d own => defined d (List.mem_append_right _ (List.mem_flatMap.mpr ⟨f, inside, own⟩))
  rw [Glue.wantedField, field.type] at accessor
  have getter := accessor (f.getter, .get t.name f.name b.accessor.kind) (by simp)
  have setter := accessor (f.setter, .set t.name f.name b.accessor.kind) (by simp)
  exact ⟨field.field, field.type, Option.some.inj (field.getter.symm.trans getter),
    Option.some.inj (field.setter.symm.trans setter)⟩

/-- Generator and loader agree. A project whose symbols do not collide and whose fields can all be
accessed makes a module that loads whole: each interface holds, for the type at its place in the
project, the functions that the glue defines for that very type and its fields. The names of types,
and those of the fields of a type, are distinct, so that a definition of the glue is for one entry
only, and none takes the place of the entry point. -/
theorem load_builtModule (name : String) (native : Glue.Action → NativeFunction)
    {headers : List (String × String)} (apart : (ofHeaders headers).collisions = [])
    (accessible : ∀ t ∈ (ofHeaders headers).types, ∀ f ∈ t.fields, f.type.isAccessible)
    (typeCount : (ofHeaders headers).types.length ≤ RawArray.maxLength)
    (fieldCount : ∀ t ∈ (ofHeaders headers).types, t.fields.length ≤ RawArray.maxLength) :
    (∃ table c, Table.encode (ofHeaders headers).types = .ok table ∧
      load (builtModule name native table headers) ⟨.reject, .strict⟩ = .ok c ∧
      c.skipped = [] ∧
      List.Forall₂ (BuiltInterface native) (ofHeaders headers).types c.interfaces) ∧
    (ofHeaders headers).types = headers.flatMap (fun h => (Extraction.ofSource h.2).types) ∧
    ((ofHeaders headers).types.map (·.name)).Nodup ∧
    (∀ t ∈ (ofHeaders headers).types, (t.fields.map (·.name)).Nodup) ∧
    ((glue headers).map (·.1)).Nodup ∧
    Symbol.registration ∉ (glue headers).map (·.1) := by
  obtain ⟨table, written⟩ := exists_table typeCount fieldCount
  have serves := serves_builtModule name native table headers
  have registered := registeredTypes_of_encode serves.entry written
  obtain ⟨interfaces, skipped⟩ :=
    @run_reject (builtModule name native table headers) (ofHeaders headers).types
  -- No field is unsupported and no name comes twice, so the verdict keeps no entry out.
  obtain ⟨admitted, refusals⟩ := admission_eq_supported serves.exported
  obtain ⟨whole, none⟩ := supported_whole accessible (typeNames_nodup apart)
  rw [admitted, whole] at interfaces
  rw [refusals, none] at skipped
  have loaded := @load_strict _ .reject _ registered
  rw [skipped] at loaded
  have bound : List.Forall₂ (fun t i => t ∈ (ofHeaders headers).types ∧
      Binding (builtModule name native table headers) t i) (ofHeaders headers).types _ :=
    (List.forall₂_and_left _ _).mpr ⟨fun _ member => member, interfaces⟩
  refine ⟨⟨table, _, written, loaded, skipped, bound.imp ?_⟩, types_ofHeaders headers,
    typeNames_nodup apart, fun t member => memberNames_nodup apart member (accessible t member),
    distinct_glue apart, registration_not_mem_glue headers⟩
  rintro t i ⟨member, binding⟩
  exact builtInterface_of_binding apart member binding

def soundHeaders : List (String × String) :=
  [("lamp.h", "UCLASS() class Lamp : public Script { UPROPERTY() float level = 1.0f; };"),
   ("window.h", "UCLASS() class Window {};")]

def soundNative : Glue.Action → NativeFunction
  | .create typeName => .create typeName.length
  | .destroy typeName => .destroy typeName.length
  | .get _ _ kind => .get ⟨kind, 0⟩
  | .set _ _ kind => .set ⟨kind, 0⟩

theorem types_soundHeaders : (ofHeaders soundHeaders).types =
    [(ScriptType.declared "Lamp").pushField (.scalar .float) "level",
      ScriptType.declared "Window"] := by
  decide +kernel

/-- The types of the two headers, each bound to its functions. -/
def soundInterfaces : List Interface :=
  [⟨(ScriptType.declared "Lamp").pushField (.scalar .float) "level", .create 4, .destroy 4,
      [⟨.declared "Lamp" (.scalar .float) "level", ⟨.float, .get ⟨.float, 0⟩, .set ⟨.float, 0⟩⟩⟩]⟩,
    ⟨.declared "Window", .create 6, .destroy 6, []⟩]

theorem load_builtModule_soundHeaders :
    (ofHeaders soundHeaders).collisions = [] ∧
    (ofHeaders soundHeaders).types.map (·.name) = ["Lamp", "Window"] ∧
    ∃ table c, Table.encode (ofHeaders soundHeaders).types = .ok table ∧
      load (builtModule "sound" soundNative table soundHeaders) ⟨.reject, .strict⟩ = .ok c ∧
      c.skipped = [] ∧ c.interfaces = soundInterfaces := by
  have apart : (ofHeaders soundHeaders).collisions = [] := by
    rw [collisions, types_soundHeaders]
    decide +kernel
  have accessible : ∀ t ∈ (ofHeaders soundHeaders).types,
      ∀ f ∈ t.fields, f.type.isAccessible := by
    rw [types_soundHeaders]
    decide
  have typeCount : (ofHeaders soundHeaders).types.length ≤ RawArray.maxLength := by
    rw [types_soundHeaders]
    decide
  have fieldCount : ∀ t ∈ (ofHeaders soundHeaders).types, t.fields.length ≤ RawArray.maxLength := by
    rw [types_soundHeaders]
    decide
  obtain ⟨table, c, written, loaded, skipped, built⟩ :=
    (load_builtModule "sound" soundNative apart accessible typeCount fieldCount).1
  refine ⟨apart, by rw [types_soundHeaders]; rfl, table, c, written, loaded, skipped, ?_⟩
  rw [types_soundHeaders] at built
  obtain ⟨⟨_, _, _, _⟩, rest, ⟨rfl, rfl, rfl, fields⟩, built, same⟩ := List.forall₂_cons_left_iff.mp built
  obtain ⟨⟨_, kind, get, set⟩, none, ⟨rfl, float, getter, setter⟩, nothing, rfl⟩ :=
    List.forall₂_cons_left_iff.mp fields
  obtain rfl := FieldType.scalar.inj float
  dsimp only at getter setter
  subst getter setter
  obtain rfl := List.forall₂_nil_left_iff.mp nothing
  obtain ⟨⟨_, _, _, _⟩, last, ⟨rfl, rfl, rfl, fields⟩, done, rfl⟩ := List.forall₂_cons_left_iff.mp built
  obtain rfl := List.forall₂_nil_left_iff.mp fields
  obtain rfl := List.forall₂_nil_left_iff.mp done
  exact same

end Project

end ScriptGlue
