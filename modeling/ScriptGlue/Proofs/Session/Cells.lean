import ScriptGlue.Proofs.Session.Isolation

/-!
# Fields as cells

Where the two functions of each field read and write one cell, an instance is a record of cells that
are reached by index or by name, and only by the declared kind (`Instance.access_laws`). What is
assumed of a function is what it does if it is called with the kind of its field; with another kind
none is called.
-/

namespace ScriptGlue

variable {σ κ : Type}

/-- A memory seen as cells: which objects there are, what their cells hold, and the cell that the
field at an index of an interface stands for. Fields may share a cell. -/
structure Cells (σ κ : Type) where
  live : σ → Set Nat
  content : σ → Nat → κ → Scalar
  cell : Interface → Nat → κ

namespace Cells

/-- Every object is there as before and holds what it held. -/
structure Same (cells : Cells σ κ) (w w' : σ) : Prop where
  live : cells.live w' = cells.live w
  content : ∀ object ∈ cells.live w, cells.content w' object = cells.content w object

/-- One cell of one object holds a value, and all else is as before. -/
structure Writes (cells : Cells σ κ) (w w' : σ) (object : Nat) (cell : κ) (v : Scalar) : Prop where
  live : cells.live w' = cells.live w
  own : cells.content w' object cell = v
  others : ∀ other ∈ cells.live w, ∀ place, (other, place) ≠ (object, cell) →
    cells.content w' other place = cells.content w other place

/-- What a module exports as getter and setter of a field reads and writes the cell of the field, if
it is called with the kind that the field is declared with. -/
structure Serves [NativeMemory σ] (cells : Cells σ κ) (m : Module) (c : Collection) : Prop where
  read : ∀ i ∈ c.interfaces, ∀ index f, i.type.fields[index]? = some f →
    ∀ getter, m.function? f.getter = some getter → ∀ kind, f.type = .scalar kind →
    ∀ w, ∀ object ∈ cells.live w,
      (NativeMemory.get getter kind object w).1 = cells.content w object (cells.cell i index) ∧
      cells.Same w (NativeMemory.get getter kind object w).2
  write : ∀ i ∈ c.interfaces, ∀ index f, i.type.fields[index]? = some f →
    ∀ setter, m.function? f.setter = some setter → ∀ v, f.type = .scalar v.kind →
    ∀ w, ∀ object ∈ cells.live w,
      cells.Writes w (NativeMemory.set setter v object w) object (cells.cell i index) v

end Cells

/-! ### Fields of a bound interface -/

namespace Interface.Binding

variable {m : Module} {t : ScriptType} {i : Interface}

theorem map_field (bound : Binding m t i) : i.fields.map (·.field) = t.fields := by
  have fields := bound.fields
  generalize t.fields = declared, i.fields = made at fields
  induction fields with
  | nil => rfl
  | cons own _ ih => rw [List.map_cons, own.field, ih]

theorem exists_field (bound : Binding m t i) {index : Nat} {f : Field}
    (declared : t.fields[index]? = some f) :
    ∃ b, i.field index = .ok b ∧ FieldBinding m f b := by
  have same := declared
  rw [← bound.map_field, List.getElem?_map, Option.map_eq_some_iff] at same
  obtain ⟨b, found, rfl⟩ := same
  refine ⟨b, field_eq_ok_iff.mpr found, ?_⟩
  obtain ⟨inside, rfl⟩ := List.getElem?_eq_some_iff.mp found
  obtain ⟨inside', eq⟩ := List.getElem?_eq_some_iff.mp declared
  rw [← eq]
  exact (List.forall₂_iff_get.mp bound.fields).2 index inside' inside

theorem field_eq_error (bound : Binding m t i) {index : Nat} (none : t.fields[index]? = none) :
    i.field index = .error (.fieldIndex i.name index) := by
  rw [← bound.map_field, List.getElem?_map, Option.map_eq_none_iff] at none
  rw [field, none]

/-- A field is found by its name where the name first occurs. -/
theorem fieldIndex_eq_ok (bound : Binding m t i) {index : Nat} {f : Field}
    (declared : t.fields[index]? = some f)
    (first : ∀ j < index, ∀ g, t.fields[j]? = some g → g.name ≠ f.name) :
    i.fieldIndex f.name = .ok index := by
  have found : i.fields.findIdx? (·.field.name == f.name) = some index := by
    rw [List.findIdx?_eq_some_iff_getElem]
    rw [← bound.map_field, List.getElem?_map, Option.map_eq_some_iff] at declared
    obtain ⟨b, stands, rfl⟩ := declared
    obtain ⟨inside, rfl⟩ := List.getElem?_eq_some_iff.mp stands
    refine ⟨inside, by simp, fun j before => ?_⟩
    have earlier := first j before (i.fields[j]).field
    rw [← bound.map_field, List.getElem?_map,
      List.getElem?_eq_getElem (Nat.lt_trans before inside)] at earlier
    simpa using earlier rfl
  rw [fieldIndex, found]

theorem fieldIndex_eq_error (bound : Binding m t i) {field : String}
    (absent : ∀ f ∈ t.fields, f.name ≠ field) :
    i.fieldIndex field = .error (.unknownField i.name field) := by
  have none : i.fields.findIdx? (·.field.name == field) = none := by
    rw [List.findIdx?_eq_none_iff]
    intro b member
    have named := absent b.field
    rw [← bound.map_field] at named
    simpa using named (List.mem_map_of_mem member)
  rw [fieldIndex, none]

end Interface.Binding

/-! ### Accesses of an instance -/

namespace Instance
open Interface

variable [NativeMemory σ] {m : Module} {x : Instance} {index : Nat} {f : Field} {b : BoundField}

theorem get_of_bound (found : x.interface.field index = .ok b) (w : σ) :
    x.get index w = .ok (NativeMemory.get b.accessor.getter b.accessor.kind x.object w) := by
  rw [get, found]
  rfl

theorem getAs_of_bound (found : x.interface.field index = .ok b) (bound : FieldBinding m f b)
    (kind : ScalarKind) (w : σ) :
    x.getAs kind index w =
      if kind = b.accessor.kind then x.get index w
      else .error (.typeMismatch x.interface.name f.name (.scalar b.accessor.kind) kind) := by
  have declared : b.field.type = .scalar b.accessor.kind := by rw [bound.field, bound.type]
  have passes : Scalar.ofKind? b.accessor.kind
      (NativeMemory.get b.accessor.getter b.accessor.kind x.object w).1 =
        some (NativeMemory.get b.accessor.getter b.accessor.kind x.object w).1 :=
    if_pos (NativeMemory.kind_get ..)
  rw [getAs, get_of_bound found, found]
  simp only [bind, Except.bind, declared, FieldType.scalar.injEq]
  by_cases same : kind = b.accessor.kind
  · subst same
    simp only [if_true, passes]
    rfl
  · rw [if_neg (Ne.symm same), if_neg same, mismatch, declared, bound.field]
    rfl

theorem set_of_bound (found : x.interface.field index = .ok b) (bound : FieldBinding m f b)
    (v : Scalar) (w : σ) :
    x.set index v w =
      if v.kind = b.accessor.kind then .ok (NativeMemory.set b.accessor.setter v x.object w)
      else .error (.typeMismatch x.interface.name f.name (.scalar b.accessor.kind) v.kind) := by
  have declared : b.field.type = .scalar b.accessor.kind := by rw [bound.field, bound.type]
  rw [set, found]
  simp only [bind, Except.bind]
  by_cases same : v.kind = b.accessor.kind
  · rw [if_pos same.symm, if_pos same]
    rfl
  · rw [if_neg (Ne.symm same), if_neg same, mismatch, declared, bound.field]
    rfl

/-- What an instance gives and takes at the index of a declared field. -/
structure FieldLaws (cells : Cells σ κ) (c : Collection) (x : Instance) (w : σ) (index : Nat)
    (f : Field) (kind : ScalarKind) : Prop where
  declared : f.type = .scalar kind
  get : ∃ v w', x.get index w = .ok (v, w') ∧ v.kind = kind ∧
    v = cells.content w x.object (cells.cell x.interface index) ∧ cells.Same w w'
  getAs : ∀ asked, x.getAs asked index w =
    if asked = kind then x.get index w
    else .error (.typeMismatch x.interface.name f.name f.type asked)
  set : ∀ v, v.kind = kind → ∃ w', x.set index v w = .ok w' ∧
    cells.Writes w w' x.object (cells.cell x.interface index) v ∧
    (∃ w'', x.get index w' = .ok (v, w'')) ∧
    -- Fields of other cells, of this instance or of another, read as before.
    ∀ y : Instance, y.interface ∈ c.interfaces → y.object ∈ cells.live w →
      ∀ j g, y.interface.type.fields[j]? = some g →
        (y.object, cells.cell y.interface j) ≠ (x.object, cells.cell x.interface index) →
        ∃ u before after, y.get j w = .ok (u, before) ∧ y.get j w' = .ok (u, after)
  mismatch : ∀ v, v.kind ≠ kind → x.set index v w =
    .error (.typeMismatch x.interface.name f.name f.type v.kind)

section Laws

variable {options : LoadOptions} {c : Collection} {cells : Cells σ κ} {w : σ}

theorem get_eq_content (loaded : Collection.load m options = .ok c) (serves : cells.Serves m c)
    (known : x.interface ∈ c.interfaces) (declared : x.interface.type.fields[index]? = some f)
    (live : x.object ∈ cells.live w) :
    ∃ w', x.get index w = .ok (cells.content w x.object (cells.cell x.interface index), w') ∧
      cells.Same w w' := by
  obtain ⟨b, found, bound⟩ := (Collection.bound_of_load loaded known).exists_field declared
  obtain ⟨value, same⟩ :=
    serves.read _ known index f declared _ bound.getter _ bound.type w x.object live
  exact ⟨_, by rw [get_of_bound found, ← value], same⟩

theorem fieldLaws (loaded : Collection.load m options = .ok c) (serves : cells.Serves m c)
    (known : x.interface ∈ c.interfaces) (declared : x.interface.type.fields[index]? = some f)
    (live : x.object ∈ cells.live w) : ∃ kind, FieldLaws cells c x w index f kind := by
  obtain ⟨b, found, bound⟩ := (Collection.bound_of_load loaded known).exists_field declared
  refine ⟨b.accessor.kind, bound.type, ?_, fun asked => ?_, fun v own => ?_, fun v other => ?_⟩
  · obtain ⟨value, same⟩ :=
      serves.read _ known index f declared _ bound.getter _ bound.type w x.object live
    exact ⟨_, _, get_of_bound found w, NativeMemory.kind_get .., value, same⟩
  · rw [getAs_of_bound found bound, bound.type]
  · have writes := serves.write _ known index f declared _ bound.setter v (own ▸ bound.type) w
      x.object live
    have stays : ∀ object ∈ cells.live w,
        object ∈ cells.live (NativeMemory.set b.accessor.setter v x.object w) :=
      fun object there => writes.live.symm ▸ there
    refine ⟨_, by rw [set_of_bound found bound, if_pos own], writes, ?_, ?_⟩
    · obtain ⟨after, read, -⟩ := get_eq_content loaded serves known declared (stays _ live)
      rw [writes.own] at read
      exact ⟨after, read⟩
    · intro y known' live' j g declared' apart
      obtain ⟨before, read, -⟩ := get_eq_content loaded serves known' declared' live'
      obtain ⟨after, read', -⟩ := get_eq_content loaded serves known' declared' (stays _ live')
      rw [writes.others _ live' _ apart] at read'
      exact ⟨_, before, after, read, read'⟩
  · rw [set_of_bound found bound, if_neg other, bound.type]

end Laws

/-- Fields are accessed by the declared kind. At the index of a field an instance obeys the laws of a
cell, and at any other index it refuses each access. By name it is the first field of the name that
is accessed. What is refused changes nothing: neither the memory nor the record of the calls that are
made on it. -/
theorem access_laws {options : LoadOptions} {c : Collection}
    (loaded : Collection.load m options = .ok c) {cells : Cells σ κ} (serves : cells.Serves m c)
    (known : x.interface ∈ c.interfaces) {w : σ} (live : x.object ∈ cells.live w) :
    (∀ index f, x.interface.type.fields[index]? = some f →
      ∃ kind, FieldLaws cells c x w index f kind) ∧
    (∀ index, x.interface.type.fields[index]? = none →
      x.get index w = .error (.fieldIndex x.interface.name index) ∧
      (∀ kind, x.getAs kind index w = .error (.fieldIndex x.interface.name index)) ∧
      ∀ v, x.set index v w = .error (.fieldIndex x.interface.name index)) ∧
    (∀ kind index (v : { v : Scalar // v.kind = kind }), x.setAs index v w = x.set index v.val w) ∧
    (∀ index f, x.interface.type.fields[index]? = some f →
      (∀ j < index, ∀ g, x.interface.type.fields[j]? = some g → g.name ≠ f.name) →
      x.getByName f.name w = x.get index w ∧ ∀ v, x.setByName f.name v w = x.set index v w) ∧
    (∀ field, (∀ f ∈ x.interface.type.fields, f.name ≠ field) →
      x.getByName field w = .error (.unknownField x.interface.name field) ∧
      ∀ v, x.setByName field v w = .error (.unknownField x.interface.name field)) ∧
    ∀ (s : Session (Recorded σ)) (a : Session.Step) handle e, a.handle? = some handle →
      s.instance? handle = some x → (s.step a).1 = .failed e → (s.step a).2 = s := by
  have bound := Collection.bound_of_load loaded known
  refine ⟨fun index f declared => fieldLaws loaded serves known declared live,
    fun index none => ?_, fun kind index v => rfl, fun index f declared first => ?_,
    fun field absent => ?_, fun s a handle e target present failed => ?_⟩
  · have missing := bound.field_eq_error none
    simp only [get, getAs, set, missing, bind, Except.bind, implies_true, and_self]
  · have place := bound.fieldIndex_eq_ok declared first
    simp only [getByName, setByName, place, bind, Except.bind, implies_true, and_self]
  · have missing := bound.fieldIndex_eq_error absent
    simp only [getByName, setByName, missing, bind, Except.bind, implies_true, and_self]
  · exact Session.step_of_failed s target present failed

end Instance

/-! ### The heap -/

namespace Heap

/-- The cells of the objects of a heap, with the one that each field stands for. -/
def cells (cell : Interface → Nat → Cell) : Cells Heap Cell where
  live := live
  content h object place := (h.object? object).elim (.zero place.kind) (·.read place)
  cell := cell

variable {cell : Interface → Nat → Cell}

theorem exists_object {h : Heap} {object : Nat} (there : object ∈ h.live) :
    ∃ o, h.object? object = some o :=
  Option.ne_none_iff_exists'.mp fun none => object?_eq_none_iff.mp none there

theorem writes_callSet {h : Heap} {object : Nat} (there : object ∈ h.live) {place : Cell}
    {v : Scalar} (kind : place.kind = v.kind) :
    (cells cell).Writes h ((NativeFunction.set place).callSet v object h) object place v := by
  have updates : (NativeFunction.set place).callSet v object h =
      h.update object (·.write place.slot v) := if_pos kind
  have own : place = ⟨v.kind, place.slot⟩ := by rw [← kind]
  rw [updates]
  refine ⟨live_update .., ?_, fun other _ spot apart => ?_⟩
  · obtain ⟨o, found⟩ := exists_object there
    simp only [cells, object?_update, if_pos, found, Option.map_some, Option.elim_some]
    rw [own]
    exact o.read_write_self place.slot v
  · simp only [cells, object?_update]
    by_cases same : other = object
    · subst same
      rw [if_pos rfl]
      cases h.object? other with
      | none => rfl
      | some o =>
        refine o.read_write_of_ne ?_
        rw [← own]
        exact fun eq => apart (by rw [eq])
    · rw [if_neg same]

/-- On the heap it is enough that the functions of a field are for one cell of the declared kind. -/
theorem serves {m : Module} {c : Collection}
    (paired : ∀ i ∈ c.interfaces, ∀ index f, i.type.fields[index]? = some f →
      m.function? f.getter = some (.get (cell i index)) ∧
      m.function? f.setter = some (.set (cell i index)) ∧ f.type = .scalar (cell i index).kind) :
    (cells cell).Serves m c where
  read := by
    intro i known index f declared getter exported kind type h object there
    obtain ⟨read, -, own⟩ := paired i known index f declared
    obtain rfl := Option.some.inj (exported.symm.trans read)
    obtain rfl := FieldType.scalar.inj (type.symm.trans own)
    obtain ⟨o, found⟩ := exists_object there
    refine ⟨?_, rfl, fun _ _ => rfl⟩
    change (NativeFunction.get (cell i index)).callGet _ object h = _
    simp only [NativeFunction.callGet, cells, found, if_true, Option.elim_some]
  write := by
    intro i known index f declared setter exported v type h object there
    obtain ⟨-, written, own⟩ := paired i known index f declared
    obtain rfl := Option.some.inj (exported.symm.trans written)
    exact writes_callSet there (FieldType.scalar.inj (own.symm.trans type))

end Heap

namespace Instance

def dialType : ScriptType where
  name := "Dial"
  fields := [⟨.scalar .int, "level", "getLevel", "setLevel"⟩,
    ⟨.scalar .float, "level", "getRate", "setRate"⟩, ⟨.scalar .int, "copy", "getLevel", "setLevel"⟩]
  methods := []
  create := "createDial"
  destroy := "destroyDial"

def dialSlot : Fin 8 := ⟨3, by decide⟩

def dialCells : List Cell := [⟨.int, dialSlot⟩, ⟨.float, dialSlot⟩, ⟨.int, dialSlot⟩]

/-- A module with two fields of one name, and two that stand for one cell. -/
def dialModule : Module where
  name := "dials"
  function? := fun
    | "getGeneratedScripts" => (Table.encode [dialType]).toOption.map NativeFunction.register
    | "createDial" => some (.create 0)
    | "destroyDial" => some (.destroy 0)
    | "getLevel" => some (.get ⟨.int, dialSlot⟩)
    | "setLevel" => some (.set ⟨.int, dialSlot⟩)
    | "getRate" => some (.get ⟨.float, dialSlot⟩)
    | "setRate" => some (.set ⟨.float, dialSlot⟩)
    | _ => none

def dialCollection : Collection :=
  (Collection.load dialModule ⟨.reject, .strict⟩).toOption.getD (.empty "dials")

/-- The first dial that is made. -/
def dial : Instance := ⟨(dialCollection.get? "Dial").getD default, 0⟩

def dialHeap : Heap := ((Heap.start []).create 0).2

theorem access_laws_dial :
    Collection.load dialModule ⟨.reject, .strict⟩ = .ok dialCollection ∧
    dial.interface ∈ dialCollection.interfaces ∧ dial.object ∈ dialHeap.live ∧
    (∃ kind, FieldLaws (Heap.cells fun _ index => dialCells.getD index default) dialCollection dial
      dialHeap 1 ⟨.scalar .float, "level", "getRate", "setRate"⟩ kind) ∧
    dial.set 3 (.bool true) dialHeap = .error (.fieldIndex "Dial" 3) ∧
    dial.setByName "level" (.int 7) dialHeap = dial.set 0 (.int 7) dialHeap ∧
    dial.getByName "speed" dialHeap = .error (.unknownField "Dial" "speed") := by
  have loaded : Collection.load dialModule ⟨.reject, .strict⟩ = .ok dialCollection := by
    decide +kernel
  have interfaces : dialCollection.interfaces = [dial.interface] := by decide +kernel
  have type : dial.interface.type = dialType := by decide +kernel
  have known : dial.interface ∈ dialCollection.interfaces := by simp [interfaces]
  have live : dial.object ∈ dialHeap.live := ⟨(0, _), List.mem_singleton.mpr rfl, rfl⟩
  have serves : (Heap.cells fun _ index => dialCells.getD index default).Serves dialModule
      dialCollection := by
    refine Heap.serves fun i member index f declared => ?_
    obtain rfl := List.mem_singleton.mp (interfaces ▸ member)
    rw [type] at declared
    match index with
    | 0 | 1 | 2 =>
      obtain rfl := Option.some.inj declared
      exact ⟨rfl, rfl, rfl⟩
    | _ + 3 => exact nomatch declared
  obtain ⟨fields, outside, -, named, unnamed, -⟩ := access_laws loaded serves known live
  have first := named 0 ⟨.scalar .int, "level", "getLevel", "setLevel"⟩ (by rw [type]; rfl) nofun
  have absent : ∀ f ∈ dial.interface.type.fields, f.name ≠ "speed" := by
    rw [type]
    decide
  exact ⟨loaded, known, live, fields 1 _ (by rw [type]; rfl),
    (outside 3 (by rw [type]; rfl)).2.2 (.bool true), first.2 (.int 7), (unnamed "speed" absent).1⟩

end Instance

end ScriptGlue
