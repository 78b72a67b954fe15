import ScriptGlue.Loader.Session
import ScriptGlue.Proofs.Loader.Bindings

/-!
# Steps of a session

A step creates, destroys, or accesses a field. Which function an access calls, or why it calls none,
is settled by the interface of the instance alone (`step_eq_access`). `moves` says all that a step
can do to a session.
-/

namespace ScriptGlue

namespace Interface

variable {i : Interface}

theorem field_eq_ok_iff {index : Nat} {b : BoundField} :
    i.field index = .ok b ↔ i.fields[index]? = some b := by
  unfold field
  cases i.fields[index]? <;> simp

theorem mem_of_field {index : Nat} {b : BoundField} (found : i.field index = .ok b) :
    b ∈ i.fields :=
  List.mem_of_getElem? (field_eq_ok_iff.mp found)

end Interface

namespace Session

inductive Access
  | read (f : NativeFunction) (kind : ScalarKind)
  | write (f : NativeFunction) (value : Scalar)

/-- An access that is made through the functions of a field. -/
def Access.IsOf (i : Interface) : Access → Prop
  | read f kind => ∃ b ∈ i.fields, f = b.accessor.getter ∧ kind = b.accessor.kind
  | write f v => ∃ b ∈ i.fields, f = b.accessor.setter ∧ v.kind = b.accessor.kind

def mismatch (i : Interface) (b : BoundField) (found : ScalarKind) : LoadError :=
  .typeMismatch i.name b.field.name b.field.type found

def readAt (i : Interface) (index : Nat) : Except LoadError Access := do
  let b ← i.field index
  return .read b.accessor.getter b.accessor.kind

def writeAt (i : Interface) (index : Nat) (v : Scalar) : Except LoadError Access := do
  let b ← i.field index
  if b.accessor.kind = v.kind then return .write b.accessor.setter v
  else throw (mismatch i b v.kind)

def readAsAt (i : Interface) (kind : ScalarKind) (index : Nat) : Except LoadError Access := do
  let b ← i.field index
  if b.field.type = .scalar kind ∧ b.accessor.kind = kind then return .read b.accessor.getter kind
  else throw (mismatch i b kind)

/-- The access that a step makes through an interface. Creation and destruction make none. -/
def Step.access? (i : Interface) : Step → Option (Except LoadError Access)
  | .create _ | .destroy _ => none
  | .get _ index => some (readAt i index)
  | .getByName _ name => some (i.fieldIndex name >>= readAt i)
  | .getAs _ index kind => some (readAsAt i kind index)
  | .set _ index v => some (writeAt i index v)
  | .setByName _ name v => some (i.fieldIndex name >>= fun index => writeAt i index v)

/-- The instance that a step is about. -/
def Step.handle? : Step → Option Nat
  | .create _ => none
  | .destroy handle | .get handle _ | .getByName handle _ | .getAs handle _ _ | .set handle _ _
  | .setByName handle _ _ => some handle

theorem readAt_isOf {i : Interface} {index : Nat} {access : Access}
    (ok : readAt i index = .ok access) : access.IsOf i := by
  obtain ⟨b, found, eq⟩ := bind_eq_ok_iff.mp ok
  obtain rfl := pure_eq_ok_iff.mp eq
  exact ⟨b, Interface.mem_of_field found, rfl, rfl⟩

theorem readAsAt_isOf {i : Interface} {kind : ScalarKind} {index : Nat} {access : Access}
    (ok : readAsAt i kind index = .ok access) : access.IsOf i := by
  obtain ⟨b, found, eq⟩ := bind_eq_ok_iff.mp ok
  split at eq
  · rename_i same
    obtain rfl := pure_eq_ok_iff.mp eq
    exact ⟨b, Interface.mem_of_field found, rfl, same.2.symm⟩
  · exact nomatch eq

theorem writeAt_isOf {i : Interface} {index : Nat} {v : Scalar} {access : Access}
    (ok : writeAt i index v = .ok access) : access.IsOf i := by
  obtain ⟨b, found, eq⟩ := bind_eq_ok_iff.mp ok
  split at eq
  · rename_i same
    obtain rfl := pure_eq_ok_iff.mp eq
    exact ⟨b, Interface.mem_of_field found, rfl, same.symm⟩
  · exact nomatch eq

theorem Step.access?_isOf {i : Interface} {a : Step} {access : Access}
    (made : a.access? i = some (.ok access)) : access.IsOf i := by
  cases a with
  | create _ => exact nomatch made
  | destroy _ => exact nomatch made
  | get _ index => exact readAt_isOf (Option.some.inj made)
  | getByName _ name =>
    obtain ⟨index, -, ok⟩ := bind_eq_ok_iff.mp (Option.some.inj made)
    exact readAt_isOf ok
  | getAs _ index kind => exact readAsAt_isOf (Option.some.inj made)
  | set _ index v => exact writeAt_isOf (Option.some.inj made)
  | setByName _ name v =>
    obtain ⟨index, -, ok⟩ := bind_eq_ok_iff.mp (Option.some.inj made)
    exact writeAt_isOf ok

/-! ### The instances that are left -/

variable {σ : Type}

def alive (s : Session σ) : List Instance := s.instances.filterMap id

theorem instance?_eq_some_iff {s : Session σ} {handle : Nat} {x : Instance} :
    s.instance? handle = some x ↔ s.instances[handle]? = some (some x) := by
  unfold instance?
  cases s.instances[handle]? <;> simp

/-! ### Steps through an interface -/

variable [NativeMemory σ]

/-- The answer to an access, and the memory after it. -/
def Access.perform (object : Nat) (memory : σ) : Access → Answer × σ
  | read f kind =>
    let (v, memory) := NativeMemory.get f kind object memory
    (.value v, memory)
  | write f v => (.done, NativeMemory.set f v object memory)

/-- What a session does when it is asked for an access to an instance. -/
def perform (s : Session σ) (object : Nat) : Except LoadError Access → Answer × Session σ
  | .error e => (.failed e, s)
  | .ok access =>
    let (answer, heap) := access.perform object s.heap
    (answer, { s with heap })

theorem answerRead_get (s : Session σ) (x : Instance) (index : Nat) :
    s.answerRead (x.get index s.heap) = s.perform x.object (readAt x.interface index) := by
  unfold Instance.get readAt
  cases x.interface.field index <;> rfl

theorem answerRead_getAs (s : Session σ) (x : Instance) (kind : ScalarKind) (index : Nat) :
    s.answerRead (x.getAs kind index s.heap) =
      s.perform x.object (readAsAt x.interface kind index) := by
  unfold Instance.getAs readAsAt
  cases x.interface.field index with
  | error e => rfl
  | ok b =>
    simp only [bind, Except.bind]
    by_cases declared : b.field.type = .scalar kind
    · -- An accessor gives values of its own kind, so the value passes as its accessor does.
      have own := NativeMemory.kind_get b.accessor.getter b.accessor.kind x.object s.heap
      rw [if_pos declared, Scalar.ofKind?, own]
      by_cases carried : b.accessor.kind = kind
      · rw [if_pos carried, if_pos ⟨declared, carried⟩, ← carried]
        rfl
      · rw [if_neg carried, if_neg fun both => carried both.2]
        rfl
    · rw [if_neg declared, if_neg fun both => declared both.1]
      rfl

theorem answerWrite_set (s : Session σ) (x : Instance) (index : Nat) (v : Scalar) :
    s.answerWrite (x.set index v s.heap) = s.perform x.object (writeAt x.interface index v) := by
  unfold Instance.set writeAt
  cases x.interface.field index with
  | error e => rfl
  | ok b =>
    simp only [bind, Except.bind]
    split <;> rfl

/-- A step on an instance is the access that it makes through the interface of the instance. -/
theorem step_eq_access (s : Session σ) {a : Step} {handle : Nat} {x : Instance}
    (target : a.handle? = some handle) (alive : s.instance? handle = some x)
    {access : Except LoadError Access} (made : a.access? x.interface = some access) :
    s.step a = s.perform x.object access := by
  cases a with
  | create _ => exact nomatch made
  | destroy _ => exact nomatch made
  | get _ index =>
    obtain rfl := Option.some.inj target
    obtain rfl := Option.some.inj made
    simp only [step, onInstance, alive, answerRead_get]
  | getByName _ name =>
    obtain rfl := Option.some.inj target
    obtain rfl := Option.some.inj made
    simp only [step, onInstance, alive, Instance.getByName]
    cases x.interface.fieldIndex name with
    | error e => rfl
    | ok index => exact answerRead_get s x index
  | getAs _ index kind =>
    obtain rfl := Option.some.inj target
    obtain rfl := Option.some.inj made
    simp only [step, onInstance, alive, answerRead_getAs]
  | set _ index v =>
    obtain rfl := Option.some.inj target
    obtain rfl := Option.some.inj made
    simp only [step, onInstance, alive, answerWrite_set]
  | setByName _ name v =>
    obtain rfl := Option.some.inj target
    obtain rfl := Option.some.inj made
    simp only [step, onInstance, alive, Instance.setByName]
    cases x.interface.fieldIndex name with
    | error e => rfl
    | ok index => exact answerWrite_set s x index v

theorem step_of_none (s : Session σ) {a : Step} {handle : Nat} (target : a.handle? = some handle)
    (gone : s.instance? handle = none) : s.step a = (.noInstance, s) := by
  cases a with
  | create _ => exact nomatch target
  | _ =>
    obtain rfl := Option.some.inj target
    simp only [step, onInstance, gone]

theorem step_destroy (s : Session σ) {handle : Nat} {x : Instance}
    (alive : s.instance? handle = some x) :
    s.step (.destroy handle) = (.done, s.destroy handle x) := by
  simp only [step, onInstance, alive]

theorem create_of_none (s : Session σ) {typeName : String}
    (unknown : s.collection.get? typeName = none) :
    s.step (.create typeName) = (.noType, s) := by
  simp only [step, create, unknown]

theorem create_null (s : Session σ) {typeName : String} {i : Interface} {memory : σ}
    (known : s.collection.get? typeName = some i)
    (called : NativeMemory.create i.create s.heap = (none, memory)) :
    s.step (.create typeName) = (.failed (.createFailed i.name), { s with heap := memory }) := by
  simp only [step, create, known, Instance.create, called]

theorem create_object (s : Session σ) {typeName : String} {i : Interface} {object : Nat} {memory : σ}
    (known : s.collection.get? typeName = some i)
    (called : NativeMemory.create i.create s.heap = (some object, memory)) :
    s.step (.create typeName) = (.created s.instances.length,
      { s with heap := memory, instances := s.instances ++ [some ⟨i, object⟩] }) := by
  simp only [step, create, known, Instance.create, called]

/-- A step creates, destroys, or makes an access to an instance. -/
theorem Step.cases (a : Step) :
    (∃ typeName, a = .create typeName) ∨ (∃ handle, a = .destroy handle) ∨
      ∃ handle, a.handle? = some handle ∧ ∀ i, ∃ access, a.access? i = some access := by
  cases a with
  | create typeName => exact .inl ⟨typeName, rfl⟩
  | destroy handle => exact .inr (.inl ⟨handle, rfl⟩)
  | _ => exact .inr (.inr ⟨_, rfl, fun _ => ⟨_, rfl⟩⟩)

/-- A step on an instance that fails has called nothing. -/
theorem step_of_failed (s : Session σ) {a : Step} {handle : Nat} {x : Instance} {e : LoadError}
    (target : a.handle? = some handle) (alive : s.instance? handle = some x)
    (failed : (s.step a).1 = .failed e) : (s.step a).2 = s := by
  rcases a.cases with ⟨typeName, rfl⟩ | ⟨other, rfl⟩ | ⟨other, -, accesses⟩
  · exact nomatch target
  · obtain rfl := Option.some.inj target
    rw [step_destroy s alive] at failed
    exact nomatch failed
  · obtain ⟨result, made⟩ := accesses x.interface
    rw [step_eq_access s target alive made] at failed ⊢
    cases result with
    | error e => rfl
    | ok access => cases access <;> exact nomatch failed

/-- The interface that a step has made an instance of. -/
def made? (c : Collection) : Step → Answer → Option Interface
  | .create typeName, .created _ => c.get? typeName
  | _, _ => none

theorem made?_of_handle {c : Collection} {a : Step} {handle : Nat} (target : a.handle? = some handle)
    (answer : Answer) : made? c a answer = none := by
  cases a with
  | create _ => exact nomatch target
  | _ => rfl

/-- What can become of a session in one step, and what the step makes an instance of. -/
inductive Moves (s : Session σ) : Option Interface → Session σ → Prop
  | idle : Moves s none s
  | createNull {i : Interface} {memory : σ} (member : i ∈ s.collection.interfaces)
      (called : NativeMemory.create i.create s.heap = (none, memory)) :
      Moves s none { s with heap := memory }
  | create {i : Interface} {object : Nat} {memory : σ} (member : i ∈ s.collection.interfaces)
      (called : NativeMemory.create i.create s.heap = (some object, memory)) :
      Moves s (some i) { s with heap := memory, instances := s.instances ++ [some ⟨i, object⟩] }
  | destroy {handle : Nat} {x : Instance} (present : s.instance? handle = some x) :
      Moves s none (s.destroy handle x)
  | access {handle : Nat} {x : Instance} {access : Access} (present : s.instance? handle = some x)
      (own : access.IsOf x.interface) :
      Moves s none { s with heap := (access.perform x.object s.heap).2 }

theorem moves (s : Session σ) (a : Step) :
    Moves s (made? s.collection a (s.step a).1) (s.step a).2 := by
  rcases a.cases with ⟨typeName, rfl⟩ | ⟨handle, rfl⟩ | ⟨handle, target, accesses⟩
  · cases known : s.collection.get? typeName with
    | none =>
      rw [create_of_none s known]
      exact .idle
    | some i =>
      have member := Collection.mem_of_get? known
      rcases called : NativeMemory.create i.create s.heap with ⟨_ | object, memory⟩
      · rw [create_null s known called]
        exact .createNull member called
      · rw [create_object s known called, made?, known]
        exact .create member called
  · rw [made?_of_handle rfl]
    cases present : s.instance? handle with
    | none =>
      rw [step_of_none s rfl present]
      exact .idle
    | some x =>
      rw [step_destroy s present]
      exact .destroy present
  · rw [made?_of_handle target]
    cases present : s.instance? handle with
    | none =>
      rw [step_of_none s target present]
      exact .idle
    | some x =>
      obtain ⟨result, made⟩ := accesses x.interface
      rw [step_eq_access s target present made]
      cases result with
      | error e => exact .idle
      | ok access => exact .access present (Step.access?_isOf made)

theorem Moves.collection {s t : Session σ} {made : Option Interface} (move : Moves s made t) :
    t.collection = s.collection := by
  cases move <;> rfl

theorem run_cons (s : Session σ) (a : Step) (rest : List Step) :
    s.run (a :: rest) = ((s.step a).1 :: ((s.step a).2.run rest).1, ((s.step a).2.run rest).2) := rfl

/-- What the steps of a run have made instances of, in the order of the handles. -/
def made (c : Collection) : List Step → List Answer → List Interface
  | a :: steps, answer :: answers => (made? c a answer).toList ++ made c steps answers
  | _, _ => []

/-- A property of what has been made and of the session that every step keeps is kept by a run. -/
theorem run_induction {motive : List Interface → Session σ → Prop}
    (keeps : ∀ before s made t, Moves s made t → motive before s → motive (before ++ made.toList) t)
    {s : Session σ} {before : List Interface} (start : motive before s) (steps : List Step) :
    motive (before ++ made s.collection steps (s.run steps).1) (s.run steps).2 := by
  induction steps generalizing s before with
  | nil => simpa only [run, made, List.append_nil] using start
  | cons a rest ih =>
    have kept := ih (keeps _ _ _ _ (s.moves a) start)
    rw [(s.moves a).collection, List.append_assoc] at kept
    exact kept

theorem collection_run (s : Session σ) (steps : List Step) :
    (s.run steps).2.collection = s.collection := by
  induction steps generalizing s with
  | nil => rfl
  | cons a rest ih => exact (ih _).trans (s.moves a).collection

/-! ### The end of a session -/

theorem exists_first {s : Session σ} {x : Instance} {rest : List Instance}
    (first : s.alive = x :: rest) :
    ∃ handle, s.instance? handle = some x ∧ (s.destroy handle x).alive = rest := by
  obtain ⟨c, heap, instances⟩ := s
  unfold alive at first ⊢
  induction instances with
  | nil => exact nomatch first
  | cons entry instances ih =>
    cases entry with
    | none =>
      obtain ⟨handle, present, left⟩ := ih first
      exact ⟨handle + 1, present, left⟩
    | some y =>
      obtain ⟨rfl, rfl⟩ := List.cons.inj first
      exact ⟨0, rfl, rfl⟩

theorem finish_destroy {s : Session σ} {handle : Nat} {x : Instance} {rest : List Instance}
    (first : s.alive = x :: rest) (left : (s.destroy handle x).alive = rest) :
    (s.destroy handle x).finish = s.finish := by
  unfold alive at first left
  rw [finish, finish, first, left]
  rfl

/-- The end of a session is a run that destroys what is left. -/
theorem exists_run_eq_finish (s : Session σ) :
    ∃ handles : List Nat, (s.run (handles.map .destroy)).2.heap = s.finish ∧
      (s.run (handles.map .destroy)).2.alive = [] := by
  generalize remaining : s.alive = left
  induction left generalizing s with
  | nil =>
    refine ⟨[], ?_, remaining⟩
    unfold alive at remaining
    rw [finish, remaining]
    rfl
  | cons x rest ih =>
    obtain ⟨handle, present, left⟩ := exists_first remaining
    obtain ⟨handles, heap, nothing⟩ := ih (s.destroy handle x) left
    refine ⟨handle :: handles, ?_, ?_⟩
    · rw [List.map_cons, run_cons, step_destroy s present, heap, finish_destroy remaining left]
    · rw [List.map_cons, run_cons, step_destroy s present]
      exact nothing

theorem made_destroy (c : Collection) (handles : List Nat) (answers : List Answer) :
    made c (handles.map .destroy) answers = [] := by
  induction handles generalizing answers with
  | nil => cases answers <;> rfl
  | cons handle handles ih =>
    cases answers with
    | nil => rfl
    | cons answer answers => exact ih answers

end Session

end ScriptGlue
