import ScriptGlue.Proofs.Session.Access

/-!
# Recorded calls

A memory can write down the calls that are made on it. A session does not notice (`run_forget`), so
the record of a session is the list of the native calls that it makes.
-/

namespace ScriptGlue

/-- A call of a native function, with the object that it is about. -/
inductive NativeCall
  | create (f : NativeFunction) (object? : Option Nat)
  | destroy (f : NativeFunction) (object : Nat)
  | get (f : NativeFunction) (object : Nat)
  | set (f : NativeFunction) (object : Nat)
deriving Repr, DecidableEq

def NativeCall.object? : NativeCall → Option Nat
  | create _ object? => object?
  | destroy _ object | get _ object | set _ object => some object

/-- A memory and the calls that have been made on it. -/
structure Recorded (σ : Type) where
  memory : σ
  calls : List NativeCall

namespace Recorded

variable {σ : Type}

def start (memory : σ) : Recorded σ := ⟨memory, []⟩

/-- The calls about an object. -/
def about (r : Recorded σ) (object : Nat) : List NativeCall :=
  r.calls.filter fun call => call.object? = some object

instance [NativeMemory σ] : NativeMemory (Recorded σ) where
  create f r :=
    let (object?, memory) := NativeMemory.create f r.memory
    (object?, ⟨memory, r.calls ++ [.create f object?]⟩)
  destroy f object r := ⟨NativeMemory.destroy f object r.memory, r.calls ++ [.destroy f object]⟩
  get f kind object r :=
    let (v, memory) := NativeMemory.get f kind object r.memory
    (v, ⟨memory, r.calls ++ [.get f object]⟩)
  set f v object r := ⟨NativeMemory.set f v object r.memory, r.calls ++ [.set f object]⟩
  kind_get f kind object r := NativeMemory.kind_get f kind object r.memory

end Recorded

namespace Session

variable {σ : Type} [NativeMemory σ]

/-- The call that makes an access to an object. -/
def Access.call (object : Nat) : Access → NativeCall
  | read f _ => .get f object
  | write f _ => .set f object

theorem Access.perform_recorded (access : Access) (object : Nat) (r : Recorded σ) :
    access.perform object r =
      ((access.perform object r.memory).1,
        ⟨(access.perform object r.memory).2, r.calls ++ [access.call object]⟩) := by
  cases access <;> rfl

theorem create_recorded (f : NativeFunction) (r : Recorded σ) :
    NativeMemory.create f r =
      ((NativeMemory.create f r.memory).1,
        ⟨(NativeMemory.create f r.memory).2,
          r.calls ++ [.create f (NativeMemory.create f r.memory).1]⟩) := rfl

/-- The session on the memory itself. -/
def forget (s : Session (Recorded σ)) : Session σ := ⟨s.collection, s.heap.memory, s.instances⟩

theorem step_forget (s : Session (Recorded σ)) (a : Step) :
    s.forget.step a = ((s.step a).1, (s.step a).2.forget) := by
  rcases a.cases with ⟨typeName, rfl⟩ | ⟨handle, rfl⟩ | ⟨handle, target, accesses⟩
  · cases known : s.collection.get? typeName with
    | none => rw [create_of_none s known, create_of_none s.forget known]
    | some i =>
      rcases called : NativeMemory.create i.create s.heap.memory with ⟨_ | object, memory⟩
      · have recorded : NativeMemory.create i.create s.heap =
            (none, ⟨memory, s.heap.calls ++ [.create i.create none]⟩) := by
          simp only [NativeMemory.create, called]
        rw [create_null s known recorded, create_null s.forget known called]
        rfl
      · have recorded : NativeMemory.create i.create s.heap =
            (some object, ⟨memory, s.heap.calls ++ [.create i.create (some object)]⟩) := by
          simp only [NativeMemory.create, called]
        rw [create_object s known recorded, create_object s.forget known called]
        rfl
  · cases alive : s.instance? handle with
    | none => rw [step_of_none s rfl alive, step_of_none s.forget rfl alive]
    | some x =>
      rw [step_destroy s alive, step_destroy s.forget alive]
      rfl
  · cases alive : s.instance? handle with
    | none => rw [step_of_none s target alive, step_of_none s.forget target alive]
    | some x =>
      obtain ⟨result, made⟩ := accesses x.interface
      rw [step_eq_access s target alive made, step_eq_access s.forget target alive made]
      cases result with
      | error e => rfl
      | ok access => cases access <;> rfl

theorem run_forget (s : Session (Recorded σ)) (steps : List Step) :
    s.forget.run steps = ((s.run steps).1, (s.run steps).2.forget) := by
  induction steps generalizing s with
  | nil => rfl
  | cons a rest ih => rw [run_cons, run_cons, step_forget, ih]

theorem finish_forget (s : Session (Recorded σ)) : s.forget.finish = s.finish.memory := by
  unfold finish forget
  dsimp only
  generalize s.instances.filterMap id = left, s.heap = r
  induction left generalizing r with
  | nil => rfl
  | cons x left ih => exact ih (x.destroy r)

end Session

end ScriptGlue
