import ScriptGlue.Loader.Collection
import ScriptGlue.Loader.Instance

/-!
# Sessions

A session works with the instances of one collection. An instance is known by a handle, counted from
zero; it lives until it is destroyed, and at the latest until the session ends.
-/

namespace ScriptGlue

/-- A collection at work on a memory. A handle is an index into `instances`; a destroyed one is
`none`. -/
structure Session (σ : Type := Heap) where
  collection : Collection
  heap : σ
  instances : List (Option Instance)

namespace Session

inductive Step
  | create (typeName : String)
  | destroy (handle : Nat)
  | get (handle index : Nat)
  | getByName (handle : Nat) (field : String)
  | getAs (handle index : Nat) (kind : ScalarKind)
  | set (handle index : Nat) (value : Scalar)
  | setByName (handle : Nat) (field : String) (value : Scalar)
deriving Repr, DecidableEq, Inhabited

inductive Answer
  | noType
  | noInstance
  | created (handle : Nat)
  | value (value : Scalar)
  | done
  | failed (error : LoadError)
deriving Repr, DecidableEq, Inhabited

variable {σ : Type}

def ofCollection (collection : Collection) (memory : σ) : Session σ := ⟨collection, memory, []⟩

def start (collection : Collection) (prototypes : List Object) : Session Heap :=
  ofCollection collection (.start prototypes)

def instance? (s : Session σ) (handle : Nat) : Option Instance := s.instances[handle]?.join

def answerRead (s : Session σ) : Except LoadError (Scalar × σ) → Answer × Session σ
  | .ok (v, heap) => (.value v, { s with heap })
  | .error e => (.failed e, s)

def answerWrite (s : Session σ) : Except LoadError σ → Answer × Session σ
  | .ok heap => (.done, { s with heap })
  | .error e => (.failed e, s)

def onInstance (s : Session σ) (handle : Nat) (f : Instance → Answer × Session σ) :
    Answer × Session σ :=
  match s.instance? handle with
  | none => (.noInstance, s)
  | some x => f x

variable [NativeMemory σ]

def create (s : Session σ) (typeName : String) : Answer × Session σ :=
  match s.collection.get? typeName with
  | none => (.noType, s)
  | some i =>
    match Instance.create i s.heap with
    | (.ok x, heap) =>
      (.created s.instances.length, { s with heap, instances := s.instances ++ [some x] })
    | (.error e, heap) => (.failed e, { s with heap })

def destroy (s : Session σ) (handle : Nat) (x : Instance) : Session σ :=
  { s with heap := x.destroy s.heap, instances := s.instances.set handle none }

def step (s : Session σ) : Step → Answer × Session σ
  | .create typeName => s.create typeName
  | .destroy handle => s.onInstance handle fun x => (.done, s.destroy handle x)
  | .get handle index => s.onInstance handle fun x => s.answerRead (x.get index s.heap)
  | .getByName handle field =>
    s.onInstance handle fun x => s.answerRead (x.getByName field s.heap)
  | .getAs handle index kind =>
    s.onInstance handle fun x => s.answerRead (x.getAs kind index s.heap)
  | .set handle index v => s.onInstance handle fun x => s.answerWrite (x.set index v s.heap)
  | .setByName handle field v =>
    s.onInstance handle fun x => s.answerWrite (x.setByName field v s.heap)

def run (s : Session σ) : List Step → List Answer × Session σ
  | [] => ([], s)
  | a :: rest =>
    let (answer, s) := s.step a
    let (answers, s) := s.run rest
    (answer :: answers, s)

/-- Ends the session: the remaining instances are destroyed in the order of their handles. -/
def finish (s : Session σ) : σ :=
  (s.instances.filterMap id).foldl (fun heap x => x.destroy heap) s.heap

end Session

end ScriptGlue
