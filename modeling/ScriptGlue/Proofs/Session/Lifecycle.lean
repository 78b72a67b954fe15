import Mathlib.Data.Set.Lattice
import Mathlib.Order.CompletePartialOrder
import ScriptGlue.Proofs.Session.Record

/-!
# The lives of instances

Each instance that a session makes is created once and destroyed once, by the two functions of one
interface, and all that happens to its object in between is access through that interface. A memory
may give the address of a destroyed object to a later one, so an object is told from others by the
life it has and not by its address.
-/

namespace ScriptGlue

variable {σ : Type}

/-- The functions of a collection create fresh objects and release what they destroy. `live` tells
which objects there are. -/
structure Allocates [NativeMemory σ] (c : Collection) (live : σ → Set Nat) : Prop where
  create : ∀ i ∈ c.interfaces, ∀ w object w', NativeMemory.create i.create w = (some object, w') →
    object ∉ live w ∧ live w' = insert object (live w)
  createNull : ∀ i ∈ c.interfaces, ∀ w w', NativeMemory.create i.create w = (none, w') →
    live w' = live w
  access : ∀ i ∈ c.interfaces, ∀ access : Session.Access, access.IsOf i → ∀ w, ∀ object ∈ live w,
    live (access.perform object w).2 = live w
  destroy : ∀ i ∈ c.interfaces, ∀ w, ∀ object ∈ live w,
    live (NativeMemory.destroy i.destroy object w) = live w \ {object}

/-- A call of an accessor of an interface. -/
def NativeCall.IsUse (i : Interface) (object : Nat) (call : NativeCall) : Prop :=
  ∃ b ∈ i.fields, call = .get b.accessor.getter object ∨ call = .set b.accessor.setter object

theorem Session.Access.IsOf.isUse {i : Interface} {access : Session.Access} (own : access.IsOf i)
    {object : Nat} : (access.call object).IsUse i object := by
  cases access with
  | read f kind =>
    obtain ⟨b, member, rfl, -⟩ := own
    exact ⟨b, member, .inl rfl⟩
  | write f v =>
    obtain ⟨b, member, rfl, -⟩ := own
    exact ⟨b, member, .inr rfl⟩

theorem Session.Access.object?_call (access : Session.Access) (object : Nat) :
    (access.call object).object? = some object := by
  cases access <;> rfl

/-- What has been called on the object of an instance between creation and destruction, and whether
it has been destroyed. -/
structure Life where
  holder : Instance
  uses : List NativeCall
  own : ∀ call ∈ uses, call.IsUse holder.interface holder.object
  ended : Bool

namespace Life

def calls (l : Life) : List NativeCall :=
  .create l.holder.interface.create (some l.holder.object) :: l.uses ++
    if l.ended then [.destroy l.holder.interface.destroy l.holder.object] else []

def left? (l : Life) : Option Instance := if l.ended then none else some l.holder

/-- The calls about one object in a list of lives. -/
def about (lives : List Life) (object : Nat) : List NativeCall :=
  (lives.filter fun l => l.holder.object = object).flatMap calls

def begin (x : Instance) : Life := ⟨x, [], nofun, false⟩

def use (l : Life) (call : NativeCall) (own : call.IsUse l.holder.interface l.holder.object) : Life :=
  { l with
    uses := l.uses ++ [call]
    own := fun other member =>
      (List.mem_append.mp member).elim (l.own other) fun new => List.mem_singleton.mp new ▸ own }

def finish (l : Life) : Life := { l with ended := true }

theorem calls_use {l : Life} (going : l.ended = false) {call : NativeCall}
    (own : call.IsUse l.holder.interface l.holder.object) : (l.use call own).calls = l.calls ++ [call] := by
  simp only [calls, use, going, Bool.false_eq_true, ↓reduceIte, List.append_nil, List.cons_append]

theorem calls_finish {l : Life} (going : l.ended = false) :
    l.finish.calls = l.calls ++ [.destroy l.holder.interface.destroy l.holder.object] := by
  simp only [calls, finish, going, Bool.false_eq_true, ↓reduceIte, List.append_nil, List.cons_append]

theorem about_append (front back : List Life) (object : Nat) :
    about (front ++ back) object = about front object ++ about back object := by
  rw [about, List.filter_append, List.flatMap_append]
  rfl

theorem about_cons (l : Life) (back : List Life) (object : Nat) :
    about (l :: back) object =
      (if l.holder.object = object then l.calls else []) ++ about back object := by
  unfold about
  by_cases same : l.holder.object = object
  · rw [List.filter_cons_of_pos (by simpa using same), if_pos same, List.flatMap_cons]
  · rw [List.filter_cons_of_neg (by simpa using same), if_neg same, List.nil_append]

theorem about_eq_nil {lives : List Life} {object : Nat}
    (others : ∀ l ∈ lives, l.holder.object ≠ object) : about lives object = [] := by
  unfold about
  rw [List.filter_eq_nil_iff.mpr fun l member => by simpa using others l member]
  rfl

/-- A call on the last life of an object comes behind all the others about the object. -/
theorem about_replace {front back : List Life} {l next : Life} {call : NativeCall}
    (same : next.holder = l.holder) (calls : next.calls = l.calls ++ [call])
    (last : ∀ later ∈ back, later.holder.object ≠ l.holder.object) (object : Nat) :
    about (front ++ next :: back) object = about (front ++ l :: back) object ++
      if l.holder.object = object then [call] else [] := by
  simp only [about_append, about_cons, same]
  by_cases own : l.holder.object = object
  · subst own
    simp only [↓reduceIte, about_eq_nil last, List.append_nil, calls, List.append_assoc]
  · simp only [own, ↓reduceIte, List.nil_append, List.append_nil]

/-- The objects of the instances that are there. -/
def held (lives : List Life) : Set Nat :=
  {object | ∃ l ∈ lives, l.ended = false ∧ l.holder.object = object}

theorem held_insert (front back : List Life) (l : Life) :
    held (front ++ l :: back) =
      if l.ended then held (front ++ back) else insert l.holder.object (held (front ++ back)) := by
  ext object
  cases going : l.ended with
  | true =>
    simp only [held, Set.mem_ofPred_eq, List.mem_append, List.mem_cons, ↓reduceIte]
    constructor
    · rintro ⟨other, inside | rfl | inside, left⟩
      · exact ⟨other, .inl inside, left⟩
      · exact nomatch going.symm.trans left.1
      · exact ⟨other, .inr inside, left⟩
    · rintro ⟨other, inside | inside, left⟩
      · exact ⟨other, .inl inside, left⟩
      · exact ⟨other, .inr (.inr inside), left⟩
  | false =>
    simp only [held, Set.mem_ofPred_eq, List.mem_append, List.mem_cons, Bool.false_eq_true,
      ↓reduceIte, Set.mem_insert_iff]
    constructor
    · rintro ⟨other, inside | rfl | inside, left⟩
      · exact .inr ⟨other, .inl inside, left⟩
      · exact .inl left.2.symm
      · exact .inr ⟨other, .inr inside, left⟩
    · rintro (rfl | ⟨other, inside | inside, left⟩)
      · exact ⟨l, .inr (.inl rfl), going, rfl⟩
      · exact ⟨other, .inl inside, left⟩
      · exact ⟨other, .inr (.inr inside), left⟩

theorem left?_eq_some_iff {l : Life} {x : Instance} :
    l.left? = some x ↔ l.ended = false ∧ l.holder = x := by
  unfold left?
  cases l.ended <;> simp

end Life

namespace Recorded

theorem about_append_call (r : Recorded σ) (memory : σ) (call : NativeCall) (object : Nat) :
    (Recorded.mk memory (r.calls ++ [call])).about object =
      r.about object ++ if call.object? = some object then [call] else [] := by
  unfold about
  rw [List.filter_append]
  by_cases same : call.object? = some object <;> simp [same]

end Recorded

namespace Session

variable {live : σ → Set Nat} {base : Set Nat}

/-- What is recorded in a session are the lives of its instances, in the order of their handles.
`base` are the objects that were there before. -/
structure Ledger (live : σ → Set Nat) (base : Set Nat) (s : Session (Recorded σ)) (lives : List Life) :
    Prop where
  instances : s.instances = lives.map Life.left?
  known : ∀ l ∈ lives, l.holder.interface ∈ s.collection.interfaces
  calls : ∀ object, s.heap.about object = Life.about lives object
  /-- While an instance is there, no other is made of the same object. -/
  single : lives.Pairwise fun l later => l.ended ∨ later.holder.object ≠ l.holder.object
  live_eq : live s.heap.memory = base ∪ Life.held lives
  apart : Disjoint base (Life.held lives)

namespace Ledger

variable {s : Session (Recorded σ)} {lives : List Life}

theorem start (c : Collection) (memory : σ) :
    Ledger live (live memory) (ofCollection c (Recorded.start memory)) [] where
  instances := rfl
  known l member := nomatch member
  calls _ := List.filter_nil
  single := .nil
  live_eq := by simp [ofCollection, Recorded.start, Life.held]
  apart := by simp [Life.held]

theorem exists_life (ledger : Ledger live base s lives) {handle : Nat} {x : Instance}
    (present : s.instance? handle = some x) :
    ∃ front l back, lives = front ++ l :: back ∧ front.length = handle ∧ l.ended = false ∧
      l.holder = x := by
  have stands := instance?_eq_some_iff.mp present
  rw [ledger.instances, List.getElem?_map] at stands
  obtain ⟨l, found, left⟩ := Option.map_eq_some_iff.mp stands
  obtain ⟨going, holder⟩ := Life.left?_eq_some_iff.mp left
  obtain ⟨bound, rfl⟩ := List.getElem?_eq_some_iff.mp found
  refine ⟨lives.take handle, lives[handle], lives.drop (handle + 1), ?_, ?_, going, holder⟩
  · rw [← List.drop_eq_getElem_cons bound, List.take_append_drop]
  · exact List.length_take_of_le bound.le

variable {front back : List Life} {l : Life}

/-- A life that is not over is the last one of its object. -/
theorem last (ledger : Ledger live base s (front ++ l :: back)) (going : l.ended = false) :
    ∀ later ∈ back, later.holder.object ≠ l.holder.object := by
  intro later inside
  obtain ⟨-, behind, -⟩ := List.pairwise_append.mp ledger.single
  rcases (List.pairwise_cons.mp behind).1 later inside with ended | differ
  · exact nomatch going.symm.trans ended
  · exact differ

theorem not_mem_held (ledger : Ledger live base s (front ++ l :: back)) (going : l.ended = false) :
    l.holder.object ∉ Life.held (front ++ back) := by
  rintro ⟨other, inside, going', same⟩
  rcases List.mem_append.mp inside with inside | inside
  · obtain ⟨-, -, across⟩ := List.pairwise_append.mp ledger.single
    rcases across other inside l (List.mem_cons_self ..) with ended | differ
    · exact nomatch going'.symm.trans ended
    · exact differ same.symm
  · exact ledger.last going other inside same

/-- What a call on the object of an instance that is there does to the ledger. -/
theorem replace {next : Life} {call : NativeCall} {w : σ}
    (ledger : Ledger live base s (front ++ l :: back)) (going : l.ended = false)
    (same : next.holder = l.holder) (calls : next.calls = l.calls ++ [call])
    (target : call.object? = some l.holder.object)
    (after : live w =
      if next.ended then live s.heap.memory \ {l.holder.object} else live s.heap.memory) :
    Ledger live base
      { s with
        heap := ⟨w, s.heap.calls ++ [call]⟩
        instances := s.instances.set front.length next.left? }
      (front ++ next :: back) := by
  have last := ledger.last going
  have others := ledger.not_mem_held going
  have held := ledger.live_eq
  have apart := ledger.apart
  rw [Life.held_insert, going, if_neg Bool.false_ne_true] at held apart
  rw [Set.disjoint_insert_right] at apart
  constructor
  case instances =>
    rw [ledger.instances, List.map_append, List.map_append, List.set_append_right _ _ (by simp)]
    simp
  case known =>
    intro other inside
    rcases List.mem_append.mp inside with inside | inside
    · exact ledger.known other (List.mem_append_left _ inside)
    rcases List.mem_cons.mp inside with rfl | inside
    · rw [same]
      exact ledger.known l (List.mem_append_right _ (List.mem_cons_self ..))
    · exact ledger.known other (List.mem_append_right _ (List.mem_cons_of_mem _ inside))
  case calls =>
    intro object
    rw [Recorded.about_append_call, Life.about_replace same calls last, ledger.calls object, target]
    simp only [Option.some.injEq]
  case single =>
    obtain ⟨before, behind, across⟩ := List.pairwise_append.mp ledger.single
    rw [List.pairwise_append, List.pairwise_cons]
    refine ⟨before, ⟨fun later inside => .inr (same ▸ last later inside), behind.of_cons⟩, ?_⟩
    intro l' inside later inside'
    rcases List.mem_cons.mp inside' with rfl | inside'
    · rw [same]
      exact across l' inside l (List.mem_cons_self ..)
    · exact across l' inside later (List.mem_cons_of_mem _ inside')
  case live_eq =>
    dsimp only
    rw [after, held, Life.held_insert, same]
    split
    · rw [Set.union_insert, Set.insert_sdiff_self_of_notMem]
      exact fun inside => inside.elim apart.1 others
    · rfl
  case apart =>
    rw [Life.held_insert, same]
    split
    · exact apart.2
    · exact Set.disjoint_insert_right.mpr apart

theorem mem_live (ledger : Ledger live base s lives) {l : Life} (member : l ∈ lives)
    (going : l.ended = false) : l.holder.object ∈ live s.heap.memory := by
  rw [ledger.live_eq]
  exact .inr ⟨l, member, going, rfl⟩

theorem ended (ledger : Ledger live base s lives) (nothing : s.alive = []) :
    ∀ l ∈ lives, l.ended = true := by
  intro l member
  by_contra going
  have left : some l.holder ∈ s.instances := by
    rw [ledger.instances]
    exact List.mem_map.mpr ⟨l, member, if_neg going⟩
  have alive : l.holder ∈ s.alive := List.mem_filterMap.mpr ⟨_, left, rfl⟩
  rw [nothing] at alive
  exact nomatch alive

variable [NativeMemory σ]

theorem create (ledger : Ledger live base s lives) (allocates : Allocates s.collection live)
    {i : Interface} {object : Nat} {w : σ} (member : i ∈ s.collection.interfaces)
    (called : NativeMemory.create i.create s.heap.memory = (some object, w)) :
    Ledger live base
      { s with
        heap := ⟨w, s.heap.calls ++ [.create i.create (some object)]⟩
        instances := s.instances ++ [some ⟨i, object⟩] }
      (lives ++ [.begin ⟨i, object⟩]) := by
  obtain ⟨fresh, after⟩ := allocates.create i member _ _ _ called
  rw [ledger.live_eq] at fresh after
  have held : Life.held (lives ++ [.begin ⟨i, object⟩]) = insert object (Life.held lives) := by
    simpa [Life.begin] using Life.held_insert lives [] (.begin ⟨i, object⟩)
  constructor
  case instances => rw [ledger.instances, List.map_append]; rfl
  case known =>
    intro l inside
    rcases List.mem_append.mp inside with old | new
    · exact ledger.known l old
    · obtain rfl := List.mem_singleton.mp new
      exact member
  case calls =>
    intro other
    rw [Recorded.about_append_call, Life.about_append, Life.about_cons, ledger.calls]
    by_cases same : object = other
    · simp [same, NativeCall.object?, Life.begin, Life.calls, Life.about]
    · simp [same, NativeCall.object?, Life.begin, Life.about]
  case single =>
    refine List.pairwise_append.mpr ⟨ledger.single, List.pairwise_singleton _ _, ?_⟩
    intro l inside later new
    obtain rfl := List.mem_singleton.mp new
    cases going : l.ended with
    | true => exact .inl rfl
    | false => exact .inr fun same => fresh (.inr ⟨l, inside, going, same.symm⟩)
  case live_eq => rw [after, held, Set.union_insert]
  case apart =>
    rw [held]
    exact Set.disjoint_insert_right.mpr ⟨fun old => fresh (.inl old), ledger.apart⟩

theorem createNull (ledger : Ledger live base s lives) (allocates : Allocates s.collection live)
    {i : Interface} {w : σ} (member : i ∈ s.collection.interfaces)
    (called : NativeMemory.create i.create s.heap.memory = (none, w)) :
    Ledger live base { s with heap := ⟨w, s.heap.calls ++ [.create i.create none]⟩ } lives where
  instances := ledger.instances
  known := ledger.known
  calls object := by
    rw [Recorded.about_append_call, ledger.calls]
    exact List.append_nil _
  single := ledger.single
  live_eq := (allocates.createNull i member _ _ called).trans ledger.live_eq
  apart := ledger.apart

theorem access (ledger : Ledger live base s lives) (allocates : Allocates s.collection live)
    {handle : Nat} {x : Instance} {access : Access} (present : s.instance? handle = some x)
    (own : access.IsOf x.interface) :
    ∃ lives', Ledger live base { s with heap := (access.perform x.object s.heap).2 } lives' ∧
      lives'.map (·.holder) = lives.map (·.holder) := by
  obtain ⟨front, l, back, rfl, rfl, going, rfl⟩ := ledger.exists_life present
  have member : l ∈ front ++ l :: back := List.mem_append_right _ (List.mem_cons_self ..)
  have kept := allocates.access _ (ledger.known l member) access own s.heap.memory _
    (ledger.mem_live member going)
  let next := l.use (access.call l.holder.object) own.isUse
  have left : next.left? = l.left? := rfl
  have idle : s.instances.set front.length l.left? = s.instances := by
    rw [ledger.instances, List.map_append, List.set_append_right _ _ (by simp)]
    simp
  have step : Ledger live base _ (front ++ next :: back) :=
    ledger.replace going rfl (Life.calls_use going own.isUse)
    (access.object?_call _) (by rw [show next.ended = false from going]; exact kept)
  rw [left, idle] at step
  refine ⟨front ++ next :: back, ?_, by simp [next, Life.use]⟩
  rw [access.perform_recorded]
  exact step

theorem destroy (ledger : Ledger live base s lives) (allocates : Allocates s.collection live)
    {handle : Nat} {x : Instance} (present : s.instance? handle = some x) :
    ∃ lives', Ledger live base (s.destroy handle x) lives' ∧
      lives'.map (·.holder) = lives.map (·.holder) := by
  obtain ⟨front, l, back, rfl, rfl, going, rfl⟩ := ledger.exists_life present
  have member : l ∈ front ++ l :: back := List.mem_append_right _ (List.mem_cons_self ..)
  have released := allocates.destroy _ (ledger.known l member) s.heap.memory _
    (ledger.mem_live member going)
  have step : Ledger live base _ (front ++ l.finish :: back) :=
    ledger.replace going rfl (Life.calls_finish going) rfl released
  exact ⟨front ++ l.finish :: back, step, by simp [Life.finish]⟩

/-- One step: what it makes an instance of begins a life, and no other life begins. -/
theorem step (ledger : Ledger live base s lives) (allocates : Allocates s.collection live)
    {made : Option Interface} {t : Session (Recorded σ)} (move : Moves s made t) :
    ∃ lives', Ledger live base t lives' ∧
      lives'.map (·.holder.interface) = lives.map (·.holder.interface) ++ made.toList := by
  have interfaces {lives' : List Life} (same : lives'.map (·.holder) = lives.map (·.holder)) :
      lives'.map (·.holder.interface) = lives.map (·.holder.interface) ++ [] := by
    simpa [Function.comp_def] using congrArg (List.map Instance.interface) same
  cases move with
  | idle => exact ⟨lives, ledger, interfaces rfl⟩
  | createNull member called =>
    rw [create_recorded] at called
    obtain ⟨nothing, rfl⟩ := Prod.mk.inj called
    rw [nothing]
    exact ⟨lives, ledger.createNull allocates member (Prod.ext nothing rfl), interfaces rfl⟩
  | create member called =>
    rw [create_recorded] at called
    obtain ⟨something, rfl⟩ := Prod.mk.inj called
    rw [something]
    exact ⟨_, ledger.create allocates member (Prod.ext something rfl), by simp [Life.begin]⟩
  | destroy present =>
    obtain ⟨lives', next, same⟩ := ledger.destroy allocates present
    exact ⟨lives', next, interfaces same⟩
  | access present own =>
    obtain ⟨lives', next, same⟩ := ledger.access allocates present own
    exact ⟨lives', next, interfaces same⟩

theorem run (ledger : Ledger live base s lives) (allocates : Allocates s.collection live)
    (steps : List Step) :
    ∃ lives', Ledger live base (s.run steps).2 lives' ∧
      lives'.map (·.holder.interface) =
        lives.map (·.holder.interface) ++ made s.collection steps (s.run steps).1 :=
  (run_induction (motive := fun interfaces s => Allocates s.collection live ∧
      ∃ lives', Ledger live base s lives' ∧ lives'.map (·.holder.interface) = interfaces)
    (by
      rintro before s now t move ⟨allocates, lives, ledger, rfl⟩
      exact ⟨move.collection ▸ allocates, ledger.step allocates move⟩)
    ⟨allocates, lives, ledger, rfl⟩ steps).2

end Ledger

/-- Whatever is asked of a session on a loaded collection whose functions create fresh objects and
release what they destroy, each instance that it has made has one life: it is created, accessed and
destroyed by its interface, whose destroying function is behind the destroy symbol of its type. The
calls about an object are the lives of the instances it was, one after another, and at the end there
are the objects that there were at the start. A creation that gives null makes no instance. -/
theorem run_lifecycle [NativeMemory σ] {m : Module} {options : LoadOptions} {c : Collection}
    (loaded : Collection.load m options = .ok c) (allocates : Allocates c live) (memory : σ)
    (steps : List Step) :
    let recorded := (ofCollection c (Recorded.start memory)).run steps
    let plain := (ofCollection c memory).run steps
    recorded.1 = plain.1 ∧ recorded.2.finish.memory = plain.2.finish ∧
    (∃ lives : List Life,
      lives.map (·.holder.interface) = made c steps plain.1 ∧
      (∀ l ∈ lives, l.ended ∧
        m.function? l.holder.interface.type.destroy = some l.holder.interface.destroy) ∧
      ∀ object, recorded.2.finish.about object = Life.about lives object) ∧
    live plain.2.finish = live memory ∧
    ∀ typeName i w, c.get? typeName = some i →
      NativeMemory.create i.create plain.2.heap = (none, w) →
      plain.2.step (.create typeName) =
        (.failed (.createFailed typeName), { plain.2 with heap := w }) := by
  intro recorded plain
  have forgotten : plain = (recorded.1, recorded.2.forget) :=
    run_forget (ofCollection c (.start memory)) steps
  have finished : recorded.2.finish.memory = plain.2.finish := by
    rw [forgotten, finish_forget]
  have allocates' : Allocates (ofCollection c (Recorded.start memory)).collection live := allocates
  obtain ⟨lives, ledger, interfaces⟩ := (Ledger.start c memory).run allocates' steps
  rw [← (ofCollection c (Recorded.start memory)).collection_run steps] at allocates'
  obtain ⟨handles, heap, nothing⟩ := exists_run_eq_finish recorded.2
  obtain ⟨lives, ledger, interfaces'⟩ := ledger.run allocates' (handles.map .destroy)
  have ended := ledger.ended nothing
  refine ⟨by rw [forgotten], finished, ⟨lives, ?_, fun l member => ⟨ended l member, ?_⟩, ?_⟩, ?_, ?_⟩
  · rw [interfaces', interfaces, made_destroy, List.append_nil, forgotten]
    rfl
  · have known := ledger.known l member
    rw [collection_run, collection_run] at known
    exact (Collection.bound_of_load loaded known).destroy
  · intro object
    rw [← heap]
    exact ledger.calls object
  · have left : Life.held lives = ∅ := by
      ext object
      simp only [Set.mem_empty_iff_false, iff_false]
      rintro ⟨l, member, going, -⟩
      exact nomatch going.symm.trans (ended l member)
    rw [← finished, ← heap, ledger.live_eq, left, Set.union_empty]
  · intro typeName i w found called
    have named := (Collection.indexed_of_load loaded).name_of_get? found
    have known : plain.2.collection.get? typeName = some i := by
      rw [collection_run]
      exact found
    rw [create_null _ known called, named]

end Session

/-! ### The heap -/

namespace Heap

def live (h : Heap) : Set Nat := {object | ∃ o ∈ h.objects, o.1 = object}

theorem next_notMem_live (h : Heap) : h.next ∉ h.live := by
  rintro ⟨o, member, same⟩
  exact (h.bounded o member).ne same

theorem live_create (h : Heap) (prototype : Nat) :
    (h.create prototype).2.live = insert h.next h.live := by
  ext object
  simp only [live, create, Set.mem_ofPred_eq, List.mem_append, List.mem_singleton,
    Set.mem_insert_iff]
  constructor
  · rintro ⟨o, old | rfl, same⟩
    · exact .inr ⟨o, old, same⟩
    · exact .inl same.symm
  · rintro (rfl | ⟨o, old, same⟩)
    · exact ⟨_, .inr rfl, rfl⟩
    · exact ⟨o, .inl old, same⟩

theorem live_update (h : Heap) (object : Nat) (f : Object → Object) :
    (h.update object f).live = h.live := by
  have numbers : (h.update object f).objects.map (·.1) = h.objects.map (·.1) := by
    rw [update, List.map_map]
    apply List.map_congr_left
    intro o _
    dsimp only [Function.comp]
    split <;> rfl
  ext other
  have same : (∃ o ∈ (h.update object f).objects, o.1 = other) ↔ ∃ o ∈ h.objects, o.1 = other := by
    rw [← List.mem_map, ← List.mem_map, numbers]
  exact same

theorem live_destroy (h : Heap) (prototype object : Nat) :
    (h.destroy prototype object).live = h.live \ {object} := by
  ext other
  simp only [live, destroy, Set.mem_ofPred_eq, List.mem_filter, Set.mem_sdiff, Set.mem_singleton_iff]
  constructor
  · rintro ⟨o, ⟨member, kept⟩, rfl⟩
    exact ⟨⟨o, member, rfl⟩, of_decide_eq_true kept⟩
  · rintro ⟨⟨o, member, rfl⟩, kept⟩
    exact ⟨o, ⟨member, decide_eq_true kept⟩, rfl⟩

theorem live_perform (access : Session.Access) (object : Nat) (h : Heap) :
    (access.perform object h).2.live = h.live := by
  cases access with
  | read f kind => rfl
  | write f v =>
    change (f.callSet v object h).live = h.live
    cases f with
    | set cell =>
      rw [NativeFunction.callSet]
      split
      · exact live_update ..
      · rfl
    | _ => rfl

/-- On the heap it is enough that what stands behind the destroy symbols destroys. -/
theorem allocates {c : Collection}
    (releases : ∀ i ∈ c.interfaces, ∃ prototype, i.destroy = .destroy prototype) :
    Allocates c live where
  create := by
    intro i _ h object h' called
    cases f : i.create with
    | create prototype =>
      rw [f] at called
      obtain ⟨same, rfl⟩ := Prod.mk.inj called
      obtain rfl := Option.some.inj same
      exact ⟨h.next_notMem_live, h.live_create prototype⟩
    | _ => rw [f] at called; exact nomatch called
  createNull := by
    intro i _ h h' called
    cases f : i.create with
    | create prototype => rw [f] at called; exact nomatch called
    | _ =>
      rw [f] at called
      obtain ⟨-, rfl⟩ := Prod.mk.inj called
      rfl
  access := fun _ _ access _ h object _ => live_perform access object h
  destroy := by
    intro i member h object _
    obtain ⟨prototype, f⟩ := releases i member
    rw [f]
    exact h.live_destroy prototype object

end Heap

namespace Session

def lampTypes : List ScriptType :=
  [⟨"Lamp", [], [], "createLamp", "scrapLamp"⟩, ⟨"Ghost", [], [], "createGhost", "destroyGhost"⟩,
   (ScriptType.declared "Lamp").pushField (.scalar .int) "level"]

/-- A module with two types of one name, and one of which no object can be made. -/
def lampModule : Module where
  name := "lamps"
  function? := fun
    | "getGeneratedScripts" => (Table.encode lampTypes).toOption.map NativeFunction.register
    | "createLamp" => some (.create 0)
    | "createGhost" => some .createNull
    | "scrapLamp" => some (.destroy 0)
    | "destroyLamp" => some (.destroy 1)
    | "destroyGhost" => some (.destroy 2)
    | "Lamp_get_level" => some (.get ⟨.int, Fin.last 7⟩)
    | "Lamp_set_level" => some (.set ⟨.int, Fin.last 7⟩)
    | _ => none

def lampCollection : Collection :=
  (Collection.load lampModule ⟨.overwrite, .strict⟩).toOption.getD (.empty "lamps")

theorem run_lifecycle_lampModule :
    let plain := (ofCollection lampCollection (Heap.start [])).run
      [.create "Lamp", .create "Ghost", .create "Lamp", .set 0 0 (.int 7), .destroy 0, .get 0 0]
    Collection.load lampModule ⟨.overwrite, .strict⟩ = .ok lampCollection ∧
    plain.1 = [.created 0, .failed (.createFailed "Ghost"), .created 1, .done, .done, .noInstance] ∧
    (∃ lives : List Life, lives.length = 2 ∧ ∀ l ∈ lives, l.ended ∧
      lampModule.function? l.holder.interface.type.destroy = some l.holder.interface.destroy) ∧
    plain.2.finish.live = (Heap.start []).live := by
  intro plain
  have loaded : Collection.load lampModule ⟨.overwrite, .strict⟩ = .ok lampCollection := by
    decide +kernel
  have releases : ∀ i ∈ lampCollection.interfaces, ∃ prototype, i.destroy = .destroy prototype := by
    have functions : lampCollection.interfaces.map (·.destroy) = [.destroy 1, .destroy 2] := by
      decide +kernel
    intro i member
    have inside : i.destroy ∈ [NativeFunction.destroy 1, .destroy 2] :=
      functions ▸ List.mem_map_of_mem member
    rcases List.mem_cons.mp inside with first | rest
    · exact ⟨1, first⟩
    · exact ⟨2, List.mem_singleton.mp rest⟩
  have answers : plain.1 =
      [.created 0, .failed (.createFailed "Ghost"), .created 1, .done, .done, .noInstance] := by
    decide +kernel
  obtain ⟨-, -, ⟨lives, interfaces, ended, -⟩, live, -⟩ :=
    run_lifecycle loaded (Heap.allocates releases) (Heap.start [])
      [.create "Lamp", .create "Ghost", .create "Lamp", .set 0 0 (.int 7), .destroy 0, .get 0 0]
  refine ⟨loaded, answers, ⟨lives, ?_, ended⟩, live⟩
  rw [← List.length_map (fun l : Life => l.holder.interface), interfaces]
  decide +kernel

end Session

end ScriptGlue
