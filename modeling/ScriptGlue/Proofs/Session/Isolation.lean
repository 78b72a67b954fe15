import ScriptGlue.Proofs.Session.Lifecycle

/-!
# Isolation of instances

Where native functions touch only the object that they are given, an instance does not notice what
is asked of the others. The proof runs two sessions side by side, one without those steps. Their
objects need not have the same addresses, since a memory may reuse those of destroyed objects.
-/

namespace ScriptGlue

variable {σ ω : Type}

/-- What there is to see in a memory: which objects there are, what each holds, and what an object
would hold that a function creates now, if the function creates one. -/
structure View (σ ω : Type) where
  live : σ → Set Nat
  content : σ → Nat → ω
  initial : NativeFunction → σ → Option ω

namespace View

/-- A call has no effect on any object but one, nor on later creations. -/
structure Keeps (v : View σ ω) (w w' : σ) (except : Option Nat) : Prop where
  others : ∀ object ∈ v.live w, some object ≠ except →
    object ∈ v.live w' ∧ v.content w' object = v.content w object
  initial : ∀ f, v.initial f w' = v.initial f w

/-- The functions of a collection create fresh objects, each like all that the function creates,
and otherwise touch only the object that they are given. -/
structure Isolates [NativeMemory σ] (v : View σ ω) (c : Collection) : Prop where
  create : ∀ i ∈ c.interfaces, ∀ w object w', NativeMemory.create i.create w = (some object, w') →
    object ∉ v.live w ∧ object ∈ v.live w' ∧
      v.initial i.create w = some (v.content w' object) ∧ v.Keeps w w' none
  createNull : ∀ i ∈ c.interfaces, ∀ w w', NativeMemory.create i.create w = (none, w') →
    v.initial i.create w = none ∧ v.Keeps w w' none
  access : ∀ i ∈ c.interfaces, ∀ access : Session.Access, access.IsOf i →
    ∀ w, ∀ object ∈ v.live w,
      object ∈ v.live (access.perform object w).2 ∧
      v.Keeps w (access.perform object w).2 (some object)
  /-- An access sees nothing but what the object holds. -/
  depends : ∀ i ∈ c.interfaces, ∀ access : Session.Access, access.IsOf i →
    ∀ w, ∀ object ∈ v.live w, ∀ w', ∀ object' ∈ v.live w',
      v.content w object = v.content w' object' →
      (access.perform object w).1 = (access.perform object' w').1 ∧
      v.content (access.perform object w).2 object = v.content (access.perform object' w').2 object'
  destroy : ∀ i ∈ c.interfaces, ∀ w, ∀ object ∈ v.live w,
    v.Keeps w (NativeMemory.destroy i.destroy object w) (some object)

end View

namespace Session

/-- Whether a step creates an instance or is made on the instance of a handle. -/
def Step.concerns (handle : Nat) (a : Step) : Bool := a.handle? = none ∨ a.handle? = some handle

theorem instance?_append (s : Session σ) (x : Instance) (heap : σ) (handle : Nat) :
    ({ s with heap, instances := s.instances ++ [some x] } : Session σ).instance? handle =
      if handle = s.instances.length then some x else s.instance? handle := by
  unfold instance?
  dsimp only
  split
  · rename_i last
    rw [last, List.getElem?_concat_length]
    rfl
  · rename_i other
    by_cases old : handle < s.instances.length
    · rw [List.getElem?_append_left old]
    · rw [List.getElem?_eq_none (by simp; omega), List.getElem?_eq_none (by omega)]

theorem instance?_destroy [NativeMemory σ] (s : Session σ) (handle other : Nat) (x : Instance) :
    (s.destroy handle x).instance? other = if other = handle then none else s.instance? other := by
  unfold instance? destroy
  dsimp only
  rw [List.getElem?_set]
  by_cases same : handle = other
  · subst same
    simp only [↓reduceIte]
    split <;> rfl
  · rw [if_neg same, if_neg (Ne.symm same)]

/-- The instances of a session are objects that are there, no two the same. -/
structure Sound (v : View σ ω) (s : Session σ) : Prop where
  known : ∀ handle x, s.instance? handle = some x → x.interface ∈ s.collection.interfaces
  live : ∀ handle x, s.instance? handle = some x → x.object ∈ v.live s.heap
  distinct : ∀ handle x handle' x', s.instance? handle = some x → s.instance? handle' = some x' →
    x.object = x'.object → handle = handle'

namespace Sound

variable {v : View σ ω} {s t : Session σ}

theorem ofCollection (v : View σ ω) (c : Collection) (memory : σ) :
    Sound v (.ofCollection c memory) where
  known _ _ present := nomatch present
  live _ _ present := nomatch present
  distinct _ _ _ _ present := nomatch present

/-- A call that spares the instances leaves a session sound. -/
theorem of_keeps (sound : Sound v s) {heap : σ} {except : Option Nat} (keeps : v.Keeps s.heap heap except)
    (spared : ∀ handle x, s.instance? handle = some x → some x.object = except → x.object ∈ v.live heap) :
    Sound v { s with heap } where
  known := sound.known
  live handle x present := by
    by_cases own : some x.object = except
    · exact spared handle x present own
    · exact (keeps.others _ (sound.live handle x present) own).1
  distinct := sound.distinct

variable [NativeMemory σ]

theorem create (sound : Sound v s) (isolates : v.Isolates s.collection) {i : Interface}
    {object : Nat} {memory : σ} (member : i ∈ s.collection.interfaces)
    (called : NativeMemory.create i.create s.heap = (some object, memory)) :
    Sound v { s with heap := memory, instances := s.instances ++ [some ⟨i, object⟩] } := by
  obtain ⟨fresh, live, -, keeps⟩ := isolates.create _ member _ _ _ called
  have old := sound.of_keeps keeps fun _ _ _ same => nomatch same
  constructor
  case known =>
    intro handle x present
    rw [instance?_append] at present
    split at present
    · obtain rfl := Option.some.inj present
      exact member
    · exact sound.known handle x present
  case live =>
    intro handle x present
    rw [instance?_append] at present
    split at present
    · obtain rfl := Option.some.inj present
      exact live
    · exact old.live handle x present
  case distinct =>
    intro handle x handle' x' present present' same
    rw [instance?_append] at present present'
    -- The new object is fresh, so none of the instances before is of it.
    split at present <;> split at present'
    · omega
    · obtain rfl := Option.some.inj present
      obtain rfl : object = x'.object := same
      exact absurd (sound.live handle' x' present') fresh
    · obtain rfl := Option.some.inj present'
      obtain rfl : x.object = object := same
      exact absurd (sound.live handle x present) fresh
    · exact sound.distinct _ _ _ _ present present' same

theorem destroy (sound : Sound v s) (isolates : v.Isolates s.collection) {handle : Nat}
    {x : Instance} (present : s.instance? handle = some x) : Sound v (s.destroy handle x) := by
  have keeps := isolates.destroy _ (sound.known handle x present) _ _ (sound.live handle x present)
  have left : ∀ other y, (s.destroy handle x).instance? other = some y →
      other ≠ handle ∧ s.instance? other = some y := by
    intro other y present'
    rw [instance?_destroy] at present'
    split at present'
    · exact nomatch present'
    · exact ⟨‹_›, present'⟩
  constructor
  case known => exact fun other y present' => sound.known other y (left other y present').2
  case live =>
    intro other y present'
    obtain ⟨differ, present'⟩ := left other y present'
    refine (keeps.others _ (sound.live other y present') fun same => differ ?_).1
    exact sound.distinct _ _ _ _ present' present (Option.some.inj same)
  case distinct =>
    intro other y other' y' one two
    exact sound.distinct _ _ _ _ (left other y one).2 (left other' y' two).2

theorem step (sound : Sound v s) (isolates : v.Isolates s.collection) {made : Option Interface}
    (move : Moves s made t) : Sound v t := by
  cases move with
  | idle => exact sound
  | createNull member called =>
    exact sound.of_keeps (isolates.createNull _ member _ _ called).2 fun _ _ _ same => nomatch same
  | create member called => exact sound.create isolates member called
  | destroy present => exact sound.destroy isolates present
  | @access handle x access present own =>
    obtain ⟨live, keeps⟩ := isolates.access _ (sound.known handle x present) access own _ _
      (sound.live handle x present)
    exact sound.of_keeps keeps fun _ y _ same => Option.some.inj same ▸ live

end Sound

/-- Two sessions that the instance of a handle cannot tell apart. -/
structure Alike (v : View σ ω) (handle : Nat) (s t : Session σ) : Prop where
  collection : s.collection = t.collection
  length : s.instances.length = t.instances.length
  initial : ∀ f, v.initial f s.heap = v.initial f t.heap
  instances : Option.Rel (fun x y => x.interface = y.interface ∧
      v.content s.heap x.object = v.content t.heap y.object)
    (s.instance? handle) (t.instance? handle)

namespace Alike

variable {v : View σ ω} {handle : Nat} {s s' t : Session σ}

theorem symm (alike : Alike v handle s t) : Alike v handle t s where
  collection := alike.collection.symm
  length := alike.length.symm
  initial f := (alike.initial f).symm
  instances := by
    have related := alike.instances
    generalize s.instance? handle = x, t.instance? handle = y at related
    cases related with
    | none => exact .none
    | some same => exact .some ⟨same.1.symm, same.2.symm⟩

theorem cases (alike : Alike v handle s t) :
    (s.instance? handle = none ∧ t.instance? handle = none) ∨
    ∃ x y, s.instance? handle = some x ∧ t.instance? handle = some y ∧
      x.interface = y.interface ∧ v.content s.heap x.object = v.content t.heap y.object := by
  have related := alike.instances
  generalize s.instance? handle = x, t.instance? handle = y at related
  cases related with
  | none => exact .inl ⟨rfl, rfl⟩
  | some same => exact .inr ⟨_, _, rfl, rfl, same⟩

/-- What the instance of a handle sees of a session is as it was. -/
theorem of_view (alike : Alike v handle s t) (collection : s'.collection = s.collection)
    (length : s'.instances.length = s.instances.length)
    (initial : ∀ f, v.initial f s'.heap = v.initial f s.heap)
    (same : s'.instance? handle = s.instance? handle)
    (content : ∀ x, s.instance? handle = some x →
      v.content s'.heap x.object = v.content s.heap x.object) : Alike v handle s' t where
  collection := collection.trans alike.collection
  length := length.trans alike.length
  initial f := (initial f).trans (alike.initial f)
  instances := by
    have related := alike.instances
    rw [same]
    generalize s.instance? handle = x, t.instance? handle = y at related content
    cases related with
    | none => exact .none
    | some both => exact .some ⟨both.1, (content _ rfl).trans both.2⟩

/-- A call that spares the instance of the handle makes no difference to it. -/
theorem of_keeps (alike : Alike v handle s t) (sound : Sound v s) {heap : σ} {except : Option Nat}
    (keeps : v.Keeps s.heap heap except)
    (spared : ∀ x, s.instance? handle = some x → some x.object ≠ except) :
    Alike v handle { s with heap } t :=
  alike.of_view rfl rfl keeps.initial rfl fun x present =>
    (keeps.others _ (sound.live handle x present) (spared x present)).2

theorem initial_of_keeps (alike : Alike v handle s t) {w w' : σ} {except except' : Option Nat}
    (keeps : v.Keeps s.heap w except) (keeps' : v.Keeps t.heap w' except') (f : NativeFunction) :
    v.initial f w = v.initial f w' :=
  (keeps.initial f).trans ((alike.initial f).trans (keeps'.initial f).symm)

theorem of_keeps_both (alike : Alike v handle s t) (sound : Sound v s) (sound' : Sound v t)
    {heap heap' : σ} (keeps : v.Keeps s.heap heap none) (keeps' : v.Keeps t.heap heap' none) :
    Alike v handle { s with heap } { t with heap := heap' } :=
  have one := alike.of_keeps sound keeps fun _ _ => Option.some_ne_none _
  (one.symm.of_keeps sound' keeps' fun _ _ => Option.some_ne_none _).symm

variable [NativeMemory σ]

theorem skip (alike : Alike v handle s t) (sound : Sound v s) (isolates : v.Isolates s.collection)
    {a : Step} (other : a.concerns handle = false) : Alike v handle (s.step a).2 t := by
  have differ : ∀ handle', a.handle? = some handle' → handle ≠ handle' := by
    rintro handle' target rfl
    rw [Step.concerns, target, decide_eq_false_iff_not] at other
    exact other (.inr rfl)
  have spared : ∀ handle' y, a.handle? = some handle' → s.instance? handle' = some y →
      ∀ x, s.instance? handle = some x → some x.object ≠ some y.object :=
    fun handle' y target present x present' same =>
      differ handle' target (sound.distinct _ _ _ _ present' present (Option.some.inj same))
  rcases a.cases with ⟨typeName, rfl⟩ | ⟨handle', rfl⟩ | ⟨handle', target, accesses⟩
  · exact nomatch other
  · cases present : s.instance? handle' with
    | none => rwa [step_of_none s rfl present]
    | some y =>
      have keeps := isolates.destroy _ (sound.known _ y present) _ _ (sound.live _ y present)
      rw [step_destroy s present]
      refine alike.of_view rfl (List.length_set ..) keeps.initial ?_ fun x present' => ?_
      · rw [instance?_destroy, if_neg (differ handle' rfl)]
      · exact (keeps.others _ (sound.live _ x present') (spared handle' y rfl present x present')).2
  · cases present : s.instance? handle' with
    | none => rwa [step_of_none s target present]
    | some y =>
      obtain ⟨result, made⟩ := accesses y.interface
      rw [step_eq_access s target present made]
      cases result with
      | error e => exact alike
      | ok access =>
        have keeps := (isolates.access _ (sound.known _ y present) access
          (Step.access?_isOf made) _ _ (sound.live _ y present)).2
        exact alike.of_keeps sound keeps (spared handle' y target present)

theorem create (alike : Alike v handle s t) (sound : Sound v s) (sound' : Sound v t)
    (isolates : v.Isolates s.collection) (typeName : String) :
    (s.step (.create typeName)).1 = (t.step (.create typeName)).1 ∧
      Alike v handle (s.step (.create typeName)).2 (t.step (.create typeName)).2 := by
  have isolates' : v.Isolates t.collection := alike.collection ▸ isolates
  cases known : s.collection.get? typeName with
  | none =>
    have known' := alike.collection ▸ known
    rw [create_of_none s known, create_of_none t known']
    exact ⟨rfl, alike⟩
  | some i =>
    have known' := alike.collection ▸ known
    have member := Collection.mem_of_get? known
    have member' := Collection.mem_of_get? known'
    have initial := alike.initial i.create
    rcases called : NativeMemory.create i.create s.heap with ⟨_ | object, w⟩ <;>
      rcases called' : NativeMemory.create i.create t.heap with ⟨_ | object', w'⟩
    · obtain ⟨-, keeps⟩ := isolates.createNull i member _ _ called
      obtain ⟨-, keeps'⟩ := isolates'.createNull i member' _ _ called'
      rw [create_null s known called, create_null t known' called']
      exact ⟨rfl, alike.of_keeps_both sound sound' keeps keeps'⟩
    · have null := (isolates.createNull i member _ _ called).1
      have made := (isolates'.create i member' _ _ _ called').2.2.1
      rw [initial, made] at null
      exact nomatch null
    · have made := (isolates.create i member _ _ _ called).2.2.1
      have null := (isolates'.createNull i member' _ _ called').1
      rw [initial, null] at made
      exact nomatch made
    · obtain ⟨-, -, made, keeps⟩ := isolates.create i member _ _ _ called
      obtain ⟨-, -, made', keeps'⟩ := isolates'.create i member' _ _ _ called'
      have old := alike.of_keeps_both sound sound' keeps keeps'
      rw [create_object s known called, create_object t known' called']
      refine ⟨by rw [alike.length], ?_⟩
      constructor
      case collection => exact alike.collection
      case length => simp [alike.length]
      case initial => exact old.initial
      case instances =>
        rw [instance?_append, instance?_append, alike.length]
        split
        · refine .some ⟨rfl, Option.some.inj ?_⟩
          rw [← made, ← made', initial]
        · exact old.instances

theorem destroy (alike : Alike v handle s t) (sound : Sound v s) (sound' : Sound v t)
    (isolates : v.Isolates s.collection) {x y : Instance} (present : s.instance? handle = some x)
    (present' : t.instance? handle = some y) :
    Alike v handle (s.destroy handle x) (t.destroy handle y) := by
  have isolates' : v.Isolates t.collection := alike.collection ▸ isolates
  have keeps := isolates.destroy _ (sound.known _ x present) _ _ (sound.live _ x present)
  have keeps' := isolates'.destroy _ (sound'.known _ y present') _ _ (sound'.live _ y present')
  constructor
  case collection => exact alike.collection
  case length => simp [Session.destroy, alike.length]
  case initial => exact alike.initial_of_keeps keeps keeps'
  case instances =>
    rw [instance?_destroy, instance?_destroy, if_pos rfl, if_pos rfl]
    exact .none

theorem access (alike : Alike v handle s t) (sound : Sound v s) (sound' : Sound v t)
    (isolates : v.Isolates s.collection) {x y : Instance} (present : s.instance? handle = some x)
    (present' : t.instance? handle = some y) (same : x.interface = y.interface)
    (content : v.content s.heap x.object = v.content t.heap y.object) {access : Access}
    (own : access.IsOf x.interface) :
    (access.perform x.object s.heap).1 = (access.perform y.object t.heap).1 ∧
      Alike v handle { s with heap := (access.perform x.object s.heap).2 }
        { t with heap := (access.perform y.object t.heap).2 } := by
  have known := sound.known _ x present
  have live := sound.live _ x present
  have live' := sound'.live _ y present'
  have keeps := (isolates.access _ known access own _ _ live).2
  have keeps' := (isolates.access _ known access own _ _ live').2
  obtain ⟨answers, after⟩ := isolates.depends _ known access own _ _ live _ _ live' content
  refine ⟨answers, ?_⟩
  constructor
  case collection => exact alike.collection
  case length => exact alike.length
  case initial => exact alike.initial_of_keeps keeps keeps'
  case instances =>
    change Option.Rel _ (s.instance? handle) (t.instance? handle)
    rw [present, present']
    exact .some ⟨same, after⟩

theorem step (alike : Alike v handle s t) (sound : Sound v s) (sound' : Sound v t)
    (isolates : v.Isolates s.collection) {a : Step} (own : a.concerns handle = true) :
    (s.step a).1 = (t.step a).1 ∧ Alike v handle (s.step a).2 (t.step a).2 := by
  have target' : ∀ handle', a.handle? = some handle' → handle' = handle := by
    intro handle' target
    rw [Step.concerns, target, decide_eq_true_eq] at own
    exact Option.some.inj (own.resolve_left nofun)
  rcases a.cases with ⟨typeName, rfl⟩ | ⟨handle', rfl⟩ | ⟨handle', target, accesses⟩
  · exact alike.create sound sound' isolates typeName
  · obtain rfl := target' handle' rfl
    rcases alike.cases with ⟨absent, absent'⟩ | ⟨x, y, present, present', -, -⟩
    · rw [step_of_none s rfl absent, step_of_none t rfl absent']
      exact ⟨rfl, alike⟩
    · rw [step_destroy s present, step_destroy t present']
      exact ⟨rfl, alike.destroy sound sound' isolates present present'⟩
  · obtain rfl := target' handle' target
    rcases alike.cases with ⟨absent, absent'⟩ | ⟨x, y, present, present', same, content⟩
    · rw [step_of_none s target absent, step_of_none t target absent']
      exact ⟨rfl, alike⟩
    · obtain ⟨result, made⟩ := accesses x.interface
      rw [step_eq_access s target present made, step_eq_access t target present' (same ▸ made)]
      cases result with
      | error e => exact ⟨rfl, alike⟩
      | ok access =>
        exact alike.access sound sound' isolates present present' same content
          (Step.access?_isOf made)

end Alike

theorem Alike.run [NativeMemory σ] {v : View σ ω} {handle : Nat} {s t : Session σ}
    (alike : Alike v handle s t) (sound : Sound v s) (sound' : Sound v t)
    (isolates : v.Isolates s.collection) (steps : List Step) :
    ((steps.zip (s.run steps).1).filter fun p => p.1.concerns handle) =
      (steps.filter (Step.concerns handle)).zip (t.run (steps.filter (Step.concerns handle))).1 := by
  induction steps generalizing s t with
  | nil => rfl
  | cons a rest ih =>
    have next := sound.step isolates (s.moves a)
    have isolates' : v.Isolates (s.step a).2.collection := (s.moves a).collection ▸ isolates
    rw [run_cons, List.zip_cons_cons]
    cases own : a.concerns handle with
    | true =>
      have next' := sound'.step (alike.collection ▸ isolates) (t.moves a)
      obtain ⟨answers, alike⟩ := alike.step sound sound' isolates own
      rw [List.filter_cons_of_pos (by exact own), List.filter_cons_of_pos own, run_cons,
        List.zip_cons_cons, answers, ih alike next next' isolates']
    | false =>
      rw [List.filter_cons_of_neg (by simp [own]), List.filter_cons_of_neg (by simp [own]),
        ih (alike.skip sound isolates own) next sound' isolates']

/-- What a session answers to the creations and to the steps on one instance is what it answers to
them alone. -/
theorem run_isolated [NativeMemory σ] {v : View σ ω} {c : Collection} (isolates : v.Isolates c)
    (memory : σ) (handle : Nat) (steps : List Step) :
    let kept := steps.filter (Step.concerns handle)
    ((steps.zip ((ofCollection c memory).run steps).1).filter fun p => p.1.concerns handle) =
      kept.zip ((ofCollection c memory).run kept).1 :=
  Alike.run ⟨rfl, rfl, fun _ => rfl, .none⟩ (.ofCollection v c memory) (.ofCollection v c memory)
    isolates steps

end Session

/-! ### The heap -/

namespace Heap

theorem object?_update (h : Heap) (object other : Nat) (f : Object → Object) :
    (h.update object f).object? other =
      if other = object then (h.object? other).map f else h.object? other := by
  unfold object? update
  dsimp only
  induction h.objects with
  | nil => simp
  | cons o rest ih =>
    obtain ⟨number, held⟩ := o
    rw [List.map_cons, List.lookup_cons]
    by_cases own : number = object
    · rw [if_pos own, List.lookup_cons]
      cases here : other == number with
      | true => simp [(beq_iff_eq.mp here).trans own]
      | false => exact ih
    · rw [if_neg own, List.lookup_cons]
      cases here : other == number with
      | true => simp [beq_iff_eq.mp here, own]
      | false => exact ih

theorem object?_destroy (h : Heap) (prototype : Nat) {object other : Nat} (differ : other ≠ object) :
    (h.destroy prototype object).object? other = h.object? other := by
  unfold object? destroy
  dsimp only
  induction h.objects with
  | nil => rfl
  | cons o rest ih =>
    obtain ⟨number, held⟩ := o
    by_cases gone : number = object
    · have apart : (other == number) = false := beq_false_of_ne (gone ▸ differ)
      rw [List.filter_cons_of_neg (by simpa using gone), List.lookup_cons, apart, ih]
    · rw [List.filter_cons_of_pos (by simpa using gone), List.lookup_cons, List.lookup_cons, ih]

theorem object?_eq_none_iff {h : Heap} {object : Nat} : h.object? object = none ↔ object ∉ h.live := by
  rw [object?, List.lookup_eq_none_iff]
  constructor
  · rintro none ⟨o, member, rfl⟩
    simpa using none o member
  · intro absent o member
    exact bne_iff_ne.mpr fun same => absent ⟨o, member, same.symm⟩

theorem object?_create_next (h : Heap) (prototype : Nat) :
    (h.create prototype).2.object? h.next = some (h.prototypes[prototype]?.getD .blank) := by
  have fresh := object?_eq_none_iff.mpr h.next_notMem_live
  unfold object? at fresh
  simp [object?, create, List.lookup_append, fresh]

theorem object?_create (h : Heap) (prototype : Nat) {object : Nat} (old : object ∈ h.live) :
    (h.create prototype).2.object? object = h.object? object := by
  cases held : h.object? object with
  | none => exact absurd old (object?_eq_none_iff.mp held)
  | some o =>
    unfold object? at held
    simp [object?, create, List.lookup_append, held]

/-- What a creation gives depends on the prototypes, which stay. -/
def view : View Heap (Option Object) where
  live := live
  content := object?
  initial f h :=
    match f with
    | .create prototype => some (some (h.prototypes[prototype]?.getD .blank))
    | _ => none

theorem initial_congr {h h' : Heap} (same : h'.prototypes = h.prototypes) (f : NativeFunction) :
    view.initial f h' = view.initial f h := by
  cases f <;> simp only [view, same]

theorem callSet_cases (f : NativeFunction) (v : Scalar) :
    (∀ object h, f.callSet v object h = h) ∨
      ∃ g, ∀ object h, f.callSet v object h = h.update object g := by
  cases f with
  | set cell =>
    by_cases same : cell.kind = v.kind
    · exact .inr ⟨(·.write cell.slot v), fun _ _ => if_pos same⟩
    · exact .inl fun _ _ => if_neg same
  | _ => exact .inl fun _ _ => rfl

theorem keeps_perform (access : Session.Access) (object : Nat) (h : Heap) :
    view.Keeps h (access.perform object h).2 (some object) := by
  cases access with
  | read f kind => exact ⟨fun _ live _ => ⟨live, rfl⟩, fun _ => rfl⟩
  | write f v =>
    change view.Keeps h (f.callSet v object h) (some object)
    rcases callSet_cases f v with idle | ⟨g, updates⟩
    · rw [idle]
      exact ⟨fun _ live _ => ⟨live, rfl⟩, fun _ => rfl⟩
    · rw [updates]
      refine ⟨fun other live differ => ⟨?_, ?_⟩, initial_congr rfl⟩
      · change other ∈ (h.update object g).live
        rwa [live_update]
      · exact (h.object?_update ..).trans (if_neg fun same => differ (congrArg some same))

theorem perform_depends (access : Session.Access) {h h' : Heap} {object object' : Nat}
    (same : h.object? object = h'.object? object') :
    (access.perform object h).1 = (access.perform object' h').1 ∧
      (access.perform object h).2.object? object = (access.perform object' h').2.object? object' := by
  cases access with
  | read f kind =>
    refine ⟨congrArg Session.Answer.value ?_, same⟩
    simp only [NativeFunction.callGet, same]
  | write f v =>
    refine ⟨rfl, ?_⟩
    change (f.callSet v object h).object? object = (f.callSet v object' h').object? object'
    rcases callSet_cases f v with idle | ⟨g, updates⟩
    · rw [idle, idle, same]
    · rw [updates, updates, object?_update, object?_update, if_pos rfl, if_pos rfl, same]

/-- All native functions of the heap touch only what they are given. -/
theorem isolates (c : Collection) : view.Isolates c where
  create := by
    intro i _ h object h' called
    cases f : i.create with
    | create prototype =>
      rw [f] at called
      obtain ⟨same, rfl⟩ := Prod.mk.inj called
      obtain rfl := Option.some.inj same
      have live : (h.create prototype).2.live = insert h.next h.live := h.live_create prototype
      refine ⟨h.next_notMem_live, live.ge (Set.mem_insert ..), ?_, ?_, initial_congr rfl⟩
      · exact congrArg some (h.object?_create_next prototype).symm
      · exact fun other old _ =>
          ⟨live.ge (Set.mem_insert_of_mem _ old), h.object?_create prototype old⟩
    | _ => rw [f] at called; exact nomatch called
  createNull := by
    intro i _ h h' called
    cases f : i.create with
    | create prototype => rw [f] at called; exact nomatch called
    | _ =>
      rw [f] at called
      obtain ⟨-, rfl⟩ := Prod.mk.inj called
      exact ⟨rfl, fun _ live _ => ⟨live, rfl⟩, fun _ => rfl⟩
  access := by
    intro i _ access _ h object live
    exact ⟨(live_perform access object h).ge live, keeps_perform access object h⟩
  depends := fun _ _ access _ _ _ _ _ _ _ same => perform_depends access same
  destroy := by
    intro i _ h object _
    cases f : i.destroy with
    | destroy prototype =>
      refine ⟨fun other live differ => ?_, initial_congr rfl⟩
      have apart : other ≠ object := fun same => differ (congrArg some same)
      exact ⟨(h.live_destroy prototype object).ge ⟨live, apart⟩, h.object?_destroy prototype apart⟩
    | _ => exact ⟨fun _ live _ => ⟨live, rfl⟩, fun _ => rfl⟩

end Heap

namespace Session

/-- Two lamps at work side by side. -/
def lampSteps : List Step :=
  [.create "Lamp", .create "Lamp", .set 0 0 (.int 7), .setByName 1 "level" (.int 5),
   .set 0 0 (.bool true), .getByName 1 "missing", .get 0 0, .destroy 0, .getAs 1 0 .int]

theorem run_isolated_lampSteps :
    let kept : List Step := [.create "Lamp", .create "Lamp", .setByName 1 "level" (.int 5),
      .getByName 1 "missing", .getAs 1 0 .int]
    ((lampSteps.zip ((ofCollection lampCollection (Heap.start [])).run lampSteps).1).filter
        fun p => p.1.concerns 1) =
      kept.zip [.created 0, .created 1, .done, .failed (.unknownField "Lamp" "missing"), .value (.int 5)] := by
  intro kept
  have alone : ((ofCollection lampCollection (Heap.start [])).run kept).1 =
      [.created 0, .created 1, .done, .failed (.unknownField "Lamp" "missing"), .value (.int 5)] := by
    decide +kernel
  rw [run_isolated (Heap.isolates lampCollection) (Heap.start []) 1 lampSteps, ← alone]
  rfl

end Session

end ScriptGlue
