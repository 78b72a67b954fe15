import Mathlib.Data.List.Forall2

/-!
# Traversals

Going through a list and stopping at the first failure. A traversal that succeeds has succeeded at
each item; one that fails has failed with the first complaint about an item.
-/

namespace ScriptGlue

variable {ε α β : Type}

theorem bind_eq_ok_iff {x : Except ε α} {f : α → Except ε β} {b : β} :
    (x >>= f) = .ok b ↔ ∃ a, x = .ok a ∧ f a = .ok b := by
  cases x <;> simp [bind, Except.bind]

theorem bind_eq_error_iff {x : Except ε α} {f : α → Except ε β} {e : ε} :
    (x >>= f) = .error e ↔ x = .error e ∨ ∃ a, x = .ok a ∧ f a = .error e := by
  cases x <;> simp [bind, Except.bind]

theorem pure_eq_ok_iff {a b : α} : (pure a : Except ε α) = .ok b ↔ a = b := by
  simp [pure, Except.pure]

theorem mapError_eq_ok_iff {δ : Type} {x : Except ε α} {f : ε → δ} {a : α} :
    x.mapError f = .ok a ↔ x = .ok a := by
  cases x <;> simp [Except.mapError]

theorem mapError_eq_error_iff {δ : Type} {x : Except ε α} {f : ε → δ} {e : δ} :
    x.mapError f = .error e ↔ ∃ cause, x = .error cause ∧ f cause = e := by
  cases x <;> simp [Except.mapError]

theorem mapM_eq_ok_iff {f : α → Except ε β} {items : List α} {results : List β} :
    items.mapM f = .ok results ↔ List.Forall₂ (fun a b => f a = .ok b) items results := by
  induction items generalizing results with
  | nil => cases results <;> simp [pure, Except.pure]
  | cons item items ih =>
    rw [List.mapM_cons]
    simp only [bind_eq_ok_iff, pure_eq_ok_iff, List.forall₂_cons_left_iff, ih]
    constructor
    · rintro ⟨result, first, results, rest, rfl⟩
      exact ⟨result, results, first, rest, rfl⟩
    · rintro ⟨result, results, first, rest, rfl⟩
      exact ⟨result, first, results, rest, rfl⟩

theorem mapM_congr {f g : α → Except ε β} {items : List α}
    (same : ∀ a ∈ items, f a = g a) : items.mapM f = items.mapM g := by
  induction items with
  | nil => rfl
  | cons a items ih =>
    rw [List.mapM_cons, List.mapM_cons, same a List.mem_cons_self,
      ih fun b member => same b (List.mem_cons_of_mem a member)]

theorem exists_of_mem_mapM {f : α → Except ε β} {items : List α} {results : List β}
    (ok : items.mapM f = .ok results) {b : β} (member : b ∈ results) :
    ∃ a ∈ items, f a = .ok b := by
  rw [mapM_eq_ok_iff] at ok
  induction ok with
  | nil => exact nomatch member
  | @cons a b' items results first _ ih =>
    rcases List.mem_cons.mp member with rfl | later
    · exact ⟨a, List.mem_cons_self, first⟩
    · obtain ⟨a', inside, read⟩ := ih later
      exact ⟨a', List.mem_cons_of_mem a inside, read⟩

theorem exists_of_mapM_eq_error {f : α → Except ε β} {items : List α} {e : ε}
    (failed : items.mapM f = .error e) : ∃ a ∈ items, f a = .error e := by
  induction items with
  | nil => exact nomatch failed
  | cons item items ih =>
    rw [List.mapM_cons] at failed
    rcases bind_eq_error_iff.mp failed with first | ⟨_, -, later⟩
    · exact ⟨item, List.mem_cons_self, first⟩
    · rcases bind_eq_error_iff.mp later with rest | ⟨_, -, none⟩
      · obtain ⟨a, inside, failed⟩ := ih rest
        exact ⟨a, List.mem_cons_of_mem item inside, failed⟩
      · exact nomatch none

/-- Numbered items are read alike if what an item is read as does not depend on its number. -/
theorem mapM_zipIdx_eq_ok_iff (read : Nat → α → Except ε β) {item : α → β → Prop} {items : List α}
    (each : ∀ a ∈ items, ∀ i b, read i a = .ok b ↔ item a b) {results : List β} :
    items.zipIdx.mapM (fun a => read a.2 a.1) = .ok results ↔ List.Forall₂ item items results := by
  rw [mapM_eq_ok_iff]
  generalize 0 = start
  induction items generalizing start results with
  | nil => cases results <;> simp
  | cons a items ih =>
    have rest := fun results => @ih (fun a' inside => each a' (List.mem_cons_of_mem a inside)) results
      (start + 1)
    rw [List.zipIdx_cons, List.forall₂_cons_left_iff, List.forall₂_cons_left_iff]
    simp only [each a List.mem_cons_self, rest]

theorem flatMap_zipIdx_eq_nil_iff (f : Nat → α → List ε) {good : α → Prop}
    (each : ∀ i a, f i a = [] ↔ good a) (items : List α) :
    (items.zipIdx.flatMap fun a => f a.2 a.1) = [] ↔ ∀ a ∈ items, good a := by
  simp only [List.flatMap_eq_nil_iff, each]
  constructor
  · intro all a member
    obtain ⟨i, found⟩ := List.getElem?_of_mem member
    exact all (a, i) (List.mem_zipIdx_iff_getElem?.mpr found)
  · intro all a member
    exact all a.1 (List.fst_mem_of_mem_zipIdx member)

theorem forall₂_flatMap {γ : Type} {related : β → γ → Prop} {f : α → List β} {g : α → List γ}
    {items : List α} (each : ∀ a ∈ items, List.Forall₂ related (f a) (g a)) :
    List.Forall₂ related (items.flatMap f) (items.flatMap g) := by
  induction items with
  | nil => exact .nil
  | cons a items ih =>
    rw [List.flatMap_cons, List.flatMap_cons]
    exact List.rel_append (each a List.mem_cons_self)
      (ih fun b member => each b (List.mem_cons_of_mem a member))

/-! ### The first fault -/

/-- A computation that fails exactly if there is a fault, and then with the first. -/
def StopsAt (x : Except ε α) (faults : List ε) : Prop :=
  ∀ e, x = .error e ↔ faults.head? = some e

namespace StopsAt

theorem exists_ok_iff {x : Except ε α} {faults : List ε} (stops : StopsAt x faults) :
    (∃ a, x = .ok a) ↔ faults = [] := by
  rw [← List.head?_eq_none_iff, Option.eq_none_iff_forall_ne_some]
  simp only [ne_eq, ← stops _]
  cases x <;> simp

theorem eq_nil_of_ok {x : Except ε α} {faults : List ε} {a : α} (stops : StopsAt x faults)
    (ok : x = .ok a) : faults = [] :=
  stops.exists_ok_iff.mp ⟨a, ok⟩

theorem pure {a : α} : StopsAt (pure a : Except ε α) [] := by
  intro e
  simp [Pure.pure, Except.pure]

theorem bind {x : Except ε α} {f : α → Except ε β} {first rest : List ε} (stops : StopsAt x first)
    (next : ∀ a, x = .ok a → StopsAt (f a) rest) : StopsAt (x >>= f) (first ++ rest) := by
  intro e
  cases result : x with
  | error e' =>
    obtain ⟨tail, eq⟩ := List.head?_eq_some_iff.mp ((stops e').mp result)
    simp [eq, Bind.bind, Except.bind]
  | ok a =>
    rw [stops.eq_nil_of_ok result]
    exact next a result e

theorem bind_pure {x : Except ε α} {f : α → β} {faults : List ε} (stops : StopsAt x faults) :
    StopsAt (x >>= fun a => Pure.pure (f a)) faults := by
  rw [← List.append_nil faults]
  exact stops.bind fun _ _ => pure

theorem mapM {f : α → Except ε β} {faults : α → List ε} (item : ∀ a, StopsAt (f a) (faults a))
    (items : List α) : StopsAt (items.mapM f) (items.flatMap faults) := by
  induction items with
  | nil => exact pure
  | cons a items ih =>
    rw [List.mapM_cons, List.flatMap_cons]
    exact (item a).bind fun _ _ => ih.bind_pure

end StopsAt

end ScriptGlue
