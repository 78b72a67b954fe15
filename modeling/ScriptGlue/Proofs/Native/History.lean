import ScriptGlue.Native.SymbolTable
import Mathlib.Data.List.Induction

/-!
# Histories of symbol tables

A table that was made by inserting and removing symbols, in any order, is known by its history: behind a
symbol stands what the last change of it put there, and the size counts the symbols behind which something
stands (`run_history`).
-/

namespace ScriptGlue.SymbolTable

/-- A change of a table. -/
inductive Step
  /-- Puts a function behind a symbol, be it in place or as a table is built up. No function is the null
  address. -/
  | insert (symbol : String) (f : Option NativeFunction)
  | remove (symbol : String)
deriving Repr, DecidableEq

def Step.symbol : Step → String
  | insert symbol _ | remove symbol => symbol

/-- Removing reports whether the symbol was there. -/
def step (t : SymbolTable) : Step → Option Bool × SymbolTable
  | .insert symbol f => (none, t.insert symbol f)
  | .remove symbol => (some (t.has symbol), t.erase symbol)

/-- The reports of some changes in turn, and the table behind them. -/
def run (t : SymbolTable) : List Step → List (Option Bool) × SymbolTable
  | [] => ([], t)
  | change :: rest =>
    ((t.step change).1 :: ((t.step change).2.run rest).1, ((t.step change).2.run rest).2)

/-- The last change of a symbol puts a function behind it. -/
def LeavesBehind (steps : List Step) (symbol : String) (f : NativeFunction) : Prop :=
  ∃ before after, steps = before ++ .insert symbol (some f) :: after ∧
    ∀ change ∈ after, change.symbol ≠ symbol

variable {t : SymbolTable} {symbol other : String} {f : NativeFunction} {change : Step}
  {steps : List Step}

/-! ### One change -/

theorem lookup_filter_ne (entries : List (String × NativeFunction)) (symbol other : String) :
    (entries.filter (·.1 ≠ symbol)).lookup other =
      if other = symbol then none else entries.lookup other := by
  induction entries with
  | nil => simp
  | cons e entries ih =>
    obtain ⟨own, f⟩ := e
    by_cases gone : own = symbol
    · rw [List.filter_cons_of_neg (by simpa using gone), ih, List.lookup_cons]
      split
      · rfl
      · rename_i apart
        rw [beq_false_of_ne (gone ▸ apart)]
    · rw [List.filter_cons_of_pos (by simpa using gone), List.lookup_cons, List.lookup_cons, ih]
      by_cases here : other = own
      · simp [here, gone]
      · rw [beq_false_of_ne here]

theorem function?_erase (t : SymbolTable) (symbol other : String) :
    (t.erase symbol).function? other = if other = symbol then none else t.function? other :=
  lookup_filter_ne t.entries symbol other

theorem function?_insert (t : SymbolTable) (symbol other : String) (f : Option NativeFunction) :
    (t.insert symbol f).function? other = if other = symbol then f else t.function? other := by
  cases f with
  | none => exact function?_erase t symbol other
  | some f =>
    have erased := function?_erase t symbol other
    rw [function?] at erased
    rw [function?, insert, List.lookup_cons, erased]
    by_cases here : other = symbol
    · simp [here]
    · rw [beq_false_of_ne here, if_neg here, if_neg here]

theorem function?_step_of_ne (apart : change.symbol ≠ other) :
    (t.step change).2.function? other = t.function? other := by
  cases change with
  | insert symbol f => exact (function?_insert t symbol other f).trans (if_neg apart.symm)
  | remove symbol => exact (function?_erase t symbol other).trans (if_neg apart.symm)

theorem function?_step_self_iff : (t.step change).2.function? change.symbol = some f ↔
    change = .insert change.symbol (some f) := by
  cases change with
  | insert symbol g => simp [step, Step.symbol, function?_insert]
  | remove symbol => simp [step, Step.symbol, function?_erase]

theorem name_step : (t.step change).2.name = t.name := by
  cases change with
  | insert symbol f => cases f <;> rfl
  | remove symbol => rfl

/-! ### Many changes -/

theorem run_append (t : SymbolTable) (a b : List Step) : t.run (a ++ b) =
    ((t.run a).1 ++ ((t.run a).2.run b).1, ((t.run a).2.run b).2) := by
  induction a generalizing t with
  | nil => rfl
  | cons change a ih => rw [List.cons_append, run, ih, run, List.cons_append]

theorem run_concat (t : SymbolTable) (steps : List Step) (change : Step) :
    (t.run (steps ++ [change])).2 = ((t.run steps).2.step change).2 := by
  rw [run_append]
  rfl

theorem length_reports (t : SymbolTable) (steps : List Step) : (t.run steps).1.length = steps.length := by
  induction steps generalizing t with
  | nil => rfl
  | cons change steps ih => rw [run, List.length_cons, List.length_cons, ih]

theorem not_leavesBehind_nil : ¬LeavesBehind [] symbol f := by
  rintro ⟨before, after, whole, -⟩
  simp at whole

theorem leavesBehind_concat_iff : LeavesBehind (steps ++ [change]) symbol f ↔
    change = .insert symbol (some f) ∨ change.symbol ≠ symbol ∧ LeavesBehind steps symbol f := by
  constructor
  · rintro ⟨before, after, whole, untouched⟩
    rcases List.eq_nil_or_concat after with rfl | ⟨after, last, rfl⟩
    · exact .inl (List.cons.inj (List.append_inj' whole rfl).2).1
    · rw [List.concat_eq_append] at whole untouched
      rw [← List.cons_append, ← List.append_assoc] at whole
      obtain ⟨front, same⟩ := List.append_inj' whole rfl
      obtain rfl := (List.cons.inj same).1
      exact .inr ⟨untouched change (by simp), before, after, front,
        fun own member => untouched own (List.mem_append_left _ member)⟩
  · rintro (rfl | ⟨apart, before, after, rfl, untouched⟩)
    · exact ⟨steps, [], rfl, nofun⟩
    · refine ⟨before, after ++ [change], by simp, fun own member => ?_⟩
      rcases List.mem_append.mp member with inside | last
      · exact untouched own inside
      · exact List.mem_singleton.mp last ▸ apart

/-- Behind a symbol stands what its last change put there, and nothing else. -/
theorem function?_run_iff (name : String) (steps : List Step) (symbol : String) (f : NativeFunction) :
    ((empty name).run steps).2.function? symbol = some f ↔ LeavesBehind steps symbol f := by
  induction steps using List.reverseRecOn with
  | nil => exact iff_of_false nofun not_leavesBehind_nil
  | append_singleton steps change ih =>
    rw [run_concat, leavesBehind_concat_iff]
    by_cases own : change.symbol = symbol
    · subst own
      simp [function?_step_self_iff]
    · have other : change ≠ .insert symbol (some f) := fun same => own (same ▸ rfl)
      rw [function?_step_of_ne own, ih]
      simp [own, other]

theorem name_run (t : SymbolTable) (steps : List Step) : (t.run steps).2.name = t.name := by
  induction steps generalizing t with
  | nil => rfl
  | cons change steps ih => rw [run, ih, name_step]

/-! ### Size -/

theorem exists_symbols (t : SymbolTable) : ∃ symbols : List String, symbols.Nodup ∧
    (∀ symbol, symbol ∈ symbols ↔ (t.function? symbol).isSome) ∧ symbols.length = t.size := by
  refine ⟨t.entries.map (·.1), t.nodup, fun symbol => ?_, List.length_map _⟩
  rw [function?, List.lookup_isSome_iff]
  constructor
  · intro member
    obtain ⟨e, inside, rfl⟩ := List.mem_map.mp member
    exact ⟨e, inside, BEq.rfl⟩
  · rintro ⟨e, inside, same⟩
    rw [eq_of_beq same]
    exact List.mem_map_of_mem inside

theorem isEmpty_iff : t.isEmpty ↔ t.size = 0 := by
  rw [isEmpty, size, List.isEmpty_iff_length_eq_zero]

/-! ### Histories -/

/-- A table is a finite map that its history makes: behind a symbol stands the function that its last change
put there. Each removal reports whether something stood behind the symbol just before it, the size counts
the symbols behind which something stands, and a further change touches its own symbol only. -/
theorem run_history (name : String) (steps : List Step) :
    (∀ symbol f, ((empty name).run steps).2.function? symbol = some f ↔
      LeavesBehind steps symbol f) ∧
    (∀ before symbol after, steps = before ++ .remove symbol :: after →
      ((empty name).run steps).1[before.length]? =
        some (some (((empty name).run before).2.function? symbol).isSome)) ∧
    (∃ symbols : List String, symbols.Nodup ∧
      (∀ symbol, symbol ∈ symbols ↔ (((empty name).run steps).2.function? symbol).isSome) ∧
      symbols.length = ((empty name).run steps).2.size) ∧
    (((empty name).run steps).2.isEmpty ↔ ((empty name).run steps).2.size = 0) ∧
    (∀ change symbol, change.symbol ≠ symbol →
      ((empty name).run (steps ++ [change])).2.function? symbol =
        ((empty name).run steps).2.function? symbol) ∧
    ((empty name).run steps).2.name = name := by
  refine ⟨function?_run_iff name steps, ?_, exists_symbols _, isEmpty_iff, ?_, name_run _ steps⟩
  · rintro before symbol after rfl
    rw [run_append, List.getElem?_append_right (Nat.le_of_eq (length_reports _ _)), length_reports, Nat.sub_self]
    rfl
  · intro change symbol apart
    rw [run_concat, function?_step_of_ne apart]

/-- The null address takes a symbol out, so that it is not there to be removed. -/
example : ((empty "lamp").run [.insert "createLamp" (some (.create 0)), .insert "createLamp" none,
    .remove "createLamp"]).1 = [none, none, some false] := by decide

end ScriptGlue.SymbolTable
