import ScriptGlue.Table.Encode
import ScriptGlue.Proofs.Loader.Admission
import ScriptGlue.Proofs.Loader.Index

/-!
# Skipping

What loading yields if types that fail are left out. Such a loading is a fold that never fails
(`load_skipBroken`); `absorb_cases` says what becomes of one entry, and the rest is induction over
the table.
-/

namespace ScriptGlue.Collection
open Interface

/-- Takes the next type of the table, or keeps why it cannot. -/
def absorb (m : Module) (policy : DuplicatePolicy) (c : Collection) (t : ScriptType) : Collection :=
  match Interface.resolve m t >>= c.insert policy with
  | .ok next => next
  | .error e => { c with skipped := c.skipped ++ [e] }

def run (m : Module) (policy : DuplicatePolicy) (types : List ScriptType) : Collection :=
  types.foldl (absorb m policy) (empty m.name)

/-- A fault keeps an entry out, and so does an earlier resolvable entry of its name. -/
def verdict (m : Module) : Verdict := fun before t =>
  if Resolvable m t then
    if ∃ u ∈ before, Resolvable m u ∧ u.name = t.name then some (.duplicateType t.name) else none
  else (faults m t).head?

/-- The last resolvable entry of a name. -/
def lastResolvable? (m : Module) (types : List ScriptType) (name : String) : Option ScriptType :=
  (types.filter fun u => Resolvable m u ∧ u.name = name).getLast?

variable {m : Module} {policy : DuplicatePolicy} {types : List ScriptType}

theorem add_skipBroken (c : Collection) (t : ScriptType) :
    add m ⟨policy, .skipBroken⟩ c t = .ok (absorb m policy c t) := by
  unfold add absorb
  cases Interface.resolve m t >>= c.insert policy <;> rfl

/-- Leaving out what fails, a loading fails only for want of a table. -/
theorem load_skipBroken (registered : registeredTypes m = .ok types) :
    load m ⟨policy, .skipBroken⟩ = .ok (run m policy types) := by
  have total : add m ⟨policy, .skipBroken⟩ = fun c t => pure (absorb m policy c t) := by
    funext c t
    exact add_skipBroken c t
  unfold load run
  rw [registered, total]
  exact List.foldlM_pure

theorem run_append (t : ScriptType) :
    run m policy (types ++ [t]) = absorb m policy (run m policy types) t :=
  List.foldl_append

/-! ### One entry -/

/-- An entry is left out for a fault, put behind the others, left out for its name, or put in place
of the interface of its name. -/
theorem absorb_cases (m : Module) (policy : DuplicatePolicy) {c : Collection} (indexed : Indexed c)
    (t : ScriptType) :
    (∃ e, (faults m t).head? = some e ∧
      absorb m policy c t = { c with skipped := c.skipped ++ [e] }) ∨
    (∃ i, Binding m t i ∧ t.name ∉ c.names ∧
      absorb m policy c t = { c with
        interfaces := c.interfaces ++ [i]
        index := (i.name, c.interfaces.length) :: c.index }) ∨
    (policy = .reject ∧ Resolvable m t ∧ t.name ∈ c.names ∧
      absorb m policy c t = { c with skipped := c.skipped ++ [.duplicateType t.name] }) ∨
    (policy = .overwrite ∧ ∃ i slot, Binding m t i ∧ c.names[slot]? = some t.name ∧
      absorb m policy c t = { c with interfaces := c.interfaces.set slot i }) := by
  cases result : Interface.resolve m t with
  | error e =>
    refine .inl ⟨e, (resolve_stopsAt e).mp result, ?_⟩
    rw [absorb, result]
    rfl
  | ok i =>
    have bound := resolve_eq_ok_iff.mp result
    have eq : absorb m policy c t = match c.insert policy i with
        | .ok next => next
        | .error e => { c with skipped := c.skipped ++ [e] } := by
      rw [absorb, result]
      rfl
    rw [insert] at eq
    cases place : c.slot? i.name with
    | none =>
      rw [place] at eq
      have fresh := indexed.slot?_eq_none_iff.mp place
      exact .inr (.inl ⟨i, bound, bound.name_eq ▸ fresh, eq⟩)
    | some slot =>
      rw [place] at eq
      have stands := (indexed i.name slot).mp place
      rw [bound.name_eq] at stands eq
      cases policy with
      | reject =>
        have taken := List.mem_of_getElem? stands
        exact .inr (.inr (.inl ⟨rfl, resolvable_iff.mpr ⟨i, bound⟩, taken, eq⟩))
      | overwrite => exact .inr (.inr (.inr ⟨rfl, i, slot, bound, stands, eq⟩))

theorem indexed_absorb {c : Collection} (indexed : Indexed c) (t : ScriptType) :
    Indexed (absorb m policy c t) := by
  rcases absorb_cases m policy indexed t with
    ⟨e, -, eq⟩ | ⟨i, bound, fresh, eq⟩ | ⟨-, -, -, eq⟩ | ⟨-, i, slot, bound, place, eq⟩
  · rw [eq]; exact indexed
  · rw [eq]; exact indexed.append (by rwa [bound.name_eq])
  · rw [eq]; exact indexed
  · rw [eq]; exact indexed.set (by rwa [bound.name_eq])

theorem indexed_run : Indexed (run m policy types) := by
  induction types using List.reverseRecOn with
  | nil => exact indexed_empty m.name
  | append_singleton types t ih =>
    rw [run_append]
    exact indexed_absorb ih t

/-! ### Names -/

theorem verdict_of_fault {before : List ScriptType} {t : ScriptType} {e : LoadError}
    (fault : (faults m t).head? = some e) : verdict m before t = some e := by
  have broken : ¬ Resolvable m t := by
    rw [← head?_faults_eq_none_iff, fault]
    exact nofun
  rw [verdict, if_neg broken, fault]

theorem verdict_of_duplicate {before : List ScriptType} {t : ScriptType}
    (resolvable : Resolvable m t) (earlier : ∃ u ∈ before, Resolvable m u ∧ u.name = t.name) :
    verdict m before t = some (.duplicateType t.name) := by
  rw [verdict, if_pos resolvable, if_pos earlier]

theorem verdict_eq_none_iff {before : List ScriptType} {t : ScriptType} :
    verdict m before t = none ↔
      Resolvable m t ∧ ∀ u ∈ before, Resolvable m u → u.name ≠ t.name := by
  unfold verdict
  split
  · rename_i resolvable
    simp [resolvable]
  · rename_i broken
    rw [head?_faults_eq_none_iff]
    exact ⟨fun resolvable => absurd resolvable broken, And.left⟩

theorem mem_admitted_names {name : String} :
    name ∈ ((verdict m).admitted types).map (·.name) ↔
      ∃ u ∈ types, Resolvable m u ∧ u.name = name := by
  induction types using List.reverseRecOn with
  | nil => simp [Verdict.admitted]
  | append_singleton types t ih =>
    rw [Verdict.admitted_append, List.map_append, List.mem_append, ih]
    simp only [List.mem_append, List.mem_singleton, or_and_right, exists_or, exists_eq_left]
    cases said : verdict m types t with
    | none => simp [(verdict_eq_none_iff.mp said).1, eq_comm]
    | some e =>
      simp only [Option.isNone_some, Bool.false_eq_true, ↓reduceIte, List.map_nil,
        List.not_mem_nil, or_false]
      refine ⟨.inl, ?_⟩
      rintro (earlier | ⟨resolvable, rfl⟩)
      · exact earlier
      · by_contra fresh
        have : verdict m types t = none := verdict_eq_none_iff.mpr
          ⟨resolvable, fun u member good same => fresh ⟨u, member, good, same⟩⟩
        exact nomatch this.symm.trans said

theorem run_cases (names : (run m policy types).names = ((verdict m).admitted types).map (·.name))
    (t : ScriptType) :
    (∃ e, (faults m t).head? = some e ∧ verdict m types t = some e ∧
      run m policy (types ++ [t]) =
        { run m policy types with skipped := (run m policy types).skipped ++ [e] }) ∨
    (∃ i, Binding m t i ∧ verdict m types t = none ∧
      run m policy (types ++ [t]) = { run m policy types with
        interfaces := (run m policy types).interfaces ++ [i]
        index := (i.name, (run m policy types).interfaces.length) :: (run m policy types).index }) ∨
    (policy = .reject ∧ Resolvable m t ∧ verdict m types t = some (.duplicateType t.name) ∧
      run m policy (types ++ [t]) = { run m policy types with
        skipped := (run m policy types).skipped ++ [.duplicateType t.name] }) ∨
    (policy = .overwrite ∧ ∃ i slot, Binding m t i ∧
      verdict m types t = some (.duplicateType t.name) ∧
      (run m policy types).names[slot]? = some t.name ∧
      run m policy (types ++ [t]) = { run m policy types with
        interfaces := (run m policy types).interfaces.set slot i }) := by
  have taken : t.name ∈ (run m policy types).names ↔
      ∃ u ∈ types, Resolvable m u ∧ u.name = t.name := by
    rw [names, mem_admitted_names]
  rw [run_append]
  rcases absorb_cases m policy indexed_run t with
    ⟨e, fault, eq⟩ | ⟨i, bound, fresh, eq⟩ | ⟨same, resolvable, known, eq⟩ |
      ⟨same, i, slot, bound, place, eq⟩
  · exact .inl ⟨e, fault, verdict_of_fault fault, eq⟩
  · have admitted : verdict m types t = none := verdict_eq_none_iff.mpr
      ⟨resolvable_iff.mpr ⟨i, bound⟩, fun u member good same =>
        fresh (taken.mpr ⟨u, member, good, same⟩)⟩
    exact .inr (.inl ⟨i, bound, admitted, eq⟩)
  · have duplicate := verdict_of_duplicate resolvable (taken.mp known)
    exact .inr (.inr (.inl ⟨same, resolvable, duplicate, eq⟩))
  · have duplicate := verdict_of_duplicate (resolvable_iff.mpr ⟨i, bound⟩)
      (taken.mp (List.mem_of_getElem? place))
    exact .inr (.inr (.inr ⟨same, i, slot, bound, duplicate, place, eq⟩))

theorem names_run (policy : DuplicatePolicy) :
    (run m policy types).names = ((verdict m).admitted types).map (·.name) := by
  induction types using List.reverseRecOn with
  | nil => rfl
  | append_singleton types t ih =>
    rw [Verdict.admitted_append]
    rcases run_cases ih t with
      ⟨e, -, said, eq⟩ | ⟨i, bound, said, eq⟩ | ⟨-, -, said, eq⟩ | ⟨-, i, slot, bound, said, place, eq⟩
    · rw [eq, said]
      simpa [names] using ih
    · rw [eq, said, names_append, bound.name_eq, ih]
      simp
    · rw [eq, said]
      simpa [names] using ih
    · rw [eq, said, names, names_set (bound.name_eq ▸ place)]
      simpa using ih

/-! ### The whole table -/

theorem run_reject :
    List.Forall₂ (Binding m) ((verdict m).admitted types) (run m .reject types).interfaces ∧
      (run m .reject types).skipped = (verdict m).refusals types := by
  induction types using List.reverseRecOn with
  | nil => exact ⟨.nil, rfl⟩
  | append_singleton types t ih =>
    obtain ⟨interfaces, skipped⟩ := ih
    rw [Verdict.admitted_append, Verdict.refusals_append]
    rcases run_cases (names_run .reject) t with
      ⟨e, -, said, eq⟩ | ⟨i, bound, said, eq⟩ | ⟨-, -, said, eq⟩ | ⟨other, -⟩
    · rw [eq, said]
      exact ⟨by simpa using interfaces, by simp [skipped]⟩
    · rw [eq, said]
      exact ⟨List.rel_append interfaces (.cons bound .nil), by simpa using skipped⟩
    · rw [eq, said]
      exact ⟨by simpa using interfaces, by simp [skipped]⟩
    · exact nomatch other

theorem lastResolvable?_append (t : ScriptType) (name : String) :
    lastResolvable? m (types ++ [t]) name =
      if Resolvable m t ∧ t.name = name then some t else lastResolvable? m types name := by
  unfold lastResolvable?
  rw [List.filter_append, List.getLast?_append]
  by_cases hit : Resolvable m t ∧ t.name = name <;> simp [hit]

theorem lastResolvable?_eq_some {name : String} {u : ScriptType}
    (last : lastResolvable? m types name = some u) : u ∈ types ∧ Resolvable m u ∧ u.name = name := by
  have member := List.mem_filter.mp (List.mem_of_getLast? last)
  exact ⟨member.1, of_decide_eq_true member.2⟩

theorem run_overwrite :
    List.Forall₂ (fun t i => ∃ u, lastResolvable? m types t.name = some u ∧ Binding m u i)
        ((verdict m).admitted types) (run m .overwrite types).interfaces ∧
      (run m .overwrite types).skipped = types.filterMap fun t => (faults m t).head? := by
  induction types using List.reverseRecOn with
  | nil => exact ⟨.nil, rfl⟩
  | append_singleton types t ih =>
    obtain ⟨interfaces, skipped⟩ := ih
    rw [Verdict.admitted_append, List.filterMap_append]
    simp only [lastResolvable?_append]
    rcases run_cases (names_run .overwrite) t with
      ⟨e, fault, said, eq⟩ | ⟨i, bound, said, eq⟩ | ⟨other, -⟩ | ⟨-, i, slot, bound, said, place, eq⟩
    · -- The entry counts for no name.
      have broken : ¬ Resolvable m t := by
        rw [← head?_faults_eq_none_iff, fault]
        exact nofun
      rw [eq, said]
      simp only [broken, false_and, ↓reduceIte]
      exact ⟨by simpa using interfaces, by simp [skipped, fault]⟩
    · obtain ⟨resolvable, fresh⟩ := verdict_eq_none_iff.mp said
      have sound := head?_faults_eq_none_iff.mpr resolvable
      rw [eq, said]
      refine ⟨List.rel_append (interfaces.imp ?_) (.cons ?_ .nil), by simp [skipped, sound]⟩
      · rintro first j ⟨u, last, known⟩
        obtain ⟨member, good, same⟩ := lastResolvable?_eq_some last
        have other : ¬ (Resolvable m t ∧ t.name = first.name) :=
          fun h => fresh u member good (same.trans h.2.symm)
        exact ⟨u, by rw [if_neg other, last], known⟩
      · exact ⟨t, if_pos ⟨resolvable, rfl⟩, bound⟩
    · exact nomatch other
    · -- The interface of the name now is that of the entry, and the others are as they were.
      have resolvable : Resolvable m t := resolvable_iff.mpr ⟨i, bound⟩
      have sound := head?_faults_eq_none_iff.mpr resolvable
      rw [eq, said, indexed_run.set_eq_map (bound.name_eq ▸ place), bound.name_eq]
      refine ⟨?_, by simp [skipped, sound]⟩
      simp only [Option.isNone_some, Bool.false_eq_true, ↓reduceIte, List.append_nil,
        List.forall₂_map_right_iff]
      apply interfaces.imp
      rintro first j ⟨u, last, known⟩
      have same : j.name = first.name := known.name_eq.trans (lastResolvable?_eq_some last).2.2
      by_cases hit : j.name = t.name
      · rw [if_pos hit, if_pos ⟨resolvable, hit.symm.trans same⟩]
        exact ⟨t, rfl, bound⟩
      · rw [if_neg hit, if_neg fun h => hit (same.trans h.2.symm)]
        exact ⟨u, last, known⟩

/-- What loading yields if types that fail are left out. If a second type of a name is refused, the
interfaces are those of the entries that come in, and each other entry has one error. If it takes
the place of the first, there is one interface for each name with a resolvable entry, where the first
such entry stands, and bound as the last one says. -/
theorem load_skipBroken_outcome (registered : registeredTypes m = .ok types) :
    (∃ c, load m ⟨.reject, .skipBroken⟩ = .ok c ∧
      List.Forall₂ (Binding m) ((verdict m).admitted types) c.interfaces ∧
      c.skipped = (verdict m).refusals types ∧
      c.interfaces.length + c.skipped.length = types.length) ∧
    (∃ c, load m ⟨.overwrite, .skipBroken⟩ = .ok c ∧
      List.Forall₂ (fun t i => ∃ u, lastResolvable? m types t.name = some u ∧ Binding m u i)
        ((verdict m).admitted types) c.interfaces ∧
      c.names.Nodup ∧ (∀ name, name ∈ c.names ↔ ∃ u ∈ types, Resolvable m u ∧ u.name = name) ∧
      c.skipped = types.filterMap fun t => (faults m t).head?) := by
  constructor
  · refine ⟨_, load_skipBroken registered, run_reject.1, run_reject.2, ?_⟩
    rw [← run_reject.1.length_eq, run_reject.2]
    exact Verdict.length_admitted_add_refusals (verdict m) types
  · refine ⟨_, load_skipBroken registered, run_overwrite.1, indexed_run.nodup, fun name => ?_,
      run_overwrite.2⟩
    rw [names_run, mem_admitted_names]

def partialTypes : List ScriptType :=
  [⟨"Lamp", [], [], "absent", "destroyLamp"⟩, ⟨"Lamp", [], [], "createLamp", "destroyLamp"⟩,
   ⟨"Lamp", [], [], "makeLamp", "destroyLamp"⟩, ⟨"Lamp", [], [], "createLamp", "absent"⟩]

/-- A module that lacks a symbol of the first and one of the last of its four entries. -/
def partialModule : Module where
  name := "partial"
  function? := fun
    | "getGeneratedScripts" =>
      (Table.encode partialTypes).toOption.map NativeFunction.register
    | "createLamp" => some (.create 0)
    | "makeLamp" => some (.create 1)
    | "destroyLamp" => some (.destroy 0)
    | _ => none

theorem load_skipBroken_outcome_partialModule :
    registeredTypes partialModule = .ok partialTypes ∧
    (∃ c, load partialModule ⟨.reject, .skipBroken⟩ = .ok c ∧
      c.skipped = [.missingSymbol "Lamp" "absent", .duplicateType "Lamp",
        .missingSymbol "Lamp" "absent"] ∧ c.interfaces.length + c.skipped.length = 4) ∧
    (∃ c, load partialModule ⟨.overwrite, .skipBroken⟩ = .ok c ∧
      c.skipped = [.missingSymbol "Lamp" "absent", .missingSymbol "Lamp" "absent"]) := by
  have registered : registeredTypes partialModule = .ok partialTypes := by decide +kernel
  obtain ⟨⟨c, kept, -, skipped, count⟩, d, replaced, -, -, -, broken⟩ :=
    load_skipBroken_outcome registered
  refine ⟨registered, ⟨c, kept, skipped.trans ?_, count⟩, d, replaced, broken.trans ?_⟩
  · decide +kernel
  · decide +kernel

end ScriptGlue.Collection
