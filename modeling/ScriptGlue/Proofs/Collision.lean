import Mathlib.Data.List.Flatten
import Mathlib.Data.List.Induction
import ScriptGlue.Proofs.Glue.Exports

/-!
# Collisions

What the search for collisions reports: each symbol that is exported more than once, in the order in
which they first occur, with the owner of each occurrence. `find_eq_iff` shows that it reports this
and nothing else.
-/

namespace ScriptGlue

/-- Who exports a symbol: the type, the field of an accessor, and the role. -/
def Glue.Purpose.owner : Glue.Purpose → String
  | create typeName _ => typeName ++ " (create)"
  | destroy typeName _ => typeName ++ " (destroy)"
  | get typeName f => typeName ++ "." ++ f.name ++ " (getter)"
  | set typeName f => typeName ++ "." ++ f.name ++ " (setter)"

namespace Collision
open Glue (purposes)

/-- The owners of the occurrences of a symbol, in the order of the occurrences. -/
def ownersOf (types : List ScriptType) (symbol : String) : List String :=
  ((types.flatMap purposes).filter (·.symbol == symbol)).map (·.owner)

/-- What is to be reported of some types. That the order is strict means that no symbol is reported
twice. -/
structure IsReport (types : List ScriptType) (found : List Collision) : Prop where
  repeated : ∀ symbol, symbol ∈ found.map (·.symbol) ↔
    2 ≤ (types.flatMap ScriptType.exportedSymbols).count symbol
  order : (found.map (·.symbol)).Pairwise fun a b =>
    (types.flatMap ScriptType.exportedSymbols).idxOf a <
      (types.flatMap ScriptType.exportedSymbols).idxOf b
  owners : ∀ c ∈ found, c.owners = ownersOf types c.symbol

/-! ### Occurrences -/

theorem ofType_eq_map (t : ScriptType) :
    Definition.ofType t = (purposes t).map fun p => ⟨p.symbol, p.owner⟩ := by
  have field (f : Field) : Definition.ofField t.name f = (if f.type.isAccessible then
      [Glue.Purpose.get t.name f, .set t.name f] else []).map fun p => ⟨p.symbol, p.owner⟩ := by
    unfold Definition.ofField
    split <;> rfl
  rw [Definition.ofType, purposes, List.map_append, List.map_flatMap, funext field]
  rfl

theorem symbols_flatMap_purposes (types : List ScriptType) :
    (types.flatMap purposes).map (·.symbol) = types.flatMap ScriptType.exportedSymbols := by
  simp only [List.map_flatMap, Glue.symbols_purposes]

theorem owners_filter (types : List ScriptType) (symbol : String) :
    ((types.flatMap Definition.ofType).filter (·.symbol == symbol)).map (·.owner) =
      ownersOf types symbol := by
  have all : types.flatMap Definition.ofType =
      (types.flatMap purposes).map fun p => ⟨p.symbol, p.owner⟩ := by
    rw [List.map_flatMap, funext ofType_eq_map]
  rw [all, List.filter_map, List.map_map]
  rfl

theorem owners_of_mem_find {types : List ScriptType} {c : Collision} (found : c ∈ find types) :
    c.owners = ownersOf types c.symbol := by
  obtain ⟨symbol, -, reported⟩ := List.mem_filterMap.mp found
  simp only [at?] at reported
  split at reported
  · obtain rfl := Option.some.inj reported
    exact owners_filter types symbol
  · cases reported

/-! ### Order -/

theorem pairwise_eraseDups (symbols : List String) :
    symbols.eraseDups.Pairwise fun a b => symbols.idxOf a < symbols.idxOf b := by
  induction symbols using List.reverseRecOn with
  | nil => exact .nil
  | append_singleton symbols s ih =>
    have early {a : String} (known : a ∈ symbols) :
        (symbols ++ [s]).idxOf a = symbols.idxOf a := List.idxOf_append_of_mem known
    have before : symbols.eraseDups.Pairwise fun a b =>
        (symbols ++ [s]).idxOf a < (symbols ++ [s]).idxOf b := by
      refine ih.imp_of_mem fun {a b} one other less => ?_
      rwa [early (List.mem_eraseDups.mp one), early (List.mem_eraseDups.mp other)]
    rw [List.eraseDups_append]
    -- The last symbol comes in only if it is new, and then behind all others.
    by_cases known : s ∈ symbols
    · have nothing : [s].removeAll symbols = [] := by simp [List.removeAll, known]
      rw [nothing]
      simpa using before
    · have fresh : [s].removeAll symbols = [s] := by simp [List.removeAll, known]
      have last : (symbols ++ [s]).idxOf s = symbols.length := by
        rw [List.idxOf_append_of_notMem known]
        simp
      rw [fresh]
      refine List.pairwise_append.mpr ⟨before, List.pairwise_singleton _ _, fun a one b other => ?_⟩
      obtain rfl : b = s := by simpa using other
      rw [last, early (List.mem_eraseDups.mp one)]
      exact List.idxOf_lt_length_of_mem (List.mem_eraseDups.mp one)

theorem symbols_find (types : List ScriptType) :
    (find types).map (·.symbol) =
      (types.flatMap ScriptType.exportedSymbols).eraseDups.filter fun s =>
        1 < (types.flatMap ScriptType.exportedSymbols).count s := by
  have symbols := congrArg (List.map Prod.fst) (map_find types)
  simpa only [List.map_map, Function.comp_def, List.map_id'] using symbols

theorem isReport_find (types : List ScriptType) : IsReport types (find types) where
  repeated symbol := by
    rw [symbols_find, List.mem_filter, List.mem_eraseDups, decide_eq_true_iff]
    constructor
    · exact And.right
    · intro twice
      exact ⟨List.count_pos_iff.mp (Nat.lt_of_lt_of_le Nat.zero_lt_two twice), twice⟩
  order := by
    rw [symbols_find]
    exact (pairwise_eraseDups _).sublist List.filter_sublist
  owners _ := owners_of_mem_find

/-! ### There is one report -/

theorem IsReport.nodup {types : List ScriptType} {found : List Collision}
    (report : IsReport types found) : (found.map (·.symbol)).Nodup := by
  refine report.order.imp fun {a b} less => ?_
  rintro rfl
  exact Nat.lt_irrefl _ less

theorem IsReport.symbols_unique {types : List ScriptType} {found found' : List Collision}
    (report : IsReport types found) (report' : IsReport types found') :
    found.map (·.symbol) = found'.map (·.symbol) := by
  have same : (found.map (·.symbol)).Perm (found'.map (·.symbol)) := by
    refine (List.perm_ext_iff_of_nodup report.nodup report'.nodup).mpr fun symbol => ?_
    rw [report.repeated, report'.repeated]
  refine List.Perm.eq_of_pairwise (fun a b _ _ one other => ?_) report.order report'.order same
  exact absurd one (Nat.lt_asymm other)

theorem IsReport.eq_map {types : List ScriptType} {found : List Collision}
    (report : IsReport types found) :
    found = (found.map (·.symbol)).map fun symbol => ⟨symbol, ownersOf types symbol⟩ := by
  rw [List.map_map]
  conv_lhs => rw [← List.map_id found]
  refine List.map_congr_left fun c member => ?_
  rw [id, Function.comp_apply, ← report.owners c member]

theorem IsReport.unique {types : List ScriptType} {found found' : List Collision}
    (report : IsReport types found) (report' : IsReport types found') : found = found' := by
  rw [report.eq_map, report'.eq_map, report.symbols_unique report']

/-- The search reports what is to be reported: a collision for each symbol that is exported more
than once, with an owner for each of its occurrences. It reports nothing exactly if the exported
symbols are pairwise distinct, and then so are the names of the types whose create function is named
by the convention. -/
theorem find_eq_iff (types : List ScriptType) :
    (types.flatMap purposes).map (·.symbol) = types.flatMap ScriptType.exportedSymbols ∧
    (∀ found, find types = found ↔ IsReport types found) ∧
    (find types = [] ↔ (types.flatMap ScriptType.exportedSymbols).Nodup) ∧
    (find types = [] →
      ((types.filter fun t => t.create = Symbol.create t.name).map (·.name)).Nodup) := by
  refine ⟨symbols_flatMap_purposes types, fun found => ⟨?_, ?_⟩, find_eq_nil_iff, fun none => ?_⟩
  · rintro rfl
    exact isReport_find types
  · exact fun report => (isReport_find types).unique report
  · have distinct := find_eq_nil_iff.mp none
    refine names_nodup (fun t member => of_decide_eq_true (List.mem_filter.mp member).2) ?_
    exact distinct.sublist (List.filter_sublist.flatMap _)

/-- Three types export one symbol, two as a getter and one as its create function. -/
example : find [(ScriptType.declared "A").pushField (.scalar .int) "get_x",
      (ScriptType.declared "A_get").pushField (.scalar .int) "x",
      ⟨"B", [], [], "A_get_get_x", "destroyB"⟩] =
    [⟨"A_get_get_x", ["A.get_x (getter)", "A_get.x (getter)", "B (create)"]⟩] := by
  decide +kernel

end Collision

end ScriptGlue
