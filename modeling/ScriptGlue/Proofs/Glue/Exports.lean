import ScriptGlue.Proofs.Glue.Reading
import ScriptGlue.Proofs.Traversal

/-!
# Exports

Three places say what glue exports: the text of the glue, the symbols of the types, and the search
for collisions. They agree, and each accessor is one for the type and the name of its own field:
`render_exports`.
-/

namespace ScriptGlue.Glue
open Text

inductive Purpose
  | create (typeName symbol : String)
  | destroy (typeName symbol : String)
  | get (typeName : String) (f : Field)
  | set (typeName : String) (f : Field)

/-- What a type wants exported; a field that is not accessible wants nothing. -/
def purposes (t : ScriptType) : List Purpose :=
  [.create t.name t.create, .destroy t.name t.destroy] ++ t.fields.flatMap fun f =>
    if f.type.isAccessible then [.get t.name f, .set t.name f] else []

/-- A function that does what it is there for. An accessor has the type of its field, and touches
the member of that name. -/
def Purpose.IsServed : Purpose → ExportedFunction → Prop
  | create typeName symbol, e => e.symbol = symbol ∧ e.returns = typeName ++ "*" ∧
      e.parameters = "" ∧ e.statement = "return new " ++ typeName ++ "();"
  | destroy typeName symbol, e => e.symbol = symbol ∧ e.returns = "void" ∧
      e.parameters = typeName ++ "* x" ∧ e.statement = "delete x;"
  | get typeName f, e => e.symbol = f.getter ∧ FieldType.ofKeyword e.returns = f.type ∧
      e.parameters = typeName ++ "* x" ∧ e.statement = "return x->" ++ f.name ++ ";"
  | set typeName f, e => e.symbol = f.setter ∧ e.returns = "void" ∧
      (∃ keyword, FieldType.ofKeyword keyword = f.type ∧
        e.parameters = typeName ++ "* x, " ++ keyword ++ " v") ∧
      e.statement = "x->" ++ f.name ++ " = v;"

theorem ofKeyword_keyword (kind : ScalarKind) :
    FieldType.ofKeyword kind.keyword = .scalar kind := by
  cases kind <;> rfl

theorem served_fieldItems (typeName : String) (f : Field) :
    List.Forall₂ Purpose.IsServed
      (if f.type.isAccessible then [.get typeName f, .set typeName f] else [])
      ((fieldItems typeName f).filterMap Item.function?) := by
  unfold fieldItems
  cases type : f.type with
  | scalar kind =>
    have get : Purpose.IsServed (.get typeName f) (getter typeName f kind) :=
      ⟨rfl, type ▸ ofKeyword_keyword kind, rfl, rfl⟩
    have set : Purpose.IsServed (.set typeName f) (setter typeName f kind) :=
      ⟨rfl, rfl, ⟨kind.keyword, type ▸ ofKeyword_keyword kind, rfl⟩, rfl⟩
    exact .cons get (.cons set .nil)
  | unknown => exact .nil
  | void => exact .nil

theorem served_items (t : ScriptType) :
    List.Forall₂ Purpose.IsServed (purposes t)
      ((items t).filterMap Item.function?) := by
  rw [items, List.filterMap_append, List.filterMap_flatMap]
  have create : Purpose.IsServed (.create t.name t.create) (creation t) := ⟨rfl, rfl, rfl, rfl⟩
  have destroy : Purpose.IsServed (.destroy t.name t.destroy) (destruction t) :=
    ⟨rfl, rfl, rfl, rfl⟩
  exact List.rel_append (.cons create (.cons destroy .nil))
    (forall₂_flatMap fun f _ => served_fieldItems t.name f)

def Purpose.symbol : Purpose → String
  | create _ symbol => symbol
  | destroy _ symbol => symbol
  | get _ f => f.getter
  | set _ f => f.setter

theorem map_eq_of_served {wanted : List Purpose} {functions : List ExportedFunction}
    (served : List.Forall₂ Purpose.IsServed wanted functions) :
    wanted.map (·.symbol) = functions.map (·.symbol) := by
  induction served with
  | nil => rfl
  | @cons p e _ _ first _ ih =>
    have symbol : p.symbol = e.symbol := by cases p <;> exact first.1.symm
    rw [List.map_cons, List.map_cons, symbol, ih]

theorem symbols_purposes (t : ScriptType) : (purposes t).map (·.symbol) = t.exportedSymbols := by
  have field (f : Field) : ((if f.type.isAccessible then
      [Purpose.get t.name f, .set t.name f] else []).map (·.symbol)) =
        if f.type.isAccessible then [f.getter, f.setter] else [] := by
    split <;> rfl
  rw [purposes, List.map_append, List.map_flatMap, t.exportedSymbols_eq]
  simp only [field]
  rfl

/-! ### Remarks -/

def isRemark (line : List Char) : Bool := "//".toList.isPrefixOf line

/-- The fields that get no accessors, each with its type. -/
def unserved (t : ScriptType) : List (String × Field) :=
  t.fields.flatMap fun f => if f.type.isAccessible then [] else [(t.name, f)]

/-- A line that names a field. -/
def Names (f : String × Field) (line : List Char) : Prop :=
  ("// nsg: " ++ f.1 ++ "::" ++ f.2.name ++ " ").toList <+: line

theorem isRemark_eq_false {front : String}
    (differ : ("//".toList.zip front.toList).any fun p => p.1 != p.2) (rest : String) :
    isRemark (front ++ rest).toList = false := by
  have other := isPrefixOf?_eq_none differ rest.toList
  rw [isRemark, String.toList_append, ← List.isSome_isPrefixOf?_eq_isPrefixOf, other]
  rfl

def Item.remark? : Item → Option String
  | function _ => none
  | remark text => some ("// " ++ text)

theorem remarks_item (i : Item) :
    (("" :: i.lines).map String.toList).filter isRemark = i.remark?.toList.map String.toList := by
  cases i with
  | function f =>
    have head : isRemark ("extern \"C\" NS_EXPORT " ++ f.returns ++ " " ++ f.symbol ++ "("
        ++ f.parameters ++ ") \x7b").toList = false := by
      simp only [String.append_assoc]
      exact isRemark_eq_false rfl _
    have body : isRemark ("\t" ++ f.statement).toList = false := isRemark_eq_false rfl _
    have blank : isRemark "".toList = false := rfl
    have close : isRemark "\x7d".toList = false := rfl
    simp only [Item.lines, ExportedFunction.lines, List.map_cons, List.map_nil, List.filter_cons,
      head, body, blank, close, Item.remark?, Option.toList_none, List.filter_nil]
    rfl
  | remark text =>
    have slashes : isRemark ("// " ++ text).toList = true := by
      rw [String.toList_append]
      rfl
    have blank : isRemark "".toList = false := rfl
    simp only [Item.lines, List.map_cons, List.map_nil, List.filter_cons, slashes, blank,
      Item.remark?, Option.toList_some, List.filter_nil]
    rfl

theorem remarks_items (entries : List Item) :
    (((entries.flatMap fun i => "" :: i.lines).map String.toList).filter isRemark) =
      (entries.filterMap Item.remark?).map String.toList := by
  induction entries with
  | nil => rfl
  | cons i entries ih =>
    rw [List.flatMap_cons, List.map_append, List.filter_append, remarks_item, ih,
      List.filterMap_cons]
    cases i.remark? <;> rfl

theorem remarks_fieldItems (typeName : String) (f : Field) :
    List.Forall₂ Names (if f.type.isAccessible then [] else [(typeName, f)])
      (((fieldItems typeName f).filterMap Item.remark?).map String.toList) := by
  have named : Names (typeName, f) ("// " ++ ("nsg: " ++ typeName ++ "::" ++ f.name
      ++ " has no supported scalar type; " ++ f.getter ++ " and " ++ f.setter
      ++ " not generated")).toList :=
    ⟨("has no supported scalar type; " ++ f.getter ++ " and " ++ f.setter
      ++ " not generated").toList, by simp⟩
  unfold fieldItems
  cases f.type with
  | scalar kind => exact .nil
  | unknown => exact .cons named .nil
  | void => exact .cons named .nil

theorem remarks_type (t : ScriptType) :
    List.Forall₂ Names (unserved t) (((items t).filterMap Item.remark?).map String.toList) := by
  rw [items, List.filterMap_append, List.filterMap_flatMap, List.map_append, List.map_flatMap]
  exact forall₂_flatMap fun f _ => remarks_fieldItems t.name f

/-! ### The generated header -/

/-- What a generated header has behind its source exports exactly the symbols of the types, in their
order, and these are the symbols that the search for collisions counts. -/
theorem render_exports (source : String) {types : List ScriptType}
    (words : ∀ t ∈ types, t.IsIdentified) :
    ∃ behind, render source types = source ++ behind ∧
      (functions (lines behind.toList)).map (·.symbol) =
        types.flatMap ScriptType.exportedSymbols ∧
      (types.flatMap Definition.ofType).map (·.symbol) =
        types.flatMap ScriptType.exportedSymbols ∧
      (Collision.find types).map (fun c => (c.symbol, c.owners.length)) =
        ((types.flatMap ScriptType.exportedSymbols).eraseDups.filter fun s =>
          1 < (types.flatMap ScriptType.exportedSymbols).count s).map
            (fun s => (s, (types.flatMap ScriptType.exportedSymbols).count s)) ∧
      List.Forall₂ Purpose.IsServed (types.flatMap purposes) (functions (lines behind.toList)) ∧
      List.Forall₂ Names (types.flatMap unserved) ((lines behind.toList).filter isRemark) := by
  have legible : ∀ t ∈ types, ∀ i ∈ items t, i.Legible :=
    fun t member _ => legible_of_mem_items (words t member)
  -- All that is said of the text follows from what its functions are there for.
  have served : List.Forall₂ Purpose.IsServed (types.flatMap purposes)
      (functions (lines (text types).toList)) := by
    rw [functions_text legible, List.filterMap_flatMap]
    exact forall₂_flatMap fun t _ => served_items t
  have symbols : (functions (lines (text types).toList)).map (·.symbol) =
      types.flatMap ScriptType.exportedSymbols := by
    rw [← map_eq_of_served served, List.map_flatMap]
    simp only [symbols_purposes]
  have remarks : (lines (text types).toList).filter isRemark =
      types.flatMap fun t => ((items t).filterMap Item.remark?).map String.toList := by
    rw [lines_text legible, List.filter_append, remarks_items, List.filterMap_flatMap,
      List.map_flatMap]
    exact List.append_nil _
  refine ⟨text types, rfl, symbols, Definition.map_symbol_flatMap types, Collision.map_find types,
    served, ?_⟩
  rw [remarks]
  exact forall₂_flatMap fun t _ => remarks_type t

/-- Two types that both define one accessor. -/
def clashingTypes : List ScriptType :=
  [((ScriptType.declared "A").pushField (.scalar .wide) "get_x").pushField .unknown "size",
    (ScriptType.declared "A_get").pushField (.scalar .bool) "x"]

theorem render_exports_clashingTypes :
    (∀ t ∈ clashingTypes, t.IsIdentified) ∧
    ∃ behind, render "// \"A\"\r\nclass A;" clashingTypes = "// \"A\"\r\nclass A;" ++ behind ∧
      (functions (lines behind.toList)).map (·.symbol) =
        ["createA", "destroyA", "A_get_get_x", "A_set_get_x",
          "createA_get", "destroyA_get", "A_get_get_x", "A_get_set_x"] ∧
      (Collision.find clashingTypes).map (fun c => (c.symbol, c.owners.length)) =
        [("A_get_get_x", 2)] ∧
      ((lines behind.toList).filter isRemark).length = 1 := by
  have words : ∀ t ∈ clashingTypes, t.IsIdentified := by decide
  obtain ⟨behind, whole, symbols, -, found, -, remarks⟩ := render_exports _ words
  exact ⟨words, behind, whole, symbols.trans (by decide), found.trans (by decide),
    remarks.length_eq.symm.trans (by decide)⟩

end ScriptGlue.Glue
