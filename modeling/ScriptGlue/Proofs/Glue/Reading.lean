import ScriptGlue.Glue
import ScriptGlue.Proofs.Extraction.Naming
import ScriptGlue.Proofs.Symbol
import ScriptGlue.Proofs.Text.Layout
import Mathlib.Data.List.Basic

/-!
# Reading glue

Glue read back line by line: which symbols it defines, and what the function behind each does. What
is read is what the types ask for (`definitions_text`).
-/

namespace ScriptGlue.Glue
open Text

inductive Action
  | create (typeName : String)
  | destroy (typeName : String)
  | get (typeName field : String) (kind : ScalarKind)
  | set (typeName field : String) (kind : ScalarKind)
deriving Repr, DecidableEq, Inhabited

/-- Reads a function off its first line and the line behind. -/
def readFunction? (head body : List Char) : Option ExportedFunction :=
  ("extern \"C\" NS_EXPORT ".toList.isPrefixOf? head).map fun text =>
    let returns := cut ' ' text
    let symbol := cut '(' returns.2
    let parameters := cut ')' symbol.2
    ⟨.ofList returns.1, .ofList symbol.1, .ofList parameters.1, .ofList (body.drop 1)⟩

def functions : List (List Char) → List ExportedFunction
  | [] => []
  | head :: rest => (readFunction? head (rest.headD [])).toList ++ functions rest

def object? (parameter : String) : Option String := between? "" "* x" parameter

def kind? (keyword : String) : Option ScalarKind := (FieldType.ofKeyword keyword).kind?

/-- What a function does, read off its statement and its types. -/
def ExportedFunction.action? (f : ExportedFunction) : Option Action :=
  match between? "return new " "();" f.statement, between? "return x->" ";" f.statement,
      between? "x->" " = v;" f.statement with
  | some typeName, _, _ => some (.create typeName)
  | none, some field, _ => do
    let typeName ← object? f.parameters
    let kind ← kind? f.returns
    return .get typeName field kind
  | none, none, some field => do
    let parameters := cut ',' f.parameters.toList
    let typeName ← object? (.ofList parameters.1)
    let keyword ← between? " " " v" (.ofList parameters.2)
    let kind ← kind? keyword
    return .set typeName field kind
  | none, none, none =>
    if f.statement = "delete x;" then (object? f.parameters).map .destroy else none

def ExportedFunction.definition? (f : ExportedFunction) : Option (String × Action) :=
  f.action?.map (f.symbol, ·)

/-- The symbols that a text defines, each with what its function does. -/
def definitions (text : List Char) : List (String × Action) :=
  (functions (lines text)).filterMap (·.definition?)

def wantedField (typeName : String) (f : Field) : List (String × Action) :=
  match f.type with
  | .scalar kind => [(f.getter, .get typeName f.name kind), (f.setter, .set typeName f.name kind)]
  | _ => []

/-- The definitions that a type asks for. -/
def wanted (t : ScriptType) : List (String × Action) :=
  [(t.create, .create t.name), (t.destroy, .destroy t.name)]
    ++ t.fields.flatMap (wantedField t.name)

theorem symbols_wantedField (typeName : String) (f : Field) :
    (wantedField typeName f).map (·.1) =
      if f.type.isAccessible then [f.getter, f.setter] else [] := by
  unfold wantedField FieldType.isAccessible
  cases f.type <;> rfl

theorem symbols_wanted (t : ScriptType) : (wanted t).map (·.1) = t.exportedSymbols := by
  rw [wanted, List.map_append, List.map_flatMap, t.exportedSymbols_eq]
  simp only [symbols_wantedField, List.map_cons, List.map_nil]

/-! ### What the functions do -/

theorem kind?_keyword (kind : ScalarKind) : kind? kind.keyword = some kind := by
  cases kind <;> rfl

theorem object?_append (typeName : String) : object? (typeName ++ "* x") = some typeName := by
  have whole := between?_append "" typeName "* x"
  rwa [String.empty_append] at whole

theorem action?_creation (t : ScriptType) : (creation t).action? = some (.create t.name) := by
  simp only [ExportedFunction.action?, creation, between?_append]

theorem action?_destruction (t : ScriptType) :
    (destruction t).action? = some (.destroy t.name) := by
  have new : between? "return new " "();" "delete x;" = none := by decide
  have read : between? "return x->" ";" "delete x;" = none := by decide
  have write : between? "x->" " = v;" "delete x;" = none := by decide
  simp only [ExportedFunction.action?, destruction, new, read, write, object?_append,
    Option.map_some, ↓reduceIte]

theorem action?_getter (typeName : String) (f : Field) (kind : ScalarKind) :
    (getter typeName f kind).action? = some (.get typeName f.name kind) := by
  have new : between? "return new " "();" ("return x->" ++ f.name ++ ";") = none := by
    rw [String.append_assoc]
    exact between?_eq_none rfl _ _
  simp only [ExportedFunction.action?, getter, new, between?_append, object?_append,
    kind?_keyword]
  rfl

theorem action?_setter {typeName : String} (word : IsWord typeName) (f : Field)
    (kind : ScalarKind) : (setter typeName f kind).action? = some (.set typeName f.name kind) := by
  have new : between? "return new " "();" ("x->" ++ f.name ++ " = v;") = none := by
    rw [String.append_assoc]
    exact between?_eq_none rfl _ _
  have read : between? "return x->" ";" ("x->" ++ f.name ++ " = v;") = none := by
    rw [String.append_assoc]
    exact between?_eq_none rfl _ _
  have parameters : cut ',' (typeName ++ "* x, " ++ kind.keyword ++ " v").toList =
      ((typeName ++ "* x").toList, (" " ++ kind.keyword ++ " v").toList) := by
    have absent : ',' ∉ (typeName ++ "* x").toList := by
      simp [word.not_mem (c := ',') rfl]
    rw [← cut_append absent]
    simp
  simp only [ExportedFunction.action?, setter, new, read, between?_append, parameters,
    String.ofList_toList, object?_append, Option.bind_eq_bind, Option.bind_some, kind?_keyword]
  rfl

/-! ### Lines of an entry -/

/-- A function whose parts end where the reader takes them to end. -/
structure ExportedFunction.Legible (f : ExportedFunction) : Prop where
  returns : ' ' ∉ f.returns.toList
  symbol : '(' ∉ f.symbol.toList
  parameters : ')' ∉ f.parameters.toList
  clear : ∀ line ∈ f.lines, '\n' ∉ line.toList

theorem readFunction?_of_legible {f : ExportedFunction} (legible : f.Legible) :
    readFunction? ("extern \"C\" NS_EXPORT " ++ f.returns ++ " " ++ f.symbol ++ "("
      ++ f.parameters ++ ") \x7b").toList ("\t" ++ f.statement).toList = some f := by
  have head : ("extern \"C\" NS_EXPORT " ++ f.returns ++ " " ++ f.symbol ++ "("
      ++ f.parameters ++ ") \x7b").toList = "extern \"C\" NS_EXPORT ".toList ++
      (f.returns.toList ++ ' ' :: (f.symbol.toList ++ '(' :: (f.parameters.toList ++ ')' ::
        " \x7b".toList))) := by simp
  rw [readFunction?, head, isPrefixOf?_append, Option.map_some]
  simp only [cut_append legible.returns, cut_append legible.symbol,
    cut_append legible.parameters, String.ofList_toList]
  simp

def Item.function? : Item → Option ExportedFunction
  | function f => some f
  | remark _ => none

/-- An entry that is read back as what it is. -/
def Item.Legible : Item → Prop
  | function f => f.Legible
  | remark text => '\n' ∉ text.toList

theorem functions_item {i : Item} (legible : i.Legible) (rest : List (List Char)) :
    functions (("" :: i.lines).map String.toList ++ rest) =
      i.function?.toList ++ functions rest := by
  have blank (next : List Char) : readFunction? "".toList next = none := rfl
  have close (next : List Char) : readFunction? "\x7d".toList next = none := rfl
  cases i with
  | function f =>
    have body (next : List Char) : readFunction? ("\t" ++ f.statement).toList next = none := by
      rw [readFunction?, String.toList_append, isPrefixOf?_eq_none rfl]
      rfl
    simp only [Item.lines, ExportedFunction.lines, List.map_cons, List.map_nil, List.cons_append,
      List.nil_append, functions, List.headD_cons, blank, body, close,
      readFunction?_of_legible legible, Option.toList_none, Option.toList_some, Item.function?]
  | remark text =>
    have slashes (next : List Char) : readFunction? ("// " ++ text).toList next = none := by
      rw [readFunction?, String.toList_append, isPrefixOf?_eq_none rfl]
      rfl
    simp only [Item.lines, List.map_cons, List.map_nil, List.cons_append, List.nil_append,
      functions, blank, slashes, Option.toList_none, Item.function?]

theorem functions_items {entries : List Item} (legible : ∀ i ∈ entries, i.Legible)
    (rest : List (List Char)) :
    functions ((entries.flatMap fun i => "" :: i.lines).map String.toList ++ rest) =
      entries.filterMap Item.function? ++ functions rest := by
  induction entries with
  | nil => rfl
  | cons i entries ih =>
    have later := ih fun j member => legible j (List.mem_cons_of_mem i member)
    rw [List.flatMap_cons, List.map_append, List.append_assoc,
      functions_item (legible i List.mem_cons_self), later]
    cases i <;> rfl

theorem text_eq_unlines (types : List ScriptType) :
    text types = unlines ((types.flatMap items).flatMap fun i => "" :: i.lines) := by
  rw [unlines_flatMap]
  rfl

theorem Item.clear_of_legible {i : Item} (legible : i.Legible) :
    ∀ line ∈ "" :: i.lines, '\n' ∉ line.toList := by
  intro line member
  rcases List.mem_cons.mp member with rfl | member
  · simp
  · cases i with
    | function f => exact legible.clear line member
    | remark text =>
      obtain rfl := List.mem_singleton.mp member
      have clear : '\n' ∉ text.toList := legible
      simpa using clear

theorem lines_text {types : List ScriptType} (legible : ∀ t ∈ types, ∀ i ∈ items t, i.Legible) :
    lines (text types).toList =
      ((types.flatMap items).flatMap fun i => "" :: i.lines).map String.toList ++ [[]] := by
  rw [text_eq_unlines, lines_unlines]
  intro line member
  obtain ⟨i, inside, own⟩ := List.mem_flatMap.mp member
  obtain ⟨t, typeMember, item⟩ := List.mem_flatMap.mp inside
  exact Item.clear_of_legible (legible t typeMember i item) line own

theorem functions_text {types : List ScriptType}
    (legible : ∀ t ∈ types, ∀ i ∈ items t, i.Legible) :
    functions (lines (text types).toList) = (types.flatMap items).filterMap Item.function? := by
  have entries : ∀ i ∈ types.flatMap items, i.Legible := by
    intro i member
    obtain ⟨t, inside, own⟩ := List.mem_flatMap.mp member
    exact legible t inside i own
  rw [lines_text legible, functions_items entries]
  exact List.append_nil _

/-! ### Glue of types with words for names -/

theorem not_mem_keyword (kind : ScalarKind) {c : Char} (other : Piece.isWordPart c = false) :
    c ∉ kind.keyword.toList := by
  have word : kind.keyword.toList.all Piece.isWordPart := by cases kind <;> rfl
  intro member
  rw [List.all_eq_true.mp word c member] at other
  exact nomatch other

variable {t : ScriptType} {f : Field}

theorem legible_creation (words : t.IsIdentified) : (creation t).Legible where
  returns := by simp [creation, words.name.not_mem (c := ' ') rfl]
  symbol := words.create.not_mem rfl
  parameters := by simp [creation]
  clear := by
    simp [ExportedFunction.lines, creation, words.name.not_mem (c := '\n') rfl,
      words.create.not_mem (c := '\n') rfl]

theorem legible_destruction (words : t.IsIdentified) : (destruction t).Legible where
  returns := by simp [destruction]
  symbol := words.destroy.not_mem rfl
  parameters := by simp [destruction, words.name.not_mem (c := ')') rfl]
  clear := by
    simp [ExportedFunction.lines, destruction, words.name.not_mem (c := '\n') rfl,
      words.destroy.not_mem (c := '\n') rfl]

theorem legible_getter (words : t.IsIdentified) (member : f ∈ t.fields) (kind : ScalarKind) :
    (getter t.name f kind).Legible where
  returns := not_mem_keyword kind rfl
  symbol := (words.fields f member).2.1.not_mem rfl
  parameters := by simp [getter, words.name.not_mem (c := ')') rfl]
  clear := by
    obtain ⟨name, symbol, -⟩ := words.fields f member
    simp [ExportedFunction.lines, getter, words.name.not_mem (c := '\n') rfl,
      name.not_mem (c := '\n') rfl, symbol.not_mem (c := '\n') rfl,
      not_mem_keyword kind (c := '\n') rfl]

theorem legible_setter (words : t.IsIdentified) (member : f ∈ t.fields) (kind : ScalarKind) :
    (setter t.name f kind).Legible where
  returns := by simp [setter]
  symbol := (words.fields f member).2.2.not_mem rfl
  parameters := by
    simp [setter, words.name.not_mem (c := ')') rfl, not_mem_keyword kind (c := ')') rfl]
  clear := by
    obtain ⟨name, -, symbol⟩ := words.fields f member
    simp [ExportedFunction.lines, setter, words.name.not_mem (c := '\n') rfl,
      name.not_mem (c := '\n') rfl, symbol.not_mem (c := '\n') rfl,
      not_mem_keyword kind (c := '\n') rfl]

theorem legible_of_mem_fieldItems (words : t.IsIdentified) (member : f ∈ t.fields) {i : Item}
    (own : i ∈ fieldItems t.name f) : i.Legible := by
  unfold fieldItems at own
  split at own
  · rename_i kind _
    simp only [List.mem_cons, List.not_mem_nil, or_false] at own
    rcases own with rfl | rfl
    · exact legible_getter words member kind
    · exact legible_setter words member kind
  · obtain ⟨name, getter, setter⟩ := words.fields f member
    obtain rfl := List.mem_singleton.mp own
    simp [Item.Legible, words.name.not_mem (c := '\n') rfl, name.not_mem (c := '\n') rfl,
      getter.not_mem (c := '\n') rfl, setter.not_mem (c := '\n') rfl]

theorem legible_of_mem_items (words : t.IsIdentified) {i : Item} (member : i ∈ items t) :
    i.Legible := by
  rcases List.mem_append.mp member with own | accessor
  · simp only [List.mem_cons, List.not_mem_nil, or_false] at own
    rcases own with rfl | rfl
    · exact legible_creation words
    · exact legible_destruction words
  · obtain ⟨f, inside, own⟩ := List.mem_flatMap.mp accessor
    exact legible_of_mem_fieldItems words inside own

theorem definition?_creation (t : ScriptType) :
    (creation t).definition? = some (t.create, .create t.name) := by
  rw [ExportedFunction.definition?, action?_creation]
  rfl

theorem definition?_destruction (t : ScriptType) :
    (destruction t).definition? = some (t.destroy, .destroy t.name) := by
  rw [ExportedFunction.definition?, action?_destruction]
  rfl

theorem definition?_getter (typeName : String) (f : Field) (kind : ScalarKind) :
    (getter typeName f kind).definition? = some (f.getter, .get typeName f.name kind) := by
  rw [ExportedFunction.definition?, action?_getter]
  rfl

theorem definition?_setter {typeName : String} (word : IsWord typeName) (f : Field)
    (kind : ScalarKind) :
    (setter typeName f kind).definition? = some (f.setter, .set typeName f.name kind) := by
  rw [ExportedFunction.definition?, action?_setter word]
  rfl

theorem definitions_fieldItems (word : IsWord t.name) (f : Field) :
    ((fieldItems t.name f).filterMap Item.function?).filterMap (·.definition?) =
      wantedField t.name f := by
  unfold fieldItems wantedField
  cases f.type with
  | scalar kind =>
    simp only [Item.function?, List.filterMap_cons, List.filterMap_nil, definition?_getter,
      definition?_setter word]
  | unknown => rfl
  | void => rfl

theorem definitions_items (word : IsWord t.name) :
    ((items t).filterMap Item.function?).filterMap (·.definition?) = wanted t := by
  rw [items, List.filterMap_append, List.filterMap_append, List.filterMap_flatMap,
    List.filterMap_flatMap, wanted]
  simp only [definitions_fieldItems word, Item.function?, List.filterMap_cons, List.filterMap_nil,
    definition?_creation, definition?_destruction]

theorem definitions_text {types : List ScriptType} (words : ∀ t ∈ types, t.IsIdentified) :
    definitions (text types).toList = types.flatMap wanted := by
  have legible := functions_text fun t member _ => legible_of_mem_items (words t member)
  rw [definitions, legible, List.filterMap_flatMap, List.filterMap_flatMap]
  exact List.flatMap_congr fun t member => definitions_items (words t member).name

end ScriptGlue.Glue
