import ScriptGlue.Proofs.Text.Bytes
import ScriptGlue.Proofs.Traversal
import ScriptGlue.Table.Encode

/-!
# Encoding

Which records become a table. `encode_stopsAt` says that encoding fails exactly if a text has a zero
character or a list is too long, and then with the first of them in the order of writing.
-/

namespace ScriptGlue

def RawText.faults (what text : String) : List TableError :=
  if '\x00' ∈ text.toList then [.interiorNul what] else []

def RawArray.faults (what : String) (length : Nat) : List TableError :=
  if length ≤ RawArray.maxLength then [] else [.tooLarge what length]

/-- The faults of a field: its three texts. -/
def Field.faults (f : Field) : List TableError :=
  RawText.faults "field name" f.name
    ++ (RawText.faults "getter symbol" f.getter ++ RawText.faults "setter symbol" f.setter)

/-- The faults of a method: its name, then its parameters. -/
def Method.faults (m : Method) : List TableError :=
  RawText.faults "method name" m.name ++ RawArray.faults "parameter" m.parameters.length

/-- The faults of a type: those of its members, then those of its own record. -/
def ScriptType.faults (t : ScriptType) : List TableError :=
  t.fields.flatMap Field.faults ++ (t.methods.flatMap Method.faults
    ++ (RawText.faults "type name" t.name ++ (RawArray.faults "field" t.fields.length
    ++ (RawArray.faults "method" t.methods.length ++ (RawText.faults "create symbol" t.create
    ++ RawText.faults "destroy symbol" t.destroy)))))

/-- The faults of some types, and of their number. -/
def Table.faults (types : List ScriptType) : List TableError :=
  types.flatMap ScriptType.faults ++ RawArray.faults "script" types.length

theorem RawText.of_stopsAt (what text : String) : StopsAt (RawText.of what text) (faults what text) := by
  intro e
  unfold RawText.of faults
  simp only [Text.zero_mem_bytes_iff]
  split <;> simp

theorem RawArray.of_stopsAt {α : Type} (what : String) (items : List α) :
    StopsAt (RawArray.of what items) (faults what items.length) := by
  intro e
  unfold RawArray.of faults
  split <;> simp

theorem RawField.of_stopsAt (f : Field) : StopsAt (RawField.of f) f.faults :=
  (RawText.of_stopsAt _ _).bind fun _ _ => (RawText.of_stopsAt _ _).bind fun _ _ =>
    (RawText.of_stopsAt _ _).bind_pure

theorem RawMethod.of_stopsAt (m : Method) : StopsAt (RawMethod.of m) m.faults := by
  have parameters := RawArray.of_stopsAt "parameter" (m.parameters.map FieldType.tag)
  rw [List.length_map] at parameters
  exact (RawText.of_stopsAt _ _).bind fun _ _ => parameters.bind_pure

theorem length_eq_of_mapM {ε α β : Type} {f : α → Except ε β} {items : List α} {results : List β}
    (ok : items.mapM f = .ok results) : results.length = items.length :=
  (mapM_eq_ok_iff.mp ok).length_eq.symm

theorem RawScript.of_stopsAt (t : ScriptType) : StopsAt (RawScript.of t) t.faults := by
  refine (StopsAt.mapM RawField.of_stopsAt _).bind fun rawFields fields => ?_
  refine (StopsAt.mapM RawMethod.of_stopsAt _).bind fun rawMethods methods => ?_
  rw [← length_eq_of_mapM fields, ← length_eq_of_mapM methods]
  exact (RawText.of_stopsAt _ _).bind fun _ _ => (RawArray.of_stopsAt _ _).bind fun _ _ =>
    (RawArray.of_stopsAt _ _).bind fun _ _ => (RawText.of_stopsAt _ _).bind fun _ _ =>
    (RawText.of_stopsAt _ _).bind_pure

theorem Table.encode_stopsAt (types : List ScriptType) :
    StopsAt (Table.encode types) (Table.faults types) := by
  refine (StopsAt.mapM RawScript.of_stopsAt types).bind fun scripts ok => ?_
  rw [← length_eq_of_mapM ok]
  exact RawArray.of_stopsAt _ _

/-- A type all of whose texts can end at a zero byte and all of whose lists can be counted. -/
structure ScriptType.Encodable (t : ScriptType) : Prop where
  name : '\x00' ∉ t.name.toList
  create : '\x00' ∉ t.create.toList
  destroy : '\x00' ∉ t.destroy.toList
  fields : ∀ f ∈ t.fields,
    '\x00' ∉ f.name.toList ∧ '\x00' ∉ f.getter.toList ∧ '\x00' ∉ f.setter.toList
  methods : ∀ m ∈ t.methods,
    '\x00' ∉ m.name.toList ∧ m.parameters.length ≤ RawArray.maxLength
  fieldCount : t.fields.length ≤ RawArray.maxLength
  methodCount : t.methods.length ≤ RawArray.maxLength

theorem RawText.faults_eq_nil_iff {what text : String} :
    faults what text = [] ↔ '\x00' ∉ text.toList := by
  simp [faults]

theorem RawArray.faults_eq_nil_iff {what : String} {length : Nat} :
    faults what length = [] ↔ length ≤ RawArray.maxLength := by
  simp [faults]

theorem ScriptType.faults_eq_nil_iff {t : ScriptType} : t.faults = [] ↔ t.Encodable := by
  simp only [faults, Field.faults, Method.faults, List.append_eq_nil_iff, List.flatMap_eq_nil_iff,
    RawText.faults_eq_nil_iff, RawArray.faults_eq_nil_iff]
  constructor
  · rintro ⟨fields, methods, name, fieldCount, methodCount, create, destroy⟩
    exact ⟨name, create, destroy, fields, methods, fieldCount, methodCount⟩
  · rintro ⟨name, create, destroy, fields, methods, fieldCount, methodCount⟩
    exact ⟨fields, methods, name, fieldCount, methodCount, create, destroy⟩

instance (t : ScriptType) : Decidable t.Encodable :=
  decidable_of_iff (t.faults = []) ScriptType.faults_eq_nil_iff

theorem Table.exists_encode_iff {types : List ScriptType} :
    (∃ table, Table.encode types = .ok table) ↔
      (∀ t ∈ types, t.Encodable) ∧ types.length ≤ RawArray.maxLength := by
  rw [(encode_stopsAt types).exists_ok_iff]
  simp only [faults, List.append_eq_nil_iff, List.flatMap_eq_nil_iff, ScriptType.faults_eq_nil_iff,
    RawArray.faults_eq_nil_iff]

end ScriptGlue
