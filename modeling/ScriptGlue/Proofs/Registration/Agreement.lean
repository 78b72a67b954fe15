import ScriptGlue.Proofs.Registration.Arrays
import ScriptGlue.Proofs.Registration.Printing

/-!
# Agreement

The registration source of some types and the table that they are written to say the same:
`source_agrees`.
-/

namespace ScriptGlue

def ScriptType.texts (t : ScriptType) : List String :=
  [t.name, t.create, t.destroy] ++ (t.fields.flatMap fun f => [f.name, f.getter, f.setter])
    ++ t.methods.map (·.name)

namespace Registration
open Text

/-! ### Rows -/

theorem print_tagCell (type : FieldType) : (tagCell type).print = tagText type := by
  cases type with
  | unknown => rfl
  | scalar kind => cases kind <;> rfl
  | void => rfl

theorem plain_number (n : Nat) : (Cell.number n).Plain := trivial

theorem plain_pointer (n : ArrayName) (length : Nat) : (pointer n length).Plain := by
  by_cases none : length = 0
  · subst none
    exact (by decide : IsWord "nullptr")
  · rw [pointer_of_ne n none]
    exact n.isWord

theorem fieldRow_eq (f : Field) : fieldRow f = row ((fieldCells f).map Cell.print) := by
  rw [fieldRow, ← print_tagCell]
  rfl

theorem methodRow_eq (index : Nat) (m : Method × Nat) :
    methodRow index m = row ((methodCells index m).map Cell.print) := by
  rw [methodRow, ← print_tagCell]
  rfl

theorem scriptRow_eq (t : ScriptType × Nat) :
    scriptRow t = row ((scriptCells t).map Cell.print) := rfl

section Members

variable {t : ScriptType × Nat} (quotable : ∀ text ∈ t.1.texts, Quotable text)

include quotable

theorem plain_fieldCells {f : Field} (member : f ∈ t.1.fields) : ∀ c ∈ fieldCells f, c.Plain := by
  have own : ∀ text ∈ [f.name, f.getter, f.setter], Quotable text := fun text inside =>
    quotable text (List.mem_append_left _
      (List.mem_append_right _ (List.mem_flatMap.mpr ⟨f, member, inside⟩)))
  simp only [List.forall_mem_cons] at own
  obtain ⟨name, getter, setter, -⟩ := own
  simp only [fieldCells, List.forall_mem_cons]
  exact ⟨trivial, name, getter, setter, List.forall_mem_nil _⟩

theorem plain_methodCells {m : Method × Nat} (member : m ∈ t.1.methods.zipIdx) :
    ∀ c ∈ methodCells t.2 m, c.Plain := by
  have name : Quotable m.1.name := quotable m.1.name
    (List.mem_append_right _ (List.mem_map_of_mem (List.fst_mem_of_mem_zipIdx member)))
  simp only [methodCells, List.forall_mem_cons]
  exact ⟨name, plain_pointer _ _, trivial, trivial, List.forall_mem_nil _⟩

theorem plain_scriptCells : ∀ c ∈ scriptCells t, c.Plain := by
  have own : ∀ text ∈ [t.1.name, t.1.create, t.1.destroy], Quotable text := fun text inside =>
    quotable text (List.mem_append_left _ (List.mem_append_left _ inside))
  simp only [List.forall_mem_cons] at own
  obtain ⟨name, create, destroy, -⟩ := own
  simp only [scriptCells, List.forall_mem_cons]
  exact ⟨name, plain_pointer _ _, trivial, plain_pointer _ _, trivial, create, destroy, List.forall_mem_nil _⟩

/-! ### Tables -/

theorem declares_fields :
    Declares (if t.1.fields.isEmpty then [] else "" :: fieldTable t.2 t.1.fields)
      (filled [fieldArray t]) := by
  refine Declares.of_isEmpty (fun none => filled_eq_nil (by simp [fieldArray, none])) fun some => ?_
  rw [filled_eq_self (by simpa [fieldArray] using some)]
  exact (Declares.records (by decide) (ArrayName.fields t.2).isWord fieldRow_eq
    fun f member => plain_fieldCells quotable member).blank

omit quotable in
theorem declares_parameters (m : Method × Nat) :
    Declares (parameterTable t.2 m) (filled [parameterArray t.2 m]) := by
  refine Declares.of_isEmpty (fun none => filled_eq_nil (by simp [parameterArray, none]))
    fun some => ?_
  have printed : m.1.parameters.map tagText = (m.1.parameters.map tagCell).map Cell.print := by
    rw [List.map_map]
    exact List.map_congr_left fun type _ => (print_tagCell type).symm
  have rows : parameterArray t.2 m = ⟨"int", (ArrayName.parameters t.2 m.2).text,
      (m.1.parameters.map tagCell).map ([·])⟩ := by
    rw [List.map_map]
    rfl
  rw [printed, filled_eq_self (by simpa [parameterArray] using some), rows]
  refine Declares.line (ArrayName.parameters t.2 m.2).isWord fun c member => ?_
  obtain ⟨type, -, rfl⟩ := List.mem_map.mp member
  trivial

theorem declares_methods :
    Declares (if t.1.methods.isEmpty then [] else "" :: methodTable t.2 t.1.methods)
      (filled (t.1.methods.zipIdx.map (parameterArray t.2)) ++ filled [methodArray t]) := by
  refine Declares.of_isEmpty (fun none => ?_) fun some => ?_
  · rw [filled_eq_nil (by simp [methodArray, none]), none]
    rfl
  · rw [methodTable, List.map_eq_flatMap (f := parameterArray t.2), filled_flatMap,
      filled_eq_self (by simpa [methodArray] using some)]
    have parameters := Declares.flatMap fun m (_ : m ∈ t.1.methods.zipIdx) =>
      declares_parameters (t := t) m
    exact (parameters.append (Declares.records (by decide) (ArrayName.methods t.2).isWord
      (methodRow_eq t.2) fun m member => plain_methodCells quotable member)).blank

theorem declares_memberTables : Declares (memberTables t) (filled (memberArrays t)) := by
  have split : memberArrays t =
      [fieldArray t] ++ (t.1.methods.zipIdx.map (parameterArray t.2) ++ [methodArray t]) := rfl
  rw [memberTables, split, filled_append, filled_append]
  exact (declares_fields quotable).append (declares_methods quotable)

end Members

/-! ### Source files -/

section Types

variable {types : List ScriptType} (quotable : ∀ t ∈ types, ∀ text ∈ t.texts, Quotable text)

include quotable

theorem declares_scriptTable : Declares (scriptTable types) (filled [scriptArray types]) := by
  refine Declares.of_isEmpty (fun none => filled_eq_nil (by simp [scriptArray, none])) fun some => ?_
  rw [filled_eq_self (by simpa [scriptArray] using some)]
  exact (Declares.records (by decide) ArrayName.scripts.isWord scriptRow_eq fun t member =>
    plain_scriptCells (quotable t.1 (List.fst_mem_of_mem_zipIdx member))).blank

theorem declares_arrays :
    Declares (includeLine headerName :: types.zipIdx.flatMap memberTables ++ scriptTable types)
      (unitOf types).arrays := by
  rw [unitOf, filled_append, filled_flatMap]
  have members := Declares.flatMap fun t (member : t ∈ types.zipIdx) =>
    declares_memberTables (quotable t.1 (List.fst_mem_of_mem_zipIdx member))
  exact (Declares.inclusion.append members).append (declares_scriptTable quotable)

end Types

theorem lineLexemes_assignment {target : String} (named : IsWord target) {c : Cell}
    (plain : c.Plain) :
    lineLexemes ("\t*" ++ target ++ " = " ++ c.print ++ ";").toList =
      [.mark '*', .word target, .mark '=', c.lexeme, .mark ';'] := by
  have text : ("\t*" ++ target ++ " = " ++ c.print ++ ";").toList =
      '\t' :: '*' :: (target.toList ++ ' ' :: '=' :: ' ' :: (c.print.toList ++ [';'])) := by simp
  rw [text, lineLexemes_of_ne (by decide), lexemes_gap (by decide),
    lexemes_mark (by decide) (by decide) (by decide),
    lexemes_name named (breaks_cons (by decide) _), lexemes_gap (by decide),
    lexemes_mark (by decide) (by decide) (by decide), lexemes_gap (by decide),
    lexemes_print plain (breaks_cons (by decide) _),
    lexemes_mark (by decide) (by decide) (by decide), lexemes_nil]

theorem newline_not_mem_assignment {target : String} (named : IsWord target) {c : Cell}
    (plain : c.Plain) : '\n' ∉ ("\t*" ++ target ++ " = " ++ c.print ++ ";").toList := by
  have inTarget : '\n' ∉ target.toList := named.not_mem (by decide)
  simp [inTarget, newline_not_mem_print plain]

theorem entryPoint_eq (count : Nat) :
    entryPoint count = ["", signature, "\t*" ++ "count" ++ " = " ++ (Cell.number count).print ++ ";",
      "\t*" ++ "scripts" ++ " = " ++ (pointer .scripts count).print ++ ";", "\x7d"] := by
  have head : "extern \"C\" void " ++ Symbol.registration ++ parameters ++ " \x7b" = signature := by
    decide
  have first : "\t*" ++ "count" ++ " = " = "\t*count = " := by decide
  have second : "\t*" ++ "scripts" ++ " = " = "\t*scripts = " := by decide
  rw [entryPoint, head, first, second]
  rfl

theorem lexemes_entryPoint (count : Nat) :
    ((entryPoint count).flatMap fun line => lineLexemes line.toList) =
      entryPointLexemes (.number count) (pointer .scripts count) := by
  have head : lineLexemes signature.toList = lexemes signature.toList := if_neg (by decide)
  have close : lineLexemes "\x7d".toList = [.mark '\x7d'] := by
    rw [show "\x7d".toList = ['\x7d'] by decide, lineLexemes_of_ne (by decide),
      lexemes_mark (by decide) (by decide) (by decide), lexemes_nil]
  have blank : lineLexemes "".toList = [] := lineLexemes_nil
  rw [entryPoint_eq]
  simp only [List.flatMap_cons, List.flatMap_nil, blank, head,
    lineLexemes_assignment (by decide : IsWord "count") (plain_number count),
    lineLexemes_assignment (by decide : IsWord "scripts") (plain_pointer .scripts count), close]
  rfl

theorem newline_not_mem_entryPoint (count : Nat) :
    ∀ line ∈ entryPoint count, '\n' ∉ line.toList := by
  rw [entryPoint_eq]
  simp only [List.forall_mem_cons]
  exact ⟨by decide, by decide, newline_not_mem_assignment (by decide) (plain_number count),
    newline_not_mem_assignment (by decide) (plain_pointer .scripts count), by decide, nofun⟩

theorem of?_source {types : List ScriptType}
    (quotable : ∀ t ∈ types, ∀ text ∈ t.texts, Quotable text) :
    SourceUnit.of? (Registration.of types).source = some (unitOf types) := by
  have arrays := declares_arrays quotable
  have clear : ∀ line ∈ sourceLines types, '\n' ∉ line.toList := by
    intro line member
    rcases List.mem_append.mp member with front | last
    · exact arrays.clear line front
    · exact newline_not_mem_entryPoint types.length line last
  change unit? (sourceLexemes (unlines (sourceLines types))) = _
  -- The arrays are read in front of the entry point, which is then read alone.
  rw [sourceLexemes_unlines clear, sourceLines, List.flatMap_append, arrays.read,
    lexemes_entryPoint, unit?_entryPoint (plain_number _) (plain_pointer .scripts types.length),
    Option.map_some, SourceUnit.precededBy, List.append_nil]
  rfl

/-- Reading the source file gives a table without slack that is read as the types, and so is the
table that they are written to. -/
theorem source_agrees {types : List ScriptType}
    (quotable : ∀ t ∈ types, ∀ text ∈ t.texts, Quotable text)
    (encodable : ∀ t ∈ types, t.Encodable) (bound : types.length ≤ RawArray.maxLength) :
    ∃ unit table, SourceUnit.of? (Registration.of types).source = some unit ∧ unit.WellFormed ∧
      unit.table? = some table ∧ table.Exact ∧ table.decode = .ok types ∧
      ∃ written, Table.encode types = .ok written ∧ written.decode = .ok types := by
  obtain ⟨written, ok⟩ := Table.exists_encode_iff.mpr ⟨encodable, bound⟩
  exact ⟨unitOf types, .literal types, of?_source quotable, wellFormed_unitOf types,
    table?_unitOf encodable bound, Table.exact_literal encodable bound,
    Table.decode_literal encodable bound, written, ok, Table.decode_encode ok⟩

/-- A type with a member of each sort, whose texts look like code, and one without members. -/
def sensorTypes : List ScriptType :=
  [⟨"Sensor", [⟨.scalar .wide, "grad_°", "get, ", "// set"⟩, ⟨.unknown, "", "\x7d;", "#include "⟩],
      [⟨"sample", [.scalar .int, .void], .scalar .float⟩, ⟨"nullptr", [], .void⟩],
      "ns_fields_0", "\t\x7b 1 \x7d"⟩,
    .declared "Bare"]

theorem source_agrees_sensorTypes :
    (∀ t ∈ sensorTypes, ∀ text ∈ t.texts, Quotable text) ∧
    (∀ t ∈ sensorTypes, t.Encodable) ∧ sensorTypes.length ≤ RawArray.maxLength ∧
    ∃ unit table, SourceUnit.of? (Registration.of sensorTypes).source = some unit ∧
      unit.WellFormed ∧ unit.table? = some table ∧ table.Exact ∧ table.decode = .ok sensorTypes ∧
      ∃ written, Table.encode sensorTypes = .ok written ∧ written.decode = .ok sensorTypes := by
  have quotable : ∀ t ∈ sensorTypes, ∀ text ∈ t.texts, Quotable text := by decide
  have encodable : ∀ t ∈ sensorTypes, t.Encodable := by decide
  have bound : sensorTypes.length ≤ RawArray.maxLength := by decide
  exact ⟨quotable, encodable, bound, source_agrees quotable encodable bound⟩

end Registration

end ScriptGlue
