import ScriptGlue.Proofs.Extraction.Diagnosis
import ScriptGlue.Proofs.Table.Encoding
import ScriptGlue.Proofs.Token.Exact

/-!
# Faithful extraction

What is extracted from any source can be emitted as it is: its names are identifiers, so neither a
reserved word nor a character that needs an escape is among them, and only its size can keep it out
of a table. Each complaint about a field points at the name of that field (`ofSource_faithful`).
-/

namespace ScriptGlue

/-! ### Identifiers of a source -/

theorem holds_of_mem_tokens {source : String} {t : Token} (member : t ∈ (Scan.of source).tokens)
    (notLast : t.kind ≠ .endOfInput) : t.span.Holds source t.lexeme := by
  rcases List.mem_append.mp member with found | last
  · have whole : source = "" ++ Piece.join (Piece.all source.toList) := by
      rw [Piece.join_all, String.empty_append]
    exact (Scan.token_of_mem_located (Piece.cut_all source.toList).2 whole found).2.2
  · obtain rfl := List.mem_singleton.mp last
    exact absurd rfl notLast

namespace Extraction

theorem mem_tokens_of_mem_all {source : String} {s : Segment}
    (segment : s ∈ Segment.all ((Scan.of source).tokens.takeWhile (·.kind ≠ .endOfInput)))
    {t : Token} (inside : t ∈ s.tokens) : t ∈ (Scan.of source).tokens ∧ t.kind ≠ .endOfInput := by
  have early := Segment.mem_of_mem_all segment inside
  exact ⟨(List.takeWhile_prefix _).subset early, by simpa using List.mem_takeWhile_imp early⟩

theorem isIdentifier_of_mem_ofSource {source : String} {t : ScriptType}
    (member : t ∈ (ofSource source).types) :
    IsIdentifier t.name ∧ ∀ f ∈ t.fields, IsIdentifier f.name := by
  obtain ⟨part, found, inside⟩ := List.mem_flatMap.mp member
  obtain ⟨s, segment, rfl⟩ := List.mem_map.mp found
  have named : ∀ name ∈ t.name :: t.fields.map (·.name), IsIdentifier name := by
    intro name among
    obtain ⟨u, within, identifier, rfl⟩ := Segment.named_of_mem_extract inside name among
    exact isIdentifier_of_mem_tokens (mem_tokens_of_mem_all segment within).1 identifier
  obtain ⟨own, fields⟩ := List.forall_mem_cons.mp named
  exact ⟨own, fun f member => fields f.name (List.mem_map_of_mem member)⟩

end Extraction

/-! ### Size is the only fault -/

theorem RawText.faults_of_isWord {text : String} (word : IsWord text) (what : String) :
    faults what text = [] :=
  faults_eq_nil_iff.mpr (word.not_mem (by decide))

theorem RawArray.eq_of_mem_faults {what : String} {length : Nat} {e : TableError}
    (member : e ∈ faults what length) : e = .tooLarge what length := by
  unfold faults at member
  split at member
  · exact nomatch member
  · exact List.mem_singleton.mp member

theorem ScriptType.IsDeclared.tooLarge_of_mem_faults {t : ScriptType} (declared : t.IsDeclared)
    {e : TableError} (member : e ∈ t.faults) : ∃ what length, e = .tooLarge what length := by
  have identified := declared.isIdentified
  have fields : t.fields.flatMap Field.faults = [] := by
    rw [List.flatMap_eq_nil_iff]
    intro f inside
    obtain ⟨name, getter, setter⟩ := identified.fields f inside
    rw [Field.faults, RawText.faults_of_isWord name, RawText.faults_of_isWord getter,
      RawText.faults_of_isWord setter]
    rfl
  simp only [faults, fields, declared.methods, RawText.faults_of_isWord identified.name,
    RawText.faults_of_isWord identified.create, RawText.faults_of_isWord identified.destroy,
    List.flatMap_nil, List.nil_append, List.append_nil] at member
  rcases List.mem_append.mp member with fieldCount | methodCount
  · exact ⟨_, _, RawArray.eq_of_mem_faults fieldCount⟩
  · exact ⟨_, _, RawArray.eq_of_mem_faults methodCount⟩

theorem Table.tooLarge_of_encode {types : List ScriptType} (declared : ∀ t ∈ types, t.IsDeclared)
    {e : TableError} (fails : encode types = .error e) : ∃ what length, e = .tooLarge what length := by
  have first := List.mem_of_head? ((encode_stopsAt types e).mp fails)
  rcases List.mem_append.mp first with inside | count
  · obtain ⟨t, member, fault⟩ := List.mem_flatMap.mp inside
    exact (declared t member).tooLarge_of_mem_faults fault
  · exact ⟨_, _, RawArray.eq_of_mem_faults count⟩

/-! ### Complaints about fields -/

theorem FieldType.not_isAccessible (type : FieldType) :
    (!type.isAccessible) = decide (type = .unknown ∨ type = .void) := by
  cases type <;> simp [isAccessible, kind?]

theorem Segment.field_of_mem_extract {s : Segment} {typeName field declared : String} {span : Span}
    (member : .unknownFieldType typeName field declared span ∈ s.extract.diagnostics) :
    ∃ name body d, s.declaration? = some (name, body) ∧ name.lexeme = typeName ∧
      .field d ∈ Member.ofBody body ∧ d.name.lexeme = field ∧ d.name.span = span ∧
      d.typeText = declared := by
  rcases s.extract_cases with eq | ⟨name, body, declares, eq⟩
  · rw [eq] at member
    exact nomatch member
  · rw [eq] at member
    obtain ⟨m, found, complaint⟩ := List.mem_filterMap.mp member
    cases m with
    | field d =>
      rw [Member.diagnostic?, Option.ite_none_left_eq_some] at complaint
      obtain ⟨rfl, rfl, rfl, rfl⟩ := Diagnostic.unknownFieldType.inj (Option.some.inj complaint.2)
      exact ⟨name, body, d, declares, rfl, found, rfl, rfl, rfl⟩
    | malformed marker => simp [Member.diagnostic?] at complaint
    | method marker => simp [Member.diagnostic?] at complaint

namespace Extraction

/-- A field that a type of that name has in a source. -/
def DeclaresField (source typeName : String) (d : Declarator) : Prop :=
  ∃ s ∈ Segment.all ((Scan.of source).tokens.takeWhile (·.kind ≠ .endOfInput)), ∃ name body,
    s.declaration? = some (name, body) ∧ name.lexeme = typeName ∧ .field d ∈ Member.ofBody body

instance (source typeName : String) (d : Declarator) :
    Decidable (DeclaresField source typeName d) :=
  decidable_of_iff (∃ s ∈ Segment.all ((Scan.of source).tokens.takeWhile (·.kind ≠ .endOfInput)),
      ∃ declared ∈ s.declaration?, declared.1.lexeme = typeName ∧
        .field d ∈ Member.ofBody declared.2)
    (by simp only [DeclaresField, Prod.exists, Option.mem_def])

theorem DeclaresField.exists_read {source typeName : String} {d : Declarator}
    (declares : DeclaresField source typeName d) :
    ∃ read : List Token, (∀ t ∈ read, t ∈ (Scan.of source).tokens ∧ t.kind ≠ .endOfInput) ∧
      (∀ t ∈ read, Member.endsDeclaration t = false) ∧
      Declarator.ofTokens? (read.filter (·.kind ≠ .constWord)) = some d := by
  obtain ⟨s, segment, name, body, type, -, field⟩ := declares
  obtain ⟨-, -, within⟩ := Segment.identifier_of_declaration type
  obtain ⟨read, inBody, goesOn, found⟩ := Member.exists_read_of_mem_ofBody field
  exact ⟨read, fun t inside => mem_tokens_of_mem_all segment (within (inBody inside)), goesOn, found⟩

/-- What a complaint about a field says is said of a field of the source. -/
theorem field_of_mem_diagnostics {source typeName field declared : String} {span : Span}
    (member : .unknownFieldType typeName field declared span ∈ (ofSource source).diagnostics) :
    ∃ d, DeclaresField source typeName d ∧ d.name.lexeme = field ∧ d.name.span = span ∧
      d.typeText = declared := by
  rcases List.mem_append.mp member with scanned | extracted
  · have none := List.filterMap_eq_nil_iff.mp (Scan.unsupported_diagnostics source) _ scanned
    exact nomatch none
  · obtain ⟨part, found, inside⟩ := List.mem_flatMap.mp extracted
    obtain ⟨s, segment, rfl⟩ := List.mem_map.mp found
    obtain ⟨name, body, d, declares, type, inBody, said⟩ := Segment.field_of_mem_extract inside
    exact ⟨d, ⟨s, segment, name, body, declares, type, inBody⟩, said⟩

theorem holds_of_mem_diagnostics {source typeName field declared : String} {span : Span}
    (member : .unknownFieldType typeName field declared span ∈ (ofSource source).diagnostics) :
    span.Holds source field := by
  obtain ⟨d, declares, rfl, rfl, -⟩ := field_of_mem_diagnostics member
  obtain ⟨read, within, -, found⟩ := declares.exists_read
  obtain ⟨inside, -⟩ := Declarator.identifier_of_ofTokens? found
  obtain ⟨token, notLast⟩ := within _ (List.mem_filter.mp inside).1
  exact holds_of_mem_tokens token notLast

/-- Extraction from any source is faithful. All names are identifiers, all symbols are those of the
convention, and there are no methods, so the types are a table unless something is too large for one.
The fields that are complained about, in their order, are those of an unknown type or of none, and a
complaint covers the name of its field in the source. -/
theorem ofSource_faithful (source : String) :
    (∀ t ∈ (ofSource source).types, IsIdentifier t.name ∧ t.create = Symbol.create t.name ∧
      t.destroy = Symbol.destroy t.name ∧ t.methods = [] ∧ ∀ f ∈ t.fields, IsIdentifier f.name ∧
        f.getter = Symbol.getter t.name f.name ∧ f.setter = Symbol.setter t.name f.name) ∧
    (∀ e, Table.encode (ofSource source).types = .error e →
      ∃ what length, e = .tooLarge what length) ∧
    ((ofSource source).types.flatMap fun t =>
        (t.fields.filter fun f => f.type = .unknown ∨ f.type = .void).map fun f => (t.name, f.name)) =
      (ofSource source).diagnostics.filterMap Diagnostic.unsupported? ∧
    ∀ typeName field declared span,
      .unknownFieldType typeName field declared span ∈ (ofSource source).diagnostics →
        span.Holds source field := by
  refine ⟨fun t member => ?_, fun e fails => ?_, ?_, fun _ _ _ _ => holds_of_mem_diagnostics⟩
  · obtain ⟨name, fieldNames⟩ := isIdentifier_of_mem_ofSource member
    have declared := declared_of_mem_ofSource member
    refine ⟨name, declared.create, declared.destroy, declared.methods, fun f inside => ?_⟩
    have symbols := declared.fields f inside
    exact ⟨fieldNames f inside, congrArg Field.getter symbols, congrArg Field.setter symbols⟩
  · exact Table.tooLarge_of_encode (fun t member => declared_of_mem_ofSource member) fails
  · rw [unsupported_ofSource]
    refine List.flatMap_congr fun t _ => ?_
    simp only [ScriptType.unsupported, FieldType.not_isAccessible]

/-- A field of an unknown type is one of the type that declares it, and so is one of no type. -/
example : ofSource "UCLASS() class Bag \x7b UPROPERTY() Item* item; UPROPERTY() void none; \x7d;" =
    ⟨[((ScriptType.declared "Bag").pushField .unknown "item").pushField .void "none"],
      [.unknownFieldType "Bag" "item" "Item*" ⟨39, 43, 1, 40⟩,
        .unknownFieldType "Bag" "none" "void" ⟨62, 66, 1, 63⟩]⟩ := by
  decide +kernel

end Extraction

end ScriptGlue
