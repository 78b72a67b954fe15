import ScriptGlue.Extraction
import ScriptGlue.Proofs.Token.Word

/-!
# Names of extracted types

Every name that extraction takes from a source is an identifier of it, and every symbol is the one
that the convention gives: `declared_of_mem_ofSource`.
-/

namespace ScriptGlue

/-- A type all of whose names and symbols are words. -/
structure ScriptType.IsIdentified (t : ScriptType) : Prop where
  name : IsWord t.name
  create : IsWord t.create
  destroy : IsWord t.destroy
  fields : ∀ f ∈ t.fields, IsWord f.name ∧ IsWord f.getter ∧ IsWord f.setter

instance (t : ScriptType) : Decidable t.IsIdentified :=
  decidable_of_iff (IsWord t.name ∧ IsWord t.create ∧ IsWord t.destroy ∧
      ∀ f ∈ t.fields, IsWord f.name ∧ IsWord f.getter ∧ IsWord f.setter)
    ⟨fun ⟨name, create, destroy, fields⟩ => ⟨name, create, destroy, fields⟩,
      fun ⟨name, create, destroy, fields⟩ => ⟨name, create, destroy, fields⟩⟩

/-- A type whose names are words and whose symbols are those of the convention. -/
structure ScriptType.IsDeclared (t : ScriptType) : Prop where
  name : IsWord t.name
  create : t.create = Symbol.create t.name
  destroy : t.destroy = Symbol.destroy t.name
  methods : t.methods = []
  fieldNames : ∀ f ∈ t.fields, IsWord f.name
  fields : ∀ f ∈ t.fields, f = Field.declared t.name f.type f.name

/-! ### Symbols of the convention -/

theorem isWord_create {typeName : String} (word : IsWord typeName) :
    IsWord (Symbol.create typeName) := by
  have parts : "reate".toList.all Piece.isWordPart := rfl
  have create : IsWord "create" := ⟨'c', "reate".toList, rfl, rfl, List.all_eq_true.mp parts⟩
  exact create.append fun _ => word.isWordPart

theorem isWord_destroy {typeName : String} (word : IsWord typeName) :
    IsWord (Symbol.destroy typeName) := by
  have parts : "estroy".toList.all Piece.isWordPart := rfl
  have destroy : IsWord "destroy" := ⟨'d', "estroy".toList, rfl, rfl, List.all_eq_true.mp parts⟩
  exact destroy.append fun _ => word.isWordPart

theorem isWord_getter {typeName fieldName : String} (typeWord : IsWord typeName)
    (fieldWord : IsWord fieldName) : IsWord (Symbol.getter typeName fieldName) := by
  have parts : "_get_".toList.all Piece.isWordPart := rfl
  exact (typeWord.append (List.all_eq_true.mp parts)).append fun _ => fieldWord.isWordPart

theorem isWord_setter {typeName fieldName : String} (typeWord : IsWord typeName)
    (fieldWord : IsWord fieldName) : IsWord (Symbol.setter typeName fieldName) := by
  have parts : "_set_".toList.all Piece.isWordPart := rfl
  exact (typeWord.append (List.all_eq_true.mp parts)).append fun _ => fieldWord.isWordPart

theorem ScriptType.IsDeclared.isIdentified {t : ScriptType} (declared : t.IsDeclared) :
    t.IsIdentified where
  name := declared.name
  create := declared.create ▸ isWord_create declared.name
  destroy := declared.destroy ▸ isWord_destroy declared.name
  fields := by
    intro f member
    rw [declared.fields f member]
    have word := declared.fieldNames f member
    exact ⟨word, isWord_getter declared.name word, isWord_setter declared.name word⟩

/-! ### Identifiers of a declaration -/

namespace Declarator

theorem identifier_of_leading {tokens : List Token} {d : Declarator}
    (read : ofTokens?.leading? tokens = some d) :
    d.name ∈ tokens ∧ d.name.kind = .identifier := by
  unfold ofTokens?.leading? at read
  split at read
  · split at read
    · rename_i keyword
      simp only [Bool.and_eq_true, decide_eq_true_eq] at keyword
      obtain rfl := Option.some.inj read
      exact ⟨by simp, keyword.1.2⟩
    · exact nomatch read
  · exact nomatch read

theorem identifier_of_ofTokens? {tokens : List Token} {d : Declarator}
    (read : ofTokens? tokens = some d) : d.name ∈ tokens ∧ d.name.kind = .identifier := by
  unfold ofTokens? at read
  split at read
  · rename_i leading
    obtain rfl := Option.some.inj read
    exact identifier_of_leading leading
  · split at read
    · rename_i name _ _ last _
      split at read
      · rename_i identifier
        obtain rfl := Option.some.inj read
        exact ⟨List.mem_of_getLast? last, identifier⟩
      · exact nomatch read
    · exact nomatch read

end Declarator

namespace Member

theorem closeParens_suffix {depth : Nat} {tokens rest : List Token}
    (closed : closeParens depth tokens = some rest) : rest <:+ tokens := by
  fun_induction closeParens depth tokens with
  | case1 => cases closed
  | case3 => cases closed; exact List.suffix_cons _ _
  | case2 _ _ _ _ ih => exact (ih closed).trans (List.suffix_cons _ _)
  | case4 _ _ _ _ ih => exact (ih closed).trans (List.suffix_cons _ _)
  | case5 _ _ _ _ _ _ ih => exact (ih closed).trans (List.suffix_cons _ _)

theorem afterArguments_suffix {tokens rest : List Token}
    (after : afterArguments tokens = some rest) : rest <:+ tokens := by
  unfold afterArguments at after
  split at after
  · obtain rfl := Option.some.inj after
    exact List.suffix_rfl
  · split at after
    · exact (closeParens_suffix after).trans (List.suffix_cons _ _)
    · obtain rfl := Option.some.inj after
      exact List.suffix_rfl

theorem ofMarker_suffix (marker : Span) (tokens : List Token) :
    (ofMarker marker tokens).2 <:+ tokens := by
  unfold ofMarker
  split
  · exact List.nil_suffix
  · rename_i after
    exact (List.dropWhile_suffix _).trans (afterArguments_suffix after)

theorem exists_read_of_ofMarker {marker : Span} {tokens : List Token} {d : Declarator}
    (declares : (ofMarker marker tokens).1 = .field d) :
    ∃ read, read ⊆ tokens ∧ (∀ t ∈ read, endsDeclaration t = false) ∧
      Declarator.ofTokens? (read.filter (·.kind ≠ .constWord)) = some d := by
  unfold ofMarker at declares
  split at declares
  · exact nomatch declares
  · rename_i rest after
    simp only [ofDeclaration] at declares
    split at declares
    · rename_i d' found
      obtain rfl := Member.field.inj declares
      refine ⟨rest.takeWhile (!endsDeclaration ·), fun t inside => ?_, fun t inside => ?_, found⟩
      · exact (afterArguments_suffix after).subset ((List.takeWhile_prefix _).subset inside)
      · simpa using List.mem_takeWhile_imp inside
    · exact nomatch declares

theorem exists_read_of_mem_ofBody {body : List Token} {d : Declarator}
    (member : .field d ∈ ofBody body) :
    ∃ read, read ⊆ body ∧ (∀ t ∈ read, endsDeclaration t = false) ∧
      Declarator.ofTokens? (read.filter (·.kind ≠ .constWord)) = some d := by
  fun_induction ofBody body with
  | case1 => exact nomatch member
  | case2 t rest _ split ih =>
    rcases List.mem_cons.mp member with here | later
    · obtain ⟨read, within, found⟩ := exists_read_of_ofMarker here.symm
      exact ⟨read, List.subset_cons_of_subset t within, found⟩
    · obtain ⟨read, within, found⟩ := ih later
      have behind := List.Subset.trans within (ofMarker_suffix _ _).subset
      exact ⟨read, List.subset_cons_of_subset t behind, found⟩
  | case3 t rest _ ih =>
    rcases List.mem_cons.mp member with here | later
    · exact nomatch here
    · obtain ⟨read, within, found⟩ := ih later
      exact ⟨read, List.subset_cons_of_subset t within, found⟩
  | case4 t rest _ _ ih =>
    obtain ⟨read, within, found⟩ := ih member
    exact ⟨read, List.subset_cons_of_subset t within, found⟩

theorem identifier_of_mem_ofBody {body : List Token} {d : Declarator}
    (member : .field d ∈ ofBody body) : d.name ∈ body ∧ d.name.kind = .identifier := by
  obtain ⟨read, within, -, found⟩ := exists_read_of_mem_ofBody member
  obtain ⟨inside, identifier⟩ := Declarator.identifier_of_ofTokens? found
  exact ⟨within (List.mem_filter.mp inside).1, identifier⟩

end Member

namespace Segment

theorem mem_of_mem_all {tokens : List Token} {s : Segment} (member : s ∈ all tokens) {t : Token}
    (inside : t ∈ s.tokens) : t ∈ tokens := by
  fun_induction all tokens with
  | case1 => exact nomatch member
  | case2 u rest marker ih =>
    rcases List.mem_cons.mp member with rfl | later
    · exact List.mem_cons_of_mem u ((List.takeWhile_prefix _).subset inside)
    · exact List.mem_cons_of_mem u (ih later)
  | case3 u rest _ ih => exact List.mem_cons_of_mem u (ih member)

theorem identifier_of_declaration {s : Segment} {name : Token} {body : List Token}
    (declares : s.declaration? = some (name, body)) :
    name.kind = .identifier ∧ name ∈ s.tokens ∧ body ⊆ s.tokens := by
  unfold declaration? at declares
  split at declares
  · rename_i keyword name' body' eq
    split at declares
    · rename_i identifier
      obtain ⟨rfl, rfl⟩ := Prod.mk.inj (Option.some.inj declares)
      have suffix := List.dropWhile_suffix (fun t => !t.kind.isTypeKeyword) (l := s.tokens)
      rw [eq] at suffix
      exact ⟨identifier, suffix.subset (by simp), fun t inside => suffix.subset (by simp [inside])⟩
    · exact nomatch declares
  · exact nomatch declares

theorem extract_cases (s : Segment) :
    (s.extract = ⟨[], [.missingTypeName s.marker]⟩) ∨
    (∃ name body, s.declaration? = some (name, body) ∧
      s.extract = ⟨[{ ScriptType.declared name.lexeme with
          fields := (Member.ofBody body).filterMap (Member.field? name.lexeme) }],
        (Member.ofBody body).filterMap (Member.diagnostic? name.lexeme)⟩) := by
  unfold extract
  split
  · exact .inl rfl
  · rename_i name body declares
    exact .inr ⟨name, body, declares, rfl⟩

end Segment

theorem Member.field?_eq_some_iff {typeName : String} {m : Member} {f : Field} :
    m.field? typeName = some f ↔
      ∃ d, m = .field d ∧ f = Field.declared typeName d.type d.name.lexeme := by
  cases m <;> simp [Member.field?, eq_comm]

theorem Segment.named_of_mem_extract {s : Segment} {t : ScriptType} (member : t ∈ s.extract.types) :
    ∀ name ∈ t.name :: t.fields.map (·.name),
      ∃ u ∈ s.tokens, u.kind = .identifier ∧ u.lexeme = name := by
  rcases s.extract_cases with eq | ⟨name, body, declares, eq⟩
  · rw [eq] at member
    exact nomatch member
  · rw [eq] at member
    obtain rfl := List.mem_singleton.mp member
    obtain ⟨identifier, inside, within⟩ := identifier_of_declaration declares
    refine List.forall_mem_cons.mpr ⟨⟨name, inside, identifier, rfl⟩, ?_⟩
    intro field member
    obtain ⟨f, declared, rfl⟩ := List.mem_map.mp member
    obtain ⟨m, found, eq⟩ := List.mem_filterMap.mp declared
    obtain ⟨d, rfl, rfl⟩ := Member.field?_eq_some_iff.mp eq
    obtain ⟨inBody, named⟩ := Member.identifier_of_mem_ofBody found
    exact ⟨d.name, within inBody, named, rfl⟩

theorem declared_of_mem_extract {s : Segment} {t : ScriptType} (member : t ∈ s.extract.types)
    (words : ∀ u ∈ s.tokens, u.kind = .identifier → IsWord u.lexeme) : t.IsDeclared := by
  have named : ∀ name ∈ t.name :: t.fields.map (·.name), IsWord name := by
    intro name among
    obtain ⟨u, inside, identifier, rfl⟩ := Segment.named_of_mem_extract member name among
    exact words u inside identifier
  obtain ⟨own, fieldNames⟩ := List.forall_mem_cons.mp named
  rcases s.extract_cases with eq | ⟨name, body, -, eq⟩
  · rw [eq] at member
    exact nomatch member
  · rw [eq] at member
    obtain rfl := List.mem_singleton.mp member
    refine ⟨own, rfl, rfl, rfl, fun f inside => fieldNames f.name (List.mem_map_of_mem inside), ?_⟩
    intro f inside
    obtain ⟨m, -, eq⟩ := List.mem_filterMap.mp inside
    obtain ⟨d, -, rfl⟩ := Member.field?_eq_some_iff.mp eq
    rfl

theorem declared_of_mem_ofSource {source : String} {t : ScriptType}
    (member : t ∈ (Extraction.ofSource source).types) : t.IsDeclared := by
  obtain ⟨part, found, inside⟩ := List.mem_flatMap.mp member
  obtain ⟨s, segment, rfl⟩ := List.mem_map.mp found
  apply declared_of_mem_extract inside
  intro u within identifier
  have token := (List.takeWhile_prefix _).subset (Segment.mem_of_mem_all segment within)
  exact isWord_of_mem_tokens token identifier

end ScriptGlue
