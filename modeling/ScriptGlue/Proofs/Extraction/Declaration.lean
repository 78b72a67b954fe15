import ScriptGlue.Proofs.Extraction.Accounting

/-!
# The rule of field declarations

What a field marker declares, said as a rule about the tokens behind it and not by how they are
searched: `FieldRule`. Extraction is what the rule says of every marker in every type
(`ofTokens_eq_iff`).
-/

namespace ScriptGlue

/-- The words that declare a type by themselves. -/
def FieldType.keywords : List (String × FieldType) :=
  [("int", .scalar .int), ("char", .scalar .char), ("bool", .scalar .bool),
   ("float", .scalar .float), ("double", .scalar .double), ("wchar_t", .scalar .wide),
   ("void", .void)]

/-- `behind` is what comes behind the argument list at the front of `tokens`, if there is one. -/
inductive BehindArguments : List Token → List Token → Prop
  | plain {tokens : List Token} (plain : ∀ t ∈ tokens.head?, t.kind ≠ .openParen) :
      BehindArguments tokens tokens
  | list {paren close : Token} {inside behind : List Token} (opens : paren.kind = .openParen)
      (nested : Nested (inside.map (·.kind))) (closes : close.kind = .closeParen) :
      BehindArguments (paren :: (inside ++ close :: behind)) behind

/-- `declaration` is what `tokens` have in front of the first that ends a declaration, but for
`const`. -/
def BeginsWith (tokens declaration left : List Token) : Prop :=
  ∃ read, tokens = read ++ left ∧ (∀ t ∈ read, Member.endsDeclaration t = false) ∧
    (∀ t ∈ left.head?, Member.endsDeclaration t) ∧ declaration = read.filter (·.kind ≠ .constWord)

/-- A keyword and a name come first. -/
def LedByKeyword (declaration : List Token) (word : Token) (type : FieldType) (name : Token) :
    Prop :=
  ∃ more, declaration = word :: name :: more ∧ word.kind = .identifier ∧
    name.kind = .identifier ∧ (word.lexeme, type) ∈ FieldType.keywords

/-- What a declaration declares: the tokens of the type, the type and the name. -/
inductive Names (declaration : List Token) : List Token → FieldType → Token → Prop
  | keyword {word name : Token} {type : FieldType} (led : LedByKeyword declaration word type name) :
      Names declaration [word] type name
  | last {front : List Token} {name : Token} (whole : declaration = front ++ [name])
      (typed : front ≠ []) (identifier : name.kind = .identifier)
      (other : ∀ word type name, ¬LedByKeyword declaration word type name) :
      Names declaration front .unknown name

/-- What a field marker makes of the tokens behind it: fields, complaints, and what is left. -/
inductive FieldRule (typeName : String) (marker : Token) (tokens : List Token) :
    List Field → List Diagnostic → List Token → Prop
  | unbalanced (never : ∀ behind, ¬BehindArguments tokens behind) :
      FieldRule typeName marker tokens [] [.malformedField typeName marker.span] []
  | field {behind declaration left typeTokens : List Token} {type : FieldType} {name : Token}
      (arguments : BehindArguments tokens behind) (begins : BeginsWith behind declaration left)
      (names : Names declaration typeTokens type name) :
      FieldRule typeName marker tokens [.declared typeName type name.lexeme]
        (if type.isAccessible then [] else
          [.unknownFieldType typeName name.lexeme (Declarator.spell typeTokens) name.span])
        left
  | malformed {behind declaration left : List Token} (arguments : BehindArguments tokens behind)
      (begins : BeginsWith behind declaration left)
      (never : ∀ typeTokens type name, ¬Names declaration typeTokens type name) :
      FieldRule typeName marker tokens [] [.malformedField typeName marker.span] left

/-- What the body of a type makes. -/
inductive BodyRule (typeName : String) : List Token → List Field → List Diagnostic → Prop
  | nil : BodyRule typeName [] [] []
  | field {marker : Token} {rest left : List Token} {fields laterFields : List Field}
      {complaints laterComplaints : List Diagnostic} (isField : marker.kind = .fieldMarker)
      (here : FieldRule typeName marker rest fields complaints left)
      (later : BodyRule typeName left laterFields laterComplaints) :
      BodyRule typeName (marker :: rest) (fields ++ laterFields) (complaints ++ laterComplaints)
  | method {marker : Token} {rest : List Token} {fields : List Field} {complaints : List Diagnostic}
      (isMethod : marker.kind = .methodMarker) (later : BodyRule typeName rest fields complaints) :
      BodyRule typeName (marker :: rest) fields (.methodIgnored typeName marker.span :: complaints)
  | other {t : Token} {rest : List Token} {fields : List Field} {complaints : List Diagnostic}
      (noField : t.kind ≠ .fieldMarker) (noMethod : t.kind ≠ .methodMarker)
      (later : BodyRule typeName rest fields complaints) :
      BodyRule typeName (t :: rest) fields complaints

/-- What a type marker makes, with the tokens up to the next type marker or the end. -/
inductive TypeRule (marker : Token) (stretch : List Token) : Extraction → Prop
  | missing (never : ∀ name body, ¬Declares stretch name body) :
      TypeRule marker stretch ⟨[], [.missingTypeName marker.span]⟩
  | type {name : Token} {body : List Token} {fields : List Field} {complaints : List Diagnostic}
      (declares : Declares stretch name body)
      (rule : BodyRule name.lexeme body fields complaints) :
      TypeRule marker stretch ⟨[{ ScriptType.declared name.lexeme with fields }], complaints⟩

/-! ### Keywords -/

theorem FieldType.ofKeyword_keywords : ∀ e ∈ keywords, e.2 ≠ .unknown ∧ ofKeyword e.1 = e.2 := by
  decide

theorem FieldType.mem_keywords_of_keyword? :
    ∀ type ∈ all, ∀ word ∈ type.keyword?, (word, type) ∈ keywords := by
  decide

theorem FieldType.mem_keywords_iff {word : String} {type : FieldType} :
    (word, type) ∈ keywords ↔ type ≠ .unknown ∧ ofKeyword word = type := by
  constructor
  · intro member
    exact ofKeyword_keywords _ member
  · rintro ⟨known, rfl⟩
    unfold ofKeyword at known ⊢
    cases found : all.find? (·.keyword? == some word) with
    | none =>
      rw [found] at known
      exact absurd rfl known
    | some type =>
      have spelled : type.keyword? = some word := by simpa using List.find?_some found
      exact mem_keywords_of_keyword? type (List.mem_of_find?_eq_some found) word spelled

theorem FieldType.ofKeyword_eq_unknown_iff {word : String} :
    ofKeyword word = .unknown ↔ ∀ type, (word, type) ∉ keywords := by
  constructor
  · intro unknown type member
    obtain ⟨known, rfl⟩ := mem_keywords_iff.mp member
    exact known unknown
  · intro absent
    by_contra known
    exact absent _ (mem_keywords_iff.mpr ⟨known, rfl⟩)

/-! ### One declaration -/

theorem LedByKeyword.type_eq {declaration : List Token} {word name : Token} {type : FieldType}
    (led : LedByKeyword declaration word type name) :
    (⟨name, [word]⟩ : Declarator).type = type := by
  obtain ⟨more, -, identifier, -, member⟩ := led
  exact (if_pos identifier).trans (FieldType.mem_keywords_iff.mp member).2

theorem LedByKeyword.leading? {declaration : List Token} {word name : Token} {type : FieldType}
    (led : LedByKeyword declaration word type name) :
    Declarator.ofTokens?.leading? declaration = some ⟨name, [word]⟩ := by
  obtain ⟨more, rfl, wordIdentifier, nameIdentifier, member⟩ := led
  obtain ⟨known, rfl⟩ := FieldType.mem_keywords_iff.mp member
  simp [Declarator.ofTokens?.leading?, wordIdentifier, nameIdentifier, known]

theorem Declarator.led_of_leading? {declaration : List Token} {d : Declarator}
    (leading : ofTokens?.leading? declaration = some d) :
    ∃ word, d.typeTokens = [word] ∧ LedByKeyword declaration word d.type d.name := by
  unfold ofTokens?.leading? at leading
  split at leading
  · rename_i word name more
    split at leading
    · rename_i keyword
      simp only [Bool.and_eq_true, decide_eq_true_eq] at keyword
      obtain ⟨⟨wordIdentifier, nameIdentifier⟩, known⟩ := keyword
      obtain rfl := Option.some.inj leading
      have type : (⟨name, [word]⟩ : Declarator).type = FieldType.ofKeyword word.lexeme :=
        if_pos wordIdentifier
      refine ⟨word, rfl, more, rfl, wordIdentifier, nameIdentifier, ?_⟩
      rw [type]
      exact FieldType.mem_keywords_iff.mpr ⟨known, rfl⟩
    · exact nomatch leading
  · exact nomatch leading

theorem Declarator.leading?_eq_none_iff {declaration : List Token} :
    ofTokens?.leading? declaration = none ↔
      ∀ word type name, ¬LedByKeyword declaration word type name := by
  constructor
  · intro none word type name led
    rw [led.leading?] at none
    exact nomatch none
  · intro other
    cases leading : ofTokens?.leading? declaration with
    | none => rfl
    | some d =>
      obtain ⟨word, -, led⟩ := led_of_leading? leading
      exact absurd led (other _ _ _)

/-- A single word in front of the name is no keyword if no keyword leads. -/
theorem Declarator.type_of_last {front : List Token} {name : Token}
    (identifier : name.kind = .identifier)
    (other : ∀ word type name', ¬LedByKeyword (front ++ [name]) word type name') :
    (⟨name, front⟩ : Declarator).type = .unknown := by
  unfold type
  split
  · rename_i word single
    obtain rfl : front = [word] := single
    split
    · rename_i wordIdentifier
      refine FieldType.ofKeyword_eq_unknown_iff.mpr fun type member => ?_
      exact other word type name ⟨[], rfl, wordIdentifier, identifier, member⟩
    · rfl
  · rfl

theorem names_iff {declaration typeTokens : List Token} {type : FieldType} {name : Token} :
    Names declaration typeTokens type name ↔
      Declarator.ofTokens? declaration = some ⟨name, typeTokens⟩ ∧
        type = (⟨name, typeTokens⟩ : Declarator).type := by
  unfold Declarator.ofTokens?
  constructor
  · intro names
    cases names with
    | keyword led => exact ⟨by rw [led.leading?], led.type_eq.symm⟩
    | last whole typed identifier other =>
      rw [Declarator.leading?_eq_none_iff.mpr other]
      subst whole
      refine ⟨?_, (Declarator.type_of_last identifier other).symm⟩
      obtain ⟨t, ts, rfl⟩ := List.exists_cons_of_ne_nil typed
      simp only [List.getLast?_concat, List.dropLast_concat, if_pos identifier]
  · rintro ⟨read, rfl⟩
    split at read
    · rename_i d leading
      obtain rfl := Option.some.inj read
      obtain ⟨word, single, led⟩ := Declarator.led_of_leading? leading
      obtain rfl : typeTokens = [word] := single
      exact .keyword led
    · rename_i leading
      have other := Declarator.leading?_eq_none_iff.mp leading
      split at read
      · rename_i last t ts found front
        split at read
        · rename_i identifier
          obtain ⟨rfl, rfl⟩ := Declarator.mk.inj (Option.some.inj read)
          have whole : declaration = t :: ts ++ [last] := by
            rw [← front]
            exact (List.dropLast_append_getLast? last found).symm
          rw [Declarator.type_of_last identifier (whole ▸ other)]
          exact .last whole (List.cons_ne_nil t ts) identifier other
        · exact nomatch read
      · exact nomatch read

/-! ### One marker -/

namespace Member

theorem afterArguments_eq_some_iff {tokens behind : List Token} :
    afterArguments tokens = some behind ↔ BehindArguments tokens behind := by
  constructor
  · intro after
    unfold afterArguments at after
    split at after
    · obtain rfl := Option.some.inj after
      exact .plain fun u head => absurd head (Option.not_mem_none u)
    · rename_i t rest
      split at after
      · rename_i opens
        obtain ⟨inside, close, rfl, nested, closes⟩ := closeParens_zero_eq_some_iff.mp after
        exact .list opens nested closes
      · rename_i plain
        obtain rfl := Option.some.inj after
        exact .plain fun u head => Option.some.inj head ▸ plain
  · intro arguments
    cases arguments with
    | plain plain => exact afterArguments_of_plain plain
    | list opens nested closes => exact afterArguments_closed opens nested closes behind

theorem afterArguments_eq_none_iff {tokens : List Token} :
    afterArguments tokens = none ↔ ∀ behind, ¬BehindArguments tokens behind := by
  simp only [← afterArguments_eq_some_iff, Option.eq_none_iff_forall_ne_some, ne_eq]

theorem beginsWith_iff {tokens declaration left : List Token} :
    BeginsWith tokens declaration left ↔
      declaration = (tokens.takeWhile (!endsDeclaration ·)).filter (·.kind ≠ .constWord) ∧
        left = tokens.dropWhile (!endsDeclaration ·) := by
  constructor
  · rintro ⟨read, rfl, free, ends, rfl⟩
    have continues : ∀ t ∈ read, (!endsDeclaration t) = true := by simpa using free
    have stops : left.takeWhile (!endsDeclaration ·) = [] ∧
        left.dropWhile (!endsDeclaration ·) = left := by
      cases left with
      | nil => exact ⟨rfl, rfl⟩
      | cons t rest => simp [ends t rfl]
    rw [List.takeWhile_append_of_pos continues, List.dropWhile_append_of_pos continues, stops.1,
      stops.2, List.append_nil]
    exact ⟨rfl, rfl⟩
  · rintro ⟨rfl, rfl⟩
    refine ⟨_, List.takeWhile_append_dropWhile.symm, fun t member => ?_, fun t head => ?_, rfl⟩
    · simpa using List.mem_takeWhile_imp member
    · have stopped := List.head?_dropWhile_not (!endsDeclaration ·) tokens
      rw [Option.mem_def.mp head] at stopped
      simpa using stopped

end Member

theorem Declarator.ofTokens?_eq_none_iff {declaration : List Token} :
    ofTokens? declaration = none ↔
      ∀ typeTokens type name, ¬Names declaration typeTokens type name := by
  simp only [names_iff, not_and, Option.eq_none_iff_forall_ne_some]
  exact ⟨fun none typeTokens type name read => absurd read (none _),
    fun never d read => never d.typeTokens d.type d.name read rfl⟩

theorem Member.toList_diagnostic?_field (typeName : String) (d : Declarator) :
    ((Member.field d).diagnostic? typeName).toList =
      if d.type.isAccessible then [] else
        [.unknownFieldType typeName d.name.lexeme (Declarator.spell d.typeTokens) d.name.span] := by
  rw [diagnostic?]
  split <;> rfl

/-- A field marker makes what the rule says, and nothing else. -/
theorem fieldRule_iff {typeName : String} {marker : Token} {tokens left : List Token}
    {fields : List Field} {complaints : List Diagnostic} :
    FieldRule typeName marker tokens fields complaints left ↔
      fields = ((Member.ofMarker marker.span tokens).1.field? typeName).toList ∧
      complaints = ((Member.ofMarker marker.span tokens).1.diagnostic? typeName).toList ∧
      left = (Member.ofMarker marker.span tokens).2 := by
  constructor
  · intro rule
    cases rule with
    | unbalanced never =>
      rw [Member.ofMarker, Member.afterArguments_eq_none_iff.mpr never]
      exact ⟨rfl, rfl, rfl⟩
    | field arguments begins names =>
      obtain ⟨rfl, rfl⟩ := Member.beginsWith_iff.mp begins
      obtain ⟨read, rfl⟩ := names_iff.mp names
      rw [Member.ofMarker_of_afterArguments (Member.afterArguments_eq_some_iff.mpr arguments),
        Member.ofDeclaration, read]
      exact ⟨rfl, (Member.toList_diagnostic?_field typeName _).symm, rfl⟩
    | malformed arguments begins never =>
      obtain ⟨rfl, rfl⟩ := Member.beginsWith_iff.mp begins
      rw [Member.ofMarker_of_afterArguments (Member.afterArguments_eq_some_iff.mpr arguments),
        Member.ofDeclaration, Declarator.ofTokens?_eq_none_iff.mpr never]
      exact ⟨rfl, rfl, rfl⟩
  · rintro ⟨rfl, rfl, rfl⟩
    cases after : Member.afterArguments tokens with
    | none =>
      rw [Member.ofMarker, after]
      exact .unbalanced (Member.afterArguments_eq_none_iff.mp after)
    | some behind =>
      have arguments := Member.afterArguments_eq_some_iff.mp after
      have begins : BeginsWith behind _ _ := Member.beginsWith_iff.mpr ⟨rfl, rfl⟩
      rw [Member.ofMarker_of_afterArguments after, Member.ofDeclaration]
      cases read : Declarator.ofTokens? _ with
      | none => exact .malformed arguments begins (Declarator.ofTokens?_eq_none_iff.mp read)
      | some d =>
        rw [Member.toList_diagnostic?_field]
        exact .field arguments begins (names_iff.mpr ⟨read, rfl⟩)

/-! ### Bodies and types -/

namespace Member

variable {t : Token} (rest : List Token)

theorem ofBody_fieldMarker (isField : t.kind = .fieldMarker) :
    ofBody (t :: rest) = (ofMarker t.span rest).1 :: ofBody (ofMarker t.span rest).2 := by
  rw [ofBody, isField]

theorem ofBody_methodMarker (isMethod : t.kind = .methodMarker) :
    ofBody (t :: rest) = .method t.span :: ofBody rest := by
  rw [ofBody, isMethod]

theorem ofBody_other (noField : t.kind ≠ .fieldMarker) (noMethod : t.kind ≠ .methodMarker) :
    ofBody (t :: rest) = ofBody rest := by
  rw [ofBody]
  split
  · rename_i isField
    exact absurd isField noField
  · rename_i isMethod
    exact absurd isMethod noMethod
  · rfl

end Member

theorem filterMap_cons_eq_append {α β : Type} (f : α → Option β) (a : α) (rest : List α) :
    (a :: rest).filterMap f = (f a).toList ++ rest.filterMap f := by
  rw [List.filterMap_cons]
  cases f a <;> rfl

theorem bodyRule_ofBody (typeName : String) (body : List Token) :
    BodyRule typeName body ((Member.ofBody body).filterMap (Member.field? typeName))
      ((Member.ofBody body).filterMap (Member.diagnostic? typeName)) := by
  fun_induction Member.ofBody body with
  | case1 => exact .nil
  | case2 t rest isField split ih =>
    rw [filterMap_cons_eq_append, filterMap_cons_eq_append]
    exact .field isField (fieldRule_iff.mpr ⟨rfl, rfl, rfl⟩) ih
  | case3 t rest isMethod ih => exact .method isMethod ih
  | case4 t rest noField noMethod ih => exact .other noField noMethod ih

theorem bodyRule_iff {typeName : String} {body : List Token} {fields : List Field}
    {complaints : List Diagnostic} :
    BodyRule typeName body fields complaints ↔
      fields = (Member.ofBody body).filterMap (Member.field? typeName) ∧
      complaints = (Member.ofBody body).filterMap (Member.diagnostic? typeName) := by
  constructor
  · intro rule
    induction rule with
    | nil =>
      rw [Member.ofBody]
      exact ⟨rfl, rfl⟩
    | @field marker rest left _ _ _ _ isField here _ ih =>
      obtain ⟨rfl, rfl, rfl⟩ := fieldRule_iff.mp here
      obtain ⟨rfl, rfl⟩ := ih
      rw [Member.ofBody_fieldMarker rest isField, filterMap_cons_eq_append,
        filterMap_cons_eq_append]
      exact ⟨rfl, rfl⟩
    | @method marker rest _ _ isMethod _ ih =>
      obtain ⟨rfl, rfl⟩ := ih
      rw [Member.ofBody_methodMarker rest isMethod]
      exact ⟨rfl, rfl⟩
    | @other t rest _ _ noField noMethod _ ih =>
      rwa [Member.ofBody_other rest noField noMethod]
  · rintro ⟨rfl, rfl⟩
    exact bodyRule_ofBody typeName body

theorem typeRule_iff {marker : Token} {stretch : List Token} {part : Extraction} :
    TypeRule marker stretch part ↔ Segment.extract ⟨marker.span, stretch⟩ = part := by
  cases declared : Segment.declaration? ⟨marker.span, stretch⟩ with
  | none =>
    have never : ∀ name body, ¬Declares stretch name body := by
      intro name body declares
      rw [Segment.declaration?_eq_some_iff.mpr declares] at declared
      exact nomatch declared
    rw [Segment.extract, declared]
    constructor
    · intro rule
      cases rule with
      | missing => rfl
      | type declares => exact absurd declares (never _ _)
    · rintro rfl
      exact .missing never
  | some found =>
    obtain ⟨name, body⟩ := found
    have declares : Declares stretch name body := Segment.declaration?_eq_some_iff.mp declared
    rw [Segment.extract, declared]
    constructor
    · intro rule
      cases rule with
      | missing never => exact absurd declares (never _ _)
      | @type name' body' _ _ declares' rule =>
        have same : Segment.declaration? ⟨marker.span, stretch⟩ = some (name', body') :=
          Segment.declaration?_eq_some_iff.mpr declares'
        obtain ⟨rfl, rfl⟩ := Prod.mk.inj (Option.some.inj (declared.symm.trans same))
        obtain ⟨rfl, rfl⟩ := bodyRule_iff.mp rule
        rfl
    · rintro rfl
      exact .type declares (bodyRule_ofBody name.lexeme body)

namespace Extraction
open Token (beforeEnd stretches)

/-- Every marker makes what the rule says: tokens are extracted as the rule says of each type marker
with what comes up to the next, and in its body of each field marker with the tokens behind it. A
field has a known type exactly if a keyword and an identifier lead its declaration. -/
theorem ofTokens_eq_iff (tokens : List Token) (found : Extraction) :
    (ofTokens tokens = found ↔
      ∃ parts, List.Forall₂ (fun s part => TypeRule s.1 s.2 part)
          (stretches (·.kind.isTypeMarker) (beforeEnd tokens)) parts ∧
        found = ⟨parts.flatMap (·.types), parts.flatMap (·.diagnostics)⟩) ∧
    ∀ declaration typeTokens type name, Names declaration typeTokens type name →
      (type ≠ .unknown ↔ ∃ word type name, LedByKeyword declaration word type name) := by
  refine ⟨?_, fun declaration typeTokens type name names => ?_⟩
  · have parts : ofTokens tokens =
        let parts := (stretches (·.kind.isTypeMarker) (beforeEnd tokens)).map fun s =>
          Segment.extract ⟨s.1.span, s.2⟩
        ⟨parts.flatMap (·.types), parts.flatMap (·.diagnostics)⟩ := by
      rw [ofTokens, Segment.all_eq_map, List.map_map]
      rfl
    simp only [typeRule_iff, ← List.forall₂_map_left_iff, List.forall₂_eq_eq_eq]
    rw [parts]
    constructor
    · rintro rfl
      exact ⟨_, rfl, rfl⟩
    · rintro ⟨_, rfl, rfl⟩
      rfl
  · cases names with
    | keyword led =>
      obtain ⟨more, -, -, -, member⟩ := id led
      exact iff_of_true (FieldType.mem_keywords_iff.mp member).1 ⟨_, _, _, led⟩
    | last whole typed identifier other =>
      refine iff_of_false (fun known => known rfl) ?_
      rintro ⟨word, type, name, led⟩
      exact other word type name led

/-- The keyword and the name in front decide, and without them the last word does. -/
example : (ofSource "UCLASS class A UPROPERTY int x, y; UPROPERTY(a(b)) unsigned const int z = 1").types.map
    (fun t => t.fields.map fun f => (f.type, f.name)) =
      [[(.scalar .int, "x"), (.unknown, "z")]] := by
  decide +kernel

end Extraction

end ScriptGlue
