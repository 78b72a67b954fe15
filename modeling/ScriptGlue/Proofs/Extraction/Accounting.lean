import ScriptGlue.Proofs.Extraction.Arguments
import Mathlib.Data.List.Forall2

/-!
# No annotation is lost

Every type marker makes a type or a complaint, and where argument lists are closed so does every
marker in the body of a type: a body is read stretch by stretch, each from its marker to the next
(`Member.ofBody_eq_map`). Complaints come in the order of the tokens they are about.
-/

namespace ScriptGlue

/-! ### Stretches -/

/-- The tokens that `p` picks out, each with the tokens up to the next of them. -/
def Token.stretches (p : Token → Bool) : List Token → List (Token × List Token)
  | [] => []
  | t :: rest =>
    if p t then (t, rest.takeWhile (!p ·)) :: stretches p rest else stretches p rest

namespace Token

variable {p : Token → Bool} {t : Token} {rest tokens : List Token}

theorem stretches_cons_of_pos (picked : p t) :
    stretches p (t :: rest) = (t, rest.takeWhile (!p ·)) :: stretches p rest := if_pos picked

theorem stretches_cons_of_neg (free : p t = false) :
    stretches p (t :: rest) = stretches p rest := if_neg (by simp [free])

theorem stretches_append_of_free {front : List Token} (free : ∀ t ∈ front, p t = false)
    (rest : List Token) : stretches p (front ++ rest) = stretches p rest := by
  induction front with
  | nil => rfl
  | cons t front ih =>
    rw [List.cons_append, stretches_cons_of_neg (free t List.mem_cons_self),
      ih fun u member => free u (List.mem_cons_of_mem t member)]

theorem stretches_of_free (free : ∀ t ∈ tokens, p t = false) : stretches p tokens = [] := by
  rw [← List.append_nil tokens, stretches_append_of_free free]
  rfl

theorem stretches_dropWhile {q : Token → Bool} (free : ∀ t, q t → p t = false)
    (tokens : List Token) : stretches p (tokens.dropWhile q) = stretches p tokens := by
  have front : ∀ t ∈ tokens.takeWhile q, p t = false :=
    fun t member => free t (List.mem_takeWhile_imp member)
  rw [← stretches_append_of_free front, List.takeWhile_append_dropWhile]

theorem length_stretches (p : Token → Bool) (tokens : List Token) :
    (stretches p tokens).length = tokens.countP p := by
  induction tokens with
  | nil => rfl
  | cons t rest ih =>
    by_cases picked : p t
    · rw [stretches_cons_of_pos picked, List.length_cons, ih, List.countP_cons_of_pos picked]
    · rw [stretches_cons_of_neg (by simpa using picked), ih, List.countP_cons_of_neg picked]

theorem flatMap_stretches (p : Token → Bool) (tokens : List Token) :
    (stretches p tokens).flatMap (fun s => s.1 :: s.2) = tokens.dropWhile (!p ·) := by
  induction tokens with
  | nil => rfl
  | cons t rest ih =>
    by_cases picked : p t
    · rw [stretches_cons_of_pos picked, List.flatMap_cons, ih, List.cons_append,
        List.takeWhile_append_dropWhile, List.dropWhile_cons_of_neg (by simpa using picked)]
    · rw [stretches_cons_of_neg (by simpa using picked), ih,
        List.dropWhile_cons_of_pos (by simpa using picked)]

theorem of_mem_stretches {s : Token × List Token} (member : s ∈ stretches p tokens) :
    p s.1 ∧ (∀ t ∈ s.2, p t = false) ∧ s.1 :: s.2 <:+: tokens := by
  induction tokens with
  | nil => exact nomatch member
  | cons t rest ih =>
    by_cases picked : p t
    · rw [stretches_cons_of_pos picked] at member
      rcases List.mem_cons.mp member with rfl | later
      · refine ⟨picked, fun u inside => by simpa using List.mem_takeWhile_imp inside, ?_⟩
        exact (List.cons_prefix_cons.mpr ⟨rfl, List.takeWhile_prefix _⟩).isInfix
      · obtain ⟨first, free, within⟩ := ih later
        exact ⟨first, free, within.trans (List.suffix_cons _ _).isInfix⟩
    · rw [stretches_cons_of_neg (by simpa using picked)] at member
      obtain ⟨first, free, within⟩ := ih member
      exact ⟨first, free, within.trans (List.suffix_cons _ _).isInfix⟩

end Token

open Token (stretches)

/-! ### Members of a body -/

namespace Member

theorem unmarked_of_not_endsDeclaration (t : Token) (inside : !endsDeclaration t) :
    t.kind.isMarker = false := by
  simp only [endsDeclaration, Bool.not_or, Bool.and_eq_true, Bool.not_eq_true'] at inside
  exact inside.1.1.1

theorem takeWhile_declaration (tokens : List Token) :
    (tokens.takeWhile (!·.kind.isMarker)).takeWhile (!endsDeclaration ·) =
      tokens.takeWhile (!endsDeclaration ·) := by
  have first (t : Token) : (!endsDeclaration t && !t.kind.isMarker) = !endsDeclaration t := by
    cases inside : !endsDeclaration t
    · rfl
    · simp [unmarked_of_not_endsDeclaration t inside]
  rw [List.takeWhile_takeWhile]
  simp only [← Bool.and_eq_true, Bool.decide_eq_true, first]

theorem ofMarker_of_afterArguments {tokens after : List Token}
    (arguments : afterArguments tokens = some after) (span : Span) :
    ofMarker span tokens = (ofDeclaration span (after.takeWhile (!endsDeclaration ·)),
      after.dropWhile (!endsDeclaration ·)) := by
  rw [ofMarker, arguments]

theorem afterArguments_of_plain {tokens : List Token}
    (plain : ∀ t ∈ tokens.head?, t.kind ≠ .openParen) : afterArguments tokens = some tokens := by
  cases tokens with
  | nil => rfl
  | cons t rest => exact if_neg (plain t rfl)

theorem afterArguments_closed {paren close : Token} {inside : List Token}
    (opens : paren.kind = .openParen) (nested : Nested (inside.map (·.kind)))
    (closes : close.kind = .closeParen) (after : List Token) :
    afterArguments (paren :: (inside ++ close :: after)) = some after := by
  rw [afterArguments, if_pos opens]
  exact closeParens_zero_eq_some_iff.mpr ⟨inside, close, rfl, nested, closes⟩

/-- Neither the member of a marker nor what comes behind it depends on what the next marker begins,
and no marker is left out. -/
theorem ofMarker_takeWhile (span : Span) {tokens : List Token}
    (loses : ∀ paren ∈ tokens.head?, paren.kind = .openParen →
      ClosesFirst tokens.tail ∨ ∀ t ∈ tokens.tail, t.kind.isMarker = false) :
    (ofMarker span (tokens.takeWhile (!·.kind.isMarker))).1 = (ofMarker span tokens).1 ∧
      stretches (·.kind.isMarker) (ofMarker span tokens).2 =
        stretches (·.kind.isMarker) tokens := by
  have left (after : List Token) :
      stretches (·.kind.isMarker) (after.dropWhile (!endsDeclaration ·)) =
        stretches (·.kind.isMarker) after :=
    Token.stretches_dropWhile unmarked_of_not_endsDeclaration after
  by_cases opened : ∃ paren ∈ tokens.head?, paren.kind = .openParen
  · -- A list that is closed in time is closed in front of the cut, and if it is not, nothing is cut.
    obtain ⟨paren, head, opens⟩ := opened
    obtain ⟨rest, rfl⟩ := List.head?_eq_some_iff.mp head
    have unmarked : paren.kind.isMarker = false := by
      rw [opens]
      rfl
    rcases loses paren rfl opens with ⟨inside, close, after, rest, nested, closes, free⟩ | free
    · obtain rfl : _ = inside ++ close :: after := rest
      have closed : close.kind.isMarker = false := by
        rw [closes]
        rfl
      have front : (paren :: (inside ++ close :: after)).takeWhile (!·.kind.isMarker) =
          paren :: (inside ++ close :: after.takeWhile (!·.kind.isMarker)) := by
        rw [List.takeWhile_cons_of_pos (by simp [unmarked]),
          List.takeWhile_append_of_pos (by simpa using free),
          List.takeWhile_cons_of_pos (by simp [closed])]
      rw [front, ofMarker_of_afterArguments (afterArguments_closed opens nested closes _),
        ofMarker_of_afterArguments (afterArguments_closed opens nested closes _),
        takeWhile_declaration]
      refine ⟨rfl, (left after).trans ?_⟩
      rw [Token.stretches_cons_of_neg unmarked, Token.stretches_append_of_free free,
        Token.stretches_cons_of_neg closed]
    · have all : ∀ t ∈ paren :: rest, t.kind.isMarker = false :=
        List.forall_mem_cons.mpr ⟨unmarked, free⟩
      have whole : (paren :: rest).takeWhile (!·.kind.isMarker) = paren :: rest :=
        List.takeWhile_eq_self_iff.mpr (by simpa using all)
      refine ⟨by rw [whole], ?_⟩
      rw [Token.stretches_of_free all, Token.stretches_of_free]
      exact fun t member => all t ((ofMarker_suffix span _).subset member)
  · have plain : ∀ t ∈ tokens.head?, t.kind ≠ .openParen :=
      fun t head opens => opened ⟨t, head, opens⟩
    have front : ∀ t ∈ (tokens.takeWhile (!·.kind.isMarker)).head?, t.kind ≠ .openParen := by
      intro t head
      obtain ⟨more, same⟩ := List.head?_eq_some_iff.mp head
      have first : tokens.head? = some t := by
        rw [← List.takeWhile_append_dropWhile (p := (!·.kind.isMarker)) (l := tokens), same]
        rfl
      exact plain t first
    rw [ofMarker_of_afterArguments (afterArguments_of_plain plain),
      ofMarker_of_afterArguments (afterArguments_of_plain front), takeWhile_declaration]
    exact ⟨rfl, left tokens⟩

/-- The member that a marker makes of the tokens up to the next. -/
def ofStretch (s : Token × List Token) : Member :=
  if s.1.kind = .fieldMarker then (ofMarker s.1.span s.2).1 else .method s.1.span

/-- Each marker of a body makes one member, of the tokens up to the next marker. -/
theorem ofBody_eq_map {body : List Token} (plain : ∀ t ∈ body, t.kind.isTypeMarker = false)
    (loses : LosesNoMarker body) :
    ofBody body = (stretches (·.kind.isMarker) body).map ofStretch := by
  fun_induction ofBody body with
  | case1 => rfl
  | case2 t rest kind split ih =>
    have left := (ofMarker_suffix t.span rest).trans (List.suffix_cons t rest)
    have marker : t.kind.isMarker := by
      rw [kind]
      rfl
    have arguments : ∀ paren ∈ rest.head?, paren.kind = .openParen →
        ClosesFirst rest.tail ∨ ∀ u ∈ rest.tail, u.kind.isMarker = false := by
      intro paren head opens
      obtain ⟨more, rfl⟩ := List.head?_eq_some_iff.mp head
      exact loses t paren more List.suffix_rfl kind opens
    obtain ⟨same, later⟩ := ofMarker_takeWhile t.span arguments
    rw [ih (fun u member => plain u (left.subset member)) (loses.within left.isInfix),
      Token.stretches_cons_of_pos marker, List.map_cons, ofStretch, if_pos kind, same, later]
  | case3 t rest kind ih =>
    have left := List.suffix_cons t rest
    have marker : t.kind.isMarker := by
      rw [kind]
      rfl
    have other : ¬t.kind = .fieldMarker := by
      rw [kind]
      exact Token.Kind.noConfusion
    rw [ih (fun u member => plain u (left.subset member)) (loses.within left.isInfix),
      Token.stretches_cons_of_pos marker, List.map_cons, ofStretch, if_neg other]
  | case4 t rest noField noMethod ih =>
    have left := List.suffix_cons t rest
    have unmarked : t.kind.isMarker = false := by
      have noType := plain t List.mem_cons_self
      cases kind : t.kind <;> simp_all [Token.Kind.isMarker, Token.Kind.isTypeMarker]
    rw [ih (fun u member => plain u (left.subset member)) (loses.within left.isInfix),
      Token.stretches_cons_of_neg unmarked]

end Member

/-! ### Outcomes -/

/-- What a marker in the body of a type yields, with the tokens up to the next marker: one field that
is named there, with a complaint if no accessor can carry it, or one complaint about the marker. -/
inductive Yields (typeName : String) (marker : Token) (stretch : List Token) :
    List Field → List Diagnostic → Prop
  | field {name : Token} {type : FieldType} (isField : marker.kind = .fieldMarker)
      (inside : name ∈ stretch) (identifier : name.kind = .identifier)
      (accessible : type.isAccessible) :
      Yields typeName marker stretch [.declared typeName type name.lexeme] []
  | unsupported {name : Token} {type : FieldType} (isField : marker.kind = .fieldMarker)
      (inside : name ∈ stretch) (identifier : name.kind = .identifier)
      (inaccessible : type.isAccessible = false) (declared : String) :
      Yields typeName marker stretch [.declared typeName type name.lexeme]
        [.unknownFieldType typeName name.lexeme declared name.span]
  | malformed (isField : marker.kind = .fieldMarker) :
      Yields typeName marker stretch [] [.malformedField typeName marker.span]
  | method (isMethod : marker.kind = .methodMarker) :
      Yields typeName marker stretch [] [.methodIgnored typeName marker.span]

/-- The first `class` or `struct` of some tokens has `name` behind it, and then `body`. -/
def Declares (tokens : List Token) (name : Token) (body : List Token) : Prop :=
  ∃ front keyword, tokens = front ++ keyword :: name :: body ∧
    (∀ t ∈ front, t.kind.isTypeKeyword = false) ∧ keyword.kind.isTypeKeyword ∧
    name.kind = .identifier

/-- What a type marker yields, with the tokens up to the next type marker: a complaint that no name
is declared, or one type, with all that the markers in its body yield. -/
inductive Accounts (marker : Token) (stretch : List Token) : Extraction → Prop
  | missing (isType : marker.kind.isTypeMarker) (none : ∀ name body, ¬Declares stretch name body) :
      Accounts marker stretch ⟨[], [.missingTypeName marker.span]⟩
  | type {name : Token} {body : List Token} {yields : List (List Field × List Diagnostic)}
      (declares : Declares stretch name body)
      (each : List.Forall₂ (fun s yield => Yields name.lexeme s.1 s.2 yield.1 yield.2)
        (stretches (·.kind.isMarker) body) yields) :
      Accounts marker stretch
        ⟨[{ ScriptType.declared name.lexeme with fields := yields.flatMap (·.1) }],
          yields.flatMap (·.2)⟩

/-- A field marker makes a field that is named in what is read for it, or a complaint. -/
theorem Member.ofMarker_cases (marker : Span) (tokens : List Token) :
    ∃ read, tokens = read ++ (ofMarker marker tokens).2 ∧
      ((ofMarker marker tokens).1 = .malformed marker ∨
        ∃ d, (ofMarker marker tokens).1 = .field d ∧ d.name ∈ read ∧ d.name.kind = .identifier) := by
  unfold ofMarker
  split
  · exact ⟨tokens, (List.append_nil tokens).symm, .inl rfl⟩
  · rename_i rest after
    obtain ⟨arguments, rfl⟩ := afterArguments_suffix after
    refine ⟨arguments ++ rest.takeWhile (!endsDeclaration ·), ?_, ?_⟩
    · rw [List.append_assoc, List.takeWhile_append_dropWhile]
    · unfold ofDeclaration
      split
      · rename_i d read
        obtain ⟨inside, identifier⟩ := Declarator.identifier_of_ofTokens? read
        exact .inr ⟨d, rfl, List.mem_append_right _ (List.mem_filter.mp inside).1, identifier⟩
      · exact .inl rfl

theorem Member.yields_ofStretch (typeName : String) {s : Token × List Token}
    (marker : s.1.kind.isMarker) (noType : s.1.kind.isTypeMarker = false) :
    Yields typeName s.1 s.2 ((ofStretch s).field? typeName).toList
      ((ofStretch s).diagnostic? typeName).toList := by
  unfold ofStretch
  split
  · rename_i isField
    obtain ⟨read, whole, made | ⟨d, made, named, identifier⟩⟩ := ofMarker_cases s.1.span s.2
    · rw [made]
      exact .malformed isField
    · have inside : d.name ∈ s.2 := whole ▸ List.mem_append_left _ named
      rw [made]
      cases accessible : d.type.isAccessible with
      | true =>
        simp only [field?, diagnostic?, accessible, if_true]
        exact .field isField inside identifier accessible
      | false =>
        simp only [field?, diagnostic?, accessible, Bool.false_eq_true, if_false]
        exact .unsupported isField inside identifier accessible _
  · rename_i noField
    have isMethod : s.1.kind = .methodMarker := by
      cases kind : s.1.kind <;> simp_all [Token.Kind.isMarker, Token.Kind.isTypeMarker]
    exact .method isMethod

namespace Segment

theorem all_eq_map (tokens : List Token) :
    all tokens = (stretches (·.kind.isTypeMarker) tokens).map fun s => ⟨s.1.span, s.2⟩ := by
  induction tokens with
  | nil => rfl
  | cons t rest ih =>
    rw [all, ih]
    by_cases marker : t.kind.isTypeMarker
    · rw [if_pos marker, Token.stretches_cons_of_pos marker, List.map_cons]
    · rw [if_neg marker, Token.stretches_cons_of_neg (by simpa using marker)]

theorem declaration?_eq_some_iff {s : Segment} {name : Token} {body : List Token} :
    s.declaration? = some (name, body) ↔ Declares s.tokens name body := by
  constructor
  · intro declares
    unfold declaration? at declares
    split at declares
    · rename_i keyword name' body' rest
      split at declares
      · rename_i identifier
        obtain ⟨rfl, rfl⟩ := Prod.mk.inj (Option.some.inj declares)
        have stops := List.head?_dropWhile_not (!·.kind.isTypeKeyword) s.tokens
        rw [rest] at stops
        refine ⟨s.tokens.takeWhile (!·.kind.isTypeKeyword), keyword, ?_, fun t member => ?_,
          by simpa using stops, identifier⟩
        · rw [← rest, List.takeWhile_append_dropWhile]
        · simpa using List.mem_takeWhile_imp member
      · exact nomatch declares
    · exact nomatch declares
  · rintro ⟨front, keyword, whole, free, isKeyword, identifier⟩
    have rest : s.tokens.dropWhile (!·.kind.isTypeKeyword) = keyword :: name :: body := by
      rw [whole, List.dropWhile_append_of_pos (by simpa using free),
        List.dropWhile_cons_of_neg (by simpa using isKeyword)]
    simp only [declaration?, rest, if_pos identifier]

theorem extract_accounts {marker : Token} {stretch : List Token}
    (isType : marker.kind.isTypeMarker) (plain : ∀ t ∈ stretch, t.kind.isTypeMarker = false)
    (loses : LosesNoMarker stretch) :
    Accounts marker stretch (extract ⟨marker.span, stretch⟩) := by
  cases declared : declaration? ⟨marker.span, stretch⟩ with
  | none =>
    have found : extract ⟨marker.span, stretch⟩ = ⟨[], [.missingTypeName marker.span]⟩ := by
      rw [extract, declared]
    rw [found]
    refine .missing isType fun name body declares => ?_
    rw [declaration?_eq_some_iff.mpr declares] at declared
    exact nomatch declared
  | some found =>
    obtain ⟨name, body⟩ := found
    have declares : Declares stretch name body := declaration?_eq_some_iff.mp declared
    have within : body <:+ stretch := by
      obtain ⟨front, keyword, rfl, -⟩ := declares
      exact ⟨front ++ [keyword, name], by simp⟩
    have noType : ∀ t ∈ body, t.kind.isTypeMarker = false :=
      fun t member => plain t (within.subset member)
    have members := Member.ofBody_eq_map noType (loses.within within.isInfix)
    let yields := (stretches (·.kind.isMarker) body).map fun s =>
      (((Member.ofStretch s).field? name.lexeme).toList,
        ((Member.ofStretch s).diagnostic? name.lexeme).toList)
    have made : extract ⟨marker.span, stretch⟩ =
        ⟨[{ ScriptType.declared name.lexeme with fields := yields.flatMap (·.1) }],
          yields.flatMap (·.2)⟩ := by
      rw [extract, declared]
      simp only [yields, members, List.filterMap_eq_flatMap_toList, List.flatMap_map]
    rw [made]
    refine .type declares (List.forall₂_map_right_iff.mpr (List.forall₂_same.mpr fun s member => ?_))
    obtain ⟨picked, -, inside⟩ := Token.of_mem_stretches member
    exact Member.yields_ofStretch name.lexeme picked (noType s.1 (inside.subset List.mem_cons_self))

end Segment

/-! ### Order of complaints -/

def Diagnostic.isMissingTypeName : Diagnostic → Bool
  | missingTypeName _ => true
  | _ => false

/-- The token that a complaint of extraction is about: a marker, or the name of a field. -/
def Diagnostic.PointsAt : Diagnostic → Token → Prop
  | unterminatedString _, _ => False
  | missingTypeName span, t => t.kind.isTypeMarker ∧ t.span = span
  | unknownFieldType _ field _ span, t => t.kind = .identifier ∧ t.lexeme = field ∧ t.span = span
  | malformedField _ span, t => t.kind = .fieldMarker ∧ t.span = span
  | methodIgnored _ span, t => t.kind = .methodMarker ∧ t.span = span

/-- Complaints are about some of the tokens, each about another, and come in their order. -/
def PointInOrder (diagnostics : List Diagnostic) (tokens : List Token) : Prop :=
  ∃ pointed, pointed.Sublist tokens ∧ List.Forall₂ Diagnostic.PointsAt diagnostics pointed

theorem PointInOrder.flatMap {parts : List (Token × List Token)} {β : Type}
    {complaints : β → List Diagnostic} {made : List β}
    (each : List.Forall₂ (fun s m => PointInOrder (complaints m) (s.1 :: s.2)) parts made) :
    PointInOrder (made.flatMap complaints) (parts.flatMap fun s => s.1 :: s.2) := by
  induction each with
  | nil => exact ⟨[], List.Sublist.refl _, .nil⟩
  | cons first _ ih =>
    obtain ⟨here, within, points⟩ := first
    obtain ⟨later, behind, others⟩ := ih
    exact ⟨here ++ later, within.append behind, List.rel_append points others⟩

theorem PointInOrder.mono {diagnostics : List Diagnostic} {part tokens : List Token}
    (ordered : PointInOrder diagnostics part) (within : part.Sublist tokens) :
    PointInOrder diagnostics tokens := by
  obtain ⟨pointed, inside, points⟩ := ordered
  exact ⟨pointed, inside.trans within, points⟩

theorem Token.flatMap_stretches_sublist (p : Token → Bool) (tokens : List Token) :
    ((stretches p tokens).flatMap fun s => s.1 :: s.2).Sublist tokens := by
  rw [flatMap_stretches]
  exact List.dropWhile_sublist _

theorem Yields.pointInOrder {typeName : String} {marker : Token} {stretch : List Token}
    {fields : List Field} {diagnostics : List Diagnostic}
    (yields : Yields typeName marker stretch fields diagnostics) :
    PointInOrder diagnostics (marker :: stretch) := by
  cases yields with
  | field => exact ⟨[], List.nil_sublist _, .nil⟩
  | @unsupported name _ _ inside identifier =>
    have within : [name].Sublist (marker :: stretch) :=
      List.singleton_sublist.mpr (List.mem_cons_of_mem marker inside)
    exact ⟨[name], within, .cons ⟨identifier, rfl, rfl⟩ .nil⟩
  | malformed isField =>
    exact ⟨[marker], List.singleton_sublist.mpr List.mem_cons_self, .cons ⟨isField, rfl⟩ .nil⟩
  | method isMethod =>
    exact ⟨[marker], List.singleton_sublist.mpr List.mem_cons_self, .cons ⟨isMethod, rfl⟩ .nil⟩

theorem Accounts.pointInOrder {marker : Token} {stretch : List Token} {part : Extraction}
    (accounts : Accounts marker stretch part) :
    PointInOrder part.diagnostics (marker :: stretch) := by
  cases accounts with
  | missing isType =>
    exact ⟨[marker], List.singleton_sublist.mpr List.mem_cons_self, .cons ⟨isType, rfl⟩ .nil⟩
  | @type name body yields declares each =>
    have inBody : PointInOrder (yields.flatMap (·.2)) body :=
      (PointInOrder.flatMap (each.imp fun _ _ yields => yields.pointInOrder)).mono
        (Token.flatMap_stretches_sublist _ body)
    obtain ⟨front, keyword, rfl, -⟩ := declares
    refine inBody.mono ?_
    exact (List.suffix_append (marker :: front ++ [keyword, name]) body).sublist.trans (by simp)

/-! ### Accounts of all tokens -/

def Token.beforeEnd (tokens : List Token) : List Token := tokens.takeWhile (·.kind ≠ .endOfInput)

theorem Segment.one_for_marker (s : Segment) :
    s.extract.types.length + s.extract.diagnostics.countP (·.isMissingTypeName) = 1 := by
  rcases s.extract_cases with eq | ⟨name, body, -, eq⟩
  · rw [eq]
    rfl
  · have members : ((Member.ofBody body).filterMap (Member.diagnostic? name.lexeme)).countP
        (·.isMissingTypeName) = 0 := by
      rw [List.countP_eq_zero]
      intro d member
      obtain ⟨m, -, complaint⟩ := List.mem_filterMap.mp member
      unfold Member.diagnostic? at complaint
      split at complaint
      · split at complaint
        · exact nomatch complaint
        · obtain rfl := Option.some.inj complaint
          exact Bool.noConfusion
      · obtain rfl := Option.some.inj complaint
        exact Bool.noConfusion
      · obtain rfl := Option.some.inj complaint
        exact Bool.noConfusion
    rw [eq]
    exact congrArg (1 + ·) members

namespace Extraction
open Token (beforeEnd)

theorem length_types_add_countP (tokens : List Token) :
    (ofTokens tokens).types.length + (ofTokens tokens).diagnostics.countP (·.isMissingTypeName) =
      (beforeEnd tokens).countP (·.kind.isTypeMarker) := by
  have each (segments : List Segment) :
      ((segments.map Segment.extract).flatMap (·.types)).length +
        ((segments.map Segment.extract).flatMap (·.diagnostics)).countP (·.isMissingTypeName) =
        segments.length := by
    induction segments with
    | nil => rfl
    | cons s segments ih =>
      have one := s.one_for_marker
      simp only [List.map_cons, List.flatMap_cons, List.length_append, List.countP_append,
        List.length_cons]
      omega
  rw [ofTokens, each, Segment.all_eq_map, List.length_map, Token.length_stretches]
  rfl

theorem exists_accounts {tokens : List Token} (closes : ClosesArguments tokens) :
    ∃ parts, List.Forall₂ (fun s part => Accounts s.1 s.2 part)
        (stretches (·.kind.isTypeMarker) (beforeEnd tokens)) parts ∧
      (ofTokens tokens).types = parts.flatMap (·.types) ∧
      (ofTokens tokens).diagnostics = parts.flatMap (·.diagnostics) := by
  refine ⟨(stretches (·.kind.isTypeMarker) (beforeEnd tokens)).map fun s =>
    Segment.extract ⟨s.1.span, s.2⟩, ?_, ?_, ?_⟩
  · refine List.forall₂_map_right_iff.mpr (List.forall₂_same.mpr fun s member => ?_)
    obtain ⟨isType, plain, within⟩ := Token.of_mem_stretches member
    have inside : s.2 <:+: tokens :=
      (List.suffix_cons s.1 s.2).isInfix.trans (within.trans (List.takeWhile_prefix _).isInfix)
    exact Segment.extract_accounts isType plain (closes.losesNoMarker.within inside)
  · rw [ofTokens, Segment.all_eq_map, List.map_map]
    rfl
  · rw [ofTokens, Segment.all_eq_map, List.map_map]
    rfl

/-- No annotation is lost. There are as many types and missing names as type markers. Where argument
lists are closed, every marker of the tokens is accounted for, the markers in the body of a type one
by one, and the complaints come in the order of the tokens they are about. -/
theorem ofTokens_accounts (tokens : List Token) :
    (ofTokens tokens).types.length + (ofTokens tokens).diagnostics.countP (·.isMissingTypeName) =
      (beforeEnd tokens).countP (·.kind.isTypeMarker) ∧
    (ClosesArguments tokens →
      (∃ parts, List.Forall₂ (fun s part => Accounts s.1 s.2 part)
          (stretches (·.kind.isTypeMarker) (beforeEnd tokens)) parts ∧
        (ofTokens tokens).types = parts.flatMap (·.types) ∧
        (ofTokens tokens).diagnostics = parts.flatMap (·.diagnostics)) ∧
      PointInOrder (ofTokens tokens).diagnostics (beforeEnd tokens)) := by
  refine ⟨length_types_add_countP tokens, fun closes => ⟨exists_accounts closes, ?_⟩⟩
  obtain ⟨parts, each, -, diagnostics⟩ := exists_accounts closes
  rw [diagnostics]
  exact (PointInOrder.flatMap (each.imp fun _ _ accounts => accounts.pointInOrder)).mono
    (Token.flatMap_stretches_sublist _ _)

/-- A field with parentheses among its arguments, a method, a field without accessors, a field marker
and a type marker without a declaration, and a type behind the end. -/
def annotatedTokens : List Token :=
  [(.typeMarker, "UCLASS"), (.classWord, "class"), (.identifier, "Lamp"),
    (.fieldMarker, "UPROPERTY"), (.openParen, "("), (.openParen, "("), (.closeParen, ")"),
    (.closeParen, ")"), (.identifier, "float"), (.identifier, "level"), (.semicolon, ";"),
    (.methodMarker, "UFUNCTION"), (.fieldMarker, "UPROPERTY"), (.identifier, "size_t"),
    (.identifier, "count"), (.fieldMarker, "UPROPERTY"), (.closeBrace, "\x7d"),
    (.aggregateMarker, "USTRUCT"), (.endOfInput, "EOF"), (.typeMarker, "UCLASS")].zipIdx.map
      fun e => ⟨e.1.1, e.1.2, ⟨e.2, e.2 + 1, 1, e.2 + 1⟩⟩

theorem ofTokens_accounts_annotatedTokens :
    ClosesArguments annotatedTokens ∧
    (beforeEnd annotatedTokens).countP (·.kind.isTypeMarker) = 2 ∧
    (ofTokens annotatedTokens).types.length +
      (ofTokens annotatedTokens).diagnostics.countP (·.isMissingTypeName) = 2 ∧
    (∃ parts, List.Forall₂ (fun s part => Accounts s.1 s.2 part)
        (stretches (·.kind.isTypeMarker) (beforeEnd annotatedTokens)) parts ∧
      [(ScriptType.declared "Lamp").pushField (.scalar .float) "level"
        |>.pushField .unknown "count"] = parts.flatMap (·.types) ∧
      [.methodIgnored "Lamp" ⟨11, 12, 1, 12⟩,
        .unknownFieldType "Lamp" "count" "size_t" ⟨14, 15, 1, 15⟩,
        .malformedField "Lamp" ⟨15, 16, 1, 16⟩,
        .missingTypeName ⟨17, 18, 1, 18⟩] = parts.flatMap (·.diagnostics)) ∧
    PointInOrder (ofTokens annotatedTokens).diagnostics (beforeEnd annotatedTokens) := by
  have closes : ClosesArguments annotatedTokens := by decide +kernel
  have markers : (beforeEnd annotatedTokens).countP (·.kind.isTypeMarker) = 2 := by decide +kernel
  obtain ⟨count, accounts⟩ := ofTokens_accounts annotatedTokens
  obtain ⟨⟨parts, each, types, diagnostics⟩, ordered⟩ := accounts closes
  exact ⟨closes, markers, count.trans markers,
    ⟨parts, each, .trans (by decide +kernel) types, .trans (by decide +kernel) diagnostics⟩, ordered⟩

end Extraction

end ScriptGlue
