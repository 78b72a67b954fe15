import ScriptGlue.Proofs.Token.Cut

/-!
# Words

A word is a letter or underscore followed by letters, digits and underscores; an identifier is one
that is not reserved. Every token of that kind has such a text (`isIdentifier_of_mem_tokens`).
-/

namespace ScriptGlue

/-- A text that is one word. -/
def IsWord (text : String) : Prop :=
  ∃ first rest, text.toList = first :: rest ∧ Piece.isWordStart first ∧
    ∀ c ∈ rest, Piece.isWordPart c

instance (text : String) : Decidable (IsWord text) :=
  decidable_of_iff (text.toList.head?.any Piece.isWordStart ∧
      text.toList.tail.all Piece.isWordPart) (by
    rw [List.all_eq_true]
    cases eq : text.toList with
    | nil => simp [IsWord, eq]
    | cons first rest =>
      exact ⟨fun ⟨start, parts⟩ => ⟨first, rest, eq, start, parts⟩,
        fun ⟨_, _, same, start, parts⟩ => by
          obtain ⟨rfl, rfl⟩ := List.cons.inj (eq.symm.trans same)
          exact ⟨start, parts⟩⟩)

/-- A word that is not reserved. -/
def IsIdentifier (text : String) : Prop :=
  IsWord text ∧ ∀ e ∈ Token.Kind.reserved, e.1 ≠ text

instance (text : String) : Decidable (IsIdentifier text) :=
  inferInstanceAs (Decidable (_ ∧ _))

theorem Piece.isWordPart_of_isWordStart {c : Char} (start : isWordStart c) : isWordPart c := by
  simp only [isWordStart, isWordPart, Bool.or_eq_true, Char.isAlphanum] at start ⊢
  rcases start with letter | underscore
  · exact .inl (.inl letter)
  · exact .inr underscore

namespace IsWord

variable {text : String}

theorem isWordPart (word : IsWord text) {c : Char} (member : c ∈ text.toList) :
    Piece.isWordPart c := by
  obtain ⟨first, rest, eq, start, parts⟩ := word
  rw [eq] at member
  rcases List.mem_cons.mp member with rfl | member
  · exact Piece.isWordPart_of_isWordStart start
  · exact parts c member

theorem not_mem (word : IsWord text) {c : Char} (other : Piece.isWordPart c = false) :
    c ∉ text.toList := by
  intro member
  rw [word.isWordPart member] at other
  exact nomatch other

theorem append {more : String} (word : IsWord text)
    (parts : ∀ c ∈ more.toList, Piece.isWordPart c) : IsWord (text ++ more) := by
  obtain ⟨first, rest, eq, start, continues⟩ := word
  refine ⟨first, rest ++ more.toList, by simp [eq], start, ?_⟩
  intro c member
  rcases List.mem_append.mp member with inside | behind
  · exact continues c inside
  · exact parts c behind

end IsWord

theorem Token.Kind.ofWord_cases (word : String) :
    (ofWord word = .identifier ∧ ∀ e ∈ reserved, e.1 ≠ word) ∨ (word, ofWord word) ∈ reserved := by
  unfold ofWord
  cases found : reserved.lookup word with
  | none =>
    have absent := List.lookup_eq_none_iff.mp found
    exact .inl ⟨rfl, fun e member same => absurd (absent e member) (by simp [same])⟩
  | some kind =>
    obtain ⟨before, after, whole, -⟩ := List.lookup_eq_some_iff.mp found
    exact .inr (by rw [whole]; simp)

theorem Token.Kind.ofWord_eq_identifier_iff {word : String} :
    ofWord word = .identifier ↔ ∀ e ∈ reserved, e.1 ≠ word := by
  have others : ∀ e ∈ reserved, e.2 ≠ .identifier := by decide
  rcases ofWord_cases word with ⟨identifier, free⟩ | member
  · exact iff_of_true identifier free
  · exact iff_of_false (others _ member) fun free => free _ member rfl

namespace Piece

theorem isIdentifier_of_leads {kind : Token.Kind} {text rest : List Char}
    (leads : Leads (.token kind text) rest) (identifier : kind = .identifier) :
    IsIdentifier (String.ofList text) := by
  cases leads with
  | literal => exact nomatch identifier
  | word start continues =>
    have word : IsWord (String.ofList (_ :: _)) := ⟨_, _, String.toList_ofList, start, continues⟩
    exact ⟨word, Token.Kind.ofWord_eq_identifier_iff.mp identifier⟩
  | punctuation known =>
    have others : ∀ e ∈ Token.Kind.punctuation, e.2 ≠ .identifier := by decide
    exact absurd identifier (others _ (mem_punctuation known))

theorem mem_of_mem_located {p : Position} {pieces : List Piece} {e : Position × Piece}
    (member : e ∈ located p pieces) : e.2 ∈ pieces := by
  induction pieces generalizing p with
  | nil => exact nomatch member
  | cons piece pieces ih =>
    rcases List.mem_cons.mp member with rfl | member
    · exact List.mem_cons_self
    · exact List.mem_cons_of_mem piece (ih member)

end Piece

/-- Every token but the end is the first piece of what it stands in front of. -/
theorem exists_leads_of_mem_tokens {source : String} {t : Token}
    (member : t ∈ (Scan.of source).tokens) (notLast : t.kind ≠ .endOfInput) :
    ∃ rest, Piece.Leads (.token t.kind t.lexeme.toList) rest := by
  rcases List.mem_append.mp member with found | last
  · obtain ⟨⟨p, piece⟩, located, eq⟩ := List.mem_filterMap.mp found
    cases piece with
    | token kind text =>
      obtain rfl := Option.some.inj eq
      rw [String.toList_ofList]
      exact (Piece.cut_all source.toList).2.leads_of_mem (Piece.mem_of_mem_located located)
    | trivia text => exact nomatch eq
    | openQuote text => exact nomatch eq
  · obtain rfl := List.mem_singleton.mp last
    exact absurd rfl notLast

theorem isIdentifier_of_mem_tokens {source : String} {t : Token}
    (member : t ∈ (Scan.of source).tokens) (identifier : t.kind = .identifier) :
    IsIdentifier t.lexeme := by
  have notLast : t.kind ≠ .endOfInput := identifier ▸ Token.Kind.noConfusion
  obtain ⟨rest, leads⟩ := exists_leads_of_mem_tokens member notLast
  rw [← String.ofList_toList (s := t.lexeme)]
  exact Piece.isIdentifier_of_leads leads identifier

theorem isWord_of_mem_tokens {source : String} {t : Token} (member : t ∈ (Scan.of source).tokens)
    (identifier : t.kind = .identifier) : IsWord t.lexeme :=
  (isIdentifier_of_mem_tokens member identifier).1

end ScriptGlue
