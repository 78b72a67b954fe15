import ScriptGlue.Proofs.Extraction.Naming

/-!
# Argument lists

When an argument list is closed, said without counting its parentheses: counting finds the one
parenthesis that closes what is nested (`closeParens_zero_eq_some_iff`). A list that is closed before
the next marker stays closed in the part of the tokens up to that marker (`LosesNoMarker.within`).
-/

namespace ScriptGlue

/-- Kinds of tokens among which every parenthesis has its partner. -/
inductive Nested : List Token.Kind → Prop
  | nil : Nested []
  | plain {kind : Token.Kind} {kinds : List Token.Kind} (opens : kind ≠ .openParen)
      (closes : kind ≠ .closeParen) (rest : Nested kinds) : Nested (kind :: kinds)
  | group {inside kinds : List Token.Kind} (inner : Nested inside) (rest : Nested kinds) :
      Nested (.openParen :: (inside ++ .closeParen :: kinds))

theorem Nested.append {a b : List Token.Kind} (first : Nested a) (second : Nested b) :
    Nested (a ++ b) := by
  induction first with
  | nil => exact second
  | plain opens closes _ ih => exact .plain opens closes ih
  | group inner _ _ ih =>
    rw [List.cons_append, List.append_assoc, List.cons_append]
    exact .group inner ih

namespace Member

/-! ### Closing parentheses -/

section Step

variable {t : Token} (depth : Nat) (rest : List Token)

theorem closeParens_open (opens : t.kind = .openParen) :
    closeParens depth (t :: rest) = closeParens (depth + 1) rest := by
  simp only [closeParens, opens]

theorem closeParens_last (closes : t.kind = .closeParen) :
    closeParens 0 (t :: rest) = some rest := by
  simp only [closeParens, closes]

theorem closeParens_close (closes : t.kind = .closeParen) :
    closeParens (depth + 1) (t :: rest) = closeParens depth rest := by
  simp only [closeParens, closes]

theorem closeParens_plain (opens : t.kind ≠ .openParen) (closes : t.kind ≠ .closeParen) :
    closeParens depth (t :: rest) = closeParens depth rest :=
  closeParens.eq_5 _ _ _ opens (fun kind => absurd kind closes) fun _ kind => absurd kind closes

end Step

theorem closeParens_nested {inside : List Token} (nested : Nested (inside.map (·.kind)))
    (depth : Nat) (rest : List Token) :
    closeParens depth (inside ++ rest) = closeParens depth rest := by
  generalize kinds : inside.map (·.kind) = ks at nested
  induction nested generalizing inside depth rest with
  | nil =>
    obtain rfl := List.map_eq_nil_iff.mp kinds
    rfl
  | plain opens closes _ ih =>
    obtain ⟨t, more, rfl, rfl, same⟩ := List.map_eq_cons_iff.mp kinds
    rw [List.cons_append, closeParens_plain _ _ opens closes, ih _ _ same]
  | group _ _ innerIH restIH =>
    obtain ⟨opening, tail, rfl, opens, whole⟩ := List.map_eq_cons_iff.mp kinds
    obtain ⟨inner, behind, rfl, innerSame, behindSame⟩ := List.map_eq_append_iff.mp whole
    obtain ⟨closing, more, rfl, closes, same⟩ := List.map_eq_cons_iff.mp behindSame
    rw [List.cons_append, List.append_assoc, List.cons_append, closeParens_open _ _ opens,
      innerIH _ _ innerSame, closeParens_close _ _ closes, restIH _ _ same]

/-- The first parenthesis that is closed from within stands behind what is nested; the others are
still to be closed behind it. -/
theorem exists_nested_of_closeParens {depth : Nat} {tokens rest : List Token}
    (closed : closeParens depth tokens = some rest) :
    ∃ inside close more, tokens = inside ++ close :: more ∧ Nested (inside.map (·.kind)) ∧
      close.kind = .closeParen ∧ (depth = 0 → more = rest) ∧
      ∀ d, depth = d + 1 → closeParens d more = some rest := by
  -- Behind a group the search goes on in what is left of the tail, so the induction is on lengths.
  induction size : tokens.length using Nat.strongRecOn generalizing depth tokens with
  | ind size ih =>
    cases tokens with
    | nil => exact nomatch closed
    | cons t tail =>
      obtain rfl := size
      by_cases opens : t.kind = .openParen
      · rw [closeParens_open _ _ opens] at closed
        obtain ⟨inner, close, more, rfl, nested, closes, -, outer⟩ :=
          ih tail.length (by simp) closed rfl
        obtain ⟨inside, last, behind, rfl, further, lastCloses, none, deeper⟩ :=
          ih more.length (by simp; omega) (outer depth rfl) rfl
        refine ⟨t :: (inner ++ close :: inside), last, behind, by simp, ?_, lastCloses, none, deeper⟩
        rw [List.map_cons, List.map_append, List.map_cons, opens, closes]
        exact .group nested further
      · by_cases closes : t.kind = .closeParen
        · refine ⟨[], t, tail, rfl, .nil, closes, ?_, ?_⟩
          · rintro rfl
            rw [closeParens_last _ closes] at closed
            exact Option.some.inj closed
          · rintro d rfl
            rwa [closeParens_close _ _ closes] at closed
        · rw [closeParens_plain _ _ opens closes] at closed
          obtain ⟨inside, close, more, rfl, nested, last, none, deeper⟩ :=
            ih tail.length (by simp) closed rfl
          exact ⟨t :: inside, close, more, rfl, .plain opens closes nested, last, none, deeper⟩

/-- Counting finds the parenthesis that stands behind what is nested. -/
theorem closeParens_zero_eq_some_iff {tokens rest : List Token} :
    closeParens 0 tokens = some rest ↔
      ∃ inside close, tokens = inside ++ close :: rest ∧ Nested (inside.map (·.kind)) ∧
        close.kind = .closeParen := by
  constructor
  · intro closed
    obtain ⟨inside, close, more, whole, nested, closes, none, -⟩ :=
      exists_nested_of_closeParens closed
    exact ⟨inside, close, none rfl ▸ whole, nested, closes⟩
  · rintro ⟨inside, close, rfl, nested, closes⟩
    rw [closeParens_nested nested, closeParens_last _ closes]

end Member

theorem nested_iff {kinds : List Token.Kind} : Nested kinds ↔
    Member.closeParens 0 ((kinds ++ [Token.Kind.closeParen]).map fun kind => ⟨kind, "", default⟩) =
      some [] := by
  rw [Member.closeParens_zero_eq_some_iff, List.map_append]
  constructor
  · intro nested
    refine ⟨_, _, rfl, ?_, rfl⟩
    simpa [Function.comp_def] using nested
  · rintro ⟨inside, close, same, nested, -⟩
    obtain ⟨rfl, -⟩ := List.append_inj' same rfl
    simpa [Function.comp_def] using nested

instance (kinds : List Token.Kind) : Decidable (Nested kinds) := decidable_of_iff _ nested_iff.symm

/-! ### Closed before the next marker -/

/-- Behind an open parenthesis: it is closed before any marker. -/
def ClosesFirst (tokens : List Token) : Prop :=
  ∃ inside close after, tokens = inside ++ close :: after ∧ Nested (inside.map (·.kind)) ∧
    close.kind = .closeParen ∧ ∀ t ∈ inside, t.kind.isMarker = false

/-- Every parenthesis right behind a field marker is closed before the next marker. -/
def ClosesArguments (tokens : List Token) : Prop :=
  ∀ marker paren rest, marker :: paren :: rest <:+ tokens → marker.kind = .fieldMarker →
    paren.kind = .openParen → ClosesFirst rest

theorem closesFirst_iff {tokens : List Token} :
    ClosesFirst tokens ↔
      (Member.closeParens 0 (tokens.takeWhile fun t => !t.kind.isMarker)).isSome := by
  rw [Option.isSome_iff_exists]
  constructor
  · rintro ⟨inside, close, after, rfl, nested, closes, free⟩
    refine ⟨after.takeWhile fun t => !t.kind.isMarker, ?_⟩
    have unmarked : close.kind.isMarker = false := by
      rw [closes]
      rfl
    rw [List.takeWhile_append_of_pos (by simpa using free),
      List.takeWhile_cons_of_pos (by simp [unmarked])]
    exact Member.closeParens_zero_eq_some_iff.mpr ⟨inside, close, rfl, nested, closes⟩
  · rintro ⟨rest, closed⟩
    obtain ⟨inside, close, whole, nested, closes⟩ := Member.closeParens_zero_eq_some_iff.mp closed
    refine ⟨inside, close, rest ++ tokens.dropWhile fun t => !t.kind.isMarker, ?_, nested, closes,
      fun t member => ?_⟩
    · rw [← List.cons_append, ← List.append_assoc, ← whole, List.takeWhile_append_dropWhile]
    · have front := List.mem_append_left (close :: rest) member
      rw [← whole] at front
      simpa using List.mem_takeWhile_imp front

instance (tokens : List Token) : Decidable (ClosesFirst tokens) :=
  decidable_of_iff _ closesFirst_iff.symm

instance (tokens : List Token) : Decidable (ClosesArguments tokens) :=
  decidable_of_iff (∀ tail ∈ tokens.tails, ∀ marker ∈ tail.head?, ∀ paren ∈ tail.tail.head?,
      marker.kind = .fieldMarker → paren.kind = .openParen → ClosesFirst tail.tail.tail) (by
    constructor
    · intro each marker paren rest suffix
      exact each _ ((List.mem_tails _ _).mpr suffix) marker rfl paren rfl
    · intro closes tail member marker head paren next
      obtain ⟨more, rfl⟩ := List.head?_eq_some_iff.mp head
      obtain ⟨rest, rfl⟩ := List.head?_eq_some_iff.mp next
      exact closes marker paren rest ((List.mem_tails _ _).mp member))

/-- What is left of closed argument lists where tokens are cut off: a list that is not closed has no
marker behind it. -/
def LosesNoMarker (tokens : List Token) : Prop :=
  ∀ marker paren rest, marker :: paren :: rest <:+ tokens → marker.kind = .fieldMarker →
    paren.kind = .openParen → ClosesFirst rest ∨ ∀ t ∈ rest, t.kind.isMarker = false

theorem ClosesArguments.losesNoMarker {tokens : List Token} (closes : ClosesArguments tokens) :
    LosesNoMarker tokens :=
  fun marker paren rest suffix isField opens => .inl (closes marker paren rest suffix isField opens)

theorem LosesNoMarker.within {tokens part : List Token} (loses : LosesNoMarker tokens)
    (within : part <:+: tokens) : LosesNoMarker part := by
  obtain ⟨before, after, rfl⟩ := within
  intro marker paren rest suffix isField opens
  have longer : marker :: paren :: (rest ++ after) <:+ before ++ part ++ after := by
    obtain ⟨front, rfl⟩ := suffix
    exact ⟨before ++ front, by simp⟩
  rcases loses marker paren _ longer isField opens with ⟨inside, close, more, whole, closed⟩ | none
  · obtain ⟨nested, closes, free⟩ := closed
    -- Cut off within the list, the part has no marker left; cut off behind it, it has the list.
    rcases List.append_eq_append_iff.mp whole with ⟨left, rfl, -⟩ | ⟨left, rfl, split⟩
    · exact .inr fun t member => free t (List.mem_append_left left member)
    · cases left with
      | nil => exact .inr fun t member => free t (by simpa using member)
      | cons u left =>
        obtain ⟨rfl, -⟩ := List.cons.inj split
        exact .inl ⟨inside, close, left, rfl, nested, closes, free⟩
  · exact .inr fun t member => none t (List.mem_append_left after member)

end ScriptGlue
