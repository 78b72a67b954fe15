import ScriptGlue.Proofs.Extraction.Arguments
import ScriptGlue.Proofs.Extraction.Walk

/-!
# Inert tokens

Some tokens declare nothing wherever they stand: `Inert`. A semicolon or a right brace leaves the
walk in a state that takes them as it takes the end (`Walk.run_inert`), so behind one they change
neither the types nor the complaints (`ofTokens_append_inert`).
-/

namespace ScriptGlue

/-- Kinds of tokens that begin nothing: there is no marker and no type keyword, and every parenthesis
has its partner. -/
structure Idle (kinds : List Token.Kind) : Prop where
  plain : ∀ kind ∈ kinds, ¬kind.isMarker ∧ ¬kind.isTypeKeyword ∧ kind ≠ .endOfInput
  nested : Nested kinds

/-- Kinds of tokens that declare nothing: they begin nothing, and a declaration in front of them
would end in a parenthesis. -/
structure Inert (kinds : List Token.Kind) : Prop extends Idle kinds where
  front : ∃ before rest, kinds = before ++ .closeParen :: .openBrace :: rest ∧
    ∀ kind ∈ before, kind ≠ .semicolon ∧ kind ≠ .equals ∧ kind ≠ .openBrace

theorem Idle.nil : Idle [] := ⟨nofun, .nil⟩

theorem Idle.append {a b : List Token.Kind} (first : Idle a) (second : Idle b) : Idle (a ++ b) where
  plain := List.forall_mem_append.mpr ⟨first.plain, second.plain⟩
  nested := first.nested.append second.nested

theorem Inert.append {a b : List Token.Kind} (first : Inert a) (second : Idle b) :
    Inert (a ++ b) where
  toIdle := first.toIdle.append second
  front := by
    obtain ⟨before, rest, rfl, free⟩ := first.front
    exact ⟨before, rest ++ b, by simp, free⟩

instance (kinds : List Token.Kind) : Decidable (Idle kinds) :=
  decidable_of_iff ((∀ kind ∈ kinds, ¬kind.isMarker ∧ ¬kind.isTypeKeyword ∧ kind ≠ .endOfInput) ∧
      Nested kinds)
    ⟨fun ⟨plain, nested⟩ => ⟨plain, nested⟩, fun ⟨plain, nested⟩ => ⟨plain, nested⟩⟩

/-! ### Reading on -/

namespace Declarator

theorem leading?_append {read : List Token} {last : Token} (other : last.kind ≠ .identifier)
    (more : List Token) :
    ofTokens?.leading? (read ++ [last] ++ more) = ofTokens?.leading? (read ++ [last]) := by
  match read with
  | [] =>
    cases more with
    | nil => rfl
    | cons t more => exact if_neg (by simp [other])
  | [_] => rfl
  | _ :: _ :: _ => rfl

theorem ofTokens?_concat {read : List Token} {last : Token} (other : last.kind ≠ .identifier) :
    ofTokens? (read ++ [last]) = ofTokens?.leading? (read ++ [last]) := by
  unfold ofTokens?
  cases ofTokens?.leading? (read ++ [last]) with
  | some d => rfl
  | none =>
    simp only [List.getLast?_concat, List.dropLast_concat]
    split
    · rename_i name t ts same
      obtain rfl := Option.some.inj same
      exact if_neg other
    · rfl

end Declarator

namespace Member

theorem ofDeclaration_append {read front : List Token} {last close : Token}
    (brace : last.kind = .closeBrace) (paren : close.kind = .closeParen) (marker : Span) :
    ofDeclaration marker (read ++ [last] ++ (front ++ [close])) =
      ofDeclaration marker (read ++ [last]) := by
  have lastOther : last.kind ≠ .identifier := brace ▸ Token.Kind.noConfusion
  have closeOther : close.kind ≠ .identifier := paren ▸ Token.Kind.noConfusion
  have lastKept : [last].filter (·.kind ≠ .constWord) = [last] := by simp [brace]
  have closeKept : [close].filter (·.kind ≠ .constWord) = [close] := by simp [paren]
  simp only [ofDeclaration, List.filter_append, lastKept, closeKept]
  rw [← List.append_assoc, Declarator.ofTokens?_concat closeOther, List.append_assoc,
    Declarator.leading?_append lastOther, Declarator.ofTokens?_concat lastOther]

theorem ofBody_of_unmarked {body : List Token} (unmarked : ∀ t ∈ body, ¬t.kind.isMarker) :
    ofBody body = [] := by
  fun_induction ofBody body with
  | case1 => rfl
  | case2 t rest kind =>
    have marker := unmarked t List.mem_cons_self
    rw [kind] at marker
    exact absurd rfl marker
  | case3 t rest kind =>
    have marker := unmarked t List.mem_cons_self
    rw [kind] at marker
    exact absurd rfl marker
  | case4 t rest _ _ ih => exact ih fun u member => unmarked u (List.mem_cons_of_mem t member)

end Member

/-! ### States -/

namespace Walk
open Extraction

/-- What some tokens make the walk say, and the state they leave it in. -/
def pass (w : Walk) : List Token → Extraction × Walk
  | [] => (empty, w)
  | t :: rest => say (w.step t).1 (pass (w.step t).2 rest)

theorem run_append_of_pass (w : Walk) {A : List Token} (noEnd : ∀ t ∈ A, t.kind ≠ .endOfInput)
    (B : List Token) : run w (A ++ B) = (pass w A).1 ++ run (pass w A).2 B := by
  induction A generalizing w with
  | nil => rfl
  | cons t A ih =>
    rw [List.cons_append, run_cons (noEnd t List.mem_cons_self),
      ih _ fun u member => noEnd u (List.mem_cons_of_mem t member), ← append_assoc]
    rfl

theorem pass_concat (w : Walk) (A : List Token) (t : Token) :
    (pass w (A ++ [t])).2 = ((pass w A).2.step t).2 := by
  induction A generalizing w with
  | nil => rfl
  | cons u A ih => exact ih (w.step u).2

/-- A state behind a semicolon or a right brace. -/
def Settled : Walk → Prop
  | outside | marked _ | body _ | arguments .. => True
  | declaration _ _ read => ∃ before last, read = before ++ [last] ∧ last.kind = .closeBrace
  | keyword _ | fieldMarked .. => False

theorem settled_declarationStep (type : ScriptType) (marker : Span) (read : List Token) {t : Token}
    (settles : t.kind = .semicolon ∨ t.kind = .closeBrace) :
    (declarationStep type marker read t).2.Settled := by
  rcases settles with kind | kind
  · simp [declarationStep, Member.endsDeclaration, bodyStep, say, Settled, kind,
      Token.Kind.isTypeMarker]
  · simp [declarationStep, Member.endsDeclaration, Settled, kind, Token.Kind.isMarker]

/-- A semicolon or a right brace settles every state. -/
theorem settled_step (w : Walk) {t : Token}
    (settles : t.kind = .semicolon ∨ t.kind = .closeBrace) : (w.step t).2.Settled := by
  have noType : ¬t.kind.isTypeMarker := by
    rcases settles with kind | kind <;> simp [kind, Token.Kind.isTypeMarker]
  have outsideSettled : (outsideStep t).2.Settled := by
    rw [outsideStep, if_neg noType]
    trivial
  cases w with
  | outside => exact outsideSettled
  | marked marker =>
    have noKeyword : ¬t.kind.isTypeKeyword := by
      rcases settles with kind | kind <;> simp [kind, Token.Kind.isTypeKeyword]
    rw [step, if_neg noKeyword, if_neg noType]
    trivial
  | keyword marker =>
    have noName : t.kind ≠ .identifier := by
      rcases settles with kind | kind <;> simp [kind]
    rw [step, if_neg noName]
    exact outsideSettled
  | body type =>
    rcases settles with kind | kind <;> simp [step, bodyStep, kind, Token.Kind.isTypeMarker, Settled]
  | fieldMarked type marker =>
    have noParen : t.kind ≠ .openParen := by
      rcases settles with kind | kind <;> simp [kind]
    rw [step, if_neg noParen]
    exact settled_declarationStep type marker [] settles
  | arguments type marker depth =>
    rcases settles with kind | kind <;>
      simp [step, argumentsStep, kind, Token.Kind.isTypeMarker, Settled]
  | declaration type marker read => exact settled_declarationStep type marker read settles

/-! ### Inert tokens in a settled state -/

section Inert

variable {tokens : List Token}

theorem run_body_of_unmarked (type : ScriptType) (plain : Plain tokens)
    (unmarked : ∀ t ∈ tokens, ¬t.kind.isMarker) : run (.body type) tokens = ⟨[type], []⟩ := by
  rw [run_body type plain, Member.ofBody_of_unmarked unmarked, withMembers_nil]

theorem plain_of_inert (inert : Inert (tokens.map (·.kind))) : Plain tokens := by
  intro t member
  obtain ⟨unmarked, -, notLast⟩ := inert.plain t.kind (List.mem_map_of_mem member)
  exact ⟨notLast, fun isType => unmarked (Token.Kind.isMarker_of_isTypeMarker isType)⟩

theorem unmarked_of_inert (inert : Inert (tokens.map (·.kind))) :
    ∀ t ∈ tokens, ¬t.kind.isMarker :=
  fun t member => (inert.plain t.kind (List.mem_map_of_mem member)).1

theorem run_marked_of_inert (inert : Inert (tokens.map (·.kind))) (marker : Span) :
    run (.marked marker) tokens = ⟨[], [.missingTypeName marker]⟩ := by
  have none : tokens.dropWhile (fun t => !t.kind.isTypeKeyword) = [] := by
    rw [List.dropWhile_eq_nil_iff]
    intro t member
    simpa using (inert.plain t.kind (List.mem_map_of_mem member)).2.1
  rw [run_marked marker (plain_of_inert inert), Segment.extract, Segment.declaration?, none]

theorem run_arguments_of_inert (inert : Inert (tokens.map (·.kind))) (type : ScriptType)
    (marker : Span) (depth : Nat) :
    run (.arguments type marker depth) tokens = (arguments type marker depth).finish := by
  have none : Member.closeParens depth tokens = none := by
    rw [← List.append_nil tokens, Member.closeParens_nested inert.nested]
    rfl
  rw [run_arguments type marker depth (plain_of_inert inert), none, runMember,
    withMember_malformed]
  rfl

/-- The declaration that inert tokens would go on is one without them. -/
theorem run_declaration_of_inert (inert : Inert (tokens.map (·.kind))) (type : ScriptType)
    (marker : Span) (before : List Token) {last : Token} (brace : last.kind = .closeBrace) :
    run (.declaration type marker (before ++ [last])) tokens =
      (declaration type marker (before ++ [last])).finish := by
  have plain := plain_of_inert inert
  have unmarked := unmarked_of_inert inert
  obtain ⟨kinds, more, same, free⟩ := inert.front
  obtain ⟨front, behind, rfl, rfl, sameBehind⟩ := List.map_eq_append_iff.mp same
  obtain ⟨close, tail, rfl, paren, sameTail⟩ := List.map_eq_cons_iff.mp sameBehind
  obtain ⟨brace', rest, rfl, opens, -⟩ := List.map_eq_cons_iff.mp sameTail
  -- The declaration goes on to the parenthesis, and the brace behind it ends it.
  have whole : front ++ close :: brace' :: rest = front ++ [close] ++ brace' :: rest := by simp
  have goes : ∀ t ∈ front ++ [close], !Member.endsDeclaration t := by
    intro t member
    have noMarker := unmarked t (whole ▸ List.mem_append_left _ member)
    have apart : t.kind ≠ .semicolon ∧ t.kind ≠ .equals ∧ t.kind ≠ .openBrace := by
      rcases List.mem_append.mp member with inside | here
      · exact free t.kind (List.mem_map_of_mem inside)
      · rw [List.mem_singleton.mp here, paren]
        decide
    simp [Member.endsDeclaration, noMarker, apart]
  have ends : Member.endsDeclaration brace' := by simp [Member.endsDeclaration, opens]
  have left : brace' :: rest <:+ front ++ close :: brace' :: rest := ⟨front ++ [close], whole.symm⟩
  rw [run_declaration type marker _ plain, whole, List.takeWhile_append_of_pos goes,
    List.dropWhile_append_of_pos goes, List.takeWhile_cons_of_neg (by simpa using ends),
    List.dropWhile_cons_of_neg (by simpa using ends), List.append_nil,
    Member.ofDeclaration_append brace paren, runMember,
    run_body_of_unmarked _ (plain.suffix left) fun t member => unmarked t (left.subset member)]
  rfl

/-- A settled state takes inert tokens as it takes the end. -/
theorem run_inert {w : Walk} (settled : w.Settled) (inert : Inert (tokens.map (·.kind))) :
    run w tokens = w.finish := by
  cases w with
  | outside => exact run_outside_of_plain (plain_of_inert inert)
  | marked marker => exact run_marked_of_inert inert marker
  | keyword marker => exact settled.elim
  | body type => exact run_body_of_unmarked type (plain_of_inert inert) (unmarked_of_inert inert)
  | fieldMarked type marker => exact settled.elim
  | arguments type marker depth => exact run_arguments_of_inert inert type marker depth
  | declaration type marker read =>
    obtain ⟨before, last, rfl, brace⟩ := settled
    exact run_declaration_of_inert inert type marker before brace

end Inert

end Walk

namespace Extraction

/-- Behind a semicolon or a right brace, inert tokens change nothing of what is read. -/
theorem ofTokens_append_inert {A B : List Token} (noEnd : ∀ t ∈ A, t.kind ≠ .endOfInput)
    (settles : ∃ t ∈ A.getLast?, t.kind = .semicolon ∨ t.kind = .closeBrace)
    (inert : Inert (B.map (·.kind))) : ofTokens (A ++ B) = ofTokens A := by
  obtain ⟨t, last, kind⟩ := settles
  obtain ⟨before, rfl⟩ := List.getLast?_eq_some_iff.mp last
  have settled : (Walk.pass .outside (before ++ [t])).2.Settled := by
    rw [Walk.pass_concat]
    exact Walk.settled_step _ kind
  have ended := Walk.run_append_of_pass .outside noEnd []
  rw [List.append_nil] at ended
  rw [← Walk.run_outside, ← Walk.run_outside, Walk.run_append_of_pass .outside noEnd, ended,
    Walk.run_inert settled inert]
  rfl

theorem ofTokens_append_end (tokens : List Token) {last : Token} (isEnd : last.kind = .endOfInput) :
    ofTokens (tokens ++ [last]) = ofTokens tokens := by
  have stops : (tokens ++ [last]).takeWhile (·.kind ≠ .endOfInput) =
      tokens.takeWhile (·.kind ≠ .endOfInput) := by
    induction tokens with
    | nil => simp [isEnd]
    | cons t rest ih => simp only [List.cons_append, List.takeWhile_cons, ih]
  rw [ofTokens, stops]
  rfl

end Extraction

end ScriptGlue
