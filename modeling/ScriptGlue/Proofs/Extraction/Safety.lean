import ScriptGlue.Proofs.Extraction.Cursor

/-!
# Safe extraction

A cursor meets no fault on any tokens. It takes each token in front of the first end of input once, in order,
and no other, and finds what reading segment by segment finds (`read_safely`).
-/

namespace ScriptGlue

theorem Token.kind_of_length_beforeEnd {tokens : List Token} {t : Token}
    (here : tokens[(beforeEnd tokens).length]? = some t) : t.kind = .endOfInput := by
  unfold beforeEnd at here
  induction tokens with
  | nil => exact nomatch here
  | cons u rest ih =>
    by_cases last : u.kind = .endOfInput
    · rw [List.takeWhile_cons_of_neg (by simpa using last)] at here
      exact Option.some.inj here ▸ last
    · rw [List.takeWhile_cons_of_pos (by simpa using last)] at here
      exact ih here

theorem Token.exists_of_lt_beforeEnd {tokens : List Token} {place : Nat}
    (inside : place < (beforeEnd tokens).length) :
    ∃ t, tokens[place]? = some t ∧ t.kind ≠ .endOfInput := by
  have front : beforeEnd tokens <+: tokens := List.takeWhile_prefix _
  refine ⟨(beforeEnd tokens)[place], List.prefix_iff_getElem?.mp front place inside, ?_⟩
  simpa using List.mem_takeWhile_imp (List.getElem_mem inside)

namespace Cursor
open Extraction Walk

variable {tokens : List Token} {c next : Cursor tokens} {t : Token}

/-! ### Sound places -/

/-- Every token in front of the place was taken once, in order, and none of them is the end of input or
behind it. -/
structure Sound (c : Cursor tokens) : Prop where
  taken : c.taken = List.range c.place
  inside : c.place ≤ (Token.beforeEnd tokens).length

def rest (c : Cursor tokens) : List Token := tokens.drop c.place

theorem kind_eq (here : tokens[c.place]? = some t) : c.kind = t.kind := by
  simp [kind, here]

theorem exists_token (present : c.kind ≠ .endOfInput) :
    ∃ t, tokens[c.place]? = some t ∧ t.kind = c.kind := by
  cases here : tokens[c.place]? with
  | none => simp [kind, here] at present
  | some t => exact ⟨t, rfl, (kind_eq here).symm⟩

theorem atEnd_iff : c.atEnd ↔ c.kind = .endOfInput := by
  constructor
  · intro ends
    by_contra present
    obtain ⟨t, here, -⟩ := exists_token present
    have inside : ¬tokens.length ≤ c.place := Nat.not_le.mpr (List.getElem?_eq_some_iff.mp here).1
    simp [atEnd, inside, present] at ends
  · intro ends
    simp [atEnd, ends]

theorem not_atEnd_of_kind {kind : Token.Kind} (here : c.kind = kind) (present : kind ≠ .endOfInput) :
    ¬c.atEnd :=
  fun ends => present (here.symm.trans (atEnd_iff.mp ends))

theorem rest_eq_cons (here : tokens[c.place]? = some t) : c.rest = t :: tokens.drop (c.place + 1) := by
  obtain ⟨inside, rfl⟩ := List.getElem?_eq_some_iff.mp here
  exact List.drop_eq_getElem_cons inside

/-- In front of the end the token at the place is one to take, and the others are behind it. -/
theorem exists_rest (more : ¬c.atEnd) :
    ∃ t, t.kind = c.kind ∧ t.kind ≠ .endOfInput ∧ c.rest = t :: tokens.drop (c.place + 1) := by
  have present : c.kind ≠ .endOfInput := fun ends => more (atEnd_iff.mpr ends)
  obtain ⟨t, here, kind⟩ := exists_token present
  exact ⟨t, kind, kind ▸ present, rest_eq_cons here⟩

theorem Sound.length_eq_of_atEnd (sound : c.Sound) (ends : c.atEnd) :
    c.place = (Token.beforeEnd tokens).length := by
  refine Nat.le_antisymm sound.inside (Nat.le_of_not_lt fun short => ?_)
  obtain ⟨t, here, present⟩ := Token.exists_of_lt_beforeEnd short
  exact present ((kind_eq here).symm.trans (atEnd_iff.mp ends))

/-! ### Safe readings -/

/-- A reading without a fault, to a sound place, with a property of what was read. -/
def Safely {α : Type} (r : Reading tokens α) (P : α → Cursor tokens → Prop) : Prop :=
  ∃ a last, r = .ok (a, last) ∧ last.Sound ∧ P a last

namespace Safely

variable {α β : Type} {r : Reading tokens α} {P : α → Cursor tokens → Prop} {a : α}

theorem ok (sound : c.Sound) (holds : P a c) : Safely (.ok (a, c)) P := ⟨a, c, rfl, sound, holds⟩

theorem mono {Q : α → Cursor tokens → Prop} (safe : Safely r P) (weaker : ∀ a c, P a c → Q a c) :
    Safely r Q := by
  obtain ⟨a, last, given, sound, holds⟩ := safe
  exact ⟨a, last, given, sound, weaker a last holds⟩

theorem andThen {k : α → Cursor tokens → Reading tokens β} {Q : β → Cursor tokens → Prop}
    (first : Safely r P) (second : ∀ a c, c.Sound → P a c → Safely (k a c) Q) :
    Safely (r.andThen k) Q := by
  obtain ⟨a, c, rfl, sound, holds⟩ := first
  exact second a c sound holds

theorem of_eq (safe : Safely r P) (given : r = .ok (a, c)) : c.Sound ∧ P a c := by
  obtain ⟨b, last, rfl, sound, holds⟩ := safe
  cases given
  exact ⟨sound, holds⟩

theorem ne_error (safe : Safely r P) (f : Fault) : r ≠ .error f := by
  obtain ⟨b, last, rfl, -, -⟩ := safe
  exact nofun

end Safely

theorem Sound.take (sound : c.Sound) (more : ¬c.atEnd) :
    Safely c.take fun t next => t.kind = c.kind ∧ t.kind ≠ .endOfInput ∧ c.rest = t :: next.rest := by
  have present : c.kind ≠ .endOfInput := fun ends => more (atEnd_iff.mpr ends)
  obtain ⟨t, here, kind⟩ := exists_token present
  have inside := place_lt_length more
  have last : lastPlace tokens = .ok (tokens.length - 1) := by
    unfold lastPlace
    split
    · omega
    · rename_i n length
      rw [length]
      rfl
  have place : min c.place (tokens.length - 1) = c.place := Nat.min_eq_left (by omega)
  have taken : c.take = .ok (t, ⟨c.place + 1, c.taken ++ [c.place]⟩) := by
    rw [Cursor.take, last]
    simp only [place, here, if_pos inside]
  refine ⟨t, _, taken, ⟨?_, ?_⟩, kind, kind ▸ present, rest_eq_cons here⟩
  · rw [sound.taken, List.range_succ]
  · refine Nat.lt_of_le_of_ne sound.inside fun same => present ?_
    rw [same] at here
    exact kind.symm.trans (Token.kind_of_length_beforeEnd here)

/-! ### What a walk makes of it -/

theorem run_rest (present : t.kind ≠ .endOfInput) (cut : c.rest = t :: next.rest) (w : Walk) :
    run w c.rest = (w.step t).1 ++ run (w.step t).2 next.rest := by
  rw [cut, run_cons present]

theorem run_atEnd (ends : c.atEnd) (w : Walk) : run w c.rest = w.finish := by
  cases here : tokens[c.place]? with
  | none =>
    have none : c.rest = [] := List.drop_eq_nil_of_le (List.getElem?_eq_none_iff.mp here)
    rw [none, run]
  | some t =>
    have last : t.kind = .endOfInput := (kind_eq here).symm.trans (atEnd_iff.mp ends)
    rw [rest_eq_cons here, run, if_pos last]

/-- Where a type ends a walk says what it says at the end, and begins anew. -/
theorem run_atEdge (edge : c.atEdge) (w : Walk) : run w c.rest = w.finish ++ run .outside c.rest := by
  by_cases ends : c.atEnd
  · rw [run_atEnd ends, run_atEnd ends]
    exact (append_empty _).symm
  · obtain ⟨t, kind, present, cut⟩ := exists_rest ends
    have isMarker : t.kind.isTypeMarker := by simpa [atEdge, ends, kind] using edge
    rw [cut, run_cons present, run_cons present,
      step_typeMarker isMarker, step_typeMarker isMarker]
    rfl

theorem takeWhile_safely (p : Token.Kind → Bool) (sound : c.Sound) :
    Safely (c.takeWhile p) fun read last =>
      c.rest = read ++ last.rest ∧ (∀ t ∈ read, p t.kind ∧ t.kind ≠ .endOfInput) ∧
        (last.atEnd ∨ p last.kind = false) := by
  fun_induction Cursor.takeWhile p c with
  | case1 c more f taken => exact absurd taken ((sound.take more.1).ne_error f)
  | case2 c more t next taken ih =>
    obtain ⟨soundNext, kind, present, cut⟩ := (sound.take more.1).of_eq taken
    refine (ih soundNext).andThen fun read last soundLast behind => ?_
    obtain ⟨rest, each, stop⟩ := behind
    refine .ok soundLast ⟨by rw [cut, rest, List.cons_append], ?_, stop⟩
    exact List.forall_mem_cons.mpr ⟨⟨kind ▸ more.2, present⟩, each⟩
  | case3 c stop =>
    refine .ok sound ⟨rfl, List.forall_mem_nil _, ?_⟩
    by_cases ends : c.atEnd
    · exact .inl ends
    · exact .inr (by simpa [ends] using stop)

/-! ### The arguments of a field marker -/

theorem not_isTypeMarker (more : ¬c.atEdge) : ¬c.kind.isTypeMarker := by
  intro isMarker
  simp [atEdge, isMarker] at more

theorem close_eq_ok_iff {depth less : Nat} : close depth = .ok less ↔ depth = less + 1 := by
  cases depth <;> simp [close]

/-- Once a parenthesis is open, closing one never goes below none. -/
theorem passArguments_safely {depth : Nat} (opened : 0 < depth) (sound : c.Sound) :
    Safely (c.passArguments depth) fun closed last => ∀ type marker,
      run (.arguments type marker (depth - 1)) c.rest =
        if closed then run (.declaration type marker []) last.rest
        else (Member.malformed marker).complaint type ++ run (.body type) last.rest := by
  fun_induction passArguments depth c with
  | case1 depth c more f taken => exact absurd taken ((sound.take (not_atEnd more)).ne_error f)
  | case2 depth c more t next taken opens ih =>
    obtain ⟨soundNext, kind, present, cut⟩ := (sound.take (not_atEnd more)).of_eq taken
    refine (ih (Nat.succ_pos depth) soundNext).mono fun closed last holds type marker => ?_
    rw [run_rest present cut, step]
    unfold argumentsStep
    rw [if_neg (kind ▸ not_isTypeMarker more), opens, ← holds, Nat.add_sub_cancel,
      Nat.sub_add_cancel opened]
    rfl
  | case3 depth c more t next taken closes f closed =>
    obtain ⟨less, rfl⟩ := Nat.exists_eq_add_of_lt opened
    rw [Nat.zero_add] at closed
    cases closed
  | case4 depth c more t next taken closes closed =>
    obtain ⟨soundNext, kind, present, cut⟩ := (sound.take (not_atEnd more)).of_eq taken
    refine .ok soundNext fun type marker => ?_
    rw [close_eq_ok_iff.mp closed, run_rest present cut, step]
    unfold argumentsStep
    rw [if_neg (kind ▸ not_isTypeMarker more), closes]
    rfl
  | case5 depth c more t next taken closes less closed some ih =>
    obtain ⟨soundNext, kind, present, cut⟩ := (sound.take (not_atEnd more)).of_eq taken
    obtain ⟨fewer, rfl⟩ := Nat.exists_eq_succ_of_ne_zero some
    refine (ih (Nat.succ_pos fewer) soundNext).mono fun _ last holds type marker => ?_
    rw [close_eq_ok_iff.mp closed, run_rest present cut, step]
    unfold argumentsStep
    rw [if_neg (kind ▸ not_isTypeMarker more), closes, ← holds]
    rfl
  | case6 depth c more t next taken opens closes ih =>
    obtain ⟨soundNext, kind, present, cut⟩ := (sound.take (not_atEnd more)).of_eq taken
    refine (ih opened soundNext).mono fun closed last holds type marker => ?_
    rw [run_rest present cut, step]
    unfold argumentsStep
    rw [if_neg (kind ▸ not_isTypeMarker more), ← holds]
    split
    · rename_i opened
      exact absurd opened opens
    · rename_i closed _
      exact absurd closed closes
    · rename_i closed _
      exact absurd closed closes
    · rfl
  | case7 depth c stop =>
    refine .ok sound fun type marker => ?_
    have edge : c.atEdge := by simpa using stop
    rw [run_atEdge edge, run_atEdge edge (.body type), ← append_assoc]
    rfl

theorem passArguments_zero_safely (sound : c.Sound) (opens : c.kind = .openParen) :
    Safely (c.passArguments 0) fun closed last => ∀ type marker,
      run (.fieldMarked type marker) c.rest =
        if closed then run (.declaration type marker []) last.rest
        else (Member.malformed marker).complaint type ++ run (.body type) last.rest := by
  have more : ¬c.atEdge := by
    have present := not_atEnd_of_kind opens (by decide)
    simp [atEdge, present, opens, Token.Kind.isTypeMarker]
  obtain ⟨t, next, taken, soundNext, kind, present, cut⟩ := sound.take (not_atEnd more)
  have first : c.passArguments 0 = next.passArguments 1 := by
    rw [passArguments, dif_pos more]
    split
    · rename_i f failed
      cases taken.symm.trans failed
    · rename_i u other given
      cases taken.symm.trans given
      rw [kind, opens]
  rw [first]
  refine (passArguments_safely Nat.one_pos soundNext).mono fun closed last holds type marker => ?_
  rw [run_rest present cut, step, if_pos (kind.trans opens), ← holds]
  rfl

/-! ### Members -/

theorem endsDeclaration_eq (t : Token) : Member.endsDeclaration t = endsDeclaration t.kind := rfl

theorem run_declared {read : List Token}
    (each : ∀ t ∈ read, (!endsDeclaration t.kind) ∧ t.kind ≠ .endOfInput) (type : ScriptType)
    (marker : Span) (before after : List Token) :
    run (.declaration type marker before) (read ++ after) =
      run (.declaration type marker (before ++ read)) after := by
  induction read generalizing before with
  | nil => rw [List.append_nil, List.nil_append]
  | cons t read ih =>
    obtain ⟨⟨plain, present⟩, others⟩ := List.forall_mem_cons.mp each
    have goes : ¬Member.endsDeclaration t := by simpa [endsDeclaration_eq] using plain
    rw [List.cons_append, run_cons present, step, declarationStep, if_neg goes,
      List.append_cons before t read, ← ih others]
    rfl

theorem run_declaration_stop (stop : c.atEnd ∨ (!endsDeclaration c.kind) = false) (type : ScriptType)
    (marker : Span) (read : List Token) :
    run (.declaration type marker read) c.rest = (Member.ofDeclaration marker read).complaint type ++
      run (.body (type.withMember (.ofDeclaration marker read))) c.rest := by
  by_cases ends : c.atEnd
  · rw [run_atEnd ends, run_atEnd ends]
    rfl
  · obtain ⟨t, kind, present, cut⟩ := exists_rest ends
    have leaves : Member.endsDeclaration t := by
      simpa [endsDeclaration_eq, kind, ends] using stop
    have left : (Walk.declaration type marker read).step t =
        say ((Member.ofDeclaration marker read).complaint type)
          (bodyStep (type.withMember (.ofDeclaration marker read)) t) := if_pos leaves
    rw [cut, run_cons present, run_cons present, left, say,
      append_assoc]
    rfl

theorem run_fieldMarked_plain (plain : c.kind ≠ .openParen) (type : ScriptType) (marker : Span) :
    run (.fieldMarked type marker) c.rest = run (.declaration type marker []) c.rest := by
  by_cases ends : c.atEnd
  · rw [run_atEnd ends, run_atEnd ends]
    rfl
  · obtain ⟨t, kind, present, cut⟩ := exists_rest ends
    have same : (Walk.fieldMarked type marker).step t = (Walk.declaration type marker []).step t :=
      if_neg (kind ▸ plain)
    rw [cut, run_cons present, run_cons present, same]

/-- What a member makes of a type, and the walk behind it. -/
def Adds (c : Cursor tokens) (m : Member) (last : Cursor tokens) : Prop :=
  ∀ type, run (.body type) c.rest = m.complaint type ++ run (.body (type.withMember m)) last.rest

/-- What was found in a type, perhaps a member, and the walk behind it. -/
def Finds (c : Cursor tokens) : Option Member → Cursor tokens → Prop
  | some m, last => c.Adds m last
  | none, last => ∀ type, run (.body type) c.rest = run (.body type) last.rest

theorem declared_safely (sound : c.Sound) (marker : Span) :
    Safely ((c.takeWhile (!endsDeclaration ·)).andThen fun read c =>
        .ok (Member.ofDeclaration marker read, c)) fun m last => ∀ type,
      run (.declaration type marker []) c.rest =
        m.complaint type ++ run (.body (type.withMember m)) last.rest := by
  refine (takeWhile_safely _ sound).andThen fun read last soundLast behind => .ok soundLast fun type => ?_
  obtain ⟨cut, each, stop⟩ := behind
  rw [cut, run_declared each, List.nil_append, run_declaration_stop stop]

theorem field_safely (sound : c.Sound) (isField : c.kind = .fieldMarker) :
    Safely c.field fun m last => c.Adds m last := by
  have more := not_atEnd_of_kind isField (by decide)
  refine (sound.take more).andThen fun marker next soundNext token => ?_
  obtain ⟨kind, present, cut⟩ := token
  have walk (type : ScriptType) :
      run (.body type) c.rest = run (.fieldMarked type marker.span) next.rest := by
    rw [run_rest present cut, step, bodyStep, kind, isField]
    rfl
  split
  · rename_i opens
    refine (passArguments_zero_safely soundNext opens).andThen fun closed last soundLast holds => ?_
    split
    · rename_i isClosed
      refine (declared_safely soundLast marker.span).mono fun m behind read type => ?_
      rw [walk, holds, if_pos isClosed, read]
    · rename_i isOpen
      refine .ok soundLast fun type => ?_
      rw [walk, holds, if_neg isOpen, withMember_malformed]
  · rename_i plain
    refine (declared_safely soundNext marker.span).mono fun m behind read type => ?_
    rw [walk, run_fieldMarked_plain plain, read]

theorem run_body_other (present : t.kind ≠ .endOfInput) (cut : c.rest = t :: next.rest)
    (noType : ¬t.kind.isTypeMarker) (noField : t.kind ≠ .fieldMarker) (noMethod : t.kind ≠ .methodMarker)
    (type : ScriptType) : run (.body type) c.rest = run (.body type) next.rest := by
  rw [run_rest present cut, step]
  unfold bodyStep
  rw [if_neg noType]
  split
  · rename_i isField
    exact absurd isField noField
  · rename_i isMethod
    exact absurd isMethod noMethod
  · rfl

theorem member?_safely (sound : c.Sound) (more : ¬c.atEdge) :
    Safely c.member? fun found last => c.Finds found last := by
  unfold member?
  split
  · rename_i isField
    exact (field_safely sound isField).andThen fun m last soundLast adds => .ok soundLast adds
  · rename_i isMethod
    refine (sound.take (not_atEnd more)).andThen fun marker last soundLast token => ?_
    obtain ⟨kind, present, cut⟩ := token
    refine .ok soundLast fun type => ?_
    rw [run_rest present cut, step, bodyStep, if_neg (kind ▸ not_isTypeMarker more), kind, isMethod,
      withMember_method]
  · rename_i noField noMethod
    refine (sound.take (not_atEnd more)).andThen fun t last soundLast token => ?_
    obtain ⟨kind, present, cut⟩ := token
    exact .ok soundLast (run_body_other present cut (kind ▸ not_isTypeMarker more) (kind ▸ noField)
      (kind ▸ noMethod))

/-! ### Types -/

theorem body_safely (type : ScriptType) (sound : c.Sound) :
    Safely (c.body type) fun found last =>
      run (.body type) c.rest = found ++ run .outside last.rest := by
  fun_induction body type c with
  | case1 type c more f failed => exact absurd failed ((member?_safely sound more).ne_error f)
  | case2 type c more next read ih =>
    obtain ⟨soundNext, same⟩ := (member?_safely sound more).of_eq read
    exact (ih soundNext).mono fun found last holds => (same type).trans holds
  | case3 type c more m next read ih =>
    obtain ⟨soundNext, adds⟩ := (member?_safely sound more).of_eq read
    refine (ih soundNext).andThen fun found last soundLast holds => .ok soundLast ?_
    rw [adds type, holds, append_assoc]
  | case4 type c stop =>
    have edge : c.atEdge := by simpa using stop
    exact .ok sound (run_atEdge edge (.body type))

theorem run_marked_pass {read : List Token}
    (each : ∀ t ∈ read, (!t.kind.isTypeKeyword && !t.kind.isTypeMarker) ∧ t.kind ≠ .endOfInput)
    (marker : Span) (after : List Token) :
    run (.marked marker) (read ++ after) = run (.marked marker) after := by
  induction read with
  | nil => rfl
  | cons t read ih =>
    obtain ⟨⟨plain, present⟩, others⟩ := List.forall_mem_cons.mp each
    obtain ⟨noKeyword, noMarker⟩ : ¬t.kind.isTypeKeyword ∧ ¬t.kind.isTypeMarker := by simpa using plain
    rw [List.cons_append, run_cons present, step, if_neg noKeyword, if_neg noMarker]
    exact ih others

theorem run_keyword_unnamed (unnamed : c.kind ≠ .identifier) (marker : Span) :
    run (.keyword marker) c.rest = ⟨[], [.missingTypeName marker]⟩ ++ run .outside c.rest := by
  by_cases ends : c.atEnd
  · rw [run_atEnd ends, run_atEnd ends]
    exact (append_empty _).symm
  · obtain ⟨t, kind, present, cut⟩ := exists_rest ends
    have left : (Walk.keyword marker).step t = say ⟨[], [.missingTypeName marker]⟩ (outsideStep t) :=
      if_neg (kind ▸ unnamed)
    rw [cut, run_cons present, run_cons present, left, say, append_assoc]
    rfl

theorem declaration_safely (marker : Span) (sound : c.Sound) :
    Safely (c.declaration marker) fun found last =>
      run (.marked marker) c.rest = found ++ run .outside last.rest := by
  refine (takeWhile_safely _ sound).andThen fun read c sound behind => ?_
  obtain ⟨cut, each, stop⟩ := behind
  rw [cut, run_marked_pass each]
  split
  · rename_i edge
    exact .ok sound (run_atEdge edge (.marked marker))
  · rename_i more
    have isKeyword : c.kind.isTypeKeyword := by
      have noEnd := not_atEnd more
      have noType := not_isTypeMarker more
      simpa [noEnd, noType] using stop
    refine (sound.take (not_atEnd more)).andThen fun t next sound token => ?_
    obtain ⟨kind, present, cut⟩ := token
    have walk : run (.marked marker) c.rest = run (.keyword marker) next.rest := by
      rw [run_rest present cut, step, if_pos (kind ▸ isKeyword)]
      rfl
    rw [walk]
    split
    · rename_i named
      have inside := not_atEnd_of_kind named (by decide)
      refine (sound.take inside).andThen fun name last sound token => ?_
      obtain ⟨kind, present, cut⟩ := token
      have walk : run (.keyword marker) next.rest = run (.body (.declared name.lexeme)) last.rest := by
        rw [run_rest present cut, step, if_pos (kind.trans named)]
        rfl
      rw [walk]
      exact body_safely (.declared name.lexeme) sound
    · rename_i unnamed
      exact .ok sound (run_keyword_unnamed unnamed marker)

theorem item_safely (sound : c.Sound) (more : ¬c.atEnd) :
    Safely c.item fun found last => run .outside c.rest = found ++ run .outside last.rest := by
  unfold item
  split
  · rename_i isMarker
    refine (sound.take more).andThen fun marker next sound token => ?_
    obtain ⟨kind, present, cut⟩ := token
    have walk : run .outside c.rest = run (.marked marker.span) next.rest := by
      rw [run_rest present cut, step, outsideStep, if_pos (kind ▸ isMarker)]
      rfl
    rw [walk]
    exact declaration_safely marker.span sound
  · rename_i noMarker
    refine (sound.take more).andThen fun t next sound token => ?_
    obtain ⟨kind, present, cut⟩ := token
    refine .ok sound ?_
    rw [run_rest present cut, step, outsideStep, if_neg (kind ▸ noMarker)]

/-! ### All tokens -/

theorem read_outside_safely (sound : c.Sound) :
    Safely c.read fun found last => run .outside c.rest = found ∧ last.atEnd := by
  fun_induction read c with
  | case1 c more f failed => exact absurd failed ((item_safely sound more).ne_error f)
  | case2 c more here next found ih =>
    obtain ⟨soundNext, first⟩ := (item_safely sound more).of_eq found
    refine (ih soundNext).andThen fun later last soundLast holds => .ok soundLast ⟨?_, holds.2⟩
    rw [first, holds.1]
  | case3 c stop =>
    have ends : c.atEnd := by simpa using stop
    exact .ok sound ⟨run_atEnd ends .outside, ends⟩

end Cursor

namespace Extraction
open Token (beforeEnd)

/-- What a cursor finds among tokens, and the places that it took tokens from. -/
def byCursor (tokens : List Token) : Except Cursor.Fault (Extraction × List Nat) :=
  match (⟨0, []⟩ : Cursor tokens).read with
  | .error f => .error f
  | .ok (found, last) => .ok (found, last.taken)

theorem byCursor_eq (tokens : List Token) :
    byCursor tokens = .ok (ofTokens tokens, List.range (beforeEnd tokens).length) := by
  have start : (⟨0, []⟩ : Cursor tokens).Sound := ⟨rfl, Nat.zero_le _⟩
  obtain ⟨found, last, read, sound, walked, ends⟩ := Cursor.read_outside_safely start
  have whole : (⟨0, []⟩ : Cursor tokens).rest = tokens := rfl
  rw [whole, Walk.run_outside] at walked
  rw [byCursor, read]
  simp only [sound.taken, sound.length_eq_of_atEnd ends, walked]

theorem beforeEnd_beforeEnd (tokens : List Token) : beforeEnd (beforeEnd tokens) = beforeEnd tokens := by
  refine List.takeWhile_eq_self_iff.mpr fun t member => ?_
  simpa using List.mem_takeWhile_imp member

theorem ofTokens_beforeEnd (tokens : List Token) : ofTokens (beforeEnd tokens) = ofTokens tokens := by
  rw [← Walk.run_outside, ← Walk.run_outside]
  exact Walk.run_takeWhile .outside tokens

/-- A cursor reads any tokens without a fault and finds what there is. It takes every token in front of the
first end of input, once and in order, and none at an end, behind one, or behind all tokens. So tokens from
the first end of input on are as good as absent. -/
theorem read_safely (tokens : List Token) :
    ∃ taken, byCursor tokens = .ok (ofTokens tokens, taken) ∧
      taken = List.range (beforeEnd tokens).length ∧
      (∀ place ∈ taken, ∀ earlier ≤ place, ∃ t, tokens[earlier]? = some t ∧ t.kind ≠ .endOfInput) ∧
      byCursor (beforeEnd tokens) = byCursor tokens ∧
      ofTokens (beforeEnd tokens) = ofTokens tokens := by
  refine ⟨_, byCursor_eq tokens, rfl, ?_, ?_, ofTokens_beforeEnd tokens⟩
  · intro place member earlier before
    exact Token.exists_of_lt_beforeEnd (Nat.lt_of_le_of_lt before (List.mem_range.mp member))
  · rw [byCursor_eq, byCursor_eq, beforeEnd_beforeEnd, ofTokens_beforeEnd]

end Extraction

end ScriptGlue
