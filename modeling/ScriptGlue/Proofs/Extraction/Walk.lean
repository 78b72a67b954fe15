import ScriptGlue.Proofs.Extraction.Naming

/-!
# Extraction in one pass

Reading segment by segment comes to the same as one walk over the tokens with a state that says what
is being read (`run_outside`). In every state the walk takes a type marker as it takes the end of the
tokens (`step_typeMarker`), so nothing that one type leaves unfinished reaches the next
(`ofTokens_append`).
-/

namespace ScriptGlue

namespace Extraction

def empty : Extraction := ⟨[], []⟩

instance : Append Extraction := ⟨fun a b => ⟨a.types ++ b.types, a.diagnostics ++ b.diagnostics⟩⟩

theorem append_def (a b : Extraction) :
    a ++ b = ⟨a.types ++ b.types, a.diagnostics ++ b.diagnostics⟩ := rfl

theorem empty_append (a : Extraction) : empty ++ a = a := rfl

theorem append_empty (a : Extraction) : a ++ empty = a := by
  simp only [append_def, empty, List.append_nil]

theorem append_assoc (a b c : Extraction) : a ++ b ++ c = a ++ (b ++ c) := by
  simp only [append_def, List.append_assoc]

end Extraction

namespace Token.Kind

theorem isMarker_of_isTypeMarker {kind : Kind} (isType : kind.isTypeMarker) : kind.isMarker := by
  cases kind <;> simp_all [isMarker, isTypeMarker]

theorem not_isTypeKeyword_of_isTypeMarker {kind : Kind} (isType : kind.isTypeMarker) :
    ¬kind.isTypeKeyword := by
  cases kind <;> simp_all [isTypeKeyword, isTypeMarker]

end Token.Kind

/-! ### The walk -/

/-- What is being read at a place among the tokens. -/
inductive Walk
  | outside
  /-- Behind a type marker, in front of `class` or `struct`. -/
  | marked (marker : Span)
  | keyword (marker : Span)
  | body (type : ScriptType)
  | fieldMarked (type : ScriptType) (marker : Span)
  /-- Inside the argument list of a field marker, with so many more parentheses open. -/
  | arguments (type : ScriptType) (marker : Span) (depth : Nat)
  | declaration (type : ScriptType) (marker : Span) (read : List Token)

def ScriptType.withMember (type : ScriptType) (m : Member) : ScriptType :=
  { type with fields := type.fields ++ (m.field? type.name).toList }

def Member.complaint (m : Member) (type : ScriptType) : Extraction :=
  ⟨[], (m.diagnostic? type.name).toList⟩

namespace Walk
open Extraction

def say (found : Extraction) (next : Extraction × Walk) : Extraction × Walk :=
  (found ++ next.1, next.2)

def outsideStep (t : Token) : Extraction × Walk :=
  if t.kind.isTypeMarker then (empty, .marked t.span) else (empty, .outside)

def bodyStep (type : ScriptType) (t : Token) : Extraction × Walk :=
  if t.kind.isTypeMarker then (⟨[type], []⟩, .marked t.span)
  else
    match t.kind with
    | .fieldMarker => (empty, .fieldMarked type t.span)
    | .methodMarker => ((Member.method t.span).complaint type, .body type)
    | _ => (empty, .body type)

def argumentsStep (type : ScriptType) (marker : Span) (depth : Nat) (t : Token) :
    Extraction × Walk :=
  if t.kind.isTypeMarker then say ((Member.malformed marker).complaint type) (bodyStep type t)
  else
    match t.kind, depth with
    | .openParen, _ => (empty, .arguments type marker (depth + 1))
    | .closeParen, 0 => (empty, .declaration type marker [])
    | .closeParen, d + 1 => (empty, .arguments type marker d)
    | _, _ => (empty, .arguments type marker depth)

/-- What ends a declaration is left to the body. -/
def declarationStep (type : ScriptType) (marker : Span) (read : List Token) (t : Token) :
    Extraction × Walk :=
  if Member.endsDeclaration t then
    say ((Member.ofDeclaration marker read).complaint type)
      (bodyStep (type.withMember (.ofDeclaration marker read)) t)
  else (empty, .declaration type marker (read ++ [t]))

def step : Walk → Token → Extraction × Walk
  | outside, t => outsideStep t
  | marked marker, t =>
    if t.kind.isTypeKeyword then (empty, .keyword marker)
    else if t.kind.isTypeMarker then say ⟨[], [.missingTypeName marker]⟩ (outsideStep t)
    else (empty, .marked marker)
  | keyword marker, t =>
    if t.kind = .identifier then (empty, .body (.declared t.lexeme))
    else say ⟨[], [.missingTypeName marker]⟩ (outsideStep t)
  | body type, t => bodyStep type t
  | fieldMarked type marker, t =>
    if t.kind = .openParen then (empty, .arguments type marker 0)
    else declarationStep type marker [] t
  | arguments type marker depth, t => argumentsStep type marker depth t
  | declaration type marker read, t => declarationStep type marker read t

/-- What the end of the tokens makes of what is being read. -/
def finish : Walk → Extraction
  | outside => empty
  | marked marker | keyword marker => ⟨[], [.missingTypeName marker]⟩
  | body type => ⟨[type], []⟩
  | fieldMarked type marker => finishDeclaration type marker []
  | arguments type marker _ => (Member.malformed marker).complaint type ++ ⟨[type], []⟩
  | declaration type marker read => finishDeclaration type marker read
where
  finishDeclaration (type : ScriptType) (marker : Span) (read : List Token) : Extraction :=
    (Member.ofDeclaration marker read).complaint type ++
      ⟨[type.withMember (.ofDeclaration marker read)], []⟩

/-- Walks up to the end of input. -/
def run (w : Walk) : List Token → Extraction
  | [] => w.finish
  | t :: rest =>
    if t.kind = .endOfInput then w.finish else (w.step t).1 ++ run (w.step t).2 rest

theorem run_cons {t : Token} (some : t.kind ≠ .endOfInput) (w : Walk) (rest : List Token) :
    run w (t :: rest) = (w.step t).1 ++ run (w.step t).2 rest := if_neg some

/-! ### Type markers -/

section TypeMarker

variable {t : Token} (isMarker : t.kind.isTypeMarker)
include isMarker

theorem outsideStep_typeMarker : outsideStep t = (empty, .marked t.span) := if_pos isMarker

theorem bodyStep_typeMarker (type : ScriptType) :
    bodyStep type t = (⟨[type], []⟩, .marked t.span) := if_pos isMarker

theorem declarationStep_typeMarker (type : ScriptType) (marker : Span) (read : List Token) :
    declarationStep type marker read t =
      (finish.finishDeclaration type marker read, .marked t.span) := by
  have ends : Member.endsDeclaration t := by
    simp [Member.endsDeclaration, Token.Kind.isMarker_of_isTypeMarker isMarker]
  rw [declarationStep, if_pos ends, bodyStep_typeMarker isMarker]
  rfl

/-- In every state a type marker is taken as the end, and begins a type. -/
theorem step_typeMarker (w : Walk) : w.step t = (w.finish, .marked t.span) := by
  have other {kind : Token.Kind} (plain : kind.isTypeMarker = false) : t.kind ≠ kind := by
    rintro rfl
    rw [isMarker] at plain
    exact nomatch plain
  cases w with
  | outside => exact outsideStep_typeMarker isMarker
  | marked marker =>
    have keyword := Token.Kind.not_isTypeKeyword_of_isTypeMarker isMarker
    rw [step, if_neg keyword, if_pos isMarker, outsideStep_typeMarker isMarker]
    rfl
  | keyword marker =>
    rw [step, if_neg (other rfl), outsideStep_typeMarker isMarker]
    rfl
  | body type => exact bodyStep_typeMarker isMarker type
  | fieldMarked type marker =>
    rw [step, if_neg (other rfl), declarationStep_typeMarker isMarker]
    rfl
  | arguments type marker depth =>
    rw [step]
    unfold argumentsStep
    rw [if_pos isMarker, bodyStep_typeMarker isMarker type]
    rfl
  | declaration type marker read => exact declarationStep_typeMarker isMarker type marker read

end TypeMarker

theorem run_append (w : Walk) {A B : List Token} (noEnd : ∀ t ∈ A, t.kind ≠ .endOfInput)
    (typeMarker : ∃ t ∈ B.head?, t.kind.isTypeMarker) :
    run w (A ++ B) = run w A ++ run outside B := by
  induction A generalizing w with
  | nil =>
    obtain ⟨t, head, isMarker⟩ := typeMarker
    obtain ⟨rest, rfl⟩ := List.head?_eq_some_iff.mp head
    have some : t.kind ≠ .endOfInput := by
      intro same
      rw [same] at isMarker
      exact nomatch isMarker
    rw [List.nil_append, run_cons some, run_cons some, step_typeMarker isMarker,
      step_typeMarker isMarker]
    rfl
  | cons t A ih =>
    have here : t.kind ≠ .endOfInput := noEnd t List.mem_cons_self
    have later := ih (w.step t).2 fun u member => noEnd u (List.mem_cons_of_mem t member)
    rw [List.cons_append, run_cons here, run_cons here, later, append_assoc]

/-! ### Inside a segment -/

/-- Tokens that one segment can hold. -/
def Plain (tokens : List Token) : Prop :=
  ∀ t ∈ tokens, t.kind ≠ .endOfInput ∧ ¬t.kind.isTypeMarker

theorem Plain.tail {t : Token} {rest : List Token} (plain : Plain (t :: rest)) : Plain rest :=
  fun u member => plain u (List.mem_cons_of_mem t member)

theorem Plain.suffix {tokens rest : List Token} (plain : Plain tokens) (suffix : rest <:+ tokens) :
    Plain rest :=
  fun t member => plain t (suffix.subset member)

theorem run_outside_of_plain {tokens : List Token} (plain : Plain tokens) :
    run outside tokens = empty := by
  induction tokens with
  | nil => rfl
  | cons t rest ih =>
    obtain ⟨inside, noMarker⟩ := plain t List.mem_cons_self
    rw [run_cons inside, step, outsideStep, if_neg noMarker]
    exact ih plain.tail

theorem withMember_malformed (type : ScriptType) (marker : Span) :
    type.withMember (.malformed marker) = type := by
  simp [ScriptType.withMember, Member.field?]

theorem withMember_method (type : ScriptType) (marker : Span) :
    type.withMember (.method marker) = type := by
  simp [ScriptType.withMember, Member.field?]

/-- What a body yields from a member on. -/
def runMember (type : ScriptType) (m : Member) (rest : List Token) : Extraction :=
  m.complaint type ++ run (.body (type.withMember m)) rest

theorem run_declaration (type : ScriptType) (marker : Span) (read : List Token)
    {tokens : List Token} (plain : Plain tokens) :
    run (.declaration type marker read) tokens =
      runMember type
        (.ofDeclaration marker (read ++ tokens.takeWhile fun t => !Member.endsDeclaration t))
        (tokens.dropWhile fun t => !Member.endsDeclaration t) := by
  induction tokens generalizing read with
  | nil =>
    rw [List.takeWhile_nil, List.dropWhile_nil, List.append_nil]
    rfl
  | cons t rest ih =>
    obtain ⟨inside, -⟩ := plain t List.mem_cons_self
    rw [run_cons inside, step, declarationStep]
    by_cases ends : Member.endsDeclaration t
    · rw [if_pos ends, List.takeWhile_cons_of_neg (by simpa using ends),
        List.dropWhile_cons_of_neg (by simpa using ends), List.append_nil, runMember,
        run_cons inside, step, ← append_assoc]
      rfl
    · have later := ih (read ++ [t]) plain.tail
      rw [List.append_assoc, List.singleton_append] at later
      rw [if_neg ends, List.takeWhile_cons_of_pos (by simpa using ends),
        List.dropWhile_cons_of_pos (by simpa using ends)]
      exact later

theorem run_arguments (type : ScriptType) (marker : Span) (depth : Nat) {tokens : List Token}
    (plain : Plain tokens) :
    run (.arguments type marker depth) tokens =
      match Member.closeParens depth tokens with
      | some rest => run (.declaration type marker []) rest
      | none => runMember type (.malformed marker) [] := by
  fun_induction Member.closeParens depth tokens with
  | case1 =>
    rw [runMember, withMember_malformed]
    rfl
  | case2 depth t rest kind ih =>
    obtain ⟨inside, noMarker⟩ := plain t List.mem_cons_self
    rw [run_cons inside, ← ih plain.tail, step]
    unfold argumentsStep
    rw [if_neg noMarker, kind]
    rfl
  | case3 t rest kind =>
    obtain ⟨inside, noMarker⟩ := plain t List.mem_cons_self
    rw [run_cons inside, step]
    unfold argumentsStep
    rw [if_neg noMarker, kind]
    rfl
  | case4 t rest d kind ih =>
    obtain ⟨inside, noMarker⟩ := plain t List.mem_cons_self
    rw [run_cons inside, ← ih plain.tail, step]
    unfold argumentsStep
    rw [if_neg noMarker, kind]
    rfl
  | case5 depth t rest opens closes deeper ih =>
    obtain ⟨inside, noMarker⟩ := plain t List.mem_cons_self
    rw [run_cons inside, ← ih plain.tail, step]
    unfold argumentsStep
    rw [if_neg noMarker]
    split
    · rename_i kind
      exact absurd kind opens
    · rename_i kind
      exact absurd rfl (closes kind)
    · rename_i d kind
      exact absurd rfl (deeper d kind)
    · rfl

theorem run_fieldMarked (type : ScriptType) (marker : Span) {tokens : List Token}
    (plain : Plain tokens) :
    run (.fieldMarked type marker) tokens =
      runMember type (Member.ofMarker marker tokens).1 (Member.ofMarker marker tokens).2 := by
  cases tokens with
  | nil => rfl
  | cons t rest =>
    obtain ⟨inside, -⟩ := plain t List.mem_cons_self
    by_cases opens : t.kind = .openParen
    · have list : Member.afterArguments (t :: rest) = Member.closeParens 0 rest := if_pos opens
      have walk : run (.fieldMarked type marker) (t :: rest) =
          run (.arguments type marker 0) rest := by
        rw [run_cons inside, step, if_pos opens]
        rfl
      rw [walk, run_arguments type marker 0 plain.tail, Member.ofMarker, list]
      cases closed : Member.closeParens 0 rest with
      | none => rfl
      | some after =>
        exact run_declaration type marker [] (plain.tail.suffix (Member.closeParens_suffix closed))
    · have list : Member.afterArguments (t :: rest) = some (t :: rest) := if_neg opens
      have walk : run (.fieldMarked type marker) (t :: rest) =
          run (.declaration type marker []) (t :: rest) := by
        rw [run_cons inside, run_cons inside, step, if_neg opens]
        rfl
      rw [walk, run_declaration type marker [] plain, Member.ofMarker, list]
      rfl

/-- What a type becomes with the members of its body, and the complaints about them. -/
def withMembers (type : ScriptType) (members : List Member) : Extraction :=
  ⟨[{ type with fields := type.fields ++ members.filterMap (Member.field? type.name) }],
    members.filterMap (Member.diagnostic? type.name)⟩

theorem withMembers_nil (type : ScriptType) : withMembers type [] = ⟨[type], []⟩ := by
  rw [withMembers, List.filterMap_nil, List.append_nil]
  rfl

theorem withMembers_cons (type : ScriptType) (m : Member) (members : List Member) :
    withMembers type (m :: members) = m.complaint type ++ withMembers (type.withMember m) members := by
  have name : (type.withMember m).name = type.name := rfl
  have fields : type.fields ++ (m :: members).filterMap (Member.field? type.name) =
      (type.withMember m).fields ++ members.filterMap (Member.field? type.name) := by
    rw [List.filterMap_cons, ScriptType.withMember]
    cases m.field? type.name <;> simp
  have diagnostics : (m :: members).filterMap (Member.diagnostic? type.name) =
      (m.diagnostic? type.name).toList ++ members.filterMap (Member.diagnostic? type.name) := by
    rw [List.filterMap_cons]
    cases m.diagnostic? type.name <;> rfl
  rw [withMembers, fields, diagnostics, withMembers, name]
  rfl

theorem run_body (type : ScriptType) {tokens : List Token} (plain : Plain tokens) :
    run (.body type) tokens = withMembers type (Member.ofBody tokens) := by
  fun_induction Member.ofBody tokens generalizing type with
  | case1 => exact (withMembers_nil type).symm
  | case2 t rest kind split ih =>
    obtain ⟨inside, noMarker⟩ := plain t List.mem_cons_self
    have read : bodyStep type t = (empty, .fieldMarked type t.span) := by
      rw [bodyStep, if_neg noMarker, kind]
    have left := plain.tail.suffix (Member.ofMarker_suffix t.span rest)
    rw [run_cons inside, step, read, withMembers_cons, ← ih _ left]
    exact run_fieldMarked type t.span plain.tail
  | case3 t rest kind ih =>
    obtain ⟨inside, noMarker⟩ := plain t List.mem_cons_self
    have read : bodyStep type t = ((Member.method t.span).complaint type, .body type) := by
      rw [bodyStep, if_neg noMarker, kind]
    rw [run_cons inside, step, read, withMembers_cons, withMember_method, ih type plain.tail]
  | case4 t rest noField noMethod ih =>
    obtain ⟨inside, noMarker⟩ := plain t List.mem_cons_self
    have read : bodyStep type t = (empty, .body type) := by
      rw [bodyStep, if_neg noMarker]
      split
      · rename_i kind
        exact absurd kind noField
      · rename_i kind
        exact absurd kind noMethod
      · rfl
    rw [run_cons inside, step, read, ← ih type plain.tail]
    rfl

theorem run_keyword (marker : Span) {t : Token} (keyword : t.kind.isTypeKeyword)
    {rest : List Token} (plain : Plain rest) :
    run (.keyword marker) rest = Segment.extract ⟨marker, t :: rest⟩ := by
  have front : (t :: rest).dropWhile (fun u => !u.kind.isTypeKeyword) = t :: rest :=
    List.dropWhile_cons_of_neg (by simpa using keyword)
  rw [Segment.extract, Segment.declaration?, front]
  cases rest with
  | nil => rfl
  | cons name rest =>
    obtain ⟨inside, noMarker⟩ := plain name List.mem_cons_self
    rw [run_cons inside, step]
    by_cases identifier : name.kind = .identifier
    · simp only [if_pos identifier]
      exact run_body (.declared name.lexeme) plain.tail
    · simp only [if_neg identifier, outsideStep, if_neg noMarker, say]
      rw [run_outside_of_plain plain.tail]
      rfl

theorem run_marked (marker : Span) {tokens : List Token} (plain : Plain tokens) :
    run (.marked marker) tokens = Segment.extract ⟨marker, tokens⟩ := by
  induction tokens with
  | nil => rfl
  | cons t rest ih =>
    obtain ⟨inside, noMarker⟩ := plain t List.mem_cons_self
    rw [run_cons inside, step]
    by_cases keyword : t.kind.isTypeKeyword
    · rw [if_pos keyword, ← run_keyword marker keyword plain.tail]
      rfl
    · have same : Segment.extract ⟨marker, t :: rest⟩ = Segment.extract ⟨marker, rest⟩ := by
        rw [Segment.extract, Segment.declaration?,
          List.dropWhile_cons_of_pos (by simpa using keyword)]
        rfl
      rw [if_neg keyword, if_neg noMarker, same, ← ih plain.tail]
      rfl

/-! ### All segments -/

theorem run_takeWhile (w : Walk) (tokens : List Token) :
    run w (tokens.takeWhile (·.kind ≠ .endOfInput)) = run w tokens := by
  induction tokens generalizing w with
  | nil => rfl
  | cons t rest ih =>
    by_cases last : t.kind = .endOfInput
    · rw [List.takeWhile_cons_of_neg (by simpa using last), run, run, if_pos last]
    · rw [List.takeWhile_cons_of_pos (by simpa using last), run_cons last, run_cons last, ih]

theorem run_segment (w : Walk) {tokens : List Token}
    (noEnd : ∀ t ∈ tokens, t.kind ≠ .endOfInput) :
    run w tokens =
      run w (tokens.takeWhile fun t => !t.kind.isTypeMarker) ++ run outside tokens := by
  generalize front : tokens.takeWhile (fun t => !t.kind.isTypeMarker) = segment
  generalize back : tokens.dropWhile (fun t => !t.kind.isTypeMarker) = later
  have whole : segment ++ later = tokens := by
    rw [← front, ← back, List.takeWhile_append_dropWhile]
  have plain : Plain segment := by
    intro t member
    refine ⟨noEnd t (whole ▸ List.mem_append_left later member), ?_⟩
    rw [← front] at member
    simpa using List.mem_takeWhile_imp member
  cases later with
  | nil =>
    rw [List.append_nil] at whole
    rw [← whole, run_outside_of_plain plain, append_empty]
  | cons t rest =>
    have marker : ∃ u ∈ (t :: rest).head?, u.kind.isTypeMarker := by
      have stops := List.head?_dropWhile_not (fun t : Token => !t.kind.isTypeMarker) tokens
      rw [back] at stops
      exact ⟨t, rfl, by simpa using stops⟩
    have clear : ∀ u ∈ segment, u.kind ≠ .endOfInput := fun u member => (plain u member).1
    rw [← whole, run_append w clear marker, run_append outside clear marker,
      run_outside_of_plain plain, empty_append]

theorem run_outside_segments {tokens : List Token}
    (noEnd : ∀ t ∈ tokens, t.kind ≠ .endOfInput) :
    run outside tokens =
      ⟨((Segment.all tokens).map Segment.extract).flatMap (·.types),
        ((Segment.all tokens).map Segment.extract).flatMap (·.diagnostics)⟩ := by
  induction tokens with
  | nil => rfl
  | cons t rest ih =>
    have inside := noEnd t List.mem_cons_self
    have later : ∀ u ∈ rest, u.kind ≠ .endOfInput :=
      fun u member => noEnd u (List.mem_cons_of_mem t member)
    rw [run_cons inside, step, Segment.all]
    by_cases marker : t.kind.isTypeMarker
    · have plain : Plain (rest.takeWhile fun u => !u.kind.isTypeMarker) := by
        intro u member
        exact ⟨later u ((List.takeWhile_prefix _).subset member),
          by simpa using List.mem_takeWhile_imp member⟩
      rw [outsideStep_typeMarker marker, if_pos marker, empty_append, run_segment _ later,
        run_marked t.span plain, ih later]
      rfl
    · rw [outsideStep, if_neg marker, if_neg marker, empty_append, ih later]

/-- One walk over the tokens comes to the same as reading them segment by segment. -/
theorem run_outside (tokens : List Token) : run outside tokens = Extraction.ofTokens tokens := by
  rw [← run_takeWhile, run_outside_segments, Extraction.ofTokens]
  exact fun t member => by simpa using List.mem_takeWhile_imp member

end Walk

namespace Extraction

/-- What is read from tokens that no end of input is among has no say in what is read from a type
marker on, whatever they leave unfinished. -/
theorem ofTokens_append {A B : List Token} (noEnd : ∀ t ∈ A, t.kind ≠ .endOfInput)
    (typeMarker : ∃ t ∈ B.head?, t.kind.isTypeMarker) :
    (ofTokens (A ++ B)).types = (ofTokens A).types ++ (ofTokens B).types ∧
      (ofTokens (A ++ B)).diagnostics = (ofTokens A).diagnostics ++ (ofTokens B).diagnostics := by
  have walked := Walk.run_append .outside noEnd typeMarker
  rw [Walk.run_outside, Walk.run_outside, Walk.run_outside] at walked
  rw [walked]
  exact ⟨rfl, rfl⟩

/-- Ends inside the argument list of a field marker. -/
def unfinishedTokens : List Token :=
  (Scan.of "UCLASS() class Lamp UPROPERTY() float level; UPROPERTY(Edit (int").tokens.dropLast

def nextTokens : List Token := (Scan.of "USTRUCT() struct Door UPROPERTY() bool open = x").tokens

theorem ofTokens_append_unfinished :
    (∀ t ∈ unfinishedTokens, t.kind ≠ .endOfInput) ∧
    (∃ t ∈ nextTokens.head?, t.kind.isTypeMarker) ∧
    (ofTokens (unfinishedTokens ++ nextTokens)).types =
      [(ScriptType.declared "Lamp").pushField (.scalar .float) "level",
        (ScriptType.declared "Door").pushField (.scalar .bool) "open"] ∧
    (ofTokens (unfinishedTokens ++ nextTokens)).diagnostics =
      [.malformedField "Lamp" ⟨45, 54, 1, 46⟩] := by
  have noEnd : ∀ t ∈ unfinishedTokens, t.kind ≠ .endOfInput := by decide +kernel
  have typeMarker : ∃ t ∈ nextTokens.head?, t.kind.isTypeMarker := by decide +kernel
  obtain ⟨types, diagnostics⟩ := ofTokens_append noEnd typeMarker
  exact ⟨noEnd, typeMarker, types.trans (by decide +kernel), diagnostics.trans (by decide +kernel)⟩

end Extraction

end ScriptGlue
