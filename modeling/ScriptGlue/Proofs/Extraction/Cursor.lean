import ScriptGlue.Proofs.Extraction.Accounting
import ScriptGlue.Proofs.Extraction.Walk

/-!
# Extraction by a cursor

A reader of tokens that steps from place to place, looks at the kind of the token there, counts open
parentheses down, and makes sure of none of this before it does it. What can go wrong is a fault of its own.
-/

namespace ScriptGlue

/-- What can go wrong as tokens are read by their places. -/
inductive Cursor.Fault
  /-- The last place is wanted, and there are no tokens. -/
  | noLast
  /-- A token is wanted from a place where none is. -/
  | outside
  /-- A parenthesis is closed, and none is open. -/
  | unopened
deriving Repr, DecidableEq

/-- A place among tokens, and the places where tokens were taken on the way to it, in order. -/
structure Cursor (tokens : List Token) where
  place : Nat
  taken : List Nat

namespace Cursor
open Extraction

variable {tokens : List Token} {α β : Type}

/-- What reading comes to: a fault, or something that was read and the place behind it. -/
abbrev Reading (tokens : List Token) (α : Type) : Type := Except Fault (α × Cursor tokens)

/-- Reads on from where a reading ended. -/
def Reading.andThen (r : Reading tokens α) (next : α → Cursor tokens → Reading tokens β) :
    Reading tokens β :=
  match r with
  | .error f => .error f
  | .ok (a, c) => next a c

/-! ### Steps -/

/-- The kind of the token at the place. Behind all tokens it is the end of input. -/
def kind (c : Cursor tokens) : Token.Kind := (tokens[c.place]?.map (·.kind)).getD .endOfInput

def atEnd (c : Cursor tokens) : Bool := tokens.length ≤ c.place || c.kind = .endOfInput

/-- Whether a type ends at the place. -/
def atEdge (c : Cursor tokens) : Bool := c.atEnd || c.kind.isTypeMarker

def lastPlace (tokens : List Token) : Except Fault Nat :=
  match tokens.length with
  | 0 => .error .noLast
  | n + 1 => .ok n

/-- Gives the token at the place, whatever it is, and steps past it. Behind all tokens it gives the last
one again and stays. -/
def take (c : Cursor tokens) : Reading tokens Token :=
  match lastPlace tokens with
  | .error f => .error f
  | .ok last =>
    match tokens[min c.place last]? with
    | none => .error .outside
    | some t =>
      .ok (t, ⟨if c.place < tokens.length then c.place + 1 else c.place, c.taken ++ [c.place]⟩)

example : (⟨0, []⟩ : Cursor []).take = .error .noLast := rfl

/-- The number of open parentheses behind a closing one. -/
def close : Nat → Except Fault Nat
  | 0 => .error .unopened
  | depth + 1 => .ok depth

/-! ### Progress -/

/-- Whatever is read, the place behind it is so many places further on. -/
def Moves (n : Nat) (c : Cursor tokens) (r : Reading tokens α) : Prop :=
  ∀ a next, r = .ok (a, next) → c.place + n ≤ next.place

section Moves

variable {n : Nat} {c next : Cursor tokens} {r : Reading tokens α} {t : Token}

theorem moves_ok (a : α) (c : Cursor tokens) : Moves 0 c (.ok (a, c)) := by
  rintro a next ⟨⟩
  exact Nat.le_refl _

theorem Moves.later (moves : Moves n next r) (onward : c.place ≤ next.place) : Moves n c r := by
  intro a last done
  have further := moves a last done
  omega

theorem Moves.andThen {k : α → Cursor tokens → Reading tokens β} (first : Moves n c r)
    (second : ∀ a next, Moves 0 next (k a next)) : Moves n c (r.andThen k) := by
  intro b last done
  cases read : r with
  | error f =>
    rw [read] at done
    exact nomatch done
  | ok given =>
    rw [read] at done
    have before := first given.1 given.2 read
    have after := second given.1 given.2 b last done
    omega

theorem place_lt_length (more : ¬c.atEnd) : c.place < tokens.length := by
  simp only [atEnd, Bool.or_eq_true, decide_eq_true_eq, not_or, Nat.not_le] at more
  exact more.1

theorem not_atEnd (more : ¬c.atEdge) : ¬c.atEnd := by
  intro ends
  simp [atEdge, ends] at more

theorem place_take (done : c.take = .ok (t, next)) :
    next.place = if c.place < tokens.length then c.place + 1 else c.place := by
  unfold take at done
  split at done
  · exact nomatch done
  · split at done
    · exact nomatch done
    · cases done
      rfl

theorem moves_take (c : Cursor tokens) : Moves 0 c c.take := by
  intro t next done
  rw [place_take done]
  split <;> omega

theorem moves_take_of_more (more : ¬c.atEnd) : Moves 1 c c.take := by
  intro t next done
  rw [place_take done, if_pos (place_lt_length more)]

end Moves

/-! ### Reading -/

/-- Takes tokens as long as there are some of the wanted kinds. -/
def takeWhile (p : Token.Kind → Bool) (c : Cursor tokens) : Reading tokens (List Token) :=
  if _more : ¬c.atEnd ∧ p c.kind then
    match _taken : c.take with
    | .error f => .error f
    | .ok (t, next) => (next.takeWhile p).andThen fun read last => .ok (t :: read, last)
  else .ok ([], c)
termination_by tokens.length - c.place
decreasing_by
  have inside := place_lt_length _more.1
  have onward := moves_take_of_more _more.1 t next _taken
  omega

theorem moves_takeWhile (p : Token.Kind → Bool) (c : Cursor tokens) : Moves 0 c (c.takeWhile p) := by
  fun_induction takeWhile p c with
  | case1 => exact nofun
  | case2 c more t next taken ih =>
    exact (ih.andThen fun read last => moves_ok (t :: read) last).later (moves_take c t next taken)
  | case3 c stop => exact moves_ok [] c

/-- Passes over a list of arguments in parentheses, and says whether it is closed before the type ends. -/
def passArguments (depth : Nat) (c : Cursor tokens) : Reading tokens Bool :=
  if _more : ¬c.atEdge then
    match _taken : c.take with
    | .error f => .error f
    | .ok (t, next) =>
      match t.kind with
      | .openParen => next.passArguments (depth + 1)
      | .closeParen =>
        match close depth with
        | .error f => .error f
        | .ok less => if less = 0 then .ok (true, next) else next.passArguments less
      | _ => next.passArguments depth
  else .ok (false, c)
termination_by tokens.length - c.place
decreasing_by
  all_goals
    have inside := place_lt_length (not_atEnd _more)
    have onward := moves_take_of_more (not_atEnd _more) t next _taken
    omega

/-- It is not safe wherever a closing parenthesis stands first. -/
example : (⟨0, []⟩ : Cursor [⟨.closeParen, ")", ⟨0, 1, 1, 1⟩⟩]).passArguments 0 = .error .unopened := by
  cbv

theorem moves_passArguments (depth : Nat) (c : Cursor tokens) : Moves 0 c (c.passArguments depth) := by
  fun_induction passArguments depth c with
  | case1 => exact nofun
  | case2 depth c more t next taken opens ih => exact ih.later (moves_take c t next taken)
  | case3 => exact nofun
  | case4 depth c more t next taken closes closed =>
    exact (moves_ok true next).later (moves_take c t next taken)
  | case5 depth c more t next taken closes less closed some ih =>
    exact ih.later (moves_take c t next taken)
  | case6 depth c more t next taken opens closes ih => exact ih.later (moves_take c t next taken)
  | case7 depth c stop => exact moves_ok false c

/-- A token of this kind is left to what comes behind a declaration. -/
def endsDeclaration (kind : Token.Kind) : Bool :=
  kind.isMarker || kind = .semicolon || kind = .equals || kind = .openBrace

/-- The field that a marker announces. -/
def field (c : Cursor tokens) : Reading tokens Member :=
  c.take.andThen fun marker c =>
    (if c.kind = .openParen then c.passArguments 0 else .ok (true, c)).andThen fun closed c =>
      if closed then
        (c.takeWhile (!endsDeclaration ·)).andThen fun read c =>
          .ok (.ofDeclaration marker.span read, c)
      else .ok (.malformed marker.span, c)

theorem moves_field {c : Cursor tokens} (more : ¬c.atEnd) : Moves 1 c c.field := by
  refine (moves_take_of_more more).andThen fun marker c => ?_
  refine Moves.andThen ?_ fun closed c => ?_
  · split
    · exact moves_passArguments 0 c
    · exact moves_ok true c
  · split
    · exact (moves_takeWhile _ c).andThen fun read c => moves_ok _ c
    · exact moves_ok _ c

/-- What the token at the place adds to a type, if anything. -/
def member? (c : Cursor tokens) : Reading tokens (Option Member) :=
  match c.kind with
  | .fieldMarker => c.field.andThen fun m c => .ok (some m, c)
  | .methodMarker => c.take.andThen fun marker c => .ok (some (.method marker.span), c)
  | _ => c.take.andThen fun _ c => .ok (none, c)

theorem moves_member? {c : Cursor tokens} (more : ¬c.atEnd) : Moves 1 c c.member? := by
  unfold member?
  split
  · exact (moves_field more).andThen fun m c => moves_ok (some m) c
  · exact (moves_take_of_more more).andThen fun marker c => moves_ok _ c
  · exact (moves_take_of_more more).andThen fun _ c => moves_ok none c

/-- The rest of a type, up to the next one. -/
def body (type : ScriptType) (c : Cursor tokens) : Reading tokens Extraction :=
  if _more : ¬c.atEdge then
    match _read : c.member? with
    | .error f => .error f
    | .ok (none, next) => next.body type
    | .ok (some m, next) =>
      (next.body (type.withMember m)).andThen fun found last => .ok (m.complaint type ++ found, last)
  else .ok (⟨[type], []⟩, c)
termination_by tokens.length - c.place
decreasing_by
  all_goals
    have inside := place_lt_length (not_atEnd _more)
    have onward := moves_member? (not_atEnd _more) _ next _read
    omega

theorem moves_body (type : ScriptType) (c : Cursor tokens) : Moves 0 c (c.body type) := by
  fun_induction body type c with
  | case1 => exact nofun
  | case2 type c more next read ih =>
    exact ih.later (Nat.le_of_lt (moves_member? (not_atEnd more) none next read))
  | case3 type c more m next read ih =>
    exact (ih.andThen fun found last => moves_ok _ last).later
      (Nat.le_of_lt (moves_member? (not_atEnd more) (some m) next read))
  | case4 type c stop => exact moves_ok _ c

/-- What a type marker announces. -/
def declaration (marker : Span) (c : Cursor tokens) : Reading tokens Extraction :=
  (c.takeWhile fun kind => !kind.isTypeKeyword && !kind.isTypeMarker).andThen fun _ c =>
    if c.atEdge then .ok (⟨[], [.missingTypeName marker]⟩, c)
    else c.take.andThen fun _ c =>
      if c.kind = .identifier then c.take.andThen fun name c => c.body (.declared name.lexeme)
      else .ok (⟨[], [.missingTypeName marker]⟩, c)

theorem moves_declaration (marker : Span) (c : Cursor tokens) : Moves 0 c (c.declaration marker) := by
  refine (moves_takeWhile _ c).andThen fun _ c => ?_
  split
  · exact moves_ok _ c
  · refine (moves_take c).andThen fun _ c => ?_
    split
    · exact (moves_take c).andThen fun name c => moves_body (.declared name.lexeme) c
    · exact moves_ok _ c

/-- A type, or one token that announces none. -/
def item (c : Cursor tokens) : Reading tokens Extraction :=
  if c.kind.isTypeMarker then c.take.andThen fun marker c => c.declaration marker.span
  else c.take.andThen fun _ c => .ok (empty, c)

theorem moves_item {c : Cursor tokens} (more : ¬c.atEnd) : Moves 1 c c.item := by
  unfold item
  split
  · exact (moves_take_of_more more).andThen fun marker c => moves_declaration marker.span c
  · exact (moves_take_of_more more).andThen fun _ c => moves_ok empty c

/-- Reads up to the end. -/
def read (c : Cursor tokens) : Reading tokens Extraction :=
  if _more : ¬c.atEnd then
    match _found : c.item with
    | .error f => .error f
    | .ok (here, next) => next.read.andThen fun later last => .ok (here ++ later, last)
  else .ok (empty, c)
termination_by tokens.length - c.place
decreasing_by
  have inside := place_lt_length _more
  have onward := moves_item _more _ next _found
  omega

end Cursor

end ScriptGlue
