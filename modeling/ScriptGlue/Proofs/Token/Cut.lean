import ScriptGlue.Token.Scan
import Mathlib.Data.List.Infix
import Mathlib.Data.List.TakeWhile

/-!
# Pieces of a source

What a piece is and what may stand behind it, said without cutting: `Leads`. The pieces of a source
are the one list with its text in which each piece leads what follows it (`all_eq_iff`), so whether
text is read the same in another place is a question about one piece and its surroundings.
-/

namespace ScriptGlue.Piece

/-! ### Literals, comments and lines -/

/-- What may stand between two quotes: no quote and no backslash but behind a backslash. -/
inductive LiteralBody : List Char → Prop
  | nil : LiteralBody []
  | plain {c : Char} {body : List Char} (quote : c ≠ '"') (backslash : c ≠ '\\')
      (rest : LiteralBody body) : LiteralBody (c :: body)
  | escape (c : Char) {body : List Char} (rest : LiteralBody body) : LiteralBody ('\\' :: c :: body)

theorem cutLiteral?_append_quote {body : List Char} (inside : LiteralBody body) (rest : List Char) :
    cutLiteral? (body ++ '"' :: rest) = some (body ++ ['"'], rest) := by
  induction inside with
  | nil => rfl
  | plain quote backslash _ ih =>
    rw [List.cons_append, cutLiteral?.eq_5 _ _ (by simp [quote]) (by simp [backslash])
      (by simp [backslash]), ih]
    rfl
  | escape c _ ih =>
    rw [List.cons_append, List.cons_append, cutLiteral?, ih]
    rfl

theorem literalBody_of_cutLiteral? {s a b : List Char} (cut : cutLiteral? s = some (a, b)) :
    ∃ body, LiteralBody body ∧ a = body ++ ['"'] := by
  fun_induction cutLiteral? s generalizing a b with
  | case1 => simp at cut
  | case2 rest =>
    obtain ⟨rfl, rfl⟩ := Prod.mk.inj (Option.some.inj cut)
    exact ⟨[], .nil, rfl⟩
  | case3 => simp at cut
  | case4 c rest ih =>
    obtain ⟨⟨a', b'⟩, inner, same⟩ := Option.map_eq_some_iff.mp cut
    obtain ⟨rfl, rfl⟩ := Prod.mk.inj same
    obtain ⟨body, inside, rfl⟩ := ih inner
    exact ⟨'\\' :: c :: body, .escape c inside, rfl⟩
  | case5 c rest quote last escape ih =>
    obtain ⟨⟨a', b'⟩, inner, same⟩ := Option.map_eq_some_iff.mp cut
    obtain ⟨rfl, rfl⟩ := Prod.mk.inj same
    obtain ⟨body, inside, rfl⟩ := ih inner
    have backslash : c ≠ '\\' := by
      rintro rfl
      cases rest with
      | nil => exact last rfl rfl
      | cons d rest => exact escape d rest rfl rfl
    exact ⟨c :: body, .plain quote backslash inside, rfl⟩

/-- No quote closes a literal that begins in front of `s`. -/
def Unclosed (s : List Char) : Prop := ∀ body rest, LiteralBody body → s ≠ body ++ '"' :: rest

theorem cutLiteral?_eq_none_iff {s : List Char} : cutLiteral? s = none ↔ Unclosed s := by
  constructor
  · rintro none body rest inside rfl
    rw [cutLiteral?_append_quote inside] at none
    exact nomatch none
  · intro unclosed
    cases cut : cutLiteral? s with
    | none => rfl
    | some parts =>
      obtain ⟨body, inside, same⟩ := literalBody_of_cutLiteral? cut
      have whole := cutLiteral?_append cut
      rw [same, List.append_assoc] at whole
      exact absurd whole.symm (unclosed body parts.2 inside)

theorem Unclosed.of_append {s rest : List Char} (unclosed : Unclosed (s ++ rest)) : Unclosed s := by
  rintro body more inside rfl
  exact unclosed body (more ++ rest) inside (by simp)

def commentEnd : List Char := ['*', '/']

theorem cutComment_append_end {body : List Char} (free : ¬commentEnd <:+: body)
    (rest : List Char) : cutComment (body ++ commentEnd ++ rest) = (body ++ commentEnd, rest) := by
  induction body with
  | nil => rfl
  | cons c body ih =>
    rw [List.infix_cons_iff, not_or] at free
    have noEnd : ∀ r, c = '*' → body ++ commentEnd ++ rest = '/' :: r → False := by
      rintro r rfl eq
      cases body with
      | nil => exact nomatch eq
      | cons d body =>
        obtain rfl := (List.cons.inj eq).1
        exact free.1 ⟨body, rfl⟩
    rw [List.cons_append, List.cons_append, cutComment.eq_3 _ _ noEnd, ih free.2]

theorem cutComment_of_free {body : List Char} (free : ¬commentEnd <:+: body) :
    cutComment body = (body, []) := by
  induction body with
  | nil => rfl
  | cons c body ih =>
    rw [List.infix_cons_iff, not_or] at free
    have noEnd : ∀ r, c = '*' → body = '/' :: r → False := by
      rintro r rfl rfl
      exact free.1 ⟨r, rfl⟩
    rw [cutComment.eq_3 _ _ noEnd, ih free.2]

theorem cutComment_cases (s : List Char) :
    (∃ body, ¬commentEnd <:+: body ∧ (cutComment s).1 = body ++ commentEnd) ∨
      (¬commentEnd <:+: s ∧ cutComment s = (s, [])) := by
  fun_induction cutComment s with
  | case1 => exact .inr ⟨by decide, rfl⟩
  | case2 rest => exact .inl ⟨[], by decide, rfl⟩
  | case3 c rest noEnd a b cut ih =>
    have front {more : List Char} (within : more <+: rest) : ¬commentEnd <+: c :: more := by
      intro here
      obtain ⟨tail, eq⟩ := here.trans (List.cons_prefix_cons.mpr ⟨rfl, within⟩)
      obtain ⟨rfl, rfl⟩ := List.cons.inj eq
      exact noEnd tail rfl rfl
    rcases ih with ⟨body, free, whole⟩ | ⟨free, whole⟩
    · rw [cut] at whole
      obtain rfl : a = body ++ commentEnd := whole
      have within : body <+: rest := by
        have split := cutComment_append rest
        rw [cut] at split
        exact ⟨commentEnd ++ b, by rw [← List.append_assoc]; exact split⟩
      exact .inl ⟨c :: body, List.infix_cons_iff.not.mpr (not_or.mpr ⟨front within, free⟩), rfl⟩
    · rw [cut] at whole
      obtain ⟨rfl, rfl⟩ := Prod.mk.inj whole
      exact .inr ⟨List.infix_cons_iff.not.mpr (not_or.mpr ⟨front List.prefix_rfl, free⟩), rfl⟩

theorem cutLine_append_newline {line : List Char} (clear : '\n' ∉ line) (rest : List Char) :
    cutLine (line ++ '\n' :: rest) = (line ++ ['\n'], rest) := by
  induction line with
  | nil => rfl
  | cons c line ih =>
    have other : c ≠ '\n' := (List.ne_of_not_mem_cons clear).symm
    rw [List.cons_append, cutLine.eq_3 _ _ other, ih (List.not_mem_of_not_mem_cons clear)]
    rfl

theorem cutLine_of_clear {line : List Char} (clear : '\n' ∉ line) : cutLine line = (line, []) := by
  induction line with
  | nil => rfl
  | cons c line ih =>
    have other : c ≠ '\n' := (List.ne_of_not_mem_cons clear).symm
    rw [cutLine.eq_3 _ _ other, ih (List.not_mem_of_not_mem_cons clear)]

theorem exists_line (s : List Char) :
    ∃ line, '\n' ∉ line ∧ (s = line ∨ ∃ rest, s = line ++ '\n' :: rest) := by
  by_cases newline : '\n' ∈ s
  · obtain ⟨line, rest, rfl, clear⟩ := List.eq_append_cons_of_mem newline
    exact ⟨line, clear, .inr ⟨rest, rfl⟩⟩
  · exact ⟨s, newline, .inl rfl⟩

/-! ### One piece -/

/-- `p` is the first piece of a source that goes on with `rest`. -/
inductive Leads : Piece → List Char → Prop
  | lineComment {body rest : List Char} (clear : '\n' ∉ body)
      (ends : ∀ c ∈ rest.head?, c = '\n') : Leads (.trivia ('/' :: '/' :: body)) rest
  | comment {body : List Char} (free : ¬commentEnd <:+: body) (rest : List Char) :
      Leads (.trivia ('/' :: '*' :: (body ++ commentEnd))) rest
  | openComment {body : List Char} (free : ¬commentEnd <:+: body) :
      Leads (.trivia ('/' :: '*' :: body)) []
  | literal {body : List Char} (inside : LiteralBody body) (rest : List Char) :
      Leads (.token .literal ('"' :: (body ++ ['"']))) rest
  | openQuote {line rest : List Char} (clear : '\n' ∉ line)
      (unclosed : Unclosed (line ++ '\n' :: rest)) :
      Leads (.openQuote ('"' :: (line ++ ['\n']))) rest
  | lastQuote {line : List Char} (clear : '\n' ∉ line) (unclosed : Unclosed line) :
      Leads (.openQuote ('"' :: line)) []
  | word {first : Char} {parts rest : List Char} (start : isWordStart first)
      (continues : ∀ c ∈ parts, isWordPart c) (ends : ∀ c ∈ rest.head?, isWordPart c = false) :
      Leads (.token (Token.Kind.ofWord (String.ofList (first :: parts))) (first :: parts)) rest
  | punctuation {c : Char} {kind : Token.Kind} (known : Token.Kind.ofPunctuation? c = some kind)
      (rest : List Char) : Leads (.token kind [c]) rest
  | single {c : Char} {rest : List Char} (quote : c ≠ '"') (start : isWordStart c = false)
      (unknown : Token.Kind.ofPunctuation? c = none)
      (noComment : c = '/' → ∀ d ∈ rest.head?, d ≠ '/' ∧ d ≠ '*') : Leads (.trivia [c]) rest

theorem takeWhile_append_of_ends {p : Char → Bool} {body rest : List Char}
    (continues : ∀ c ∈ body, p c) (ends : ∀ c ∈ rest.head?, p c = false) :
    (body ++ rest).takeWhile p = body ∧ (body ++ rest).dropWhile p = rest := by
  rw [List.takeWhile_append_of_pos continues, List.dropWhile_append_of_pos continues]
  cases rest with
  | nil => simp
  | cons c rest =>
    have other := ends c rfl
    simp [other]

theorem ends_dropWhile (p : Char → Bool) (s : List Char) :
    ∀ c ∈ (s.dropWhile p).head?, p c = false := by
  intro c head
  have stopped := List.head?_dropWhile_not p s
  rw [Option.mem_def.mp head] at stopped
  exact stopped

theorem mem_punctuation {c : Char} {kind : Token.Kind}
    (known : Token.Kind.ofPunctuation? c = some kind) : (c, kind) ∈ Token.Kind.punctuation := by
  obtain ⟨before, after, whole, -⟩ := List.lookup_eq_some_iff.mp known
  rw [whole]
  simp

theorem next_cons {c : Char} {rest : List Char} (quote : c ≠ '"')
    (noComment : c = '/' → ∀ d ∈ rest.head?, d ≠ '/' ∧ d ≠ '*') :
    next (c :: rest) =
      if isWordStart c then
        some (.token (Token.Kind.ofWord (String.ofList (c :: rest.takeWhile isWordPart)))
          (c :: rest.takeWhile isWordPart), rest.dropWhile isWordPart)
      else
        match Token.Kind.ofPunctuation? c with
        | some kind => some (.token kind [c], rest)
        | none => some (.trivia [c], rest) := by
  have line : ∀ r, c = '/' → rest = '/' :: r → False := by
    rintro r slash rfl
    exact (noComment slash '/' rfl).1 rfl
  have block : ∀ r, c = '/' → rest = '*' :: r → False := by
    rintro r slash rfl
    exact (noComment slash '*' rfl).2 rfl
  exact next.eq_5 _ _ line block quote

theorem next_of_leads {p : Piece} {rest : List Char} (leads : Leads p rest) :
    next (p.text ++ rest) = some (p, rest) := by
  cases leads with
  | @lineComment body _ clear ends =>
    have continues : ∀ c ∈ body, decide (c ≠ '\n') = true := by
      intro c member
      exact decide_eq_true fun same => clear (same ▸ member)
    have stops : ∀ c ∈ rest.head?, decide (c ≠ '\n') = false := by simpa using ends
    obtain ⟨taken, dropped⟩ := takeWhile_append_of_ends continues stops
    rw [text, List.cons_append, List.cons_append, next, taken, dropped]
  | @comment body free =>
    rw [text, List.cons_append, List.cons_append, next, cutComment_append_end free]
  | openComment free =>
    rw [List.append_nil, text, next, cutComment_of_free free]
  | literal inside =>
    rw [text, List.cons_append, List.append_assoc, List.singleton_append, next,
      cutLiteral?_append_quote inside]
  | openQuote clear unclosed =>
    rw [text, List.cons_append, List.append_assoc, List.singleton_append, next,
      cutLiteral?_eq_none_iff.mpr unclosed]
    simp only [cutLine_append_newline clear]
  | lastQuote clear unclosed =>
    rw [List.append_nil, text, next, cutLiteral?_eq_none_iff.mpr unclosed]
    simp only [cutLine_of_clear clear]
  | @word first parts _ start continues ends =>
    obtain ⟨taken, dropped⟩ := takeWhile_append_of_ends continues ends
    have quote : first ≠ '"' := by
      rintro rfl
      exact absurd start (by decide)
    have slash : first ≠ '/' := by
      rintro rfl
      exact absurd start (by decide)
    rw [text, List.cons_append, next_cons quote fun same => absurd same slash, if_pos start, taken,
      dropped]
  | @punctuation c kind known =>
    have apart : ∀ e ∈ Token.Kind.punctuation, e.1 ≠ '"' ∧ e.1 ≠ '/' ∧ isWordStart e.1 = false := by
      decide
    obtain ⟨quote, slash, start⟩ := apart _ (mem_punctuation known)
    rw [text, List.singleton_append, next_cons quote fun same => absurd same slash,
      if_neg (by simp [start]), known]
  | single quote start unknown noComment =>
    rw [text, List.singleton_append, next_cons quote noComment, if_neg (by simp [start]), unknown]

theorem leads_of_next {s rest : List Char} {p : Piece} (cut : next s = some (p, rest)) :
    Leads p rest := by
  unfold next at cut
  split at cut
  · exact nomatch cut
  · rename_i r
    obtain ⟨rfl, rfl⟩ := Prod.mk.inj (Option.some.inj cut)
    have ends := ends_dropWhile (· ≠ '\n') r
    have clear : '\n' ∉ r.takeWhile (· ≠ '\n') := fun member => by
      simpa using List.mem_takeWhile_imp member
    exact .lineComment clear (by simpa using ends)
  · rename_i r
    obtain ⟨rfl, rfl⟩ := Prod.mk.inj (Option.some.inj cut)
    rcases cutComment_cases r with ⟨body, free, whole⟩ | ⟨free, whole⟩
    · rw [whole]
      exact .comment free _
    · rw [whole]
      exact .openComment free
  · rename_i r
    split at cut
    · rename_i a b closed
      obtain ⟨rfl, rfl⟩ := Prod.mk.inj (Option.some.inj cut)
      obtain ⟨body, inside, rfl⟩ := literalBody_of_cutLiteral? closed
      exact .literal inside b
    · rename_i none
      have unclosed := cutLiteral?_eq_none_iff.mp none
      obtain ⟨rfl, rfl⟩ := Prod.mk.inj (Option.some.inj cut)
      obtain ⟨line, clear, rfl | ⟨rest, rfl⟩⟩ := exists_line r
      · rw [cutLine_of_clear clear]
        exact .lastQuote clear unclosed
      · rw [cutLine_append_newline clear]
        exact .openQuote clear unclosed
  · rename_i c r line block quote
    split at cut
    · rename_i start
      obtain ⟨rfl, rfl⟩ := Prod.mk.inj (Option.some.inj cut)
      exact .word start (fun _ => List.mem_takeWhile_imp) (ends_dropWhile isWordPart r)
    · rename_i start
      split at cut
      · rename_i kind known
        obtain ⟨rfl, rfl⟩ := Prod.mk.inj (Option.some.inj cut)
        exact .punctuation known r
      · rename_i unknown
        obtain ⟨rfl, rfl⟩ := Prod.mk.inj (Option.some.inj cut)
        refine .single quote (by simpa using start) unknown ?_
        rintro rfl d head
        obtain ⟨tail, rfl⟩ := List.head?_eq_some_iff.mp head
        constructor
        · rintro rfl
          exact line tail rfl rfl
        · rintro rfl
          exact block tail rfl rfl

theorem next_eq_some_iff {s rest : List Char} {p : Piece} :
    next s = some (p, rest) ↔ s = p.text ++ rest ∧ Leads p rest := by
  constructor
  · intro cut
    exact ⟨(next_append cut).1.symm, leads_of_next cut⟩
  · rintro ⟨rfl, leads⟩
    exact next_of_leads leads

/-! ### All pieces -/

/-- Each piece is the first of what it begins. -/
def Cut : List Piece → Prop
  | [] => True
  | p :: ps => Leads p (ps.flatMap text) ∧ Cut ps

theorem all_nil : all [] = [] := by
  rw [all]
  rfl

theorem all_of_next {s rest : List Char} {p : Piece} (cut : next s = some (p, rest)) :
    all s = p :: all rest := by
  rw [all]
  split
  · rename_i none
    rw [cut] at none
    exact absurd none (Option.some_ne_none _)
  · rename_i found
    rw [cut] at found
    obtain ⟨rfl, rfl⟩ := Prod.mk.inj (Option.some.inj found)
    rfl

theorem next_eq_none_iff {s : List Char} : next s = none ↔ s = [] := by
  constructor
  · intro none
    unfold next at none
    split at none
    · rfl
    · exact nomatch none
    · exact nomatch none
    · split at none <;> exact nomatch none
    · split at none
      · exact nomatch none
      · split at none <;> exact nomatch none
  · rintro rfl
    rfl

theorem cut_all (s : List Char) : (all s).flatMap text = s ∧ Cut (all s) := by
  fun_induction all s with
  | case1 s none =>
    obtain rfl := next_eq_none_iff.mp none
    exact ⟨rfl, trivial⟩
  | case2 s p rest cut ih =>
    obtain ⟨rfl, leads⟩ := next_eq_some_iff.mp cut
    refine ⟨?_, ?_, ih.2⟩
    · rw [List.flatMap_cons, ih.1]
    · rw [ih.1]
      exact leads

theorem Leads.text_ne_nil {p : Piece} {rest : List Char} (leads : Leads p rest) : p.text ≠ [] :=
  (next_append (next_of_leads leads)).2

theorem Cut.eq_nil {ps : List Piece} (cut : Cut ps) (nothing : ps.flatMap text = []) : ps = [] := by
  cases ps with
  | nil => rfl
  | cons p ps => exact absurd (List.append_eq_nil_iff.mp nothing).1 cut.1.text_ne_nil

theorem Cut.leads_of_mem {ps : List Piece} (cut : Cut ps) {p : Piece} (member : p ∈ ps) :
    ∃ rest, Leads p rest := by
  induction ps with
  | nil => exact nomatch member
  | cons q ps ih =>
    rcases List.mem_cons.mp member with rfl | later
    · exact ⟨_, cut.1⟩
    · exact ih cut.2 later

theorem all_of_cut {ps : List Piece} (cut : Cut ps) : all (ps.flatMap text) = ps := by
  induction ps with
  | nil => exact all_nil
  | cons p ps ih =>
    rw [List.flatMap_cons, all_of_next (next_of_leads cut.1), ih cut.2]

theorem all_eq_iff {s : List Char} {ps : List Piece} :
    all s = ps ↔ s = ps.flatMap text ∧ Cut ps := by
  constructor
  · rintro rfl
    exact ⟨(cut_all s).1.symm, (cut_all s).2⟩
  · rintro ⟨rfl, cut⟩
    exact all_of_cut cut

/-! ### Part of a source -/

/-- A piece stays the first when the end of what follows is taken away. -/
theorem Leads.of_append {p : Piece} {more rest : List Char} (leads : Leads p (more ++ rest)) :
    Leads p more := by
  have head {c : Char} (front : c ∈ more.head?) : c ∈ (more ++ rest).head? := by
    rw [List.head?_append, Option.mem_def.mp front]
    rfl
  generalize whole : more ++ rest = s at leads head
  cases leads with
  | lineComment clear ends => exact .lineComment clear fun c front => ends c (head front)
  | comment free => exact .comment free more
  | openComment free =>
    obtain ⟨rfl, -⟩ := List.append_eq_nil_iff.mp whole
    exact .openComment free
  | literal inside => exact .literal inside more
  | @openQuote line _ clear unclosed =>
    subst whole
    have longer : Unclosed ((line ++ '\n' :: more) ++ rest) := by
      rw [List.append_assoc]
      exact unclosed
    exact .openQuote clear longer.of_append
  | lastQuote clear unclosed =>
    obtain ⟨rfl, -⟩ := List.append_eq_nil_iff.mp whole
    exact .lastQuote clear unclosed
  | word start continues ends => exact .word start continues fun c front => ends c (head front)
  | punctuation known => exact .punctuation known more
  | single quote start unknown noComment =>
    exact .single quote start unknown fun slash d front => noComment slash d (head front)

theorem Cut.left {ps qs : List Piece} (cut : Cut (ps ++ qs)) : Cut ps := by
  induction ps with
  | nil => trivial
  | cons p ps ih =>
    have leads : Leads p (ps.flatMap text ++ qs.flatMap text) := by
      rw [← List.flatMap_append]
      exact cut.1
    exact ⟨leads.of_append, ih cut.2⟩

theorem Cut.right {ps qs : List Piece} (cut : Cut (ps ++ qs)) : Cut qs := by
  induction ps with
  | nil => exact cut
  | cons p ps ih => exact ih cut.2

/-- The pieces between two places of a source are those of the text between them. -/
theorem all_between {s : List Char} {before between after : List Piece}
    (whole : all s = before ++ (between ++ after)) : all (between.flatMap text) = between := by
  have cut := (all_eq_iff.mp whole).2
  exact all_of_cut cut.right.left

end ScriptGlue.Piece
