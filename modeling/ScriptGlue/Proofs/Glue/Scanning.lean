import ScriptGlue.Proofs.Extraction.Inert
import ScriptGlue.Proofs.Glue.Reading
import ScriptGlue.Proofs.Token.Printing

/-!
# Scanning glue

Glue scanned as a header is. A function of it is fixed text with names filled in, and whatever
identifiers these are, the fixed text is cut as it is on its own (`firm_fill`). Nothing in it declares
anything (`exists_inert_text`).
-/

namespace ScriptGlue.Glue
open Piece (all)

/-- Whatever stands behind it, `text` makes tokens of these kinds, and no quote of it is open. -/
def Firm (text : String) (kinds : List Token.Kind) : Prop :=
  ∀ rest, ∃ pieces, all (text.toList ++ rest) = pieces ++ all rest ∧
    pieces.filterMap Piece.kind? = kinds ∧ ∀ line, .openQuote line ∉ pieces

def kinds (text : String) : List Token.Kind := (all text.toList).filterMap Piece.kind?

theorem firm_empty : Firm "" [] := fun _ => ⟨[], rfl, rfl, nofun⟩

theorem Firm.append {a b : String} {aKinds bKinds : List Token.Kind} (first : Firm a aKinds)
    (second : Firm b bKinds) : Firm (a ++ b) (aKinds ++ bKinds) := by
  intro rest
  obtain ⟨before, cutBefore, rfl, noQuote⟩ := first (b.toList ++ rest)
  obtain ⟨behind, cutBehind, rfl, noLater⟩ := second rest
  refine ⟨before ++ behind, ?_, List.filterMap_append, fun line member => ?_⟩
  · rw [String.toList_append, List.append_assoc, cutBefore, cutBehind, List.append_assoc]
  · rcases List.mem_append.mp member with here | later
    · exact noQuote line here
    · exact noLater line later

/-! ### Fixed text -/

/-- A piece of one character that nothing behind it can join. -/
def isMark : Piece → Bool
  | .token kind [c] => Token.Kind.ofPunctuation? c = some kind
  | .trivia [c] => Piece.isBlank c
  | _ => false

def isOpenQuote : Piece → Bool
  | .openQuote _ => true
  | _ => false

/-- A text whose last piece is a mark, and without an open quote. -/
def Fixed (text : String) : Prop :=
  (∀ p ∈ all text.toList, isOpenQuote p = false) ∧ ∃ p ∈ (all text.toList).getLast?, isMark p

instance (text : String) : Decidable (Fixed text) := inferInstanceAs (Decidable (_ ∧ _))

theorem leads_mark {p : Piece} (mark : isMark p) (rest : List Char) : Piece.Leads p rest := by
  unfold isMark at mark
  split at mark
  · exact .punctuation (of_decide_eq_true mark) rest
  · exact Layout.leads_blank mark rest
  · exact nomatch mark

theorem leads_append {p : Piece} {more : List Char} (leads : Piece.Leads p more)
    (noQuote : isOpenQuote p = false) (inside : more ≠ []) (rest : List Char) :
    Piece.Leads p (more ++ rest) := by
  have head {c : Char} (front : c ∈ (more ++ rest).head?) : c ∈ more.head? := by
    cases more with
    | nil => exact absurd rfl inside
    | cons d more => exact front
  cases leads with
  | lineComment clear ends => exact .lineComment clear fun c front => ends c (head front)
  | comment free => exact .comment free _
  | openComment => exact absurd rfl inside
  | literal body => exact .literal body _
  | openQuote => exact nomatch noQuote
  | lastQuote => exact nomatch noQuote
  | word start continues ends => exact .word start continues fun c front => ends c (head front)
  | punctuation known => exact .punctuation known _
  | single quote start unknown noComment =>
    exact .single quote start unknown fun slash d front => noComment slash d (head front)

theorem cut_append {ps qs : List Piece} (cut : Piece.Cut ps)
    (noQuote : ∀ p ∈ ps, isOpenQuote p = false) (mark : ∀ p ∈ ps.getLast?, isMark p)
    (rest : Piece.Cut qs) : Piece.Cut (ps ++ qs) := by
  induction ps with
  | nil => exact rest
  | cons p ps ih =>
    obtain ⟨here, later⟩ := List.forall_mem_cons.mp noQuote
    cases ps with
    | nil => exact ⟨leads_mark (mark p rfl) _, rest⟩
    | cons q ps =>
      have behind : Piece.Cut (q :: ps) := cut.2
      have inside := behind.text_ne_nil List.mem_cons_self
      refine ⟨?_, ih behind later fun last member => mark last (by simpa using member)⟩
      change Piece.Leads p ((q :: ps ++ qs).flatMap Piece.text)
      rw [List.flatMap_append]
      exact leads_append cut.1 here inside _

theorem Fixed.firm {text : String} (fixed : Fixed text) : Firm text (kinds text) := by
  obtain ⟨noQuote, last, ends, mark⟩ := fixed
  intro rest
  refine ⟨all text.toList, ?_, rfl, fun line member => nomatch noQuote _ member⟩
  obtain ⟨own, cut⟩ := Piece.cut_all text.toList
  obtain ⟨other, cutRest⟩ := Piece.cut_all rest
  refine Piece.all_eq_iff.mpr ⟨by rw [List.flatMap_append, own, other], ?_⟩
  refine cut_append cut noQuote (fun p member => ?_) cutRest
  obtain rfl := Option.mem_unique member ends
  exact mark

/-! ### Names filled in -/

/-- A text with names in it, each with what stands behind it. -/
def fill (front : String) (names : List (String × String)) : String :=
  front ++ String.join (names.map fun n => n.1 ++ n.2)

/-- The kinds of the tokens of a text with identifiers for names. -/
def filledKinds (front : String) (behind : List String) : List Token.Kind :=
  kinds front ++ behind.flatMap fun text => .identifier :: kinds text

theorem firm_name {name text : String} {ks : List Token.Kind} (identifier : IsIdentifier name)
    (firm : Firm text ks) (apart : text.toList.head?.map Piece.isWordPart = some false) :
    Firm (name ++ text) (.identifier :: ks) := by
  intro rest
  obtain ⟨pieces, cut, rfl, noQuote⟩ := firm rest
  have kind := Token.Kind.ofWord_eq_identifier_iff.mpr identifier.2
  have ends : ∀ c ∈ (text.toList ++ rest).head?, Piece.isWordPart c = false := by
    obtain ⟨c, head, other⟩ := Option.map_eq_some_iff.mp apart
    intro d front
    rw [List.head?_append, head] at front
    obtain rfl := Option.some.inj front
    exact other
  have leads := Layout.leads_word identifier.1 ends
  rw [kind] at leads
  refine ⟨.token .identifier name.toList :: pieces, ?_, rfl, fun line member => ?_⟩
  · rw [String.toList_append, List.append_assoc, List.cons_append, ← cut]
    exact Piece.all_of_next (Piece.next_of_leads leads)
  · rcases List.mem_cons.mp member with here | later
    · exact nomatch here
    · exact noQuote line later

/-- What can stand between two names. -/
def Separates (text : String) : Prop :=
  Fixed text ∧ text.toList.head?.map Piece.isWordPart = some false

instance (text : String) : Decidable (Separates text) := inferInstanceAs (Decidable (_ ∧ _))

theorem firm_fill {front : String} {names : List (String × String)} {behind : List String}
    (fixed : Fixed front) (identifiers : ∀ n ∈ names, IsIdentifier n.1)
    (same : names.map (·.2) = behind) (separates : ∀ text ∈ behind, Separates text) :
    Firm (fill front names) (filledKinds front behind) := by
  subst same
  refine fixed.firm.append ?_
  induction names with
  | nil => exact firm_empty
  | cons n names ih =>
    obtain ⟨name, later⟩ := List.forall_mem_cons.mp identifiers
    obtain ⟨⟨own, apart⟩, others⟩ := List.forall_mem_cons.mp separates
    have joined : String.join ((n :: names).map fun n => n.1 ++ n.2) =
        n.1 ++ n.2 ++ String.join (names.map fun n => n.1 ++ n.2) := by
      apply String.toList_injective
      simp
    rw [joined]
    exact (firm_name name own.firm apart).append (ih later others)

theorem firm_remark {text : String} (clear : '\n' ∉ text.toList) :
    Firm (Item.remark text).text [] := by
  intro rest
  have newline (more : List Char) : all ('\n' :: more) = .trivia ['\n'] :: all more :=
    Piece.all_of_next rfl
  have comment : Piece.Leads (.trivia ('/' :: '/' :: ' ' :: text.toList)) ('\n' :: rest) := by
    refine .lineComment ?_ fun c head => (Option.some.inj head).symm
    exact List.not_mem_cons_of_ne_of_not_mem (by decide) clear
  have line : all ('/' :: '/' :: ' ' :: (text.toList ++ '\n' :: rest)) =
      .trivia ('/' :: '/' :: ' ' :: text.toList) :: all ('\n' :: rest) :=
    Piece.all_of_next (Piece.next_of_leads comment)
  have whole : (Item.remark text).text.toList ++ rest =
      '\n' :: '/' :: '/' :: ' ' :: (text.toList ++ '\n' :: rest) := by
    simp [Item.text, Item.lines, Text.unlines]
  refine ⟨[.trivia ['\n'], .trivia ('/' :: '/' :: ' ' :: text.toList), .trivia ['\n']], ?_, rfl, ?_⟩
  · rw [whole, newline, line, newline]
    rfl
  · simp

/-! ### Entries -/

section Entry

variable (t : ScriptType) (typeName : String) (f : Field) (kind : ScalarKind)

theorem text_creation : Item.text (.function (creation t)) =
    fill "\n" [("extern", " \"C\" "), ("NS_EXPORT", " "), (t.name, "* "), (t.create, "() \x7b\n\t"),
      ("return", " "), ("new", " "), (t.name, "();\n\x7d\n")] := by
  apply String.toList_injective
  simp [Item.text, Item.lines, ExportedFunction.lines, creation, fill, Text.unlines]

theorem text_destruction : Item.text (.function (destruction t)) =
    fill "\n" [("extern", " \"C\" "), ("NS_EXPORT", " "), ("void", " "), (t.destroy, "("),
      (t.name, "* "), ("x", ") \x7b\n\t"), ("delete", " "), ("x", ";\n\x7d\n")] := by
  apply String.toList_injective
  simp [Item.text, Item.lines, ExportedFunction.lines, destruction, fill, Text.unlines]

theorem text_getter : Item.text (.function (getter typeName f kind)) =
    fill "\n" [("extern", " \"C\" "), ("NS_EXPORT", " "), (kind.keyword, " "), (f.getter, "("),
      (typeName, "* "), ("x", ") \x7b\n\t"), ("return", " "), ("x", "->"),
      (f.name, ";\n\x7d\n")] := by
  apply String.toList_injective
  simp [Item.text, Item.lines, ExportedFunction.lines, getter, fill, Text.unlines]

theorem text_setter : Item.text (.function (setter typeName f kind)) =
    fill "\n" [("extern", " \"C\" "), ("NS_EXPORT", " "), ("void", " "), (f.setter, "("),
      (typeName, "* "), ("x", ", "), (kind.keyword, " "), ("v", ") \x7b\n\t"), ("x", "->"),
      (f.name, " = "), ("v", ";\n\x7d\n")] := by
  apply String.toList_injective
  simp [Item.text, Item.lines, ExportedFunction.lines, setter, fill, Text.unlines]

end Entry

/-- A text of tokens that begin nothing. -/
def Idles (text : String) : Prop := ∃ kinds, Firm text kinds ∧ Idle kinds

theorem idles_join {texts : List String} (each : ∀ text ∈ texts, Idles text) :
    Idles (String.join texts) := by
  induction texts with
  | nil => exact ⟨[], firm_empty, .nil⟩
  | cons text texts ih =>
    obtain ⟨here, later⟩ := List.forall_mem_cons.mp each
    obtain ⟨first, firm, idle⟩ := here
    obtain ⟨second, firmRest, idleRest⟩ := ih later
    have joined : String.join (text :: texts) = text ++ String.join texts := by
      apply String.toList_injective
      simp
    rw [joined]
    exact ⟨first ++ second, firm.append firmRest, idle.append idleRest⟩

theorem isIdentifier_keyword (kind : ScalarKind) : IsIdentifier kind.keyword := by
  cases kind <;> decide +kernel

theorem fixed_newline : Fixed "\n" := by decide +kernel

theorem isIdentifier_words : IsIdentifier "extern" ∧ IsIdentifier "NS_EXPORT" ∧
    IsIdentifier "void" ∧ IsIdentifier "return" ∧ IsIdentifier "new" ∧ IsIdentifier "delete" ∧
    IsIdentifier "x" ∧ IsIdentifier "v" := by decide +kernel

theorem exists_inert_creation {t : ScriptType} (name : IsIdentifier t.name)
    (create : IsIdentifier t.create) :
    ∃ kinds, Firm (Item.text (.function (creation t))) kinds ∧ Inert kinds := by
  have kinds : filledKinds "\n" [" \"C\" ", " ", "* ", "() \x7b\n\t", " ", " ", "();\n\x7d\n"] =
      [.identifier, .literal, .identifier, .identifier, .star, .identifier, .openParen] ++
        .closeParen :: .openBrace :: [.identifier, .identifier, .identifier, .openParen, .closeParen,
          .semicolon, .closeBrace] := by decide +kernel
  rw [text_creation]
  refine ⟨filledKinds "\n" [" \"C\" ", " ", "* ", "() \x7b\n\t", " ", " ", "();\n\x7d\n"],
    firm_fill fixed_newline ?_ rfl (by decide +kernel), ⟨?_, ?_⟩⟩
  · simp [isIdentifier_words, name, create]
  · rw [kinds]
    decide
  · exact ⟨_, _, kinds, by decide⟩

theorem idles_destruction {t : ScriptType} (name : IsIdentifier t.name)
    (destroy : IsIdentifier t.destroy) : Idles (Item.text (.function (destruction t))) := by
  rw [text_destruction]
  refine ⟨filledKinds "\n" [" \"C\" ", " ", " ", "(", "* ", ") \x7b\n\t", " ", ";\n\x7d\n"],
    firm_fill fixed_newline ?_ rfl (by decide +kernel), by decide +kernel⟩
  simp [isIdentifier_words, name, destroy]

theorem idles_getter {typeName : String} {f : Field} (owner : IsIdentifier typeName)
    (name : IsIdentifier f.name) (symbol : IsIdentifier f.getter) (kind : ScalarKind) :
    Idles (Item.text (.function (getter typeName f kind))) := by
  rw [text_getter]
  refine ⟨filledKinds "\n" [" \"C\" ", " ", " ", "(", "* ", ") \x7b\n\t", " ", "->", ";\n\x7d\n"],
    firm_fill fixed_newline ?_ rfl (by decide +kernel), by decide +kernel⟩
  simp [isIdentifier_words, isIdentifier_keyword, owner, name, symbol]

theorem idles_setter {typeName : String} {f : Field} (owner : IsIdentifier typeName)
    (name : IsIdentifier f.name) (symbol : IsIdentifier f.setter) (kind : ScalarKind) :
    Idles (Item.text (.function (setter typeName f kind))) := by
  rw [text_setter]
  refine ⟨filledKinds "\n" [" \"C\" ", " ", " ", "(", "* ", ", ", " ", ") \x7b\n\t", "->", " = ",
    ";\n\x7d\n"], firm_fill fixed_newline ?_ rfl (by decide +kernel), by decide +kernel⟩
  simp [isIdentifier_words, isIdentifier_keyword, owner, name, symbol]

/-! ### Glue of types with identifiers for names -/

/-- A type with the symbols of the convention, all of whose names are identifiers. -/
structure Emittable (t : ScriptType) : Prop where
  declared : t.IsDeclared
  name : IsIdentifier t.name
  fields : ∀ f ∈ t.fields, IsIdentifier f.name

theorem isIdentifier_of_prefix {front text : String} (word : IsWord (front ++ text))
    (apart : ∀ e ∈ Token.Kind.reserved, ¬front.toList <+: e.1.toList) :
    IsIdentifier (front ++ text) := by
  refine ⟨word, fun e member same => apart e member ⟨text.toList, ?_⟩⟩
  rw [same, String.toList_append]

theorem isIdentifier_of_underscore {text : String} (word : IsWord text)
    (underscore : '_' ∈ text.toList) : IsIdentifier text := by
  have clear : ∀ e ∈ Token.Kind.reserved, '_' ∉ e.1.toList := by decide
  refine ⟨word, ?_⟩
  rintro e member rfl
  exact clear e member underscore

namespace Emittable

variable {t : ScriptType} {f : Field}

theorem create (emittable : Emittable t) : IsIdentifier t.create := by
  rw [emittable.declared.create]
  exact isIdentifier_of_prefix (isWord_create emittable.name.1) (by decide)

theorem destroy (emittable : Emittable t) : IsIdentifier t.destroy := by
  rw [emittable.declared.destroy]
  exact isIdentifier_of_prefix (isWord_destroy emittable.name.1) (by decide)

theorem getter (emittable : Emittable t) (member : f ∈ t.fields) : IsIdentifier f.getter := by
  have underscore : '_' ∈ (Symbol.getter t.name f.name).toList := by simp [Symbol.getter]
  rw [emittable.declared.fields f member]
  exact isIdentifier_of_underscore (isWord_getter emittable.name.1 (emittable.fields f member).1)
    underscore

theorem setter (emittable : Emittable t) (member : f ∈ t.fields) : IsIdentifier f.setter := by
  have underscore : '_' ∈ (Symbol.setter t.name f.name).toList := by simp [Symbol.setter]
  rw [emittable.declared.fields f member]
  exact isIdentifier_of_underscore (isWord_setter emittable.name.1 (emittable.fields f member).1)
    underscore

theorem idles_fieldItems (emittable : Emittable t) (member : f ∈ t.fields) {i : Item}
    (own : i ∈ fieldItems t.name f) : Idles i.text := by
  have legible := legible_of_mem_fieldItems emittable.declared.isIdentified member own
  unfold fieldItems at own
  split at own
  · rename_i kind _
    simp only [List.mem_cons, List.not_mem_nil, or_false] at own
    rcases own with rfl | rfl
    · exact idles_getter emittable.name (emittable.fields f member) (emittable.getter member) kind
    · exact idles_setter emittable.name (emittable.fields f member) (emittable.setter member) kind
  · obtain rfl := List.mem_singleton.mp own
    exact ⟨[], firm_remark legible, .nil⟩

theorem exists_inert_items (emittable : Emittable t) :
    ∃ kinds, Firm (String.join ((items t).map Item.text)) kinds ∧ Inert kinds := by
  obtain ⟨first, firm, inert⟩ := exists_inert_creation emittable.name emittable.create
  have later : ∀ text ∈ (Item.function (destruction t) :: t.fields.flatMap (fieldItems t.name)).map
      Item.text, Idles text := by
    intro text member
    obtain ⟨i, inside, rfl⟩ := List.mem_map.mp member
    rcases List.mem_cons.mp inside with rfl | inside
    · exact idles_destruction emittable.name emittable.destroy
    · obtain ⟨f, field, own⟩ := List.mem_flatMap.mp inside
      exact emittable.idles_fieldItems field own
  obtain ⟨rest, firmRest, idle⟩ := idles_join later
  refine ⟨first ++ rest, ?_, inert.append idle⟩
  have joined : String.join ((items t).map Item.text) =
      Item.text (.function (creation t)) ++ String.join ((Item.function (destruction t) ::
        t.fields.flatMap (fieldItems t.name)).map Item.text) := by
    apply String.toList_injective
    simp [items]
  rw [joined]
  exact firm.append firmRest

end Emittable

theorem exists_inert_text {types : List ScriptType} (some : types ≠ [])
    (emittable : ∀ t ∈ types, Emittable t) :
    ∃ kinds, Firm (text types) kinds ∧ Inert kinds := by
  obtain ⟨t, types, rfl⟩ := List.exists_cons_of_ne_nil some
  obtain ⟨first, others⟩ := List.forall_mem_cons.mp emittable
  obtain ⟨kinds, firm, inert⟩ := first.exists_inert_items
  have rest : ∀ text ∈ types.map fun t => String.join ((items t).map Item.text), Idles text := by
    intro text member
    obtain ⟨u, inside, rfl⟩ := List.mem_map.mp member
    obtain ⟨kinds, firm, inert⟩ := (others u inside).exists_inert_items
    exact ⟨kinds, firm, inert.toIdle⟩
  obtain ⟨more, firmRest, idle⟩ := idles_join rest
  have joined : text (t :: types) = String.join ((items t).map Item.text) ++
      String.join (types.map fun t => String.join ((items t).map Item.text)) := by
    apply String.toList_injective
    simp [text, List.flatMap_map, List.flatMap_assoc]
  rw [joined]
  exact ⟨kinds ++ more, firm.append firmRest, inert.append idle⟩

end ScriptGlue.Glue
