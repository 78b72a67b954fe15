import ScriptGlue.Proofs.Extraction.Declaration
import ScriptGlue.Proofs.Extraction.Faithful
import ScriptGlue.Proofs.Token.Printing

/-!
# Declared types as they are spelled

A complaint about a field spells the type that the field is declared with. The spelling sets a blank
between two words if both are identifiers or `auto`, and nothing between any other two tokens. It is
scanned as the tokens it spells exactly if no `class` and no `struct` is beside another word
(`declared_spells_iff`).
-/

namespace ScriptGlue

/-! ### Tokens apart from their place -/

/-- A token is a word, or it continues no word and may stand in front of anything. -/
theorem Piece.Leads.word_or_apart {kind : Token.Kind} {text rest : List Char}
    (leads : Leads (.token kind text) rest) :
    (IsWord (String.ofList text) ∧ kind = Token.Kind.ofWord (String.ofList text)) ∨
      (∀ c ∈ text.head?, isWordPart c = false) ∧ ∀ more, Leads (.token kind text) more := by
  cases leads with
  | literal inside => exact .inr ⟨fun c head => Option.some.inj head ▸ rfl, .literal inside⟩
  | word start continues => exact .inl ⟨⟨_, _, String.toList_ofList, start, continues⟩, rfl⟩
  | punctuation known =>
    have marks : ∀ e ∈ Token.Kind.punctuation, isWordPart e.1 = false := by decide
    have mark := marks _ (mem_punctuation known)
    exact .inr ⟨fun c head => Option.some.inj head ▸ mark, .punctuation known⟩

/-- A token as scanning makes them. -/
def Token.IsScanned (t : Token) : Prop :=
  ∃ rest, Piece.Leads (.token t.kind t.lexeme.toList) rest

namespace Token.IsScanned
open Piece

variable {t : Token} (scanned : t.IsScanned)
include scanned

theorem ne_nil : t.lexeme.toList ≠ [] := by
  obtain ⟨rest, leads⟩ := scanned
  exact leads.text_ne_nil

theorem kind_of_isWord (word : IsWord t.lexeme) : t.kind = Kind.ofWord t.lexeme := by
  obtain ⟨rest, leads⟩ := scanned
  rcases leads.word_or_apart with ⟨-, kind⟩ | ⟨apart, -⟩
  · rwa [String.ofList_toList] at kind
  · obtain ⟨first, parts, whole, start, -⟩ := word
    have part := isWordPart_of_isWordStart start
    rw [apart first (by rw [whole]; rfl)] at part
    exact nomatch part

theorem apart_of_not_isWord (notWord : ¬IsWord t.lexeme) :
    ∀ c ∈ t.lexeme.toList.head?, isWordPart c = false := by
  obtain ⟨rest, leads⟩ := scanned
  rcases leads.word_or_apart with ⟨word, -⟩ | ⟨apart, -⟩
  · rw [String.ofList_toList] at word
    exact absurd word notWord
  · exact apart

theorem leads {rest : List Char}
    (ends : IsWord t.lexeme → ∀ c ∈ rest.head?, isWordPart c = false) :
    Leads (.token t.kind t.lexeme.toList) rest := by
  by_cases word : IsWord t.lexeme
  · rw [scanned.kind_of_isWord word]
    exact Layout.leads_word word (ends word)
  · obtain ⟨_, leads⟩ := scanned
    rcases leads.word_or_apart with ⟨isWord, -⟩ | ⟨-, always⟩
    · rw [String.ofList_toList] at isWord
      exact absurd isWord word
    · exact always rest

end Token.IsScanned

namespace Piece

/-- What a text is read as, but for the end. -/
def readings (text : List Char) : List (Token.Kind × String) := (all text).filterMap reading?

theorem readings_nil : readings [] = [] := by
  rw [readings, all_nil]
  rfl

theorem readings_of_leads {kind : Token.Kind} {text rest : List Char}
    (leads : Leads (.token kind text) rest) :
    readings (text ++ rest) = (kind, String.ofList text) :: readings rest := by
  have cut : all (text ++ rest) = .token kind text :: all rest := all_of_next (next_of_leads leads)
  rw [readings, cut]
  rfl

theorem readings_blank (rest : List Char) : readings (' ' :: rest) = readings rest := by
  have cut : all (' ' :: rest) = .trivia [' '] :: all rest := all_of_next rfl
  rw [readings, cut]
  rfl

theorem readings_of_isWord {word : String} (isWord : IsWord word) (rest : List Char) :
    ∃ kind, (readings (word.toList ++ rest)).head? =
      some (kind, word ++ String.ofList (rest.takeWhile isWordPart)) := by
  have longer : IsWord (word ++ String.ofList (rest.takeWhile isWordPart)) := by
    refine isWord.append fun c member => ?_
    rw [String.toList_ofList] at member
    exact List.mem_takeWhile_imp member
  have leads := Layout.leads_word longer (ends_dropWhile isWordPart rest)
  have whole : word.toList ++ rest =
      (word ++ String.ofList (rest.takeWhile isWordPart)).toList ++ rest.dropWhile isWordPart := by
    rw [String.toList_append, String.toList_ofList, List.append_assoc,
      List.takeWhile_append_dropWhile]
  rw [whole, readings_of_leads leads, String.ofList_toList]
  exact ⟨_, rfl⟩

end Piece

theorem Scan.map_tokens_of (text : String) :
    (Scan.of text).tokens.map (fun t => (t.kind, t.lexeme)) =
      Piece.readings text.toList ++ [(.endOfInput, "EOF")] := by
  rw [Scan.of, tokens_ofChars, map_tokensFrom]
  rfl

/-! ### Spelling -/

namespace Declarator
open Piece

/-- Of two words, the spelling sets a blank only between those it takes for words itself. -/
def KeepsApart (t u : Token) : Prop := IsWord t.lexeme → IsWord u.lexeme → isWord t ∧ isWord u

theorem toList_spell (t u : Token) (rest : List Token) : (spell (t :: u :: rest)).toList =
    t.lexeme.toList ++
      ((if isWord t && isWord u then " " else "").toList ++ (spell (u :: rest)).toList) := by
  rw [spell, String.toList_append, String.toList_append, List.append_assoc]

theorem head?_spell {u : Token} (scanned : u.IsScanned) (rest : List Token) :
    (spell (u :: rest)).toList.head? = u.lexeme.toList.head? := by
  cases rest with
  | nil => rfl
  | cons v rest =>
    rw [toList_spell, List.head?_append_of_ne_nil _ scanned.ne_nil]

theorem readings_spell_of_keepsApart {t u : Token} (first : t.IsScanned) (second : u.IsScanned)
    (apart : KeepsApart t u) (rest : List Token) :
    readings (spell (t :: u :: rest)).toList =
      (t.kind, t.lexeme) :: readings (spell (u :: rest)).toList := by
  rw [toList_spell]
  by_cases blank : isWord t && isWord u
  · rw [if_pos blank]
    have ends : ∀ c ∈ (' ' :: (spell (u :: rest)).toList).head?, isWordPart c = false := by
      intro c head
      obtain rfl := Option.some.inj head
      rfl
    change readings (t.lexeme.toList ++ ' ' :: (spell (u :: rest)).toList) = _
    rw [readings_of_leads (first.leads fun _ => ends), readings_blank, String.ofList_toList]
  · rw [if_neg blank]
    have ends : IsWord t.lexeme → ∀ c ∈ (spell (u :: rest)).toList.head?, isWordPart c = false := by
      intro word c head
      rw [head?_spell second] at head
      refine second.apart_of_not_isWord (fun other => blank ?_) c head
      simpa using apart word other
    change readings (t.lexeme.toList ++ (spell (u :: rest)).toList) = _
    rw [readings_of_leads (first.leads ends), String.ofList_toList]

/-- The first word takes in the second, so it is read as another text. -/
theorem readings_spell_ne {t u : Token} (second : u.IsScanned) (together : ¬KeepsApart t u)
    (rest : List Token) (more : List (Token.Kind × String)) :
    readings (spell (t :: u :: rest)).toList ≠ (t.kind, t.lexeme) :: more := by
  simp only [KeepsApart, Classical.not_imp] at together
  obtain ⟨word, other, noBlank⟩ := together
  have noBlank : ¬(isWord t && isWord u) = true := by simpa using noBlank
  rw [toList_spell, if_neg noBlank]
  change readings (t.lexeme.toList ++ (spell (u :: rest)).toList) ≠ _
  obtain ⟨kind, head⟩ := readings_of_isWord word (spell (u :: rest)).toList
  intro same
  rw [same] at head
  obtain ⟨c, parts, whole, start, -⟩ := other
  have front := head?_spell second rest
  rw [whole] at front
  obtain ⟨behind, eq⟩ := List.head?_eq_some_iff.mp front
  have longer := (Prod.mk.inj (Option.some.inj head)).2
  rw [eq, List.takeWhile_cons_of_pos (isWordPart_of_isWordStart start)] at longer
  have size := congrArg String.length longer
  simp at size

theorem readings_spell_eq_iff {tokens : List Token} (scanned : ∀ t ∈ tokens, t.IsScanned) :
    readings (spell tokens).toList = tokens.map (fun t => (t.kind, t.lexeme)) ↔
      tokens.IsChain KeepsApart := by
  induction tokens using spell.induct with
  | case1 => exact iff_of_true readings_nil .nil
  | case2 t =>
    have leads : Leads (.token t.kind t.lexeme.toList) [] :=
      (scanned t List.mem_cons_self).leads fun _ => nofun
    have alone := readings_of_leads leads
    rw [List.append_nil, String.ofList_toList, readings_nil] at alone
    exact iff_of_true alone (.singleton t)
  | case3 t u rest ih =>
    obtain ⟨first, others⟩ := List.forall_mem_cons.mp scanned
    have second := others u List.mem_cons_self
    rw [List.isChain_cons_cons, List.map_cons]
    by_cases apart : KeepsApart t u
    · rw [readings_spell_of_keepsApart first second apart, List.cons.injEq, ih others]
      simp only [apart, true_and]
    · exact iff_of_false (readings_spell_ne second apart rest _) fun chain => apart chain.1

/-! ### The words of a type -/

/-- Of the words that a type can have, the spelling takes all for words but `class` and `struct`. -/
theorem isWord_iff {t : Token} (scanned : t.IsScanned) (word : IsWord t.lexeme)
    (notConst : t.kind ≠ .constWord) (goesOn : Member.endsDeclaration t = false) :
    isWord t ↔ ¬t.kind.isTypeKeyword := by
  have table : ∀ e ∈ Token.Kind.reserved, e.2 ≠ .constWord → e.2.isMarker = false →
      (e.2 = .identifier ∨ e.2 = .autoWord ↔ ¬e.2.isTypeKeyword) := by decide
  have noMarker : t.kind.isMarker = false := by
    simp only [Member.endsDeclaration, Bool.or_eq_false_iff] at goesOn
    exact goesOn.1.1.1
  have kind := scanned.kind_of_isWord word
  simp only [isWord, Bool.or_eq_true, decide_eq_true_eq]
  rcases Token.Kind.ofWord_cases t.lexeme with ⟨identifier, -⟩ | member
  · rw [kind, identifier]
    decide
  · rw [← kind] at member
    exact table _ member notConst noMarker

end Declarator

theorem Names.subset {declaration typeTokens : List Token} {type : FieldType} {name : Token}
    (names : Names declaration typeTokens type name) : typeTokens ⊆ declaration := by
  cases names with
  | keyword led =>
    obtain ⟨more, rfl, -⟩ := led
    simp
  | last whole =>
    rw [whole]
    exact List.subset_append_left _ _

namespace Extraction

/-- The tokens of a declared type are tokens of the source, and `const` is not among them. -/
theorem DeclaresField.typeTokens {source typeName : String} {d : Declarator}
    (declares : DeclaresField source typeName d) {t : Token} (member : t ∈ d.typeTokens) :
    t ∈ (Scan.of source).tokens ∧ t.IsScanned ∧ t.kind ≠ .constWord ∧
      Member.endsDeclaration t = false := by
  obtain ⟨read, within, goesOn, found⟩ := declares.exists_read
  have names := names_iff.mpr ⟨found, rfl⟩
  obtain ⟨inside, notConst⟩ := List.mem_filter.mp (names.subset member)
  obtain ⟨token, notLast⟩ := within t inside
  exact ⟨token, exists_leads_of_mem_tokens token notLast, by simpa using notConst, goesOn t inside⟩

/-- What a complaint says of a declared type spells it, unless words run together: the complaint is
about a field that the source declares, and its text is scanned as the tokens of the type of that
field exactly if none of them is a `class` or `struct` beside another word. -/
theorem declared_spells_iff {source typeName field declared : String} {span : Span}
    (member : .unknownFieldType typeName field declared span ∈ (ofSource source).diagnostics) :
    ∃ d, DeclaresField source typeName d ∧ d.name.lexeme = field ∧ d.name.span = span ∧
      d.typeText = declared ∧
      (∀ t ∈ d.typeTokens, t ∈ (Scan.of source).tokens ∧ t.kind ≠ .constWord) ∧
      ((Scan.of declared).tokens.map (fun t => (t.kind, t.lexeme)) =
          d.typeTokens.map (fun t => (t.kind, t.lexeme)) ++ [(.endOfInput, "EOF")] ↔
        d.typeTokens.IsChain fun t u => IsWord t.lexeme → IsWord u.lexeme →
          ¬t.kind.isTypeKeyword ∧ ¬u.kind.isTypeKeyword) := by
  obtain ⟨d, declares, named, place, rfl⟩ := field_of_mem_diagnostics member
  refine ⟨d, declares, named, place, rfl, fun t inside => ?_, ?_⟩
  · obtain ⟨token, -, notConst, -⟩ := declares.typeTokens inside
    exact ⟨token, notConst⟩
  · rw [Scan.map_tokens_of, List.append_left_inj, Declarator.typeText,
      Declarator.readings_spell_eq_iff fun t inside => (declares.typeTokens inside).2.1]
    refine List.IsChain.iff_of_mem_imp fun t u first second => ?_
    obtain ⟨-, scannedT, constT, goesOnT⟩ := declares.typeTokens first
    obtain ⟨-, scannedU, constU, goesOnU⟩ := declares.typeTokens second
    refine forall_congr' fun wordT => forall_congr' fun wordU => ?_
    rw [Declarator.isWord_iff scannedT wordT constT goesOnT,
      Declarator.isWord_iff scannedU wordU constU goesOnU]

def wordsSource : String :=
  "UCLASS() class Bag \x7b UPROPERTY() const std::vector<unsigned int>* words; \x7d;"

def wordsType : List (Token.Kind × String) :=
  [(.identifier, "std"), (.colon, ":"), (.colon, ":"), (.identifier, "vector"), (.openAngle, "<"),
    (.identifier, "unsigned"), (.identifier, "int"), (.closeAngle, ">"), (.star, "*")]

def wordsField : Declarator :=
  ⟨⟨.identifier, "words", ⟨66, 71, 1, 67⟩⟩,
    [⟨.identifier, "std", ⟨39, 42, 1, 40⟩⟩, ⟨.colon, ":", ⟨42, 43, 1, 43⟩⟩, ⟨.colon, ":", ⟨43, 44, 1, 44⟩⟩,
      ⟨.identifier, "vector", ⟨44, 50, 1, 45⟩⟩, ⟨.openAngle, "<", ⟨50, 51, 1, 51⟩⟩,
      ⟨.identifier, "unsigned", ⟨51, 59, 1, 52⟩⟩, ⟨.identifier, "int", ⟨60, 63, 1, 61⟩⟩,
      ⟨.closeAngle, ">", ⟨63, 64, 1, 64⟩⟩, ⟨.star, "*", ⟨64, 65, 1, 65⟩⟩]⟩

/-- The blank between `unsigned` and `int` is the only one that the spelling needs. -/
theorem declared_spells_iff_wordsSource :
    .unknownFieldType "Bag" "words" "std::vector<unsigned int>*" ⟨66, 71, 1, 67⟩ ∈
      (ofSource wordsSource).diagnostics ∧
    DeclaresField wordsSource "Bag" wordsField ∧ wordsField.typeText = "std::vector<unsigned int>*" ∧
    wordsField.typeTokens.map (fun t => (t.kind, t.lexeme)) = wordsType ∧
    (Scan.of "std::vector<unsigned int>*").tokens.map (fun t => (t.kind, t.lexeme)) =
      wordsType ++ [(.endOfInput, "EOF")] ∧
    wordsField.typeTokens.IsChain fun t u => IsWord t.lexeme → IsWord u.lexeme →
      ¬t.kind.isTypeKeyword ∧ ¬u.kind.isTypeKeyword := by
  have member : .unknownFieldType "Bag" "words" "std::vector<unsigned int>*" ⟨66, 71, 1, 67⟩ ∈
      (ofSource wordsSource).diagnostics := by decide +kernel
  have scan : (Scan.of "std::vector<unsigned int>*").tokens.map (fun t => (t.kind, t.lexeme)) =
      wordsType ++ [(.endOfInput, "EOF")] := by decide +kernel
  have only : ∀ s ∈ Segment.all ((Scan.of wordsSource).tokens.takeWhile (·.kind ≠ .endOfInput)),
      ∀ declared ∈ s.declaration?, ∀ m ∈ Member.ofBody declared.2, m = .field wordsField := by
    decide +kernel
  obtain ⟨d, declares, -, -, text, -, spells⟩ := declared_spells_iff member
  obtain ⟨s, inside, name, body, declared, -, field⟩ := declares
  obtain rfl := Member.field.inj (only s inside (name, body) declared _ field)
  rw [scan, List.append_left_inj] at spells
  exact ⟨member, by decide +kernel, text, rfl, scan, spells.mp rfl⟩

def structSource : String := "UCLASS() class Bag \x7b UPROPERTY() struct Item* item; \x7d;"

def structField : Declarator :=
  ⟨⟨.identifier, "item", ⟨46, 50, 1, 47⟩⟩,
    [⟨.structWord, "struct", ⟨33, 39, 1, 34⟩⟩, ⟨.identifier, "Item", ⟨40, 44, 1, 41⟩⟩,
      ⟨.star, "*", ⟨44, 45, 1, 45⟩⟩]⟩

/-- The spelling knows no `struct`, and lets it run into the name behind it. -/
theorem declared_spells_not_structSource :
    DeclaresField structSource "Bag" structField ∧
    (ofSource structSource).diagnostics =
      [.unknownFieldType "Bag" "item" "structItem*" structField.name.span] ∧
    (Scan.of "structItem*").tokens.map (fun t => (t.kind, t.lexeme)) =
      [(.identifier, "structItem"), (.star, "*"), (.endOfInput, "EOF")] ∧
    structField.typeTokens.map (fun t => (t.kind, t.lexeme)) ++ [(.endOfInput, "EOF")] =
      [(.structWord, "struct"), (.identifier, "Item"), (.star, "*"), (.endOfInput, "EOF")] := by
  decide +kernel

end Extraction

end ScriptGlue
