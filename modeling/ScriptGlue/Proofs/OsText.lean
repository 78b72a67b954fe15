import ScriptGlue.OsText
import ScriptGlue.Proofs.Text.Bytes

/-!
# Showing texts of the operating system

A text is shown as it is. What is shown without a replacement is the text that the bytes spell
(`eq_ofText_of_shown`), and an ASCII character is shown exactly where its byte stands (`glyphs_append`),
so what cuts the bytes at a dot or a slash cuts what is shown there too.
-/

namespace ScriptGlue.OsText

variable {c d : Char} {s : List Char} {x y : List UInt8} {t : OsText}

/-! ### Encoding -/

theorem encode_append (a b : List Char) : encode (a ++ b) = encode a ++ encode b :=
  List.flatMap_append

theorem utf8EncodeChar_ascii (ascii : c.toNat < 128) : String.utf8EncodeChar c = [c.toUInt8] := by
  have size : c.utf8Size = 1 := by
    rw [Char.utf8Size_eq_one_iff, UInt32.le_iff_toNat_le]
    exact Nat.le_of_lt_succ ascii
  rw [String.utf8EncodeChar_eq_singleton size]
  rfl

theorem encode_cons_ascii (ascii : c.toNat < 128) (s : List Char) :
    encode (c :: s) = c.toUInt8 :: encode s := by
  rw [encode, List.flatMap_cons, utf8EncodeChar_ascii ascii]
  rfl

theorem toNat_toUInt8 (ascii : c.toNat < 128) : c.toUInt8.toNat = c.toNat := by
  have small : c.val.toNat < 128 := ascii
  rw [Char.toUInt8, UInt32.toNat_toUInt8]
  exact Nat.mod_eq_of_lt (by omega)

/-- Every byte of a longer encoding has its high bit set. -/
theorem toUInt8_mem_utf8EncodeChar_iff (ascii : c.toNat < 128) :
    c.toUInt8 ∈ String.utf8EncodeChar d ↔ d = c := by
  constructor
  · intro member
    by_cases short : d.toNat < 128
    · rw [utf8EncodeChar_ascii short, List.mem_singleton, ← UInt8.toNat_inj, toNat_toUInt8 ascii,
        toNat_toUInt8 short] at member
      exact Char.toNat_inj.mp member.symm
    · exfalso
      have bound : d.val.toNat < 1114112 := by
        rcases d.valid with low | high
        · exact Nat.lt_trans low (by decide)
        · exact high.2
      have long : 128 ≤ d.val.toNat := Nat.not_lt.mp short
      have byte (n : Nat) : c.toUInt8 = UInt8.ofNat n ↔ c.toNat = n % 256 := by
        rw [← UInt8.toNat_inj, toNat_toUInt8 ascii, UInt8.toNat_ofNat']
      unfold String.utf8EncodeChar at member
      dsimp only at member
      repeat' split at member
      all_goals
        simp only [List.mem_cons, List.not_mem_nil, or_false, byte] at member
        omega
  · rintro rfl
    simp [utf8EncodeChar_ascii ascii]

theorem toUInt8_mem_encode_iff (ascii : c.toNat < 128) : c.toUInt8 ∈ encode s ↔ c ∈ s := by
  simp only [encode, List.mem_flatMap, toUInt8_mem_utf8EncodeChar_iff ascii, exists_eq_right]

theorem text?_eq_some_iff {text : String} : t.text? = some text ↔ t = .ofText text := by
  rw [text?, Text.fromUTF8?_eq_some_iff, Text.toList_toUTF8]
  exact ⟨fun same => congrArg OsText.mk same, fun same => congrArg bytes same⟩

/-! ### Reading one character -/

theorem first?_eq_some_iff : first? x = some c ↔ ∃ rest, x = String.utf8EncodeChar c ++ rest := by
  constructor
  · intro found
    obtain ⟨rest, whole⟩ := ByteArray.exists_of_utf8DecodeChar?_eq_some found
    refine ⟨rest.data.toList, ?_⟩
    have same := congrArg (fun b => b.data.toList) whole
    simpa [List.toList_data_toByteArray] using same
  · rintro ⟨rest, rfl⟩
    rw [first?, List.toByteArray_append]
    exact ByteArray.utf8DecodeChar?_utf8EncodeChar_append

theorem glyphsAfter_eq_drop (behind : Nat) (x : List UInt8) :
    glyphsAfter behind x = glyphsAfter 0 (x.drop behind) := by
  induction behind generalizing x with
  | zero => rfl
  | succ behind ih =>
    cases x with
    | nil => rfl
    | cons b x => exact ih x

theorem glyphsAfter_character (c : Char) (rest : List UInt8) :
    glyphsAfter 0 (String.utf8EncodeChar c ++ rest) = some c :: glyphsAfter 0 rest := by
  have length := String.length_utf8EncodeChar c
  have found : first? (String.utf8EncodeChar c ++ rest) = some c := first?_eq_some_iff.mpr ⟨rest, rfl⟩
  cases bytes : String.utf8EncodeChar c with
  | nil =>
    rw [bytes] at length
    exact absurd length.symm (Nat.ne_of_gt c.utf8Size_pos)
  | cons b more =>
    rw [bytes, List.length_cons] at length
    rw [bytes, List.cons_append] at found
    rw [List.cons_append, glyphsAfter, found]
    dsimp only
    rw [glyphsAfter_eq_drop, ← length, Nat.add_sub_cancel, List.drop_left]

theorem strayLength_pos (x : List UInt8) : 0 < strayLength x := by
  unfold strayLength
  repeat' split
  all_goals decide

theorem glyphsAfter_stray (some : x ≠ []) (none : first? x = none) :
    glyphsAfter 0 x = .none :: glyphsAfter 0 (x.drop (strayLength x)) := by
  obtain ⟨b, rest, rfl⟩ := List.exists_cons_of_ne_nil some
  obtain ⟨behind, length⟩ := Nat.exists_eq_succ_of_ne_zero (strayLength_pos (b :: rest)).ne'
  rw [glyphsAfter, none]
  dsimp only
  rw [glyphsAfter_eq_drop, length, Nat.succ_eq_add_one, List.drop_succ_cons, Nat.add_sub_cancel]

/-- The ways in which bytes go on: not at all, with a character, or with what is none. -/
theorem cases_of_bytes (x : List UInt8) :
    x = [] ∨ (∃ c rest, x = String.utf8EncodeChar c ++ rest ∧ rest.length < x.length) ∨
      x ≠ [] ∧ first? x = none ∧ (x.drop (strayLength x)).length < x.length := by
  cases found : first? x with
  | none =>
    by_cases empty : x = []
    · exact .inl empty
    · refine .inr (.inr ⟨empty, rfl, ?_⟩)
      have positive := strayLength_pos x
      have long := List.length_pos_iff.mpr empty
      rw [List.length_drop]
      omega
  | some c =>
    obtain ⟨rest, whole⟩ := first?_eq_some_iff.mp found
    refine .inr (.inl ⟨c, rest, whole, ?_⟩)
    rw [whole, List.length_append, String.length_utf8EncodeChar]
    exact Nat.lt_add_of_pos_left c.utf8Size_pos

/-! ### Texts -/

theorem glyphsAfter_encode (s : List Char) (x : List UInt8) :
    glyphsAfter 0 (encode s ++ x) = s.map some ++ glyphsAfter 0 x := by
  induction s with
  | nil => rfl
  | cons c s ih =>
    rw [encode, List.flatMap_cons, List.append_assoc, glyphsAfter_character, List.map_cons,
      List.cons_append, ← ih]
    rfl

theorem eq_encode_of_glyphsAfter (read : glyphsAfter 0 x = s.map some) : x = encode s := by
  induction s generalizing x with
  | nil =>
    rcases cases_of_bytes x with rfl | ⟨c, rest, rfl, -⟩ | ⟨some, none, -⟩
    · rfl
    · rw [glyphsAfter_character] at read
      cases read
    · rw [glyphsAfter_stray some none] at read
      cases read
  | cons d s ih =>
    rcases cases_of_bytes x with rfl | ⟨c, rest, rfl, -⟩ | ⟨some, none, -⟩
    · cases read
    · rw [glyphsAfter_character, List.map_cons] at read
      obtain ⟨same, rest⟩ := List.cons.inj read
      obtain rfl := Option.some.inj same
      rw [ih rest]
      rfl
    · rw [glyphsAfter_stray some none] at read
      cases read

theorem toList_shown (t : OsText) : t.shown.toList = t.glyphs.map (·.getD replacement) :=
  String.toList_ofList

theorem toList_shown_encode (s : List Char) (x : List UInt8) :
    (shown ⟨encode s ++ x⟩).toList = s ++ (shown ⟨x⟩).toList := by
  rw [toList_shown, toList_shown, glyphs, glyphsAfter_encode, List.map_append, List.map_map]
  exact congrArg (· ++ _) (List.map_id s)

theorem shown_encode (s : List Char) : (shown ⟨encode s⟩).toList = s := by
  have whole := toList_shown_encode s []
  rw [List.append_nil] at whole
  exact whole.trans (List.append_nil s)

@[simp] theorem shown_ofText (text : String) : (ofText text).shown = text :=
  String.toList_injective (shown_encode text.toList)

theorem ofText_injective : Function.Injective ofText :=
  Function.LeftInverse.injective shown_ofText

@[simp] theorem ofText_inj {a b : String} : ofText a = ofText b ↔ a = b := ofText_injective.eq_iff

theorem eq_ofText_of_shown (clear : replacement ∉ t.shown.toList) : t = .ofText t.shown := by
  rw [toList_shown] at clear
  have each : ∀ g ∈ t.glyphs, some (g.getD replacement) = g := by
    intro g member
    cases g with
    | none => exact absurd (List.mem_map.mpr ⟨none, member, rfl⟩) clear
    | some c => rfl
  have whole : t.glyphs = (t.glyphs.map (·.getD replacement)).map some := by
    rw [List.map_map]
    exact (List.map_id' _).symm.trans (List.map_congr_left fun g member => (each g member).symm)
  have bytes := eq_encode_of_glyphsAfter (x := t.bytes) whole
  rw [ofText, toList_shown, ← bytes]

/-! ### Cutting at an ASCII character -/

theorem first?_append_ascii (ascii : c.toNat < 128) (some : x ≠ []) (none : first? x = none)
    (y : List UInt8) : first? (x ++ c.toUInt8 :: y) = .none := by
  rw [Option.eq_none_iff_forall_not_mem]
  intro d found
  obtain ⟨rest, whole⟩ := first?_eq_some_iff.mp found
  rcases List.append_eq_append_iff.mp whole with ⟨more, cut, behind⟩ | ⟨more, cut, -⟩
  · cases more with
    | nil =>
      rw [List.append_nil] at cut
      have read : first? x = .some d := first?_eq_some_iff.mpr ⟨[], by rw [List.append_nil, cut]⟩
      exact nomatch none.symm.trans read
    | cons b more =>
      -- The character would go on in the byte behind, so it would be that one alone.
      obtain ⟨rfl, -⟩ := List.cons.inj behind
      have member : c.toUInt8 ∈ String.utf8EncodeChar d := cut ▸ by simp
      obtain rfl := (toUInt8_mem_utf8EncodeChar_iff ascii).mp member
      rw [utf8EncodeChar_ascii ascii] at cut
      have length := congrArg List.length cut
      have long := List.length_pos_iff.mpr some
      simp only [List.length_append, List.length_cons, List.length_nil] at length
      omega
  · have read : first? x = .some d := first?_eq_some_iff.mpr ⟨more, cut⟩
    exact nomatch none.symm.trans read

theorem isTail_ascii (ascii : c.toNat < 128) : isTail c.toUInt8 = false := by
  have low : ¬(0x80 : UInt8) ≤ c.toUInt8 := by
    rw [UInt8.le_iff_toNat_le, toNat_toUInt8 ascii]
    exact Nat.not_le.mpr ascii
  simp [isTail, low]

theorem isSecond_ascii (ascii : c.toNat < 128) (first : UInt8) : isSecond first c.toUInt8 = false := by
  have low (bound : UInt8) (high : 128 ≤ bound.toNat) : decide (bound ≤ c.toUInt8) = false := by
    rw [decide_eq_false_iff_not, UInt8.le_iff_toNat_le, toNat_toUInt8 ascii]
    omega
  unfold isSecond
  simp only [isTail_ascii ascii, low 0xa0 (by decide), low 0x80 (by decide), low 0x90 (by decide),
    Bool.false_and, Bool.and_false]
  repeat' split
  all_goals rfl

theorem strayLength_append_ascii (ascii : c.toNat < 128) (some : x ≠ []) (y : List UInt8) :
    strayLength (x ++ c.toUInt8 :: y) = strayLength x ∧ strayLength x ≤ x.length := by
  match x, some with
  | [first], _ => simp [strayLength, isSecond_ascii ascii]
  | [first, second], _ =>
    simp only [strayLength, List.cons_append, List.nil_append, List.head?_cons, List.head?_nil,
      Option.any_some, Option.any_none, isTail_ascii ascii]
    split <;> simp
  | first :: second :: third :: rest, _ =>
    refine ⟨rfl, ?_⟩
    simp only [strayLength, List.length_cons]
    split
    · split <;> omega
    · omega

/-- An ASCII character is shown where its byte stands, whatever bytes there are around it. -/
theorem glyphsAfter_append (ascii : c.toNat < 128) (x y : List UInt8) :
    glyphsAfter 0 (x ++ c.toUInt8 :: y) = glyphsAfter 0 x ++ some c :: glyphsAfter 0 y := by
  induction length : x.length using Nat.strong_induction_on generalizing x with
  | _ n ih =>
    subst length
    rcases cases_of_bytes x with rfl | ⟨d, rest, rfl, shorter⟩ | ⟨some, none, shorter⟩
    · have single := glyphsAfter_character c y
      rwa [utf8EncodeChar_ascii ascii] at single
    · rw [List.append_assoc, glyphsAfter_character, glyphsAfter_character, ih _ shorter rest rfl,
        List.cons_append]
    · obtain ⟨stray, within⟩ := strayLength_append_ascii ascii some y
      rw [glyphsAfter_stray (by simp) (first?_append_ascii ascii some none y), stray,
        glyphsAfter_stray some none, List.drop_append_of_le_length within, List.cons_append,
        ih _ shorter _ rfl]

/-- What is shown in front of an ASCII character and behind it is shown of what stands there. -/
theorem exists_of_glyphsAfter (ascii : c.toNat < 128) {front behind : List (Option Char)}
    (read : glyphsAfter 0 x = front ++ some c :: behind) :
    ∃ before after, x = before ++ c.toUInt8 :: after ∧ glyphsAfter 0 before = front ∧
      glyphsAfter 0 after = behind := by
  have cut : ∃ before after, x = before ++ c.toUInt8 :: after ∧ glyphsAfter 0 after = behind := by
    induction length : x.length using Nat.strong_induction_on generalizing x front with
    | _ n ih =>
      subst length
      rcases cases_of_bytes x with rfl | ⟨d, rest, rfl, shorter⟩ | ⟨some, none, shorter⟩
      · simp [glyphsAfter] at read
      · rw [glyphsAfter_character] at read
        cases front with
        | nil =>
          obtain ⟨same, rest⟩ := List.cons.inj read
          obtain rfl := Option.some.inj same
          exact ⟨[], _, by rw [utf8EncodeChar_ascii ascii]; rfl, rest⟩
        | cons g front =>
          obtain ⟨before, after, rfl, later⟩ := ih _ shorter (List.cons.inj read).2 rfl
          exact ⟨String.utf8EncodeChar d ++ before, after, by simp, later⟩
      · rw [glyphsAfter_stray some none] at read
        cases front with
        | nil => exact nomatch (List.cons.inj read).1
        | cons g front =>
          obtain ⟨before, after, whole, later⟩ := ih _ shorter (List.cons.inj read).2 rfl
          refine ⟨x.take (strayLength x) ++ before, after, ?_, later⟩
          rw [List.append_assoc, ← whole, List.take_append_drop]
  obtain ⟨before, after, rfl, later⟩ := cut
  rw [glyphsAfter_append ascii, later] at read
  exact ⟨before, after, rfl, List.append_cancel_right read, later⟩

theorem toList_shown_append (ascii : c.toNat < 128) (x y : List UInt8) :
    (shown ⟨x ++ c.toUInt8 :: y⟩).toList = (shown ⟨x⟩).toList ++ c :: (shown ⟨y⟩).toList := by
  simp only [toList_shown, glyphs, glyphsAfter_append ascii, List.map_append, List.map_cons,
    Option.getD_some]

theorem exists_of_toList_shown (ascii : c.toNat < 128) {a b : List Char}
    (whole : t.shown.toList = a ++ c :: b) : ∃ x y, t.bytes = x ++ c.toUInt8 :: y ∧
      (shown ⟨x⟩).toList = a ∧ (shown ⟨y⟩).toList = b := by
  rw [toList_shown] at whole
  obtain ⟨front, behind, read, rfl, rest⟩ := List.map_eq_append_iff.mp whole
  obtain ⟨g, behind, rfl, same, rfl⟩ := List.map_eq_cons_iff.mp rest
  cases g with
  | none =>
    obtain rfl : replacement = c := same
    exact absurd ascii (by decide)
  | some d =>
    obtain rfl : d = c := same
    obtain ⟨x, y, bytes, before, after⟩ := exists_of_glyphsAfter ascii read
    refine ⟨x, y, bytes, ?_, ?_⟩
    · rw [toList_shown, glyphs, before]
    · rw [toList_shown, glyphs, after]

theorem mem_shown_iff (ascii : c.toNat < 128) : c ∈ t.shown.toList ↔ c.toUInt8 ∈ t.bytes := by
  constructor
  · intro member
    obtain ⟨a, b, whole⟩ := List.append_of_mem member
    obtain ⟨x, y, bytes, -⟩ := exists_of_toList_shown ascii whole
    simp [bytes]
  · intro member
    obtain ⟨x, y, bytes⟩ := List.append_of_mem member
    have whole := toList_shown_append ascii x y
    rw [← bytes] at whole
    exact whole ▸ by simp

theorem toList_shown_eq_nil_iff : t.shown.toList = [] ↔ t.bytes = [] := by
  constructor
  · intro empty
    have clear : replacement ∉ t.shown.toList := by simp [empty]
    have bytes := congrArg bytes (eq_ofText_of_shown clear)
    rwa [ofText, empty] at bytes
  · intro empty
    simp [toList_shown, glyphs, empty, glyphsAfter]

theorem shown_eq_iff {text : String} (clear : replacement ∉ text.toList) :
    t.shown = text ↔ t = .ofText text := by
  constructor
  · rintro rfl
    exact eq_ofText_of_shown clear
  · rintro rfl
    exact shown_ofText text

end ScriptGlue.OsText
