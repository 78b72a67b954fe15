import ScriptGlue.FileName
import ScriptGlue.Proofs.OsText
import Mathlib.Data.List.TakeWhile

/-!
# Names of generated files

A name with an extension is taken apart into what it was put together from (`of_append`), and so is the text
that it is shown as (`of_shown`). The names of generated files differ as the names that they are made from
are shown to differ (`generated_eq_iff`).
-/

namespace ScriptGlue.FileName

variable {name extension : OsText}

theorem ascii_dot : '.'.toNat < 128 := by decide

theorem of_append {stem extension : List UInt8} (some : stem ≠ []) (clear : dot ∉ extension) :
    of ⟨stem ++ dot :: extension⟩ = ⟨⟨stem⟩, .some ⟨extension⟩⟩ := by
  have whole : (stem ++ dot :: extension).reverse = extension.reverse ++ dot :: stem.reverse := by
    simp
  have pass : ∀ b ∈ extension.reverse, decide (b ≠ dot) = true := by
    intro b member
    exact decide_eq_true fun same => clear (List.mem_reverse.mp (same ▸ member))
  have dropped : (stem ++ dot :: extension).reverse.dropWhile (· ≠ dot) = dot :: stem.reverse := by
    rw [whole, List.dropWhile_append_of_pos pass]
    simp
  have taken : (stem ++ dot :: extension).reverse.takeWhile (· ≠ dot) = extension.reverse := by
    rw [whole, List.takeWhile_append_of_pos pass]
    simp
  obtain ⟨last, front, cut⟩ := List.exists_cons_of_ne_nil (List.reverse_ne_nil_iff.mpr some)
  unfold of
  rw [dropped, taken, cut]
  simp only [← cut, List.reverse_reverse]

theorem of_extension? (ends : (of name).extension? = some extension) :
    (of name).stem.bytes ≠ [] ∧ dot ∉ extension.bytes ∧
      name.bytes = (of name).stem.bytes ++ dot :: extension.bytes := by
  have whole := bytes_of name
  rw [bytes, ends] at whole
  refine ⟨?_, ?_, whole.symm⟩
  · unfold of at ends ⊢
    split
    · simp
    · rename_i other
      split at ends
      · rename_i c first rest cut
        exact absurd cut (other c first rest)
      · cases ends
  · unfold of at ends
    split at ends
    · obtain rfl := Option.some.inj ends
      intro member
      simpa using List.mem_takeWhile_imp (List.mem_reverse.mp member)
    · cases ends

/-! ### Names as they are shown -/

theorem toList_shown_dot (x y : List UInt8) : (OsText.shown ⟨x ++ dot :: y⟩).toList =
    (OsText.shown ⟨x⟩).toList ++ '.' :: (OsText.shown ⟨y⟩).toList :=
  OsText.toList_shown_append ascii_dot x y

theorem toList_shown (ends : (of name).extension? = some extension) :
    name.shown.toList = (of name).stem.shown.toList ++ '.' :: extension.shown.toList := by
  obtain ⟨-, -, whole⟩ := of_extension? ends
  have cut := toList_shown_dot (of name).stem.bytes extension.bytes
  rwa [← whole] at cut

theorem dot_notMem_shown (ends : (of name).extension? = some extension) :
    '.' ∉ extension.shown.toList := by
  obtain ⟨-, clear, -⟩ := of_extension? ends
  rwa [OsText.mem_shown_iff ascii_dot]

theorem shown_stem_ne_nil (ends : (of name).extension? = some extension) :
    (of name).stem.shown.toList ≠ [] := by
  obtain ⟨some, -, -⟩ := of_extension? ends
  exact fun empty => some (OsText.toList_shown_eq_nil_iff.mp empty)

theorem of_ofText {text : String} {stem extension : List Char} (some : stem ≠ [])
    (clear : '.' ∉ extension) (whole : text.toList = stem ++ '.' :: extension) :
    of (.ofText text) = ⟨⟨OsText.encode stem⟩, .some ⟨OsText.encode extension⟩⟩ := by
  have bytes : OsText.encode text.toList = OsText.encode stem ++ dot :: OsText.encode extension := by
    rw [whole, OsText.encode_append, OsText.encode_cons_ascii ascii_dot]
    rfl
  rw [OsText.ofText, bytes]
  refine of_append (fun empty => some ?_) fun member => ?_
  · rw [← OsText.shown_encode stem, empty]
    rfl
  · exact clear ((OsText.toUInt8_mem_encode_iff ascii_dot).mp member)

theorem of_shown (ends : (of name).extension? = some extension) :
    of (.ofText name.shown) = ⟨.ofText (of name).stem.shown, some (.ofText extension.shown)⟩ :=
  of_ofText (shown_stem_ne_nil ends) (dot_notMem_shown ends) (toList_shown ends)

/-! ### The generated name -/

theorem toList_generated (ends : (of name).extension? = some extension) : (of name).generated.toList =
    ((of name).stem.shown.toList ++ '.' :: mark.toList) ++ '.' :: extension.shown.toList := by
  rw [generated, ends]
  simp

theorem of_generated (ends : (of name).extension? = some extension) : of (of name).generated =
    ⟨⟨OsText.encode ((of name).stem.shown.toList ++ '.' :: mark.toList)⟩,
      some (.ofText extension.shown)⟩ :=
  of_ofText (by simp) (dot_notMem_shown ends) (toList_generated ends)

/-- The generated name is that of the name as it is shown. -/
theorem generated_of_shown (ends : (of name).extension? = some extension) :
    (of (.ofText name.shown)).generated = (of name).generated := by
  rw [of_shown ends, generated, generated, ends]
  simp

theorem generated_eq_iff {a b aExtension bExtension : OsText}
    (aEnds : (of a).extension? = some aExtension) (bEnds : (of b).extension? = some bExtension) :
    (of a).generated = (of b).generated ↔ a.shown = b.shown := by
  constructor
  · intro same
    have apart := of_generated aEnds
    rw [same, of_generated bEnds] at apart
    obtain ⟨stems, extensions⟩ := FileName.mk.inj apart
    have extension := OsText.ofText_injective (Option.some.inj extensions)
    have stem := congrArg (·.shown.toList) stems
    simp only [OsText.shown_encode] at stem
    apply String.toList_injective
    rw [toList_shown aEnds, toList_shown bEnds, List.append_cancel_right stem, extension]
  · intro same
    rw [← generated_of_shown aEnds, ← generated_of_shown bEnds, same]

/-! ### Recognising it -/

/-- The mark stands between a stem and an extension. -/
def IsMarked (name : OsText) : Prop :=
  ∃ stem extension, stem ≠ [] ∧ dot ∉ extension ∧
    name.bytes = stem ++ dot :: (mark : OsText).bytes ++ dot :: extension

theorem mark_clear : dot ∉ (mark : OsText).bytes := by decide

theorem isGenerated_iff : (of name).isGenerated ↔ IsMarked name := by
  rw [isGenerated, beq_iff_eq]
  constructor
  · intro marked
    obtain ⟨some, -, stem⟩ := of_extension? marked
    cases ends : (of name).extension? with
    | none =>
      have whole := bytes_of name
      rw [bytes, ends] at whole
      have same : (of name).stem = name := congrArg OsText.mk whole
      rw [same, ends] at marked
      cases marked
    | some extension =>
      obtain ⟨-, clear, whole⟩ := of_extension? ends
      exact ⟨_, _, some, clear, stem ▸ whole⟩
  · rintro ⟨stem, extension, some, clear, whole⟩
    have name : name = ⟨stem ++ dot :: (mark : OsText).bytes ++ dot :: extension⟩ := congrArg OsText.mk whole
    rw [name, of_append (by simp) clear]
    exact congrArg FileName.extension? (of_append some mark_clear)

theorem isGenerated_of_generated (ends : (of name).extension? = some extension) :
    (of (of name).generated).isGenerated := by
  have bytes : OsText.encode ((of name).stem.shown.toList ++ '.' :: mark.toList) =
      OsText.encode (of name).stem.shown.toList ++ dot :: (mark : OsText).bytes := by
    rw [OsText.encode_append, OsText.encode_cons_ascii ascii_dot]
    rfl
  rw [isGenerated, of_generated ends, bytes, of_append ?_ mark_clear]
  · exact beq_self_eq_true _
  · intro empty
    apply shown_stem_ne_nil ends
    rw [← OsText.shown_encode (of name).stem.shown.toList, empty]
    rfl

/-- A name that is shown as that of a generated file is one. -/
theorem isGenerated_of_shown (generated : (of (.ofText name.shown)).isGenerated) :
    (of name).isGenerated := by
  obtain ⟨stem, extension, some, clear, whole⟩ := isGenerated_iff.mp generated
  have shown : name.shown.toList = ((OsText.shown ⟨stem⟩).toList ++ '.' :: mark.toList) ++
      '.' :: (OsText.shown ⟨extension⟩).toList := by
    have same := congrArg (fun bytes => (OsText.shown ⟨bytes⟩).toList) whole
    have marked : (OsText.shown ⟨(mark : OsText).bytes⟩).toList = mark.toList := OsText.shown_encode _
    rwa [toList_shown_dot, toList_shown_dot, marked, OsText.ofText, OsText.shown_encode] at same
  obtain ⟨x, y, bytes, front, behind⟩ := OsText.exists_of_toList_shown ascii_dot shown
  obtain ⟨u, v, rfl, first, last⟩ := OsText.exists_of_toList_shown (t := ⟨x⟩) ascii_dot front
  have word : (⟨v⟩ : OsText) = mark :=
    (OsText.shown_eq_iff (by decide)).mp (String.toList_injective last)
  obtain rfl : v = (mark : OsText).bytes := congrArg OsText.bytes word
  refine isGenerated_iff.mpr ⟨u, y, ?_, ?_, bytes⟩
  · rintro rfl
    exact some (OsText.toList_shown_eq_nil_iff.mp first.symm)
  · intro member
    have dotted := (OsText.mem_shown_iff (t := ⟨y⟩) ascii_dot).mpr member
    rw [behind, OsText.mem_shown_iff ascii_dot] at dotted
    exact clear dotted

end ScriptGlue.FileName
