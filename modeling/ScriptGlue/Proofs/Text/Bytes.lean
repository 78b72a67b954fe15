import Mathlib.Data.List.TakeWhile

/-!
# Bytes of a text

A text and its bytes say the same, and only the zero character has a zero byte.
-/

namespace ScriptGlue.Text

theorem toList_toUTF8 (text : String) :
    text.toUTF8.data.toList = text.toList.flatMap String.utf8EncodeChar := by
  rw [String.toUTF8_eq_toByteArray, ← String.utf8Encode_toList, List.utf8Encode]
  exact List.toList_data_toByteArray

theorem zero_mem_utf8EncodeChar_iff (c : Char) : 0 ∈ String.utf8EncodeChar c ↔ c = '\x00' := by
  have zero (n : Nat) : (0 : UInt8) = UInt8.ofNat n ↔ n % 256 = 0 := by
    rw [eq_comm, ← UInt8.toNat_inj, UInt8.toNat_ofNat']
    rfl
  have bound : c.val.toNat < 1114112 := by
    rcases c.valid with low | high
    · exact Nat.lt_trans low (by decide)
    · exact high.2
  have null : c = '\x00' ↔ c.val.toNat = 0 := by
    rw [Char.ext_iff, ← UInt32.toNat_inj]
    rfl
  rw [null]
  unfold String.utf8EncodeChar
  dsimp only
  -- Every byte of a longer encoding has its high bit set.
  repeat' split
  all_goals
    simp only [List.mem_cons, List.not_mem_nil, or_false, zero]
    omega

theorem zero_mem_bytes_iff (text : String) : 0 ∈ text.toUTF8.data.toList ↔ '\x00' ∈ text.toList := by
  rw [toList_toUTF8, List.mem_flatMap]
  simp only [zero_mem_utf8EncodeChar_iff, exists_eq_right]

theorem takeWhile_bytes {text : String} (free : '\x00' ∉ text.toList) :
    text.toUTF8.data.toList.takeWhile (· ≠ 0) = text.toUTF8.data.toList := by
  rw [← zero_mem_bytes_iff] at free
  rw [List.takeWhile_eq_self_iff]
  intro byte member
  simpa using fun zero : byte = 0 => free (zero ▸ member)

theorem fromUTF8?_bytes (text : String) :
    String.fromUTF8? ⟨text.toUTF8.data.toList.toArray⟩ = some text := by
  rw [Array.toArray_toList, String.toUTF8_eq_toByteArray, String.fromUTF8?, dif_pos text.isValidUTF8]
  rfl

theorem fromUTF8?_eq_some_iff {bytes : List UInt8} {text : String} :
    String.fromUTF8? ⟨bytes.toArray⟩ = some text ↔ bytes = text.toUTF8.data.toList := by
  constructor
  · intro decoded
    unfold String.fromUTF8? at decoded
    split at decoded
    · obtain rfl := Option.some.inj decoded
      rfl
    · exact nomatch decoded
  · rintro rfl
    exact fromUTF8?_bytes text

end ScriptGlue.Text
