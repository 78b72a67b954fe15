import ScriptGlue.Proofs.Table.Encoding
import ScriptGlue.Table.Decode

/-!
# Round trip

A table that was written is read as the records it was written from: `decode_encode`, built from one
such fact for each part of a table.
-/

namespace ScriptGlue

theorem RawText.read_of {what text : String} {raw : RawText} (written : RawText.of what text = .ok raw)
    (path : String) : raw.read path = .ok text := by
  unfold RawText.of at written
  dsimp only at written
  split at written
  · exact nomatch written
  · rename_i free
    obtain rfl := Except.ok.inj written
    rw [Text.zero_mem_bytes_iff] at free
    simp only [RawText.read, Text.takeWhile_bytes free, Text.fromUTF8?_bytes]

theorem RawArray.toInt_count {n : Nat} (bound : n ≤ maxLength) : (Int32.ofNat n).toInt = n := by
  exact Int32.toInt_ofNat_of_lt (Nat.lt_succ_of_le bound)

theorem RawArray.read_of {α : Type} {what : String} {items : List α} {raw : RawArray α}
    (written : RawArray.of what items = .ok raw) (path : String) : raw.read path = .ok items := by
  unfold RawArray.of at written
  split at written
  · rename_i bound
    obtain rfl := Except.ok.inj written
    have count := toInt_count bound
    have counted : ¬ Int32.ofNat items.length < 0 := by
      rw [Int32.lt_iff_toInt_lt, count]
      exact Int.not_lt.mpr (Int.natCast_nonneg _)
    rw [RawArray.read, if_neg counted]
    split
    · rename_i zero
      rw [show Int32.ofNat items.length = 0 from zero] at count
      have empty : items.length = 0 := Int.natCast_eq_zero.mp count.symm
      rw [List.eq_nil_of_length_eq_zero empty]
    · simp only [count, Int.toNat_natCast, List.take_length]
  · exact nomatch written

theorem FieldType.ofTag_tag (type : FieldType) : ofTag type.tag = type := by
  cases type with
  | scalar kind => cases kind <;> decide
  | _ => decide

theorem RawField.read_of {f : Field} {raw : RawField} (written : RawField.of f = .ok raw)
    (path : String) : raw.read path = .ok f := by
  unfold RawField.of at written
  simp only [bind_eq_ok_iff, pure_eq_ok_iff] at written
  obtain ⟨name, named, getter, got, setter, put, rfl⟩ := written
  unfold RawField.read
  simp only [RawText.read_of named, RawText.read_of got, RawText.read_of put, FieldType.ofTag_tag]
  rfl

theorem RawMethod.read_of {m : Method} {raw : RawMethod} (written : RawMethod.of m = .ok raw)
    (path : String) : raw.read path = .ok m := by
  unfold RawMethod.of at written
  simp only [bind_eq_ok_iff, pure_eq_ok_iff] at written
  obtain ⟨name, named, parameters, listed, rfl⟩ := written
  have types : (m.parameters.map FieldType.tag).map FieldType.ofTag = m.parameters := by
    simp [Function.comp_def, FieldType.ofTag_tag]
  unfold RawMethod.read
  simp only [RawText.read_of named, RawArray.read_of listed, FieldType.ofTag_tag, bind, Except.bind,
    types]
  rfl

/-- Records that each read back read back together, whatever paths their places give them. -/
theorem mapM_read_of_mapM {ε δ α β ι : Type} {write : α → Except ε β} {read : ι → β → Except δ α}
    (back : ∀ a b, write a = .ok b → ∀ path, read path b = .ok a) {items : List α} {raws : List β}
    (written : items.mapM write = .ok raws) (path : Nat → ι) :
    raws.zipIdx.mapM (fun b => read (path b.2) b.1) = .ok items := by
  rw [mapM_eq_ok_iff] at written ⊢
  generalize 0 = start
  induction written generalizing start with
  | nil => exact .nil
  | cons first _ ih => exact .cons (back _ _ first _) (ih (start + 1))

theorem RawScript.read_of {t : ScriptType} {raw : RawScript} (written : RawScript.of t = .ok raw)
    (index : Nat) : raw.read index = .ok t := by
  unfold RawScript.of at written
  simp only [bind_eq_ok_iff, pure_eq_ok_iff] at written
  obtain ⟨rawFields, fields, rawMethods, methods, name, named, fieldArray, fieldsListed,
    methodArray, methodsListed, create, created, destroy, destroyed, rfl⟩ := written
  have fieldsRead := mapM_read_of_mapM (fun _ _ => RawField.read_of) fields
    fun i => s!"{t.name}.fields[{i}]"
  have methodsRead := mapM_read_of_mapM (fun _ _ => RawMethod.read_of) methods
    fun i => s!"{t.name}.methods[{i}]"
  unfold RawScript.read
  simp only [RawText.read_of named, RawText.read_of created, RawText.read_of destroyed,
    RawArray.read_of fieldsListed, RawArray.read_of methodsListed, fieldsRead, methodsRead, bind,
    Except.bind]
  rfl

theorem Table.decode_encode {types : List ScriptType} {table : Table}
    (written : Table.encode types = .ok table) : table.decode = .ok types := by
  unfold Table.encode at written
  obtain ⟨scripts, ok, listed⟩ := bind_eq_ok_iff.mp written
  unfold Table.decode
  rw [RawArray.read_of listed]
  exact mapM_read_of_mapM (fun _ _ => RawScript.read_of) ok id

end ScriptGlue
