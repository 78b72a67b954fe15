import ScriptGlue.Proofs.Table.Decoding

/-!
# Lossless tables

Writing and reading undo each other. The records that can be written are exactly those that some
table is read as, whoever made that table: `encode_lossless`.
-/

namespace ScriptGlue

/-! ### Records that were read -/

theorem RawText.free_of_spells {t : RawText} {text : String} (spelled : t.Spells text) :
    '\x00' ∉ text.toList := by
  obtain ⟨bytes, -, cut⟩ := spelled
  rw [← Text.zero_mem_bytes_iff, ← cut]
  intro zero
  have passed := List.mem_takeWhile_imp zero
  simp at passed

theorem RawText.free_of_read {t : RawText} {what text : String} (read : t.read what = .ok text) :
    '\x00' ∉ text.toList :=
  free_of_spells (read_eq_ok_iff.mp read)

/-- A count is a machine number, so no more entries are read than can be written. -/
theorem RawArray.length_le_of_read {α : Type} {a : RawArray α} {what : String} {items : List α}
    (read : a.read what = .ok items) : items.length ≤ maxLength := by
  obtain ⟨-, rfl⟩ := read_eq_ok_iff.mp read
  have bound := a.count.toInt_lt
  have taken := List.length_take_le a.count.toInt.toNat (a.items?.getD [])
  rw [maxLength, counted]
  omega

theorem RawMethod.encodable_of_read {raw : RawMethod} {what : String} {m : Method}
    (read : raw.read what = .ok m) :
    '\x00' ∉ m.name.toList ∧ m.parameters.length ≤ RawArray.maxLength := by
  unfold RawMethod.read at read
  simp only [bind_eq_ok_iff, pure_eq_ok_iff] at read
  obtain ⟨tags, listed, name, named, rfl⟩ := read
  refine ⟨RawText.free_of_read named, ?_⟩
  rw [List.length_map]
  exact RawArray.length_le_of_read listed

theorem RawScript.encodable_of_read {raw : RawScript} {index : Nat} {t : ScriptType}
    (read : raw.read index = .ok t) : t.Encodable := by
  unfold RawScript.read at read
  simp only [bind_eq_ok_iff, pure_eq_ok_iff] at read
  obtain ⟨name, named, rawFields, fieldsListed, fields, fieldsRead, rawMethods, methodsListed,
    methods, methodsRead, create, created, destroy, destroyed, rfl⟩ := read
  refine ⟨RawText.free_of_read named, RawText.free_of_read created, RawText.free_of_read destroyed,
    fun f member => ?_, fun m member => ?_, ?_, ?_⟩
  · obtain ⟨raw, -, read⟩ := exists_of_mem_mapM fieldsRead member
    have described := RawField.read_eq_ok_iff.mp read
    exact ⟨RawText.free_of_spells described.name, RawText.free_of_spells described.getter,
      RawText.free_of_spells described.setter⟩
  · obtain ⟨raw, -, read⟩ := exists_of_mem_mapM methodsRead member
    exact RawMethod.encodable_of_read read
  · have length := length_eq_of_mapM fieldsRead
    rw [List.length_zipIdx] at length
    exact length ▸ RawArray.length_le_of_read fieldsListed
  · have length := length_eq_of_mapM methodsRead
    rw [List.length_zipIdx] at length
    exact length ▸ RawArray.length_le_of_read methodsListed

namespace Table

theorem encodable_of_decode {table : Table} {types : List ScriptType}
    (read : table.decode = .ok types) :
    (∀ t ∈ types, t.Encodable) ∧ types.length ≤ RawArray.maxLength := by
  obtain ⟨scripts, listed, each⟩ := bind_eq_ok_iff.mp read
  refine ⟨fun t member => ?_, ?_⟩
  · obtain ⟨raw, -, read⟩ := exists_of_mem_mapM each member
    exact RawScript.encodable_of_read read
  · have length := length_eq_of_mapM each
    rw [List.length_zipIdx] at length
    exact length ▸ RawArray.length_le_of_read listed

/-! ### Tables that were written -/

theorem count_of_encode {types : List ScriptType} {table : Table}
    (written : encode types = .ok table) : table.count.toInt = types.length := by
  obtain ⟨scripts, each, listed⟩ := bind_eq_ok_iff.mp written
  unfold RawArray.of at listed
  split at listed
  · rename_i bound
    obtain rfl := Except.ok.inj listed
    rw [← length_eq_of_mapM each]
    exact RawArray.toInt_count bound
  · exact nomatch listed

/-- Writing fails only at the first item that cannot be written, and what was written or read once
reads back as it was. -/
theorem encode_lossless (types : List ScriptType) :
    ((∃ table, encode types = .ok table) ↔
      (∀ t ∈ types, t.Encodable) ∧ types.length ≤ RawArray.maxLength) ∧
    (∀ e, encode types = .error e ↔ (faults types).head? = some e) ∧
    (∀ table, encode types = .ok table →
      table.count.toInt = types.length ∧ table.decode = .ok types) ∧
    ∀ table : Table, table.decode = .ok types →
      ∃ written, encode types = .ok written ∧ written.decode = .ok types := by
  refine ⟨exists_encode_iff, encode_stopsAt types,
    fun table written => ⟨count_of_encode written, decode_encode written⟩, fun table read => ?_⟩
  -- What was read has no zero characters and short lists, since texts end at a zero byte and counts
  -- are machine numbers.
  obtain ⟨written, ok⟩ := exists_encode_iff.mpr (encodable_of_decode read)
  exact ⟨written, ok, decode_encode ok⟩

/-- A type with a field and two methods, and three texts to choose. -/
def lampType (setter method destroy : String) : ScriptType :=
  ⟨"Lamp", [⟨.scalar .float, "level", "Lamp_get_level", setter⟩],
    [⟨"dim", [.scalar .float, .void], .void⟩, ⟨method, [], .unknown⟩], "createLamp", destroy⟩

theorem encode_lossless_lampType :
    (∃ table, encode [lampType "set" "off" "free"] = .ok table ∧ table.count.toInt = 1 ∧
      table.decode = .ok [lampType "set" "off" "free"]) ∧
    encode [lampType "set" "off\x00" "\x00"] = .error (.interiorNul "method name") ∧
    encode [lampType "\x00set" "off\x00" "free"] = .error (.interiorNul "setter symbol") := by
  refine ⟨?_, ((encode_lossless _).2.1 _).mpr (by decide),
    ((encode_lossless _).2.1 _).mpr (by decide)⟩
  obtain ⟨exists_iff, -, whole, -⟩ := encode_lossless [lampType "set" "off" "free"]
  obtain ⟨table, written⟩ := exists_iff.mpr (by decide)
  exact ⟨table, written, whole table written⟩

end Table

end ScriptGlue
