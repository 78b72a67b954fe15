import ScriptGlue.Proofs.Table.Content
import ScriptGlue.Proofs.Table.RoundTrip

/-!
# Decoding

Reading a table yields exactly the records that a well-formed table describes, and of any other it
names the first flaw: `decode_outcome`.
-/

namespace ScriptGlue

variable {α β : Type}

/-! ### Tags -/

theorem FieldType.tag_range {type : FieldType} (known : type ≠ .unknown) :
    1 ≤ type.tag.toInt ∧ type.tag.toInt ≤ 7 := by
  cases type with
  | unknown => exact absurd rfl known
  | scalar kind => cases kind <;> decide
  | void => decide

theorem FieldType.exists_tag {n : Int} (range : 1 ≤ n ∧ n ≤ 7) :
    ∃ type ∈ all, type.tag.toInt = n := by
  have cases : n = 1 ∨ n = 2 ∨ n = 3 ∨ n = 4 ∨ n = 5 ∨ n = 6 ∨ n = 7 := by omega
  rcases cases with rfl | rfl | rfl | rfl | rfl | rfl | rfl <;> decide

theorem FieldType.ofTag_eq_iff {tag : Int32} {type : FieldType} :
    ofTag tag = type ↔ Tagged tag type := by
  constructor
  · rintro rfl
    cases found : all.find? (·.tag == tag) with
    | some type =>
      have same : type.tag = tag := by simpa using List.find?_some found
      exact .inl (by rw [ofTag, found]; exact same)
    | none =>
      refine .inr ⟨by rw [ofTag, found]; rfl, fun range => ?_⟩
      obtain ⟨type, member, same⟩ := exists_tag range
      have different := List.find?_eq_none.mp found type member
      exact different (beq_iff_eq.mpr (Int32.toInt_inj.mp same))
  · -- A tag that is found nowhere is `unknown`, and so is one outside the range.
    rintro (rfl | ⟨rfl, outside⟩)
    · exact ofTag_tag type
    · cases found : all.find? (·.tag == tag) with
      | none => rw [ofTag, found]; rfl
      | some type =>
        obtain rfl : type.tag = tag := by simpa using List.find?_some found
        by_cases known : type = .unknown
        · rw [known]; exact ofTag_tag .unknown
        · exact absurd (tag_range known) outside

/-! ### Texts and arrays -/

theorem RawText.read_eq_ok_iff {t : RawText} {what text : String} :
    t.read what = .ok text ↔ t.Spells text := by
  rw [← text?_eq_some_iff, read, text?]
  cases t.bytes? with
  | none => simp
  | some bytes =>
    dsimp only [Option.bind_some]
    cases String.fromUTF8? ⟨(bytes.takeWhile (· ≠ 0)).toArray⟩ <;> simp

theorem RawText.read_stopsAt (what : String) (t : RawText) :
    StopsAt (t.read what) (t.flaws what) := by
  intro e
  rw [read, flaws, text?]
  cases t.bytes? with
  | none => simp
  | some bytes =>
    dsimp only [Option.bind_some]
    cases String.fromUTF8? ⟨(bytes.takeWhile (· ≠ 0)).toArray⟩ <;> simp

theorem RawText.flaws_eq_nil_iff {t : RawText} {what : String} :
    t.flaws what = [] ↔ t.WellFormed := by
  simp only [← (t.read_stopsAt what).exists_ok_iff, read_eq_ok_iff, WellFormed]

/-- The cases of reading an array: a negative count, a count of zero, a null pointer, entries. -/
theorem RawArray.read_cases (what : String) (a : RawArray α) :
    (a.count.toInt < 0 ∧ a.read what = .error (.negativeCount what a.count.toInt)) ∨
    (a.count.toInt = 0 ∧ a.read what = .ok []) ∨
    (0 < a.count.toInt ∧ a.items? = none ∧ a.read what = .error (.nullPointer what)) ∨
    (0 < a.count.toInt ∧ a.items? ≠ none ∧ a.read what = .ok a.counted) := by
  have negative : a.count < 0 ↔ a.count.toInt < 0 := Int32.lt_iff_toInt_lt
  have zero : a.count = 0 ↔ a.count.toInt = 0 := Int32.toInt_inj.symm
  rw [read]
  simp only [negative, zero]
  rcases Int.lt_trichotomy a.count.toInt 0 with below | none | above
  · exact .inl ⟨below, if_pos below⟩
  · refine .inr (.inl ⟨none, ?_⟩)
    rw [if_neg (by omega), if_pos none]
  · rw [if_neg (by omega), if_neg (by omega)]
    cases items : a.items? with
    | none => exact .inr (.inr (.inl ⟨above, rfl, rfl⟩))
    | some entries =>
      refine .inr (.inr (.inr ⟨above, Option.some_ne_none entries, ?_⟩))
      rw [counted, items, Option.getD_some]

theorem RawArray.read_eq_ok_iff {a : RawArray α} {what : String} {items : List α} :
    a.read what = .ok items ↔ a.Sound ∧ items = a.counted := by
  rcases a.read_cases what with ⟨below, read⟩ | ⟨zero, read⟩ | ⟨above, null, read⟩ |
    ⟨above, present, read⟩
  · have unsound : ¬a.Sound := fun sound => Int.not_lt.mpr sound.count below
    simp [read, unsound]
  · have sound : a.Sound := ⟨Int.le_of_eq zero.symm, fun above => absurd above (by omega)⟩
    have none : a.counted = [] := by simp [counted, zero]
    simp [read, sound, none, eq_comm]
  · have unsound : ¬a.Sound := fun sound => sound.present above null
    simp [read, unsound]
  · have sound : a.Sound := ⟨Int.le_of_lt above, fun _ => present⟩
    simp [read, sound, eq_comm]

theorem RawArray.read_stopsAt (what : String) (a : RawArray α) :
    StopsAt (a.read what) (a.flaws what) := by
  intro e
  rw [flaws]
  rcases a.read_cases what with ⟨below, read⟩ | ⟨zero, read⟩ | ⟨above, null, read⟩ |
    ⟨above, present, read⟩
  · simp [read, below]
  · simp [read, zero]
  · have counts : ¬a.count.toInt < 0 := by omega
    simp [read, counts, above, null]
  · have counts : ¬a.count.toInt < 0 := by omega
    simp [read, counts, present]

theorem RawArray.flaws_eq_nil_iff {a : RawArray α} {what : String} :
    a.flaws what = [] ↔ a.Sound := by
  rw [← (a.read_stopsAt what).exists_ok_iff]
  simp only [read_eq_ok_iff, exists_and_left, exists_eq, and_true]

theorem RawArray.length_counted {a : RawArray α} (sound : a.Sound) (covers : a.Covers) :
    a.count.toInt = a.counted.length := by
  have count := sound.count
  cases items : a.items? with
  | none =>
    have empty : ¬0 < a.count.toInt := fun above => sound.present above items
    simp only [counted, items, Option.getD_none, List.take_nil, List.length_nil]
    omega
  | some entries =>
    have reach := covers entries items
    simp only [counted, items, Option.getD_some, List.length_take]
    omega

theorem RawArray.describes_iff {item : α → β → Prop} {a : RawArray α} {items : List β}
    (covers : a.Covers) :
    a.Describes item items ↔ a.Sound ∧ List.Forall₂ item a.counted items := by
  constructor
  · rintro ⟨count, entries⟩
    refine ⟨⟨by omega, fun above null => ?_⟩, entries⟩
    have none : a.counted = [] := by simp [counted, null]
    have length := entries.length_eq
    rw [none, List.length_nil] at length
    omega
  · rintro ⟨sound, entries⟩
    have count := length_counted sound covers
    exact ⟨by rw [count, entries.length_eq], entries⟩

/-! ### Records -/

theorem RawField.read_eq_ok_iff {raw : RawField} {what : String} {f : Field} :
    raw.read what = .ok f ↔ raw.Describes f := by
  unfold read
  simp only [bind_eq_ok_iff, pure_eq_ok_iff, RawText.read_eq_ok_iff]
  constructor
  · rintro ⟨name, named, getter, got, setter, put, rfl⟩
    exact ⟨FieldType.ofTag_eq_iff.mp rfl, named, got, put⟩
  · rintro ⟨type, named, got, put⟩
    exact ⟨_, named, _, got, _, put, by rw [FieldType.ofTag_eq_iff.mpr type]⟩

theorem RawField.read_stopsAt (what : String) (f : RawField) :
    StopsAt (f.read what) (f.flaws what) :=
  (RawText.read_stopsAt _ _).bind fun _ _ => (RawText.read_stopsAt _ _).bind fun _ _ =>
    (RawText.read_stopsAt _ _).bind_pure

theorem RawField.flaws_eq_nil_iff {f : RawField} {what : String} :
    f.flaws what = [] ↔ f.WellFormed := by
  simp only [flaws, List.append_eq_nil_iff, RawText.flaws_eq_nil_iff]
  exact ⟨fun ⟨name, getter, setter⟩ => ⟨name, getter, setter⟩,
    fun ⟨name, getter, setter⟩ => ⟨name, getter, setter⟩⟩

theorem FieldType.forall₂_tagged_iff {tags : List Int32} {types : List FieldType} :
    List.Forall₂ Tagged tags types ↔ tags.map ofTag = types := by
  rw [← List.forall₂_eq_eq_eq, List.forall₂_map_left_iff]
  simp only [ofTag_eq_iff]

theorem RawMethod.read_eq_ok_iff {raw : RawMethod} {what : String} {m : Method}
    (covers : raw.parameters.Covers) : raw.read what = .ok m ↔ raw.Describes m := by
  unfold read
  simp only [bind_eq_ok_iff, pure_eq_ok_iff, RawText.read_eq_ok_iff, RawArray.read_eq_ok_iff]
  constructor
  · rintro ⟨tags, ⟨sound, rfl⟩, name, named, rfl⟩
    have parameters := FieldType.forall₂_tagged_iff.mpr (Eq.refl (raw.parameters.counted.map _))
    exact ⟨named, (RawArray.describes_iff covers).mpr ⟨sound, parameters⟩,
      FieldType.ofTag_eq_iff.mp rfl⟩
  · rintro ⟨named, described, returned⟩
    obtain ⟨sound, parameters⟩ := (RawArray.describes_iff covers).mp described
    refine ⟨_, ⟨sound, rfl⟩, _, named, ?_⟩
    rw [FieldType.forall₂_tagged_iff.mp parameters, FieldType.ofTag_eq_iff.mpr returned]

theorem RawMethod.read_stopsAt (what : String) (m : RawMethod) :
    StopsAt (m.read what) (m.flaws what) :=
  (RawArray.read_stopsAt _ _).bind fun _ _ => (RawText.read_stopsAt _ _).bind_pure

theorem RawMethod.flaws_eq_nil_iff {m : RawMethod} {what : String} :
    m.flaws what = [] ↔ m.WellFormed := by
  simp only [flaws, List.append_eq_nil_iff, RawText.flaws_eq_nil_iff, RawArray.flaws_eq_nil_iff]
  exact ⟨fun ⟨parameters, name⟩ => ⟨parameters, name⟩, fun ⟨parameters, name⟩ => ⟨parameters, name⟩⟩

theorem RawScript.read_eq_ok_iff {raw : RawScript} {index : Nat} {t : ScriptType}
    (covers : raw.Covers) : raw.read index = .ok t ↔ raw.Describes t := by
  have fieldsRead (name : String) (fields : List Field) :
      raw.fields.counted.zipIdx.mapM (fun f => f.1.read s!"{name}.fields[{f.2}]") = .ok fields ↔
        List.Forall₂ RawField.Describes raw.fields.counted fields :=
    mapM_zipIdx_eq_ok_iff (fun i => RawField.read s!"{name}.fields[{i}]")
      fun _ _ _ _ => RawField.read_eq_ok_iff
  have methodsRead (name : String) (methods : List Method) :
      raw.methods.counted.zipIdx.mapM (fun m => m.1.read s!"{name}.methods[{m.2}]") = .ok methods ↔
        List.Forall₂ RawMethod.Describes raw.methods.counted methods :=
    mapM_zipIdx_eq_ok_iff (fun i => RawMethod.read s!"{name}.methods[{i}]")
      fun m inside _ _ => RawMethod.read_eq_ok_iff (covers.parameters m inside)
  unfold read
  simp only [bind_eq_ok_iff, pure_eq_ok_iff, RawText.read_eq_ok_iff, RawArray.read_eq_ok_iff]
  constructor
  · rintro ⟨name, named, -, ⟨fieldArray, rfl⟩, fields, fieldsOk, -, ⟨methodArray, rfl⟩, methods,
      methodsOk, create, created, destroy, destroyed, rfl⟩
    rw [fieldsRead] at fieldsOk
    rw [methodsRead] at methodsOk
    exact ⟨named, (RawArray.describes_iff covers.fields).mpr ⟨fieldArray, fieldsOk⟩,
      (RawArray.describes_iff covers.methods).mpr ⟨methodArray, methodsOk⟩, created, destroyed⟩
  · rintro ⟨named, fields, methods, created, destroyed⟩
    obtain ⟨fieldArray, fieldsOk⟩ := (RawArray.describes_iff covers.fields).mp fields
    obtain ⟨methodArray, methodsOk⟩ := (RawArray.describes_iff covers.methods).mp methods
    exact ⟨_, named, _, ⟨fieldArray, rfl⟩, _, (fieldsRead _ _).mpr fieldsOk, _, ⟨methodArray, rfl⟩,
      _, (methodsRead _ _).mpr methodsOk, _, created, _, destroyed, rfl⟩

/-- An array is gone through only if it is sound, and then up to its count. -/
theorem RawArray.read_bind_stopsAt {a : RawArray α} {what : String} {rest : List TableError}
    {f : List α → Except TableError β} (next : StopsAt (f a.counted) rest) :
    StopsAt (a.read what >>= f) (a.flaws what ++ rest) := by
  refine (a.read_stopsAt what).bind fun items ok => ?_
  rw [(read_eq_ok_iff.mp ok).2]
  exact next

theorem RawScript.read_stopsAt (index : Nat) (s : RawScript) :
    StopsAt (s.read index) (s.flaws index) := by
  refine (RawText.read_stopsAt _ _).bind fun name named => ?_
  rw [RawText.text?_eq_some_iff.mpr (RawText.read_eq_ok_iff.mp named), Option.map_some,
    Option.getD_some]
  have fields : StopsAt (s.fields.counted.zipIdx.mapM fun f => f.1.read s!"{name}.fields[{f.2}]")
      (s.fields.counted.zipIdx.flatMap fun f => f.1.flaws s!"{name}.fields[{f.2}]") :=
    StopsAt.mapM (fun f => f.1.read_stopsAt _) _
  have methods : StopsAt (s.methods.counted.zipIdx.mapM fun m => m.1.read s!"{name}.methods[{m.2}]")
      (s.methods.counted.zipIdx.flatMap fun m => m.1.flaws s!"{name}.methods[{m.2}]") :=
    StopsAt.mapM (fun m => m.1.read_stopsAt _) _
  exact RawArray.read_bind_stopsAt <| fields.bind fun _ _ =>
    RawArray.read_bind_stopsAt <| methods.bind fun _ _ =>
    (RawText.read_stopsAt _ _).bind fun _ _ => (RawText.read_stopsAt _ _).bind_pure

theorem RawScript.memberFlaws_eq_nil_iff {s : RawScript} {name : String} :
    s.memberFlaws name = [] ↔ s.fields.Sound ∧ (∀ f ∈ s.fields.counted, f.WellFormed) ∧
      s.methods.Sound ∧ (∀ m ∈ s.methods.counted, m.WellFormed) ∧
      s.create.WellFormed ∧ s.destroy.WellFormed := by
  have fields := flatMap_zipIdx_eq_nil_iff (fun i => RawField.flaws s!"{name}.fields[{i}]")
    (fun _ _ => RawField.flaws_eq_nil_iff) s.fields.counted
  have methods := flatMap_zipIdx_eq_nil_iff (fun i => RawMethod.flaws s!"{name}.methods[{i}]")
    (fun _ _ => RawMethod.flaws_eq_nil_iff) s.methods.counted
  simp only [memberFlaws, List.append_eq_nil_iff, RawText.flaws_eq_nil_iff,
    RawArray.flaws_eq_nil_iff, fields, methods]

theorem RawScript.flaws_eq_nil_iff {s : RawScript} {index : Nat} :
    s.flaws index = [] ↔ s.WellFormed := by
  rw [flaws, List.append_eq_nil_iff, RawText.flaws_eq_nil_iff]
  constructor
  · rintro ⟨⟨name, named⟩, members⟩
    rw [RawText.text?_eq_some_iff.mpr named] at members
    obtain ⟨fieldArray, fields, methodArray, methods, create, destroy⟩ :=
      memberFlaws_eq_nil_iff.mp members
    exact ⟨⟨name, named⟩, fieldArray, fields, methodArray, methods, create, destroy⟩
  · rintro ⟨⟨name, named⟩, fieldArray, fields, methodArray, methods, create, destroy⟩
    rw [RawText.text?_eq_some_iff.mpr named]
    exact ⟨⟨name, named⟩, memberFlaws_eq_nil_iff.mpr
      ⟨fieldArray, fields, methodArray, methods, create, destroy⟩⟩

/-! ### Tables -/

namespace Table

theorem decode_eq_ok_iff {t : Table} (covers : t.Covers) {types : List ScriptType} :
    t.decode = .ok types ↔ t.Describes types := by
  have scripts : (RawArray.counted t).zipIdx.mapM (fun s => s.1.read s.2) = .ok types ↔
      List.Forall₂ RawScript.Describes (RawArray.counted t) types :=
    mapM_zipIdx_eq_ok_iff RawScript.read
      fun s inside _ _ => RawScript.read_eq_ok_iff (covers.scripts s inside)
  unfold decode Describes
  simp only [bind_eq_ok_iff, RawArray.read_eq_ok_iff, RawArray.describes_iff covers.array]
  constructor
  · rintro ⟨-, ⟨sound, rfl⟩, read⟩
    exact ⟨sound, scripts.mp read⟩
  · rintro ⟨sound, described⟩
    exact ⟨_, ⟨sound, rfl⟩, scripts.mpr described⟩

theorem decode_stopsAt (t : Table) : StopsAt t.decode t.flaws :=
  RawArray.read_bind_stopsAt (StopsAt.mapM (fun s => s.1.read_stopsAt s.2) _)

theorem flaws_eq_nil_iff {t : Table} : t.flaws = [] ↔ t.WellFormed := by
  rw [flaws, List.append_eq_nil_iff, RawArray.flaws_eq_nil_iff,
    flatMap_zipIdx_eq_nil_iff RawScript.flaws fun _ _ => RawScript.flaws_eq_nil_iff]
  exact ⟨fun ⟨array, scripts⟩ => ⟨array, scripts⟩, fun ⟨array, scripts⟩ => ⟨array, scripts⟩⟩

/-- What reading makes of a table, well formed or not. -/
theorem decode_outcome {t : Table} (covers : t.Covers) :
    ((∃ types, t.decode = .ok types) ↔ t.WellFormed) ∧
    (∀ types, t.decode = .ok types ↔ t.Describes types) ∧
    ∀ e, t.decode = .error e ↔ t.flaws.head? = some e := by
  refine ⟨?_, fun _ => decode_eq_ok_iff covers, t.decode_stopsAt⟩
  rw [t.decode_stopsAt.exists_ok_iff, flaws_eq_nil_iff]

/-- A type with an odd tag and a broken field behind its count, and one with faults of its own. -/
def flawedScripts : List RawScript :=
  [⟨⟨some [76, 97, 109, 112]⟩,
      ⟨some [⟨99, ⟨some [120]⟩, ⟨some [103, 0, 255]⟩, ⟨some [115]⟩⟩, ⟨1, ⟨none⟩, ⟨none⟩, ⟨none⟩⟩], 1⟩,
      ⟨none, 0⟩, ⟨some [99]⟩, ⟨some [100]⟩⟩,
    ⟨⟨some [68, 111, 111, 114]⟩, ⟨none, 0⟩, ⟨some [⟨⟨none⟩, ⟨none, 2⟩, 7⟩], 1⟩,
      ⟨some [255]⟩, ⟨none⟩⟩]

theorem decode_outcome_flawedScripts :
    decode ⟨some flawedScripts, 1⟩ = .ok [⟨"Lamp", [⟨.unknown, "x", "g", "s"⟩], [], "c", "d"⟩] ∧
    ¬WellFormed ⟨some flawedScripts, 2⟩ ∧
    decode ⟨some flawedScripts, 2⟩ = .error (.nullPointer "Door.methods[0].parameters") := by
  have first := decode_outcome (t := ⟨some flawedScripts, 1⟩) (by decide)
  have second := decode_outcome (t := ⟨some flawedScripts, 2⟩) (by decide)
  have field : RawField.Describes ⟨99, ⟨some [120]⟩, ⟨some [103, 0, 255]⟩, ⟨some [115]⟩⟩
      ⟨.unknown, "x", "g", "s"⟩ :=
    ⟨.inr (by decide), ⟨_, rfl, by decide⟩, ⟨_, rfl, by decide⟩, ⟨_, rfl, by decide⟩⟩
  have refused : decode ⟨some flawedScripts, 2⟩ =
      .error (.nullPointer "Door.methods[0].parameters") := (second.2.2 _).mpr (by decide +kernel)
  refine ⟨(first.2.1 _).mpr ⟨by decide, .cons ?_ .nil⟩, fun wellFormed => ?_, refused⟩
  · exact ⟨⟨_, rfl, by decide⟩, ⟨by decide, .cons field .nil⟩, ⟨by decide, .nil⟩,
      ⟨_, rfl, by decide⟩, ⟨_, rfl, by decide⟩⟩
  · obtain ⟨types, ok⟩ := second.1.mpr wellFormed
    exact nomatch refused.symm.trans ok

end Table

end ScriptGlue
