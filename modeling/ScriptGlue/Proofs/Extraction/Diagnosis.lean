import ScriptGlue.Proofs.Extraction.Naming

/-!
# Diagnosed fields

Extraction complains about exactly the fields that get no accessors, in their order
(`unsupported_ofSource`).
-/

namespace ScriptGlue

/-- The type and the field that a complaint about a field's type names. -/
def Diagnostic.unsupported? : Diagnostic → Option (String × String)
  | .unknownFieldType typeName field _ _ => some (typeName, field)
  | _ => none

/-- The fields without accessors, each with the name of the type. -/
def ScriptType.unsupported (t : ScriptType) : List (String × String) :=
  (t.fields.filter (!·.type.isAccessible)).map fun f => (t.name, f.name)

theorem Diagnostic.unsupported?_eq_some_iff {d : Diagnostic} {typeName field : String} :
    d.unsupported? = some (typeName, field) ↔
      ∃ declared span, d = .unknownFieldType typeName field declared span := by
  cases d <;> simp [unsupported?, eq_comm]

theorem Member.unsupported_filterMap (typeName : String) (members : List Member) :
    (members.filterMap (Member.diagnostic? typeName)).filterMap Diagnostic.unsupported? =
      ((members.filterMap (Member.field? typeName)).filter (!·.type.isAccessible)).map
        fun f => (typeName, f.name) := by
  induction members with
  | nil => rfl
  | cons m members ih =>
    cases m with
    | field d =>
      by_cases accessible : d.type.isAccessible
      · simpa [Member.diagnostic?, Member.field?, Field.declared, accessible] using ih
      · simpa [Member.diagnostic?, Member.field?, Field.declared, accessible,
          Diagnostic.unsupported?] using ih
    | malformed marker => exact ih
    | method marker => exact ih

theorem Segment.unsupported_extract (s : Segment) :
    s.extract.diagnostics.filterMap Diagnostic.unsupported? =
      s.extract.types.flatMap ScriptType.unsupported := by
  rcases s.extract_cases with eq | ⟨name, body, -, eq⟩
  · rw [eq]
    rfl
  · rw [eq, List.flatMap_singleton]
    exact Member.unsupported_filterMap name.lexeme (Member.ofBody body)

theorem Scan.unsupported_diagnostics (source : String) :
    (Scan.of source).diagnostics.filterMap Diagnostic.unsupported? = [] := by
  rw [List.filterMap_eq_nil_iff]
  intro d member
  obtain ⟨⟨p, piece⟩, -, eq⟩ := List.mem_filterMap.mp member
  cases piece with
  | openQuote text =>
    obtain rfl := Option.some.inj eq
    rfl
  | trivia text => exact nomatch eq
  | token kind text => exact nomatch eq

theorem Extraction.unsupported_ofSource (source : String) :
    (ofSource source).diagnostics.filterMap Diagnostic.unsupported? =
      (ofSource source).types.flatMap ScriptType.unsupported := by
  rw [ofSource, List.filterMap_append, Scan.unsupported_diagnostics, List.nil_append, ofTokens]
  simp only [List.flatMap_map, List.filterMap_flatMap, List.flatMap_assoc,
    Segment.unsupported_extract]

end ScriptGlue
