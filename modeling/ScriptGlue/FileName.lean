import ScriptGlue.OsText

/-!
# File names

A name is cut at its last dot into a stem and an extension. A dot that begins the name cuts nothing.
A generated file is named after the file it comes from by a word in front of the extension.
-/

namespace ScriptGlue

structure FileName where
  stem : OsText
  /-- What stands behind the last dot, if there is such a dot behind another character. -/
  extension? : Option OsText
deriving Repr, DecidableEq, Inhabited

namespace FileName

def dot : UInt8 := '.'.toUInt8

def mark : String := "generated"

def of (name : OsText) : FileName :=
  match name.bytes.reverse.dropWhile (· ≠ dot) with
  | _ :: stem@(_ :: _) =>
    ⟨⟨stem.reverse⟩, some ⟨(name.bytes.reverse.takeWhile (· ≠ dot)).reverse⟩⟩
  | _ => ⟨name, none⟩

def bytes (n : FileName) : List UInt8 :=
  match n.extension? with
  | some extension => n.stem.bytes ++ dot :: extension.bytes
  | none => n.stem.bytes

/-- The name of the generated file. It is a text, so what is no text in this name is replaced. -/
def generated (n : FileName) : String :=
  match n.extension? with
  | some extension => n.stem.shown ++ "." ++ mark ++ "." ++ extension.shown
  | none => n.stem.shown ++ "." ++ mark

/-- Whether this is the name of a generated file: the mark stands in front of an extension. -/
def isGenerated (n : FileName) : Bool := (of n.stem).extension? == some (mark : OsText)

/-! ### The parts make up the name -/

theorem bytes_of (name : OsText) : (of name).bytes = name.bytes := by
  unfold of
  split
  · next c first rest h =>
    have hdot : c = dot := by
      have hne : name.bytes.reverse.dropWhile (fun x => decide (x ≠ dot)) ≠ [] := by rw [h]; simp
      have := List.head_dropWhile_not _ hne
      simp only [h, List.head_cons] at this
      simpa using this
    have := List.takeWhile_append_dropWhile (p := fun x => decide (x ≠ dot)) (l := name.bytes.reverse)
    rw [h, hdot] at this
    have := congrArg List.reverse this
    simpa [bytes] using this
  · rfl

end FileName

end ScriptGlue
