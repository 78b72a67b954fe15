import ScriptGlue.FileName

/-!
# Paths

A path keeps the spelling it was given: where it starts, and the pieces between its slashes. Empty
pieces and single dots name nothing. `raw_ofText` says that no part of the spelling is lost.
-/

namespace ScriptGlue

/-- Where a path starts. -/
inductive Path.Start
  /-- At the root: the path begins with a slash. -/
  | root
  /-- At the working directory, said by a dot. -/
  | here
  /-- At the working directory, without a word. -/
  | bare
deriving Repr, DecidableEq, Inhabited

structure Path where
  start : Path.Start
  pieces : List OsText
deriving Repr, DecidableEq, Inhabited

/-- One step of a path. -/
inductive Path.Component
  | root
  | here
  | parent
  | name (name : OsText)
deriving Repr, DecidableEq, Inhabited

namespace Path

def Start.text : Start → String
  | root => "/"
  | here => "."
  | bare => ""

def slash : UInt8 := '/'.toUInt8

def cut (s : List Char) : List OsText := (s.splitOn '/').map fun piece => ⟨OsText.encode piece⟩

def ofChars : List Char → Path
  | '/' :: rest => ⟨.root, cut rest⟩
  | ['.'] => ⟨.here, []⟩
  | '.' :: '/' :: rest => ⟨.here, cut ('/' :: rest)⟩
  | s => ⟨.bare, cut s⟩

def ofText (s : String) : Path := ofChars s.toList

/-- The spelling of a path. -/
def raw (p : Path) : OsText :=
  ⟨OsText.encode p.start.text.toList ++ [slash].intercalate (p.pieces.map (·.bytes))⟩

def text (p : Path) : String := p.raw.shown

/-- The path that some names make, one below the other. -/
def ofNames (names : List OsText) : Path := ⟨.bare, names⟩

def isBlank (piece : OsText) : Bool := piece == "" || piece == "."

/-- The steps of a path. Two spellings with the same steps are the same place. -/
def components (p : Path) : List Component :=
  let steps := (p.pieces.filter (!isBlank ·)).map fun (piece : OsText) =>
    if piece = ".." then .parent else .name piece
  match p.start with
  | .root => .root :: steps
  | .here => .here :: steps
  | .bare => steps

/-- The name that a path ends in, if it ends in one. -/
def fileName? (p : Path) : Option OsText :=
  match p.components.getLast? with
  | some (.name name) => some name
  | _ => none

/-- The path without its last step. -/
def parent? (p : Path) : Option Path :=
  match p.pieces.reverse.dropWhile isBlank with
  | _ :: above => some ⟨p.start, (above.dropWhile isBlank).reverse⟩
  | [] => if p.start = .here then some ⟨.bare, []⟩ else none

def size (p : Path) : Nat := p.pieces.length + if p.start = .here then 1 else 0

/-- The path of what `names` lead to from `p`. A slash that ends `p` is not doubled. -/
def below (p : Path) (names : List OsText) : Path :=
  match p.pieces.getLast?, p.start with
  | some ⟨[]⟩, start => ⟨start, p.pieces.dropLast ++ names⟩
  | some _, start => ⟨start, p.pieces ++ names⟩
  | none, .here => ⟨.here, "" :: names⟩
  | none, start => ⟨start, names⟩

def withFileName (p : Path) (name : OsText) : Path :=
  match p.fileName?, p.parent? with
  | some _, some parent => parent.below [name]
  | _, _ => p.below [name]

def generated (p : Path) : Path :=
  p.withFileName (FileName.of (p.fileName?.getD "")).generated

/-! ### No spelling is lost -/

theorem intercalate_cut (s : List Char) :
    [slash].intercalate ((cut s).map (·.bytes)) = OsText.encode s := by
  have parts (pieces : List (List Char)) : [slash].intercalate (pieces.map OsText.encode) =
      OsText.encode (['/'].intercalate pieces) := by
    induction pieces with
    | nil => rfl
    | cons piece pieces ih =>
      cases pieces with
      | nil => simp
      | cons next pieces =>
        simp only [List.map_cons, List.intercalate_cons_cons] at ih ⊢
        rw [ih]
        simp [OsText.encode, slash]
        rfl
  rw [cut, List.map_map]
  exact (parts _).trans (congrArg _ (List.intercalate_splitOn '/'))

/-- Reading and spelling a path changes nothing. -/
theorem raw_ofText (s : String) : (ofText s).raw = .ofText s := by
  unfold ofText ofChars
  split
  · next rest h => simp [raw, Start.text, intercalate_cut, h, OsText.ofText, OsText.encode]
  · next h => simp [raw, Start.text, h, OsText.ofText]
  · next rest h => simp [raw, Start.text, intercalate_cut, h, OsText.ofText, OsText.encode]
  · simp [raw, Start.text, intercalate_cut, OsText.ofText, OsText.encode]

/-! ### Shortening ends -/

theorem size_parent?_lt {p q : Path} (h : p.parent? = some q) : q.size < p.size := by
  unfold parent? at h
  split at h
  · next piece above hdrop =>
    obtain rfl := Option.some.inj h
    have h₁ := (List.dropWhile_sublist isBlank (l := p.pieces.reverse)).length_le
    have h₂ := (List.dropWhile_sublist isBlank (l := above)).length_le
    rw [hdrop] at h₁
    simp only [List.length_cons, List.length_reverse] at h₁
    simp only [size, List.length_reverse]
    omega
  · split at h
    · next hstart =>
      obtain rfl := Option.some.inj h
      simp [size, hstart]
    · simp at h

end Path

end ScriptGlue
