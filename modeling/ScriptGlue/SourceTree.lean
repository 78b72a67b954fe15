import ScriptGlue.Configuration
import ScriptGlue.Disk

/-!
# Source trees

The headers and sources of a project are found by a walk below its root. The order in which folders
list their entries does not show: what is found is sorted by the names on the way to it.
-/

namespace ScriptGlue

/-- The headers and sources below a root, by their paths from there. -/
structure SourceTree where
  headers : List Path
  sources : List Path
deriving Repr, DecidableEq, Inhabited

namespace SourceTree

inductive Kind
  | header
  | source
deriving Repr, DecidableEq, Inhabited

/-- What the file of a name is. A file that was generated is nothing, and neither is one whose
extension is no text. -/
def kind? (c : Configuration) (name : OsText) : Option Kind :=
  let parts := FileName.of name
  match parts.extension?.bind OsText.text? with
  | none => none
  | some extension =>
    if parts.isGenerated then none
    else if extension ∈ c.headerExtensions then some .header
    else if extension ∈ c.sourceExtensions then some .source
    else none

/-- A file of a folder by the names from the root to it, if it is a header or a source. -/
def asFile (c : Configuration) (route : Address) (name : OsText) : List (Address × Kind) :=
  (kind? c name).toList.map ((route ++ [name], ·))

/-- Whether a folder is entered: it is not hidden, not excluded and not the one to skip. -/
def isEntered (d : Disk) (c : Configuration) (skip : Option Address) (path : Path) (name : OsText) :
    Bool :=
  name.shown.toList.head? ≠ some '.' && name.shown ∉ c.exclude
    && (skip.isNone || (d.canonical path).toOption ≠ skip)

/-- The files of a project in a folder and below, by the names from the root to them. `place` is the
address of the root. A folder that cannot be looked up passes for a file. -/
def walk (d : Disk) (c : Configuration) (skip : Option Address) (root : Path)
    (place route : Address) : FileTree → Except DiskError (List (Address × Kind))
  | .empty => return []
  | .file name _ others => do
    d.ask .entry (place ++ route ++ [name])
    return asFile c route name ++ (← walk d c skip root place route others)
  | .folder name inside others => do
    d.ask .entry (place ++ route ++ [name])
    let path := root.below (route ++ [name])
    let here ←
      (if !d.isFolder path then pure (asFile c route name)
      else if isEntered d c skip path name then do
        d.ask .list (place ++ route ++ [name])
        walk d c skip root place (route ++ [name]) inside
      else pure [])
    return here ++ (← walk d c skip root place route others)

/-- Names are ordered by their bytes, and addresses name by name. -/
def isBefore (a b : Address) : Bool :=
  List.lex a b fun x y => List.lex x.bytes y.bytes fun b c => b < c

def sorted (found : List (Address × Kind)) (kind : Kind) : List Path :=
  let routes := (found.filter (·.2 = kind)).map (·.1)
  (routes.mergeSort fun a b => !isBefore b a).map .ofNames

/-- Walks the folder at `root`. A folder at `skip` is passed over. One listing that is refused, or breaks
off, ends the walk. -/
def collect (d : Disk) (root : Path) (c : Configuration) (skip : Option Path) :
    Except DiskError SourceTree := do
  let place ← d.locate root
  let inside ← d.folder place
  d.ask .list place
  let skip := skip.bind fun p => (d.canonical p).toOption
  let found ← walk d c skip root place [] inside
  return ⟨sorted found .header, sorted found .source⟩

def isEmpty (t : SourceTree) : Bool := t.headers.isEmpty && t.sources.isEmpty

end SourceTree

end ScriptGlue
