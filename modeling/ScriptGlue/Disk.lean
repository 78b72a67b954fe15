import ScriptGlue.FileTree
import ScriptGlue.Path

/-!
# Disks

A disk is a file tree, what the system refuses there, and a working directory. A path is looked up
piece by piece; whatever stops the look-up has the name that the operating system gives it. There are no
links, so an address is the canonical form of every path that leads to it. Who may do what, and which
device fails, is left out: all that is known is which access is refused, and that is refused each time.
-/

namespace ScriptGlue

inductive DiskError
  | notFound
  | notAFolder
  | isAFolder
  | alreadyExists
  | nameTooLong
  /-- A path with a zero character has no spelling. -/
  | zeroInPath
  /-- The content of a file is no text. -/
  | notText
  /-- Any other reason, in the words of the system. -/
  | refused (reason : String)
deriving Repr, DecidableEq, Inhabited

def DiskError.message : DiskError → String
  | notFound => "No such file or directory (os error 2)"
  | notAFolder => "Not a directory (os error 20)"
  | isAFolder => "Is a directory (os error 21)"
  | alreadyExists => "File exists (os error 17)"
  | nameTooLong => "File name too long (os error 36)"
  | zeroInPath => "file name contained an unexpected NUL byte"
  | notText => "stream did not contain valid UTF-8"
  | refused reason => reason

/-- What can be asked for at the address of a file or folder. -/
inductive Access
  /-- To list a folder. -/
  | list
  /-- To be told of a file or folder where the folder that holds it is listed. -/
  | entry
  /-- To look up what a folder holds. -/
  | search
  /-- To add to a folder. -/
  | add
  | read
  | write
deriving Repr, DecidableEq, Inhabited

/-- A file tree, and what the system refuses there. Nothing is refused of what is not there, so what is
made anew is open. -/
structure Volume where
  root : FileTree
  refusal? : Access → Address → Option DiskError
  absent : ∀ access address, root.find? address = none → refusal? access address = none

instance : Coe FileTree Volume := ⟨fun t => ⟨t, fun _ _ => none, fun _ _ _ => rfl⟩⟩

instance : Inhabited Volume := ⟨FileTree.empty⟩

def Volume.setAt (v : Volume) (entry : FileTree.Entry) (address : Address) : Volume where
  root := v.root.setAt entry address
  refusal? access a :=
    if ((v.root.setAt entry address).find? a).isSome then v.refusal? access a else none
  absent access a gone := by simp [gone]

/-- Files and folders below a root, and the folder that paths start from. -/
structure Disk where
  volume : Volume
  workingFolder : Address
deriving Inhabited

namespace Disk

abbrev root (d : Disk) : FileTree := d.volume.root

def refusal? (d : Disk) : Access → Address → Option DiskError := d.volume.refusal?

def setAt (d : Disk) (entry : FileTree.Entry) (address : Address) : Disk :=
  { d with volume := d.volume.setAt entry address }

/-- Asks the system for an access. -/
def ask (d : Disk) (access : Access) (address : Address) : Except DiskError Unit :=
  match d.refusal? access address with
  | some e => .error e
  | none => .ok ()

def longestName : Nat := 255

def longestPath : Nat := 4095

def folder (d : Disk) (place : Address) : Except DiskError FileTree :=
  match d.root.find? place with
  | some (.folder inside) => .ok inside
  | some (.file _) => .error .notAFolder
  | none => .error .notFound

/-- One step of a look-up. An empty piece asks for no more than that there is a folder. -/
def step (d : Disk) (place : Address) (piece : OsText) : Except DiskError Address := do
  let inside ← d.folder place
  if piece = "" then return place
  d.ask .search place
  if piece = "." then return place
  else if piece = ".." then return place.dropLast
  else if piece.size > longestName then throw .nameTooLong
  else if (inside.get? piece).isNone then throw .notFound
  else return place ++ [piece]

def origin (d : Disk) (p : Path) : Except DiskError Address :=
  if 0 ∈ p.raw.bytes then .error .zeroInPath
  else if p.raw = "" then .error .notFound
  else .ok (if p.start = .root then [] else d.workingFolder)

def isInReach (p : Path) : Bool := p.raw.size ≤ longestPath

def base (d : Disk) (p : Path) : Except DiskError Address := do
  let start ← d.origin p
  if isInReach p then return start else throw .nameTooLong

def locate (d : Disk) (p : Path) : Except DiskError Address := do
  p.pieces.foldlM d.step (← d.base p)

/-- The canonical form of a path. It is found piece by piece, so the length of the spelling does not
matter. -/
def canonical (d : Disk) (p : Path) : Except DiskError Address := do
  p.pieces.foldlM d.step (← d.origin p)

def isFolder (d : Disk) (p : Path) : Bool :=
  match (d.locate p).map d.root.find? with
  | .ok (some (.folder _)) => true
  | _ => false

def isFile (d : Disk) (p : Path) : Bool :=
  match (d.locate p).map d.root.find? with
  | .ok (some (.file _)) => true
  | _ => false

def readText (d : Disk) (p : Path) : Except DiskError String := do
  let address ← d.locate p
  d.ask .read address
  match d.root.find? address with
  | some (.file content) =>
    match String.fromUTF8? content with
    | some text => return text
    | none => throw .notText
  | some (.folder _) => throw .isAFolder
  | none => throw .notFound

/-- The folder that holds, or is to hold, what a path leads to, and its name there. A path that ends
in a dot or two, or is a start alone, names what is there already. -/
def holder (d : Disk) (p : Path) : Except DiskError (Address × Option OsText) := do
  let start ← d.base p
  match p.pieces.reverse.dropWhile (· == ("" : OsText)) with
  | [] => return (start, none)
  | last :: above =>
    let place ← above.reverse.foldlM d.step start
    let _ ← d.folder place
    d.ask .search place
    if last = "." ∨ last = ".." then return (place, none)
    else if last.size > longestName then throw .nameTooLong
    else return (place, some last)

def makeFolder (d : Disk) (p : Path) : Except DiskError Disk := do
  match ← d.holder p with
  | (_, none) => throw .alreadyExists
  | (place, some name) =>
    let address := place ++ [name]
    if (d.root.find? address).isSome then throw .alreadyExists
    d.ask .add place
    return d.setAt (.folder .empty) address

/-- Makes the folder at a path and, where they are missing, the folders above it. A failure keeps
the folders made before it. -/
def makeFolders (d : Disk) (p : Path) : Except (DiskError × Disk) Disk :=
  if p.raw = "" then .ok d
  else
    match d.makeFolder p with
    | .ok d => .ok d
    | .error .notFound =>
      match _h : p.parent? with
      | none => .error (.notFound, d)
      | some above =>
        match d.makeFolders above with
        | .error failure => .error failure
        | .ok d =>
          match d.makeFolder p with
          | .ok d => .ok d
          | .error e => if d.isFolder p then .ok d else .error (e, d)
    | .error e => if d.isFolder p then .ok d else .error (e, d)
termination_by p.size
decreasing_by exact Path.size_parent?_lt ‹_›

def writeText (d : Disk) (p : Path) (text : String) : Except DiskError Disk := do
  match ← d.holder p with
  | (_, none) => throw .isAFolder
  | (place, some name) =>
    let address := place ++ [name]
    match d.root.find? address with
    | some (.folder _) => throw .isAFolder
    | some (.file _) => d.ask .write address
    | none => d.ask .add place
    return d.setAt (.file text.toUTF8) address

end Disk

end ScriptGlue
