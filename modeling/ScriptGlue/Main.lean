import ScriptGlue.CommandLine.Outcome

/-!
# The program

The program takes down what the disk holds where a command line points to, has the command line
carried out on that, and then brings the disk up to date.
-/

namespace ScriptGlue.Program

/-- An address as the operating system spells it. -/
def spelling (address : Address) : String := "/" ++ "/".intercalate (address.map (·.shown))

def follow (start : Address) (pieces : List OsText) : Address :=
  pieces.foldl (fun place piece =>
    if Path.isBlank piece then place
    else if piece = ".." then place.dropLast
    else place ++ [piece]) start

/-- Takes down a folder, so many levels deep. Hidden folders are left out, as no search enters
them, and so is the content of files without an extension, as none is read. -/
def load : Nat → String → IO FileTree
  | 0, _ => return .empty
  | depth + 1, place => do
    let entries ← (← IO.FS.realPath place).readDir
    entries.toList.foldlM (fun tree entry => do
      let name := entry.fileName
      let inside := place ++ "/" ++ name
      if ← entry.path.isDir then
        if name.startsWith "." then return tree
        else return tree.set name (.folder (← load depth inside))
      else if (FileName.of name).extension?.isSome then
        return tree.set name (.file (← IO.FS.readBinFile inside))
      else return tree.set name (.file .empty)) .empty

def deepest : Nat := 256

/-- Takes down what stands at an address, if anything does: a folder with what is in it, or without
if not `whole`. -/
def look? (whole : Bool) (address : Address) : IO (Option FileTree.Entry) := do
  let place := spelling address
  let real? ← try pure (some (← IO.FS.realPath place)) catch _ => pure none
  match real? with
  | none => return none
  | some real =>
    if ← real.isDir then return some (.folder (← load (if whole then deepest else 0) place))
    else return some (.file (← IO.FS.readBinFile real))

/-- Adds what stands at a path, and the folders on the way there. -/
def record (d : Disk) (p : Path) : IO Disk := do
  let start := if p.start = .root then [] else d.workingFolder
  let way := (List.range p.pieces.length).map fun n => follow start (p.pieces.take n)
  let d ← way.foldlM (fun (d : Disk) address => do
    if (d.root.find? address).isSome then return d
    match ← look? false address with
    | none => return d
    | some entry => return d.setAt entry address) d
  let address := follow start p.pieces
  match ← look? true address with
  | none => return d
  | some (.folder inside) =>
    return if address = [] then { d with volume := inside } else d.setAt (.folder inside) address
  | some entry => return d.setAt entry address

/-- Takes down the disk as far as a command is about it. -/
def snapshot (i : CommandLine.Invocation) : IO Disk := do
  let here := (Path.ofText (← IO.FS.realPath ".").toString).pieces.filter (!Path.isBlank ·)
  let way := (List.range (here.length + 1)).map here.take
  let start : Disk := ⟨way.foldl (fun t address => t.setAt (.folder .empty) address) FileTree.empty, here⟩
  match i.command with
  | .generate input output config? _ _ _ =>
    let d ← record start output
    let d ← record d input
    match config? with
    | none => return d
    | some file => record d file
  | .inspect .. => return start

def update (before after : FileTree) : IO Unit :=
  (before.changes after).forM fun (address, content) => do
    IO.FS.createDirAll (spelling address.dropLast)
    IO.FS.writeBinFile (spelling address) content

end ScriptGlue.Program

open ScriptGlue in
def main (texts : List String) : IO UInt32 := do
  let before ← match CommandLine.parse texts with
    | .ok invocation => Program.snapshot invocation
    | .error _ => pure ⟨FileTree.empty, []⟩
  let outcome := CommandLine.run before texts
  Program.update before.root outcome.disk.root
  (← IO.getStdout).putStr outcome.output
  (← IO.getStderr).putStr outcome.errors
  return outcome.code.toUInt32
