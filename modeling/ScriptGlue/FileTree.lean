import ScriptGlue.OsText

/-!
# File trees

A tree is the content of a folder: files and folders, each under a name. The order of the entries is
that in which the folder lists them and carries no meaning. Of two entries of one name only the
first can be reached. Left out are links, what is neither file nor folder, and all that a file has
besides its content.
-/

namespace ScriptGlue

abbrev Address := List OsText

local instance decidableEqContent : DecidableEq ByteArray := ByteArray.instDecidableEq

/-- The entries of a folder. -/
inductive FileTree
  | empty
  | file (name : OsText) (content : ByteArray) (others : FileTree)
  | folder (name : OsText) (inside others : FileTree)
deriving DecidableEq, Inhabited

inductive FileTree.Entry
  | file (content : ByteArray)
  | folder (inside : FileTree)
deriving DecidableEq, Inhabited

namespace FileTree

def get? (name : OsText) : FileTree → Option Entry
  | empty => none
  | file n content others => if n = name then some (.file content) else others.get? name
  | folder n inside others => if n = name then some (.folder inside) else others.get? name

/-- What stands at an address. A file has nothing below it. -/
def find? (t : FileTree) : Address → Option Entry
  | [] => some (.folder t)
  | name :: rest =>
    match t.get? name with
    | some (.folder inside) => inside.find? rest
    | some (.file content) => if rest = [] then some (.file content) else none
    | none => none

def cons (name : OsText) (others : FileTree) : Entry → FileTree
  | .file content => file name content others
  | .folder inside => folder name inside others

/-- Sets the entry of a name. A new name comes last. -/
def set (name : OsText) (entry : Entry) : FileTree → FileTree
  | empty => cons name empty entry
  | file n content others =>
    if n = name then cons name others entry else file n content (others.set name entry)
  | folder n inside others =>
    if n = name then cons name others entry else folder n inside (others.set name entry)

/-- Sets what stands at an address, if the folder that holds it is there. -/
def setAt (t : FileTree) (entry : Entry) : Address → FileTree
  | [] => t
  | [name] => t.set name entry
  | name :: next :: rest =>
    match t.get? name with
    | some (.folder inside) => t.set name (.folder (inside.setAt entry (next :: rest)))
    | _ => t

def files : FileTree → List (Address × ByteArray)
  | empty => []
  | file name content others => ([name], content) :: others.files
  | folder name inside others =>
    inside.files.map (fun f => (name :: f.1, f.2)) ++ others.files

def changes (before after : FileTree) : List (Address × ByteArray) :=
  after.files.filter fun f => before.find? f.1 ≠ some (.file f.2)

/-! ### Entries after a change -/

theorem get?_cons (name other : OsText) (others : FileTree) (entry : Entry) :
    (cons name others entry).get? other = if name = other then some entry else others.get? other := by
  cases entry <;> rfl

theorem get?_set (name other : OsText) (entry : Entry) (t : FileTree) :
    (t.set name entry).get? other = if name = other then some entry else t.get? other := by
  induction t with
  | empty => simp [set, get?_cons, get?]
  | file n content others ih =>
    unfold set
    split
    · next h => simp only [get?_cons, get?, h]; split <;> rfl
    · simp only [get?, ih]; grind
  | folder n inside others _ ih =>
    unfold set
    split
    · next h => simp only [get?_cons, get?, h]; split <;> rfl
    · simp only [get?, ih]; grind

end FileTree

end ScriptGlue
