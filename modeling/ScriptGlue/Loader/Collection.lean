import ScriptGlue.Loader.Interface
import ScriptGlue.Table.Decode
import ScriptGlue.Text.Escaped
import ScriptGlue.Text.Lines

/-!
# Collections

Loading a module reads its registration table and resolves each type in turn. Two policies decide
what a second type of the same name does, and whether a type that fails ends the loading.
-/

namespace ScriptGlue

/-- What becomes of a second type of the same name. -/
inductive DuplicatePolicy
  | reject
  /-- It takes the place of the first. -/
  | overwrite
deriving Repr, DecidableEq, Inhabited

/-- What becomes of the loading if a type fails. -/
inductive ResolvePolicy
  | strict
  /-- The type is left out. -/
  | skipBroken
deriving Repr, DecidableEq, Inhabited

structure LoadOptions where
  duplicates : DuplicatePolicy
  unresolved : ResolvePolicy
deriving Repr, DecidableEq, Inhabited

/-- The policies of two flags; without flags loading refuses what it can. -/
def LoadOptions.ofFlags (overwrite skipBroken : Bool) : LoadOptions :=
  ⟨if overwrite then .overwrite else .reject, if skipBroken then .skipBroken else .strict⟩

/-- The interfaces of a module in registration order, where each name stands among them, and why
types were left out. -/
structure Collection where
  moduleName : String
  interfaces : List Interface
  index : List (String × Nat)
  skipped : List LoadError
deriving Repr, DecidableEq, Inhabited

namespace Collection

def empty (moduleName : String) : Collection := ⟨moduleName, [], [], []⟩

def names (c : Collection) : List String := c.interfaces.map (·.name)

def slot? (c : Collection) (name : String) : Option Nat := c.index.lookup name

def get? (c : Collection) (name : String) : Option Interface :=
  (c.slot? name).bind fun slot => c.interfaces[slot]?

def contains (c : Collection) (name : String) : Bool := (c.slot? name).isSome

def size (c : Collection) : Nat := c.interfaces.length

def isEmpty (c : Collection) : Bool := c.interfaces.isEmpty

/-- Adds an interface. Under `overwrite` one of a known name takes the place of the other. -/
def insert (policy : DuplicatePolicy) (c : Collection) (i : Interface) :
    Except LoadError Collection :=
  match c.slot? i.name with
  | some slot =>
    match policy with
    | .reject => .error (.duplicateType i.name)
    | .overwrite => .ok { c with interfaces := c.interfaces.set slot i }
  | none =>
    .ok { c with
      interfaces := c.interfaces ++ [i]
      index := (i.name, c.interfaces.length) :: c.index }

def add (m : Module) (options : LoadOptions) (c : Collection) (t : ScriptType) :
    Except LoadError Collection :=
  match Interface.resolve m t >>= c.insert options.duplicates with
  | .ok next => .ok next
  | .error e =>
    match options.unresolved with
    | .strict => .error e
    | .skipBroken => .ok { c with skipped := c.skipped ++ [e] }

def registeredTypes (m : Module) : Except LoadError (List ScriptType) :=
  match m.function? Symbol.registration with
  | none => .error (.missingEntryPoint m.name Symbol.registration)
  | some f => f.callRegister.decode.mapError .invalidTable

def load (m : Module) (options : LoadOptions) : Except LoadError Collection := do
  let types ← registeredTypes m
  types.foldlM (add m options) (empty m.name)

def summary (c : Collection) : String :=
  "ScriptCollection \x7b module: " ++ Text.textLiteral c.moduleName ++ ", scripts: ["
    ++ Text.commaList (c.names.map Text.textLiteral)
    ++ "], skipped: " ++ toString c.skipped.length ++ " \x7d"

end Collection

end ScriptGlue
