import ScriptGlue.Native.Heap

/-!
# Symbol tables

A module is what gives functions for symbols. A symbol table is a module whose symbols are known: a
finite map that can change.
-/

namespace ScriptGlue

/-- A module: its name, and the function behind each symbol that it exports. -/
structure Module where
  name : String
  function? : String → Option NativeFunction

/-- A finite map from symbols to functions, each symbol at most once. -/
structure SymbolTable where
  name : String
  entries : List (String × NativeFunction)
  nodup : (entries.map (·.1)).Nodup

namespace SymbolTable

def empty (name : String) : SymbolTable := ⟨name, [], List.nodup_nil⟩

instance : Inhabited SymbolTable := ⟨empty ""⟩

def function? (t : SymbolTable) (symbol : String) : Option NativeFunction := t.entries.lookup symbol

def has (t : SymbolTable) (symbol : String) : Bool := (t.function? symbol).isSome

def size (t : SymbolTable) : Nat := t.entries.length

def isEmpty (t : SymbolTable) : Bool := t.entries.isEmpty

def erase (t : SymbolTable) (symbol : String) : SymbolTable where
  name := t.name
  entries := t.entries.filter (·.1 ≠ symbol)
  nodup := t.nodup.sublist (List.filter_sublist.map _)

/-- Puts a function behind a symbol, in place of any other. No function takes the symbol out. -/
def insert (t : SymbolTable) (symbol : String) : Option NativeFunction → SymbolTable
  | none => t.erase symbol
  | some f =>
    { name := t.name
      entries := (symbol, f) :: (t.erase symbol).entries
      nodup := by
        refine List.nodup_cons.2 ⟨?_, (t.erase symbol).nodup⟩
        simp [erase] }

def toModule (t : SymbolTable) : Module := ⟨t.name, t.function?⟩

end SymbolTable

end ScriptGlue
