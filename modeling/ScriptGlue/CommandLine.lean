import ScriptGlue.LogLevel
import ScriptGlue.Path

/-!
# Command lines

The program has two commands. Options stand before or behind the arguments of a command; those on
how much the program says stand in front of the command as well. Two hyphens end the options.
-/

namespace ScriptGlue.CommandLine

/-- An option without a value. -/
inductive Switch
  | verbose
  | quiet
  | help
  | version
  | denyCollisions
  | noSupportHeader
  | metadataJson
  | json
  | overwriteDuplicates
  | skipBroken
deriving Repr, DecidableEq, Inhabited

inductive OptionKind
  | switch (switch : Switch)
  /-- The option that names a configuration file. -/
  | config
deriving Repr, DecidableEq, Inhabited

/-- Where an option can stand. -/
inductive Scope
  | program
  | generate
  | inspect
deriving Repr, DecidableEq, Inhabited

/-- Why a command line is not carried out. -/
inductive Refusal
  | help
  | version
  | usage
deriving Repr, DecidableEq, Inhabited

/-- The options of a scope: the word, and the letter if there is one. -/
def Scope.options : Scope → List (String × Option Char × OptionKind)
  | program => common ++ [("version", some 'V', .switch .version)]
  | generate => common ++ [("config", some 'c', .config),
      ("deny-collisions", none, .switch .denyCollisions),
      ("no-support-header", none, .switch .noSupportHeader),
      ("metadata-json", none, .switch .metadataJson)]
  | inspect => common ++ [("json", none, .switch .json),
      ("overwrite-duplicates", none, .switch .overwriteDuplicates),
      ("skip-broken", none, .switch .skipBroken)]
where
  /-- The options that stand anywhere. -/
  common : List (String × Option Char × OptionKind) :=
    [("verbose", some 'v', .switch .verbose), ("quiet", some 'q', .switch .quiet),
      ("help", some 'h', .switch .help)]

def Scope.arity : Scope → Nat
  | program => 0
  | generate => 2
  | inspect => 1

def Scope.ofWord? (s : Scope) (word : String) : Option OptionKind :=
  (s.options.find? (·.1 == word)).map (·.2.2)

def Scope.ofLetter? (s : Scope) (letter : Char) : Option OptionKind :=
  (s.options.find? (·.2.1 == some letter)).map (·.2.2)

/-- What has been given so far. -/
structure Given where
  switches : List Switch
  config? : Option String
  arguments : List String
deriving Repr, DecidableEq, Inhabited

namespace Given

def nothing : Given := ⟨[], none, []⟩

/-- Adds a switch. All but one can be given only once. -/
def switch (g : Given) (s : Switch) : Except Refusal Given :=
  if s = .help then .error .help
  else if s = .version then .error .version
  else if s ≠ .verbose ∧ s ∈ g.switches then .error .usage
  else .ok { g with switches := g.switches ++ [s] }

/-- Adds the configuration file, which is given once and has a name. -/
def config (g : Given) (file : String) : Except Refusal Given :=
  if g.config?.isSome ∨ file = "" then .error .usage else .ok { g with config? := some file }

/-- Adds an argument, which is not empty. -/
def argument (scope : Scope) (g : Given) (text : String) : Except Refusal Given :=
  if g.arguments.length < scope.arity ∧ text ≠ "" then
    .ok { g with arguments := g.arguments ++ [text] }
  else .error .usage

end Given

inductive Item
  /-- The two hyphens that end the options. -/
  | separator
  | word (name : String) (value? : Option String)
  | letters (letters : List Char)
  | argument (text : String)
deriving Repr, DecidableEq, Inhabited

/-- What a text is. A hyphen alone is an argument. -/
def Item.ofText (text : String) : Item :=
  match text.toList with
  | ['-', '-'] => separator
  | '-' :: '-' :: rest =>
    let name := String.ofList (rest.takeWhile (· ≠ '='))
    match rest.dropWhile (· ≠ '=') with
    | _ :: value => word name (some (String.ofList value))
    | [] => word name none
  | '-' :: c :: rest => letters (c :: rest)
  | _ => argument text

/-- Adds the options of a cluster of letters. The rest of a cluster behind a letter that takes a
value is the value. The flag tells that the value is still to come. -/
def cluster (scope : Scope) (g : Given) : List Char → Except Refusal (Given × Bool)
  | [] => .ok (g, false)
  | c :: rest =>
    match scope.ofLetter? c with
    | none => .error .usage
    | some (.switch s) => do cluster scope (← g.switch s) rest
    | some .config =>
      match rest with
      | [] => .ok (g, true)
      | '=' :: value => return (← g.config (String.ofList value), false)
      | value => return (← g.config (String.ofList value), false)

/-- Adds an option given by its word. The flag tells that its value is still to come. -/
def word (scope : Scope) (g : Given) (name : String) (value? : Option String) :
    Except Refusal (Given × Bool) :=
  match scope.ofWord? name, value? with
  | some (.switch s), none => return (← g.switch s, false)
  | some .config, some value => return (← g.config value, false)
  | some .config, none => .ok (g, true)
  | _, _ => .error .usage

/-- Reads the options and arguments of a command. `pending` tells that the next text is a value. -/
def arguments (scope : Scope) (pending : Bool) (g : Given) : List String → Except Refusal Given
  | [] => if pending then .error .usage else .ok g
  | text :: rest =>
    match Item.ofText text with
    | .argument value =>
      if pending then do arguments scope false (← g.config value) rest
      else do arguments scope false (← g.argument scope value) rest
    | .separator => if pending then .error .usage else rest.foldlM (Given.argument scope) g
    | .word name value? =>
      if pending then .error .usage
      else do
        let (g, pending) ← word scope g name value?
        arguments scope pending g rest
    | .letters letters =>
      if pending then .error .usage
      else do
        let (g, pending) ← cluster scope g letters
        arguments scope pending g rest

inductive Command
  | generate (input output : Path) (config? : Option Path)
      (denyCollisions noSupportHeader metadataJson : Bool)
  | inspect (library : Path) (json overwriteDuplicates skipBroken : Bool)
deriving Repr, DecidableEq, Inhabited

structure Invocation where
  verbose : Nat
  quiet : Bool
  command : Command
deriving Repr, DecidableEq, Inhabited

def Invocation.logLevel (i : Invocation) : LogLevel := .ofFlags i.verbose i.quiet

def Given.command? (g : Given) (scope : Scope) : Option Command :=
  let has (s : Switch) : Bool := s ∈ g.switches
  match scope, g.arguments with
  | .generate, [input, output] =>
    some (.generate (.ofText input) (.ofText output) (g.config?.map .ofText) (has .denyCollisions)
      (has .noSupportHeader) (has .metadataJson))
  | .inspect, [library] =>
    some (.inspect (.ofText library) (has .json) (has .overwriteDuplicates) (has .skipBroken))
  | _, _ => none

/-- Puts a command together with the options in front of it. How often the program is told to say
more counts behind the command, if it is told so there. -/
def invocation (scope : Scope) (before after : Given) : Except Refusal Invocation :=
  match after.command? scope with
  | none => .error .usage
  | some command =>
    let count (g : Given) : Nat := g.switches.count .verbose
    .ok ⟨if count after = 0 then count before else count after,
      .quiet ∈ before.switches || .quiet ∈ after.switches, command⟩

def read (before : Given) : List String → Except Refusal Invocation
  | [] => .error .usage
  | text :: rest =>
    match Item.ofText text with
    | .argument "generate" => do
      invocation .generate before (← arguments .generate false .nothing rest)
    | .argument "inspect" => do
      invocation .inspect before (← arguments .inspect false .nothing rest)
    | .argument "help" =>
      if rest = [] ∨ rest = ["generate"] ∨ rest = ["inspect"] ∨ rest = ["help"] then .error .help
      else .error .usage
    | .argument _ | .separator => .error .usage
    | .word name value? => do read (← word .program before name value?).1 rest
    | .letters letters => do read (← cluster .program before letters).1 rest

def parse (texts : List String) : Except Refusal Invocation := read .nothing texts

end ScriptGlue.CommandLine
