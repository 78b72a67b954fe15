import ScriptGlue.Path
import ScriptGlue.Text.Blank

/-!
# Includes

A source includes a header by a directive with a quoted path: `include` behind a hash, then the
directory, if any, and the name of the header. Where the name is that of a header with a generated
counterpart, the directive is made to name the counterpart. Includes between angles are left alone.
-/

namespace ScriptGlue.Include

/-- What a source includes: the text up to the name, the name, and the text behind the closing
quote. -/
structure Directive where
  front : List Char
  name : List Char
  rest : List Char
deriving Repr, DecidableEq, Inhabited

def opening? (s : List Char) : Option (List Char × List Char) :=
  match s with
  | '#' :: s₁ =>
    let gap := s₁.takeWhile Text.isBlank
    let s₂ := s₁.dropWhile Text.isBlank
    let word := "include".toList
    if word.isPrefixOf s₂ then
      let s₃ := s₂.drop word.length
      match s₃.dropWhile Text.isBlank with
      | '"' :: s₄ => some ('#' :: gap ++ word ++ s₃.takeWhile Text.isBlank ++ ['"'], s₄)
      | _ => none
    else none
  | _ => none

/-- The ways to begin a quoted path with a directory, the longest first and no directory last. A
directory ends in a slash and holds neither a quote nor a newline. -/
def directories : List Char → List (List Char × List Char)
  | [] => [([], [])]
  | c :: s =>
    if c = '"' ∨ c = '\n' then [([], c :: s)]
    else
      let longer := (directories s).filter fun d => c = '/' ∨ d.1 ≠ []
      longer.map (fun d => (c :: d.1, d.2)) ++ [([], c :: s)]

/-- The first of some names that stands here with a closing quote, and what follows. -/
def name? (names : List (List Char)) (s : List Char) : Option (List Char × List Char) :=
  (names.find? fun name => (name ++ ['"']).isPrefixOf s).map fun name =>
    (name, s.drop (name.length + 1))

/-- The directive that stands here and names one of `names`. The longest directory that leaves a
name counts. -/
def directive? (names : List (List Char)) (s : List Char) : Option Directive := do
  let (front, path) ← opening? s
  (directories path).findSome? fun (directory, s) =>
    (name? names s).map fun (name, rest) => ⟨front ++ directory, name, rest⟩

/-- The text of a directive, up to its closing quote, with the generated counterpart for its
name. -/
def Directive.renamed (d : Directive) : List Char :=
  d.front ++ (Path.ofText (String.ofList d.name)).generated.text.toList ++ ['"']

/-! ### A directive is part of the source -/

theorem opening?_append {s front rest : List Char} (h : opening? s = some (front, rest)) :
    front ++ rest = s ∧ front ≠ [] := by
  unfold opening? at h
  split at h
  · next s₁ =>
    dsimp only at h
    split at h
    · next hword =>
      split at h
      · next s₄ hquote =>
        obtain ⟨rfl, rfl⟩ := Prod.mk.inj (Option.some.inj h)
        obtain ⟨s₃, hs₃⟩ := List.isPrefixOf_iff_prefix.1 hword
        rw [← hs₃, List.drop_left] at hquote ⊢
        have := List.takeWhile_append_dropWhile (p := Text.isBlank) (l := s₃)
        have := List.takeWhile_append_dropWhile (p := Text.isBlank) (l := s₁)
        simp_all
      · simp at h
    · simp at h
  · simp at h

theorem append_of_mem_directories {s : List Char} {d : List Char × List Char}
    (h : d ∈ directories s) : d.1 ++ d.2 = s := by
  induction s generalizing d with
  | nil => simp_all [directories]
  | cons c s ih =>
    unfold directories at h
    split at h
    · simp_all
    · simp only [List.mem_append, List.mem_map, List.mem_filter, List.mem_singleton] at h
      rcases h with ⟨d', ⟨hd', -⟩, rfl⟩ | rfl
      · simp [ih hd']
      · rfl

theorem name?_append {names : List (List Char)} {s name rest : List Char}
    (h : name? names s = some (name, rest)) : name ∈ names ∧ name ++ '"' :: rest = s := by
  obtain ⟨n, hn, e⟩ := Option.map_eq_some_iff.1 h
  obtain ⟨rfl, rfl⟩ := Prod.mk.inj e
  refine ⟨List.mem_of_find?_eq_some hn, ?_⟩
  have hprefix : (n ++ ['"']).isPrefixOf s = true := by simpa using List.find?_some hn
  obtain ⟨t, rfl⟩ := List.isPrefixOf_iff_prefix.1 hprefix
  simp

theorem directive?_append {names : List (List Char)} {s : List Char} {d : Directive}
    (h : directive? names s = some d) :
    d.name ∈ names ∧ d.front ≠ [] ∧ d.front ++ d.name ++ '"' :: d.rest = s := by
  obtain ⟨⟨front, path⟩, hopen, h⟩ := Option.bind_eq_some_iff.1 h
  obtain ⟨hfront, hne⟩ := opening?_append hopen
  obtain ⟨⟨directory, s'⟩, hmem, h⟩ := List.exists_of_findSome?_eq_some h
  obtain ⟨⟨name, rest⟩, hname, rfl⟩ := Option.map_eq_some_iff.1 h
  have happ := append_of_mem_directories hmem
  obtain ⟨hin, rfl⟩ := name?_append hname
  refine ⟨hin, by simp [hne], ?_⟩
  rw [← hfront, ← happ]
  simp

theorem directive?_length {names : List (List Char)} {s : List Char} {d : Directive}
    (h : directive? names s = some d) : d.rest.length < s.length := by
  obtain ⟨-, -, rfl⟩ := directive?_append h
  simp
  omega

/-! ### Rewriting -/

/-- Renames what the directives of a source name. They do not overlap. -/
def renameAll (names : List (List Char)) (s : List Char) : List Char :=
  match _h : directive? names s with
  | some d => d.renamed ++ renameAll names d.rest
  | none =>
    match s with
    | [] => []
    | c :: s => c :: renameAll names s
termination_by s.length
decreasing_by
  · exact directive?_length ‹_›
  · simp

/-- The names that directives may use for some headers, as they are shown. The shorter of two that fit
counts. -/
def targets (headers : List Path) : List (List Char) :=
  (headers.filterMap (·.fileName?.map (·.shown.toList))).mergeSort fun a b => a.length ≤ b.length

/-- What keeps the search for some names from being set up, if anything does: the library that
searches has bounds of its own. -/
abbrev Bounds := List (List Char) → Option String

def Bounds.none : Bounds := fun _ => .none

/-- Sets the search for the names of some headers up. Without headers there is none. -/
def setUp (bounds : Bounds) (headers : List Path) : Except String Unit :=
  if targets headers = [] then .ok ()
  else
    match bounds (targets headers) with
    | some cause => .error cause
    | none => .ok ()

def rewrite (headers : List Path) (source : String) : String :=
  String.ofList (renameAll (targets headers) source.toList)

end ScriptGlue.Include
