import ScriptGlue.Scalar

/-!
# Native objects

An object has eight cells of each scalar kind. A cell always holds a value of its kind.
-/

namespace ScriptGlue

structure Cell where
  kind : ScalarKind
  slot : Fin 8
deriving Repr, DecidableEq, Inhabited

structure Object where
  read : Cell → Scalar
  kind_read : ∀ c, (read c).kind = c.kind

namespace Object

def blank : Object := ⟨fun c => Scalar.zero c.kind, fun c => Scalar.kind_zero c.kind⟩

instance : Inhabited Object := ⟨blank⟩

def write (o : Object) (slot : Fin 8) (v : Scalar) : Object where
  read c := if c = ⟨v.kind, slot⟩ then v else o.read c
  kind_read c := by
    split
    · rename_i h; rw [h]
    · exact o.kind_read c

theorem read_write_self (o : Object) (slot : Fin 8) (v : Scalar) :
    (o.write slot v).read ⟨v.kind, slot⟩ = v := by
  simp [write]

theorem read_write_of_ne (o : Object) {slot : Fin 8} {v : Scalar} {c : Cell}
    (h : c ≠ ⟨v.kind, slot⟩) : (o.write slot v).read c = o.read c := by
  simp [write, h]

/-- The object with some cells set, in order. -/
def ofCells (cells : List (Fin 8 × Scalar)) : Object :=
  cells.foldl (fun o c => o.write c.1 c.2) blank

end Object

end ScriptGlue
