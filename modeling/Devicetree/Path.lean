import Devicetree.Bytes

/-!
# Paths

A path names a node or a property by the names of the nodes above it, with slashes between. The
root node has an empty name, so a path from the top of the tree starts with a slash.
`ofBytes_append_slash` says that splitting at slashes turns joining into appending.
-/

namespace Devicetree

/-- The segments of a path, of which there is at least one. -/
structure Path where
  first : Bytes
  rest : List Bytes
  deriving DecidableEq, Repr

namespace Path

def slash : UInt8 := 0x2f

/-- A path with one more byte in front. -/
def cons (c : UInt8) (p : Path) : Path :=
  if c = slash then ⟨[], p.first :: p.rest⟩ else ⟨c :: p.first, p.rest⟩

/-- Splits a path at its slashes. -/
def ofBytes (b : Bytes) : Path :=
  b.foldr cons ⟨[], []⟩

def ofText (s : String) : Path :=
  ofBytes (Bytes.ofText s)

def append (p q : Path) : Path :=
  ⟨p.first, p.rest ++ q.first :: q.rest⟩

theorem ofBytes_append_slash (b b' : Bytes) :
    ofBytes (b ++ slash :: b') = (ofBytes b).append (ofBytes b') := by
  induction b with
  | nil => simp [ofBytes, cons, append]
  | cons c b ih =>
    simp only [ofBytes, List.cons_append, List.foldr_cons] at ih ⊢
    rw [ih]
    unfold cons
    split <;> rfl

/-- Bytes without a slash are a path of one segment. -/
theorem ofBytes_of_not_mem {b : Bytes} (h : slash ∉ b) : ofBytes b = ⟨b, []⟩ := by
  induction b with
  | nil => rfl
  | cons c b ih =>
    simp only [List.mem_cons, not_or] at h
    have := ih h.2
    simp only [ofBytes, List.foldr_cons] at this ⊢
    rw [this, cons, if_neg (Ne.symm h.1)]

end Path

end Devicetree
