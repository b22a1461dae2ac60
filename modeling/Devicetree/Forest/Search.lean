import Devicetree.Forest
import Devicetree.Lookup

/-!
# Searching a forest

What a path names in a forest, said level by level: the last segment names the first entry whose
name matches, and any other segment the first node of that name, inside which the search goes on.
-/

namespace Devicetree

namespace MatchMode

/-- Whether a segment names what has this name. -/
def Matches : MatchMode → (segment name : Bytes) → Prop
  | exact, segment, name => name = segment
  | initial, segment, name => segment <+: name

instance : (mode : MatchMode) → (segment name : Bytes) → Decidable (mode.Matches segment name)
  | exact, segment, name => inferInstanceAs (Decidable (name = segment))
  | initial, segment, name => inferInstanceAs (Decidable (segment <+: name))

theorem accepts_iff_matches {mode : MatchMode} {segment name : Bytes} :
    mode.accepts segment name = true ↔ mode.Matches segment name := by
  cases mode with
  | exact => exact beq_iff_eq.trans eq_comm
  | initial => exact List.isPrefixOf_iff_prefix

end MatchMode

/-- A property or a node of a level. -/
inductive Entry where
  | property (name value : Bytes)
  /-- A node, with the offset of its body and what it holds. -/
  | node (name : Bytes) (body : Nat) (items : Forest)
  deriving DecidableEq, Repr

namespace Entry

def name : Entry → Bytes
  | property name _ => name
  | node name _ _ => name

def isNode : Entry → Bool
  | property .. => false
  | node .. => true

def found : Entry → Found
  | property _ value => .property ⟨value⟩
  | node _ body _ => .node ⟨body⟩

end Entry

namespace Forest

/-- The entries of a level that starts at `start`, in their order. A property that has no name in
the strings block counts as one without a name. -/
def entries (strings : Bytes) : (start : Nat) → Forest → List Entry
  | _, nil => []
  | start, nop next => next.entries strings (start + Token.nop.size)
  | start, property nameOffset value next =>
    .property ((strings.stringAt? nameOffset.toNat).getD []) value ::
      next.entries strings (start + (Token.property nameOffset value).size)
  | start, node name items next =>
    let body := start + (Token.beginNode name).size
    .node name body items :: next.entries strings (body + items.size + Token.endNode.size)

def first? (strings : Bytes) (start : Nat) (f : Forest) (name : Bytes) : Option Entry :=
  (f.entries strings start).find? (·.name == name)

def firstNode? (strings : Bytes) (start : Nat) (f : Forest) (name : Bytes) : Option Entry :=
  (f.entries strings start).find? fun e => e.isNode && e.name == name

/-- What `segment`, and inside its node `rest`, names in a level that starts at `start`. -/
def searchFrom (strings : Bytes) (mode : MatchMode) (start : Nat) (f : Forest) (segment : Bytes) :
    (rest : List Bytes) → Found
  | [] =>
    match (f.entries strings start).find? fun e => mode.Matches segment e.name with
    | some e => e.found
    | none => .nothing
  | segment' :: rest =>
    match f.firstNode? strings start segment with
    | some (.node _ body items) => items.searchFrom strings mode body segment' rest
    | _ => .nothing

/-- What a path names in a level that starts at `start`. -/
def search (strings : Bytes) (start : Nat) (f : Forest) (path : Path) (mode : MatchMode) : Found :=
  f.searchFrom strings mode start path.first path.rest

end Forest

end Devicetree
