import Devicetree.Walk

/-!
# Walking by descent

The walk through a level with the nesting of the tree in the recursion: a node is walked through
one level deeper, and the level goes on behind it. It has no count of open nodes and tells nothing.
-/

namespace Devicetree

namespace Blob

/-- Walks to the end of a level that lies at `depth`. Answers with the stream behind the token that
closes the level, or with `none` at the end of the tree. -/
def descendFrom (b : Blob) (depth : Nat) (s : Stream) :
    Except Error (Option { s' : Stream // s'.rest.length < s.rest.length }) :=
  match h : s.next with
  | (.error e, _) => .error e
  | (.ok none, _) => if depth = 0 then .ok none else .error (.malformed s.offset .endInsideNode)
  | (.ok (some (.beginNode _)), s') =>
    match descendFrom b (depth + 1) s' with
    | .error e => .error e
    | .ok none => .ok none
    | .ok (some ⟨s'', h''⟩) =>
      match descendFrom b depth s'' with
      | .error e => .error e
      | .ok none => .ok none
      | .ok (some ⟨s₃, h₃⟩) =>
        .ok (some ⟨s₃, Nat.lt_trans h₃ (Nat.lt_trans h'' (Stream.length_of_next h))⟩)
  | (.ok (some .endNode), s') =>
    if depth = 0 then .error (.malformed s.offset .endNodeWithoutBeginNode)
    else .ok (some ⟨s', Stream.length_of_next h⟩)
  | (.ok (some (.property nameOffset _)), s') =>
    match b.nameAt nameOffset.toNat with
    | .error e => .error e
    | .ok _ =>
      match descendFrom b depth s' with
      | .error e => .error e
      | .ok none => .ok none
      | .ok (some ⟨s'', h''⟩) => .ok (some ⟨s'', Nat.lt_trans h'' (Stream.length_of_next h)⟩)
  | (.ok (some .nop), s') =>
    match descendFrom b depth s' with
    | .error e => .error e
    | .ok none => .ok none
    | .ok (some ⟨s'', h''⟩) => .ok (some ⟨s'', Nat.lt_trans h'' (Stream.length_of_next h)⟩)
termination_by s.rest.length
decreasing_by
  · exact Stream.length_of_next h
  · exact Nat.lt_trans h'' (Stream.length_of_next h)
  · exact Stream.length_of_next h
  · exact Stream.length_of_next h

/-- Walks by descent from a cursor that lies at `depth` to the end of its level. -/
def descend (b : Blob) (c : Cursor) (depth : Nat) : Except Error (Option Cursor) :=
  Option.map (fun s => s.1.cursor) <$> b.descendFrom depth (b.streamAt c)

end Blob

end Devicetree
