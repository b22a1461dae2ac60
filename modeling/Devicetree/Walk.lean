import Devicetree.Blob
import Devicetree.Event
import Devicetree.Stream

/-!
# Walks

The structure block does not say how long a node is: where a level ends can only be found by going
through all of its tokens. A walk does so, with a count of the nodes that it is inside of. It
serves to validate a whole block and to skip the body of a node.

The loop is `walkFrom`. `walkFrom_seen` says that its answer does not depend on the events gathered
before, and `length_of_walkFrom` that a walk ends behind the place where it starts.
-/

namespace Devicetree

namespace Blob

def streamAt (b : Blob) (c : Cursor) : Stream :=
  Stream.ofBlock b.structureBlock c

/-- Walks to the end of a level that lies at `depth`, from inside `nested` nodes below it. Answers
with the stream behind the token that closes the level, or with `none` at the end of the tree. -/
def walkFrom (b : Blob) (depth nested : Nat) (s : Stream) (seen : List Event) :
    Except Error (Option Stream) × List Event :=
  let seen := .read s.offset :: seen
  match _h : s.next with
  | (.error e, _) => (.error e, seen)
  | (.ok none, _) =>
    if depth = 0 ∧ nested = 0 then (.ok none, .notice .treeEnded :: seen)
    else (.error (.malformed s.offset .endInsideNode), seen)
  | (.ok (some (.beginNode name)), s') =>
    walkFrom b depth (nested + 1) s' (.notice (.nodeOpened (depth + nested) name) :: seen)
  | (.ok (some .endNode), s') =>
    match nested with
    | nested + 1 => walkFrom b depth nested s' (.notice (.nodeClosed (depth + nested)) :: seen)
    | 0 =>
      if depth = 0 then (.error (.malformed s.offset .endNodeWithoutBeginNode), seen)
      else (.ok (some s'), seen)
  | (.ok (some (.property nameOffset value)), s') =>
    match b.nameAt nameOffset.toNat with
    | .error e => (.error e, seen)
    | .ok name =>
      walkFrom b depth nested s'
        (.notice (.propertyPassed (depth + nested) name value.length) :: seen)
  | (.ok (some .nop), s') => walkFrom b depth nested s' seen
termination_by s.rest.length
decreasing_by all_goals exact Stream.length_of_next _h

/-- Skips the rest of the level that the body of a node is. -/
def skipFrom (b : Blob) (s : Stream) (seen : List Event) : Except Error Stream × List Event :=
  match b.walkFrom 1 0 s seen with
  | (.ok (some s'), seen) => (.ok s', seen)
  | (.ok none, seen) => (.error (.malformed s.offset .bodyWithoutEndNode), seen)
  | (.error e, seen) => (.error e, seen)

/-- Walks from a cursor that lies at `depth` to the end of its level. Answers with the cursor
behind the token that closes the level, or with `none` at the end of the tree. -/
def walk (b : Blob) (c : Cursor) (depth : Nat) : Observed (Option Cursor) :=
  Option.map Stream.cursor <$> .ofSeen (b.walkFrom depth 0 (b.streamAt c) [])

/-- The cursor behind the node whose body starts at `c`. -/
def skip (b : Blob) (c : Cursor) : Observed Cursor :=
  Stream.cursor <$> .ofSeen (b.skipFrom (b.streamAt c) [])

/-- Checks that every node is closed, that every property has a name and that the tree ends. -/
def validate (b : Blob) : Observed Unit := do
  match ← b.walk .root 0 with
  | none => return ()
  | some c => Observed.ofOutcome (.error (.malformed c.offset .blockWithoutEnd))

/-! ## One token of a walk -/

section

variable {b : Blob} {depth nested : Nat} {s s' : Stream} {seen : List Event}

theorem walkFrom_error {e : Error} (h : s.next = (.error e, s')) :
    b.walkFrom depth nested s seen = (.error e, .read s.offset :: seen) := by
  rw [walkFrom]; split <;> simp_all

theorem walkFrom_endOfTree (h : s.next = (.ok none, s')) :
    b.walkFrom depth nested s seen =
      if depth = 0 ∧ nested = 0 then (.ok none, .notice .treeEnded :: .read s.offset :: seen)
      else (.error (.malformed s.offset .endInsideNode), .read s.offset :: seen) := by
  rw [walkFrom]; split <;> simp_all

theorem walkFrom_beginNode {name : Bytes} (h : s.next = (.ok (some (.beginNode name)), s')) :
    b.walkFrom depth nested s seen =
      b.walkFrom depth (nested + 1) s'
        (.notice (.nodeOpened (depth + nested) name) :: .read s.offset :: seen) := by
  rw [walkFrom]; split <;> simp_all

theorem walkFrom_endNode_succ (h : s.next = (.ok (some .endNode), s')) :
    b.walkFrom depth (nested + 1) s seen =
      b.walkFrom depth nested s'
        (.notice (.nodeClosed (depth + nested)) :: .read s.offset :: seen) := by
  rw [walkFrom]; split <;> simp_all

theorem walkFrom_endNode_zero (h : s.next = (.ok (some .endNode), s')) :
    b.walkFrom depth 0 s seen =
      if depth = 0 then
        (.error (.malformed s.offset .endNodeWithoutBeginNode), .read s.offset :: seen)
      else (.ok (some s'), .read s.offset :: seen) := by
  rw [walkFrom]; split <;> simp_all

theorem walkFrom_property {nameOffset : UInt32} {value name : Bytes}
    (h : s.next = (.ok (some (.property nameOffset value)), s'))
    (hn : b.nameAt nameOffset.toNat = .ok name) :
    b.walkFrom depth nested s seen =
      b.walkFrom depth nested s'
        (.notice (.propertyPassed (depth + nested) name value.length) ::
          .read s.offset :: seen) := by
  rw [walkFrom]; split <;> simp_all

theorem walkFrom_property_error {nameOffset : UInt32} {value : Bytes} {e : Error}
    (h : s.next = (.ok (some (.property nameOffset value)), s'))
    (hn : b.nameAt nameOffset.toNat = .error e) :
    b.walkFrom depth nested s seen = (.error e, .read s.offset :: seen) := by
  rw [walkFrom]; split <;> simp_all

theorem walkFrom_nop (h : s.next = (.ok (some .nop), s')) :
    b.walkFrom depth nested s seen = b.walkFrom depth nested s' (.read s.offset :: seen) := by
  rw [walkFrom]; split <;> simp_all

end

/-! ## The loop -/

theorem walkFrom_seen (b : Blob) (depth nested : Nat) (s : Stream) (seen : List Event) :
    b.walkFrom depth nested s seen =
      ((b.walkFrom depth nested s []).1, (b.walkFrom depth nested s []).2 ++ seen) := by
  rcases h : s.next with ⟨e | _ | t, s'⟩
  · simp [walkFrom_error h]
  · simp only [walkFrom_endOfTree h]
    split <;> simp
  · have ih nested seen := walkFrom_seen b depth nested s' seen
    cases t with
    | beginNode => rw [walkFrom_beginNode h, walkFrom_beginNode h, ih, ih _ [_, _]]; simp
    | endNode =>
      cases nested with
      | zero =>
        simp only [walkFrom_endNode_zero h]
        split <;> simp
      | succ nested =>
        rw [walkFrom_endNode_succ h, walkFrom_endNode_succ h, ih, ih _ [_, _]]; simp
    | property nameOffset =>
      cases hn : b.nameAt nameOffset.toNat with
      | error => simp [walkFrom_property_error h hn]
      | ok => rw [walkFrom_property h hn, walkFrom_property h hn, ih, ih _ [_, _]]; simp
    | nop => rw [walkFrom_nop h, walkFrom_nop h, ih, ih _ [_]]; simp
termination_by s.rest.length
decreasing_by exact Stream.length_of_next h

theorem length_of_walkFrom {b : Blob} {depth nested : Nat} {s s' : Stream} {seen : List Event}
    (h : (b.walkFrom depth nested s seen).1 = .ok (some s')) :
    s'.rest.length < s.rest.length := by
  fun_induction walkFrom b depth nested s seen with
  | case4 _ _ _ _ _ _ hn ih | case5 _ _ _ _ hn _ ih | case9 _ _ _ _ _ _ _ hn _ _ ih
  | case10 _ _ _ _ _ hn ih => exact Nat.lt_trans (ih h) (Stream.length_of_next hn)
  | case7 _ _ _ _ hn =>
    simp only [Except.ok.injEq, Option.some.injEq] at h
    exact h ▸ Stream.length_of_next hn
  | _ => simp at h

theorem skipFrom_seen (b : Blob) (s : Stream) (seen : List Event) :
    b.skipFrom s seen = ((b.skipFrom s []).1, (b.skipFrom s []).2 ++ seen) := by
  unfold skipFrom
  rw [walkFrom_seen]
  rcases h : b.walkFrom 1 0 s [] with ⟨_ | _ | _, _⟩ <;> rfl

theorem length_of_skipFrom {b : Blob} {s s' : Stream} {seen : List Event}
    (h : (b.skipFrom s seen).1 = .ok s') : s'.rest.length < s.rest.length := by
  unfold skipFrom at h
  split at h
  · rename_i hw
    simp only [Except.ok.injEq] at h
    exact length_of_walkFrom (h ▸ congrArg Prod.fst hw)
  · simp at h
  · simp at h

end Blob

end Devicetree
