import Devicetree.Proofs.Refusals
import Devicetree.Walk.Descent
import Mathlib.Tactic.SplitIfs

/-!
# The count of open nodes is a stack of descents

Where a walk is inside of `nested` nodes, the walk by descent has `nested + 1` calls open, one for
each level. `unwind` finishes these calls from the innermost on, and the walk answers with what
comes out of the last (`walkFrom_eq_unwind`): each token moves the two alike.

The depth of a level matters only in that it may be the top. Below the top a walk never ends with
the tree (`walkFrom_succ_ne_none`), so that a skip is a walk and nothing else
(`some_map_outcome_skip`).
-/

namespace Devicetree

namespace Blob

/-- What the walk by descent answers, without the proof that it went forward. -/
def descent (b : Blob) (depth : Nat) (s : Stream) : Except Error (Option Stream) :=
  (b.descendFrom depth s).map (Option.map Subtype.val)

/-- Goes on at the stream that a finished level leaves. -/
def resume (r : Except Error (Option Stream)) (k : Stream → Except Error (Option Stream)) :
    Except Error (Option Stream) :=
  match r with
  | .ok (some s) => k s
  | .ok none => .ok none
  | .error e => .error e

/-- Finishes the descent into the level at hand and those that wait for it. -/
def unwind (b : Blob) (depth : Nat) : (nested : Nat) → Stream → Except Error (Option Stream)
  | 0, s => b.descent depth s
  | nested + 1, s => resume (b.descent (depth + nested + 1) s) (b.unwind depth nested)

theorem resume_assoc (r : Except Error (Option Stream))
    (k k' : Stream → Except Error (Option Stream)) :
    resume (resume r k) k' = resume r fun s => resume (k s) k' := by
  rcases r with _ | _ | _ <;> rfl

theorem outcome_walk (b : Blob) (c : Cursor) (depth : Nat) :
    (b.walk c depth).outcome =
      Option.map Stream.cursor <$> (b.walkFrom depth 0 (b.streamAt c) []).1 := by
  rw [walk, Observed.outcome_map, Observed.outcome_ofSeen]

theorem descend_eq_descent (b : Blob) (c : Cursor) (depth : Nat) :
    b.descend c depth = Option.map Stream.cursor <$> b.descent depth (b.streamAt c) := by
  rw [descend, descent]
  rcases b.descendFrom depth (b.streamAt c) with _ | _ | _ <;> rfl

/-! ## One token of a descent -/

section

variable {b : Blob} {depth : Nat} {s s' : Stream}

theorem descent_error {e : Error} (h : s.next = (.error e, s')) :
    b.descent depth s = .error e := by
  rw [descent, descendFrom]
  split <;> rename_i hs <;> rw [h] at hs <;> cases hs
  rfl

theorem descent_endOfTree (h : s.next = (.ok none, s')) :
    b.descent depth s =
      if depth = 0 then .ok none else .error (.malformed s.offset .endInsideNode) := by
  rw [descent, descendFrom]
  split <;> rename_i hs <;> rw [h] at hs <;> cases hs
  split <;> rfl

theorem descent_beginNode {name : Bytes} (h : s.next = (.ok (some (.beginNode name)), s')) :
    b.descent depth s = resume (b.descent (depth + 1) s') (b.descent depth) := by
  rw [descent, descendFrom]
  split <;> rename_i hs <;> rw [h] at hs <;> cases hs
  rw [descent]
  rcases b.descendFrom (depth + 1) s' with e | _ | ⟨s₁, h₁⟩
  · rfl
  · rfl
  · simp only [Except.map, Option.map, resume, descent]
    rcases b.descendFrom depth s₁ with e | _ | ⟨s₂, h₂⟩ <;> rfl

theorem descent_endNode (h : s.next = (.ok (some .endNode), s')) :
    b.descent depth s =
      if depth = 0 then .error (.malformed s.offset .endNodeWithoutBeginNode)
      else .ok (some s') := by
  rw [descent, descendFrom]
  split <;> rename_i hs <;> rw [h] at hs <;> cases hs
  split <;> rfl

theorem descent_property {nameOffset : UInt32} {value name : Bytes}
    (h : s.next = (.ok (some (.property nameOffset value)), s'))
    (hn : b.nameAt nameOffset.toNat = .ok name) : b.descent depth s = b.descent depth s' := by
  rw [descent, descendFrom]
  split <;> rename_i hs <;> rw [h] at hs <;> cases hs
  simp only [hn, descent]
  rcases b.descendFrom depth s' with e | _ | ⟨s₁, h₁⟩ <;> rfl

theorem descent_property_error {nameOffset : UInt32} {value : Bytes} {e : Error}
    (h : s.next = (.ok (some (.property nameOffset value)), s'))
    (hn : b.nameAt nameOffset.toNat = .error e) : b.descent depth s = .error e := by
  rw [descent, descendFrom]
  split <;> rename_i hs <;> rw [h] at hs <;> cases hs
  simp only [hn, Except.map]

theorem descent_nop (h : s.next = (.ok (some .nop), s')) :
    b.descent depth s = b.descent depth s' := by
  rw [descent, descendFrom]
  split <;> rename_i hs <;> rw [h] at hs <;> cases hs
  simp only [descent]
  rcases b.descendFrom depth s' with e | _ | ⟨s₁, h₁⟩ <;> rfl

theorem unwind_error {e : Error} (h : s.next = (.error e, s')) :
    ∀ nested, b.unwind depth nested s = .error e
  | 0 => descent_error h
  | nested + 1 => by rw [unwind, descent_error h, resume]

theorem unwind_beginNode {name : Bytes} (h : s.next = (.ok (some (.beginNode name)), s')) :
    ∀ nested, b.unwind depth nested s = b.unwind depth (nested + 1) s'
  | 0 => descent_beginNode h
  | nested + 1 => by
    rw [unwind, descent_beginNode h, resume_assoc]
    rfl

/-- A token that a level passes over leaves the levels that wait alone. -/
theorem unwind_congr (h : ∀ depth, b.descent depth s = b.descent depth s') :
    ∀ nested, b.unwind depth nested s = b.unwind depth nested s'
  | 0 => h depth
  | nested + 1 => by rw [unwind, unwind, h]

end

/-! ## The walk -/

theorem walkFrom_eq_unwind (b : Blob) (depth nested : Nat) (s : Stream) (seen : List Event) :
    (b.walkFrom depth nested s seen).1 = b.unwind depth nested s := by
  rcases h : s.next with ⟨e | _ | t, s'⟩
  · rw [walkFrom_error h, unwind_error h]
  · rw [walkFrom_endOfTree h]
    cases nested with
    | zero =>
      rw [unwind, descent_endOfTree h]
      split_ifs <;> simp_all
    | succ nested =>
      rw [unwind, descent_endOfTree h, if_neg (by omega), if_neg (by omega)]
      rfl
  · have ih nested seen := walkFrom_eq_unwind b depth nested s' seen
    cases t with
    | beginNode name => rw [walkFrom_beginNode h, ih, unwind_beginNode h]
    | endNode =>
      cases nested with
      | zero =>
        rw [walkFrom_endNode_zero h, unwind, descent_endNode h]
        split_ifs <;> rfl
      | succ nested =>
        rw [walkFrom_endNode_succ h, ih, unwind, descent_endNode h, if_neg (by omega)]
        rfl
    | property nameOffset value =>
      rcases hn : b.nameAt nameOffset.toNat with e | name
      · rw [walkFrom_property_error h hn]
        cases nested with
        | zero => rw [unwind, descent_property_error h hn]
        | succ nested => rw [unwind, descent_property_error h hn, resume]
      · rw [walkFrom_property h hn, ih, unwind_congr fun _ => descent_property h hn]
    | nop => rw [walkFrom_nop h, ih, unwind_congr fun _ => descent_nop h]
termination_by s.rest.length
decreasing_by exact Stream.length_of_next h

theorem walkFrom_succ_ne_none (b : Blob) (depth nested : Nat) (s : Stream) (seen : List Event) :
    (b.walkFrom (depth + 1) nested s seen).1 ≠ .ok none := by
  fun_induction walkFrom b (depth + 1) nested s seen with
  | case2 _ _ _ _ _ _ h => exact absurd h.1 (by omega)
  | case4 _ _ _ _ _ _ _ ih | case5 _ _ _ _ _ _ ih | case9 _ _ _ _ _ _ _ _ _ _ ih
  | case10 _ _ _ _ _ _ ih => exact ih
  | _ => simp

/-- Below the top all depths are alike. -/
theorem walkFrom_succ (b : Blob) (depth depth' nested : Nat) (s : Stream)
    (seen seen' : List Event) :
    (b.walkFrom (depth + 1) nested s seen).1 = (b.walkFrom (depth' + 1) nested s seen').1 := by
  rcases h : s.next with ⟨e | _ | t, s'⟩
  · rw [walkFrom_error h, walkFrom_error h]
  · rw [walkFrom_endOfTree h, walkFrom_endOfTree h, if_neg (by omega), if_neg (by omega)]
  · have ih nested seen seen' := walkFrom_succ b depth depth' nested s' seen seen'
    cases t with
    | beginNode name => rw [walkFrom_beginNode h, walkFrom_beginNode h, ih]
    | endNode =>
      cases nested with
      | zero =>
        rw [walkFrom_endNode_zero h, walkFrom_endNode_zero h, if_neg (by omega),
          if_neg (by omega)]
      | succ nested => rw [walkFrom_endNode_succ h, walkFrom_endNode_succ h, ih]
    | property nameOffset value =>
      rcases hn : b.nameAt nameOffset.toNat with e | name
      · rw [walkFrom_property_error h hn, walkFrom_property_error h hn]
      · rw [walkFrom_property h hn, walkFrom_property h hn, ih]
    | nop => rw [walkFrom_nop h, walkFrom_nop h, ih]
termination_by s.rest.length
decreasing_by exact Stream.length_of_next h

theorem error_of_nameAt {b : Blob} {offset : Nat} {e : Error} (h : b.nameAt offset = .error e) :
    ∃ offset length, e = .outOfRegion offset length := by
  unfold nameAt Bytes.stringAt at h
  cases hs : b.stringsBlock.stringAt? offset with
  | none =>
    rw [hs, valueOr_none] at h
    cases h
    exact ⟨_, _, rfl⟩
  | some name =>
    rw [hs, valueOr_some] at h
    cases h

theorem defect_of_walkFrom {b : Blob} {depth nested : Nat} {s : Stream} {seen : List Event}
    {offset : Nat} {defect : Defect}
    (h : (b.walkFrom depth nested s seen).1 = .error (.malformed offset defect)) :
    defect ∈ [.endOfBlock, .unknownToken, .endNodeWithoutBeginNode, .endInsideNode] := by
  fun_induction walkFrom b depth nested s seen with
  | case1 _ s _ _ e _ hs =>
    obtain rfl : e = .malformed offset defect := by simpa using h
    rcases Stream.error_of_next hs with ⟨-, he⟩ | ⟨-, he⟩ | ⟨_, _, -, he⟩ <;> cases he <;> simp
  | case4 _ _ _ _ _ _ _ ih | case5 _ _ _ _ _ _ ih | case9 _ _ _ _ _ _ _ _ _ _ ih
  | case10 _ _ _ _ _ _ ih => exact ih h
  | case8 _ _ _ _ _ _ _ _ e hn =>
    obtain rfl : e = .malformed offset defect := by simpa using h
    obtain ⟨_, _, he⟩ := error_of_nameAt hn
    cases he
  | _ => simp_all

/-- A skip is a walk below the top: it always comes back with a stream or an error. -/
theorem some_map_outcome_skip (b : Blob) (c : Cursor) :
    some <$> (b.skip c).outcome = (b.walk c 1).outcome := by
  have hne := walkFrom_succ_ne_none b 0 0 (b.streamAt c) []
  rw [outcome_walk, skip, Observed.outcome_map, Observed.outcome_ofSeen, skipFrom]
  rcases h : b.walkFrom 1 0 (b.streamAt c) [] with ⟨e | _ | s', seen⟩
  · rfl
  · exact absurd (congrArg Prod.fst h) hne
  · rfl

/-- The walk with a count answers as the walk by descent does, with the same cursor, the same end
of the tree or the same error. Below the top all depths give one answer, and a skip gives it too:
the case that the body of a node ends without its tag does not occur. -/
theorem outcome_walk_eq_descend (b : Blob) (c : Cursor) (depth : Nat) :
    (b.walk c depth).outcome = b.descend c depth ∧
      (∀ depth', (b.walk c (depth + 1)).outcome = (b.walk c (depth' + 1)).outcome) ∧
      some <$> (b.skip c).outcome = b.descend c 1 ∧
      ∀ offset, (b.skip c).outcome ≠ .error (.malformed offset .bodyWithoutEndNode) := by
  have hd : ∀ depth, (b.walk c depth).outcome = b.descend c depth := fun depth => by
    rw [outcome_walk, descend_eq_descent, walkFrom_eq_unwind, unwind]
  refine ⟨hd depth, fun depth' => ?_, ?_, fun offset h => ?_⟩
  · rw [outcome_walk, outcome_walk, walkFrom_succ b depth depth']
  · rw [some_map_outcome_skip, hd]
  · have hw := some_map_outcome_skip b c
    rw [h, outcome_walk] at hw
    rcases hr : (b.walkFrom 1 0 (b.streamAt c) []).1 with e | o <;> rw [hr] at hw <;> cases hw
    simpa using defect_of_walkFrom hr

end Blob

end Devicetree
