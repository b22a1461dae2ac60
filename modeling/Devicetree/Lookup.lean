import Devicetree.Path
import Devicetree.Value
import Devicetree.Walk

/-!
# Lookups

A lookup finds what a path names in one pass forward. It goes through the items of a level in their
order and takes the first whose name matches the segment. A matching node on a segment that is not
the last is entered, and its siblings are not looked at again; every other node is skipped.
Properties only match on the last segment.

The loop is `lookupFrom`. `lookupFrom_seen` says that its answer does not depend on the events
gathered before.
-/

namespace Devicetree

/-- How the last segment of a path is compared with names. -/
inductive MatchMode where
  /-- The name is the segment. -/
  | exact
  /-- The name starts with the segment. -/
  | initial
  deriving DecidableEq, Repr

namespace MatchMode

def accepts : MatchMode → (segment name : Bytes) → Bool
  | exact, segment, name => segment == name
  | initial, segment, name => segment.isPrefixOf name

/-- How a segment is compared that has `rest` after it: all but the last are compared exactly. -/
def before (mode : MatchMode) : (rest : List Bytes) → MatchMode
  | [] => mode
  | _ :: _ => exact

end MatchMode

inductive Found where
  | property (value : Value)
  /-- A node, whose body starts at the cursor. -/
  | node (body : Cursor)
  | nothing
  deriving DecidableEq, Repr

namespace Found

def value? : Found → Option Value
  | property value => some value
  | _ => none

def body? : Found → Option Cursor
  | node body => some body
  | _ => none

def isMatch : Found → Bool
  | nothing => false
  | _ => true

end Found

namespace Blob

/-- Looks for `segment`, and inside its node for `rest`, among the items from a stream on. -/
def lookupFrom (b : Blob) (mode : MatchMode) (segment : Bytes) (rest : List Bytes) (s : Stream)
    (seen : List Event) : Except Error Found × List Event :=
  let seen := .read s.offset :: seen
  match _h : s.next with
  | (.error e, _) => (.error e, seen)
  | (.ok none, _) => (.ok .nothing, .notice (.nothingFound segment) :: seen)
  | (.ok (some .endNode), _) => (.ok .nothing, .notice (.nothingFound segment) :: seen)
  | (.ok (some (.beginNode name)), s') =>
    if (mode.before rest).accepts segment name then
      match rest with
      | [] => (.ok (.node s'.cursor), .notice (.nodeFound name s'.offset) :: seen)
      | segment :: rest =>
        lookupFrom b mode segment rest s' (.notice (.nodeEntered name) :: seen)
    else
      match _hs : b.skipFrom s' seen with
      | (.error e, seen) => (.error e, seen)
      | (.ok s', seen) => lookupFrom b mode segment rest s' seen
  | (.ok (some (.property nameOffset value)), s') =>
    match rest with
    | _ :: _ => lookupFrom b mode segment rest s' seen
    | [] =>
      match b.nameAt nameOffset.toNat with
      | .error e => (.error e, seen)
      | .ok name =>
        if mode.accepts segment name then
          (.ok (.property ⟨value⟩), .notice (.propertyFound name value.length) :: seen)
        else lookupFrom b mode segment [] s' seen
  | (.ok (some .nop), s') => lookupFrom b mode segment rest s' seen
termination_by s.rest.length
decreasing_by
  · exact Stream.length_of_next _h
  · exact Nat.lt_trans (length_of_skipFrom (congrArg Prod.fst _hs)) (Stream.length_of_next _h)
  all_goals exact Stream.length_of_next _h

/-- What a path names among the items from a cursor on, to the end of their level. -/
def lookup (b : Blob) (c : Cursor) (path : Path) (mode : MatchMode) : Observed Found :=
  .ofSeen (b.lookupFrom mode path.first path.rest (b.streamAt c) [])

/-! ## One item of a lookup -/

section

variable {b : Blob} {mode : MatchMode} {segment : Bytes} {rest : List Bytes} {s s' : Stream}
  {seen : List Event}

theorem lookupFrom_error {e : Error} (h : s.next = (.error e, s')) :
    b.lookupFrom mode segment rest s seen = (.error e, .read s.offset :: seen) := by
  rw [lookupFrom]; split <;> simp_all

theorem lookupFrom_endOfTree (h : s.next = (.ok none, s')) :
    b.lookupFrom mode segment rest s seen =
      (.ok .nothing, .notice (.nothingFound segment) :: .read s.offset :: seen) := by
  rw [lookupFrom]; split <;> simp_all

theorem lookupFrom_endNode (h : s.next = (.ok (some .endNode), s')) :
    b.lookupFrom mode segment rest s seen =
      (.ok .nothing, .notice (.nothingFound segment) :: .read s.offset :: seen) := by
  rw [lookupFrom]; split <;> simp_all

theorem lookupFrom_nop (h : s.next = (.ok (some .nop), s')) :
    b.lookupFrom mode segment rest s seen =
      b.lookupFrom mode segment rest s' (.read s.offset :: seen) := by
  rw [lookupFrom]; split <;> simp_all

section

variable {name : Bytes} (h : s.next = (.ok (some (.beginNode name)), s'))
include h

theorem lookupFrom_beginNode_last (ha : mode.accepts segment name = true) :
    b.lookupFrom mode segment [] s seen =
      (.ok (.node s'.cursor), .notice (.nodeFound name s'.offset) :: .read s.offset :: seen) := by
  rw [lookupFrom]; split <;> simp_all [MatchMode.before]

theorem lookupFrom_beginNode_cons {segment' : Bytes} (ha : segment = name) :
    b.lookupFrom mode segment (segment' :: rest) s seen =
      b.lookupFrom mode segment' rest s'
        (.notice (.nodeEntered name) :: .read s.offset :: seen) := by
  rw [lookupFrom]; split <;> simp_all [MatchMode.before, MatchMode.accepts]

theorem lookupFrom_beginNode_skip {s'' : Stream} {seen' : List Event}
    (ha : (mode.before rest).accepts segment name = false)
    (hs : b.skipFrom s' (.read s.offset :: seen) = (.ok s'', seen')) :
    b.lookupFrom mode segment rest s seen = b.lookupFrom mode segment rest s'' seen' := by
  rw [lookupFrom]
  split <;> simp only [h, Prod.mk.injEq, Except.ok.injEq, Option.some.injEq, Token.beginNode.injEq,
    reduceCtorEq, false_and] at *
  next he =>
    obtain ⟨rfl, rfl⟩ := he
    rw [if_neg (by simp [ha])]
    split <;> simp_all

theorem lookupFrom_beginNode_error {e : Error} {seen' : List Event}
    (ha : (mode.before rest).accepts segment name = false)
    (hs : b.skipFrom s' (.read s.offset :: seen) = (.error e, seen')) :
    b.lookupFrom mode segment rest s seen = (.error e, seen') := by
  rw [lookupFrom]
  split <;> simp only [h, Prod.mk.injEq, Except.ok.injEq, Option.some.injEq, Token.beginNode.injEq,
    reduceCtorEq, false_and] at *
  next he =>
    obtain ⟨rfl, rfl⟩ := he
    rw [if_neg (by simp [ha])]
    split <;> simp_all

end

section

variable {nameOffset : UInt32} {value : Bytes}
  (h : s.next = (.ok (some (.property nameOffset value)), s'))
include h

theorem lookupFrom_property_cons {segment' : Bytes} :
    b.lookupFrom mode segment (segment' :: rest) s seen =
      b.lookupFrom mode segment (segment' :: rest) s' (.read s.offset :: seen) := by
  rw [lookupFrom]; split <;> simp_all

theorem lookupFrom_property_error {e : Error} (hn : b.nameAt nameOffset.toNat = .error e) :
    b.lookupFrom mode segment [] s seen = (.error e, .read s.offset :: seen) := by
  rw [lookupFrom]; split <;> simp_all

theorem lookupFrom_property_last {name : Bytes} (hn : b.nameAt nameOffset.toNat = .ok name) :
    b.lookupFrom mode segment [] s seen =
      if mode.accepts segment name then
        (.ok (.property ⟨value⟩),
          .notice (.propertyFound name value.length) :: .read s.offset :: seen)
      else b.lookupFrom mode segment [] s' (.read s.offset :: seen) := by
  rw [lookupFrom]; split <;> simp_all

end

end

/-! ## The loop -/

theorem lookupFrom_seen (b : Blob) (mode : MatchMode) (segment : Bytes) (rest : List Bytes)
    (s : Stream) (seen : List Event) :
    b.lookupFrom mode segment rest s seen =
      ((b.lookupFrom mode segment rest s []).1,
        (b.lookupFrom mode segment rest s []).2 ++ seen) := by
  rcases h : s.next with ⟨e | _ | t, s'⟩
  · simp [lookupFrom_error h]
  · simp [lookupFrom_endOfTree h]
  · have hlt := Stream.length_of_next h
    cases t with
    | beginNode name =>
      cases ha : (mode.before rest).accepts segment name with
      | true =>
        cases rest with
        | nil =>
          have ha : mode.accepts segment name = true := ha
          simp [lookupFrom_beginNode_last h ha]
        | cons segment' rest =>
          have hn : segment = name := by simpa [MatchMode.before, MatchMode.accepts] using ha
          rw [lookupFrom_beginNode_cons h hn, lookupFrom_beginNode_cons h hn,
            lookupFrom_seen b mode segment' rest s' (_ :: _ :: seen),
            lookupFrom_seen b mode segment' rest s' [_, _]]
          simp
      | false =>
        have hs := skipFrom_seen b s' (.read s.offset :: seen)
        have hs' := skipFrom_seen b s' [.read s.offset]
        cases ho : (b.skipFrom s' []).1 with
        | error e =>
          rw [ho] at hs hs'
          rw [lookupFrom_beginNode_error h ha hs, lookupFrom_beginNode_error h ha hs']
          simp
        | ok s'' =>
          have := length_of_skipFrom ho
          rw [ho] at hs hs'
          rw [lookupFrom_beginNode_skip h ha hs, lookupFrom_beginNode_skip h ha hs',
            lookupFrom_seen b mode segment rest s'' (_ ++ _ :: seen),
            lookupFrom_seen b mode segment rest s'' (_ ++ [_])]
          simp
    | endNode => simp [lookupFrom_endNode h]
    | property nameOffset value =>
      cases rest with
      | nil =>
        cases hn : b.nameAt nameOffset.toNat with
        | error => simp [lookupFrom_property_error h hn]
        | ok name =>
          rw [lookupFrom_property_last h hn, lookupFrom_property_last h hn,
            lookupFrom_seen b mode segment [] s' (_ :: seen),
            lookupFrom_seen b mode segment [] s' [_]]
          split <;> simp
      | cons segment' rest =>
        rw [lookupFrom_property_cons h, lookupFrom_property_cons h,
          lookupFrom_seen b mode segment _ s' (_ :: seen),
          lookupFrom_seen b mode segment _ s' [_]]
        simp
    | nop =>
      rw [lookupFrom_nop h, lookupFrom_nop h, lookupFrom_seen b mode segment rest s' (_ :: seen),
        lookupFrom_seen b mode segment rest s' [_]]
      simp
termination_by s.rest.length

end Blob

end Devicetree
