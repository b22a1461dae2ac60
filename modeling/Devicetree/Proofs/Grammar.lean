import Devicetree.Forest.Layout
import Devicetree.Forest.Trace
import Devicetree.Proofs.Descent
import Devicetree.Proofs.Passage

/-!
# A walk accepts the grammar of the structure block

A walk passes a forest with its count unchanged, and tells of it what the forest says
(`walkFrom_forest`). The other way, a descent that comes back has passed a forest up to the token
that closes its level (`forest_of_descent`): each of its calls is a node. So a walk succeeds exactly
on a forest with names that is closed as the depth demands (`walkFrom_eq_ok_iff`), and validation on
a block that holds a forest and the tag that ends the tree.
-/

namespace Devicetree

namespace Stream

/-- How a level at `depth` closes, and the stream behind it unless it closes with the tree. -/
def Closes (s : Stream) (depth : Nat) : Option Stream → Prop
  | none => depth = 0 ∧ ∃ s', s.next = (.ok none, s')
  | some s' => depth ≠ 0 ∧ s.next = (.ok (some .endNode), s')

theorem length_of_passes {ts : List Token} {s s' : Stream} (h : s.Passes ts s') :
    s'.rest.length ≤ s.rest.length := by
  rw [(rest_of_passes h).2, List.length_drop]
  omega

end Stream

namespace Blob

theorem nameAt_eq_ok_iff {b : Blob} {offset : Nat} {name : Bytes} :
    b.nameAt offset = .ok name ↔ b.stringsBlock.IsStringAt offset name :=
  valueOr_eq_ok_iff.trans Bytes.stringAt?_eq_some_iff

/-- A walk passes a forest without a change of its count, and tells what there is to tell of it. -/
theorem walkFrom_forest (b : Blob) (depth : Nat) : ∀ (f : Forest) (nested : Nat) {s s' : Stream},
    s.Passes f.tokens s' → f.Named b.stringsBlock →
      ∃ told, (told.filterMap Event.notice?).reverse = f.notices b.stringsBlock (depth + nested) ∧
        ∀ seen, b.walkFrom depth nested s seen = b.walkFrom depth nested s' (told ++ seen)
  | .nil, nested, s, s', h, hn => by
    obtain rfl : s' = s := h
    exact ⟨[], rfl, fun _ => rfl⟩
  | .nop next, nested, s, s', ⟨s₁, h₁, h⟩, hn => by
    obtain ⟨told, ht, hw⟩ := walkFrom_forest b depth next nested h (Forest.named_nop_iff.1 hn)
    refine ⟨told ++ [.read s.offset], ?_, fun seen => ?_⟩
    · simpa [Forest.notices, List.filterMap_cons, Event.notice?] using ht
    · rw [walkFrom_nop h₁, hw, List.append_assoc, List.singleton_append]
  | .property nameOffset value next, nested, s, s', ⟨s₁, h₁, h⟩, hn => by
    obtain ⟨⟨name, hname⟩, hn⟩ := Forest.named_property_iff.1 hn
    obtain ⟨told, ht, hw⟩ := walkFrom_forest b depth next nested h hn
    refine ⟨told ++ [.notice (.propertyPassed (depth + nested) name value.length),
      .read s.offset], ?_, fun seen => ?_⟩
    · have hs := Bytes.stringAt?_eq_some_iff.2 hname
      simpa [Forest.notices, List.filterMap_cons, Event.notice?, hs] using ht
    · rw [walkFrom_property h₁ (nameAt_eq_ok_iff.2 hname), hw, List.append_assoc]
      rfl
  | .node name items next, nested, s, s', h, hn => by
    obtain ⟨s₁, s₂, s₃, h₁, hi, h₂, h⟩ := Stream.passes_node_iff.1 h
    obtain ⟨hni, hn⟩ := Forest.named_node_iff.1 hn
    obtain ⟨told, ht, hw⟩ := walkFrom_forest b depth items (nested + 1) hi hni
    obtain ⟨told', ht', hw'⟩ := walkFrom_forest b depth next nested h hn
    refine ⟨told' ++ [.notice (.nodeClosed (depth + nested)), .read s₂.offset] ++ told ++
      [.notice (.nodeOpened (depth + nested) name), .read s.offset], ?_, fun seen => ?_⟩
    · simp [Forest.notices, List.filterMap_cons, Event.notice?, ht, ht', Nat.add_assoc]
    · rw [walkFrom_beginNode h₁, hw, walkFrom_endNode_succ h₂, hw']
      simp

theorem forest_of_descent (b : Blob) (depth : Nat) (s : Stream) {o : Option Stream}
    (hd : b.descent depth s = .ok o) :
    ∃ f s', s.Passes (Forest.tokens f) s' ∧ f.Named b.stringsBlock ∧ s'.Closes depth o := by
  rcases h : s.next with ⟨e | _ | t, s₁⟩
  · rw [descent_error h] at hd
    cases hd
  · rw [descent_endOfTree h] at hd
    split_ifs at hd with h0
    cases hd
    exact ⟨.nil, s, rfl, Forest.named_nil, h0, s₁, h⟩
  · have hlt := Stream.length_of_next h
    cases t with
    | beginNode name =>
      rw [descent_beginNode h] at hd
      rcases hi : b.descent (depth + 1) s₁ with e | _ | s₃ <;> rw [hi] at hd
      · cases hd
      · obtain ⟨-, -, -, -, h0, -⟩ := forest_of_descent b (depth + 1) s₁ hi
        omega
      · obtain ⟨items, s₂, hp, hni, -, h₂⟩ := forest_of_descent b (depth + 1) s₁ hi
        have hle := Stream.length_of_passes hp
        have hlt' := Stream.length_of_next h₂
        obtain ⟨next, s', hp', hn, hc⟩ := forest_of_descent b depth s₃ hd
        exact ⟨.node name items next, s', Stream.passes_node_iff.2 ⟨s₁, s₂, s₃, h, hp, h₂, hp'⟩,
          Forest.named_node_iff.2 ⟨hni, hn⟩, hc⟩
    | endNode =>
      rw [descent_endNode h] at hd
      split_ifs at hd with h0
      cases hd
      exact ⟨.nil, s, rfl, Forest.named_nil, h0, h⟩
    | property nameOffset value =>
      rcases hn : b.nameAt nameOffset.toNat with e | name
      · rw [descent_property_error h hn] at hd
        cases hd
      · rw [descent_property h hn] at hd
        obtain ⟨next, s', hp, hnext, hc⟩ := forest_of_descent b depth s₁ hd
        exact ⟨.property nameOffset value next, s', ⟨s₁, h, hp⟩,
          Forest.named_property_iff.2 ⟨⟨name, nameAt_eq_ok_iff.1 hn⟩, hnext⟩, hc⟩
    | nop =>
      rw [descent_nop h] at hd
      obtain ⟨next, s', hp, hn, hc⟩ := forest_of_descent b depth s₁ hd
      exact ⟨.nop next, s', ⟨s₁, h, hp⟩, Forest.named_nop_iff.2 hn, hc⟩
termination_by s.rest.length

theorem walkFrom_eq_ok_iff {b : Blob} {depth : Nat} {s : Stream} {seen : List Event}
    {o : Option Stream} : (b.walkFrom depth 0 s seen).1 = .ok o ↔
      ∃ f s', s.Passes (Forest.tokens f) s' ∧ f.Named b.stringsBlock ∧ s'.Closes depth o := by
  refine ⟨fun h => ?_, fun ⟨f, s', hp, hn, hc⟩ => ?_⟩
  · rw [walkFrom_eq_unwind, unwind] at h
    exact forest_of_descent b depth s h
  · obtain ⟨told, -, hw⟩ := walkFrom_forest b depth f 0 hp hn
    rw [hw]
    cases o with
    | none =>
      obtain ⟨rfl, s₁, h⟩ := hc
      rw [walkFrom_endOfTree h, if_pos ⟨rfl, rfl⟩]
    | some s₁ =>
      obtain ⟨h0, h⟩ := hc
      rw [walkFrom_endNode_zero h, if_neg h0]

theorem outcome_walk_eq_ok_iff {b : Blob} {c : Cursor} {depth : Nat} {o : Option Cursor} :
    (b.walk c depth).outcome = .ok o ↔ ∃ f s o', (b.streamAt c).Passes (Forest.tokens f) s ∧
      f.Named b.stringsBlock ∧ s.Closes depth o' ∧ o = o'.map Stream.cursor := by
  rw [outcome_walk]
  refine ⟨fun h => ?_, fun ⟨f, s, o', hp, hn, hc, ho⟩ => ?_⟩
  · rcases hw : (b.walkFrom depth 0 (b.streamAt c) []).1 with e | o' <;> rw [hw] at h <;> cases h
    obtain ⟨f, s, hp, hn, hc⟩ := walkFrom_eq_ok_iff.1 hw
    exact ⟨f, s, o', hp, hn, hc, rfl⟩
  · have hw : (b.walkFrom depth 0 (b.streamAt c) []).1 = .ok o' :=
      walkFrom_eq_ok_iff.2 ⟨f, s, hp, hn, hc⟩
    rw [hw, ho]
    rfl

theorem outcome_walk_eq_none_iff {b : Blob} {c : Cursor} :
    (b.walk c 0).outcome = .ok none ↔ ∃ f s s', (b.streamAt c).Passes (Forest.tokens f) s ∧
      f.Named b.stringsBlock ∧ s.next = (.ok none, s') := by
  rw [outcome_walk_eq_ok_iff]
  refine ⟨fun ⟨f, s, o, hp, hn, hc, ho⟩ => ?_, fun ⟨f, s, s', hp, hn, hs⟩ => ?_⟩
  · rcases o with _ | s'
    · obtain ⟨-, s', hs⟩ := hc
      exact ⟨f, s, s', hp, hn, hs⟩
    · cases ho
  · exact ⟨f, s, none, hp, hn, ⟨rfl, s', hs⟩, rfl⟩

/-- A skip comes back exactly from the rest of a level that a node closes. -/
theorem outcome_skip_eq_ok_iff {b : Blob} {c e : Cursor} :
    (b.skip c).outcome = .ok e ↔ ∃ f s s', (b.streamAt c).Passes (Forest.tokens f) s ∧
      f.Named b.stringsBlock ∧ s.next = (.ok (some .endNode), s') ∧ e = s'.cursor := by
  have hw : (b.skip c).outcome = .ok e ↔ (b.walk c 1).outcome = .ok (some e) := by
    rw [← some_map_outcome_skip]
    rcases (b.skip c).outcome with _ | _ <;> simp [Functor.map, Except.map]
  rw [hw, outcome_walk_eq_ok_iff]
  refine ⟨fun ⟨f, s, o, hp, hn, hc, ho⟩ => ?_, fun ⟨f, s, s', hp, hn, hs, he⟩ => ?_⟩
  · rcases o with _ | s'
    · cases ho
    · obtain ⟨-, hs⟩ := hc
      exact ⟨f, s, s', hp, hn, hs, Option.some.inj ho⟩
  · exact ⟨f, s, some s', hp, hn, ⟨Nat.one_ne_zero, hs⟩, congrArg some he⟩

/-! ## Validation -/

/-- Whether the structure block starts with the forest and the tag that ends the tree, in which
every property has a name. Anything may follow. -/
structure Holds (b : Blob) (f : Forest) : Prop where
  spelled : ∃ x rest, f.Spells x ∧
    b.structureBlock = x ++ (BigEndian.encodeWord Tag.endOfTree.number ++ rest)
  named : f.Named b.stringsBlock

theorem holds_iff_passes {b : Blob} {f : Forest} : b.Holds f ↔ f.Named b.stringsBlock ∧
    ∃ s s', (b.streamAt .root).Passes f.tokens s ∧ s.next = (.ok none, s') := by
  have hr : (b.streamAt .root).rest = b.structureBlock := rfl
  refine ⟨fun ⟨⟨x, rest, hx, hb⟩, hn⟩ => ?_, fun ⟨hn, s, s', hp, hs⟩ => ?_⟩
  · refine ⟨hn, ⟨x.length, BigEndian.encodeWord Tag.endOfTree.number ++ rest⟩,
      ⟨x.length + 4, rest⟩, ?_, Stream.next_eq_none_iff.2 ⟨rfl, rfl⟩⟩
    exact (Stream.passes_iff_spells _).2 ⟨x, hx, by rw [hr, hb], (Nat.zero_add _).symm⟩
  · obtain ⟨x, hx, hb, -⟩ := (Stream.passes_iff_spells _).1 hp
    exact ⟨⟨x, s'.rest, hx, by rw [← hr, hb, (Stream.next_eq_none_iff.1 hs).1]⟩, hn⟩

theorem outcome_validate_eq_ok_iff {b : Blob} :
    b.validate.outcome = .ok () ↔ ∃ f, b.Holds f := by
  have hv : b.validate.outcome = .ok () ↔ (b.walk .root 0).outcome = .ok none := by
    rw [validate, Observed.outcome_bind]
    rcases (b.walk .root 0).outcome with _ | _ | _ <;> simp [bind, Except.bind]
  rw [hv, outcome_walk_eq_none_iff]
  refine ⟨fun ⟨f, s, s', hp, hn, hs⟩ => ?_, fun ⟨f, hf⟩ => ?_⟩
  · exact ⟨f, holds_iff_passes.2 ⟨hn, s, s', hp, hs⟩⟩
  · obtain ⟨hn, s, s', hp, hs⟩ := holds_iff_passes.1 hf
    exact ⟨f, s, s', hp, hn, hs⟩

theorem Holds.unique {b : Blob} {f f' : Forest} (h : b.Holds f) (h' : b.Holds f') : f = f' := by
  obtain ⟨-, s, _, hp, hs⟩ := holds_iff_passes.1 h
  obtain ⟨-, s', _, hp', hs'⟩ := holds_iff_passes.1 h'
  exact (Stream.forest_unique f f' hp (Stream.atLevelEnd_of_endOfTree hs) hp'
    (Stream.atLevelEnd_of_endOfTree hs')).1

/-- Validation accepts exactly the blocks of the grammar, and the grammar gives a block one
reading. -/
theorem validate_accepts_grammar (b : Blob) :
    (b.validate.outcome = .ok () ↔ ∃ f, b.Holds f) ∧ ∀ f f', b.Holds f → b.Holds f' → f = f' :=
  ⟨outcome_validate_eq_ok_iff, fun _ _ h h' => h.unique h'⟩

end Blob

namespace Layout

/-- The blob that is written from a layout. -/
def blob (l : Layout) : Blob where
  header := l.header
  bytes := l.encode
  structureBlock := l.structureBlock
  stringsBlock := l.strings

instance : DecidablePred Writable := fun l =>
  decidable_of_iff (l.forest.Writable ∧ l.forest.Named l.strings ∧
      l.reservations.length % 4 = 0 ∧ l.size < UInt32.size)
    ⟨fun ⟨hf, hn, ha, hs⟩ => ⟨hf, hn, ha, hs⟩, fun h => ⟨h.forest, h.named, h.aligned, h.size_lt⟩⟩

theorem holds_blob {l : Layout} (h : l.Writable) : l.blob.Holds l.forest where
  spelled := ⟨l.forest.encode, [], Forest.spells_encode h.forest, by
    rw [List.append_nil]
    rfl⟩
  named := h.named

end Layout

end Devicetree
