import Devicetree.Proofs.Rules

/-!
# What a lookup passes over

Items that a lookup has no use for can stand in front of the others or not: the lookup goes on
behind them as if it had started there (`lookup_of_overlooks`), also where what follows is
malformed. The items are a forest that the bytes between two cursors spell. So where each of them
ends is said by the bytes, and that a skip over a node comes back there is shown
(`streamAt_of_skip`): the block has no second reading, whatever stands inside of the node.
-/

namespace Devicetree

namespace Blob

variable {b : Blob} {mode : MatchMode} {segment : Bytes} {rest : List Bytes} {c c' : Cursor}

/-- Whether a lookup has no use for any item of a forest that stands at `start`. A property is asked
for its name only if the segment is the last, and a node is one that a skip gets over. -/
def Overlooks (b : Blob) (mode : MatchMode) (segment : Bytes) (rest : List Bytes) :
    (start : Nat) → Forest → Prop
  | _, .nil => True
  | start, .nop next => Overlooks b mode segment rest (start + Token.nop.size) next
  | start, .property nameOffset value next =>
    (rest = [] →
      ∃ name, b.nameAt nameOffset.toNat = .ok name ∧ mode.accepts segment name = false) ∧
    Overlooks b mode segment rest (start + (Token.property nameOffset value).size) next
  | start, .node name items next =>
    (mode.before rest).accepts segment name = false ∧
    (∃ e, (b.skip ⟨start + (Token.beginNode name).size⟩).outcome = .ok e) ∧
    Overlooks b mode segment rest
      (start + (Token.beginNode name).size + items.size + Token.endNode.size) next

/-- A skip that comes back does so behind the token that closes the node. -/
theorem streamAt_of_skip {items : Forest} {s s' : Stream} {e : Cursor}
    (hp : (b.streamAt c).Passes items.tokens s) (hs : s.next = (.ok (some .endNode), s'))
    (h : (b.skip c).outcome = .ok e) : s' = b.streamAt e := by
  obtain ⟨f, s₁, s₂, hp', -, hs', rfl⟩ := outcome_skip_eq_ok_iff.1 h
  obtain ⟨-, rfl⟩ := Stream.forest_unique _ _ hp (Stream.atLevelEnd_of_endNode hs) hp'
    (Stream.atLevelEnd_of_endNode hs')
  obtain rfl : s' = s₂ := by simpa [hs] using hs'
  have hall : (b.streamAt c).Passes (items.tokens ++ [.endNode]) s' :=
    (Stream.passes_append _ _).2 ⟨s, hp, s', hs, rfl⟩
  exact (streamAt_of_passes hall).symm

/-- Each item is one rule, and a rule hands on the answer that is given behind the item. -/
theorem finds_of_overlooks {r : Except Error Found} : ∀ (f : Forest) {c c' : Cursor},
    (b.streamAt c).Passes f.tokens (b.streamAt c') → b.Overlooks mode segment rest c.offset f →
      b.Finds mode segment rest c' r → b.Finds mode segment rest c r
  | .nil, c, c', hp, _, h => by
    obtain rfl : c' = c := congrArg Stream.cursor hp
    exact h
  | .nop next, c, c', ⟨s, hs, hp⟩, ho, h => by
    obtain ⟨c₁, rfl, hc⟩ := exists_streamAt_of_next hs
    exact .nop hs (finds_of_overlooks next hp (hc ▸ ho) h)
  | .property nameOffset value next, c, c', ⟨s, hs, hp⟩, ⟨hn, ho⟩, h => by
    obtain ⟨c₁, rfl, hc⟩ := exists_streamAt_of_next hs
    have hnext := finds_of_overlooks next hp (hc ▸ ho) h
    rcases rest with _ | ⟨segment', rest⟩
    · obtain ⟨name, hname, ha⟩ := hn rfl
      exact .mismatch hs hname ha hnext
    · exact .disregard hs hnext
  | .node name items next, c, c', hp, ⟨ha, ⟨e, hk⟩, ho⟩, h => by
    obtain ⟨s₁, s₂, s₃, h₁, h₂, h₃, hp⟩ := Stream.passes_node_iff.1 hp
    obtain ⟨body, rfl, hbody⟩ := exists_streamAt_of_next h₁
    rw [← hbody] at hk ho
    obtain rfl := streamAt_of_skip h₂ h₃ hk
    have he : e.offset = body.offset + items.size + Token.endNode.size := by
      have ho₃ : e.offset = s₂.offset + Token.endNode.size := Stream.offset_of_next h₃
      rw [ho₃, Stream.offset_of_passes h₂]
      rfl
    exact .skip h₁ ha hk (finds_of_overlooks next hp (he ▸ ho) h)

/-- If a block holds, from one cursor to another, the spelling of items of a level that a lookup
has no use for, then the lookup answers from the first cursor what it answers from the second. -/
theorem lookup_of_overlooks {path : Path} {f : Forest} {x : Bytes} (hle : c.offset ≤ c'.offset)
    (hx : b.structureBlock.region? c.offset (c'.offset - c.offset) = some x) (hf : f.Spells x)
    (ho : b.Overlooks mode path.first path.rest c.offset f) :
    (b.lookup c path mode).outcome = (b.lookup c' path mode).outcome := by
  have hp : (b.streamAt c).Passes f.tokens (b.streamAt c') := by
    have hp := Stream.passes_ofBlock_of_region? hf hx
    rwa [Nat.add_sub_of_le hle] at hp
  exact outcome_lookup_eq_iff.2 (finds_of_overlooks f hp ho (outcome_lookup_eq_iff.1 rfl))

end Blob

/-- What stands in the root node of the board in front of the second node `a`. -/
def Layout.boardFront : Forest :=
  .nop (.property 2 [1, 2, 3] (.node [0x61] (.property 0 [] (.node [0x62] .nil .nil)) .nil))

/-- In the block that is cut off: the first node `a` is skipped although there is a node `b` in it,
and behind it the block ends. -/
theorem Blob.lookup_cutBoard_overlooks :
    (Layout.cutBoard.lookup ⟨8⟩ (.ofBytes [0x62]) .exact).outcome =
        (Layout.cutBoard.lookup ⟨64⟩ (.ofBytes [0x62]) .exact).outcome ∧
      (Layout.cutBoard.lookup ⟨8⟩ (.ofBytes [0x62]) .exact).outcome =
        .error (.malformed 64 .endOfBlock) := by
  have hx : Layout.cutBoard.structureBlock.region? 8 (64 - 8) = some Layout.boardFront.encode := by
    decide
  have hf : Layout.boardFront.Spells Layout.boardFront.encode :=
    Forest.spells_encode (by simp [Layout.boardFront, Forest.Writable, Forest.tokens,
      Token.Writable, UInt32.size])
  have ho : Layout.cutBoard.Overlooks .exact [0x62] [] 8 Layout.boardFront :=
    ⟨fun _ => ⟨_, rfl, rfl⟩, rfl, ⟨_, Layout.skip_cutBoard⟩, trivial⟩
  have h : (Layout.cutBoard.lookup ⟨8⟩ (.ofBytes [0x62]) .exact).outcome =
      (Layout.cutBoard.lookup ⟨64⟩ (.ofBytes [0x62]) .exact).outcome :=
    lookup_of_overlooks (by decide) hx hf ho
  have hend : Layout.cutBoard.Finds .exact [0x62] [] ⟨64⟩ (.error (.malformed 64 .endOfBlock)) :=
    .unreadable rfl
  exact ⟨h, h.trans (outcome_lookup_eq_iff.2 hend)⟩

end Devicetree
