import Devicetree.Proofs.Boundaries

/-!
# Lookups and walks go forward once

Whatever the block is and however many segments a path has, a lookup reads on from where it has
stopped reading, also behind a node that it skips and inside of one that it enters. Each token takes
up at least four bytes, so the reads ascend, and there is at most one for each word of the block and
one more (`ReadsUpTo.goesForward`). The same is true of walks and of validation.
-/

namespace Devicetree

theorem Token.four_le_size (t : Token) : 4 ≤ t.size := by
  cases t with
  | beginNode | property => exact Nat.le_add_right_of_le (by decide)
  | endNode | nop => exact Nat.le_refl 4

namespace Stream

theorem four_mul_length_of_passes : ∀ (ts : List Token) {s s' : Stream}, s.Passes ts s' →
    4 * ts.length ≤ s.rest.length
  | [], _, _, _ => Nat.zero_le _
  | t :: ts, s, s', ⟨s₁, h, hp⟩ => by
    obtain ⟨x, hx, hr, -⟩ := next_eq_some_iff.1 h
    have ih := four_mul_length_of_passes ts hp
    have ht := t.four_le_size
    rw [hr, List.length_append, hx.length, List.length_cons]
    omega

variable {offset place : Nat}

theorem le_of_mem_places : ∀ (ts : List Token) {offset : Nat}, place ∈ places offset ts →
    offset ≤ place
  | t :: ts, offset, h => by
    rcases List.mem_cons.1 h with rfl | h
    · exact Nat.le_refl _
    · exact Nat.le_of_add_right_le (le_of_mem_places ts h)

theorem lt_of_mem_places : ∀ (ts : List Token) {s s' : Stream}, s.Passes ts s' →
    place ∈ places s.offset ts → place < s'.offset
  | t :: ts, s, s', ⟨s₁, h, hp⟩, hm => by
    have ho := offset_of_next h
    have ht := t.four_le_size
    rcases List.mem_cons.1 hm with rfl | hm
    · have hle := (rest_of_passes hp).1
      omega
    · rw [← ho] at hm
      exact lt_of_mem_places ts hp hm

theorem pairwise_places : ∀ (offset : Nat) (ts : List Token), (places offset ts).Pairwise (· < ·)
  | _, [] => .nil
  | offset, t :: ts => by
    refine List.pairwise_cons.2 ⟨fun place h => ?_, pairwise_places _ ts⟩
    have hle := le_of_mem_places ts h
    have ht := t.four_le_size
    omega

theorem four_dvd_of_mem_places : ∀ (ts : List Token) {offset : Nat}, 4 ∣ offset →
    place ∈ places offset ts → 4 ∣ place
  | t :: ts, offset, ho, h => by
    rcases List.mem_cons.1 h with rfl | h
    · exact ho
    · exact four_dvd_of_mem_places ts (Nat.dvd_add ho t.four_dvd_size) h

end Stream

namespace Blob

/-- Whether reads go through a block from a cursor on, token by token, never back, and are no more
than the block has room for. -/
structure GoesForward (b : Blob) (c : Cursor) (reads : List Nat) : Prop where
  /-- All that is read is a row of tokens, each where it starts, and what stands behind them. -/
  contiguous : ∃ place, b.ReadsUpTo c reads place
  ascending : reads.Pairwise (· < ·)
  aligned : 4 ∣ c.offset → ∀ place ∈ reads, 4 ∣ place
  length_le : reads.length ≤ b.structureBlock.length / 4 + 1

variable {b : Blob} {c place : Cursor} {reads : List Nat}

theorem ReadsUpTo.goesForward (h : b.ReadsUpTo c reads place) : b.GoesForward c reads where
  contiguous := ⟨place, h⟩
  ascending := by
    obtain ⟨ts, hp, rfl⟩ := h
    refine List.pairwise_append.2 ⟨Stream.pairwise_places _ ts, List.pairwise_singleton _ _, ?_⟩
    intro p hm q hq
    rw [List.mem_singleton.1 hq]
    exact Stream.lt_of_mem_places ts hp hm
  aligned := by
    obtain ⟨ts, hp, rfl⟩ := h
    intro hc p hm
    rcases List.mem_append.1 hm with hm | hm
    · exact Stream.four_dvd_of_mem_places ts hc hm
    · rw [List.mem_singleton.1 hm]
      exact Stream.four_dvd_of_passes ts hp hc
  length_le := by
    obtain ⟨ts, hp, rfl⟩ := h
    have hl := Stream.four_mul_length_of_passes ts hp
    have hr : (b.streamAt c).rest.length ≤ b.structureBlock.length := by
      rw [streamAt, Stream.ofBlock, List.length_drop]
      exact Nat.sub_le _ _
    rw [List.length_append, Stream.length_places, List.length_singleton]
    omega

/-- Validation reads where the walk does that it makes. -/
theorem offsets_validate (b : Blob) : b.validate.offsets = (b.walk .root 0).offsets := by
  rw [validate]
  rcases h : (b.walk .root 0).outcome with e | _ | c
  · rw [Observed.bind_of_error h]
    rfl
  · rw [Observed.bind_of_ok h]
    exact congrArg (List.filterMap _) (List.append_nil _)
  · rw [Observed.bind_of_ok h]
    exact congrArg (List.filterMap _) (List.append_nil _)

/-- On every block, a lookup with the skips that it makes, a walk and a validation read one token
after the other, none of them twice, at multiples of four if they start at one, and at most as many
as the block has words, and one. -/
theorem goesForward_lookup (b : Blob) (c : Cursor) (path : Path) (mode : MatchMode) (depth : Nat) :
    b.GoesForward c (b.lookup c path mode).offsets ∧ b.GoesForward c (b.walk c depth).offsets ∧
      b.GoesForward .root b.validate.offsets := by
  obtain ⟨_, hlookup, -⟩ := readsUpTo_lookup b c path mode
  obtain ⟨_, hwalk, -⟩ := readsUpTo_walk b c depth
  obtain ⟨_, hvalidate, -⟩ := readsUpTo_walk b .root 0
  rw [← offsets_validate] at hvalidate
  exact ⟨hlookup.goesForward, hwalk.goesForward, hvalidate.goesForward⟩

end Blob

theorem Layout.offsets_skip_cutBoard : (cutBoard.skip ⟨36⟩).offsets = [36, 48, 56, 60] := by
  have h₁ : cutBoard.Reads ⟨36⟩ (.property 0 []) ⟨48⟩ := rfl
  have h₂ : cutBoard.Reads ⟨48⟩ (.beginNode [0x62]) ⟨56⟩ := rfl
  have h₃ : cutBoard.Reads ⟨56⟩ .endNode ⟨60⟩ := rfl
  have h₄ : cutBoard.Reads ⟨60⟩ .endNode ⟨64⟩ := rfl
  rw [Blob.offsets_skip, Observed.offsets, Blob.walk, Observed.events_map,
    Blob.walkFrom_property h₁ rfl, Blob.walkFrom_beginNode h₂, Blob.walkFrom_endNode_succ h₃,
    Blob.walkFrom_endNode_zero h₄]
  rfl

/-- On the way to `/z` in the block that is cut off, the node `a` is skipped, and the last read is
the one that fails at the end of the block. -/
theorem Blob.offsets_lookup_cutBoard : 4 ∣ Cursor.root.offset ∧
    (Layout.cutBoard.lookup .root (.ofBytes [0x2f, 0x7a]) .exact).offsets =
      [0, 8, 12, 28, 36, 48, 56, 60, 64] ∧
    ∀ place ∈ (Layout.cutBoard.lookup .root (.ofBytes [0x2f, 0x7a]) .exact).offsets, 4 ∣ place := by
  have h₁ : Layout.cutBoard.Reads .root (.beginNode []) ⟨8⟩ := rfl
  have h₂ : Layout.cutBoard.Reads ⟨8⟩ .nop ⟨12⟩ := rfl
  have h₃ : Layout.cutBoard.Reads ⟨12⟩ (.property 2 [1, 2, 3]) ⟨28⟩ := rfl
  have h₄ : Layout.cutBoard.Reads ⟨28⟩ (.beginNode [0x61]) ⟨36⟩ := rfl
  have h₅ : Layout.cutBoard.lookupReads .exact [0x7a] [] ⟨64⟩ = [64] := lookupReads_error rfl
  have hs := Layout.offsets_skip_cutBoard
  have hk := Layout.skip_cutBoard
  have hr : (Layout.cutBoard.lookup .root (.ofBytes [0x2f, 0x7a]) .exact).offsets =
      Layout.cutBoard.lookupReads .exact [] [[0x7a]] .root := rfl
  refine ⟨by decide, ?_,
    (goesForward_lookup Layout.cutBoard .root _ .exact 0).1.aligned (by decide)⟩
  rw [hr, lookupReads_enter h₁, lookupReads_nop h₂, lookupReads_property_mismatch h₃ rfl rfl,
    lookupReads_skip h₄ rfl, hs, hk]
  simp only [h₅]
  rfl

end Devicetree
