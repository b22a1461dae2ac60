import Devicetree.Proofs.Search

/-!
# What is laid out is read back

Three layers decode a blob: the header says where the blocks lie, the blocks are cut out, and the
structure block is read token by token. `ofBytes_encode` takes the first two at once: every number
in the header of a layout is less than the size of the whole, so none is cut short, and each block
is what stands between those before it and those after it. The tokens of a forest are then read in
their order, up to the tag that ends the tree (`reads_of_passes`).

What is read determines what was written, so nothing has the encoding of something else
(`Forest.eq_of_spells`, `Layout.eq_of_encode_eq`).
-/

namespace Devicetree

namespace Stream

/-- Reading tokens and what comes after them: the answers, and the stream that the last one
leaves. -/
theorem reads_of_passes : ∀ (ts : List Token) {s s' : Stream}, s.Passes ts s' →
    (s.reads (ts.length + 1)).map Prod.fst = ts.map (fun t => .ok (some t)) ++ [s'.next.1] ∧
      (s.reads (ts.length + 1)).getLast? = some s'.next
  | [], s, s', h => by
    obtain rfl : s' = s := h
    exact ⟨rfl, rfl⟩
  | t :: ts, s, s', ⟨s₁, h₁, h⟩ => by
    obtain ⟨hm, hl⟩ := reads_of_passes ts h
    have hr : s.reads ((t :: ts).length + 1) = (.ok (some t), s₁) :: s₁.reads (ts.length + 1) := by
      rw [List.length_cons, reads, h₁]
    refine ⟨?_, ?_⟩
    · rw [hr, List.map_cons, hm]
      rfl
    · rw [hr, List.getLast?_cons, hl]
      rfl

end Stream

namespace Forest

/-- Bytes are the spelling of at most one forest: with the tag that ends a tree behind them, each
reading of them stops at the same place. -/
theorem eq_of_spells {f f' : Forest} {x : Bytes} (h : f.Spells x) (h' : f'.Spells x) : f = f' := by
  have hp : ∀ g : Forest, g.Spells x →
      (⟨0, x ++ BigEndian.encodeWord Tag.endOfTree.number⟩ : Stream).Passes g.tokens
        ⟨x.length, BigEndian.encodeWord Tag.endOfTree.number⟩ := fun g hg =>
    (Stream.passes_iff_spells _).2 ⟨x, hg, rfl, (Nat.zero_add _).symm⟩
  have hn : (⟨x.length, BigEndian.encodeWord Tag.endOfTree.number⟩ : Stream).next =
      (.ok none, ⟨x.length + 4, []⟩) :=
    Stream.next_eq_none_iff.2 ⟨(List.append_nil _).symm, rfl⟩
  have he := Stream.atLevelEnd_of_endOfTree hn
  exact (Stream.forest_unique f f' (hp f h) he (hp f' h') he).1

end Forest

namespace Layout

section

variable {l : Layout} (h : l.Writable)
include h

/-- Every number of the header is read back as it is. -/
theorem toNat_ofNat_of_le_size {n : Nat} (hn : n ≤ l.size) : (UInt32.ofNat n).toNat = n :=
  UInt32.toNat_ofNat_of_lt' (Nat.lt_of_le_of_lt hn h.size_lt)

/-- A part of a layout is the block that its place and its length name. -/
theorem block_of_encode_eq {x y z : Bytes} (he : l.encode = x ++ (y ++ z)) :
    Blob.block l.encode (.ofNat x.length) (.ofNat y.length) = .ok y := by
  have hl : l.size = x.length + (y.length + z.length) := by
    rw [← length_encode, he, List.length_append, List.length_append]
  rw [Blob.block, toNat_ofNat_of_le_size h (by omega), toNat_ofNat_of_le_size h (by omega), he,
    Bytes.region?_append rfl rfl, valueOr_some]

theorem ofBytes_encode : Blob.ofBytes l.encode = .ok l.blob := by
  have hread : Header.read l.encode = .ok l.header := Header.read_encode rfl _
  have hsize : l.header.totalSize.toNat = l.encode.length := by
    rw [length_encode]
    exact toNat_ofNat_of_le_size h (Nat.le_refl _)
  have haligned : l.header.structureOffset.toNat % 4 = 0 := by
    have ho : l.header.structureOffset.toNat = l.structureOffset :=
      toNat_ofNat_of_le_size h (by simp only [size, stringsOffset]; omega)
    have := h.aligned
    rw [ho, structureOffset, Header.size]
    omega
  have hstructure : Blob.block l.encode l.header.structureOffset l.header.structureSize =
      .ok l.structureBlock := by
    have hb := block_of_encode_eq h (x := l.header.encode ++ l.reservations)
      (y := l.structureBlock) (z := l.strings) (by rw [encode, List.append_assoc])
    rwa [List.length_append, Header.length_encode] at hb
  have hstrings : Blob.block l.encode l.header.stringsOffset l.header.stringsSize =
      .ok l.strings := by
    have hb := block_of_encode_eq h
      (x := (l.header.encode ++ l.reservations) ++ l.structureBlock) (y := l.strings) (z := [])
      (by simp only [encode, List.append_assoc, List.append_nil])
    rwa [List.length_append, List.length_append, Header.length_encode] at hb
  simp only [Blob.ofBytes, hread, hsize, List.take_length, bind, Except.bind, require,
    Nat.le_refl, if_true, haligned, hstructure, hstrings]
  rfl

theorem eq_of_encode_eq {l' : Layout} (h' : l'.Writable) (he : l'.encode = l.encode) :
    l' = l := by
  have hb : l'.blob = l.blob := by
    have hb := ofBytes_encode h'
    rw [he, ofBytes_encode h] at hb
    exact (Except.ok.inj hb).symm
  have hheader : l'.header = l.header := congrArg Blob.header hb
  have hstructure : l'.structureBlock = l.structureBlock := congrArg Blob.structureBlock hb
  have hstrings : l'.strings = l.strings := congrArg Blob.stringsBlock hb
  have hforest : l'.forest = l.forest := (holds_blob h').unique (hb ▸ holds_blob h)
  have hreservations : l'.reservations = l.reservations := by
    rw [encode, encode, hheader, hstructure, hstrings] at he
    exact List.append_cancel_right (List.append_cancel_left he)
  obtain ⟨version, lastCompatible, bootCpu, reservations, forest, strings⟩ := l
  obtain ⟨version', lastCompatible', bootCpu', reservations', forest', strings'⟩ := l'
  simp only [header, Header.mk.injEq] at hheader
  simp_all

end

/-- A layout that is written is opened as its two blocks. Its tokens are read in their order, then
the tag that ends the tree, behind which the structure block ends, and the whole is valid. What is
written determines the layout, and already the bytes of a forest determine the forest. -/
theorem decode_encode {l : Layout} (h : l.Writable) :
    ∃ b, Blob.ofBytes l.encode = .ok b ∧ b.structureBlock = l.structureBlock ∧
      b.stringsBlock = l.strings ∧
      (∃ s, ((b.streamAt .root).reads (l.forest.tokens.length + 1)).map Prod.fst =
          l.forest.tokens.map (fun t => .ok (some t)) ++ [.ok none] ∧
        ((b.streamAt .root).reads (l.forest.tokens.length + 1)).getLast? = some (.ok none, s) ∧
        s.offset = b.structureBlock.length) ∧
      b.validate.outcome = .ok () ∧
      (∀ l' : Layout, l'.Writable → l'.encode = l.encode → l' = l) ∧
      ∀ f : Forest, f.Writable → f.encode = l.forest.encode → f = l.forest := by
  have hb := holds_blob h
  obtain ⟨-, s, s', hp, hs⟩ := Blob.holds_iff_passes.1 hb
  obtain ⟨hm, hl⟩ := Stream.reads_of_passes l.forest.tokens hp
  rw [hs] at hm hl
  refine ⟨l.blob, ofBytes_encode h, rfl, rfl, ⟨s', hm, hl, ?_⟩,
    Blob.outcome_validate_eq_ok_iff.2 ⟨_, hb⟩, fun l' h' he => eq_of_encode_eq h h' he,
    fun f hf he => ?_⟩
  · have ho : s.offset = l.forest.size := by
      rw [Stream.offset_of_passes hp]
      exact Nat.zero_add _
    rw [(Stream.next_eq_none_iff.1 hs).2, ho]
    simp [blob, structureBlock]
  · exact Forest.eq_of_spells (he ▸ Forest.spells_encode hf) (Forest.spells_encode h.forest)

/-- Eleven tokens, among them a value that is padded by one byte, an empty value and an empty
name. -/
theorem decode_board : board.Writable ∧ ∃ b, Blob.ofBytes board.encode = .ok b ∧
    b.structureBlock.length = 84 ∧ b.validate.outcome = .ok () ∧
    ((b.streamAt .root).reads 12).map Prod.fst = board.forest.tokens.map (fun t => .ok (some t)) ++
      [.ok none] := by
  obtain ⟨b, ho, hb, -, ⟨s, hm, -, -⟩, hv, -⟩ := decode_encode board_writable
  exact ⟨board_writable, b, ho, by rw [hb]; rfl, hv, hm⟩

end Layout

end Devicetree
