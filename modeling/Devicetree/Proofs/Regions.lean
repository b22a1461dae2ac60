import Devicetree.Blob
import Devicetree.Proofs.Refusals
import Devicetree.Value
import Mathlib.Tactic.SplitIfs

/-!
# Reads that leave their region

An error that blames a read says which bytes were asked for. Wherever a blob is opened, a name is
asked for or a value is read, these bytes do leave the region that the read is confined to. The
pieces are `Truthful.region?` and `Truthful.stringAt`: all reads are made of them.

A read of a token is the exception. It asks for a name or a value together with its padding, but
blames the name or the value alone. Where a block ends in the padding, the bytes that it blames are
all there (`outOfRegion_within_iff`). A block of a size that is a multiple of four has no such end,
and in it the blame is right (`outOfRegion_truthful`).
-/

namespace Devicetree

/-- Whether each read that a result blames leaves a region of `size` bytes. -/
def Truthful {α : Type} (size : Nat) (r : Except Error α) : Prop :=
  ∀ offset length, r = .error (.outOfRegion offset length) → size < offset + length

namespace Truthful

variable {α β : Type} {size : Nat}

theorem map {r : Except Error α} (h : Truthful size r) (f : α → β) : Truthful size (f <$> r) := by
  intro offset length he
  rcases r with e | a
  · exact h offset length (by simpa [Functor.map, Except.map] using he)
  · cases he

theorem bind {r : Except Error α} {f : α → Except Error β} (h : Truthful size r)
    (hf : ∀ a, Truthful size (f a)) : Truthful size (r >>= f) := by
  intro offset length he
  rcases bind_eq_error_iff.1 he with he | ⟨a, -, he⟩
  · exact h offset length he
  · exact hf a offset length he

theorem region? (b : Bytes) (pos n : Nat) :
    Truthful b.length (valueOr (.outOfRegion pos n) (b.region? pos n)) := by
  intro offset length h
  obtain ⟨hn, he⟩ := valueOr_eq_error_iff.1 h
  cases he
  exact Bytes.region?_eq_none_iff.1 hn

theorem stringAt (b : Bytes) (pos : Nat) : Truthful b.length (b.stringAt pos) := by
  intro offset length h
  obtain ⟨-, he⟩ := valueOr_eq_error_iff.1 h
  cases he
  rw [List.length_drop]
  omega

theorem text (b : Bytes) : Truthful size b.text := by
  intro offset length h
  unfold Bytes.text at h
  rcases hd : Utf8.decode b with fault | s <;> rw [hd] at h <;> cases h

end Truthful

/-! ## Names, values and headers -/

theorem Blob.truthful_nameAt (b : Blob) (pos : Nat) :
    Truthful b.stringsBlock.length (b.nameAt pos) :=
  .stringAt _ pos

namespace Value

variable (v : Value) (pos : Nat)

theorem truthful_wordAt : Truthful v.size (v.wordAt pos) :=
  (Truthful.region? v.bytes pos 4).map _

theorem truthful_doubleWordAt : Truthful v.size (v.doubleWordAt pos) :=
  (Truthful.region? v.bytes pos 8).map _

theorem truthful_cellsAt (cells : UInt32) : Truthful v.size (v.cellsAt pos cells) := by
  unfold cellsAt
  split_ifs
  · exact (v.truthful_wordAt pos).map _
  · exact v.truthful_doubleWordAt pos
  · intro offset length h
    cases h

theorem truthful_text : Truthful v.size v.text :=
  (Truthful.stringAt v.bytes 0).bind fun s => .text s

end Value

theorem Header.outOfRegion_of_read {b : Bytes} {offset length : Nat}
    (h : read b = .error (.outOfRegion offset length)) : offset = 0 ∧ b.length < length := by
  simp only [read, bind_eq_error_iff, require_eq_error_iff] at h
  obtain ⟨hl, he⟩ | ⟨-, -, ⟨-, he⟩ | ⟨-, -, he⟩⟩ := h <;> cases he
  exact ⟨rfl, Nat.lt_of_not_le hl⟩

theorem Header.truthful_read (b : Bytes) : Truthful b.length (read b) := by
  intro offset length h
  obtain ⟨rfl, hl⟩ := outOfRegion_of_read h
  rwa [Nat.zero_add]

/-- What leaves its region when a blob is opened: the header or the size that it declares leaves
the bytes that are there, or one of the blocks leaves that size. -/
theorem Blob.outOfRegion_of_ofBytes {b : Bytes} {offset length : Nat}
    (h : ofBytes b = .error (.outOfRegion offset length)) :
    (offset = 0 ∧ b.length < length) ∨
      ∃ header, Header.read b = .ok header ∧ header.totalSize.toNat ≤ b.length ∧
        header.totalSize.toNat < offset + length ∧
          ((offset, length) = (header.structureOffset.toNat, header.structureSize.toNat) ∨
            (offset, length) = (header.stringsOffset.toNat, header.stringsSize.toNat)) := by
  have hblock {x : Bytes} {start size : UInt32}
      (hb : block x start size = .error (.outOfRegion offset length)) :
      x.length < offset + length ∧ (offset, length) = (start.toNat, size.toNat) := by
    have hlt := Truthful.region? _ _ _ _ _ hb
    obtain ⟨-, he⟩ := valueOr_eq_error_iff.1 hb
    cases he
    exact ⟨hlt, rfl⟩
  simp only [ofBytes, bind_eq_error_iff, require_eq_error_iff, require_eq_ok_iff] at h
  obtain h | ⟨header, hr, ⟨ht, he⟩ | ⟨-, ht, ⟨-, he⟩ | ⟨-, -, h⟩⟩⟩ := h
  · exact .inl (Header.outOfRegion_of_read h)
  · cases he
    exact .inl ⟨rfl, Nat.lt_of_not_le ht⟩
  · cases he
  · have hl : (b.take header.totalSize.toNat).length = header.totalSize.toNat := by
      rw [List.length_take, Nat.min_eq_left ht]
    obtain hs | ⟨_, -, hs | ⟨_, -, he⟩⟩ := h
    · obtain ⟨hlt, he⟩ := hblock hs
      exact .inr ⟨header, hr, ht, hl ▸ hlt, .inl he⟩
    · obtain ⟨hlt, he⟩ := hblock hs
      exact .inr ⟨header, hr, ht, hl ▸ hlt, .inr he⟩
    · cases he

/-! ## Tokens -/

namespace Stream

/-- Whether a block ends in the padding of the token at hand, and which bytes stand in front of it:
the name with the byte that ends it, or the value. -/
inductive EndsInPadding (s : Stream) : (offset length : Nat) → Prop where
  | name {name x : Bytes} :
      s.rest = BigEndian.encodeWord Tag.beginNode.number ++ (name ++ 0 :: x) → 0 ∉ name →
        (name ++ 0 :: x).length < Bytes.padded (name.length + 1) →
          EndsInPadding s (s.offset + 4) (name.length + 1)
  | value {size nameOffset : UInt32} {value x : Bytes} :
      s.rest = BigEndian.encodeWord Tag.property.number ++ (BigEndian.encodeWord size
        ++ (BigEndian.encodeWord nameOffset ++ (value ++ x))) → value.length = size.toNat →
        (value ++ x).length < Bytes.padded value.length →
          EndsInPadding s (s.offset + 12) value.length

variable {s : Stream} {offset length : Nat}

theorem EndsInPadding.breaksOff (h : s.EndsInPadding offset length) : s.BreaksOff offset length := by
  cases h with
  | name hr h0 hl => exact .name hr h0 hl
  | value hr hv hl =>
    rw [hv] at hl ⊢
    exact .value hr hl

/-- The bytes that are blamed are there. -/
theorem EndsInPadding.le (h : s.EndsInPadding offset length) :
    offset + length ≤ s.offset + s.rest.length := by
  cases h with
  | name hr =>
    simp only [hr, List.length_append, List.length_cons, BigEndian.length_encodeWord]
    omega
  | value hr =>
    simp only [hr, List.length_append, BigEndian.length_encodeWord]
    omega

/-- A block ends in a padding only where its size is not a multiple of four. -/
theorem EndsInPadding.not_dvd (h : s.EndsInPadding offset length) : ¬ 4 ∣ s.rest.length := by
  intro hd
  cases h with
  | @name name x hr _ hl =>
    have hp := Bytes.padded_lt (name.length + 1)
    simp only [hr, List.length_append, List.length_cons, BigEndian.length_encodeWord] at hd hl
    unfold Bytes.padded at hl
    omega
  | @value _ _ value x hr _ hl =>
    simp only [hr, List.length_append, BigEndian.length_encodeWord] at hd hl
    unfold Bytes.padded at hl
    omega

theorem BreaksOff.lt_or_endsInPadding (h : s.BreaksOff offset length) :
    s.offset + s.rest.length < offset + length ∨ s.EndsInPadding offset length := by
  cases h with
  | tag _ hl => exact .inl (by omega)
  | unterminated hr =>
    refine .inl ?_
    simp only [hr, List.length_append, BigEndian.length_encodeWord]
    omega
  | name hr h0 hl => exact .inr (.name hr h0 hl)
  | size hr hl =>
    refine .inl ?_
    simp only [hr, List.length_append, BigEndian.length_encodeWord]
    omega
  | nameOffset hr hl =>
    refine .inl ?_
    simp only [hr, List.length_append, BigEndian.length_encodeWord]
    omega
  | @value size nameOffset x hr hl =>
    by_cases hx : x.length < size.toNat
    · refine .inl ?_
      simp only [hr, List.length_append, BigEndian.length_encodeWord]
      omega
    · have hv : (x.take size.toNat).length = size.toNat := by
        rw [List.length_take]
        omega
      rw [← hv] at hl ⊢
      rw [← List.take_append_drop size.toNat x] at hr
      refine .inr (.value hr hv ?_)
      rwa [List.take_append_drop]

/-- A read of a token blames bytes that are there exactly where the block ends in the padding
behind them. -/
theorem outOfRegion_within_iff :
    (s.next.1 = .error (.outOfRegion offset length) ∧ offset + length ≤ s.offset + s.rest.length) ↔
      s.EndsInPadding offset length := by
  refine ⟨fun ⟨h, hle⟩ => ?_, fun h => ⟨next_eq_outOfRegion_iff.2 h.breaksOff, h.le⟩⟩
  rcases (next_eq_outOfRegion_iff.1 h).lt_or_endsInPadding with hlt | he
  · omega
  · exact he

theorem length_ofBlock {block : Bytes} {c : Cursor}
    (h : (ofBlock block c).BreaksOff offset length) :
    (ofBlock block c).offset + (ofBlock block c).rest.length = block.length := by
  have hne : (ofBlock block c).rest ≠ [] := by
    intro hnil
    have hs := next_of_breaksOff h
    simp [next, hnil] at hs
  simp only [ofBlock, ne_eq, List.drop_eq_nil_iff] at hne
  simp only [ofBlock, List.length_drop]
  omega

end Stream

/-- Every error that blames a read of a header, of a name or of a value says which bytes are not
there. One that blames a read of a token does so too, except exactly where the block ends in the
padding behind the bytes. In a block whose size is a multiple of four that is nowhere. -/
theorem outOfRegion_truthful (bytes block : Bytes) (c : Cursor) :
    Truthful bytes.length (Header.read bytes) ∧
    (∀ offset length, Blob.ofBytes bytes = .error (.outOfRegion offset length) →
      (offset = 0 ∧ bytes.length < length) ∨
        ∃ header, Header.read bytes = .ok header ∧ header.totalSize.toNat ≤ bytes.length ∧
          header.totalSize.toNat < offset + length ∧
            ((offset, length) = (header.structureOffset.toNat, header.structureSize.toNat) ∨
              (offset, length) = (header.stringsOffset.toNat, header.stringsSize.toNat))) ∧
    (∀ (b : Blob) pos, Truthful b.stringsBlock.length (b.nameAt pos)) ∧
    (∀ (v : Value) pos cells, Truthful v.size (v.wordAt pos) ∧ Truthful v.size (v.doubleWordAt pos) ∧
      Truthful v.size (v.cellsAt pos cells) ∧ Truthful v.size v.text) ∧
    (∀ offset length, (Stream.ofBlock block c).next.1 = .error (.outOfRegion offset length) →
      (offset + length ≤ block.length ↔
        (Stream.ofBlock block c).EndsInPadding offset length)) ∧
    (4 ∣ c.offset → 4 ∣ block.length →
      Truthful block.length (Stream.ofBlock block c).next.1) := by
  have hnext : ∀ offset length,
      (Stream.ofBlock block c).next.1 = .error (.outOfRegion offset length) →
        (offset + length ≤ block.length ↔
          (Stream.ofBlock block c).EndsInPadding offset length) := by
    intro offset length h
    rw [← Stream.outOfRegion_within_iff,
      Stream.length_ofBlock (Stream.next_eq_outOfRegion_iff.1 h)]
    exact (and_iff_right h).symm
  refine ⟨Header.truthful_read bytes, fun _ _ h => Blob.outOfRegion_of_ofBytes h,
    Blob.truthful_nameAt, fun v pos cells => ⟨v.truthful_wordAt pos, v.truthful_doubleWordAt pos,
      v.truthful_cellsAt pos cells, v.truthful_text⟩, hnext, ?_⟩
  intro hc hl offset length h
  refine Nat.lt_of_not_le fun hle => ?_
  have he := (hnext offset length h).1 hle
  rw [← Stream.length_ofBlock he.breaksOff] at hl
  exact he.not_dvd ((Nat.dvd_add_iff_right hc).2 hl)

/-- A name that nothing ends, in a block of eight bytes, and a name without its padding, in one of
seven. -/
theorem outOfRegion_unterminated_or_unpadded :
    ((Stream.ofBlock [0, 0, 0, 1, 0x61, 0x62, 0x63, 0x64] .root).next.1 =
        .error (.outOfRegion 4 5) ∧ 8 < 4 + 5) ∧
      (Stream.ofBlock [0, 0, 0, 1, 0x61, 0x62, 0] .root).EndsInPadding 4 3 := by
  obtain ⟨-, -, -, -, -, hdvd⟩ :=
    outOfRegion_truthful [] [0, 0, 0, 1, 0x61, 0x62, 0x63, 0x64] .root
  obtain ⟨-, -, -, -, hnext, -⟩ := outOfRegion_truthful [] [0, 0, 0, 1, 0x61, 0x62, 0] .root
  exact ⟨⟨rfl, hdvd (by decide) (by decide) 4 5 rfl⟩, (hnext 4 3 rfl).1 (by decide)⟩

/-- The read of a name of three bytes is blamed, and that of a value of one byte, though the blocks
hold them: they end in the padding. -/
theorem not_truthful_unpadded :
    (Stream.ofBlock [0, 0, 0, 1, 0x61, 0x62, 0] .root).next.1 = .error (.outOfRegion 4 3) ∧
      ¬ Truthful 7 (Stream.ofBlock [0, 0, 0, 1, 0x61, 0x62, 0] .root).next.1 ∧
      ¬ Truthful 14 (Stream.ofBlock [0, 0, 0, 3, 0, 0, 0, 1, 0, 0, 0, 0, 0, 0] .root).next.1 :=
  ⟨rfl, fun h => absurd (h 4 3 rfl) (by decide), fun h => absurd (h 12 1 rfl) (by decide)⟩

end Devicetree
