import Devicetree.Boot
import Devicetree.Proofs.RoundTrip

/-!
# A blob in memory and a blob of bytes

Through a pointer a blob is opened in two steps: the header says how many bytes it has, and only
these are read. Given as bytes it is opened where it stands, with what comes behind it. Behind the
header and the declared size nothing is looked at (`ofBytes_take`), so both give the same blob if
the header is a part of what it declares.

A header can declare fewer bytes than its own. Through a pointer it is then refused. As bytes the
blob is opened if its blocks fit, with fields of a header that is cut off in the blob itself, and
what is opened cannot be opened again (`ofMemory_of_magic`, `ofBytes_shortHeader`).
-/

namespace Devicetree

namespace Header

variable {b : Bytes}

theorem field_take {n i : Nat} (h : 4 * i + 4 ≤ n) : field (b.take n) i = field b i := by
  have hn : min 4 (n - 4 * i) = 4 := by omega
  rw [field, field, List.drop_take, List.take_take, hn]

theorem read_of_short (h : b.length < size) : read b = .error (.outOfRegion 0 size) := by
  unfold read require
  rw [if_neg (Nat.not_le.2 h)]
  rfl

theorem totalSize_of_read {header : Header} (h : read b = .ok header) :
    header.totalSize = field b 1 := by
  simp only [read, bind_eq_ok_iff] at h
  obtain ⟨-, -, -, -, h⟩ := h
  obtain rfl := Except.ok.inj h
  rfl

theorem read_of_magic (hl : size ≤ b.length) (hm : field b 0 = magicNumber) :
    ∃ header, read b = .ok header := by
  unfold read require
  rw [if_pos hl, if_pos hm]
  exact ⟨_, rfl⟩

/-- What comes behind a header is not a part of it. -/
theorem read_take {n : Nat} (h : size ≤ n) : read (b.take n) = read b := by
  have hf : ∀ i < 10, field (b.take n) i = field b i := by
    intro i hi
    refine field_take (Nat.le_trans ?_ h)
    rw [size]
    omega
  have hl : size ≤ (b.take n).length ↔ size ≤ b.length := by
    rw [List.length_take, Nat.le_min]
    exact and_iff_right h
  unfold read
  simp only [hf, Nat.reduceLT, require, hl]

end Header

namespace Blob

variable {bytes memory : Bytes}

/-- Behind the header and the size that it declares nothing is looked at. -/
theorem ofBytes_take {n : Nat} (hs : Header.size ≤ n) (ht : (Header.field bytes 1).toNat ≤ n) :
    ofBytes (bytes.take n) = ofBytes bytes := by
  unfold ofBytes
  rw [Header.read_take hs]
  rcases h : Header.read bytes with e | header
  · rfl
  · rw [← Header.totalSize_of_read h] at ht
    have hl : header.totalSize.toNat ≤ (bytes.take n).length ↔
        header.totalSize.toNat ≤ bytes.length := by
      rw [List.length_take, Nat.le_min]
      exact and_iff_right ht
    simp only [ok_bind, require, hl, List.take_take, Nat.min_eq_left ht]

theorem ofBytes_of_short (h : bytes.length < Header.size) :
    ofBytes bytes = .error (.outOfRegion 0 Header.size) := by
  rw [ofBytes, Header.read_of_short h]
  rfl

theorem bytes_of_ofBytes {b : Blob} (h : ofBytes bytes = .ok b) :
    b.bytes = bytes.take (Header.field bytes 1).toNat := by
  simp only [ofBytes, bind_eq_ok_iff] at h
  obtain ⟨header, hr, -, -, -, -, _, -, _, -, h⟩ := h
  obtain rfl := Except.ok.inj h
  rw [← Header.totalSize_of_read hr]

theorem ofMemory_eq_ofBytes_take (hl : Header.size ≤ memory.length)
    (hm : Header.field memory 0 = Header.magicNumber) :
    ofMemory (some memory) = ofBytes (memory.take (Header.field memory 1).toNat) := by
  obtain ⟨header, hr⟩ := Header.read_of_magic hl hm
  simp only [ofMemory, declaredSize, Header.read_take (Nat.le_refl _), hr, Functor.map, Except.map,
    ok_bind, Header.totalSize_of_read hr]

/-- A header that is a part of the size that it declares is opened, through a pointer and as bytes,
as the same blob, with what comes behind it or without. The machine then boots in the same way. A
header that declares less than its own size is refused through a pointer, and so is what it is
opened as, if it is. -/
theorem ofMemory_of_magic (hl : Header.size ≤ memory.length)
    (hm : Header.field memory 0 = Header.magicNumber)
    (ht : (Header.field memory 1).toNat ≤ memory.length) :
    (Header.size ≤ (Header.field memory 1).toNat →
      ofMemory (some memory) = ofBytes memory ∧
        Boot.fromMemory (some memory) = Boot.fromBytes memory ∧
        ∀ b, ofBytes memory = .ok b → ofBytes b.bytes = .ok b) ∧
    ((Header.field memory 1).toNat < Header.size →
      ofMemory (some memory) = .error (.outOfRegion 0 Header.size) ∧
        (Boot.fromMemory (some memory)).outcome = .error (.outOfRegion 0 Header.size) ∧
        ∀ b, ofBytes memory = .ok b → ofBytes b.bytes = .error (.outOfRegion 0 Header.size)) := by
  have hp := ofMemory_eq_ofBytes_take hl hm
  refine ⟨fun hs => ?_, fun hs => ?_⟩
  · have hb := ofBytes_take hs (Nat.le_refl (Header.field memory 1).toNat)
    refine ⟨hp.trans hb, ?_, ?_⟩
    · rw [Boot.fromMemory, Boot.fromBytes, hp, hb]
    · intro b ho
      rw [bytes_of_ofBytes ho, hb, ho]
  · have hb : ofBytes (memory.take (Header.field memory 1).toNat) =
        .error (.outOfRegion 0 Header.size) := by
      refine ofBytes_of_short ?_
      rwa [List.length_take, Nat.min_eq_left ht]
    refine ⟨hp.trans hb, ?_, ?_⟩
    · rw [Boot.fromMemory, hp, hb]
      rfl
    · intro b ho
      rw [bytes_of_ofBytes ho, hb]

end Blob

/-- What is laid out is opened also where something follows it. -/
theorem Layout.ofBytes_encode_append {l : Layout} (h : l.Writable) (tail : Bytes) :
    Blob.ofBytes (l.encode ++ tail) = .ok l.blob := by
  have hr : Header.read (l.encode ++ tail) = .ok l.header := by
    rw [encode, List.append_assoc]
    exact Header.read_encode rfl _
  have hs : Header.size ≤ l.encode.length := by
    rw [encode, List.length_append, Header.length_encode]
    exact Nat.le_add_right _ _
  have ht : (Header.field (l.encode ++ tail) 1).toNat ≤ l.encode.length := by
    rw [← Header.totalSize_of_read hr, length_encode]
    exact Nat.le_of_eq (toNat_ofNat_of_le_size h (Nat.le_refl _))
  rw [← Blob.ofBytes_take hs ht, List.take_left, ofBytes_encode h]

/-- A header that declares eight bytes and has two empty blocks. -/
def Header.short : Header where
  magic := magicNumber
  totalSize := 8
  structureOffset := 0
  stringsOffset := 0
  reservationOffset := 40
  version := 17
  lastCompatible := 16
  bootCpu := 0
  stringsSize := 0
  structureSize := 0

/-- Bytes that start with the right magic number, of at least the size of a header and of the size
that they declare, from which a blob is opened that is not there through a pointer and that its own
bytes do not give. -/
theorem Blob.ofBytes_shortHeader : Header.size ≤ Header.short.encode.length ∧
    Header.field Header.short.encode 0 = Header.magicNumber ∧
    (Header.field Header.short.encode 1).toNat ≤ Header.short.encode.length ∧
    ∃ b, ofBytes Header.short.encode = .ok b ∧
      ofMemory (some Header.short.encode) = .error (.outOfRegion 0 40) ∧
      ofBytes b.bytes = .error (.outOfRegion 0 40) :=
  ⟨by decide, rfl, by decide, _, rfl, rfl, rfl⟩

/-- The board with a byte behind it, and a header that declares less than its size. -/
theorem Blob.ofMemory_board :
    ofMemory (some (Layout.board.encode ++ [0xff])) = .ok Layout.board.blob ∧
      ofBytes Layout.board.blob.bytes = .ok Layout.board.blob ∧
      ofMemory (some Header.short.encode) = .error (.outOfRegion 0 40) := by
  have ho := Layout.ofBytes_encode_append Layout.board_writable [0xff]
  have hsize : Header.size ≤ (Header.field (Layout.board.encode ++ [0xff]) 1).toNat := by decide
  have hl : (Layout.board.encode ++ [0xff]).length = 131 := by
    rw [List.length_append, Layout.length_encode]
    rfl
  have hs : Header.size ≤ (Layout.board.encode ++ [0xff]).length := by
    rw [hl]
    decide
  have ht : (Header.field (Layout.board.encode ++ [0xff]) 1).toNat ≤
      (Layout.board.encode ++ [0xff]).length := by
    rw [hl]
    decide
  obtain ⟨hm, -, hb⟩ := (ofMemory_of_magic hs rfl ht).1 hsize
  have hshort := (@ofMemory_of_magic Header.short.encode (by decide) rfl (by decide)).2 (by decide)
  exact ⟨hm.trans ho, hb _ ho, hshort.1⟩

end Devicetree
