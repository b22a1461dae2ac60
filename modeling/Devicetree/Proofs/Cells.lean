import Devicetree.Proofs.ExactReads

/-!
# Cells of a value

Cells are written into a value one after the other, four bytes each. A cell stands at four times
its index and is read back from there (`wordAt_ofCells`). Where two cells stand in a row, they are
also read as one number, the first its high half, and this holds at any offset, aligned or not
(`Bytes.exists_doubleWordAt_of_words`). No offset is so large that a read behind the end of a value
wraps around to one that answers.
-/

namespace Devicetree

namespace Value

/-- The value that a row of cells is written as, with more bytes behind them. -/
def ofCells (cells : List UInt32) (tail : Bytes) : Value :=
  ⟨cells.flatMap BigEndian.encodeWord ++ tail⟩

variable {cells : List UInt32} {tail : Bytes} {i : Nat}

theorem length_flatMap_encodeWord (cells : List UInt32) :
    (cells.flatMap BigEndian.encodeWord).length = 4 * cells.length :=
  Bytes.length_flatMap BigEndian.length_encodeWord cells

theorem cellCount_ofCells (h : tail.length < cellSize) :
    (ofCells cells tail).cellCount = cells.length := by
  rw [cellSize] at h
  rw [cellCount, size, ofCells, List.length_append, length_flatMap_encodeWord, cellSize]
  omega

/-- A cell stands behind those with a lower index. -/
theorem bytes_ofCells (hi : i < cells.length) :
    (ofCells cells tail).bytes = (cells.take i).flatMap BigEndian.encodeWord ++
      (BigEndian.encodeWord cells[i] ++ (ofCells (cells.drop (i + 1)) tail).bytes) := by
  calc (ofCells cells tail).bytes
      = (cells.take i ++ cells.drop i).flatMap BigEndian.encodeWord ++ tail := by
        rw [List.take_append_drop, ofCells]
    _ = _ := by
        rw [List.drop_eq_getElem_cons hi, List.flatMap_append, List.flatMap_cons,
          List.append_assoc, List.append_assoc, ofCells]

theorem wordAt_ofCells (tail : Bytes) (hi : i < cells.length) :
    (ofCells cells tail).wordAt (4 * i) = .ok cells[i] := by
  have hpos : 4 * i = ((cells.take i).flatMap BigEndian.encodeWord).length := by
    rw [length_flatMap_encodeWord, List.length_take, Nat.min_eq_left (Nat.le_of_lt hi)]
  refine Bytes.wordAt_eq_ok_iff.2 ?_
  rw [bytes_ofCells hi]
  exact Bytes.region?_append hpos (BigEndian.length_encodeWord _).symm

theorem exists_doubleWordAt_ofCells (tail : Bytes) (hi : i + 1 < cells.length) :
    ∃ w, (ofCells cells tail).doubleWordAt (4 * i) = .ok w ∧
      w.toNat = cells[i].toNat * UInt32.size + cells[i + 1].toNat :=
  Bytes.exists_doubleWordAt_of_words (wordAt_ofCells tail (Nat.lt_of_succ_lt hi))
    (wordAt_ofCells tail hi)

/-- What is written as cells, with less than a cell behind them, is read back cell by cell and two
cells at a time. Whatever the value and the offset are, a read of one cell or two answers exactly if
the value reaches so far, and any other number of cells is refused. With offsets that are words it
comes to the same answers. -/
theorem reads_ofCells (cells : List UInt32) (tail : Bytes) (h : tail.length < cellSize) :
    (ofCells cells tail).cellCount = cells.length ∧
    (∀ i (hi : i < cells.length), (ofCells cells tail).wordAt (4 * i) = .ok cells[i]) ∧
    (∀ i (hi : i + 1 < cells.length), ∃ w, (ofCells cells tail).doubleWordAt (4 * i) = .ok w ∧
      (ofCells cells tail).cellsAt (4 * i) 2 = .ok w ∧
      w.toNat = cells[i].toNat * UInt32.size + cells[i + 1].toNat) ∧
    ∀ (v : Value) (pos : Nat),
      ((∃ w, v.wordAt pos = .ok w) ↔ pos + 4 ≤ v.size) ∧
      ((∃ w, v.doubleWordAt pos = .ok w) ↔ pos + 8 ≤ v.size) ∧
      (∀ count, count ≠ 1 → count ≠ 2 →
        v.cellsAt pos count = .error (.invalidParameter .cellCount)) ∧
      (v.bytes.Addressable → (Offsets.wordAt v.bytes pos .word).1 = v.wordAt pos ∧
        (Offsets.doubleWordAt v.bytes pos .word).1 = v.doubleWordAt pos ∧
        ∀ count, (Offsets.cellsAt v pos count .word).1 = v.cellsAt pos count) := by
  refine ⟨cellCount_ofCells h, fun i hi => wordAt_ofCells tail hi, fun i hi => ?_, fun v pos =>
    ⟨Bytes.exists_wordAt_iff, Bytes.exists_doubleWordAt_iff, fun count h₁ h₂ => ?_, fun hv => ?_⟩⟩
  · obtain ⟨w, hw, he⟩ := exists_doubleWordAt_ofCells tail hi
    exact ⟨w, hw, hw, he⟩
  · rw [cellsAt, if_neg h₁, if_neg h₂]
  · exact ⟨(Offsets.exact_wordAt hv pos).eq_of_word, (Offsets.exact_doubleWordAt hv pos).eq_of_word,
      fun count => (Offsets.exact_cellsAt hv pos count).eq_of_word⟩

/-- Four cells with three bytes behind them. -/
def uneven : Value :=
  ofCells [0, 0x80000000, 7, 0x40000000] [0xaa, 0xbb, 0xcc]

/-- The second cell and the third are one number. The three bytes make no cell, but one is read that
ends with them, and none at the next offset or at one so large that its end is no word. Three cells
are refused even there. -/
theorem reads_uneven :
    ([0xaa, 0xbb, 0xcc] : Bytes).length < cellSize ∧ uneven.cellCount = 4 ∧
      uneven.wordAt 4 = .ok 0x80000000 ∧
      (∃ w, uneven.doubleWordAt 4 = .ok w ∧ uneven.cellsAt 4 2 = .ok w ∧
        w.toNat = 0x80000000 * UInt32.size + 7) ∧
      (∃ w, uneven.wordAt 15 = .ok w) ∧ (¬ ∃ w, uneven.wordAt 16 = .ok w) ∧
      uneven.bytes.Addressable ∧
      (Offsets.wordAt uneven.bytes (UInt64.size - 2) .word).1 =
        .error (.outOfRegion (UInt64.size - 2) 4) ∧
      uneven.cellsAt (UInt64.size - 2) 3 = .error (.invalidParameter .cellCount) := by
  obtain ⟨hcount, hword, hnumber, hreads⟩ :=
    reads_ofCells [0, 0x80000000, 7, 0x40000000] [0xaa, 0xbb, 0xcc] (by decide)
  have hlast : ∃ w, uneven.wordAt 15 = .ok w := (hreads uneven 15).1.2 (by decide)
  have hbehind : ¬ ∃ w, uneven.wordAt 16 = .ok w := fun hw =>
    absurd ((hreads uneven 16).1.1 hw) (by decide)
  have hv : uneven.bytes.Addressable := by decide
  obtain ⟨-, -, hcells, hwords⟩ := hreads uneven (UInt64.size - 2)
  exact ⟨by decide, hcount, hword 1 (by decide), hnumber 1 (by decide), hlast, hbehind, hv,
    (hwords hv).1.trans rfl, hcells 3 (by decide) (by decide)⟩

end Value

end Devicetree
