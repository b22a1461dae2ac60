import Devicetree.Proofs.RoundTrip
import Devicetree.Proofs.Discovery

/-!
# All memory is listed

The list of regions ends where a pair cannot be read, and nothing says whether that was for want of
bytes. Behind `Config.discover` it never is. A value that lists regions of two cells (`Lists`) is a
row of pairs of eight bytes each; `next` takes the first pair and leaves a value that lists the
others (`Lists.next_cons`), so that all of them come, one after the other, and then no more.
-/

namespace Devicetree

namespace MemoryRegion

/-- A region as it is written with two cells for its address and two for its size. -/
def encode (r : MemoryRegion) : Bytes :=
  BigEndian.encode 8 r.address.toNat ++ BigEndian.encode 8 r.size.toNat

@[simp]
theorem length_encode (r : MemoryRegion) : r.encode.length = 16 := by
  simp [encode]

theorem length_flatMap_encode (regions : List MemoryRegion) :
    (regions.flatMap encode).length = 16 * regions.length :=
  Bytes.length_flatMap length_encode regions

/-- Bytes that are a multiple of sixteen are a row of regions. -/
theorem exists_flatMap_encode : ∀ (n : Nat) {b : Bytes}, b.length = 16 * n →
    ∃ regions : List MemoryRegion, b = regions.flatMap encode
  | 0, b, h => ⟨[], List.eq_nil_of_length_eq_zero h⟩
  | n + 1, b, h => by
    obtain ⟨regions, hr⟩ := exists_flatMap_encode n (b := b.drop 16) (by
      rw [List.length_drop]
      omega)
    have ha : (b.take 8).length = 8 := by
      rw [List.length_take]
      omega
    have hs : ((b.drop 8).take 8).length = 8 := by
      rw [List.length_take, List.length_drop]
      omega
    have hb : b = b.take 8 ++ ((b.drop 8).take 8 ++ b.drop 16) := by
      rw [show b.drop 16 = (b.drop 8).drop 8 by rw [List.drop_drop], List.take_append_drop,
        List.take_append_drop]
    refine ⟨⟨BigEndian.doubleWord (b.take 8), BigEndian.doubleWord ((b.drop 8).take 8)⟩ :: regions,
      ?_⟩
    rw [List.flatMap_cons, encode, BigEndian.encode_doubleWord ha, BigEndian.encode_doubleWord hs,
      ← hr, List.append_assoc]
    exact hb

end MemoryRegion

namespace MemoryRegions

/-- Whether the value that is left is a row of these regions, with two cells for each number. -/
structure Lists (r : MemoryRegions) (regions : List MemoryRegion) : Prop where
  addressCells : r.addressCells = 2
  sizeCells : r.sizeCells = 2
  bytes : r.rest.bytes = regions.flatMap MemoryRegion.encode

/-- Whether both numbers of the pair at hand can be read. -/
def Readable (r : MemoryRegions) : Prop :=
  ∃ address size, r.rest.cellsAt 0 r.addressCells = .ok address ∧
    r.rest.cellsAt (r.addressCells.toNat * Value.cellSize) r.sizeCells = .ok size

/-- What is left after `n` times the next region. -/
def after (r : MemoryRegions) : (n : Nat) → MemoryRegions
  | 0 => r
  | n + 1 => r.next.2.after n

variable {r : MemoryRegions} {region : MemoryRegion} {regions : List MemoryRegion}

theorem cellsAt_of_bytes {v : Value} {x z : Bytes} {pos : Nat} (w : UInt64)
    (hv : v.bytes = x ++ (BigEndian.encode 8 w.toNat ++ z)) (hp : pos = x.length) :
    v.cellsAt pos 2 = .ok w := by
  have hw : v.doubleWordAt pos = .ok w := by
    refine Bytes.doubleWordAt_eq_ok_iff.2 ?_
    rw [hv]
    exact Bytes.region?_append hp (BigEndian.length_encode 8 _).symm
  exact hw

theorem Lists.cellsAt (h : r.Lists (region :: regions)) :
    r.rest.cellsAt 0 r.addressCells = .ok region.address ∧
      r.rest.cellsAt (r.addressCells.toNat * Value.cellSize) r.sizeCells = .ok region.size := by
  have hb := h.bytes
  rw [List.flatMap_cons, MemoryRegion.encode, List.append_assoc] at hb
  rw [h.addressCells, h.sizeCells]
  exact ⟨cellsAt_of_bytes region.address (x := []) hb rfl, cellsAt_of_bytes region.size hb
    (BigEndian.length_encode 8 _).symm⟩

theorem Lists.next_nil (h : r.Lists []) : r.next = (none, r) := by
  rw [next, Value.isEmpty, h.bytes]
  rfl

/-- The first region comes, and the others are left. -/
theorem Lists.next_cons (h : r.Lists (region :: regions)) :
    r.next = (some region, { r with rest := ⟨regions.flatMap MemoryRegion.encode⟩ }) := by
  obtain ⟨ha, hs⟩ := h.cellsAt
  have hd : r.rest.bytes.drop 16 = regions.flatMap MemoryRegion.encode := by
    rw [h.bytes, List.flatMap_cons, List.drop_left' (MemoryRegion.length_encode region)]
  have he : r.rest.isEmpty = false := by
    rw [Value.isEmpty, List.isEmpty_eq_false_iff, ← List.length_pos_iff, h.bytes,
      MemoryRegion.length_flatMap_encode, List.length_cons]
    omega
  have hp : r.addressCells.toNat * Value.cellSize + r.sizeCells.toNat * Value.cellSize = 16 := by
    rw [h.addressCells, h.sizeCells]
    rfl
  rw [next, he]
  simp only [Bool.false_eq_true, ↓reduceIte, ha, hs, hp, hd]

theorem Lists.next_snd (h : r.Lists regions) : r.next.2.Lists regions.tail := by
  cases regions with
  | nil =>
    rw [h.next_nil]
    exact h
  | cons region regions =>
    rw [h.next_cons]
    exact ⟨h.addressCells, h.sizeCells, rfl⟩

theorem Lists.next_fst (h : r.Lists regions) : r.next.1 = regions.head? := by
  cases regions with
  | nil => rw [h.next_nil]; rfl
  | cons region regions => rw [h.next_cons]; rfl

/-- Where the list has not come to its end, it is not for a failing read that it does. -/
theorem Lists.readable (h : r.Lists regions) (he : r.rest.isEmpty = false) : r.Readable := by
  cases regions with
  | nil =>
    rw [Value.isEmpty, h.bytes] at he
    cases he
  | cons region regions => exact ⟨region.address, region.size, h.cellsAt⟩

theorem Lists.after : ∀ (n : Nat) {r : MemoryRegions} {regions : List MemoryRegion},
    r.Lists regions → (r.after n).Lists (regions.drop n)
  | 0, _, _, h => h
  | n + 1, _, _, h => by
    rw [MemoryRegions.after, ← List.drop_tail]
    exact Lists.after n h.next_snd

theorem Lists.toList : ∀ {regions : List MemoryRegion} {r : MemoryRegions}, r.Lists regions →
    r.toList = regions
  | [], r, h => by
    rw [MemoryRegions.toList]
    split
    next => rfl
    next hn => rw [h.next_nil] at hn; cases hn
  | region :: regions, r, h => by
    have hs := h.next_snd
    rw [MemoryRegions.toList]
    split
    next hn => rw [h.next_cons] at hn; cases hn
    next hn =>
      rw [h.next_cons] at hn hs
      cases hn
      rw [Lists.toList hs]
      rfl

end MemoryRegions

namespace Config

/-- What a configuration is sure of without a look at the tree. -/
theorem reg_of_discover {b : Blob} {c : Config} (h : (discover b).outcome = .ok c) :
    c.addressCells = 2 ∧ c.sizeCells = 2 ∧ c.reg.bytes ≠ [] ∧ 16 ∣ c.reg.size := by
  simp only [discover, Observed.outcome_bind, Observed.outcome_liftM, Observed.outcome_tell,
    Observed.outcome_pure, bind_eq_ok_iff, require_eq_ok_iff, Except.ok.injEq] at h
  obtain ⟨_, -, _, -, -, -, -, rfl, -, rfl, -, -, _, -, _, -, _, -, _, -, _, -, -, -, _, -, reg, -,
    -, ⟨hnonempty, hpairs⟩, rfl⟩ := h
  refine ⟨rfl, rfl, ?_, Nat.dvd_of_mod_eq_zero hpairs⟩
  simpa [Value.isEmpty] using hnonempty

theorem exists_lists_of_discover {b : Blob} {c : Config} (h : (discover b).outcome = .ok c) :
    ∃ regions, c.memoryRegions.Lists regions ∧ regions ≠ [] := by
  obtain ⟨ha, hs, hne, n, hn⟩ := reg_of_discover h
  obtain ⟨regions, hr⟩ := MemoryRegion.exists_flatMap_encode n hn
  refine ⟨regions, ⟨ha, hs, hr⟩, ?_⟩
  rintro rfl
  exact hne hr

/-- A configuration lists at least one region of memory, as many as its value has pairs, and written
one after the other they are the value again. The `n`-th call gives the region with number `n`, and
none from the end of the list on; up to there no read fails. -/
theorem memoryRegions_of_discover {b : Blob} {c : Config} (h : (discover b).outcome = .ok c) :
    0 < c.memoryRegions.toList.length ∧ c.memoryRegions.toList.length = c.reg.size / 16 ∧
      c.memoryRegions.toList.flatMap MemoryRegion.encode = c.reg.bytes ∧
      ∀ n, (c.memoryRegions.after n).next.1 = c.memoryRegions.toList[n]? ∧
        ((c.memoryRegions.after n).rest.isEmpty = false → (c.memoryRegions.after n).Readable) := by
  obtain ⟨regions, hr, hne⟩ := exists_lists_of_discover h
  have hb : c.reg.bytes = regions.flatMap MemoryRegion.encode := hr.bytes
  rw [hr.toList]
  refine ⟨List.length_pos_iff.2 hne, ?_, hb.symm, fun n => ⟨?_, (hr.after n).readable⟩⟩
  · rw [Value.size, hb, MemoryRegion.length_flatMap_encode, Nat.mul_div_cancel_left _ (by decide)]
  · rw [(hr.after n).next_fst, List.head?_drop]

end Config

/-- The configuration of the machine with reserved memory. -/
def Layout.reservingConfig : Config :=
  { addressCells := 2, sizeCells := 2, bootCpu := 0, memoryNode := ⟨136⟩, reg := ⟨machineReg⟩ }

/-- A machine with one region, behind which no region comes, however often one asks. -/
theorem Config.memoryRegions_reservingMachine :
    (discover Layout.reservingMachine.blob).outcome = .ok Layout.reservingConfig ∧
      Layout.reservingConfig.memoryRegions.toList.flatMap MemoryRegion.encode =
        Layout.machineReg ∧
      (Layout.reservingConfig.memoryRegions.after 0).next.1 = some ⟨0x80000000, 0x40000000⟩ ∧
      ∀ n, (Layout.reservingConfig.memoryRegions.after (n + 1)).next.1 = none := by
  obtain ⟨root, hr, hd⟩ := Layout.reservingMachine_describes
  have hc : (discover Layout.reservingMachine.blob).outcome = .ok Layout.reservingConfig :=
    (outcome_discover_eq_ok_iff (Layout.holds_blob Layout.reservingMachine_writable)).2
      ⟨root, _, _, hr, hd, rfl⟩
  obtain ⟨-, hl, hb, hn⟩ := memoryRegions_of_discover hc
  refine ⟨hc, hb, rfl, fun n => ?_⟩
  have hone : Layout.reservingConfig.reg.size / 16 = 1 := rfl
  rw [(hn (n + 1)).1, List.getElem?_eq_none_iff, hl, hone]
  exact Nat.le_add_left 1 n

end Devicetree
