import Devicetree.Value

/-!
# Regions of memory

The `reg` property of a memory node is a list of addresses and sizes, each made of as many cells as
the root node says. `MemoryRegions.next` reads one pair. `size_of_next` says that each pair read
leaves a shorter value, so `toList` reads them all.
-/

namespace Devicetree

structure MemoryRegion where
  address : UInt64
  size : UInt64
  deriving DecidableEq, Repr

namespace MemoryRegion

/-- The address behind a region, or the last address there is if the region ends beyond it. -/
def stop (r : MemoryRegion) : Nat :=
  min (r.address.toNat + r.size.toNat) (UInt64.size - 1)

end MemoryRegion

/-- The regions that are left of a `reg` value. -/
structure MemoryRegions where
  rest : Value
  addressCells : UInt32
  sizeCells : UInt32
  deriving DecidableEq, Repr

namespace MemoryRegions

/-- The next region, with the regions behind it. A pair that cannot be read ends the list. -/
def next (r : MemoryRegions) : Option MemoryRegion × MemoryRegions :=
  if r.rest.isEmpty then (none, r)
  else
    let addressSize := r.addressCells.toNat * Value.cellSize
    let pairSize := addressSize + r.sizeCells.toNat * Value.cellSize
    match r.rest.cellsAt 0 r.addressCells, r.rest.cellsAt addressSize r.sizeCells with
    | .ok address, .ok size =>
      (some ⟨address, size⟩, { r with rest := ⟨r.rest.bytes.drop pairSize⟩ })
    | _, _ => (none, r)

theorem toNat_pos_of_cellsAt {v : Value} {pos : Nat} {cells : UInt32} {n : UInt64}
    (h : v.cellsAt pos cells = .ok n) : 0 < cells.toNat := by
  unfold Value.cellsAt at h
  split at h
  · simp_all
  · split at h
    · simp_all
    · simp at h

theorem size_of_next {r r' : MemoryRegions} {region : MemoryRegion}
    (h : r.next = (some region, r')) : r'.rest.size < r.rest.size := by
  unfold next at h
  split at h
  · simp at h
  · rename_i he
    simp only at h
    split at h
    · rename_i ha _
      have := toNat_pos_of_cellsAt ha
      have : 0 < r.rest.bytes.length := by
        simpa [Value.isEmpty, List.length_pos_iff] using he
      simp only [Prod.mk.injEq] at h
      obtain ⟨-, rfl⟩ := h
      simp only [Value.size, Value.cellSize, List.length_drop]
      omega
    · simp at h

def toList (r : MemoryRegions) : List MemoryRegion :=
  match _h : r.next with
  | (none, _) => []
  | (some region, r') => region :: toList r'
termination_by r.rest.size
decreasing_by exact size_of_next _h

end MemoryRegions

end Devicetree
