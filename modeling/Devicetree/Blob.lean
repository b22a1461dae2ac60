import Devicetree.Header
import Devicetree.Bytes.Read

/-!
# Blobs

A blob is opened by decoding its header and cutting out its two blocks: the structure block, which
holds the tree as a stream of tokens, and the strings block, which holds the names of properties.
Every later read stays inside one of the two.
-/

namespace Devicetree

/-- A device tree blob whose header has been decoded and whose blocks fit. -/
structure Blob where
  header : Header
  /-- The whole blob, as long as its header says. -/
  bytes : Bytes
  structureBlock : Bytes
  stringsBlock : Bytes
  deriving DecidableEq, Repr

namespace Blob

/-- The block of `size` bytes at `offset`. -/
def block (b : Bytes) (offset size : UInt32) : Except Error Bytes :=
  valueOr (.outOfRegion offset.toNat size.toNat) (b.region? offset.toNat size.toNat)

/-- Opens the blob at the start of `b`. Bytes after its end are ignored. -/
def ofBytes (b : Bytes) : Except Error Blob := do
  let header ← Header.read b
  require (header.totalSize.toNat ≤ b.length) (.outOfRegion 0 header.totalSize.toNat)
  let bytes := b.take header.totalSize.toNat
  require (header.structureOffset.toNat % 4 = 0) (.malformed 0 .unalignedBlock)
  let structureBlock ← block bytes header.structureOffset header.structureSize
  let stringsBlock ← block bytes header.stringsOffset header.stringsSize
  return { header, bytes, structureBlock, stringsBlock }

/-- The size that the header at the start of `b` declares. -/
def declaredSize (b : Bytes) : Except Error Nat :=
  (·.totalSize.toNat) <$> Header.read b

/-- Opens the blob in memory at a pointer: `none` for the null pointer, and otherwise the bytes
that can be read from the pointer on. Nothing after the declared size is looked at. -/
def ofMemory : Option Bytes → Except Error Blob
  | none => .error (.invalidParameter .nullPointer)
  | some memory => do
    let size ← declaredSize (memory.take Header.size)
    ofBytes (memory.take size)

def nameAt (b : Blob) (offset : Nat) : Except Error Bytes :=
  b.stringsBlock.stringAt offset

end Blob

end Devicetree
