import Devicetree.Forest
import Devicetree.Header

/-!
# Laying out a blob

A blob as it is written: the header, the reservations, the structure block and the strings block,
one after the other.
-/

namespace Devicetree

/-- What a blob is written from. -/
structure Layout where
  version : UInt32
  lastCompatible : UInt32
  bootCpu : UInt32
  /-- The reservation map, undecoded. -/
  reservations : Bytes
  forest : Forest
  strings : Bytes
  deriving DecidableEq, Repr

namespace Layout

/-- The structure block: the items of the top level and the tag that ends the tree. -/
def structureBlock (l : Layout) : Bytes :=
  l.forest.encode ++ BigEndian.encodeWord Tag.endOfTree.number

def structureOffset (l : Layout) : Nat :=
  Header.size + l.reservations.length

def stringsOffset (l : Layout) : Nat :=
  l.structureOffset + l.structureBlock.length

def size (l : Layout) : Nat :=
  l.stringsOffset + l.strings.length

def header (l : Layout) : Header where
  magic := Header.magicNumber
  totalSize := .ofNat l.size
  structureOffset := .ofNat l.structureOffset
  stringsOffset := .ofNat l.stringsOffset
  reservationOffset := .ofNat Header.size
  version := l.version
  lastCompatible := l.lastCompatible
  bootCpu := l.bootCpu
  stringsSize := .ofNat l.strings.length
  structureSize := .ofNat l.structureBlock.length

def encode (l : Layout) : Bytes :=
  l.header.encode ++ (l.reservations ++ (l.structureBlock ++ l.strings))

/-- Whether a layout can be written: its parts can, every property has a name, the structure block
starts at a multiple of four, and the size of the whole is a word. -/
structure Writable (l : Layout) : Prop where
  forest : l.forest.Writable
  named : l.forest.Named l.strings
  aligned : l.reservations.length % 4 = 0
  size_lt : l.size < UInt32.size

theorem length_encode (l : Layout) : l.encode.length = l.size := by
  simp only [encode, List.length_append, Header.length_encode, size, stringsOffset,
    structureOffset]
  omega

end Layout

end Devicetree
