import Devicetree.BigEndian
import Devicetree.Error

/-!
# The header

A blob starts with ten big-endian words. They name the size of the whole and where its blocks lie.
`Header.read` decodes them and checks nothing but the magic number; `read_encode` says that it
reads back what `encode` writes.
-/

namespace Devicetree

/-- The ten words at the start of a blob, in their order there. -/
structure Header where
  magic : UInt32
  totalSize : UInt32
  structureOffset : UInt32
  stringsOffset : UInt32
  reservationOffset : UInt32
  version : UInt32
  lastCompatible : UInt32
  bootCpu : UInt32
  stringsSize : UInt32
  structureSize : UInt32
  deriving DecidableEq, Repr

namespace Header

/-- What the first word has to be. -/
def magicNumber : UInt32 := 0xd00dfeed

def size : Nat := 40

def words (h : Header) : List UInt32 :=
  [h.magic, h.totalSize, h.structureOffset, h.stringsOffset, h.reservationOffset, h.version,
    h.lastCompatible, h.bootCpu, h.stringsSize, h.structureSize]

def encode (h : Header) : Bytes :=
  h.words.flatMap BigEndian.encodeWord

/-- The word with index `i` at the start of a blob. -/
def field (b : Bytes) (i : Nat) : UInt32 :=
  BigEndian.word ((b.drop (4 * i)).take 4)

/-- Decodes the header of a blob and checks the magic number. -/
def read (b : Bytes) : Except Error Header := do
  require (size ≤ b.length) (.outOfRegion 0 size)
  require (field b 0 = magicNumber) (.badMagic (field b 0))
  return {
    magic := field b 0
    totalSize := field b 1
    structureOffset := field b 2
    stringsOffset := field b 3
    reservationOffset := field b 4
    version := field b 5
    lastCompatible := field b 6
    bootCpu := field b 7
    stringsSize := field b 8
    structureSize := field b 9 }

@[simp]
theorem length_encode (h : Header) : h.encode.length = size := by
  simp [encode, words, size]

@[simp]
theorem field_zero (w : UInt32) (b : Bytes) : field (BigEndian.encodeWord w ++ b) 0 = w := by
  rw [field, Nat.mul_zero, List.drop_zero, List.take_left' (BigEndian.length_encodeWord w),
    BigEndian.word_encodeWord]

@[simp]
theorem field_succ (w : UInt32) (b : Bytes) (i : Nat) :
    field (BigEndian.encodeWord w ++ b) (i + 1) = field b i := by
  have h : 4 * (i + 1) = (BigEndian.encodeWord w).length + 4 * i := by
    rw [BigEndian.length_encodeWord]; omega
  rw [field, h, List.drop_append, List.drop_eq_nil_of_le (by omega), Nat.add_sub_cancel_left,
    List.nil_append, field]

theorem read_encode {h : Header} (hm : h.magic = magicNumber) (b : Bytes) :
    read (h.encode ++ b) = .ok h := by
  have hl : size ≤ (h.encode ++ b).length := by simp
  cases h
  subst hm
  simp only [encode, words, List.flatMap_cons, List.flatMap_nil, List.append_assoc] at hl ⊢
  simp only [read, require, if_pos hl]
  simp [bind, Except.bind, pure, Except.pure]

end Header

end Devicetree
