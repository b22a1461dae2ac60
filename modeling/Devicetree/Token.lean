import Devicetree.BigEndian

/-!
# Tokens

A structure block is a sequence of tokens. Each starts with a tag, a word that says what it is, and
is padded to a multiple of four bytes. `Spells` says which bytes are a token, with any padding, and
`encode` writes a token with zeros for its padding; `spells_encode` ties the two.
-/

namespace Devicetree

/-- What a token starts with. -/
inductive Tag where
  | beginNode
  | endNode
  | property
  | nop
  | endOfTree
  deriving DecidableEq, Repr

namespace Tag

def number : Tag → UInt32
  | beginNode => 1
  | endNode => 2
  | property => 3
  | nop => 4
  | endOfTree => 9

def ofNumber? (n : UInt32) : Option Tag :=
  if n = 1 then some beginNode
  else if n = 2 then some endNode
  else if n = 3 then some property
  else if n = 4 then some nop
  else if n = 9 then some endOfTree
  else none

@[simp]
theorem ofNumber?_number (t : Tag) : ofNumber? t.number = some t := by
  cases t <;> rfl

theorem ofNumber?_eq_some_iff {n : UInt32} {t : Tag} : ofNumber? n = some t ↔ n = t.number := by
  constructor
  · intro h
    unfold ofNumber? at h
    grind [number]
  · rintro rfl
    exact ofNumber?_number t

end Tag

/-- A token of a structure block, but for the one that ends it. -/
inductive Token where
  | beginNode (name : Bytes)
  | endNode
  /-- A property, with its unpadded value and the place of its name in the strings block. -/
  | property (nameOffset : UInt32) (value : Bytes)
  | nop
  deriving DecidableEq, Repr

namespace Token

/-- What fills the last word of a region of `n` bytes: less than a word, up to the next multiple of
four. -/
def IsPadding (n : Nat) (b : Bytes) : Prop :=
  4 ∣ n + b.length ∧ b.length < 4

theorem isPadding_iff {n : Nat} {b : Bytes} : IsPadding n b ↔ n + b.length = Bytes.padded n := by
  unfold IsPadding Bytes.padded
  omega

theorem isPadding_replicate (n : Nat) : IsPadding n (List.replicate (Bytes.padded n - n) 0) := by
  rw [isPadding_iff, List.length_replicate, Nat.add_sub_cancel' (Bytes.le_padded n)]

/-- The bytes that are a token, whatever its padding. A name has no zero byte, which would end it,
and the length of a value fits in a word. -/
inductive Spells : Token → Bytes → Prop where
  | beginNode {name pad : Bytes} : 0 ∉ name → IsPadding (name.length + 1) pad →
      Spells (beginNode name) (BigEndian.encodeWord Tag.beginNode.number ++ (name ++ 0 :: pad))
  | endNode : Spells endNode (BigEndian.encodeWord Tag.endNode.number)
  | property {nameOffset size : UInt32} {value pad : Bytes} : value.length = size.toNat →
      IsPadding value.length pad →
      Spells (property nameOffset value)
        (BigEndian.encodeWord Tag.property.number ++ (BigEndian.encodeWord size
          ++ (BigEndian.encodeWord nameOffset ++ (value ++ pad))))
  | nop : Spells nop (BigEndian.encodeWord Tag.nop.number)

/-- Whether a token can be written: its name has no zero byte, its value's length is a word. -/
def Writable : Token → Prop
  | beginNode name => 0 ∉ name
  | property _ value => value.length < UInt32.size
  | _ => True

instance : DecidablePred Writable
  | beginNode name => inferInstanceAs (Decidable (0 ∉ name))
  | endNode => inferInstanceAs (Decidable True)
  | property _ value => inferInstanceAs (Decidable (value.length < UInt32.size))
  | nop => inferInstanceAs (Decidable True)

/-- A region filled up with zeros to a multiple of four bytes. -/
def pad (b : Bytes) : Bytes :=
  b ++ List.replicate (Bytes.padded b.length - b.length) 0

/-- A token as it is written, with zeros for its padding. -/
def encode : Token → Bytes
  | beginNode name => BigEndian.encodeWord Tag.beginNode.number ++ pad (name ++ [0])
  | endNode => BigEndian.encodeWord Tag.endNode.number
  | property nameOffset value =>
    BigEndian.encodeWord Tag.property.number ++ (BigEndian.encodeWord (UInt32.ofNat value.length)
      ++ (BigEndian.encodeWord nameOffset ++ pad value))
  | nop => BigEndian.encodeWord Tag.nop.number

def size : Token → Nat
  | beginNode name => 4 + Bytes.padded (name.length + 1)
  | endNode => 4
  | property _ value => 12 + Bytes.padded value.length
  | nop => 4

@[simp]
theorem length_encode (t : Token) : t.encode.length = t.size := by
  cases t with
  | beginNode name =>
    have hp := Bytes.le_padded (name.length + 1)
    simp [encode, pad, size]
    omega
  | endNode => rfl
  | property nameOffset value =>
    have hp := Bytes.le_padded value.length
    simp [encode, pad, size]
    omega
  | nop => rfl

theorem four_dvd_size (t : Token) : 4 ∣ t.size := by
  unfold size
  split
  · exact Nat.dvd_add (by decide) (Bytes.four_dvd_padded _)
  · decide
  · exact Nat.dvd_add (by decide) (Bytes.four_dvd_padded _)
  · decide

theorem Spells.length {t : Token} {b : Bytes} (h : t.Spells b) : b.length = t.size := by
  cases h <;> simp_all [size, isPadding_iff] <;> omega

theorem spells_encode {t : Token} (h : t.Writable) : t.Spells t.encode := by
  cases t with
  | beginNode name =>
    simpa [encode, pad] using Spells.beginNode h (isPadding_replicate (name.length + 1))
  | endNode => exact .endNode
  | property nameOffset value =>
    exact .property (UInt32.toNat_ofNat_of_lt' h).symm (isPadding_replicate value.length)
  | nop => exact .nop

theorem Spells.writable {t : Token} {b : Bytes} (h : t.Spells b) : t.Writable := by
  cases h with
  | beginNode h _ => exact h
  | property h _ => simpa [Writable, h] using UInt32.toNat_lt _
  | _ => trivial

end Token

end Devicetree
