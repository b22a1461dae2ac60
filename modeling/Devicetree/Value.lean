import Devicetree.Bytes.Read

/-!
# Property values

A property value is a run of bytes without a type. It can be read as 32-bit cells, as numbers of
one or two cells, and as a string.
-/

namespace Devicetree

/-- The value of a property, without its padding. -/
structure Value where
  bytes : Bytes
  deriving DecidableEq, Repr

namespace Value

def cellSize : Nat := 4

def size (v : Value) : Nat :=
  v.bytes.length

def isEmpty (v : Value) : Bool :=
  v.bytes.isEmpty

def cellCount (v : Value) : Nat :=
  v.size / cellSize

def wordAt (v : Value) (pos : Nat) : Except Error UInt32 :=
  v.bytes.wordAt pos

def doubleWordAt (v : Value) (pos : Nat) : Except Error UInt64 :=
  v.bytes.doubleWordAt pos

/-- The number made of `cells` cells at `pos`. Only one cell or two fit a 64-bit number. -/
def cellsAt (v : Value) (pos : Nat) (cells : UInt32) : Except Error UInt64 :=
  if cells = 1 then UInt32.toUInt64 <$> v.wordAt pos
  else if cells = 2 then v.doubleWordAt pos
  else .error (.invalidParameter .cellCount)

/-- The text before the first zero byte. -/
def text (v : Value) : Except Error String := do
  let string ← v.bytes.stringAt 0
  string.text

end Value

end Devicetree
