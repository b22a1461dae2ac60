import Devicetree.Arithmetic
import Devicetree.Boot.Memory
import Devicetree.Walk

/-!
# Reads at offsets

A reader on a machine does not hold the bytes that are left but an offset into all of them, and it
gets from one part of a token to the next by calculating offsets. These are the reads of a block, of
a value and of a walk in this form, in which every addition of an offset, a length or a count of
nodes is a step of a `Calculation`.

Here a token need not start at a multiple of four: what is padded is the end of a region, wherever
it starts.
-/

namespace Devicetree

namespace Offsets

open Calculation

/-! ## Numbers and strings -/

def regionAt (b : Bytes) (pos length : Nat) : Calculation (Except Error Bytes) := do
  let stop ← sum? pos length
  return valueOr (.outOfRegion pos length) (stop.bind (b.slice? pos))

def wordAt (b : Bytes) (pos : Nat) : Calculation (Except Error UInt32) := do
  let region ← regionAt b pos 4
  return BigEndian.word <$> region

def doubleWordAt (b : Bytes) (pos : Nat) : Calculation (Except Error UInt64) := do
  let region ← regionAt b pos 8
  return BigEndian.doubleWord <$> region

def cellsAt (v : Value) (pos : Nat) (cells : UInt32) : Calculation (Except Error UInt64) :=
  if cells = 1 then do
    let word ← wordAt v.bytes pos
    return UInt32.toUInt64 <$> word
  else if cells = 2 then doubleWordAt v.bytes pos
  else return .error (.invalidParameter .cellCount)

def stringAt (b : Bytes) (pos : Nat) : Calculation (Except Error Bytes) :=
  if b.length < pos then return .error (.outOfRegion pos 1)
  else
    let tail := b.drop pos
    match Bytes.beforeNul? tail with
    | some string => return .ok string
    | none => do
      let length ← sum tail.length 1
      return .error (.outOfRegion pos length)

/-! ## Tokens -/

/-- The next multiple of four, which the number itself may be. -/
def aligned (n : Nat) : Calculation Nat := do
  let above ← sum n 4
  let last ← difference above 1
  return last / 4 * 4

/-- The end of a region with its padding. -/
def paddedEnd (b : Bytes) (start length : Nat) : Calculation (Except Error Nat) := do
  match ← sum? start length with
  | none => return .error (.outOfRegion start length)
  | some stop =>
    let stop ← aligned stop
    return valueOr (.outOfRegion start length) (if stop ≤ b.length then some stop else none)

/-- The rest of a token that opens a node, and the offset at which the read leaves off. -/
def nextName (b : Bytes) (offset : Nat) : Calculation (Except Error (Option Token) × Nat) := do
  match ← stringAt b offset with
  | .error e => return (.error e, offset)
  | .ok name =>
    let length ← sum name.length 1
    match ← paddedEnd b offset length with
    | .error e => return (.error e, offset)
    | .ok stop => return (.ok (some (.beginNode name)), stop)

/-- The value of a property, behind its header. -/
def nextValue (b : Bytes) (start : Nat) (size nameOffset : UInt32) :
    Calculation (Except Error (Option Token) × Nat) := do
  match ← regionAt b start size.toNat with
  | .error e => return (.error e, start)
  | .ok value =>
    match ← paddedEnd b start size.toNat with
    | .error e => return (.error e, start)
    | .ok stop => return (.ok (some (.property nameOffset value)), stop)

/-- The rest of a property, and the offset at which the read leaves off. -/
def nextProperty (b : Bytes) (offset : Nat) :
    Calculation (Except Error (Option Token) × Nat) := do
  let sizeAt ← sum offset 0
  match ← wordAt b sizeAt with
  | .error e => return (.error e, offset)
  | .ok size =>
    let nameOffsetAt ← sum offset 4
    match ← wordAt b nameOffsetAt with
    | .error e => return (.error e, offset)
    | .ok nameOffset =>
      let start ← sum offset 8
      nextValue b start size nameOffset

/-- What stands behind the tag of a token that starts at `start`. -/
def nextBehind (b : Bytes) (start offset : Nat) :
    Option Tag → Calculation (Except Error (Option Token) × Nat)
  | none => return (.error (.malformed start .unknownToken), offset)
  | some .beginNode => nextName b offset
  | some .endNode => return (.ok (some .endNode), offset)
  | some .property => nextProperty b offset
  | some .nop => return (.ok (some .nop), offset)
  | some .endOfTree => return (.ok none, offset)

/-- Reads a token, and answers also with the offset at which the read leaves off. -/
def next (b : Bytes) (offset : Nat) : Calculation (Except Error (Option Token) × Nat) :=
  if b.length ≤ offset then return (.error (.malformed offset .endOfBlock), offset)
  else do
    match ← wordAt b offset with
    | .error e => return (.error e, offset)
    | .ok tag =>
      let rest ← sum offset 4
      nextBehind b offset rest (Tag.ofNumber? tag)

/-! ## Walks -/

inductive WalkState where
  /-- The next token starts at `offset`, inside of `nested` nodes. -/
  | reading (offset nested : Nat)
  | answered (answer : Except Error (Option Cursor))

/-- One round of a walk. -/
def walkStep (b : Blob) (depth : Nat) : WalkState → Calculation WalkState
  | .answered answer => return .answered answer
  | .reading offset nested => do
    let (answer, offset') ← next b.structureBlock offset
    match answer with
    | .error e => return .answered (.error e)
    | .ok none =>
      return .answered (if depth = 0 ∧ nested = 0 then .ok none
        else .error (.malformed offset .endInsideNode))
    | .ok (some (.beginNode _)) =>
      let nested ← sum nested 1
      return .reading offset' nested
    | .ok (some .endNode) =>
      if 0 < nested then
        let nested ← difference nested 1
        return .reading offset' nested
      else
        return .answered (if depth = 0 then .error (.malformed offset .endNodeWithoutBeginNode)
          else .ok (some ⟨offset'⟩))
    | .ok (some (.property nameOffset _)) =>
      match ← stringAt b.stringsBlock nameOffset.toNat with
      | .error e => return .answered (.error e)
      | .ok _ => return .reading offset' nested
    | .ok (some .nop) => return .reading offset' nested

def walkSteps (b : Blob) (depth : Nat) : (rounds : Nat) → WalkState → Calculation WalkState
  | 0, state => return state
  | rounds + 1, state => do
    let state ← walkStep b depth state
    walkSteps b depth rounds state

/-! ## Memory -/

/-- The region at an offset of a value, and the offset of the next one. -/
def nextRegion (r : MemoryRegions) (offset : Nat) : Calculation (Option MemoryRegion × Nat) :=
  if r.rest.size ≤ offset then return (none, offset)
  else do
    let addressSize ← product r.addressCells.toNat Value.cellSize
    let sizeOffset ← sum offset addressSize
    match ← cellsAt r.rest offset r.addressCells with
    | .error _ => return (none, offset)
    | .ok address =>
      match ← cellsAt r.rest sizeOffset r.sizeCells with
      | .error _ => return (none, offset)
      | .ok size =>
        let sizeSize ← product r.sizeCells.toNat Value.cellSize
        let offset ← sum sizeOffset sizeSize
        return (some ⟨address, size⟩, offset)

/-- The answers to `n` calls in a row. -/
def nextRegions (r : MemoryRegions) : (n offset : Nat) → Calculation (List (Option MemoryRegion))
  | 0, _ => return []
  | n + 1, offset => do
    let (region, offset) ← nextRegion r offset
    let regions ← nextRegions r n offset
    return region :: regions

end Offsets

end Devicetree
