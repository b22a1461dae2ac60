import Devicetree.Boot.Memory
import Devicetree.Lookup

/-!
# What a kernel learns from the tree

`Config.discover` asks the tree for the width of addresses and sizes and for the memory of the
machine. It refuses a machine whose addresses and sizes are not numbers of two cells, whose
reserved memory counts cells or translates addresses in another way, or whose memory node does not
list regions.
-/

namespace Devicetree

structure Config where
  addressCells : UInt32
  sizeCells : UInt32
  bootCpu : UInt32
  memoryNode : Cursor
  /-- The memory regions, undecoded. -/
  reg : Value
  deriving DecidableEq, Repr

namespace Config

/-- The only number of cells that an address or a size may have. -/
def supportedCells : UInt32 := 2

def singleCell (v : Value) : Except Error UInt32 := do
  require (v.size = Value.cellSize) (.unsupported .cellCountNotSingle)
  v.wordAt 0

/-- The number of cells that a property of the root node gives. -/
def rootCells (b : Blob) (path : Path) : Observed UInt32 := do
  let found ← b.lookup .root path .exact
  let value ← valueOr (.unsupported .cellCountsMissing) found.value?
  singleCell value

/-- Checks that a node, if it gives a number of cells under this name, gives the same as the root
node. -/
def checkCells (b : Blob) (body : Cursor) (path : Path) (cells : UInt32) : Observed Unit := do
  match (← b.lookup body path .exact).value? with
  | none => return ()
  | some value => do
    let found ← singleCell value
    require (found = cells) (.unsupported .reservedCellCounts)

/-- Checks that a node, if it has ranges, does not translate addresses. -/
def checkRanges (b : Blob) (body : Cursor) : Observed Unit := do
  match (← b.lookup body (.ofText "ranges") .exact).value? with
  | none => return ()
  | some ranges => require ranges.isEmpty (.unsupported .reservedRanges)

/-- Checks that reserved memory, if there is any, is described in the way of the root node. -/
def checkReserved (b : Blob) (cells : UInt32) : Observed Unit := do
  match (← b.lookup .root (.ofText "/reserved-memory") .exact).body? with
  | none => return ()
  | some body => do
    checkCells b body (.ofText "#address-cells") cells
    checkCells b body (.ofText "#size-cells") cells
    checkRanges b body

/-- Asks the tree for the addressing width and the memory layout. -/
def discover (b : Blob) : Observed Config := do
  let addressCells ← rootCells b (.ofText "/#address-cells")
  let sizeCells ← rootCells b (.ofText "/#size-cells")
  Observed.tell (.cellCounts addressCells sizeCells)
  require (addressCells = supportedCells) (.unsupported .addressWidth)
  require (sizeCells = addressCells) (.unsupported .sizeWidth)
  checkReserved b addressCells
  let memory ← b.lookup .root (.ofText "/memory@") .initial
  let memoryNode ← valueOr (.unsupported .noMemoryNode) memory.body?
  let found ← b.lookup memoryNode (.ofText "device_type") .exact
  let deviceType ← valueOr (.unsupported .noDeviceType) found.value?
  let name ← deviceType.text
  require (name = "memory") (.unsupported .deviceType)
  let found ← b.lookup memoryNode (.ofText "reg") .exact
  let reg ← valueOr (.unsupported .noReg) found.value?
  let pairSize := (addressCells.toNat + sizeCells.toNat) * Value.cellSize
  require (¬ reg.isEmpty ∧ reg.size % pairSize = 0) (.unsupported .regNotPairs)
  return { addressCells, sizeCells, bootCpu := b.header.bootCpu, memoryNode, reg }

/-- The memory of the machine, from its first region on. -/
def memoryRegions (c : Config) : MemoryRegions :=
  { rest := c.reg, addressCells := c.addressCells, sizeCells := c.sizeCells }

end Config

end Devicetree
