import Devicetree.Boot.Config

/-!
# Booting

A boot opens the blob, validates it and asks it for the configuration. The first error on the way
stops the machine: it is told as the last notice and is the outcome.
-/

namespace Devicetree

namespace Observed

def tellAll (ns : List Notice) : Observed Unit :=
  ⟨.ok (), ns.map .notice⟩

/-- Tells the error that ends an operation, if one does. -/
def tellHalt {α : Type} (x : Observed α) : Observed α :=
  match x.outcome with
  | .ok _ => x
  | .error e => ⟨.error e, x.events ++ [.notice (.halted e)]⟩

end Observed

namespace Boot

/-- The configuration of a machine whose blob has been opened, or has not. -/
def probe (opened : Except Error Blob) : Observed Config := do
  let b ← opened
  Observed.tell
    (.blobOpened b.header.totalSize b.header.version b.header.lastCompatible)
  b.validate
  let config ← Config.discover b
  Observed.tellAll (config.memoryRegions.toList.map fun r => .memoryFound r.address.toNat r.stop)
  return config

/-- Boots from the blob at the start of these bytes. An error is what the machine halts with. -/
def fromBytes (b : Bytes) : Observed Config :=
  (probe (Blob.ofBytes b)).tellHalt

/-- Boots from the blob in memory at a pointer, `none` for the null pointer. -/
def fromMemory (memory : Option Bytes) : Observed Config :=
  (probe (Blob.ofMemory memory)).tellHalt

end Boot

end Devicetree
