import Devicetree.Text.Hex
import Devicetree.Text.Utf8

/-!
# Errors

Every condition under which a blob cannot be trusted or a machine cannot be booted, by its cause.
`Error.message` puts a cause into words. A lookup that finds nothing is not an error.
-/

namespace Devicetree

inductive BadParameter where
  | nullPointer
  | cellCount
  deriving DecidableEq, Repr

/-- How a structure block breaks the rules of nesting and of tokens. -/
inductive Defect where
  | unalignedBlock
  | endOfBlock
  | unknownToken
  | endNodeWithoutBeginNode
  | endInsideNode
  | bodyWithoutEndNode
  | blockWithoutEnd
  deriving DecidableEq, Repr

/-- Why a well formed tree describes a machine that cannot be booted. -/
inductive Unsupported where
  | cellCountsMissing
  | cellCountNotSingle
  | addressWidth
  | sizeWidth
  | reservedCellCounts
  | reservedRanges
  | noMemoryNode
  | noDeviceType
  | deviceType
  | noReg
  | regNotPairs
  deriving DecidableEq, Repr

inductive Error where
  | invalidParameter (what : BadParameter)
  /-- The blob starts with `found` in the place of the magic number. -/
  | badMagic (found : UInt32)
  /-- The structure block is malformed at `offset`. -/
  | malformed (offset : Nat) (defect : Defect)
  /-- A read of `length` bytes at `offset` leaves the region it is confined to. -/
  | outOfRegion (offset length : Nat)
  | unsupported (reason : Unsupported)
  | notText (fault : Utf8.Fault)
  deriving DecidableEq, Repr

def BadParameter.message : BadParameter → String
  | .nullPointer => "null device tree pointer"
  | .cellCount => "cell count must be 1 or 2"

def Defect.message : Defect → String
  | .unalignedBlock => "structure block is not 32-bit aligned"
  | .endOfBlock => "structure block ended before the END token"
  | .unknownToken => "unknown structure token"
  | .endNodeWithoutBeginNode => "END_NODE without a matching BEGIN_NODE"
  | .endInsideNode => "END token inside an open node"
  | .bodyWithoutEndNode => "node body ended without END_NODE"
  | .blockWithoutEnd => "structure ended without an END token"

def Unsupported.message : Unsupported → String
  | .cellCountsMissing => "root node lacks #address-cells or #size-cells"
  | .cellCountNotSingle => "cell count property is not a single cell"
  | .addressWidth => "only 64-bit addressing is supported"
  | .sizeWidth => "#size-cells differs from #address-cells"
  | .reservedCellCounts => "/reserved-memory cell counts differ from the root node"
  | .reservedRanges => "/reserved-memory ranges must be empty"
  | .noMemoryNode => "no memory node"
  | .noDeviceType => "memory node has no device_type"
  | .deviceType => "memory node device_type is not \"memory\""
  | .noReg => "memory node has no reg"
  | .regNotPairs => "memory reg is not a list of (address, size) pairs"

namespace Error

def message : Error → String
  | .invalidParameter what => "Invalid parameter supplied: " ++ what.message
  | .badMagic found => "Device tree contains invalid magic number " ++ Hex.word found ++ "."
  | .malformed offset defect =>
    "Malformed structure block at offset " ++ Hex.numeral offset ++ ": " ++ defect.message
  | .outOfRegion offset length =>
    "Read of " ++ toString length ++ " bytes at offset " ++ Hex.numeral offset
      ++ " exceeds its region."
  | .unsupported reason => "Unsupported configuration: " ++ reason.message
  | .notText fault => "Failed to parse device tree string: " ++ fault.message

end Error

/-- Goes on if `p` holds and stops with `e` if not. -/
def require (p : Prop) [Decidable p] (e : Error) : Except Error Unit :=
  if p then .ok () else .error e

@[simp]
theorem require_eq_ok_iff {p : Prop} [Decidable p] {e : Error} {u : Unit} :
    require p e = .ok u ↔ p := by
  simp [require]

@[simp]
theorem require_eq_error_iff {p : Prop} [Decidable p] {e e' : Error} :
    require p e = .error e' ↔ ¬ p ∧ e = e' := by
  by_cases h : p <;> simp [require, h]

/-- Goes on with the value if there is one and stops with `e` if not. -/
def valueOr {α : Type} (e : Error) : Option α → Except Error α
  | some a => .ok a
  | none => .error e

@[simp]
theorem valueOr_some {α : Type} (e : Error) (a : α) : valueOr e (some a) = .ok a := rfl

@[simp]
theorem valueOr_none {α : Type} (e : Error) : valueOr e (none : Option α) = .error e := rfl

theorem valueOr_eq_ok_iff {α : Type} {e : Error} {o : Option α} {a : α} :
    valueOr e o = .ok a ↔ o = some a := by
  cases o <;> simp

theorem valueOr_eq_error_iff {α : Type} {e e' : Error} {o : Option α} :
    valueOr e o = .error e' ↔ o = none ∧ e = e' := by
  cases o <;> simp

theorem ok_bind {α β : Type} (a : α) (f : α → Except Error β) : .ok a >>= f = f a := rfl

theorem error_bind {α β : Type} (e : Error) (f : α → Except Error β) :
    .error e >>= f = .error e := rfl

theorem bind_eq_ok_iff {α β : Type} {x : Except Error α} {f : α → Except Error β} {r : β} :
    x >>= f = .ok r ↔ ∃ a, x = .ok a ∧ f a = .ok r := by
  cases x <;> simp [bind, Except.bind]

theorem bind_eq_error_iff {α β : Type} {x : Except Error α} {f : α → Except Error β}
    {e : Error} : x >>= f = .error e ↔ x = .error e ∨ ∃ a, x = .ok a ∧ f a = .error e := by
  cases x <;> simp [bind, Except.bind]

end Devicetree
