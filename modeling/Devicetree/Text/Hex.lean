/-!
# Hexadecimal numerals

Offsets and addresses are written in lower case hexadecimal after `0x`, a 32-bit word with all of
its eight digits. `exists_pair` says which two digits are written for a byte.
-/

namespace Devicetree

namespace Hex

/-- The digits of `n` in base sixteen, without leading zeros. -/
def digits (n : Nat) : List Char :=
  Nat.toDigits 16 n

/-- The low eight bits of `n` as two digits. -/
def pair (n : Nat) : List Char :=
  [Nat.digitChar (n / 16 % 16), Nat.digitChar (n % 16)]

/-- The digits of base sixteen in lower case, each at the place of its value. -/
def lower : List Char :=
  ['0', '1', '2', '3', '4', '5', '6', '7', '8', '9', 'a', 'b', 'c', 'd', 'e', 'f']

theorem lower_getElem? {n : Nat} (h : n < 16) : lower[n]? = some (Nat.digitChar n) :=
  (by decide : ∀ n < 16, lower[n]? = some (Nat.digitChar n)) n h

theorem exists_pair {n : Nat} (h : n < 256) : ∃ high low, pair n = [high, low] ∧
    lower[n / 16]? = some high ∧ lower[n % 16]? = some low := by
  have hhigh : n / 16 < 16 := by omega
  have hlow : n % 16 < 16 := Nat.mod_lt n (by decide)
  refine ⟨_, _, rfl, ?_, lower_getElem? hlow⟩
  rw [Nat.mod_eq_of_lt hhigh]
  exact lower_getElem? hhigh

/-- A number as `0x` and as few digits as it needs. -/
def numeral (n : Nat) : String :=
  "0x" ++ String.ofList (digits n)

/-- A word as `0x` and eight digits. -/
def word (w : UInt32) : String :=
  "0x" ++ String.ofList ((digits w.toNat).leftpad 8 '0')

end Hex

end Devicetree
