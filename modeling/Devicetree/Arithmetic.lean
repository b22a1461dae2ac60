/-!
# Arithmetic with words

Offsets are words of 64 bits. An operation on them wraps around or, where it is checked, refuses a
result that is no word. A `Calculation` can be carried out with words and with unbounded numbers,
and it keeps what its unchecked operations come to. It is `Exact` if none of these is too large for
a word, and so both ways give the same. A sequence of exact steps is exact (`Exact.bind`).
-/

namespace Devicetree

/-- A way to calculate with numbers that are not negative. -/
structure Arithmetic where
  add : Nat → Nat → Nat
  sub : Nat → Nat → Nat
  mul : Nat → Nat → Nat
  /-- The checked addition. -/
  add? : Nat → Nat → Option Nat

namespace Arithmetic

def unbounded : Arithmetic where
  add a b := a + b
  sub a b := a - b
  mul a b := a * b
  add? a b := some (a + b)

def word : Arithmetic where
  add a b := (UInt64.ofNat a + UInt64.ofNat b).toNat
  sub a b := (UInt64.ofNat a - UInt64.ofNat b).toNat
  mul a b := (UInt64.ofNat a * UInt64.ofNat b).toNat
  add? a b := if a + b < UInt64.size then some (a + b) else none

variable {a b : Nat}

theorem word_add (h : a + b < UInt64.size) : word.add a b = a + b := by
  have ha : a < UInt64.size := by omega
  have hb : b < UInt64.size := by omega
  show (UInt64.ofNat a + UInt64.ofNat b).toNat = a + b
  rw [UInt64.toNat_add, UInt64.toNat_ofNat_of_lt' ha, UInt64.toNat_ofNat_of_lt' hb]
  exact Nat.mod_eq_of_lt h

theorem word_sub (hb : b ≤ a) (ha : a < UInt64.size) : word.sub a b = a - b := by
  have hb' : b < UInt64.size := by omega
  have hle : UInt64.ofNat b ≤ UInt64.ofNat a := by
    rwa [UInt64.le_iff_toNat_le, UInt64.toNat_ofNat_of_lt' ha, UInt64.toNat_ofNat_of_lt' hb']
  show (UInt64.ofNat a - UInt64.ofNat b).toNat = a - b
  rw [UInt64.toNat_sub_of_le _ _ hle, UInt64.toNat_ofNat_of_lt' ha, UInt64.toNat_ofNat_of_lt' hb']

theorem word_mul (ha : a < UInt64.size) (hb : b < UInt64.size) (h : a * b < UInt64.size) :
    word.mul a b = a * b := by
  show (UInt64.ofNat a * UInt64.ofNat b).toNat = a * b
  rw [UInt64.toNat_mul, UInt64.toNat_ofNat_of_lt' ha, UInt64.toNat_ofNat_of_lt' hb]
  exact Nat.mod_eq_of_lt h

end Arithmetic

/-- What there is to calculate: its value in an arithmetic, with the numbers that the additions and
multiplications ought to give which are not checked. -/
def Calculation (α : Type) : Type :=
  Arithmetic → α × List Nat

namespace Calculation

variable {α β : Type} {x : Calculation α} {a : α}

instance : Monad Calculation where
  pure a := fun _ => (a, [])
  bind x f := fun m => ((f (x m).1 m).1, (x m).2 ++ (f (x m).1 m).2)

def sum (a b : Nat) : Calculation Nat :=
  fun m => (m.add a b, [a + b])

def difference (a b : Nat) : Calculation Nat :=
  fun m => (m.sub a b, [])

def product (a b : Nat) : Calculation Nat :=
  fun m => (m.mul a b, [a * b])

def sum? (a b : Nat) : Calculation (Option Nat) :=
  fun m => (m.add? a b, [])

/-- Whether a calculation comes to a value without wrapping around. -/
structure Exact (x : Calculation α) (a : α) : Prop where
  value : (x .unbounded).1 = a
  word : x .word = x .unbounded
  /-- Each unchecked addition and multiplication gives a word. -/
  fits : ∀ n ∈ (x .unbounded).2, n < UInt64.size

theorem Exact.eq_of_word (h : x.Exact a) : (x .word).1 = a := by
  rw [h.word]
  exact h.value

theorem Exact.pure (a : α) : (Pure.pure a : Calculation α).Exact a where
  value := rfl
  word := rfl
  fits := nofun

theorem Exact.bind {f : α → Calculation β} {b : β} (hx : x.Exact a) (hf : (f a).Exact b) :
    (x >>= f).Exact b where
  value := by
    rw [← hx.value] at hf
    exact hf.value
  word := by
    rw [← hx.value] at hf
    simp only [Bind.bind, hx.word, hf.word]
  fits := by
    rw [← hx.value] at hf
    intro n hn
    exact (List.mem_append.1 hn).elim (hx.fits n) (hf.fits n)

theorem exact_sum {a b : Nat} (h : a + b < UInt64.size) : (sum a b).Exact (a + b) where
  value := rfl
  word := Prod.ext (Arithmetic.word_add h) rfl
  fits _ hn := List.mem_singleton.1 hn ▸ h

theorem exact_difference {a b : Nat} (hb : b ≤ a) (ha : a < UInt64.size) :
    (difference a b).Exact (a - b) where
  value := rfl
  word := Prod.ext (Arithmetic.word_sub hb ha) rfl
  fits := nofun

theorem exact_product {a b : Nat} (ha : a < UInt64.size) (hb : b < UInt64.size)
    (h : a * b < UInt64.size) : (product a b).Exact (a * b) where
  value := rfl
  word := Prod.ext (Arithmetic.word_mul ha hb h) rfl
  fits _ hn := List.mem_singleton.1 hn ▸ h

theorem exact_sum? {a b : Nat} (h : a + b < UInt64.size) : (sum? a b).Exact (some (a + b)) where
  value := rfl
  word := Prod.ext (if_pos h) rfl
  fits := nofun

end Calculation

end Devicetree
