import Devicetree.Bytes

/-!
# Big-endian numbers

Every number in a blob is stored with its most significant byte first. `value` reads a number of
any width and `encode` writes one. `value_encode` says that what is written reads back, reduced to
the width it was written in, and `encode_value` that what is read is written back. Numbers that are
written one behind the other are one number (`encode_append`).
-/

namespace Devicetree

namespace BigEndian

/-- The number that the bytes spell, most significant byte first. -/
def value (b : Bytes) : Nat :=
  b.foldl (fun n c => n * 256 + c.toNat) 0

/-- The low `width` bytes of a number, most significant byte first. -/
def encode : (width : Nat) → Nat → Bytes
  | 0, _ => []
  | width + 1, n => encode width (n / 256) ++ [UInt8.ofNat (n % 256)]

/-- The least number that needs more than `width` bytes. -/
def limit : (width : Nat) → Nat
  | 0 => 1
  | width + 1 => 256 * limit width

@[simp]
theorem length_encode (width n : Nat) : (encode width n).length = width := by
  induction width generalizing n with
  | zero => rfl
  | succ width ih => simp [encode, ih]

theorem value_append_singleton (b : Bytes) (c : UInt8) :
    value (b ++ [c]) = value b * 256 + c.toNat := by
  simp [value]

theorem value_encode (width n : Nat) : value (encode width n) = n % limit width := by
  induction width generalizing n with
  | zero => simp [encode, value, limit, Nat.mod_one]
  | succ width ih =>
    rw [encode, value_append_singleton, ih, limit, Nat.mod_mul]
    simp
    omega

theorem value_lt (b : Bytes) : value b < limit b.length := by
  suffices h : ∀ n, b.foldl (fun n c => n * 256 + c.toNat) n < (n + 1) * limit b.length by
    simpa [value] using h 0
  induction b with
  | nil => simp [limit]
  | cons c b ih =>
    intro n
    refine Nat.lt_of_lt_of_le (ih (n * 256 + c.toNat)) ?_
    rw [List.length_cons, limit, ← Nat.mul_assoc]
    have := c.toNat_lt
    exact Nat.mul_le_mul_right _ (by omega)

theorem value_lt_of_length {width : Nat} {b : Bytes} (h : b.length = width) :
    value b < limit width :=
  h ▸ value_lt b

theorem value_encode_of_lt {width n : Nat} (h : n < limit width) : value (encode width n) = n := by
  rw [value_encode, Nat.mod_eq_of_lt h]

theorem encode_value (b : Bytes) : encode b.length (value b) = b := by
  suffices h : ∀ b : Bytes, encode b.reverse.length (value b.reverse) = b.reverse by
    simpa using h b.reverse
  intro b
  induction b with
  | nil => rfl
  | cons c b ih =>
    have hc := c.toNat_lt
    rw [List.reverse_cons, List.length_append, List.length_singleton, encode,
      value_append_singleton, show (value b.reverse * 256 + c.toNat) / 256 = value b.reverse by
        omega, ih, show (value b.reverse * 256 + c.toNat) % 256 = c.toNat by omega,
      UInt8.ofNat_toNat]

/-- Two numbers that are written one behind the other are one number: the second in its low bytes and
the first in those above. -/
theorem encode_append {m n k l : Nat} (h : l < limit n) :
    encode m k ++ encode n l = encode (m + n) (k * limit n + l) := by
  induction n generalizing l with
  | zero =>
    obtain rfl : l = 0 := Nat.lt_one_iff.1 h
    simp [encode, limit]
  | succ n ih =>
    rw [limit] at h ⊢
    have hdiv : (k * (256 * limit n) + l) / 256 = k * limit n + l / 256 := by
      rw [Nat.mul_left_comm, Nat.mul_add_div (by decide)]
    have hmod : (k * (256 * limit n) + l) % 256 = l % 256 := by
      rw [Nat.mul_left_comm, Nat.mul_add_mod]
    rw [encode, ← List.append_assoc, ih (Nat.div_lt_of_lt_mul h), Nat.add_succ, encode, hdiv, hmod]

/-- The 32-bit number that four bytes spell. -/
def word (b : Bytes) : UInt32 :=
  UInt32.ofNat (value b)

/-- The 64-bit number that eight bytes spell. -/
def doubleWord (b : Bytes) : UInt64 :=
  UInt64.ofNat (value b)

def encodeWord (w : UInt32) : Bytes :=
  encode 4 w.toNat

@[simp]
theorem length_encodeWord (w : UInt32) : (encodeWord w).length = 4 :=
  length_encode 4 _

theorem encodeWord_word {b : Bytes} (h : b.length = 4) : encodeWord (word b) = b := by
  rw [encodeWord, word, UInt32.toNat_ofNat_of_lt' (value_lt_of_length h), ← h, encode_value]

@[simp]
theorem word_encodeWord (w : UInt32) : word (encodeWord w) = w := by
  rw [word, encodeWord, value_encode_of_lt w.toNat_lt, UInt32.ofNat_toNat]

theorem encode_doubleWord {b : Bytes} (h : b.length = 8) : encode 8 (doubleWord b).toNat = b := by
  rw [doubleWord, UInt64.toNat_ofNat_of_lt' (value_lt_of_length h), ← h, encode_value]

theorem doubleWord_encode (w : UInt64) : doubleWord (encode 8 w.toNat) = w := by
  rw [doubleWord, value_encode_of_lt w.toNat_lt, UInt64.ofNat_toNat]

/-- Two words in a row are a number of 64 bits, the first its high half. -/
theorem exists_encodeWord_append_eq (high low : UInt32) :
    ∃ w : UInt64, encodeWord high ++ encodeWord low = encode 8 w.toNat ∧
      w.toNat = high.toNat * UInt32.size + low.toNat := by
  have hhigh := high.toNat_lt
  have hlow := low.toNat_lt
  have hw : (UInt64.ofNat (high.toNat * UInt32.size + low.toNat)).toNat =
      high.toNat * UInt32.size + low.toNat :=
    UInt64.toNat_ofNat_of_lt' (by rw [UInt32.size, UInt64.size]; omega)
  refine ⟨_, ?_, hw⟩
  rw [hw]
  exact encode_append (m := 4) (n := 4) hlow

end BigEndian

end Devicetree
