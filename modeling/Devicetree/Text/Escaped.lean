import Devicetree.Bytes
import Devicetree.Text.Hex

/-!
# Escaped names

Names come from the blob, so they may hold any byte. In messages a printable ASCII byte stands for
itself and any other byte is written `\xNN`: a name can neither end a line nor move the cursor of a
terminal. `byte_of_printable` and `byte_of_not_printable` say what each byte becomes, and
`name_printable` that nothing but printable ASCII is written.
-/

namespace Devicetree

namespace Escaped

/-- The characters that a byte is shown as. -/
def byte (c : UInt8) : List Char :=
  if 0x20 ≤ c ∧ c ≤ 0x7e then [Char.ofUInt8 c] else '\\' :: 'x' :: Hex.pair c.toNat

/-- A name as it is shown in messages. -/
def name (b : Bytes) : String :=
  String.ofList (b.flatMap byte)

theorem toList_name (b : Bytes) : (name b).toList = b.flatMap byte :=
  String.toList_ofList

theorem printable_iff {c : UInt8} : 0x20 ≤ c ∧ c ≤ 0x7e ↔ 0x20 ≤ c.toNat ∧ c.toNat ≤ 0x7e := by
  rw [UInt8.le_iff_toNat_le, UInt8.le_iff_toNat_le]
  rfl

theorem byte_of_printable {c : UInt8} (h : 0x20 ≤ c.toNat ∧ c.toNat ≤ 0x7e) :
    ∃ d : Char, byte c = [d] ∧ d.toNat = c.toNat :=
  ⟨Char.ofUInt8 c, if_pos (printable_iff.2 h), rfl⟩

theorem byte_of_not_printable {c : UInt8} (h : ¬ (0x20 ≤ c.toNat ∧ c.toNat ≤ 0x7e)) :
    ∃ high low, byte c = ['\\', 'x', high, low] ∧ Hex.lower[c.toNat / 16]? = some high ∧
      Hex.lower[c.toNat % 16]? = some low := by
  obtain ⟨high, low, hp, hdigits⟩ := Hex.exists_pair c.toNat_lt
  refine ⟨high, low, ?_, hdigits⟩
  rw [byte, if_neg (mt printable_iff.1 h), hp]

/-- The characters from the space to the tilde. -/
def IsPrintable (c : Char) : Prop :=
  0x20 ≤ c.toNat ∧ c.toNat ≤ 0x7e

instance (c : Char) : Decidable (IsPrintable c) :=
  inferInstanceAs (Decidable (_ ∧ _))

theorem lower_printable : ∀ d ∈ Hex.lower, IsPrintable d := by
  have hall : Hex.lower.all (fun d => decide (IsPrintable d)) = true := rfl
  exact fun d hd => of_decide_eq_true (List.all_eq_true.1 hall d hd)

theorem byte_printable (c : UInt8) : ∀ d ∈ byte c, IsPrintable d := by
  by_cases h : 0x20 ≤ c.toNat ∧ c.toNat ≤ 0x7e
  · obtain ⟨d, hb, hd⟩ := byte_of_printable h
    rw [hb]
    intro d' hd'
    rw [List.mem_singleton.1 hd', IsPrintable, hd]
    exact h
  · obtain ⟨high, low, hb, hhigh, hlow⟩ := byte_of_not_printable h
    rw [hb]
    intro d hd
    simp only [List.mem_cons, List.not_mem_nil, or_false] at hd
    rcases hd with rfl | rfl | rfl | rfl
    · decide
    · decide
    · exact lower_printable _ (List.mem_of_getElem? hhigh)
    · exact lower_printable _ (List.mem_of_getElem? hlow)

theorem name_printable (b : Bytes) : ∀ d ∈ (name b).toList, IsPrintable d := by
  intro d hd
  rw [toList_name, List.mem_flatMap] at hd
  obtain ⟨c, -, hc⟩ := hd
  exact byte_printable c d hc

end Escaped

end Devicetree
