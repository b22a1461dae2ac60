import Devicetree.Text.Utf8
import Mathlib.Tactic.SplitIfs

/-!
# Decoding text

The lead byte of a character and the ranges of the bytes that have to follow are one description of
UTF-8, and the encoding of characters as code points cut into groups of six bits is another. The two
agree: what an encoded character is read as is the character (`exists_lead_follow`), and what is
read as a character is its encoding (`of_lead_follow`). So decoding succeeds exactly on the bytes of
a text (`decode_eq_ok_iff`).

On other bytes the fault is in the first place where no character can be read. The bytes to blame
are those that begin a character up to the one that no character goes on with. This determines the
fault (`Fault.Blames.unique`), and it is the one that decoding gives (`decode_eq_error_iff`).
-/

namespace Devicetree

namespace Utf8

/-! ## Lead bytes -/

section

variable {c : UInt8}

theorem lead?_one (h : c.toNat < 0x80) : lead? c = some (c.toNat, []) := by
  simp [lead?, UInt8.lt_iff_toNat_lt, h]

theorem lead?_two (h : 0xc2 ≤ c.toNat) (h' : c.toNat < 0xe0) :
    lead? c = some (c.toNat - 0xc0, [(0x80, 0xbf)]) := by
  simp only [lead?, UInt8.lt_iff_toNat_lt, UInt8.reduceToNat]
  rw [if_neg (by omega), if_neg (by omega), if_pos h']

/-- The second of three bytes keeps out what two bytes can spell, and the surrogates. -/
theorem lead?_three (h : 0xe0 ≤ c.toNat) (h' : c.toNat < 0xf0) :
    lead? c = some (c.toNat - 0xe0, [(if c.toNat = 0xe0 then 0xa0 else 0x80,
      if c.toNat = 0xed then 0x9f else 0xbf), (0x80, 0xbf)]) := by
  simp only [lead?, UInt8.lt_iff_toNat_lt, ← UInt8.toNat_inj, UInt8.reduceToNat]
  rw [if_neg (by omega), if_neg (by omega), if_neg (by omega)]
  by_cases h₁ : c.toNat = 0xe0
  · simp [h₁]
  · by_cases h₂ : c.toNat = 0xed
    · simp [h₂]
    · simp only [if_neg h₁, if_neg h₂, if_pos h']

/-- The second of four bytes keeps out what three bytes can spell, and what no character is. -/
theorem lead?_four (h : 0xf0 ≤ c.toNat) (h' : c.toNat < 0xf5) :
    lead? c = some (c.toNat - 0xf0, [(if c.toNat = 0xf0 then 0x90 else 0x80,
      if c.toNat = 0xf4 then 0x8f else 0xbf), (0x80, 0xbf), (0x80, 0xbf)]) := by
  simp only [lead?, UInt8.lt_iff_toNat_lt, ← UInt8.toNat_inj, UInt8.reduceToNat]
  rw [if_neg (by omega), if_neg (by omega), if_neg (by omega), if_neg (by omega),
    if_neg (by omega), if_neg (by omega)]
  by_cases h₁ : c.toNat = 0xf0
  · simp [h₁]
  · by_cases h₂ : c.toNat = 0xf4
    · simp [h₂]
    · simp only [if_neg h₁, if_neg h₂, if_pos (show c.toNat < 0xf4 by omega)]

theorem lead?_none (h : 0x80 ≤ c.toNat) (h' : c.toNat < 0xc2 ∨ 0xf5 ≤ c.toNat) :
    lead? c = none := by
  simp only [lead?, UInt8.lt_iff_toNat_lt, ← UInt8.toNat_inj, UInt8.reduceToNat]
  rcases h' with h' | h'
  · rw [if_neg (by omega), if_pos h']
  · rw [if_neg (by omega), if_neg (by omega), if_neg (by omega), if_neg (by omega),
      if_neg (by omega), if_neg (by omega), if_neg (by omega), if_neg (by omega),
      if_neg (by omega)]

theorem range_nonempty {point : Nat} {ranges : List (UInt8 × UInt8)}
    (h : lead? c = some (point, ranges)) : ∀ r ∈ ranges, r.1 ≤ r.2 := by
  unfold lead? at h
  split_ifs at h <;> simp only [Option.some.injEq, Prod.mk.injEq] at h <;> obtain ⟨-, rfl⟩ := h
  all_goals simp

end

/-! ## An encoded character is read -/

theorem follow_cons {least greatest : UInt8} (ranges : List (UInt8 × UInt8)) (read point n : Nat)
    (b : Bytes) (h : least.toNat ≤ n % 64 + 128) (h' : n % 64 + 128 ≤ greatest.toNat) :
    follow ((least, greatest) :: ranges) read point (UInt8.ofNat (n % 64 + 128) :: b) =
      follow ranges (read + 1) (point * 64 + n % 64) b := by
  have hc : (UInt8.ofNat (n % 64 + 128)).toNat = n % 64 + 128 := by
    simp only [UInt8.toNat_ofNat']
    omega
  rw [follow, if_pos (by rw [UInt8.le_iff_toNat_le, UInt8.le_iff_toNat_le, hc]; exact ⟨h, h'⟩),
    hc, Nat.add_sub_cancel]

theorem follow_any (ranges : List (UInt8 × UInt8)) (read point n : Nat) (b : Bytes) :
    follow ((0x80, 0xbf) :: ranges) read point (UInt8.ofNat (n % 64 + 128) :: b) =
      follow ranges (read + 1) (point * 64 + n % 64) b :=
  follow_cons ranges read point n b (Nat.le_add_left _ _)
    (by simp only [UInt8.reduceToNat]; omega)

/-- An encoded character is a lead byte and the bytes that it asks for, in each of the four lengths
that there are. -/
theorem exists_lead_follow (c : Char) : ∃ lead tail point ranges,
    String.utf8EncodeChar c = lead :: tail ∧ lead? lead = some (point, ranges) ∧
      tail.length = ranges.length ∧ ∀ b, follow ranges 1 point (tail ++ b) = .ok (c.toNat, b) := by
  have hv : c.val.toNat < 0xd800 ∨ 0xdfff < c.val.toNat ∧ c.val.toNat < 0x110000 := c.valid
  rw [show c.toNat = c.val.toNat from rfl]
  simp only [String.utf8EncodeChar]
  generalize c.val.toNat = n at hv
  split_ifs with h₁ h₂ h₃
  · have hl : (UInt8.ofNat n).toNat = n :=
      UInt8.toNat_ofNat_of_lt' (Nat.lt_of_le_of_lt h₁ (by decide))
    exact ⟨_, _, _, _, rfl, lead?_one (by omega), rfl, fun b => by rw [hl]; rfl⟩
  · have hl : (UInt8.ofNat (n / 64 % 32 + 192)).toNat = n / 64 + 192 := by
      simp only [UInt8.toNat_ofNat']
      omega
    refine ⟨_, _, _, _, rfl, lead?_two (by omega) (by omega), rfl, fun b => ?_⟩
    rw [List.singleton_append, follow_any, follow, hl]
    congr 2
    omega
  · have hl : (UInt8.ofNat (n / 4096 % 16 + 224)).toNat = n / 4096 + 224 := by
      simp only [UInt8.toNat_ofNat']
      omega
    refine ⟨_, _, _, _, rfl, lead?_three (by omega) (by omega), rfl, fun b => ?_⟩
    rw [List.cons_append, List.singleton_append, hl, follow_cons, follow_any, follow]
    · congr 2
      omega
    · split_ifs <;> simp only [UInt8.reduceToNat] <;> omega
    · split_ifs <;> simp only [UInt8.reduceToNat] <;> omega
  · have hl : (UInt8.ofNat (n / 262144 % 8 + 240)).toNat = n / 262144 + 240 := by
      simp only [UInt8.toNat_ofNat']
      omega
    refine ⟨_, _, _, _, rfl, lead?_four (by omega) (by omega), rfl, fun b => ?_⟩
    rw [List.cons_append, List.cons_append, List.singleton_append, hl, follow_cons, follow_any,
      follow_any, follow]
    · congr 2
      omega
    · split_ifs <;> simp only [UInt8.reduceToNat] <;> omega
    · split_ifs <;> simp only [UInt8.reduceToNat] <;> omega

/-! ## What is read is an encoded character -/

theorem of_follow_cons {least greatest : UInt8} {ranges : List (UInt8 × UInt8)}
    {read point n : Nat} {b b' : Bytes}
    (h : follow ((least, greatest) :: ranges) read point b = .ok (n, b')) :
    ∃ x t, b = x :: t ∧ least.toNat ≤ x.toNat ∧ x.toNat ≤ greatest.toNat ∧
      follow ranges (read + 1) (point * 64 + (x.toNat - 0x80)) t = .ok (n, b') := by
  cases b with
  | nil => simp [follow] at h
  | cons x t =>
    rw [follow] at h
    split_ifs at h with hx
    exact ⟨x, t, rfl, UInt8.le_iff_toNat_le.1 hx.1, UInt8.le_iff_toNat_le.1 hx.2, h⟩

theorem exists_char {n : Nat} (h : n < 0xd800 ∨ 0xdfff < n ∧ n < 0x110000) :
    ∃ c : Char, c.val.toNat = n :=
  ⟨Char.ofNat n, by rw [Char.ofNat, dif_pos h]; rfl⟩

theorem ofNat_eq {x : UInt8} {n : Nat} (h : n = x.toNat) : UInt8.ofNat n = x := by
  rw [h, UInt8.ofNat_toNat]

section

variable {lead : UInt8} {point n : Nat} {ranges : List (UInt8 × UInt8)} {b b' : Bytes}
  (hl : lead? lead = some (point, ranges)) (hf : follow ranges 1 point b = .ok (n, b'))
include hl hf

theorem of_lead_one (h : lead.toNat < 0x80) :
    ∃ c : Char, lead :: b = String.utf8EncodeChar c ++ b' := by
  rw [lead?_one h] at hl
  simp only [Option.some.injEq, Prod.mk.injEq] at hl
  obtain ⟨rfl, rfl⟩ := hl
  simp only [follow, Except.ok.injEq, Prod.mk.injEq] at hf
  obtain ⟨rfl, rfl⟩ := hf
  obtain ⟨c, hc⟩ := exists_char (n := lead.toNat) (by omega)
  refine ⟨c, ?_⟩
  simp only [String.utf8EncodeChar, hc]
  rw [if_pos (by omega), UInt8.ofNat_toNat]
  rfl

theorem of_lead_two (h : 0xc2 ≤ lead.toNat) (h' : lead.toNat < 0xe0) :
    ∃ c : Char, lead :: b = String.utf8EncodeChar c ++ b' := by
  rw [lead?_two h h'] at hl
  simp only [Option.some.injEq, Prod.mk.injEq] at hl
  obtain ⟨rfl, rfl⟩ := hl
  obtain ⟨x, t, rfl, hx, hx', hf⟩ := of_follow_cons hf
  simp only [follow, Except.ok.injEq, Prod.mk.injEq] at hf
  obtain ⟨hn, rfl⟩ := hf
  simp only [UInt8.reduceToNat] at hx hx'
  obtain ⟨c, hc⟩ := exists_char (n := n) (by omega)
  refine ⟨c, ?_⟩
  simp only [String.utf8EncodeChar, hc]
  rw [if_neg (by omega), if_pos (by omega), ofNat_eq (x := lead) (by omega),
    ofNat_eq (x := x) (by omega)]
  rfl

theorem of_lead_three (h : 0xe0 ≤ lead.toNat) (h' : lead.toNat < 0xf0) :
    ∃ c : Char, lead :: b = String.utf8EncodeChar c ++ b' := by
  rw [lead?_three h h'] at hl
  simp only [Option.some.injEq, Prod.mk.injEq] at hl
  obtain ⟨rfl, rfl⟩ := hl
  obtain ⟨x, t, rfl, hx, hx', hf⟩ := of_follow_cons hf
  obtain ⟨y, t, rfl, hy, hy', hf⟩ := of_follow_cons hf
  simp only [follow, Except.ok.injEq, Prod.mk.injEq] at hf
  obtain ⟨hn, rfl⟩ := hf
  simp only [apply_ite UInt8.toNat, UInt8.reduceToNat] at hx hx' hy hy'
  have hrange : 0x80 ≤ x.toNat ∧ x.toNat ≤ 0xbf ∧ (lead.toNat = 0xe0 → 0xa0 ≤ x.toNat) ∧
      (lead.toNat = 0xed → x.toNat ≤ 0x9f) := by
    split_ifs at hx hx' <;> omega
  clear hx hx'
  obtain ⟨c, hc⟩ := exists_char (n := n) (by omega)
  refine ⟨c, ?_⟩
  simp only [String.utf8EncodeChar, hc]
  rw [if_neg (by omega), if_neg (by omega), if_pos (by omega), ofNat_eq (x := lead) (by omega),
    ofNat_eq (x := x) (by omega), ofNat_eq (x := y) (by omega)]
  rfl

theorem of_lead_four (h : 0xf0 ≤ lead.toNat) (h' : lead.toNat < 0xf5) :
    ∃ c : Char, lead :: b = String.utf8EncodeChar c ++ b' := by
  rw [lead?_four h h'] at hl
  simp only [Option.some.injEq, Prod.mk.injEq] at hl
  obtain ⟨rfl, rfl⟩ := hl
  obtain ⟨x, t, rfl, hx, hx', hf⟩ := of_follow_cons hf
  obtain ⟨y, t, rfl, hy, hy', hf⟩ := of_follow_cons hf
  obtain ⟨z, t, rfl, hz, hz', hf⟩ := of_follow_cons hf
  simp only [follow, Except.ok.injEq, Prod.mk.injEq] at hf
  obtain ⟨hn, rfl⟩ := hf
  simp only [apply_ite UInt8.toNat, UInt8.reduceToNat] at hx hx' hy hy' hz hz'
  have hrange : 0x80 ≤ x.toNat ∧ x.toNat ≤ 0xbf ∧ (lead.toNat = 0xf0 → 0x90 ≤ x.toNat) ∧
      (lead.toNat = 0xf4 → x.toNat ≤ 0x8f) := by
    split_ifs at hx hx' <;> omega
  clear hx hx'
  obtain ⟨c, hc⟩ := exists_char (n := n) (by omega)
  refine ⟨c, ?_⟩
  simp only [String.utf8EncodeChar, hc]
  rw [if_neg (by omega), if_neg (by omega), if_neg (by omega), ofNat_eq (x := lead) (by omega),
    ofNat_eq (x := x) (by omega), ofNat_eq (x := y) (by omega), ofNat_eq (x := z) (by omega)]
  rfl

theorem of_lead_follow : ∃ c : Char, lead :: b = String.utf8EncodeChar c ++ b' := by
  rcases Nat.lt_or_ge lead.toNat 0x80 with h₁ | h₁
  · exact of_lead_one hl hf h₁
  rcases Nat.lt_or_ge lead.toNat 0xc2 with h₂ | h₂
  · rw [lead?_none h₁ (.inl h₂)] at hl
    cases hl
  rcases Nat.lt_or_ge lead.toNat 0xe0 with h₃ | h₃
  · exact of_lead_two hl hf h₂ h₃
  rcases Nat.lt_or_ge lead.toNat 0xf0 with h₄ | h₄
  · exact of_lead_three hl hf h₃ h₄
  rcases Nat.lt_or_ge lead.toNat 0xf5 with h₅ | h₅
  · exact of_lead_four hl hf h₄ h₅
  · rw [lead?_none h₁ (.inr h₅)] at hl
    cases hl

end

/-! ## Where reading stops -/

/-- Whether bytes are how the encoding of a character begins. -/
def Begins (b : Bytes) : Prop :=
  ∃ c : Char, b <+: String.utf8EncodeChar c

/-- Whether bytes do not go on with a character: they end inside of one, or the first `n` of them
are to blame, which begin a character unless the first byte already begins none, and no character
begins with one byte more. -/
def Blocks (b : Bytes) : Option Nat → Prop
  | none => b ≠ [] ∧ Begins b
  | some n => 0 < n ∧ (1 < n → Begins (b.take n)) ∧ ¬ Begins (b.take (n + 1))

/-- Whether a fault says rightly why bytes are no text: up to where they are text, and what is
there. -/
structure Fault.Blames (f : Fault) (b : Bytes) : Prop where
  valid : ∃ s, b.take f.validUpTo = Bytes.ofText s
  longest : ∀ s, Bytes.ofText s <+: b → (Bytes.ofText s).length ≤ f.validUpTo
  blocks : Blocks (b.drop f.validUpTo) f.badLength

theorem Begins.of_isPrefix {b b' : Bytes} (h : Begins b') (hp : b <+: b') : Begins b := by
  obtain ⟨c, hc⟩ := h
  exact ⟨c, hp.trans hc⟩

theorem not_blocks_nil : ∀ bad : Option Nat, ¬ Blocks [] bad
  | none => fun h => h.1 rfl
  | some _ => fun h => h.2.2 ⟨default, List.nil_prefix⟩

/-- How far bytes are to blame is determined by the bytes. -/
theorem Blocks.unique {b : Bytes} {bad bad' : Option Nat} (h : Blocks b bad)
    (h' : Blocks b bad') : bad = bad' := by
  have hlt : ∀ {m n : Nat}, Blocks b (some m) → Blocks b (some n) → ¬ m < n := by
    intro m n hm hn hlt
    have hpos := hm.1
    have hb := hn.2.1 (by omega)
    exact hm.2.2 (hb.of_isPrefix (List.take_prefix_take_left hlt))
  rcases bad with _ | m <;> rcases bad' with _ | n
  · rfl
  · exact absurd (h.2.of_isPrefix (List.take_prefix _ _)) h'.2.2
  · exact absurd (h'.2.of_isPrefix (List.take_prefix _ _)) h.2.2
  · have hmn := hlt h h'
    have hnm := hlt h' h
    congr 1
    omega

theorem Fault.Blames.validUpTo_le {f f' : Fault} {b : Bytes} (h : f.Blames b)
    (h' : f'.Blames b) : f.validUpTo ≤ f'.validUpTo := by
  obtain ⟨s, hs⟩ := h.valid
  have hlt : f.validUpTo < b.length := by
    rcases Nat.lt_or_ge f.validUpTo b.length with hlt | hge
    · exact hlt
    · have hb := h.blocks
      rw [List.drop_eq_nil_of_le hge] at hb
      exact absurd hb (not_blocks_nil _)
  have hlen := h'.longest s (hs ▸ List.take_prefix _ _)
  rw [← hs, List.length_take] at hlen
  omega

/-- The fault of bytes is determined by them. -/
theorem Fault.Blames.unique {f f' : Fault} {b : Bytes} (h : f.Blames b) (h' : f'.Blames b) :
    f = f' := by
  have hv := Nat.le_antisymm (h.validUpTo_le h') (h'.validUpTo_le h)
  have hb := h.blocks
  rw [hv] at hb
  have hbad := hb.unique h'.blocks
  rcases f with ⟨v, bad⟩
  rcases f' with ⟨v', bad'⟩
  simp only at hv hbad
  rw [hv, hbad]

theorem exists_follow : ∀ (ranges : List (UInt8 × UInt8)) (read point : Nat),
    (∀ r ∈ ranges, r.1 ≤ r.2) → ∃ y n, follow ranges read point y = .ok (n, [])
  | [], read, point, _ => ⟨[], point, rfl⟩
  | (least, greatest) :: ranges, read, point, hr => by
    obtain ⟨h, hr⟩ := List.forall_mem_cons.1 hr
    obtain ⟨y, n, hy⟩ := exists_follow ranges (read + 1) (point * 64 + (least.toNat - 0x80)) hr
    exact ⟨least :: y, n, by rw [follow, if_pos ⟨UInt8.le_refl _, h⟩, hy]⟩

/-- Bytes that run out can go on in a way that makes them complete. -/
theorem follow_error_none : ∀ {ranges : List (UInt8 × UInt8)} {read point : Nat} {b : Bytes},
    (∀ r ∈ ranges, r.1 ≤ r.2) → follow ranges read point b = .error none →
      ∃ y n, follow ranges read point (b ++ y) = .ok (n, [])
  | [], _, _, _, _, h => by simp [follow] at h
  | (least, greatest) :: ranges, read, point, [], hr, _ => exists_follow _ _ _ hr
  | (least, greatest) :: ranges, read, point, c :: b, hr, h => by
    rw [follow] at h
    split_ifs at h with hc
    · obtain ⟨y, n, hy⟩ := follow_error_none (List.forall_mem_cons.1 hr).2 h
      exact ⟨y, n, by rw [List.cons_append, follow, if_pos hc, hy]⟩
    · cases h

/-- The bytes before one that is out of its range can go on in a way that makes them complete, and
the bytes after it do not matter. -/
theorem follow_error_some : ∀ {ranges : List (UInt8 × UInt8)} {read point k : Nat} {b : Bytes},
    (∀ r ∈ ranges, r.1 ≤ r.2) → follow ranges read point b = .error (some k) →
      ∃ x c z, b = x ++ c :: z ∧ k = read + x.length ∧
        (∃ y n, follow ranges read point (x ++ y) = .ok (n, [])) ∧
        ∀ z', follow ranges read point (x ++ c :: z') = .error (some k)
  | [], _, _, _, _, _, h => by simp [follow] at h
  | (least, greatest) :: ranges, read, point, k, [], _, h => by simp [follow] at h
  | (least, greatest) :: ranges, read, point, k, c :: b, hr, h => by
    rw [follow] at h
    split_ifs at h with hc
    · obtain ⟨x, d, z, rfl, hk, ⟨y, n, hy⟩, hz⟩ :=
        follow_error_some (List.forall_mem_cons.1 hr).2 h
      refine ⟨c :: x, d, z, rfl, by rw [hk, List.length_cons]; omega, ⟨y, n, ?_⟩, fun z' => ?_⟩
      · rw [List.cons_append, follow, if_pos hc, hy]
      · rw [List.cons_append, follow, if_pos hc, hz]
    · simp only [Except.error.injEq, Option.some.injEq] at h
      refine ⟨[], c, b, rfl, h.symm, exists_follow _ _ _ hr, fun z' => ?_⟩
      rw [List.nil_append, follow, if_neg hc, h]

section

variable {lead : UInt8} {point : Nat} {ranges : List (UInt8 × UInt8)} {b : Bytes}

theorem begins_of_follow {n : Nat} {y : Bytes} (hl : lead? lead = some (point, ranges))
    (hf : follow ranges 1 point (b ++ y) = .ok (n, [])) : Begins (lead :: b) := by
  obtain ⟨c, hc⟩ := of_lead_follow hl hf
  rw [List.append_nil] at hc
  exact ⟨c, y, hc⟩

theorem not_begins_of_lead (hl : lead? lead = none) : ¬ Begins (lead :: b) := by
  rintro ⟨c, y, hc⟩
  obtain ⟨lead', tail, point', ranges', he, hl', -, -⟩ := exists_lead_follow c
  rw [he, List.cons_append, List.cons.injEq] at hc
  rw [← hc.1, hl] at hl'
  cases hl'

theorem not_begins_of_follow {k : Nat} (hl : lead? lead = some (point, ranges))
    (hf : ∀ y, follow ranges 1 point (b ++ y) = .error (some k)) : ¬ Begins (lead :: b) := by
  rintro ⟨c, y, hc⟩
  obtain ⟨lead', tail, point', ranges', he, hl', -, hf'⟩ := exists_lead_follow c
  rw [he, List.cons_append, List.cons.injEq] at hc
  obtain ⟨rfl, rfl⟩ := hc
  rw [hl] at hl'
  cases hl'
  have hf' := hf' []
  rw [List.append_nil, hf] at hf'
  cases hf'

theorem blocks_of_follow {bad : Option Nat} (hl : lead? lead = some (point, ranges))
    (hf : follow ranges 1 point b = .error bad) : Blocks (lead :: b) bad := by
  cases bad with
  | none =>
    obtain ⟨y, n, hy⟩ := follow_error_none (range_nonempty hl) hf
    exact ⟨List.cons_ne_nil _ _, begins_of_follow hl hy⟩
  | some k =>
    obtain ⟨x, c, z, rfl, rfl, ⟨y, n, hy⟩, hz⟩ := follow_error_some (range_nonempty hl) hf
    have hx : (lead :: (x ++ c :: z)).take (1 + x.length) = lead :: x := by
      rw [Nat.add_comm, List.take_succ_cons, List.take_left]
    have hxc : (lead :: (x ++ c :: z)).take (1 + x.length + 1) = lead :: (x ++ [c]) := by
      rw [List.take_succ_cons, Nat.add_comm, List.take_length_add_append, List.take_one]
      rfl
    refine ⟨by omega, fun _ => ?_, ?_⟩
    · rw [hx]
      exact begins_of_follow hl hy
    · have hxy : ∀ y, follow ranges 1 point ((x ++ [c]) ++ y) = .error (some (1 + x.length)) :=
        fun y => by
          rw [List.append_assoc]
          exact hz y
      rw [hxc]
      exact not_begins_of_follow hl hxy

end

/-! ## Decoding -/

theorem decodeFrom_nil (pos : Nat) (done : List Char) :
    decodeFrom pos done [] = .ok (String.ofList done.reverse) := by
  rw [decodeFrom]

theorem decodeFrom_encode (pos : Nat) (done : List Char) (c : Char) (b : Bytes) :
    decodeFrom pos done (String.utf8EncodeChar c ++ b) =
      decodeFrom (pos + (String.utf8EncodeChar c).length) (c :: done) b := by
  obtain ⟨lead, tail, point, ranges, he, hl, hlen, hf⟩ := exists_lead_follow c
  have hpos : pos + 1 + ranges.length = pos + (lead :: tail).length := by
    rw [List.length_cons, hlen]
    omega
  rw [he, List.cons_append, decodeFrom]
  simp only [hl]
  split <;> rename_i h <;> rw [hf] at h <;> cases h
  rw [Char.ofNat_toNat, hpos]

theorem decodeFrom_encodeAll : ∀ (cs : List Char) (pos : Nat) (done : List Char) (b : Bytes),
    decodeFrom pos done (cs.flatMap String.utf8EncodeChar ++ b) =
      decodeFrom (pos + (cs.flatMap String.utf8EncodeChar).length) (cs.reverse ++ done) b
  | [], _, _, _ => rfl
  | c :: cs, pos, done, b => by
    rw [List.flatMap_cons, List.append_assoc, decodeFrom_encode, decodeFrom_encodeAll,
      List.length_append, Nat.add_assoc, List.reverse_cons, List.append_assoc,
      List.singleton_append]

theorem decodeFrom_cons (lead : UInt8) (b : Bytes) :
    (∃ c b', lead :: b = String.utf8EncodeChar c ++ b') ∨
      ∃ bad, Blocks (lead :: b) bad ∧
        ∀ pos done, decodeFrom pos done (lead :: b) = .error ⟨pos, bad⟩ := by
  cases hl : lead? lead with
  | none =>
    refine .inr ⟨some 1, ⟨Nat.one_pos, fun h => absurd h (Nat.lt_irrefl 1),
      not_begins_of_lead hl⟩, fun pos done => ?_⟩
    rw [decodeFrom]
    simp only [hl]
  | some r =>
    obtain ⟨point, ranges⟩ := r
    rcases hf : follow ranges 1 point b with bad | ⟨n, b'⟩
    · refine .inr ⟨bad, blocks_of_follow hl hf, fun pos done => ?_⟩
      rw [decodeFrom]
      simp only [hl]
      split <;> rename_i h <;> rw [hf] at h <;> cases h
      rfl
    · obtain ⟨c, hc⟩ := of_lead_follow hl hf
      exact .inl ⟨c, b', hc⟩

theorem le_validUpTo_of_decodeFrom (pos : Nat) (done : List Char) (b : Bytes) {f : Fault}
    (h : decodeFrom pos done b = .error f) : pos ≤ f.validUpTo := by
  fun_induction decodeFrom pos done b with
  | case1 => cases h
  | case2 => cases h; exact Nat.le_refl _
  | case3 => cases h; exact Nat.le_refl _
  | case4 _ _ _ _ _ _ _ _ _ _ ih =>
    have := ih h
    omega

theorem ofText_ofList (cs : List Char) :
    Bytes.ofText (String.ofList cs) = cs.flatMap String.utf8EncodeChar := by
  rw [Bytes.ofText, String.toUTF8_eq_toByteArray, String.toByteArray_ofList]
  simp [List.utf8Encode]

theorem ofText_eq (s : String) : Bytes.ofText s = s.toList.flatMap String.utf8EncodeChar := by
  rw [← ofText_ofList, String.ofList_toList]

/-- Bytes are a text and, unless they are decoded, what blocks its going on. -/
theorem exists_text (b : Bytes) : ∃ s rest, b = Bytes.ofText s ++ rest ∧
    ((rest = [] ∧ decode b = .ok s) ∨
      ∃ bad, Blocks rest bad ∧ decode b = .error ⟨(Bytes.ofText s).length, bad⟩) := by
  suffices h : ∀ b : Bytes, ∃ (cs : List Char) (rest : Bytes),
      b = cs.flatMap String.utf8EncodeChar ++ rest ∧ (rest = [] ∨ ∃ bad, Blocks rest bad ∧
        ∀ pos done, decodeFrom pos done rest = .error ⟨pos, bad⟩) by
    obtain ⟨cs, rest, rfl, h⟩ := h b
    refine ⟨String.ofList cs, rest, by rw [ofText_ofList], ?_⟩
    rw [ofText_ofList, decode, decodeFrom_encodeAll]
    rcases h with rfl | ⟨bad, hb, hd⟩
    · exact .inl ⟨rfl, by simp [decodeFrom_nil]⟩
    · exact .inr ⟨bad, hb, by rw [hd, Nat.zero_add]⟩
  intro b
  induction hn : b.length using Nat.strongRecOn generalizing b with
  | ind n ih =>
    cases b with
    | nil => exact ⟨[], [], rfl, .inl rfl⟩
    | cons lead b =>
      rcases decodeFrom_cons lead b with ⟨c, b', hc⟩ | h
      · have hlt : b'.length < n := by
          have hpos := List.length_pos_iff.2 (String.utf8EncodeChar_ne_nil (c := c))
          rw [← hn, hc, List.length_append]
          omega
        obtain ⟨cs, rest, hb, h⟩ := ih _ hlt b' rfl
        exact ⟨c :: cs, rest, by rw [hc, hb, List.flatMap_cons, List.append_assoc], h⟩
      · exact ⟨[], lead :: b, rfl, .inr h⟩

theorem decode_ofText (s : String) : decode (Bytes.ofText s) = .ok s := by
  have h := decodeFrom_encodeAll s.toList 0 [] []
  rw [List.append_nil, decodeFrom_nil] at h
  rw [decode, ofText_eq, h, List.append_nil, List.reverse_reverse, String.ofList_toList]

theorem decode_eq_ok_iff {b : Bytes} {s : String} : decode b = .ok s ↔ b = Bytes.ofText s := by
  refine ⟨fun h => ?_, fun h => h ▸ decode_ofText s⟩
  obtain ⟨s', rest, hb, ⟨rfl, hd⟩ | ⟨bad, -, hd⟩⟩ := exists_text b
  · rw [h] at hd
    cases hd
    rw [hb, List.append_nil]
  · rw [h] at hd
    cases hd

/-- Other bytes are refused for the fault that they have. -/
theorem decode_eq_error_iff {b : Bytes} {f : Fault} :
    decode b = .error f ↔ (∀ s, b ≠ Bytes.ofText s) ∧ f.Blames b := by
  obtain ⟨s, rest, hb, ⟨hrest, hd⟩ | ⟨bad, hbad, hd⟩⟩ := exists_text b
  · rw [hrest, List.append_nil] at hb
    rw [hd]
    constructor
    · intro h
      cases h
    · intro h
      exact absurd hb (h.1 s)
  · have hblames : Fault.Blames ⟨(Bytes.ofText s).length, bad⟩ b := by
      refine ⟨⟨s, by rw [hb, List.take_left]⟩, ?_, by rwa [hb, List.drop_left]⟩
      rintro s' ⟨y, hy⟩
      rw [← hy, decode, ofText_eq s', decodeFrom_encodeAll] at hd
      have hle := le_validUpTo_of_decodeFrom _ _ _ hd
      rw [ofText_eq s']
      omega
    constructor
    · intro h
      rw [hd] at h
      cases h
      refine ⟨?_, hblames⟩
      intro s' hs'
      rw [decode_eq_ok_iff.2 hs'] at hd
      cases hd
    · rintro ⟨-, h⟩
      rw [hd, hblames.unique h]

end Utf8

end Devicetree
