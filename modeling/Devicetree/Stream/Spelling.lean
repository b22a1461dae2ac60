import Devicetree.Stream

/-!
# A read answers with what is spelled

`next_eq_some_iff` says that a token is read exactly where the bytes spell it, and that the stream
goes on behind these bytes. `next_eq_none_iff` says the same of the tag that ends a tree.
-/

namespace Devicetree

namespace Stream

theorem word?_append (offset : Nat) (w : UInt32) (rest : Bytes) :
    (⟨offset, BigEndian.encodeWord w ++ rest⟩ : Stream).word? = some (w, ⟨offset + 4, rest⟩) :=
  word?_eq_some_iff.2 ⟨_, (BigEndian.word_encodeWord w).symm, rfl, BigEndian.length_encodeWord w,
    rfl⟩

theorem rest_of_word? {s s' : Stream} {w : UInt32} (h : s.word? = some (w, s')) :
    s.rest = BigEndian.encodeWord w ++ s'.rest ∧ s'.offset = s.offset + 4 := by
  obtain ⟨b, rfl, hr, hl, ho⟩ := word?_eq_some_iff.1 h
  exact ⟨by rw [BigEndian.encodeWord_word hl, hr], ho⟩

theorem take?_append {n : Nat} (offset : Nat) {x rest : Bytes} (h : x.length = n) :
    (⟨offset, x ++ rest⟩ : Stream).take? n = some (x, ⟨offset + n, rest⟩) :=
  take?_eq_some_iff.2 ⟨rfl, h, rfl⟩

theorem nextName_of_spells {name pad : Bytes} (offset : Nat) (rest : Bytes) (h : 0 ∉ name)
    (hp : Token.IsPadding (name.length + 1) pad) :
    (⟨offset, (name ++ 0 :: pad) ++ rest⟩ : Stream).nextName =
      (.ok (some (.beginNode name)), ⟨offset + (name ++ 0 :: pad).length, rest⟩) := by
  have hn : Bytes.beforeNul? ((name ++ 0 :: pad) ++ rest) = some name :=
    Bytes.beforeNul?_eq_some_iff.2 ⟨h, pad ++ rest, by simp⟩
  have hl : (name ++ 0 :: pad).length = Bytes.padded (name.length + 1) := by
    rw [← Token.isPadding_iff.1 hp]
    simp
    omega
  simp only [nextName, hn, take?_append offset hl, hl]

theorem nextProperty_of_spells {size : UInt32} {value pad : Bytes} (offset : Nat)
    (nameOffset : UInt32) (rest : Bytes) (h : value.length = size.toNat)
    (hp : Token.IsPadding value.length pad) :
    (⟨offset, BigEndian.encodeWord size ++ (BigEndian.encodeWord nameOffset
        ++ ((value ++ pad) ++ rest))⟩ : Stream).nextProperty =
      (.ok (some (.property nameOffset value)), ⟨offset + 8 + (value ++ pad).length, rest⟩) := by
  have hl : (value ++ pad).length = Bytes.padded size.toNat := by
    rw [List.length_append, Token.isPadding_iff.1 hp, h]
  simp only [nextProperty, word?_append]
  rw [take?_append _ hl]
  simp only [hl, ← h, List.take_left]

theorem next_of_spells {t : Token} {x : Bytes} (offset : Nat) (rest : Bytes) (h : t.Spells x) :
    (⟨offset, x ++ rest⟩ : Stream).next = (.ok (some t), ⟨offset + x.length, rest⟩) := by
  have hne {w : UInt32} {y : Bytes} : (BigEndian.encodeWord w ++ y).isEmpty = false := by
    rw [List.isEmpty_eq_false_iff, ne_eq, ← List.length_eq_zero_iff]
    simp
  cases h with
  | beginNode hn hp =>
    have := nextName_of_spells (offset + 4) rest hn hp
    simp only [List.append_assoc] at this
    simp only [next, List.append_assoc, hne, word?_append, Tag.ofNumber?_number, this]
    simp [Nat.add_assoc]
  | endNode => simp [next, hne, word?_append]
  | @property nameOffset _ _ _ hl hp =>
    have := nextProperty_of_spells (offset + 4) nameOffset rest hl hp
    simp only [List.append_assoc] at this
    simp only [next, List.append_assoc, hne, word?_append, Tag.ofNumber?_number, this]
    simp [Nat.add_assoc]
    omega
  | nop => simp [next, hne, word?_append]

theorem spells_of_nextName {s s' : Stream} {o : Option Token} (h : s.nextName = (.ok o, s')) :
    ∃ name pad, o = some (.beginNode name) ∧ 0 ∉ name ∧ Token.IsPadding (name.length + 1) pad ∧
      s.rest = (name ++ 0 :: pad) ++ s'.rest ∧
      s'.offset = s.offset + (name ++ 0 :: pad).length := by
  unfold nextName at h
  split at h
  · simp at h
  · rename_i name hn
    split at h
    · simp at h
    · rename_i region s₁ ht
      simp only [Prod.mk.injEq, Except.ok.injEq] at h
      obtain ⟨rfl, rfl⟩ := h
      obtain ⟨h0, r, hr⟩ := Bytes.beforeNul?_eq_some_iff.1 hn
      obtain ⟨hs, hl, ho⟩ := take?_eq_some_iff.1 ht
      have hle := Bytes.le_padded (name.length + 1)
      have hname : (name ++ [0]) <+: s.rest := ⟨r, by simp [hr]⟩
      have hregion : region <+: s.rest := ⟨_, hs.symm⟩
      obtain ⟨pad, rfl⟩ := List.prefix_of_prefix_length_le hname hregion (by simpa [hl] using hle)
      refine ⟨name, pad, rfl, h0, ?_, by simpa using hs, ?_⟩
      · rw [Token.isPadding_iff, ← hl]
        simp
        omega
      · rw [ho, ← hl]; simp

theorem spells_of_nextProperty {s s' : Stream} {o : Option Token}
    (h : s.nextProperty = (.ok o, s')) :
    ∃ (nameOffset size : UInt32) (value pad : Bytes), o = some (.property nameOffset value) ∧
      value.length = size.toNat ∧ Token.IsPadding value.length pad ∧
      s.rest = BigEndian.encodeWord size ++ (BigEndian.encodeWord nameOffset
        ++ ((value ++ pad) ++ s'.rest)) ∧
      s'.offset = s.offset + 8 + (value ++ pad).length := by
  unfold nextProperty at h
  split at h
  · simp at h
  · rename_i size s₁ h₁
    split at h
    · simp at h
    · rename_i nameOffset s₂ h₂
      split at h
      · simp at h
      · rename_i region s₃ h₃
        simp only [Prod.mk.injEq, Except.ok.injEq] at h
        obtain ⟨rfl, rfl⟩ := h
        obtain ⟨hr₁, ho₁⟩ := rest_of_word? h₁
        obtain ⟨hr₂, ho₂⟩ := rest_of_word? h₂
        obtain ⟨hr₃, hl, ho₃⟩ := take?_eq_some_iff.1 h₃
        have hle := Bytes.le_padded size.toNat
        have hv : (region.take size.toNat).length = size.toNat := by
          rw [List.length_take]; omega
        refine ⟨nameOffset, size, _, region.drop size.toNat, rfl, hv, ?_, ?_, ?_⟩
        · rw [Token.isPadding_iff, hv, List.length_drop]
          omega
        · rw [List.take_append_drop, ← hr₃, ← hr₂, ← hr₁]
        · rw [List.take_append_drop, ho₃, ho₂, ho₁, hl]

theorem spells_of_next {s s' : Stream} {t : Token} (h : s.next = (.ok (some t), s')) :
    ∃ x, t.Spells x ∧ s.rest = x ++ s'.rest ∧ s'.offset = s.offset + x.length := by
  unfold next at h
  split at h
  · simp at h
  · split at h
    · simp at h
    · rename_i tag s₁ hw
      obtain ⟨hr, ho⟩ := rest_of_word? hw
      split at h
      · simp at h
      · rename_i ht
        obtain ⟨name, pad, hn, h0, hp, hr', ho'⟩ := spells_of_nextName h
        cases hn
        rw [Tag.ofNumber?_eq_some_iff.1 ht] at hr
        exact ⟨_, .beginNode h0 hp, by rw [hr, hr']; simp, by simp [ho', ho]; omega⟩
      · rename_i ht
        simp only [Prod.mk.injEq, Except.ok.injEq, Option.some.injEq] at h
        obtain ⟨rfl, rfl⟩ := h
        rw [Tag.ofNumber?_eq_some_iff.1 ht] at hr
        exact ⟨_, .endNode, hr, by simp [ho]⟩
      · rename_i ht
        obtain ⟨nameOffset, size, value, pad, hn, hl, hp, hr', ho'⟩ := spells_of_nextProperty h
        cases hn
        rw [Tag.ofNumber?_eq_some_iff.1 ht] at hr
        exact ⟨_, .property hl hp, by rw [hr, hr']; simp, by simp [ho', ho]; omega⟩
      · rename_i ht
        simp only [Prod.mk.injEq, Except.ok.injEq, Option.some.injEq] at h
        obtain ⟨rfl, rfl⟩ := h
        rw [Tag.ofNumber?_eq_some_iff.1 ht] at hr
        exact ⟨_, .nop, hr, by simp [ho]⟩
      · simp at h

/-- A token is read exactly where it is spelled. -/
theorem next_eq_some_iff {s s' : Stream} {t : Token} :
    s.next = (.ok (some t), s') ↔
      ∃ x, t.Spells x ∧ s.rest = x ++ s'.rest ∧ s'.offset = s.offset + x.length := by
  constructor
  · exact spells_of_next
  · rintro ⟨x, hx, hr, ho⟩
    obtain ⟨offset, rest⟩ := s
    obtain ⟨offset', rest'⟩ := s'
    simp only at hr ho
    rw [hr, ho]
    exact next_of_spells offset rest' hx

theorem next_eq_none_iff {s s' : Stream} :
    s.next = (.ok none, s') ↔
      s.rest = BigEndian.encodeWord Tag.endOfTree.number ++ s'.rest ∧
        s'.offset = s.offset + 4 := by
  constructor
  · intro h
    unfold next at h
    split at h
    · simp at h
    · split at h
      · simp at h
      · rename_i tag s₁ hw
        obtain ⟨hr, ho⟩ := rest_of_word? hw
        split at h
        · simp at h
        · obtain ⟨name, pad, hn, -⟩ := spells_of_nextName h
          cases hn
        · simp at h
        · obtain ⟨nameOffset, size, value, pad, hn, -⟩ := spells_of_nextProperty h
          cases hn
        · simp at h
        · rename_i ht
          simp only [Prod.mk.injEq, true_and] at h
          obtain rfl := h
          rw [Tag.ofNumber?_eq_some_iff.1 ht] at hr
          exact ⟨hr, ho⟩
  · rintro ⟨hr, ho⟩
    obtain ⟨offset, rest⟩ := s
    obtain ⟨offset', rest'⟩ := s'
    simp only at hr ho
    subst hr ho
    have hne : (BigEndian.encodeWord Tag.endOfTree.number ++ rest').isEmpty = false := by
      rw [List.isEmpty_eq_false_iff, ne_eq, ← List.length_eq_zero_iff]
      simp
    simp [next, hne, word?_append]

end Stream

end Devicetree
