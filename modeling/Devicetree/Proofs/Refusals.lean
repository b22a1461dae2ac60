import Devicetree.Stream.Spelling

/-!
# What a read answers

From every place of a block a read gives the one answer that the bytes there ask for
(`next_ofBlock`). Where they spell a token, or the tag that ends a tree, it answers with that and
goes on behind it. It finds the block malformed at its end and at a tag that is none. Everywhere
else the block breaks off inside of a token, and the read refuses it: `BreaksOff` says which parts
of a token can be missing and what read it is that leaves the block.
-/

namespace Devicetree

namespace Tag

theorem ofNumber?_eq_none_iff {n : UInt32} : ofNumber? n = none ↔ n ∉ [1, 2, 3, 4, 9] := by
  unfold ofNumber?
  grind

end Tag

namespace Token

/-- The bytes that a read answers to: those of a token, or the tag that ends the tree. -/
def SpellsNext : Option Token → Bytes → Prop
  | some t, x => t.Spells x
  | none, x => x = BigEndian.encodeWord Tag.endOfTree.number

end Token

namespace Stream

/-- Whether a block breaks off inside of the token at hand, and the read that leaves the block. A
name or a value is also missed when only its padding is not there. -/
inductive BreaksOff (s : Stream) : (offset length : Nat) → Prop where
  | tag : s.rest ≠ [] → s.rest.length < 4 → BreaksOff s s.offset 4
  | unterminated {x : Bytes} : s.rest = BigEndian.encodeWord Tag.beginNode.number ++ x → 0 ∉ x →
      BreaksOff s (s.offset + 4) (x.length + 1)
  | name {name x : Bytes} :
      s.rest = BigEndian.encodeWord Tag.beginNode.number ++ (name ++ 0 :: x) → 0 ∉ name →
        (name ++ 0 :: x).length < Bytes.padded (name.length + 1) →
          BreaksOff s (s.offset + 4) (name.length + 1)
  | size {x : Bytes} : s.rest = BigEndian.encodeWord Tag.property.number ++ x → x.length < 4 →
      BreaksOff s (s.offset + 4) 4
  | nameOffset {size : UInt32} {x : Bytes} :
      s.rest = BigEndian.encodeWord Tag.property.number ++ (BigEndian.encodeWord size ++ x) →
        x.length < 4 → BreaksOff s (s.offset + 8) 4
  | value {size nameOffset : UInt32} {x : Bytes} :
      s.rest = BigEndian.encodeWord Tag.property.number ++ (BigEndian.encodeWord size
        ++ (BigEndian.encodeWord nameOffset ++ x)) →
        x.length < Bytes.padded size.toNat → BreaksOff s (s.offset + 12) size.toNat

variable {s s' : Stream} {offset length : Nat}

/-! ## The parts of a token -/

theorem word?_eq_none_iff : s.word? = none ↔ s.rest.length < 4 := by
  rw [word?, Option.map_eq_none_iff, take?_eq_none_iff]

theorem rest_ne_nil {w : UInt32} {x : Bytes} (h : s.rest = BigEndian.encodeWord w ++ x) :
    s.rest.isEmpty = false := by
  rw [List.isEmpty_eq_false_iff, ne_eq, ← List.length_eq_zero_iff, h, List.length_append,
    BigEndian.length_encodeWord]
  omega

theorem word?_of_rest {w : UInt32} {x : Bytes} (h : s.rest = BigEndian.encodeWord w ++ x) :
    s.word? = some (w, ⟨s.offset + 4, x⟩) := by
  obtain ⟨offset, rest⟩ := s
  simp only at h
  rw [h, word?_append]

/-- Behind a tag that opens a node the name is read, and behind one of a property the rest of it. -/
theorem next_of_tag {tag : Tag} {x : Bytes} (h : s.rest = BigEndian.encodeWord tag.number ++ x) :
    s.next = match tag with
      | .beginNode => (⟨s.offset + 4, x⟩ : Stream).nextName
      | .endNode => (.ok (some .endNode), ⟨s.offset + 4, x⟩)
      | .property => (⟨s.offset + 4, x⟩ : Stream).nextProperty
      | .nop => (.ok (some .nop), ⟨s.offset + 4, x⟩)
      | .endOfTree => (.ok none, ⟨s.offset + 4, x⟩) := by
  simp only [next, rest_ne_nil h, word?_of_rest h, Tag.ofNumber?_number]
  cases tag <;> rfl

theorem nextName_eq_error_iff {e : Error} : s.nextName.1 = .error e ↔
    (0 ∉ s.rest ∧ e = .outOfRegion s.offset (s.rest.length + 1)) ∨
      ∃ name x, s.rest = name ++ 0 :: x ∧ 0 ∉ name ∧
        (name ++ 0 :: x).length < Bytes.padded (name.length + 1) ∧
          e = .outOfRegion s.offset (name.length + 1) := by
  rcases hn : Bytes.beforeNul? s.rest with _ | name
  · have h0 := Bytes.beforeNul?_eq_none_iff.1 hn
    simp only [nextName, hn, Except.error.injEq]
    refine ⟨fun h => .inl ⟨h0, h.symm⟩, ?_⟩
    rintro (⟨-, rfl⟩ | ⟨name, x, hr, -⟩)
    · rfl
    · simp [hr] at h0
  · obtain ⟨h0, x, hr⟩ := Bytes.beforeNul?_eq_some_iff.1 hn
    have hname {name' x' : Bytes} (h0' : 0 ∉ name') (hr' : s.rest = name' ++ 0 :: x') :
        name = name' :=
      Option.some.inj (hn.symm.trans (Bytes.beforeNul?_eq_some_iff.2 ⟨h0', x', hr'⟩))
    rcases ht : s.take? (Bytes.padded (name.length + 1)) with _ | ⟨region, s'⟩
    · simp only [nextName, hn, ht, Except.error.injEq]
      have hl := take?_eq_none_iff.1 ht
      refine ⟨fun h => .inr ⟨name, x, hr, h0, hr ▸ hl, h.symm⟩, ?_⟩
      rintro (⟨h, -⟩ | ⟨name', x', hr', h0', -, rfl⟩)
      · simp [hr] at h
      · rw [hname h0' hr']
    · simp only [nextName, hn, ht, reduceCtorEq, false_iff]
      have hl := length_of_take? ht
      rintro (⟨h, -⟩ | ⟨name', x', hr', h0', hl', -⟩)
      · simp [hr] at h
      · obtain rfl := hname h0' hr'
        rw [← hr', hl] at hl'
        omega

theorem nextProperty_of_size {size : UInt32} {x : Bytes}
    (h : s.rest = BigEndian.encodeWord size ++ x) (hx : x.length < 4) :
    s.nextProperty = (.error (.outOfRegion (s.offset + 4) 4), s) := by
  have hn : (⟨s.offset + 4, x⟩ : Stream).word? = none := word?_eq_none_iff.2 hx
  simp only [nextProperty, word?_of_rest h, hn]

theorem nextProperty_of_header {size nameOffset : UInt32} {x : Bytes}
    (h : s.rest = BigEndian.encodeWord size ++ (BigEndian.encodeWord nameOffset ++ x))
    (hx : x.length < Bytes.padded size.toNat) :
    s.nextProperty =
      (.error (.outOfRegion (s.offset + 8) size.toNat), ⟨s.offset + 8, x⟩) := by
  have hn : (⟨s.offset + 4, BigEndian.encodeWord nameOffset ++ x⟩ : Stream).word? =
      some (nameOffset, ⟨s.offset + 8, x⟩) := word?_append _ _ _
  have ht : (⟨s.offset + 8, x⟩ : Stream).take? (Bytes.padded size.toNat) = none :=
    take?_eq_none_iff.2 hx
  simp only [nextProperty, word?_of_rest h, hn, ht]

theorem nextProperty_eq_error_iff {e : Error} : s.nextProperty.1 = .error e ↔
    (s.rest.length < 4 ∧ e = .outOfRegion s.offset 4) ∨
    (∃ size x, s.rest = BigEndian.encodeWord size ++ x ∧ x.length < 4 ∧
      e = .outOfRegion (s.offset + 4) 4) ∨
    ∃ size nameOffset x,
      s.rest = BigEndian.encodeWord size ++ (BigEndian.encodeWord nameOffset ++ x) ∧
        x.length < Bytes.padded size.toNat ∧ e = .outOfRegion (s.offset + 8) size.toNat := by
  constructor
  · intro h
    unfold nextProperty at h
    split at h
    · rename_i hs
      exact .inl ⟨word?_eq_none_iff.1 hs, (Except.error.inj h).symm⟩
    · rename_i size s₁ h₁
      obtain ⟨hr₁, ho₁⟩ := rest_of_word? h₁
      split at h
      · rename_i hn
        exact .inr (.inl ⟨size, s₁.rest, hr₁, word?_eq_none_iff.1 hn,
          ho₁ ▸ (Except.error.inj h).symm⟩)
      · rename_i nameOffset s₂ h₂
        obtain ⟨hr₂, ho₂⟩ := rest_of_word? h₂
        split at h
        · rename_i ht
          have ho : s₂.offset = s.offset + 8 := by omega
          exact .inr (.inr ⟨size, nameOffset, s₂.rest, by rw [hr₁, hr₂], take?_eq_none_iff.1 ht,
            ho ▸ (Except.error.inj h).symm⟩)
        · cases h
  · rintro (⟨h, rfl⟩ | ⟨size, x, hr, hx, rfl⟩ | ⟨size, nameOffset, x, hr, hx, rfl⟩)
    · simp only [nextProperty, word?_eq_none_iff.2 h]
    · rw [nextProperty_of_size hr hx]
    · rw [nextProperty_of_header hr hx]

/-! ## The whole token -/

/-- All that a read can fail with, and where it does. -/
theorem error_of_next {e : Error} (h : s.next = (.error e, s')) :
    (s.rest = [] ∧ e = .malformed s.offset .endOfBlock) ∨
    ((∃ n x, s.rest = BigEndian.encodeWord n ++ x ∧ n ∉ [1, 2, 3, 4, 9]) ∧
      e = .malformed s.offset .unknownToken) ∨
    ∃ offset length, s.BreaksOff offset length ∧ e = .outOfRegion offset length := by
  replace h := congrArg Prod.fst h
  unfold next at h
  split at h
  · rename_i he
    cases h
    exact .inl ⟨by simpa using he, rfl⟩
  · rename_i he
    have hne : s.rest ≠ [] := by simpa using he
    split at h
    · rename_i hw
      cases h
      exact .inr (.inr ⟨_, _, .tag hne (word?_eq_none_iff.1 hw), rfl⟩)
    · rename_i n s₁ hw
      obtain ⟨hr, ho⟩ := rest_of_word? hw
      split at h
      · rename_i hn
        cases h
        exact .inr (.inl ⟨⟨n, _, hr, Tag.ofNumber?_eq_none_iff.1 hn⟩, rfl⟩)
      · rename_i ht
        rw [Tag.ofNumber?_eq_some_iff.1 ht] at hr
        refine .inr (.inr ?_)
        rcases nextName_eq_error_iff.1 h with ⟨h0, rfl⟩ | ⟨name, x, hr', h0, hl, rfl⟩ <;> rw [ho]
        · exact ⟨_, _, .unterminated hr h0, rfl⟩
        · rw [hr'] at hr
          exact ⟨_, _, .name hr h0 hl, rfl⟩
      · cases h
      · rename_i ht
        rw [Tag.ofNumber?_eq_some_iff.1 ht] at hr
        refine .inr (.inr ?_)
        rcases nextProperty_eq_error_iff.1 h with ⟨hl, rfl⟩ | ⟨size, x, hr', hl, rfl⟩ |
          ⟨size, nameOffset, x, hr', hl, rfl⟩ <;> rw [ho]
        · exact ⟨_, _, .size hr hl, rfl⟩
        · rw [hr'] at hr
          exact ⟨_, _, .nameOffset hr hl, rfl⟩
        · rw [hr'] at hr
          exact ⟨_, _, .value hr hl, rfl⟩
      · cases h
      · cases h

theorem next_of_breaksOff (h : s.BreaksOff offset length) :
    s.next.1 = .error (.outOfRegion offset length) := by
  cases h with
  | tag hne hl =>
    have he : s.rest.isEmpty = false := by simpa using hne
    simp only [next, he, word?_eq_none_iff.2 hl]
    rfl
  | unterminated hr h0 =>
    rw [next_of_tag hr]
    exact nextName_eq_error_iff.2 (.inl ⟨h0, rfl⟩)
  | name hr h0 hl =>
    rw [next_of_tag hr]
    exact nextName_eq_error_iff.2 (.inr ⟨_, _, rfl, h0, hl, rfl⟩)
  | size hr hl =>
    rw [next_of_tag hr]
    exact nextProperty_eq_error_iff.2 (.inl ⟨hl, rfl⟩)
  | nameOffset hr hl =>
    rw [next_of_tag hr]
    exact nextProperty_eq_error_iff.2 (.inr (.inl ⟨_, _, rfl, hl, rfl⟩))
  | value hr hl =>
    rw [next_of_tag hr]
    exact nextProperty_eq_error_iff.2 (.inr (.inr ⟨_, _, _, rfl, hl, rfl⟩))

theorem next_eq_outOfRegion_iff :
    s.next.1 = .error (.outOfRegion offset length) ↔ s.BreaksOff offset length := by
  refine ⟨fun h => ?_, next_of_breaksOff⟩
  rcases error_of_next (Prod.ext h rfl) with ⟨-, he⟩ | ⟨-, he⟩ | ⟨_, _, hb, he⟩ <;> cases he
  exact hb

theorem next_eq_malformed_iff {defect : Defect} : s.next.1 = .error (.malformed offset defect) ↔
    offset = s.offset ∧ (s.rest = [] ∧ defect = .endOfBlock ∨
      (∃ n x, s.rest = BigEndian.encodeWord n ++ x ∧ n ∉ [1, 2, 3, 4, 9]) ∧
        defect = .unknownToken) := by
  constructor
  · intro h
    rcases error_of_next (Prod.ext h rfl) with ⟨hr, he⟩ | ⟨hn, he⟩ | ⟨_, _, -, he⟩ <;> cases he
    · exact ⟨rfl, .inl ⟨hr, rfl⟩⟩
    · exact ⟨rfl, .inr ⟨hn, rfl⟩⟩
  · rintro ⟨rfl, ⟨hr, rfl⟩ | ⟨⟨n, x, hr, hn⟩, rfl⟩⟩
    · simp [next, hr]
    · simp only [next, rest_ne_nil hr, word?_of_rest hr, Tag.ofNumber?_eq_none_iff.2 hn]
      rfl

theorem next_eq_ok_iff {o : Option Token} : s.next = (.ok o, s') ↔
    ∃ x, Token.SpellsNext o x ∧ s.rest = x ++ s'.rest ∧ s'.offset = s.offset + x.length := by
  cases o with
  | some t => exact next_eq_some_iff
  | none =>
    rw [next_eq_none_iff]
    simp [Token.SpellsNext]

/-! ## A read from a place of a block -/

/-- Whether the bytes of a block from one place to another are what a read answers to. -/
def SpelledBetween (block : Bytes) (c c' : Cursor) (o : Option Token) : Prop :=
  c.offset ≤ c'.offset ∧
    ∃ x, block.region? c.offset (c'.offset - c.offset) = some x ∧ Token.SpellsNext o x

/-- Whether four bytes stand at a place that are the tag of nothing. -/
def UnknownTag (block : Bytes) (c : Cursor) : Prop :=
  ∃ x, block.region? c.offset 4 = some x ∧ BigEndian.word x ∉ [1, 2, 3, 4, 9]

theorem next_eq_ok_iff_spelledBetween {block : Bytes} {c c' : Cursor} {o : Option Token} :
    ((ofBlock block c).next.1 = .ok o ∧ (ofBlock block c).next.2.cursor = c') ↔
      SpelledBetween block c c' o := by
  constructor
  · rintro ⟨ho, rfl⟩
    obtain ⟨x, hx, hr, hoff⟩ := next_eq_ok_iff.1 (Prod.ext ho rfl)
    have hle : c.offset ≤ block.length := by
      have hne := length_of_next (Prod.ext ho rfl)
      simp only [ofBlock, List.length_drop] at hne
      omega
    have hc : (ofBlock block c).next.2.cursor.offset = c.offset + x.length := hoff
    refine ⟨by omega, x, Bytes.region?_eq_some_iff_append.2 ⟨hle, by omega, _, hr⟩, hx⟩
  · rintro ⟨hle, x, hx, hs⟩
    obtain ⟨-, hl, y, hy⟩ := Bytes.region?_eq_some_iff_append.1 hx
    have hn : (ofBlock block c).next = (.ok o, ⟨c.offset + x.length, y⟩) :=
      next_eq_ok_iff.2 ⟨x, hs, hy, rfl⟩
    rw [hn, hl, Nat.add_sub_of_le hle]
    exact ⟨rfl, rfl⟩

theorem unknownTag_iff {block : Bytes} {c : Cursor} : UnknownTag block c ↔
    ∃ n x, (ofBlock block c).rest = BigEndian.encodeWord n ++ x ∧ n ∉ [1, 2, 3, 4, 9] := by
  constructor
  · rintro ⟨x, hx, hn⟩
    obtain ⟨-, hl, y, hy⟩ := Bytes.region?_eq_some_iff_append.1 hx
    exact ⟨_, y, by rw [BigEndian.encodeWord_word hl]; exact hy, hn⟩
  · rintro ⟨n, x, hr, hn⟩
    have hl := congrArg List.length hr
    simp only [ofBlock, List.length_drop, List.length_append, BigEndian.length_encodeWord] at hl
    have hx := Bytes.region?_eq_some_iff_append.2
      ⟨by omega, BigEndian.length_encodeWord n, x, hr⟩
    exact ⟨_, hx, by rwa [BigEndian.word_encodeWord]⟩

theorem rest_ofBlock_eq_nil_iff {block : Bytes} {c : Cursor} :
    (ofBlock block c).rest = [] ↔ block.length ≤ c.offset := by
  simp [ofBlock]

theorem next_ofBlock_eq_malformed_iff {block : Bytes} {c : Cursor} {defect : Defect} :
    (ofBlock block c).next.1 = .error (.malformed offset defect) ↔
      offset = c.offset ∧ (block.length ≤ c.offset ∧ defect = .endOfBlock ∨
        UnknownTag block c ∧ defect = .unknownToken) := by
  rw [next_eq_malformed_iff, rest_ofBlock_eq_nil_iff, ← unknownTag_iff]
  rfl

theorem SpelledBetween.four_dvd {block : Bytes} {c c' : Cursor} {o : Option Token}
    (h : SpelledBetween block c c' o) (hc : 4 ∣ c.offset) : 4 ∣ c'.offset := by
  obtain ⟨hle, x, hx, hs⟩ := h
  obtain ⟨-, hl, -⟩ := Bytes.region?_eq_some_iff_append.1 hx
  rw [← Nat.add_sub_of_le hle, ← hl]
  refine Nat.dvd_add hc ?_
  cases o with
  | some t => exact hs.length ▸ t.four_dvd_size
  | none =>
    obtain rfl : x = BigEndian.encodeWord Tag.endOfTree.number := hs
    exact BigEndian.length_encodeWord _ ▸ Nat.dvd_refl _

/-- A read answers with a token exactly where the bytes from its place on spell it, and goes on at
their end, which is a multiple of four if the place is. It finds the block malformed exactly at or
behind the end of the block and at four bytes that are the tag of nothing. Everywhere else the block
breaks off inside of a token. -/
theorem next_ofBlock (block : Bytes) (c : Cursor) :
    (∀ o c', ((ofBlock block c).next.1 = .ok o ∧ (ofBlock block c).next.2.cursor = c') ↔
      SpelledBetween block c c' o) ∧
    (∀ o c', SpelledBetween block c c' o → 4 ∣ c.offset → 4 ∣ c'.offset) ∧
    (∀ offset defect, (ofBlock block c).next.1 = .error (.malformed offset defect) ↔
      offset = c.offset ∧ (block.length ≤ c.offset ∧ defect = .endOfBlock ∨
        UnknownTag block c ∧ defect = .unknownToken)) ∧
    (∀ offset length, (ofBlock block c).next.1 = .error (.outOfRegion offset length) ↔
      (ofBlock block c).BreaksOff offset length) ∧
    ((∃ offset length, (ofBlock block c).next.1 = .error (.outOfRegion offset length)) ↔
      (∀ o c', ¬ SpelledBetween block c c' o) ∧ c.offset < block.length ∧
        ¬ UnknownTag block c) := by
  refine ⟨fun o c' => next_eq_ok_iff_spelledBetween, fun o c' h => h.four_dvd,
    fun offset defect => next_ofBlock_eq_malformed_iff, fun offset length =>
      next_eq_outOfRegion_iff, ?_⟩
  constructor
  · rintro ⟨offset, length, h⟩
    refine ⟨fun o c' hs => ?_, Nat.lt_of_not_le fun hl => ?_, fun hu => ?_⟩
    · rw [(next_eq_ok_iff_spelledBetween.2 hs).1] at h
      cases h
    · rw [next_ofBlock_eq_malformed_iff.2 ⟨rfl, .inl ⟨hl, rfl⟩⟩] at h
      cases h
    · rw [next_ofBlock_eq_malformed_iff.2 ⟨rfl, .inr ⟨hu, rfl⟩⟩] at h
      cases h
  · rintro ⟨hs, hl, hu⟩
    rcases h : (ofBlock block c).next with ⟨e | o, s'⟩
    · rcases error_of_next h with ⟨hr, -⟩ | ⟨hn, -⟩ | ⟨offset, length, -, rfl⟩
      · exact absurd (rest_ofBlock_eq_nil_iff.1 hr) (Nat.not_le_of_lt hl)
      · exact absurd (unknownTag_iff.2 hn) hu
      · exact ⟨offset, length, rfl⟩
    · exact absurd (next_eq_ok_iff_spelledBetween.1 ⟨by rw [h], rfl⟩) (hs o _)

end Stream

end Devicetree
