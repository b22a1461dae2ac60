import Devicetree.Forest
import Devicetree.Stream.Spelling

/-!
# Passing tokens

`s.Passes ts s'` says that the tokens `ts` are read one after the other from `s` on and leave `s'`.
That is so exactly where the bytes spell the tokens (`passes_iff_spells`), and a forest is passed
by passing its items (`passes_node_iff`).

A forest stops at the tag that closes a level. No item starts there, so two forests that are passed
from one stream and stop are one forest (`forest_unique`): a block has no second reading.
-/

namespace Devicetree

namespace Stream

/-- Whether the tokens are read one after the other, and what stream they leave. -/
def Passes (s : Stream) : List Token → Stream → Prop
  | [], s' => s' = s
  | t :: ts, s' => ∃ s₁, s.next = (.ok (some t), s₁) ∧ s₁.Passes ts s'

/-- Whether a level ends here, with its node or with the tree. -/
def AtLevelEnd (s : Stream) : Prop :=
  s.next.1 = .ok (some .endNode) ∨ s.next.1 = .ok none

theorem offset_of_next {s s' : Stream} {t : Token} (h : s.next = (.ok (some t), s')) :
    s'.offset = s.offset + t.size := by
  obtain ⟨x, hx, -, ho⟩ := next_eq_some_iff.1 h
  rw [ho, hx.length]

theorem passes_append : ∀ (ts ts' : List Token) {s s' : Stream},
    s.Passes (ts ++ ts') s' ↔ ∃ s₁, s.Passes ts s₁ ∧ s₁.Passes ts' s'
  | [], ts', s, s' => by simp [Passes]
  | t :: ts, ts', s, s' => by
    simp only [List.cons_append, Passes]
    refine ⟨fun ⟨s₁, h, h'⟩ => ?_, fun ⟨s₂, ⟨s₁, h, h₂⟩, h₂'⟩ => ?_⟩
    · obtain ⟨s₂, h₂, h₂'⟩ := (passes_append ts ts').1 h'
      exact ⟨s₂, ⟨s₁, h, h₂⟩, h₂'⟩
    · exact ⟨s₁, h, (passes_append ts ts').2 ⟨s₂, h₂, h₂'⟩⟩

theorem passes_iff_spells : ∀ (ts : List Token) {s s' : Stream},
    s.Passes ts s' ↔
      ∃ x, Token.SpellsAll ts x ∧ s.rest = x ++ s'.rest ∧ s'.offset = s.offset + x.length
  | [], s, s' => by
    refine ⟨fun h => ?_, fun ⟨x, hx, hr, ho⟩ => ?_⟩
    · obtain rfl : s' = s := h
      exact ⟨[], .nil, rfl, rfl⟩
    · cases hx
      cases s
      cases s'
      simp_all [Passes]
  | t :: ts, s, s' => by
    refine ⟨fun ⟨s₁, h, h'⟩ => ?_, fun ⟨z, hz, hr, ho⟩ => ?_⟩
    · obtain ⟨x, hx, hr, ho⟩ := next_eq_some_iff.1 h
      obtain ⟨y, hy, hr', ho'⟩ := (passes_iff_spells ts).1 h'
      refine ⟨x ++ y, .cons hx hy, by rw [hr, hr', List.append_assoc], ?_⟩
      rw [ho', ho, List.length_append, Nat.add_assoc]
    · cases hz with
      | @cons _ _ x y hx hy =>
        have h : s.next = (.ok (some t), ⟨s.offset + x.length, y ++ s'.rest⟩) :=
          next_eq_some_iff.2 ⟨x, hx, by rw [hr, List.append_assoc], rfl⟩
        refine ⟨_, h, (passes_iff_spells ts).2 ⟨y, hy, rfl, ?_⟩⟩
        rw [ho, List.length_append, Nat.add_assoc]

theorem offset_of_passes {f : Forest} {s s' : Stream} (h : s.Passes f.tokens s') :
    s'.offset = s.offset + f.size := by
  obtain ⟨x, hx, -, ho⟩ := (passes_iff_spells f.tokens).1 h
  rw [ho, Forest.Spells.length hx]

/-- Passing tokens moves a stream along the bytes that it stands in front of. -/
theorem rest_of_passes {ts : List Token} {s s' : Stream} (h : s.Passes ts s') :
    s.offset ≤ s'.offset ∧ s'.rest = s.rest.drop (s'.offset - s.offset) := by
  obtain ⟨x, -, hr, ho⟩ := (passes_iff_spells ts).1 h
  refine ⟨by omega, ?_⟩
  rw [hr, ho, Nat.add_sub_cancel_left, List.drop_left]

theorem ofBlock_of_passes {block : Bytes} {c : Cursor} {ts : List Token} {s : Stream}
    (h : (ofBlock block c).Passes ts s) : s = ofBlock block s.cursor := by
  obtain ⟨hle, hr⟩ := rest_of_passes h
  have ho : c.offset + (s.offset - c.offset) = s.offset := Nat.add_sub_of_le hle
  obtain ⟨offset, rest⟩ := s
  simp only [ofBlock, cursor, List.drop_drop, mk.injEq, true_and] at hr ho ⊢
  rw [hr, ho]

/-- Bytes that spell tokens are all that it takes to pass these, whatever stands around them. -/
theorem passes_ofBlock_of_region? {block x : Bytes} {c : Cursor} {n : Nat} {ts : List Token}
    (hx : Token.SpellsAll ts x) (h : block.region? c.offset n = some x) :
    (ofBlock block c).Passes ts (ofBlock block ⟨c.offset + n⟩) := by
  obtain ⟨hl, rfl⟩ := Bytes.region?_eq_some_iff.1 h
  refine (passes_iff_spells ts).2 ⟨_, hx, ?_, ?_⟩
  · simp only [ofBlock]
    rw [← List.drop_drop, List.take_append_drop]
  · have hn : ((block.drop c.offset).take n).length = n := by
      rw [List.length_take, List.length_drop]
      omega
    rw [hn]
    rfl

/-- What is passed from the start of a block on is what the bytes in front of a place spell. -/
theorem passes_ofBlock_root_iff {block : Bytes} {c : Cursor} {ts : List Token} :
    (ofBlock block .root).Passes ts (ofBlock block c) ↔
      c.offset ≤ block.length ∧ Token.SpellsAll ts (block.take c.offset) := by
  constructor
  · intro h
    obtain ⟨x, hx, hr, ho⟩ := (passes_iff_spells ts).1 h
    have hb : block = x ++ block.drop c.offset := hr
    have hc : c.offset = x.length := ho.trans (Nat.zero_add _)
    constructor
    · rw [hc, hb, List.length_append]
      exact Nat.le_add_right _ _
    · rwa [hc, hb, List.take_left]
  · rintro ⟨hle, hx⟩
    have hr : block.region? 0 c.offset = some (block.take c.offset) :=
      Bytes.region?_eq_some_iff.2 ⟨by rwa [Nat.zero_add], rfl⟩
    have hp := passes_ofBlock_of_region? (c := .root) hx hr
    rwa [show Cursor.root.offset + c.offset = c.offset from Nat.zero_add c.offset] at hp

/-! ## Forests -/

theorem passes_node_iff {s s' : Stream} {name : Bytes} {items next : Forest} :
    s.Passes (Forest.node name items next).tokens s' ↔
      ∃ s₁ s₂ s₃, s.next = (.ok (some (.beginNode name)), s₁) ∧ s₁.Passes items.tokens s₂ ∧
        s₂.next = (.ok (some .endNode), s₃) ∧ s₃.Passes next.tokens s' := by
  simp only [Forest.tokens, Passes, passes_append]
  refine ⟨fun h => ?_, fun h => ?_⟩
  · obtain ⟨s₁, h₁, s₂, h₂, s₃, h₃, h⟩ := h
    exact ⟨s₁, s₂, s₃, h₁, h₂, h₃, h⟩
  · obtain ⟨s₁, s₂, s₃, h₁, h₂, h₃, h⟩ := h
    exact ⟨s₁, h₁, s₂, h₂, s₃, h₃, h⟩

theorem atLevelEnd_of_endNode {s s' : Stream} (h : s.next = (.ok (some .endNode), s')) :
    s.AtLevelEnd :=
  .inl (by rw [h])

theorem atLevelEnd_of_endOfTree {s s' : Stream} (h : s.next = (.ok none, s')) : s.AtLevelEnd :=
  .inr (by rw [h])

/-- Where a level ends, no forest but the empty one is passed. -/
theorem eq_nil_of_atLevelEnd {s s' : Stream} (he : s.AtLevelEnd) :
    ∀ {f : Forest}, s.Passes f.tokens s' → f = .nil ∧ s' = s
  | .nil, h => ⟨rfl, h⟩
  | .nop _, ⟨_, h, _⟩ => by simp [AtLevelEnd, h] at he
  | .property .., ⟨_, h, _⟩ => by simp [AtLevelEnd, h] at he
  | .node .., ⟨_, h, _⟩ => by simp [AtLevelEnd, h] at he

theorem forest_unique : ∀ (f f' : Forest) {s s₁ s₂ : Stream},
    s.Passes f.tokens s₁ → s₁.AtLevelEnd → s.Passes f'.tokens s₂ → s₂.AtLevelEnd →
      f = f' ∧ s₁ = s₂
  | .nil, f', s, s₁, s₂, h, he, h', he' => by
    obtain rfl : s₁ = s := h
    obtain ⟨rfl, rfl⟩ := eq_nil_of_atLevelEnd he h'
    exact ⟨rfl, rfl⟩
  | .nop next, f', s, s₁, s₂, ⟨t, ht, h⟩, he, h', he' => by
    cases f' with
    | nil =>
      obtain rfl : s₂ = s := h'
      simp [AtLevelEnd, ht] at he'
    | nop next' =>
      obtain ⟨t', ht', h'⟩ := h'
      obtain rfl : t = t' := by simpa [ht] using ht'
      obtain ⟨rfl, rfl⟩ := forest_unique next next' h he h' he'
      exact ⟨rfl, rfl⟩
    | property | node =>
      obtain ⟨_, ht', -⟩ := h'
      simp [ht] at ht'
  | .property nameOffset value next, f', s, s₁, s₂, ⟨t, ht, h⟩, he, h', he' => by
    cases f' with
    | nil =>
      obtain rfl : s₂ = s := h'
      simp [AtLevelEnd, ht] at he'
    | property nameOffset' value' next' =>
      obtain ⟨t', ht', h'⟩ := h'
      obtain ⟨⟨rfl, rfl⟩, rfl⟩ : (nameOffset = nameOffset' ∧ value = value') ∧ t = t' := by
        simpa [ht] using ht'
      obtain ⟨rfl, rfl⟩ := forest_unique next next' h he h' he'
      exact ⟨rfl, rfl⟩
    | nop | node =>
      obtain ⟨_, ht', -⟩ := h'
      simp [ht] at ht'
  | .node name items next, f', s, s₁, s₂, h, he, h', he' => by
    obtain ⟨t, t₁, t₂, ht, hi, ht₁, h⟩ := passes_node_iff.1 h
    cases f' with
    | nil =>
      obtain rfl : s₂ = s := h'
      simp [AtLevelEnd, ht] at he'
    | node name' items' next' =>
      obtain ⟨t', t₁', t₂', ht', hi', ht₁', h'⟩ := passes_node_iff.1 h'
      obtain ⟨rfl, rfl⟩ : name = name' ∧ t = t' := by simpa [ht] using ht'
      obtain ⟨rfl, rfl⟩ := forest_unique items items' hi (atLevelEnd_of_endNode ht₁) hi'
        (atLevelEnd_of_endNode ht₁')
      obtain rfl : t₂ = t₂' := by simpa [ht₁] using ht₁'
      obtain ⟨rfl, rfl⟩ := forest_unique next next' h he h' he'
      exact ⟨rfl, rfl⟩
    | nop | property =>
      obtain ⟨_, ht', -⟩ := h'
      simp [ht] at ht'

end Stream

end Devicetree
