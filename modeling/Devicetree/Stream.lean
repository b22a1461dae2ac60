import Devicetree.Error
import Devicetree.Token

/-!
# Streams of tokens

A stream is a place in a structure block, how far it is from the start of the block, with the bytes
from there on; a cursor is such a place alone. `next` reads one token. It answers with the token,
with nothing at the token that ends the tree, or with an error, and it always leaves a stream, since
a reader may go on after an error: an error leaves the stream in front of the part that it could not
read.
`length_of_next` says that a token read leaves fewer bytes, which is why every loop over a stream
ends.

Tokens start at multiples of four, so the padding of a region depends on its length alone.
-/

namespace Devicetree

/-- A place in a structure block where a token starts. -/
structure Cursor where
  offset : Nat
  deriving DecidableEq, Repr

namespace Cursor

/-- The start of the block, where the root node opens. -/
def root : Cursor := ⟨0⟩

instance : LT Cursor := ⟨fun c d => c.offset < d.offset⟩

instance (c d : Cursor) : Decidable (c < d) :=
  inferInstanceAs (Decidable (c.offset < d.offset))

end Cursor

structure Stream where
  /-- The distance from the start of the block. -/
  offset : Nat
  rest : Bytes
  deriving DecidableEq, Repr

namespace Stream

/-- The stream of a block from a cursor on. -/
def ofBlock (block : Bytes) (c : Cursor) : Stream :=
  ⟨c.offset, block.drop c.offset⟩

def cursor (s : Stream) : Cursor :=
  ⟨s.offset⟩

def take? (n : Nat) (s : Stream) : Option (Bytes × Stream) :=
  (Bytes.splitAt? n s.rest).map fun (front, rest) => (front, ⟨s.offset + n, rest⟩)

def word? (s : Stream) : Option (UInt32 × Stream) :=
  (s.take? 4).map fun (front, s) => (BigEndian.word front, s)

/-- The rest of a token that opens a node. -/
def nextName (s : Stream) : Except Error (Option Token) × Stream :=
  match Bytes.beforeNul? s.rest with
  | none => (.error (.outOfRegion s.offset (s.rest.length + 1)), s)
  | some name =>
    match s.take? (Bytes.padded (name.length + 1)) with
    | none => (.error (.outOfRegion s.offset (name.length + 1)), s)
    | some (_, s') => (.ok (some (.beginNode name)), s')

/-- The rest of a property. Its length and the place of its name come before its value. -/
def nextProperty (s : Stream) : Except Error (Option Token) × Stream :=
  match s.word? with
  | none => (.error (.outOfRegion s.offset 4), s)
  | some (size, s₁) =>
    match s₁.word? with
    | none => (.error (.outOfRegion s₁.offset 4), s)
    | some (nameOffset, s₂) =>
      match s₂.take? (Bytes.padded size.toNat) with
      | none => (.error (.outOfRegion s₂.offset size.toNat), s₂)
      | some (region, s') => (.ok (some (.property nameOffset (region.take size.toNat))), s')

/-- Reads a token: `none` is the token that ends the tree. -/
def next (s : Stream) : Except Error (Option Token) × Stream :=
  if s.rest.isEmpty then (.error (.malformed s.offset .endOfBlock), s)
  else
    match s.word? with
    | none => (.error (.outOfRegion s.offset 4), s)
    | some (tag, s') =>
      match Tag.ofNumber? tag with
      | none => (.error (.malformed s.offset .unknownToken), s')
      | some .beginNode => s'.nextName
      | some .endNode => (.ok (some .endNode), s')
      | some .property => s'.nextProperty
      | some .nop => (.ok (some .nop), s')
      | some .endOfTree => (.ok none, s')

/-- The answers to `n` reads in a row, each with the stream that it leaves. -/
def reads : (n : Nat) → Stream → List (Except Error (Option Token) × Stream)
  | 0, _ => []
  | n + 1, s =>
    let answer := s.next
    answer :: reads n answer.2

/-! ## How far a read goes -/

theorem take?_eq_some_iff {n : Nat} {s s' : Stream} {b : Bytes} :
    s.take? n = some (b, s') ↔
      s.rest = b ++ s'.rest ∧ b.length = n ∧ s'.offset = s.offset + n := by
  obtain ⟨offset', rest'⟩ := s'
  simp only [take?, Option.map_eq_some_iff, Prod.exists, Bytes.splitAt?_eq_some_iff,
    Prod.mk.injEq, Stream.mk.injEq]
  constructor
  · rintro ⟨x, y, ⟨h, hl⟩, rfl, rfl, rfl⟩
    exact ⟨h, hl, rfl⟩
  · rintro ⟨h, hl, rfl⟩
    exact ⟨b, rest', ⟨h, hl⟩, rfl, rfl, rfl⟩

theorem take?_eq_none_iff {n : Nat} {s : Stream} : s.take? n = none ↔ s.rest.length < n := by
  simp [take?, Bytes.splitAt?_eq_none_iff]

theorem word?_eq_some_iff {s s' : Stream} {w : UInt32} :
    s.word? = some (w, s') ↔
      ∃ b, w = BigEndian.word b ∧ s.rest = b ++ s'.rest ∧ b.length = 4 ∧
        s'.offset = s.offset + 4 := by
  simp only [word?, Option.map_eq_some_iff, Prod.exists, Prod.mk.injEq]
  constructor
  · rintro ⟨b, t, h, rfl, rfl⟩
    exact ⟨b, rfl, take?_eq_some_iff.1 h⟩
  · rintro ⟨b, rfl, h⟩
    exact ⟨b, s', take?_eq_some_iff.2 h, rfl, rfl⟩

theorem length_of_take? {n : Nat} {s s' : Stream} {b : Bytes} (h : s.take? n = some (b, s')) :
    s.rest.length = n + s'.rest.length := by
  obtain ⟨h, hl, -⟩ := take?_eq_some_iff.1 h
  rw [h, List.length_append, hl]

theorem length_of_word? {s s' : Stream} {w : UInt32} (h : s.word? = some (w, s')) :
    s.rest.length = 4 + s'.rest.length := by
  obtain ⟨b, -, h, hl, -⟩ := word?_eq_some_iff.1 h
  rw [h, List.length_append, hl]

theorem length_of_nextName {s s' : Stream} {o : Option Token} (h : s.nextName = (.ok o, s')) :
    s'.rest.length < s.rest.length := by
  unfold nextName at h
  split at h
  · simp at h
  · split at h
    · simp at h
    · rename_i name _ _ _ _ ht
      simp only [Prod.mk.injEq] at h
      have := length_of_take? ht
      have := Bytes.le_padded (name.length + 1)
      rw [← h.2]
      omega

theorem length_of_nextProperty {s s' : Stream} {o : Option Token}
    (h : s.nextProperty = (.ok o, s')) : s'.rest.length < s.rest.length := by
  unfold nextProperty at h
  split at h
  · simp at h
  · split at h
    · simp at h
    · split at h
      · simp at h
      · rename_i hs _ _ _ hn _ _ _ hr
        simp only [Prod.mk.injEq] at h
        have := length_of_word? hs
        have := length_of_word? hn
        have := length_of_take? hr
        rw [← h.2]
        omega

theorem length_of_next {s s' : Stream} {o : Option Token} (h : s.next = (.ok o, s')) :
    s'.rest.length < s.rest.length := by
  unfold next at h
  split at h
  · simp at h
  · split at h
    · simp at h
    · rename_i hw
      have := length_of_word? hw
      split at h
      · simp at h
      · have := length_of_nextName h
        omega
      · simp only [Prod.mk.injEq] at h
        rw [← h.2]; omega
      · have := length_of_nextProperty h
        omega
      · simp only [Prod.mk.injEq] at h
        rw [← h.2]; omega
      · simp only [Prod.mk.injEq] at h
        rw [← h.2]; omega

end Stream

end Devicetree
