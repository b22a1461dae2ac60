import Devicetree.Offsets
import Devicetree.Stream.Spelling

/-!
# Reads at offsets are exact

An addition that is not checked comes behind a read that has succeeded, and so what it adds up lies
in the block: a part of a token, a name with the byte that ends it, a value. Only the padding goes
beyond that, by less than four bytes. A block is less than half of what there are words for, and so
each sum is a word (`exists_exact_next`). From a multiple of four the read is that of the stream.
-/

namespace Devicetree

namespace Bytes

/-- Whether a run of bytes is no longer than one in the memory of a machine can be. -/
def Addressable (b : Bytes) : Prop :=
  b.length < UInt64.size / 2

instance : DecidablePred Addressable := fun b =>
  inferInstanceAs (Decidable (b.length < UInt64.size / 2))

/-- Half of the words are left for what goes beyond the end of a run. -/
theorem Addressable.add_lt {b : Bytes} (hb : b.Addressable) {n k : Nat} (hn : n ≤ b.length)
    (hk : k ≤ UInt64.size / 2) : n + k < UInt64.size := by
  unfold Addressable at hb
  omega

theorem padded_add {offset : Nat} (h : 4 ∣ offset) (n : Nat) :
    padded (offset + n) = offset + padded n := by
  unfold padded
  omega

end Bytes

namespace Offsets

open Calculation

variable {b : Bytes} {offset : Nat}

/-! ## Numbers and strings -/

/-- A sum that is refused as too large lies behind the end of the bytes, and is refused there. -/
theorem exact_regionAt (hb : b.Addressable) (pos n : Nat) :
    (regionAt b pos n).Exact (valueOr (.outOfRegion pos n) (b.region? pos n)) := by
  by_cases h : pos + n < UInt64.size
  · refine (exact_sum? h).bind ?_
    rw [Option.bind_some, b.slice?_add]
    exact .pure _
  · have hr : b.region? pos n = none := by
      unfold Bytes.Addressable at hb
      exact Bytes.region?_eq_none_iff.2 (by omega)
    have hs : b.slice? pos (pos + n) = none := (b.slice?_add pos n).trans hr
    have hword : regionAt b pos n .word = (.error (.outOfRegion pos n), []) := by
      show (valueOr _ ((if pos + n < UInt64.size then some (pos + n) else none).bind _), _) = _
      rw [if_neg h]
      rfl
    have hunbounded : regionAt b pos n .unbounded = (.error (.outOfRegion pos n), []) := by
      show (valueOr _ (b.slice? pos (pos + n)), _) = _
      rw [hs]
      rfl
    rw [hr]
    exact {
      value := by rw [hunbounded]; rfl
      word := hword.trans hunbounded.symm
      fits := by rw [hunbounded]; nofun }

theorem exact_wordAt (hb : b.Addressable) (pos : Nat) : (wordAt b pos).Exact (b.wordAt pos) :=
  (exact_regionAt hb pos 4).bind (.pure _)

theorem exact_doubleWordAt (hb : b.Addressable) (pos : Nat) :
    (doubleWordAt b pos).Exact (b.doubleWordAt pos) :=
  (exact_regionAt hb pos 8).bind (.pure _)

theorem exact_cellsAt {v : Value} (hv : v.bytes.Addressable) (pos : Nat) (cells : UInt32) :
    (cellsAt v pos cells).Exact (v.cellsAt pos cells) := by
  unfold cellsAt Value.cellsAt
  split
  · exact (exact_wordAt hv pos).bind (.pure _)
  · split
    · exact exact_doubleWordAt hv pos
    · exact .pure _

theorem exact_stringAt (hb : b.Addressable) (pos : Nat) :
    (stringAt b pos).Exact (b.stringAt pos) := by
  unfold stringAt Bytes.stringAt Bytes.stringAt?
  split
  · rename_i h
    rw [List.drop_eq_nil_of_le (Nat.le_of_lt h)]
    exact .pure _
  · simp only
    split
    · rename_i hs
      rw [hs]
      exact .pure _
    · rename_i hs
      rw [hs]
      have hl : (b.drop pos).length ≤ b.length := by
        rw [List.length_drop]
        exact Nat.sub_le _ _
      exact (exact_sum (hb.add_lt hl (by decide))).bind (.pure _)

/-! ## Tokens -/

theorem exact_aligned {n : Nat} (h : n + 4 < UInt64.size) : (aligned n).Exact (Bytes.padded n) :=
  (exact_sum h).bind ((exact_difference (Nat.le_add_left_of_le (by decide)) h).bind (.pure _))

theorem exact_paddedEnd (hb : b.Addressable) {start length : Nat}
    (h : start + length ≤ b.length) :
    (paddedEnd b start length).Exact (valueOr (.outOfRegion start length)
      (if Bytes.padded (start + length) ≤ b.length then some (Bytes.padded (start + length))
        else none)) := by
  have hs : start + length < UInt64.size := hb.add_lt (k := 0) h (Nat.zero_le _)
  exact (exact_sum? hs).bind ((exact_aligned (hb.add_lt h (by decide))).bind (.pure _))

theorem rest_ofBlock (b : Bytes) (offset : Nat) :
    (Stream.ofBlock b ⟨offset⟩).rest = b.drop offset := rfl

theorem take?_ofBlock (h : offset ≤ b.length) (n : Nat) :
    (Stream.ofBlock b ⟨offset⟩).take? n =
      (b.region? offset n).map fun x => (x, .ofBlock b ⟨offset + n⟩) := by
  rcases hr : b.region? offset n with _ | x
  · rw [Bytes.region?_eq_none_iff] at hr
    rw [Option.map_none, Stream.take?_eq_none_iff, rest_ofBlock, List.length_drop]
    omega
  · obtain ⟨hl, rfl⟩ := Bytes.region?_eq_some_iff.1 hr
    refine Stream.take?_eq_some_iff.2 ⟨?_, ?_, rfl⟩
    · rw [rest_ofBlock, rest_ofBlock, ← List.drop_drop, List.take_append_drop]
    · rw [List.length_take, List.length_drop]
      omega

theorem word?_ofBlock (h : offset ≤ b.length) :
    b.wordAt offset = .error (.outOfRegion offset 4) ∧
        (Stream.ofBlock b ⟨offset⟩).word? = none ∨
      ∃ w, b.wordAt offset = .ok w ∧ offset + 4 ≤ b.length ∧
        (Stream.ofBlock b ⟨offset⟩).word? = some (w, .ofBlock b ⟨offset + 4⟩) := by
  rw [Stream.word?, take?_ofBlock h, Bytes.wordAt]
  rcases hr : b.region? offset 4 with _ | x
  · exact .inl ⟨rfl, rfl⟩
  · exact .inr ⟨_, rfl, (Bytes.region?_eq_some_iff.1 hr).1, rfl⟩

/-- Behind a region that lies in the block, the padding is there or it is not. -/
theorem exact_paddedEnd_or (hb : b.Addressable) {start length : Nat}
    (h : start + length ≤ b.length) :
    (∃ stop, (paddedEnd b start length).Exact (.ok stop) ∧ start ≤ stop ∧ stop ≤ b.length ∧
        (4 ∣ start → (Stream.ofBlock b ⟨start⟩).take? (Bytes.padded length) =
          some ((b.drop start).take (Bytes.padded length), .ofBlock b ⟨stop⟩))) ∨
      (paddedEnd b start length).Exact (.error (.outOfRegion start length)) ∧
        (4 ∣ start → (Stream.ofBlock b ⟨start⟩).take? (Bytes.padded length) = none) := by
  have hstart : start ≤ b.length := Nat.le_of_add_right_le h
  have hle := Bytes.le_padded (start + length)
  have hend := exact_paddedEnd hb h
  by_cases hp : Bytes.padded (start + length) ≤ b.length
  · rw [if_pos hp] at hend
    refine .inl ⟨_, hend, by omega, hp, fun hd => ?_⟩
    rw [Bytes.padded_add hd] at hp ⊢
    rw [take?_ofBlock hstart, Bytes.region?_eq_some_iff.2 ⟨hp, rfl⟩, Option.map_some]
  · rw [if_neg hp] at hend
    refine .inr ⟨hend, fun hd => ?_⟩
    rw [Bytes.padded_add hd] at hp
    rw [take?_ofBlock hstart, Bytes.region?_eq_none_iff.2 (Nat.lt_of_not_le hp), Option.map_none]

/-- Whether a part of a token, read at an offset of a block, is read without wrapping around and,
at a multiple of four, as the stream gives it. -/
def ReadsAs (b : Bytes) (offset : Nat) (x : Calculation (Except Error (Option Token) × Nat))
    (read : Stream → Except Error (Option Token) × Stream) : Prop :=
  ∃ answer offset', x.Exact (answer, offset') ∧
    (∀ o, answer = .ok o → offset ≤ offset' ∧ offset' ≤ b.length) ∧
    (4 ∣ offset → read (.ofBlock b ⟨offset⟩) = (answer, .ofBlock b ⟨offset'⟩))

theorem readsAs_pure (ho : offset ≤ b.length) (answer : Except Error (Option Token)) :
    ReadsAs b offset (pure (answer, offset)) fun s => (answer, s) :=
  ⟨answer, offset, .pure _, fun _ _ => ⟨Nat.le_refl offset, ho⟩, fun _ => rfl⟩

theorem readsAs_of_error {x : Calculation (Except Error (Option Token) × Nat)}
    {read : Stream → Except Error (Option Token) × Stream} {e : Error} {offset' : Nat}
    (hx : x.Exact (.error e, offset'))
    (ht : 4 ∣ offset → read (.ofBlock b ⟨offset⟩) = (.error e, .ofBlock b ⟨offset'⟩)) :
    ReadsAs b offset x read :=
  ⟨_, _, hx, fun _ h => (by cases h), ht⟩

theorem readsAs_nextName (hb : b.Addressable) (ho : offset ≤ b.length) :
    ReadsAs b offset (nextName b offset) Stream.nextName := by
  have hstring := exact_stringAt hb offset
  rcases hs : Bytes.beforeNul? (b.drop offset) with _ | name
  · have hv : b.stringAt offset = .error (.outOfRegion offset ((b.drop offset).length + 1)) := by
      rw [Bytes.stringAt, Bytes.stringAt?, hs, valueOr_none]
    rw [hv] at hstring
    refine readsAs_of_error (hstring.bind (.pure _)) fun _ => ?_
    simp only [Stream.nextName, rest_ofBlock, hs]
    rfl
  · have hv : b.stringAt offset = .ok name := by
      rw [Bytes.stringAt, Bytes.stringAt?, hs, valueOr_some]
    rw [hv] at hstring
    obtain ⟨-, r, hr⟩ := Bytes.beforeNul?_eq_some_iff.1 hs
    have hl := congrArg List.length hr
    rw [List.length_drop, List.length_append, List.length_cons] at hl
    have hname : name.length ≤ b.length := by omega
    have hbytes : offset + (name.length + 1) ≤ b.length := by omega
    have hlength := exact_sum (hb.add_lt hname (by decide : 1 ≤ UInt64.size / 2))
    rcases exact_paddedEnd_or hb hbytes with ⟨stop, hstop, hle, hle', ht⟩ | ⟨hstop, ht⟩
    · refine ⟨_, _, hstring.bind (hlength.bind (hstop.bind (.pure _))), fun _ _ => ⟨hle, hle'⟩,
        fun hd => ?_⟩
      simp only [Stream.nextName, rest_ofBlock, hs, ht hd]
    · refine readsAs_of_error (hstring.bind (hlength.bind (hstop.bind (.pure _)))) fun hd => ?_
      simp only [Stream.nextName, rest_ofBlock, hs, ht hd]
      rfl

theorem readsAs_nextValue (hb : b.Addressable) (ho : offset ≤ b.length)
    (size nameOffset : UInt32) :
    ReadsAs b offset (nextValue b offset size nameOffset) fun s =>
      match s.take? (Bytes.padded size.toNat) with
      | none => (.error (.outOfRegion s.offset size.toNat), s)
      | some (region, s') => (.ok (some (.property nameOffset (region.take size.toNat))), s') := by
  have hvalue := exact_regionAt hb offset size.toNat
  have hle := Bytes.le_padded size.toNat
  rcases hr : b.region? offset size.toNat with _ | value <;> rw [hr] at hvalue
  · rw [Bytes.region?_eq_none_iff] at hr
    have ht : (Stream.ofBlock b ⟨offset⟩).take? (Bytes.padded size.toNat) = none := by
      rw [Stream.take?_eq_none_iff, rest_ofBlock, List.length_drop]
      omega
    refine readsAs_of_error (hvalue.bind (.pure _)) fun _ => ?_
    simp only [ht]
    rfl
  · obtain ⟨hl, rfl⟩ := Bytes.region?_eq_some_iff.1 hr
    rcases exact_paddedEnd_or hb hl with ⟨stop, hstop, hs, hs', ht⟩ | ⟨hstop, ht⟩
    · refine ⟨_, _, hvalue.bind (hstop.bind (.pure _)), fun _ _ => ⟨hs, hs'⟩, fun hd => ?_⟩
      simp only [ht hd, List.take_take, Nat.min_eq_left hle]
    · refine readsAs_of_error (hvalue.bind (hstop.bind (.pure _))) fun hd => ?_
      simp only [ht hd]
      rfl

theorem readsAs_nextProperty (hb : b.Addressable) (ho : offset ≤ b.length) :
    ReadsAs b offset (nextProperty b offset) Stream.nextProperty := by
  have hsizeAt := exact_sum (hb.add_lt ho (Nat.zero_le _))
  have hsize := exact_wordAt hb offset
  rcases word?_ofBlock ho with ⟨hv, hw⟩ | ⟨size, hv, ho₁, hw⟩ <;> rw [hv] at hsize
  · refine readsAs_of_error (hsizeAt.bind (hsize.bind (.pure _))) fun _ => ?_
    simp only [Stream.nextProperty, hw]
    rfl
  have hnameAt := exact_sum (hb.add_lt ho (by decide : 4 ≤ UInt64.size / 2))
  have hname := exact_wordAt hb (offset + 4)
  rcases word?_ofBlock ho₁ with ⟨hv', hw'⟩ | ⟨nameOffset, hv', ho₂, hw'⟩ <;> rw [hv'] at hname
  · refine readsAs_of_error (hsizeAt.bind (hsize.bind (hnameAt.bind (hname.bind (.pure _)))))
      fun _ => ?_
    simp only [Stream.nextProperty, hw, hw']
    rfl
  have hstart := exact_sum (hb.add_lt ho (by decide : 8 ≤ UInt64.size / 2))
  obtain ⟨answer, offset', hvalue, hle, ht⟩ := readsAs_nextValue hb ho₂ size nameOffset
  refine ⟨answer, offset', hsizeAt.bind (hsize.bind (hnameAt.bind (hname.bind
    (hstart.bind hvalue)))), fun o h => ?_, fun hd => ?_⟩
  · have hle := hle o h
    omega
  · have ht := ht (by omega)
    simp only [Stream.nextProperty, hw, hw']
    exact ht

theorem readsAs_nextBehind (hb : b.Addressable) (ho : offset ≤ b.length) (start : Nat)
    (tag : Option Tag) :
    ReadsAs b offset (nextBehind b start offset tag) fun s =>
      match tag with
      | none => (.error (.malformed start .unknownToken), s)
      | some .beginNode => s.nextName
      | some .endNode => (.ok (some .endNode), s)
      | some .property => s.nextProperty
      | some .nop => (.ok (some .nop), s)
      | some .endOfTree => (.ok none, s) := by
  rcases tag with _ | tag
  · exact readsAs_pure ho _
  · cases tag with
    | beginNode => exact readsAs_nextName hb ho
    | property => exact readsAs_nextProperty hb ho
    | endNode | nop | endOfTree => exact readsAs_pure ho _

/-- A read at any offset of a block does not wrap around. If it answers it has moved, and not out of
the block; at a multiple of four it answers as the stream does and leaves off where it does. -/
theorem exists_exact_next (hb : b.Addressable) (offset : Nat) :
    ∃ answer offset', (next b offset).Exact (answer, offset') ∧
      (∀ o, answer = .ok o → offset + 4 ≤ offset' ∧ offset' ≤ b.length) ∧
      (4 ∣ offset → (Stream.ofBlock b ⟨offset⟩).next = (answer, .ofBlock b ⟨offset'⟩)) := by
  rw [next]
  split
  · rename_i hle
    refine ⟨_, _, .pure _, (fun _ h => by cases h), fun _ => ?_⟩
    rw [Stream.next, rest_ofBlock, List.drop_eq_nil_of_le hle]
    rfl
  · rename_i hlt
    have ho : offset ≤ b.length := by omega
    have he : (Stream.ofBlock b ⟨offset⟩).rest.isEmpty = false := by
      rw [rest_ofBlock, List.isEmpty_eq_false_iff, ← List.length_pos_iff, List.length_drop]
      omega
    have htag := exact_wordAt hb offset
    rcases word?_ofBlock ho with ⟨hv, hw⟩ | ⟨tag, hv, ho', hw⟩ <;> rw [hv] at htag
    · refine ⟨_, _, htag.bind (.pure _), (fun _ h => by cases h), fun _ => ?_⟩
      simp only [Stream.next, he, hw]
      rfl
    have hrest := exact_sum (hb.add_lt ho (by decide : 4 ≤ UInt64.size / 2))
    obtain ⟨answer, offset', hx, hle, ht⟩ :=
      readsAs_nextBehind hb ho' offset (Tag.ofNumber? tag)
    refine ⟨answer, offset', htag.bind (hrest.bind hx), hle, fun hd => ?_⟩
    have ht := ht (Nat.dvd_add hd (by decide))
    simp only [Stream.next, he, hw]
    exact ht

end Offsets

end Devicetree
