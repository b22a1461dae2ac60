import Devicetree.Proofs.Refusals
import Devicetree.Proofs.SinglePass

/-!
# Reading on after errors

A reader may go on after an error and behind the end of the tree. Wherever it stands, one read moves
it by bytes that are there (`next_ahead`): by a token, by the tag or the header of a property behind
which it fails, or, with less than a tag left, not at all. So each read that moves it takes up at
least four bytes. Behind the last of them it stands still, and since a read depends on nothing but
its stream, each further one gives the same error (`exists_settled`).
-/

namespace Devicetree

theorem Token.SpellsNext.four_dvd_length {o : Option Token} {x : Bytes} (h : SpellsNext o x) :
    4 ∣ x.length ∧ 4 ≤ x.length := by
  cases o with
  | some t =>
    obtain hl : x.length = t.size := Spells.length h
    exact hl ▸ ⟨t.four_dvd_size, t.four_le_size⟩
  | none =>
    obtain rfl : x = BigEndian.encodeWord Tag.endOfTree.number := h
    decide

namespace Stream

/-- The stream `n` bytes further on. -/
def ahead (s : Stream) (n : Nat) : Stream :=
  ⟨s.offset + n, s.rest.drop n⟩

/-- The stream that `n` reads in a row leave, whatever they answer. -/
def after (s : Stream) : (n : Nat) → Stream
  | 0 => s
  | n + 1 => s.next.2.after n

variable {s s' : Stream}

@[simp]
theorem ahead_zero (s : Stream) : s.ahead 0 = s := rfl

theorem ahead_ahead (s : Stream) (m n : Nat) : (s.ahead m).ahead n = s.ahead (m + n) := by
  simp only [ahead, List.drop_drop, Nat.add_assoc]

theorem length_ahead (s : Stream) (n : Nat) :
    (s.ahead n).rest.length = s.rest.length - n :=
  List.length_drop

theorem ahead_ofBlock (block : Bytes) (c : Cursor) (n : Nat) :
    (ofBlock block c).ahead n = ofBlock block ⟨c.offset + n⟩ := by
  simp only [ahead, ofBlock, List.drop_drop]

/-! ## One read -/

theorem ahead_of_rest {x : Bytes} (hr : s.rest = x ++ s'.rest)
    (ho : s'.offset = s.offset + x.length) : s' = s.ahead x.length := by
  obtain ⟨offset, rest⟩ := s'
  simp only at hr ho
  rw [ahead, hr, List.drop_left, ho]

theorem ahead_of_word? {w : UInt32} (h : s.word? = some (w, s')) :
    4 ≤ s.rest.length ∧ s' = s.ahead 4 := by
  obtain ⟨b, -, hr, hl, ho⟩ := word?_eq_some_iff.1 h
  refine ⟨?_, hl ▸ ahead_of_rest hr (hl ▸ ho)⟩
  rw [hr, List.length_append, hl]
  exact Nat.le_add_right 4 _

theorem of_nextName_eq_error {e : Error} (h : s.nextName = (.error e, s')) : s' = s := by
  unfold nextName at h
  split at h
  · cases h
    rfl
  · split at h <;> cases h
    rfl

/-- A property whose header can be read is left behind the header. -/
theorem of_nextProperty_eq_error {e : Error} (h : s.nextProperty = (.error e, s')) :
    s' = s ∨ 8 ≤ s.rest.length ∧ s' = s.ahead 8 := by
  unfold nextProperty at h
  split at h
  · cases h
    exact .inl rfl
  · rename_i s₁ h₁
    obtain ⟨hl₁, rfl⟩ := ahead_of_word? h₁
    split at h
    · cases h
      exact .inl rfl
    · rename_i s₂ h₂
      obtain ⟨hl₂, rfl⟩ := ahead_of_word? h₂
      rw [length_ahead] at hl₂
      split at h <;> cases h
      exact .inr ⟨by omega, ahead_ahead s 4 4⟩

theorem ahead_of_next_eq_error {e : Error} (h : s.next = (.error e, s')) :
    ∃ n ≤ s.rest.length, s' = s.ahead n ∧ (n = 0 ∧ s.rest.length < 4 ∨ n = 4 ∨ n = 12) := by
  unfold next at h
  split at h
  · rename_i he
    cases h
    rw [List.isEmpty_iff.1 he]
    exact ⟨0, Nat.le_refl 0, rfl, .inl ⟨rfl, by decide⟩⟩
  · split at h
    · rename_i hw
      cases h
      exact ⟨0, Nat.zero_le _, rfl, .inl ⟨rfl, word?_eq_none_iff.1 hw⟩⟩
    · rename_i s₁ hw
      obtain ⟨hl, rfl⟩ := ahead_of_word? hw
      split at h
      · cases h
        exact ⟨4, hl, rfl, .inr (.inl rfl)⟩
      · rw [of_nextName_eq_error h]
        exact ⟨4, hl, rfl, .inr (.inl rfl)⟩
      · cases h
      · rcases of_nextProperty_eq_error h with rfl | ⟨hl', rfl⟩
        · exact ⟨4, hl, rfl, .inr (.inl rfl)⟩
        · rw [length_ahead] at hl'
          exact ⟨12, by omega, ahead_ahead s 4 8, .inr (.inr rfl)⟩
      · cases h
      · cases h

/-- By how many bytes a read moves the stream, whether it answers with a token or with an error. -/
theorem next_ahead (s : Stream) : ∃ n ≤ s.rest.length, s.next.2 = s.ahead n ∧ 4 ∣ n ∧
    (n = 0 ↔ s.rest.length < 4) ∧ (∀ o, s.next.1 = .ok o → 4 ≤ n) ∧
      ∀ e, s.next.1 = .error e → n ∈ [0, 4, 12] := by
  rcases h : s.next with ⟨e | o, s'⟩
  · obtain ⟨n, hn, rfl, hs⟩ := ahead_of_next_eq_error h
    have hm : n ∈ [0, 4, 12] := by
      rcases hs with ⟨rfl, -⟩ | rfl | rfl <;> decide
    have hd : 4 ∣ n := by
      rcases hs with ⟨rfl, -⟩ | rfl | rfl <;> decide
    exact ⟨n, hn, rfl, hd, by omega, nofun, fun _ _ => hm⟩
  · obtain ⟨x, hx, hr, ho⟩ := next_eq_ok_iff.1 h
    obtain ⟨hd, hl⟩ := hx.four_dvd_length
    have hle : x.length ≤ s.rest.length := by
      rw [hr, List.length_append]
      exact Nat.le_add_right _ _
    exact ⟨x.length, hle, ahead_of_rest hr ho, hd, by omega, fun _ _ => hl, nofun⟩

/-- How a read takes a reader of a block from `c` to `c'`. -/
structure Advances (block : Bytes) (c c' : Cursor) (answer : Except Error (Option Token)) :
    Prop where
  aligned : 4 ∣ c'.offset
  le : c.offset ≤ c'.offset
  le_max : c'.offset ≤ max c.offset block.length
  ok : ∀ o, answer = .ok o → c.offset + 4 ≤ c'.offset
  error : ∀ e, answer = .error e → ∃ n ∈ [0, 4, 12], c'.offset = c.offset + n
  stays : c'.offset = c.offset ↔ block.length < c.offset + 4

theorem advances_next (block : Bytes) {c : Cursor} (hc : 4 ∣ c.offset) :
    ∃ c', (ofBlock block c).next.2 = ofBlock block c' ∧
      Advances block c c' (ofBlock block c).next.1 := by
  obtain ⟨n, hn, hs, hd, hz, hok, herror⟩ := next_ahead (ofBlock block c)
  simp only [ofBlock, List.length_drop] at hn hz
  refine ⟨⟨c.offset + n⟩, hs.trans (ahead_ofBlock block c n), ?_⟩
  exact {
    aligned := Nat.dvd_add hc hd
    le := Nat.le_add_right _ _
    le_max := by
      rw [Nat.max_def]
      split <;> simp only <;> omega
    ok := fun o ho => Nat.add_le_add_left (hok o ho) _
    error := fun e he => ⟨n, herror e he, rfl⟩
    stays := by
      simp only
      omega }

/-! ## Reads in a row -/

theorem next_after (n : Nat) (s : Stream) : (s.after n).next.2 = s.after (n + 1) := by
  induction n generalizing s with
  | zero => rfl
  | succ n ih => exact ih s.next.2

theorem reads_add (m n : Nat) (s : Stream) :
    s.reads (m + n) = s.reads m ++ (s.after m).reads n := by
  induction m generalizing s with
  | zero => rw [Nat.zero_add, reads, after, List.nil_append]
  | succ m ih =>
    rw [Nat.succ_add, reads, reads, after, ih]
    rfl

section StandsStill

variable {answer : Except Error (Option Token)}

theorem after_of_next_eq_self (h : s.next = (answer, s)) (n : Nat) : s.after n = s := by
  induction n with
  | zero => rfl
  | succ n ih => rw [after, h, ih]

theorem reads_of_next_eq_self (h : s.next = (answer, s)) (n : Nat) :
    s.reads n = List.replicate n (answer, s) := by
  induction n with
  | zero => rfl
  | succ n ih => rw [reads, h, ih, List.replicate_succ]

end StandsStill

/-- With less than a tag left, a read fails and leaves the stream where it is. -/
theorem next_of_length_lt_four (h : s.rest.length < 4) : ∃ e, s.next = (.error e, s) := by
  obtain ⟨n, -, hs, -, hz, hok, -⟩ := next_ahead s
  obtain rfl := hz.2 h
  rcases hr : s.next with ⟨e | o, s'⟩ <;> rw [hr] at hs hok
  · exact ⟨e, by rw [← ahead_zero s, ← hs]⟩
  · exact absurd (hok o rfl) (by decide)

/-- The first `k` reads move the stream and no later one does. The induction is on the bytes that
are left: a read that moves takes up four of them or more. -/
theorem exists_settled (s : Stream) : ∃ k, 4 * k ≤ s.rest.length ∧
    (∀ i, (s.after (i + 1)).offset ≠ (s.after i).offset ↔ i < k) ∧
      ∃ e, (s.after k).next = (.error e, s.after k) := by
  rcases Nat.lt_or_ge s.rest.length 4 with hlt | hge
  · obtain ⟨e, he⟩ := next_of_length_lt_four hlt
    refine ⟨0, Nat.zero_le _, fun i => ?_, e, he⟩
    rw [after_of_next_eq_self he, after_of_next_eq_self he]
    simp
  · obtain ⟨n, hn, hs, hd, hz, -, -⟩ := next_ahead s
    have hl := length_ahead s n
    have hpos : 4 ≤ n := by omega
    have hafter (i : Nat) : s.after (i + 1) = (s.ahead n).after i := by rw [after, hs]
    obtain ⟨k, hk, hmoves, e, he⟩ := exists_settled (s.ahead n)
    refine ⟨k + 1, by omega, fun i => ?_, e, by rw [hafter, he]⟩
    cases i with
    | zero =>
      simp only [after, hs, ahead]
      omega
    | succ i => rw [hafter, hafter, hmoves, Nat.succ_lt_succ_iff]
termination_by s.rest.length

/-- Reads in a row from a multiple of four stay in the block and at such places. -/
theorem exists_after (block : Bytes) {c : Cursor} (hc : 4 ∣ c.offset) (i : Nat) :
    ∃ place, (ofBlock block c).after i = ofBlock block place ∧ 4 ∣ place.offset := by
  induction i with
  | zero => exact ⟨c, rfl, hc⟩
  | succ i ih =>
    obtain ⟨place, hi, hp⟩ := ih
    obtain ⟨place', hs, ha⟩ := advances_next block hp
    exact ⟨place', by rw [← next_after, hi, hs], ha.aligned⟩

/-- However often a reader goes on, each of its reads takes it from a multiple of four to a multiple
of four, and not back: by four bytes or more if it answers, by none, four or twelve if it fails, and
by none exactly where less than a tag is left. At most as many reads as the block has words move it,
and they are the first ones; each further read gives the same error at the same place. -/
theorem reads_settle (block : Bytes) (c : Cursor) (hc : 4 ∣ c.offset) :
    (∀ i, ∃ place place', (ofBlock block c).after i = ofBlock block place ∧
      (ofBlock block c).after (i + 1) = ofBlock block place' ∧
        Advances block place place' (ofBlock block place).next.1) ∧
    ∃ k ≤ block.length / 4,
      (∀ i, ((ofBlock block c).after (i + 1)).offset ≠ ((ofBlock block c).after i).offset ↔
        i < k) ∧
      ∃ e, ∀ n, (ofBlock block c).reads (k + n) = (ofBlock block c).reads k ++
        List.replicate n (.error e, (ofBlock block c).after k) := by
  constructor
  · intro i
    obtain ⟨place, hi, hp⟩ := exists_after block hc i
    obtain ⟨place', hs, ha⟩ := advances_next block hp
    exact ⟨place, place', hi, by rw [← next_after, hi, hs], ha⟩
  · obtain ⟨k, hk, hmoves, e, he⟩ := exists_settled (ofBlock block c)
    simp only [ofBlock, List.length_drop] at hk
    refine ⟨k, by omega, hmoves, e, fun n => ?_⟩
    rw [reads_add, reads_of_next_eq_self he]

/-- A property whose value of 64 bytes is not there, with ten other bytes behind its header. -/
def cutValue : Bytes :=
  [0, 0, 0, 3, 0, 0, 0, 64, 0, 0, 0, 0, 0, 0, 0, 9, 0, 0, 0, 7, 0, 0]

/-- The first read leaves the reader behind the header, from where it reads the tag that ends the
tree and a tag of nothing. With two bytes left it fails for ever. -/
theorem reads_settle_cutValue : 4 ∣ Cursor.root.offset ∧ cutValue.length / 4 = 5 ∧
    ∀ n, (ofBlock cutValue .root).reads (3 + n) =
      [(.error (.outOfRegion 12 64), ⟨12, cutValue.drop 12⟩), (.ok none, ⟨16, cutValue.drop 16⟩),
        (.error (.malformed 16 .unknownToken), ⟨20, cutValue.drop 20⟩)] ++
      List.replicate n (.error (.outOfRegion 20 4), ⟨20, cutValue.drop 20⟩) := by
  refine ⟨by decide, rfl, ?_⟩
  obtain ⟨k, -, hmoves, e, he⟩ := (reads_settle cutValue .root (by decide)).2
  have h₂ : 2 < k := (hmoves 2).1 (by decide)
  have h₃ : ¬ 3 < k := mt (hmoves 3).2 (by decide)
  obtain rfl : k = 3 := by omega
  obtain rfl : e = .outOfRegion 20 4 := by
    have h := congrArg List.getLast? (he 1)
    injection h with h
    injection h with h _
    injection h with h
    exact h.symm
  exact he

end Stream

end Devicetree
