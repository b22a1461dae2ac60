/-!
# Bytes

A blob is a list of bytes. Everything that reads it goes through three cuts: `splitAt?` takes a
region of known length off the front, `region?` one from a known place and `beforeNul?` a string
that a zero byte ends. For each, a lemma `…_eq_some_iff` says exactly when it succeeds and what it
gives. `slice?` is `region?` for a reader who knows where a region stops.
-/

namespace Devicetree

/-- A run of bytes: a blob, one of its blocks, a name or a value. -/
abbrev Bytes := List UInt8

namespace Bytes

/-- The bytes of a text in UTF-8. -/
def ofText (s : String) : Bytes :=
  s.toUTF8.data.toList

/-- A row of things that are written in `n` bytes each. -/
theorem length_flatMap {α : Type} {encode : α → Bytes} {n : Nat}
    (h : ∀ a, (encode a).length = n) (l : List α) : (l.flatMap encode).length = n * l.length := by
  induction l with
  | nil => rfl
  | cons a l ih =>
    rw [List.flatMap_cons, List.length_append, h, ih, List.length_cons, Nat.mul_succ, Nat.add_comm]

/-- The first `n` bytes and the rest, when there are that many. -/
def splitAt? (n : Nat) (b : Bytes) : Option (Bytes × Bytes) :=
  let front := b.take n
  if front.length = n then some (front, b.drop n) else none

theorem splitAt?_eq_some_iff {n : Nat} {b x y : Bytes} :
    splitAt? n b = some (x, y) ↔ b = x ++ y ∧ x.length = n := by
  simp only [splitAt?, Option.ite_none_right_eq_some, Option.some.injEq, Prod.mk.injEq]
  constructor
  · rintro ⟨h, rfl, rfl⟩
    exact ⟨(List.take_append_drop n b).symm, h⟩
  · rintro ⟨rfl, rfl⟩
    simp

theorem splitAt?_eq_none_iff {n : Nat} {b : Bytes} : splitAt? n b = none ↔ b.length < n := by
  simp only [splitAt?, List.length_take, ite_eq_right_iff, reduceCtorEq, imp_false]
  omega

/-- The bytes from `pos` on, when the run is at least that long. -/
def drop? : (pos : Nat) → Bytes → Option Bytes
  | 0, b => some b
  | pos + 1, _ :: b => drop? pos b
  | _ + 1, [] => none

theorem drop?_eq_some_iff {pos : Nat} {b x : Bytes} :
    drop? pos b = some x ↔ pos ≤ b.length ∧ x = b.drop pos := by
  induction pos generalizing b with
  | zero => simp [drop?, eq_comm]
  | succ pos ih => cases b <;> simp [drop?, ih]

/-- The `n` bytes that start at `pos`, when all of them are there. -/
def region? (b : Bytes) (pos n : Nat) : Option Bytes :=
  (drop? pos b).bind fun rest => (splitAt? n rest).map (·.1)

theorem region?_eq_some_iff {b x : Bytes} {pos n : Nat} :
    b.region? pos n = some x ↔ pos + n ≤ b.length ∧ x = (b.drop pos).take n := by
  simp only [region?, Option.bind_eq_some_iff, drop?_eq_some_iff, Option.map_eq_some_iff,
    Prod.exists, splitAt?_eq_some_iff]
  constructor
  · rintro ⟨_, ⟨hp, rfl⟩, y, z, ⟨h, rfl⟩, rfl⟩
    have := congrArg List.length h
    simp only [List.length_drop, List.length_append] at this
    exact ⟨by omega, by simp [h]⟩
  · rintro ⟨h, rfl⟩
    exact ⟨_, ⟨by omega, rfl⟩, _, (b.drop pos).drop n,
      ⟨(List.take_append_drop n _).symm, by simp; omega⟩, rfl⟩

theorem region?_eq_some_iff_append {b x : Bytes} {pos n : Nat} :
    b.region? pos n = some x ↔ pos ≤ b.length ∧ x.length = n ∧ ∃ y, b.drop pos = x ++ y := by
  rw [region?_eq_some_iff]
  constructor
  · rintro ⟨h, rfl⟩
    refine ⟨by omega, ?_, (b.drop pos).drop n, (List.take_append_drop n _).symm⟩
    rw [List.length_take, List.length_drop]
    omega
  · rintro ⟨hp, rfl, y, hy⟩
    have hl := congrArg List.length hy
    rw [List.length_drop, List.length_append] at hl
    exact ⟨by omega, by rw [hy, List.take_left]⟩

theorem region?_eq_none_iff {b : Bytes} {pos n : Nat} :
    b.region? pos n = none ↔ b.length < pos + n := by
  rw [← Option.not_isSome_iff_eq_none, Option.isSome_iff_exists]
  simp [region?_eq_some_iff]

theorem region?_append {x y z : Bytes} {pos n : Nat} (hp : pos = x.length) (hn : n = y.length) :
    (x ++ (y ++ z)).region? pos n = some y := by
  subst hp hn
  refine region?_eq_some_iff.2 ⟨?_, ?_⟩
  · simp only [List.length_append]
    omega
  · rw [List.drop_left, List.take_left]

theorem region?_add {b x y : Bytes} {pos m n : Nat} (hx : b.region? pos m = some x)
    (hy : b.region? (pos + m) n = some y) : b.region? pos (m + n) = some (x ++ y) := by
  rw [region?_eq_some_iff] at hx hy ⊢
  obtain ⟨-, rfl⟩ := hx
  obtain ⟨hl, rfl⟩ := hy
  refine ⟨by omega, ?_⟩
  rw [List.take_add, List.drop_drop]

/-- The bytes from `start` to before `stop`, when all of them are there. -/
def slice? (b : Bytes) (start stop : Nat) : Option Bytes :=
  if start ≤ stop ∧ stop ≤ b.length then some ((b.drop start).take (stop - start)) else none

theorem slice?_add (b : Bytes) (pos n : Nat) : b.slice? pos (pos + n) = b.region? pos n := by
  unfold slice?
  split
  · rename_i h
    exact (region?_eq_some_iff.2 ⟨h.2, by rw [Nat.add_sub_cancel_left]⟩).symm
  · rename_i h
    exact (region?_eq_none_iff.2 (by omega)).symm

/-- The bytes before the first zero byte, after those in `done`, the last one first. -/
def beforeNulFrom (done : Bytes) : Bytes → Option Bytes
  | [] => none
  | c :: b => if c = 0 then some done.reverse else beforeNulFrom (c :: done) b

/-- The bytes before the first zero byte, when there is one. -/
def beforeNul? (b : Bytes) : Option Bytes :=
  beforeNulFrom [] b

theorem beforeNulFrom_eq_some_iff {done b x : Bytes} :
    beforeNulFrom done b = some x ↔ ∃ y r, x = done.reverse ++ y ∧ 0 ∉ y ∧ b = y ++ 0 :: r := by
  induction b generalizing done with
  | nil => simp [beforeNulFrom]
  | cons c b ih =>
    by_cases hc : c = 0
    · simp only [beforeNulFrom, hc, if_pos, Option.some.injEq]
      constructor
      · rintro rfl
        exact ⟨[], b, by simp⟩
      · rintro ⟨_ | ⟨d, y⟩, r, rfl, hy, h⟩
        · simp
        · simp only [List.cons_append, List.cons.injEq] at h
          simp [h.1] at hy
    · simp only [beforeNulFrom, if_neg hc, ih]
      constructor
      · rintro ⟨y, r, rfl, hy, rfl⟩
        exact ⟨c :: y, r, by simp [hy, Ne.symm hc]⟩
      · rintro ⟨_ | ⟨d, y⟩, r, rfl, hy, h⟩
        · simp only [List.nil_append, List.cons.injEq] at h
          exact absurd h.1 hc
        · simp only [List.cons_append, List.cons.injEq] at h
          obtain ⟨rfl, rfl⟩ := h
          exact ⟨y, r, by simp_all⟩

theorem beforeNul?_eq_some_iff {b x : Bytes} :
    beforeNul? b = some x ↔ 0 ∉ x ∧ ∃ r, b = x ++ 0 :: r := by
  simp [beforeNul?, beforeNulFrom_eq_some_iff]

theorem beforeNul?_eq_none_iff {b : Bytes} : beforeNul? b = none ↔ 0 ∉ b := by
  rw [Option.eq_none_iff_forall_ne_some]
  constructor
  · intro h hmem
    obtain ⟨x, r, rfl, hx⟩ := List.eq_append_cons_of_mem hmem
    exact h x (beforeNul?_eq_some_iff.2 ⟨hx, r, rfl⟩)
  · intro h x hx
    obtain ⟨-, r, rfl⟩ := beforeNul?_eq_some_iff.1 hx
    exact h (List.mem_append_right _ List.mem_cons_self)

/-- Whether a string stands at `pos`: bytes that are not zero, and the zero byte that ends them. -/
def IsStringAt (b : Bytes) (pos : Nat) (string : Bytes) : Prop :=
  0 ∉ string ∧ ∃ front rest, b = front ++ (string ++ 0 :: rest) ∧ front.length = pos

/-- The string at `pos` that a zero byte ends, without that byte. -/
def stringAt? (b : Bytes) (pos : Nat) : Option Bytes :=
  beforeNul? (b.drop pos)

theorem stringAt?_eq_some_iff {b x : Bytes} {pos : Nat} :
    b.stringAt? pos = some x ↔ b.IsStringAt pos x := by
  rw [stringAt?, beforeNul?_eq_some_iff, IsStringAt, and_congr_right_iff]
  intro _
  constructor
  · rintro ⟨rest, h⟩
    have hl := congrArg List.length h
    rw [List.length_drop, List.length_append, List.length_cons] at hl
    refine ⟨b.take pos, rest, ?_, List.length_take_of_le (by omega)⟩
    rw [← h, List.take_append_drop]
  · rintro ⟨front, rest, rfl, rfl⟩
    exact ⟨rest, List.drop_left⟩

theorem isSome_stringAt?_iff {b : Bytes} {pos : Nat} :
    (b.stringAt? pos).isSome ↔ ∃ x, b.IsStringAt pos x := by
  simp only [Option.isSome_iff_exists, stringAt?_eq_some_iff]

instance (b : Bytes) (pos : Nat) : Decidable (∃ x, b.IsStringAt pos x) :=
  decidable_of_iff _ isSome_stringAt?_iff

/-- The least multiple of four that is at least `n`: what a region of `n` bytes takes up. -/
def padded (n : Nat) : Nat :=
  (n + 3) / 4 * 4

theorem le_padded (n : Nat) : n ≤ padded n := by
  unfold padded; omega

theorem padded_lt (n : Nat) : padded n < n + 4 := by
  unfold padded; omega

theorem four_dvd_padded (n : Nat) : 4 ∣ padded n :=
  Nat.dvd_mul_left 4 _

end Bytes

end Devicetree
