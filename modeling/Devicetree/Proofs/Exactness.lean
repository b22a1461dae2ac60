import Devicetree.Proofs.ExactReads
import Devicetree.Proofs.MemoryMap
import Devicetree.Proofs.Settling

/-!
# Offsets do not wrap around

A walk counts the nodes that are open and the calls for regions of memory count bytes. Each node has
a token of four bytes or more, so there are never more nodes open than bytes behind the walk
(`WalkState.Bounded`), and a pair of numbers goes beyond the end of a value by what a word of cells
can be at most. So what they calculate is exact, like the reads that they make, and what they answer
is what the walk of the blob and its regions are (`exact_of_addressable`).
-/

namespace Devicetree

namespace Bytes

theorem region?_drop {b : Bytes} {offset : Nat} (h : offset ≤ b.length) (pos n : Nat) :
    Bytes.region? (b.drop offset) pos n = b.region? (offset + pos) n := by
  rcases hr : b.region? (offset + pos) n with _ | x
  · rw [region?_eq_none_iff] at hr ⊢
    rw [List.length_drop]
    omega
  · rw [region?_eq_some_iff] at hr ⊢
    rw [List.length_drop, List.drop_drop]
    exact ⟨by omega, hr.2⟩

end Bytes

namespace MemoryRegions

variable {r : MemoryRegions}

theorem next_of_readable {address size : UInt64} (he : r.rest.isEmpty = false)
    (ha : r.rest.cellsAt 0 r.addressCells = .ok address)
    (hs : r.rest.cellsAt (r.addressCells.toNat * Value.cellSize) r.sizeCells = .ok size) :
    r.next = (some ⟨address, size⟩, { r with rest := ⟨r.rest.bytes.drop
      (r.addressCells.toNat * Value.cellSize + r.sizeCells.toNat * Value.cellSize)⟩ }) := by
  rw [next, he]
  simp only [ha, hs]
  rfl

theorem next_of_not_readable (h : ¬ r.Readable) : r.next = (none, r) := by
  unfold next
  split
  · rfl
  · simp only
    split
    · rename_i ha hs
      exact absurd ⟨_, _, ha, hs⟩ h
    · rfl

end MemoryRegions

namespace Offsets

open Calculation

variable {offset : Nat}

/-! ## Walks -/

namespace WalkState

variable {blob : Blob} {depth nested : Nat}

/-- No more nodes are open than there are bytes before the token that is read next. -/
def Bounded : WalkState → Prop
  | .reading offset nested => nested ≤ offset
  | .answered _ => True

def Aligned : WalkState → Prop
  | .reading offset _ => 4 ∣ offset
  | .answered _ => True

/-- What the walk of a blob answers that stands so. -/
def answer (blob : Blob) (depth : Nat) : WalkState → Except Error (Option Cursor)
  | .reading offset nested =>
    Option.map Stream.cursor <$> (blob.walkFrom depth nested (blob.streamAt ⟨offset⟩) []).1
  | .answered answer => answer

/-- How many rounds are left at most. -/
def roundsLeft (blob : Blob) : WalkState → Nat
  | .reading offset _ => (blob.structureBlock.length - offset) / 4 + 1
  | .answered _ => 0

/-- Whether a walk gets from one state to another and comes to the same answer from both. -/
structure LeadsTo (blob : Blob) (depth : Nat) (state state' : WalkState) (rounds : Nat) :
    Prop where
  bounded : state'.Bounded
  aligned : state.Aligned → state'.Aligned
  answer : state.Aligned → state'.answer blob depth = state.answer blob depth
  roundsLeft : state'.roundsLeft blob ≤ state.roundsLeft blob - rounds

theorem answer_reading_congr {offset offset' nested' : Nat} {seen : List Event}
    (h : blob.walkFrom depth nested (blob.streamAt ⟨offset⟩) [] =
      blob.walkFrom depth nested' (blob.streamAt ⟨offset'⟩) seen) :
    (reading offset' nested').answer blob depth = (reading offset nested).answer blob depth := by
  rw [answer, answer, h, blob.walkFrom_seen depth nested' _ seen]

theorem leadsTo_reading {offset offset' nested' : Nat} (hle : offset + 4 ≤ offset')
    (hle' : offset' ≤ blob.structureBlock.length) (hn : nested' ≤ offset')
    (hd : 4 ∣ offset → 4 ∣ offset')
    (ha : 4 ∣ offset → (reading offset' nested').answer blob depth =
      (reading offset nested).answer blob depth) :
    LeadsTo blob depth (.reading offset nested) (.reading offset' nested') 1 where
  bounded := hn
  aligned := hd
  answer := ha
  roundsLeft := by
    simp only [roundsLeft]
    omega

theorem leadsTo_answered {offset : Nat} {r : Except Error (Option Cursor)}
    (ha : 4 ∣ offset → r = (reading offset nested).answer blob depth) :
    LeadsTo blob depth (.reading offset nested) (.answered r) 1 where
  bounded := trivial
  aligned _ := trivial
  answer := ha
  roundsLeft := Nat.zero_le _

/-- A round of a walk adds one to the open nodes at most, and then it has moved by more. -/
theorem exists_exact_step (hs : blob.structureBlock.Addressable)
    (hn : blob.stringsBlock.Addressable) (depth : Nat) {state : WalkState} (h : state.Bounded) :
    ∃ state', (walkStep blob depth state).Exact state' ∧
      state.LeadsTo blob depth state' 1 := by
  cases state with
  | answered r => exact ⟨_, .pure _, trivial, fun h => h, fun _ => rfl, Nat.zero_le _⟩
  | reading offset nested =>
    obtain ⟨answer, offset', hx, hle, ht⟩ := exists_exact_next hs offset
    rcases answer with e | _ | t
    · refine ⟨_, hx.bind (.pure _), leadsTo_answered fun hd => ?_⟩
      rw [answer, Blob.streamAt, Blob.walkFrom_error (ht hd)]
      rfl
    · refine ⟨_, hx.bind (.pure _), leadsTo_answered fun hd => ?_⟩
      rw [answer, Blob.streamAt, Blob.walkFrom_endOfTree (ht hd)]
      split <;> rfl
    · obtain ⟨hle₁, hle₂⟩ := hle _ rfl
      have hd (hd : 4 ∣ offset) : 4 ∣ offset' := by
        obtain rfl : offset' = offset + t.size := Stream.offset_of_next (ht hd)
        exact Nat.dvd_add hd t.four_dvd_size
      have hnested : nested ≤ offset := h
      cases t with
      | beginNode name =>
        have hopen : nested ≤ blob.structureBlock.length := by omega
        have hsum := exact_sum (hs.add_lt hopen (by decide : 1 ≤ UInt64.size / 2))
        exact ⟨_, hx.bind (hsum.bind (.pure _)), leadsTo_reading hle₁ hle₂ (by omega) hd
          fun hd => answer_reading_congr (Blob.walkFrom_beginNode (ht hd))⟩
      | endNode =>
        cases nested with
        | zero =>
          refine ⟨_, hx.bind (.pure _), leadsTo_answered fun hd => ?_⟩
          rw [answer, Blob.streamAt, Blob.walkFrom_endNode_zero (ht hd)]
          split <;> rfl
        | succ nested =>
          have hnested : nested + 1 < UInt64.size := hs.add_lt (by omega) (by decide)
          have hdiff := exact_difference (Nat.le_add_left 1 nested) hnested
          exact ⟨_, hx.bind (hdiff.bind (.pure _)), leadsTo_reading hle₁ hle₂ (by omega) hd
            fun hd => answer_reading_congr (Blob.walkFrom_endNode_succ (ht hd))⟩
      | property nameOffset value =>
        have hname := exact_stringAt hn nameOffset.toNat
        rcases hv : blob.stringsBlock.stringAt nameOffset.toNat with e | name <;> rw [hv] at hname
        · refine ⟨_, hx.bind (hname.bind (.pure _)), leadsTo_answered fun hd => ?_⟩
          rw [answer, Blob.streamAt, Blob.walkFrom_property_error (ht hd) hv]
          rfl
        · exact ⟨_, hx.bind (hname.bind (.pure _)), leadsTo_reading hle₁ hle₂ (by omega) hd
            fun hd => answer_reading_congr (Blob.walkFrom_property (ht hd) hv)⟩
      | nop =>
        exact ⟨_, hx.bind (.pure _), leadsTo_reading hle₁ hle₂ (by omega) hd
          fun hd => answer_reading_congr (Blob.walkFrom_nop (ht hd))⟩

theorem exists_exact_steps (hs : blob.structureBlock.Addressable)
    (hn : blob.stringsBlock.Addressable) (depth rounds : Nat) {state : WalkState}
    (h : state.Bounded) :
    ∃ state', (walkSteps blob depth rounds state).Exact state' ∧
      state.LeadsTo blob depth state' rounds := by
  induction rounds generalizing state with
  | zero => exact ⟨state, .pure _, h, fun h => h, fun _ => rfl, Nat.le_refl _⟩
  | succ rounds ih =>
    obtain ⟨state₁, hx₁, h₁⟩ := exists_exact_step hs hn depth h
    obtain ⟨state', hx, h'⟩ := ih h₁.bounded
    have hleft := h₁.roundsLeft
    have hleft' := h'.roundsLeft
    exact ⟨state', hx₁.bind hx, h'.bounded, fun ha => h'.aligned (h₁.aligned ha),
      fun ha => (h'.answer (h₁.aligned ha)).trans (h₁.answer ha), by omega⟩

end WalkState

/-- With a round for each word of the block and one more a walk has come to its answer. -/
theorem exists_exact_walkSteps {blob : Blob} (hs : blob.structureBlock.Addressable)
    (hn : blob.stringsBlock.Addressable) (offset depth rounds : Nat) :
    ∃ state, (walkSteps blob depth rounds (.reading offset 0)).Exact state ∧
      (blob.structureBlock.length / 4 < rounds → ∃ answer, state = .answered answer ∧
        (4 ∣ offset → answer = (blob.walk ⟨offset⟩ depth).outcome)) := by
  have hstart : (WalkState.reading offset 0).Bounded := Nat.zero_le offset
  obtain ⟨state, hx, h⟩ := WalkState.exists_exact_steps hs hn depth rounds hstart
  refine ⟨state, hx, fun hr => ?_⟩
  cases state with
  | answered answer =>
    refine ⟨answer, rfl, fun hd => (h.answer hd).trans ?_⟩
    rw [Blob.walk, Observed.outcome_map]
    rfl
  | reading offset' nested =>
    have hleft := h.roundsLeft
    simp only [WalkState.roundsLeft] at hleft
    omega

/-! ## Memory -/

theorem toOption_map_valueOr {α β : Type} (f : α → β) (e : Error) (o : Option α) :
    (f <$> valueOr e o).toOption = o.map f := by
  cases o <;> rfl

theorem toOption_map {α β : Type} (f : α → β) (r : Except Error α) :
    (f <$> r).toOption = r.toOption.map f := by
  cases r <;> rfl

theorem ok_or_error_of_toOption_eq {α : Type} {x y : Except Error α}
    (h : x.toOption = y.toOption) :
    (∃ a, x = .ok a ∧ y = .ok a) ∨ ∃ e e', x = .error e ∧ y = .error e' := by
  cases x with
  | error e =>
    cases y with
    | error e' => exact .inr ⟨e, e', rfl, rfl⟩
    | ok a => cases h
  | ok a =>
    cases y with
    | error e' => cases h
    | ok a' =>
      cases h
      exact .inl ⟨a, rfl, rfl⟩

/-- From an offset on, a value has the same cells as the bytes that are left there. Only the place
that an error names is another one. -/
theorem toOption_cellsAt_drop {v : Value} (h : offset ≤ v.bytes.length) (pos : Nat)
    (cells : UInt32) : ((⟨v.bytes.drop offset⟩ : Value).cellsAt pos cells).toOption =
      (v.cellsAt (offset + pos) cells).toOption := by
  unfold Value.cellsAt
  split
  · rw [toOption_map, toOption_map, Value.wordAt, Value.wordAt, Bytes.wordAt, Bytes.wordAt,
      toOption_map_valueOr, toOption_map_valueOr, Bytes.region?_drop h]
  · split
    · rw [Value.doubleWordAt, Value.doubleWordAt, Bytes.doubleWordAt, Bytes.doubleWordAt,
        toOption_map_valueOr, toOption_map_valueOr, Bytes.region?_drop h]
    · rfl

theorem exact_cellsSize (cells : UInt32) :
    (product cells.toNat Value.cellSize).Exact (cells.toNat * Value.cellSize) ∧
      cells.toNat * Value.cellSize ≤ UInt64.size / 4 := by
  have hmax : UInt32.size * Value.cellSize ≤ UInt64.size / 4 := by decide
  have hle : cells.toNat * Value.cellSize ≤ UInt64.size / 4 :=
    Nat.le_trans (Nat.mul_le_mul_right _ (Nat.le_of_lt cells.toNat_lt_size)) hmax
  have hcells : cells.toNat < UInt64.size := Nat.lt_trans cells.toNat_lt_size (by decide)
  exact ⟨exact_product hcells (by decide) (Nat.lt_of_le_of_lt hle (by decide)), hle⟩

/-- The regions that are left from an offset of their value on. -/
def regionsFrom (r : MemoryRegions) (offset : Nat) : MemoryRegions :=
  { r with rest := ⟨r.rest.bytes.drop offset⟩ }

theorem exists_exact_nextRegion {r : MemoryRegions} (hr : r.rest.bytes.Addressable)
    (offset : Nat) :
    ∃ offset', (nextRegion r offset).Exact ((regionsFrom r offset).next.1, offset') ∧
      (regionsFrom r offset).next.2 = regionsFrom r offset' := by
  rw [nextRegion]
  split
  · rename_i hle
    have hn : (regionsFrom r offset).next = (none, regionsFrom r offset) := by
      rw [MemoryRegions.next, regionsFrom, List.drop_eq_nil_of_le hle]
      rfl
    rw [hn]
    exact ⟨offset, .pure _, rfl⟩
  · rename_i hlt
    have ho : offset ≤ r.rest.bytes.length := Nat.le_of_not_le hlt
    have he : (regionsFrom r offset).rest.isEmpty = false := by
      have hl := List.length_drop (i := offset) (l := r.rest.bytes)
      rw [Value.isEmpty, List.isEmpty_eq_false_iff, ← List.length_pos_iff]
      simp only [regionsFrom, Value.size] at hlt ⊢
      omega
    obtain ⟨hproduct, hle⟩ := exact_cellsSize r.addressCells
    obtain ⟨hproduct', hle'⟩ := exact_cellsSize r.sizeCells
    have hsizeAt := exact_sum (hr.add_lt ho (Nat.le_trans hle (by decide)))
    have hstop : (sum (offset + r.addressCells.toNat * Value.cellSize)
        (r.sizeCells.toNat * Value.cellSize)).Exact (offset + (r.addressCells.toNat * Value.cellSize
          + r.sizeCells.toNat * Value.cellSize)) := by
      rw [← Nat.add_assoc]
      refine exact_sum ?_
      rw [Nat.add_assoc]
      exact hr.add_lt ho (by omega)
    have haddress := exact_cellsAt hr offset r.addressCells
    have hsize := exact_cellsAt hr (offset + r.addressCells.toNat * Value.cellSize) r.sizeCells
    rcases ok_or_error_of_toOption_eq (toOption_cellsAt_drop ho 0 r.addressCells) with
      ⟨address, ha, hv⟩ | ⟨_, _, ha, hv⟩ <;> rw [Nat.add_zero] at hv <;> rw [hv] at haddress
    · rcases ok_or_error_of_toOption_eq (toOption_cellsAt_drop ho
        (r.addressCells.toNat * Value.cellSize) r.sizeCells) with
        ⟨size, hs, hv'⟩ | ⟨_, _, hs, hv'⟩ <;> rw [hv'] at hsize
      · rw [MemoryRegions.next_of_readable he ha hs]
        refine ⟨_, hproduct.bind (hsizeAt.bind (haddress.bind (hsize.bind
          (hproduct'.bind (hstop.bind (.pure _)))))), ?_⟩
        rw [regionsFrom, regionsFrom, List.drop_drop]
      · have hn : ¬ (regionsFrom r offset).Readable := by
          rintro ⟨_, _, -, h⟩
          cases hs.symm.trans h
        rw [MemoryRegions.next_of_not_readable hn]
        exact ⟨_, hproduct.bind (hsizeAt.bind (haddress.bind (hsize.bind (.pure _)))), rfl⟩
    · have hn : ¬ (regionsFrom r offset).Readable := by
        rintro ⟨_, _, h, -⟩
        cases ha.symm.trans h
      rw [MemoryRegions.next_of_not_readable hn]
      exact ⟨_, hproduct.bind (hsizeAt.bind (haddress.bind (.pure _))), rfl⟩

/-- However often one asks, the calls give what those on the value give. -/
theorem exact_nextRegions {r : MemoryRegions} (hr : r.rest.bytes.Addressable) (n offset : Nat) :
    (nextRegions r n offset).Exact
      ((List.range n).map fun i => ((regionsFrom r offset).after i).next.1) := by
  induction n generalizing offset with
  | zero => exact .pure _
  | succ n ih =>
    obtain ⟨offset', hx, hn⟩ := exists_exact_nextRegion hr offset
    rw [List.range_succ_eq_map, List.map_cons, List.map_map]
    have hrest := ih offset'
    rw [← hn] at hrest
    exact hx.bind (hrest.bind (.pure _))

end Offsets

/-- The value of a property is as long as a word of its header says. -/
theorem Blob.size_of_lookup {b : Blob} {c : Cursor} {path : Path} {mode : MatchMode} {v : Value}
    (h : (b.lookup c path mode).outcome = .ok (.property v)) : v.size < UInt32.size := by
  obtain ⟨place, -, hs⟩ := readsUpTo_lookup b c path mode
  obtain ⟨nameOffset, c', hr⟩ := hs _ h
  obtain ⟨x, hx, -⟩ := Stream.next_eq_some_iff.1 hr
  exact hx.writable

theorem Found.eq_property_of_value? {found : Found} {v : Value} (h : found.value? = some v) :
    found = .property v := by
  cases found with
  | property value =>
    cases h
    rfl
  | node | nothing => cases h

theorem Config.addressable_of_discover {b : Blob} {c : Config}
    (h : (discover b).outcome = .ok c) : c.reg.bytes.Addressable := by
  simp only [discover, Observed.outcome_bind, Observed.outcome_liftM, Observed.outcome_tell,
    Observed.outcome_pure, bind_eq_ok_iff, require_eq_ok_iff, valueOr_eq_ok_iff,
    Except.ok.injEq] at h
  obtain ⟨_, -, _, -, -, -, -, -, -, -, -, -, _, -, _, -, _, -, _, -, _, -, -, -, found, hfound,
    reg, hreg, -, -, rfl⟩ := h
  have hsize : reg.size < UInt32.size :=
    Blob.size_of_lookup (Found.eq_property_of_value? hreg ▸ hfound)
  exact Nat.lt_trans hsize (by decide)

/-- Nothing that is calculated with offsets wraps around, whatever the bytes and the offset are:
each sum that is not checked is a word, and the results are those with unbounded numbers. At
multiples of four they are what streams and walks give, and at all offsets what is read in a value
or as a name. The regions of a discovered memory are those that come one by one from its value. -/
theorem Offsets.exact_of_addressable (b : Bytes) (blob : Blob) (hb : b.Addressable)
    (hs : blob.structureBlock.Addressable) (hn : blob.stringsBlock.Addressable) :
    (∀ offset, ∃ answer offset', (next b offset).Exact (answer, offset') ∧
      (4 ∣ offset → (Stream.ofBlock b ⟨offset⟩).next = (answer, .ofBlock b ⟨offset'⟩))) ∧
    (∀ pos, (stringAt b pos).Exact (b.stringAt pos)) ∧
    (∀ pos, (wordAt b pos).Exact (b.wordAt pos)) ∧
    (∀ pos, (doubleWordAt b pos).Exact (b.doubleWordAt pos)) ∧
    (∀ pos cells, (cellsAt ⟨b⟩ pos cells).Exact (Value.cellsAt ⟨b⟩ pos cells)) ∧
    (∀ offset depth rounds, ∃ state,
      (walkSteps blob depth rounds (.reading offset 0)).Exact state ∧
      (blob.structureBlock.length / 4 < rounds → ∃ answer, state = .answered answer ∧
        (4 ∣ offset → answer = (blob.walk ⟨offset⟩ depth).outcome))) ∧
    ∀ config, (Config.discover blob).outcome = .ok config → ∀ n,
      (nextRegions config.memoryRegions n 0).Exact
        ((List.range n).map fun i => (config.memoryRegions.after i).next.1) := by
  refine ⟨fun offset => ?_, exact_stringAt hb, exact_wordAt hb, exact_doubleWordAt hb,
    exact_cellsAt hb, exists_exact_walkSteps hs hn, fun config hc n => ?_⟩
  · obtain ⟨answer, offset', hx, -, ht⟩ := exists_exact_next hb offset
    exact ⟨answer, offset', hx, ht⟩
  · have hr : config.memoryRegions.rest.bytes.Addressable := Config.addressable_of_discover hc
    exact exact_nextRegions hr n 0

/-- On the machine with reserved memory the second call for a region finds none. In a property whose
value is not there the sums reach the end of the header, and behind the end of the bytes there is
nothing to add. -/
theorem Offsets.exact_reservingMachine :
    Stream.cutValue.Addressable ∧ Layout.reservingMachine.blob.structureBlock.Addressable ∧
      Layout.reservingMachine.blob.stringsBlock.Addressable ∧
      next Stream.cutValue 0 .word = ((.error (.outOfRegion 12 64), 12), [4, 4, 8, 12]) ∧
      next Stream.cutValue (UInt64.size - 1) .word =
        ((.error (.malformed (UInt64.size - 1) .endOfBlock), UInt64.size - 1), []) ∧
      (nextRegions Layout.reservingConfig.memoryRegions 2 0 .word).1 =
        [some ⟨0x80000000, 0x40000000⟩, none] := by
  obtain ⟨root, hr, hd⟩ := Layout.reservingMachine_describes
  have hc : (Config.discover Layout.reservingMachine.blob).outcome = .ok Layout.reservingConfig :=
    (Config.outcome_discover_eq_ok_iff (Layout.holds_blob Layout.reservingMachine_writable)).2
      ⟨root, _, _, hr, hd, rfl⟩
  have hb : Stream.cutValue.Addressable := by decide
  have hs : Layout.reservingMachine.blob.structureBlock.Addressable := by decide +kernel
  have hn : Layout.reservingMachine.blob.stringsBlock.Addressable := by decide +kernel
  obtain ⟨hnext, -, -, -, -, -, hregions⟩ := exact_of_addressable _ _ hb hs hn
  obtain ⟨_, _, h₀, -⟩ := hnext 0
  obtain ⟨_, _, h₁, -⟩ := hnext (UInt64.size - 1)
  have h₂ := hregions _ hc 2
  refine ⟨hb, hs, hn, h₀.word.trans rfl, h₁.word.trans rfl, ?_⟩
  rw [h₂.word, h₂.value]
  rfl

end Devicetree
