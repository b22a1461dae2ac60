import Devicetree.Proofs.InMemory

/-!
# Which bytes open as a blob

Six things are demanded of the bytes that a blob is opened from (`Demand`), all of them of their
number and of the ten words of the header. The blob opens if all are met, and else the error says
which is the first that is not (`ofBytes_eq`). Sums of an offset and a size are sums of numbers
here: no pair of words wraps around to a block that seems to fit.

The demands are enough to cut the blocks out with no look at the bytes that are there: `ofCuts` does
so and never leaves them (`ofCuts_eq`).
-/

namespace Devicetree

/-- What bytes have to meet to be opened. -/
inductive Demand where
  | header
  | magic
  | totalSize
  | alignment
  | structureBlock
  | stringsBlock
  deriving DecidableEq, Repr

namespace Demand

/-- The demands in the order in which they are looked at. -/
def all : List Demand :=
  [header, magic, totalSize, alignment, structureBlock, stringsBlock]

theorem mem_all (d : Demand) : d ∈ all := by
  cases d <;> decide

def Met (b : Bytes) : Demand → Prop
  | header => Header.size ≤ b.length
  | magic => Header.field b 0 = Header.magicNumber
  | totalSize => (Header.field b 1).toNat ≤ b.length
  | alignment => (Header.field b 2).toNat % 4 = 0
  | structureBlock =>
    (Header.field b 2).toNat + (Header.field b 9).toNat ≤ (Header.field b 1).toNat
  | stringsBlock =>
    (Header.field b 3).toNat + (Header.field b 8).toNat ≤ (Header.field b 1).toNat

instance (b : Bytes) : DecidablePred (Met b)
  | header => inferInstanceAs (Decidable (_ ≤ _))
  | magic => inferInstanceAs (Decidable (_ = _))
  | totalSize => inferInstanceAs (Decidable (_ ≤ _))
  | alignment => inferInstanceAs (Decidable (_ = _))
  | structureBlock => inferInstanceAs (Decidable (_ ≤ _))
  | stringsBlock => inferInstanceAs (Decidable (_ ≤ _))

/-- What is said if the demand is not met. -/
def error (b : Bytes) : Demand → Error
  | header => .outOfRegion 0 Header.size
  | magic => .badMagic (Header.field b 0)
  | totalSize => .outOfRegion 0 (Header.field b 1).toNat
  | alignment => .malformed 0 .unalignedBlock
  | structureBlock => .outOfRegion (Header.field b 2).toNat (Header.field b 9).toNat
  | stringsBlock => .outOfRegion (Header.field b 3).toNat (Header.field b 8).toNat

def firstUnmet? (b : Bytes) : Option Demand :=
  all.find? fun d => ¬ d.Met b

theorem firstUnmet?_eq_none_iff {b : Bytes} : firstUnmet? b = none ↔ ∀ d : Demand, d.Met b := by
  simp [firstUnmet?, mem_all]

end Demand

/-- Of several conditions the first that does not hold stops with its error. -/
theorem forM_require {ι : Type} (p : ι → Prop) [DecidablePred p] (e : ι → Error) :
    ∀ is : List ι, (forM is fun i => require (p i) (e i)) =
      match is.find? fun i => ¬ p i with
      | none => .ok ()
      | some i => .error (e i)
  | [] => rfl
  | i :: is => by
    have ih := forM_require p e is
    rw [List.forM_cons, List.find?_cons]
    by_cases hi : p i
    · rw [(require_eq_ok_iff (u := ())).2 hi, ok_bind, ih]
      simp only [hi, not_true, decide_false]
    · rw [require_eq_error_iff.2 ⟨hi, rfl⟩, error_bind]
      simp only [hi, not_false_iff, decide_true]

/-- The ten words at the start of bytes, in their order. -/
def Header.ofFields (b : Bytes) : Header where
  magic := field b 0
  totalSize := field b 1
  structureOffset := field b 2
  stringsOffset := field b 3
  reservationOffset := field b 4
  version := field b 5
  lastCompatible := field b 6
  bootCpu := field b 7
  stringsSize := field b 8
  structureSize := field b 9

namespace Blob

/-- What bytes open as if they open. -/
def ofFields (b : Bytes) : Blob where
  header := .ofFields b
  bytes := b.take (Header.field b 1).toNat
  structureBlock := (b.drop (Header.field b 2).toNat).take (Header.field b 9).toNat
  stringsBlock := (b.drop (Header.field b 3).toNat).take (Header.field b 8).toNat

variable {b : Bytes}

theorem block_take {n : Nat} (hn : n ≤ b.length) (offset size : UInt32) :
    block (b.take n) offset size = do
      require (offset.toNat + size.toNat ≤ n) (.outOfRegion offset.toNat size.toNat)
      return (b.drop offset.toNat).take size.toNat := by
  have hl : (b.take n).length = n := List.length_take_of_le hn
  by_cases h : offset.toNat + size.toNat ≤ n
  · have hr : Bytes.region? (b.take n) offset.toNat size.toNat =
        some ((b.drop offset.toNat).take size.toNat) := by
      refine Bytes.region?_eq_some_iff.2 ⟨by rwa [hl], ?_⟩
      rw [List.drop_take, List.take_take, Nat.min_eq_left (Nat.le_sub_of_add_le' h)]
    rw [block, hr, (require_eq_ok_iff (u := ())).2 h]
    rfl
  · have hr : Bytes.region? (b.take n) offset.toNat size.toNat = none := by
      rw [Bytes.region?_eq_none_iff, hl]
      exact Nat.lt_of_not_le h
    rw [block, hr, require_eq_error_iff.2 ⟨h, rfl⟩]
    rfl

/-- Opening looks at one demand after the other. Behind that for the total size, the blocks are cut
out of as many bytes as it says. -/
theorem ofBytes_eq_forM (b : Bytes) : ofBytes b = do
    forM Demand.all fun d => require (d.Met b) (d.error b)
    return ofFields b := by
  have hread : Header.read b = do
      require (Demand.header.Met b) (Demand.header.error b)
      require (Demand.magic.Met b) (Demand.magic.error b)
      return Header.ofFields b := rfl
  rw [ofBytes, hread]
  simp only [Demand.all, List.forM_cons, List.forM_nil, bind_assoc, pure_bind]
  refine bind_congr fun _ => bind_congr fun _ => ?_
  by_cases ht : Demand.totalSize.Met b
  · simp only [Header.ofFields, block_take ht, bind_assoc, pure_bind]
    rfl
  · rw [require_eq_error_iff.2 ⟨ht, rfl⟩, error_bind]
    exact congrArg (· >>= _) (require_eq_error_iff.2 ⟨ht, rfl⟩)

theorem ofBytes_eq (b : Bytes) : ofBytes b =
    match Demand.firstUnmet? b with
    | none => .ok (ofFields b)
    | some d => .error (d.error b) := by
  rw [ofBytes_eq_forM, forM_require, Demand.firstUnmet?]
  generalize Demand.all.find? (fun d => ¬ d.Met b) = o
  cases o <;> rfl

theorem ofBytes_eq_ok_iff {blob : Blob} :
    ofBytes b = .ok blob ↔ (∀ d : Demand, d.Met b) ∧ blob = ofFields b := by
  rw [ofBytes_eq, ← Demand.firstUnmet?_eq_none_iff]
  rcases Demand.firstUnmet? b with _ | d <;> simp [eq_comm]

theorem ofBytes_eq_error_iff {e : Error} :
    ofBytes b = .error e ↔ ∃ d, Demand.firstUnmet? b = some d ∧ e = d.error b := by
  rw [ofBytes_eq]
  rcases Demand.firstUnmet? b with _ | d <;> simp [eq_comm]

/-! ## What is opened -/

/-- Whether a blob is what stands in bytes: the words of its header one after the other from the
start on, and its parts where the header says. All of it is there. -/
structure CutFrom (blob : Blob) (b : Bytes) : Prop where
  words : ∀ i w, blob.header.words[i]? = some w → b.wordAt (4 * i) = .ok w
  bytes : b.region? 0 blob.header.totalSize.toNat = some blob.bytes
  structureBlock : b.region? blob.header.structureOffset.toNat blob.header.structureSize.toNat =
    some blob.structureBlock
  stringsBlock : b.region? blob.header.stringsOffset.toNat blob.header.stringsSize.toNat =
    some blob.stringsBlock

theorem wordAt_eq_field {i : Nat} (h : 4 * i + 4 ≤ b.length) :
    b.wordAt (4 * i) = .ok (Header.field b i) := by
  rw [Bytes.wordAt, Bytes.region?_eq_some_iff.2 ⟨h, rfl⟩]
  rfl

theorem cutFrom_ofFields (h : ∀ d : Demand, d.Met b) : (ofFields b).CutFrom b where
  words i w hw := by
    have hl : Header.size ≤ b.length := h .header
    have hfields : (ofFields b).header.words = (List.range 10).map (Header.field b) := rfl
    rw [hfields] at hw
    obtain ⟨hi, rfl⟩ := List.getElem?_eq_some_iff.1 hw
    rw [List.length_map, List.length_range] at hi
    rw [List.getElem_map, List.getElem_range]
    refine wordAt_eq_field (Nat.le_trans ?_ hl)
    rw [Header.size]
    omega
  bytes := by
    refine Bytes.region?_eq_some_iff.2 ⟨?_, rfl⟩
    rw [Nat.zero_add]
    exact h .totalSize
  structureBlock := by
    refine Bytes.region?_eq_some_iff.2 ⟨?_, rfl⟩
    exact Nat.le_trans (h .structureBlock) (h .totalSize)
  stringsBlock := by
    refine Bytes.region?_eq_some_iff.2 ⟨?_, rfl⟩
    exact Nat.le_trans (h .stringsBlock) (h .totalSize)

theorem field_append {i : Nat} (h : 4 * i + 4 ≤ b.length) (tail : Bytes) :
    Header.field (b ++ tail) i = Header.field b i := by
  rw [← Header.field_take h, List.take_left]

/-- What follows the bytes of a blob is not a part of it. -/
theorem ofBytes_append {blob : Blob} (h : ofBytes b = .ok blob) (tail : Bytes) :
    ofBytes (b ++ tail) = .ok blob := by
  have hmet := (ofBytes_eq_ok_iff.1 h).1
  have hl : Header.size ≤ b.length := hmet .header
  have ht : (Header.field (b ++ tail) 1).toNat ≤ b.length := by
    rw [field_append (Nat.le_trans (by decide) hl)]
    exact hmet .totalSize
  rw [← ofBytes_take hl ht, List.take_left, h]

/-! ## Cuts without a look -/

/-- Where a block starts and stops, if that is inside of the whole. -/
def range (offset size totalSize : UInt32) : Except Error (Nat × Nat) := do
  require (offset.toNat + size.toNat ≤ totalSize.toNat) (.outOfRegion offset.toNat size.toNat)
  return (offset.toNat, offset.toNat + size.toNat)

/-- Opens a blob with cuts that only the header is asked for. Nobody answers a cut that leaves the
bytes: there is no result then, not even an error. -/
def ofCuts (b : Bytes) : ExceptT Error Option Blob := do
  let header ← Header.read b
  require (header.totalSize.toNat ≤ b.length) (.outOfRegion 0 header.totalSize.toNat)
  let bytes ← b.slice? 0 header.totalSize.toNat
  require (header.structureOffset.toNat % 4 = 0) (.malformed 0 .unalignedBlock)
  let (start, stop) ← range header.structureOffset header.structureSize header.totalSize
  let structureBlock ← bytes.slice? start stop
  let (start, stop) ← range header.stringsOffset header.stringsSize header.totalSize
  let stringsBlock ← bytes.slice? start stop
  return { header, bytes, structureBlock, stringsBlock }

section

variable {α β : Type}

/-- Of a step after a check only what it gives after a success has to be known. -/
theorem run_bind_eq_some {r : Except Error α} {f : α → ExceptT Error Option β}
    {g : α → Except Error β} (h : ∀ a, r = .ok a → (f a).run = some (g a)) :
    ((liftM r : ExceptT Error Option α) >>= f).run = some (r >>= g) := by
  cases r with
  | error e => rfl
  | ok a => exact h a rfl

theorem run_slice_bind {x : Bytes} {start stop : Nat} {f : Bytes → ExceptT Error Option β}
    (h : b.slice? start stop = some x) :
    ((liftM (b.slice? start stop) : ExceptT Error Option Bytes) >>= f).run = (f x).run := by
  rw [h]
  rfl

/-- A block that the header lets be cut out is there. -/
theorem run_range_bind {offset size totalSize : UInt32} {f : Bytes → ExceptT Error Option β}
    {g : Bytes → Except Error β} (hl : b.length = totalSize.toNat)
    (h : ∀ x, (f x).run = some (g x)) :
    (do
      let (start, stop) ← range offset size totalSize
      let x ← b.slice? start stop
      f x : ExceptT Error Option β).run = some (block b offset size >>= g) := by
  by_cases hfits : offset.toNat + size.toNat ≤ totalSize.toNat
  · have hrange : range offset size totalSize = .ok (offset.toNat, offset.toNat + size.toNat) := by
      rw [range, (require_eq_ok_iff (u := ())).2 hfits]
      rfl
    have hregion : b.region? offset.toNat size.toNat =
        some ((b.drop offset.toNat).take size.toNat) :=
      Bytes.region?_eq_some_iff.2 ⟨hl ▸ hfits, rfl⟩
    have hblock : block b offset size = .ok ((b.drop offset.toNat).take size.toNat) :=
      valueOr_eq_ok_iff.2 hregion
    rw [hrange, hblock]
    exact (run_slice_bind ((b.slice?_add _ _).trans hregion)).trans (h _)
  · have hrange : range offset size totalSize = .error (.outOfRegion offset.toNat size.toNat) := by
      rw [range, require_eq_error_iff.2 ⟨hfits, rfl⟩]
      rfl
    have hblock : block b offset size = .error (.outOfRegion offset.toNat size.toNat) :=
      valueOr_eq_error_iff.2 ⟨Bytes.region?_eq_none_iff.2 (hl ▸ Nat.lt_of_not_le hfits), rfl⟩
    rw [hrange, hblock]
    rfl

end

/-- None of the cuts leaves the bytes that are there. -/
theorem ofCuts_eq (b : Bytes) : (ofCuts b).run = some (ofBytes b) := by
  unfold ofCuts ofBytes
  refine run_bind_eq_some fun header _ => ?_
  refine run_bind_eq_some fun _ ht => ?_
  have ht : header.totalSize.toNat ≤ b.length := require_eq_ok_iff.1 ht
  have hslice : b.slice? 0 header.totalSize.toNat = some (b.take header.totalSize.toNat) :=
    if_pos ⟨Nat.zero_le _, ht⟩
  have hl : (b.take header.totalSize.toNat).length = header.totalSize.toNat :=
    List.length_take_of_le ht
  rw [run_slice_bind hslice]
  refine run_bind_eq_some fun _ _ => ?_
  exact run_range_bind hl fun structureBlock => run_range_bind hl fun stringsBlock => rfl

/-- Bytes open as a blob exactly when they meet all demands, and if they do not, the error is that
of the first that they do not meet. What is opened stands in the bytes, all of it, and what follows
them changes nothing. To cut it out, no more has to be known than what the demands say. -/
theorem ofBytes_iff_met (bytes : Bytes) :
    ((∃ b, ofBytes bytes = .ok b) ↔ ∀ d : Demand, d.Met bytes) ∧
    (∀ e, ofBytes bytes = .error e ↔
      ∃ d, Demand.firstUnmet? bytes = some d ∧ e = d.error bytes) ∧
    (∀ b, ofBytes bytes = .ok b →
      b.CutFrom bytes ∧ ∀ tail, ofBytes (bytes ++ tail) = .ok b) ∧
    (ofCuts bytes).run = some (ofBytes bytes) := by
  refine ⟨?_, fun e => ofBytes_eq_error_iff, fun b h => ⟨?_, ofBytes_append h⟩, ofCuts_eq bytes⟩
  · simp only [ofBytes_eq_ok_iff, exists_and_left, exists_eq, and_true]
  · obtain ⟨hmet, rfl⟩ := ofBytes_eq_ok_iff.1 h
    exact cutFrom_ofFields hmet

/-- The board opens. With a wrong magic number and blocks that are too large it does not, and it is
the number that is named. -/
theorem ofBytes_board :
    (Layout.board.blob.CutFrom Layout.board.encode ∧
      ∀ tail, ofBytes (Layout.board.encode ++ tail) = .ok Layout.board.blob) ∧
    ofBytes (List.replicate 40 0xff) = .error (.badMagic 0xffffffff) :=
  ⟨(ofBytes_iff_met _).2.2.1 _ (Layout.ofBytes_encode Layout.board_writable),
    ((ofBytes_iff_met _).2.1 _).2 ⟨.magic, by decide, rfl⟩⟩

end Blob

end Devicetree
