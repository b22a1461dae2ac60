import Devicetree.Proofs.Rules
import Devicetree.Proofs.Runs

/-!
# Validation reports the first defect

A structure block that breaks a rule of nesting or of tokens is sound up to some place: the tokens
in front of it close no node that is not open, and their properties have names. Validation reports
that place and what is wrong there (`outcome_validate_eq_malformed_iff`). It is the place where its
walk stops, and what is wrong is decided by the bytes there and by the count of open nodes, so that
there is one report for each block.
-/

namespace Devicetree

namespace Stream

/-- Where a read answers to nothing but one word, it answers where that word stands. -/
theorem exists_next_iff_region? {block : Bytes} {c : Cursor} {o : Option Token} {w : UInt32}
    (hw : ∀ x, Token.SpellsNext o x ↔ x = BigEndian.encodeWord w) :
    (∃ s', (ofBlock block c).next = (.ok o, s')) ↔
      block.region? c.offset 4 = some (BigEndian.encodeWord w) := by
  rw [Bytes.region?_eq_some_iff_append]
  constructor
  · rintro ⟨s', h⟩
    obtain ⟨x, hx, hr, -⟩ := next_eq_ok_iff.1 h
    obtain rfl := (hw x).1 hx
    have hl := congrArg List.length hr
    simp only [ofBlock, List.length_drop, List.length_append, BigEndian.length_encodeWord] at hl
    exact ⟨by omega, BigEndian.length_encodeWord w, s'.rest, hr⟩
  · rintro ⟨-, -, y, hy⟩
    exact ⟨⟨c.offset + (BigEndian.encodeWord w).length, y⟩,
      next_eq_ok_iff.2 ⟨_, (hw _).2 rfl, hy, rfl⟩⟩

theorem exists_next_endNode_iff {block : Bytes} {c : Cursor} :
    (∃ s', (ofBlock block c).next = (.ok (some .endNode), s')) ↔
      block.region? c.offset 4 = some (BigEndian.encodeWord Tag.endNode.number) := by
  refine exists_next_iff_region? fun x => ⟨fun h => ?_, ?_⟩
  · cases h
    rfl
  · rintro rfl
    exact .endNode

theorem exists_next_endOfTree_iff {block : Bytes} {c : Cursor} :
    (∃ s', (ofBlock block c).next = (.ok none, s')) ↔
      block.region? c.offset 4 = some (BigEndian.encodeWord Tag.endOfTree.number) :=
  exists_next_iff_region? fun _ => Iff.rfl

end Stream

namespace Blob

/-- Whether a structure block is sound up to a place: the bytes in front of it are tokens, of which
none closes a node that is not open and each property has a name. -/
structure SoundUpTo (b : Blob) (offset : Nat) (ts : List Token) (opened : Nat) : Prop where
  offset_le : offset ≤ b.structureBlock.length
  spelled : Token.SpellsAll ts (b.structureBlock.take offset)
  opened : Token.openBehind 0 ts = some opened
  named : Token.AllNamed b.stringsBlock ts

/-- Whether a structure block has a defect at a place that `opened` nodes are open in front of. -/
def DefectAt (b : Blob) (c : Cursor) (opened : Nat) : Defect → Prop
  | .endNodeWithoutBeginNode => opened = 0 ∧
    b.structureBlock.region? c.offset 4 = some (BigEndian.encodeWord Tag.endNode.number)
  | .endInsideNode => 0 < opened ∧
    b.structureBlock.region? c.offset 4 = some (BigEndian.encodeWord Tag.endOfTree.number)
  | .unknownToken => Stream.UnknownTag b.structureBlock c
  | .endOfBlock => c.offset = b.structureBlock.length
  | _ => False

variable {b : Blob} {c : Cursor} {offset opened : Nat} {defect : Defect} {ts : List Token}

theorem SoundUpTo.passes (h : b.SoundUpTo offset ts opened) :
    (b.streamAt .root).Passes ts (b.streamAt ⟨offset⟩) :=
  Stream.passes_ofBlock_root_iff.2 ⟨h.offset_le, h.spelled⟩

theorem soundUpTo_of_passes (hp : (b.streamAt .root).Passes ts (b.streamAt c))
    (ho : Token.openBehind 0 ts = some opened) (hn : Token.AllNamed b.stringsBlock ts) :
    b.SoundUpTo c.offset ts opened := by
  obtain ⟨hle, hx⟩ := Stream.passes_ofBlock_root_iff.1 hp
  exact ⟨hle, hx, ho, hn⟩

/-- A walk of the whole block that stops with a malformed block does so at a defect. -/
theorem stops_malformed_iff (hc : c.offset ≤ b.structureBlock.length) :
    b.Stops 0 opened (b.streamAt c) (.error (.malformed offset defect)) ↔
      offset = c.offset ∧ b.DefectAt c opened defect := by
  constructor
  · intro h
    generalize hr : (.error (.malformed offset defect) : Except Error (Option Stream)) = r at h
    cases h with
    | unreadable h =>
      cases hr
      obtain ⟨ho, ⟨hl, rfl⟩ | ⟨hu, rfl⟩⟩ :=
        Stream.next_ofBlock_eq_malformed_iff.1 (congrArg Prod.fst h)
      · exact ⟨ho, Nat.le_antisymm hc hl⟩
      · exact ⟨ho, hu⟩
    | endOfTree | endOfLevel => cases hr
    | insideNode h0 h =>
      cases hr
      exact ⟨rfl, by omega, Stream.exists_next_endOfTree_iff.1 ⟨_, h⟩⟩
    | unopened _ hn h =>
      cases hr
      exact ⟨rfl, hn, Stream.exists_next_endNode_iff.1 ⟨_, h⟩⟩
    | unnamed _ hn =>
      cases hr
      obtain ⟨_, _, he⟩ := error_of_nameAt hn
      cases he
  · rintro ⟨rfl, hd⟩
    have hunreadable (h : c.offset = b.structureBlock.length ∧ defect = .endOfBlock ∨
        Stream.UnknownTag b.structureBlock c ∧ defect = .unknownToken) :
        b.Stops 0 opened (b.streamAt c) (.error (.malformed c.offset defect)) := by
      refine .unreadable (Prod.ext (Stream.next_ofBlock_eq_malformed_iff.2 ⟨rfl, ?_⟩) rfl)
      exact h.imp_left fun ⟨hl, hd⟩ => ⟨Nat.le_of_eq hl.symm, hd⟩
    cases defect with
    | endNodeWithoutBeginNode =>
      obtain ⟨hn, hr⟩ := hd
      obtain ⟨s', h⟩ := Stream.exists_next_endNode_iff.2 hr
      exact .unopened rfl hn h
    | endInsideNode =>
      obtain ⟨hn, hr⟩ := hd
      obtain ⟨s', h⟩ := Stream.exists_next_endOfTree_iff.2 hr
      exact .insideNode (by omega) h
    | unknownToken => exact hunreadable (.inr ⟨hd, rfl⟩)
    | endOfBlock => exact hunreadable (.inl ⟨hd, rfl⟩)
    | unalignedBlock | bodyWithoutEndNode | blockWithoutEnd => exact hd.elim

/-- A walk of the whole block ends with the tree or with an error, and so does validation: a block
without an end is not what is reported. -/
theorem outcome_validate_eq_error_iff {e : Error} :
    b.validate.outcome = .error e ↔ (b.walkFrom 0 0 (b.streamAt .root) []).1 = .error e := by
  have hne : ∀ s, (b.walkFrom 0 0 (b.streamAt .root) []).1 ≠ .ok (some s) := by
    intro s h
    obtain ⟨_, _, _, -, -, -, hs⟩ := walkFrom_eq_iff.1 h
    cases hs with
    | endOfLevel h0 => exact h0 rfl
  rw [validate, Observed.outcome_bind, outcome_walk]
  rcases h : (b.walkFrom 0 0 (b.streamAt .root) []).1 with e' | _ | s
  · simp [bind, Except.bind, Functor.map, Except.map]
  · simp [bind, Except.bind, Functor.map, Except.map]
  · exact absurd h (hne s)

/-- The first defect is the one place up to which the block is sound and where a defect is. -/
theorem outcome_validate_eq_malformed : b.validate.outcome = .error (.malformed offset defect) ↔
    ∃ ts opened, b.SoundUpTo offset ts opened ∧ b.DefectAt ⟨offset⟩ opened defect := by
  rw [outcome_validate_eq_error_iff, walkFrom_eq_iff]
  constructor
  · rintro ⟨ts, opened, s, hp, ho, hn, hs⟩
    obtain ⟨c, rfl⟩ : ∃ c, s = b.streamAt c := ⟨_, (streamAt_of_passes hp).symm⟩
    have hsound := soundUpTo_of_passes hp ho hn
    obtain ⟨rfl, hd⟩ := (stops_malformed_iff hsound.offset_le).1 hs
    exact ⟨ts, opened, hsound, hd⟩
  · rintro ⟨ts, opened, hsound, hd⟩
    exact ⟨ts, opened, _, hsound.passes, hsound.opened, hsound.named,
      (stops_malformed_iff hsound.offset_le).2 ⟨rfl, hd⟩⟩

/-- Validation finds a block malformed at a place exactly if the block is sound up to there and has
a defect there, and what it reports is that defect and no other. -/
theorem outcome_validate_eq_malformed_iff (b : Blob) (offset : Nat) (defect : Defect) :
    b.validate.outcome = .error (.malformed offset defect) ↔
      ∃ ts opened, b.SoundUpTo offset ts opened ∧
        ∀ d, defect = d ↔ b.DefectAt ⟨offset⟩ opened d := by
  constructor
  · intro h
    obtain ⟨ts, opened, hsound, hd⟩ := outcome_validate_eq_malformed.1 h
    refine ⟨ts, opened, hsound, fun d => ⟨fun he => he ▸ hd, fun hd' => ?_⟩⟩
    have h' := outcome_validate_eq_malformed.2 ⟨ts, opened, hsound, hd'⟩
    simpa using h.symm.trans h'
  · rintro ⟨ts, opened, hsound, hd⟩
    exact outcome_validate_eq_malformed.2 ⟨ts, opened, hsound, (hd defect).1 rfl⟩

end Blob

end Devicetree
