import Devicetree.Proofs.Reads

/-!
# Lookups of a shorter path

The start of a name matches at least where more of it does. So a lookup of a path that is cut short
inside of its last segment, with the segment as the start of a name, follows the lookup of the whole
path until it finds something: it answers the same if it finds nothing (`Finds.lengthen`), and its
reads are the first of those of the other (`lookupReads_shorten`). In front of the first match the
two have passed and skipped the same, also on a block that is malformed, so there is no error that
only the shorter path comes to.
-/

namespace Devicetree

namespace Path

/-- Whether two paths are the same but for the last segment, which in one of them is a prefix of
that in the other. -/
inductive Shortens : (segment : Bytes) → (rest : List Bytes) → (segment' : Bytes) →
    (rest' : List Bytes) → Prop where
  | last {segment segment'} : segment <+: segment' → Shortens segment [] segment' []
  | cons {segment s rest s' rest'} : Shortens s rest s' rest' →
      Shortens segment (s :: rest) segment (s' :: rest')

theorem Shortens.cons_byte {segment segment' : Bytes} {rest rest' : List Bytes}
    (h : Shortens segment rest segment' rest') (x : UInt8) :
    Shortens (x :: segment) rest (x :: segment') rest' := by
  cases h with
  | last h => exact .last ((List.prefix_cons_inj x).2 h)
  | cons h => exact .cons h

theorem shortens_ofBytes_append {t : Bytes} (ht : slash ∉ t) : ∀ p : Bytes,
    Shortens (ofBytes p).first (ofBytes p).rest (ofBytes (p ++ t)).first (ofBytes (p ++ t)).rest
  | [] => by
    rw [List.nil_append, ofBytes_of_not_mem ht]
    exact .last List.nil_prefix
  | x :: p => by
    have ih := shortens_ofBytes_append ht p
    simp only [ofBytes, List.cons_append, List.foldr_cons] at ih ⊢
    rw [cons, cons]
    split_ifs
    · exact .cons ih
    · exact ih.cons_byte x

end Path

namespace MatchMode

variable {mode : MatchMode} {segment segment' name : Bytes} {rest rest' : List Bytes}

/-- A name that is accepted starts with every start of the segment. -/
theorem initial_accepts_of_accepts (hs : segment <+: segment')
    (h : mode.accepts segment' name = true) : initial.accepts segment name = true := by
  refine List.isPrefixOf_iff_prefix.2 (hs.trans ?_)
  cases mode with
  | exact =>
    obtain rfl := eq_of_beq h
    exact List.prefix_rfl
  | initial => exact List.isPrefixOf_iff_prefix.1 h

theorem accepts_eq_false_of_shortens (hs : Path.Shortens segment rest segment' rest')
    (h : (initial.before rest).accepts segment name = false) :
    (mode.before rest').accepts segment' name = false := by
  cases hs with
  | last hs =>
    rw [Bool.eq_false_iff] at h ⊢
    exact fun h' => h (initial_accepts_of_accepts hs h')
  | cons => exact h

end MatchMode

namespace Blob

variable {b : Blob} {mode : MatchMode} {segment segment' : Bytes} {rest rest' : List Bytes}
  {c : Cursor} {r : Except Error Found}

/-- What is no match for the shorter path is none for the longer one, and there is no other answer
for it either. -/
theorem Finds.lengthen (h : b.Finds .initial segment rest c r)
    (hr : ∀ found, r = .ok found → found.isMatch = false) :
    ∀ {segment' rest'}, Path.Shortens segment rest segment' rest' →
      b.Finds mode segment' rest' c r := by
  induction h with
  | unreadable h => exact fun _ => .unreadable h
  | levelEnd h => exact fun _ => .levelEnd h
  | nop h _ ih => exact fun hs => .nop h (ih hr hs)
  | node => cases hr _ rfl
  | enter h _ ih =>
    rintro _ _ (_ | hs)
    exact .enter h (ih hr hs)
  | skip h ha hk _ ih =>
    exact fun hs => .skip h (MatchMode.accepts_eq_false_of_shortens hs ha) hk (ih hr hs)
  | unclosed h ha hk =>
    exact fun hs => .unclosed h (MatchMode.accepts_eq_false_of_shortens hs ha) hk
  | disregard h _ ih =>
    rintro _ _ (_ | hs)
    exact .disregard h (ih hr (.cons hs))
  | unnamed h hn =>
    rintro _ _ ⟨⟩
    exact .unnamed h hn
  | property => cases hr _ rfl
  | mismatch h hn ha _ ih =>
    rintro _ _ (hs | _)
    exact .mismatch h hn (MatchMode.accepts_eq_false_of_shortens (.last hs) ha) (ih hr (.last hs))

/-- Whatever is looked for, the first token is read first. -/
theorem prefix_lookupReads (b : Blob) (mode : MatchMode) (segment : Bytes) (rest : List Bytes)
    (c : Cursor) : [c.offset] <+: b.lookupReads mode segment rest c := by
  obtain ⟨place, ⟨ts, hp, hr⟩, -⟩ := (finds_lookupFrom b mode segment rest c []).readsUpTo
  rw [hr]
  cases ts with
  | nil =>
    obtain rfl : place = c := congrArg Stream.cursor hp
    exact List.prefix_rfl
  | cons t ts => exact ⟨_, rfl⟩

theorem lookupReads_shorten (h : b.Finds .initial segment rest c r) :
    ∀ {segment' rest'}, Path.Shortens segment rest segment' rest' →
      b.lookupReads .initial segment rest c <+: b.lookupReads mode segment' rest' c := by
  induction h with
  | unreadable h =>
    intro _ _ _
    rw [lookupReads_error h]
    exact prefix_lookupReads ..
  | levelEnd h =>
    intro _ _ _
    rw [lookupReads_levelEnd h]
    exact prefix_lookupReads ..
  | nop h _ ih =>
    intro _ _ hs
    rw [lookupReads_nop h, lookupReads_nop h]
    exact (List.prefix_cons_inj _).2 (ih hs)
  | node h ha =>
    intro _ _ _
    rw [lookupReads_node h ha]
    exact prefix_lookupReads ..
  | enter h _ ih =>
    rintro _ _ (_ | hs)
    rw [lookupReads_enter h, lookupReads_enter h]
    exact (List.prefix_cons_inj _).2 (ih hs)
  | skip h ha hk _ ih =>
    intro _ _ hs
    rw [lookupReads_skip h ha,
      lookupReads_skip h (MatchMode.accepts_eq_false_of_shortens hs ha), hk]
    exact (List.prefix_append_right_inj _).2 (ih hs)
  | unclosed h ha hk =>
    intro _ _ hs
    simp only [lookupReads_skip h ha,
      lookupReads_skip h (MatchMode.accepts_eq_false_of_shortens hs ha), hk, List.prefix_rfl]
  | disregard h _ ih =>
    rintro _ _ (_ | hs)
    rw [lookupReads_property_cons h, lookupReads_property_cons h]
    exact (List.prefix_cons_inj _).2 (ih (.cons hs))
  | unnamed h hn =>
    intro _ _ _
    rw [lookupReads_property_error h hn]
    exact prefix_lookupReads ..
  | property h hn ha =>
    intro _ _ _
    rw [lookupReads_property h hn ha]
    exact prefix_lookupReads ..
  | mismatch h hn ha _ ih =>
    rintro segment' _ (hs | _)
    have ha' : mode.accepts segment' _ = false :=
      MatchMode.accepts_eq_false_of_shortens (.last hs) ha
    rw [lookupReads_property_mismatch h hn ha, lookupReads_property_mismatch h hn ha']
    exact (List.prefix_cons_inj _).2 (ih (.last hs))

/-! ## Lookups of the shorter path -/

section

variable {path path' : Path} (hs : Path.Shortens path.first path.rest path'.first path'.rest)
include hs

theorem outcome_lookup_of_shortens
    (hn : ∀ found, (b.lookup c path .initial).outcome = .ok found → found.isMatch = false) :
    (b.lookup c path' mode).outcome = (b.lookup c path .initial).outcome := by
  have h : b.Finds .initial path.first path.rest c _ := outcome_lookup_eq_iff.1 rfl
  exact outcome_lookup_eq_iff.2 (h.lengthen hn hs)

theorem exists_match_of_shortens {found : Found}
    (h : (b.lookup c path' mode).outcome = .ok found) (hm : found.isMatch = true) :
    ∃ found', (b.lookup c path .initial).outcome = .ok found' ∧ found'.isMatch = true := by
  have hsame (hn : ∀ found, (b.lookup c path .initial).outcome = .ok found →
      found.isMatch = false) : (b.lookup c path .initial).outcome = .ok found :=
    (outcome_lookup_of_shortens hs hn).symm.trans h
  rcases h' : (b.lookup c path .initial).outcome with e | found'
  · cases h'.symm.trans (hsame (by simp [h']))
  · refine ⟨found', rfl, ?_⟩
    cases hm' : found'.isMatch with
    | true => rfl
    | false =>
      cases h'.symm.trans (hsame (by simp [h', hm']))
      exact hm'.symm.trans hm

theorem offsets_lookup_of_shortens :
    (b.lookup c path .initial).offsets <+: (b.lookup c path' mode).offsets :=
  lookupReads_shorten (outcome_lookup_eq_iff.1 rfl) hs

end

/-- Whether a lookup has found something, and at which place: it is what stands where the last token
was read. -/
structure Lands (b : Blob) (x : Observed Found) (found : Found) (place : Cursor) : Prop where
  outcome : x.outcome = .ok found
  isMatch : found.isMatch = true
  last : x.offsets.getLast? = some place.offset
  stands : b.StandsAt place found

/-- Bodies are in the order of the nodes. -/
theorem StandsAt.body_le {place place' body body' : Cursor} {us : List Token}
    (h' : b.StandsAt place' (.node body')) (h : b.StandsAt place (.node body))
    (hp : (b.streamAt place').Passes us (b.streamAt place)) : body'.offset ≤ body.offset := by
  obtain ⟨name', h'⟩ := h'
  obtain ⟨name, h⟩ := h
  have hle {c c' : Cursor} {ts : List Token} (hp : (b.streamAt c).Passes ts (b.streamAt c')) :
      c.offset ≤ c'.offset := (Stream.rest_of_passes hp).1
  cases us with
  | nil =>
    obtain rfl : place = place' := congrArg Stream.cursor hp
    have heq : b.streamAt body = b.streamAt body' := congrArg Prod.snd (h.symm.trans h')
    exact Nat.le_of_eq (congrArg Stream.offset heq).symm
  | cons t us =>
    obtain ⟨s, hs, hp⟩ := hp
    obtain rfl : b.streamAt body' = s := congrArg Prod.snd (h'.symm.trans hs)
    exact Nat.le_trans (hle hp) (hle h.passes)

/-- Where a lookup finds something, a lookup of less of the last segment, as the start of a name,
finds something as well, at the same place or in front of it. Where the shorter path finds nothing,
the longer one does not either. -/
theorem lookup_initial_of_append (b : Blob) (c : Cursor) (p : Bytes) {t : Bytes} (mode : MatchMode)
    (ht : Path.slash ∉ t) :
    (∀ found, (b.lookup c (.ofBytes (p ++ t)) mode).outcome = .ok found → found.isMatch = true →
      ∃ found' place' place, b.Lands (b.lookup c (.ofBytes p) .initial) found' place' ∧
        b.Lands (b.lookup c (.ofBytes (p ++ t)) mode) found place ∧
        place'.offset ≤ place.offset ∧
        ∀ body body', found = .node body → found' = .node body' → body'.offset ≤ body.offset) ∧
    ((b.lookup c (.ofBytes p) .initial).outcome = .ok .nothing →
      (b.lookup c (.ofBytes (p ++ t)) mode).outcome = .ok .nothing) := by
  have hs := Path.shortens_ofBytes_append ht p
  constructor
  · intro found h hm
    obtain ⟨found', h', hm'⟩ := exists_match_of_shortens hs h hm
    obtain ⟨place', hr', hst'⟩ := readsUpTo_lookup b c (.ofBytes p) .initial
    obtain ⟨place, hr, hst⟩ := readsUpTo_lookup b c (.ofBytes (p ++ t)) mode
    obtain ⟨us, hp⟩ := hr'.exists_passes hr (offsets_lookup_of_shortens hs)
    refine ⟨found', place', place, ⟨h', hm', hr'.getLast?, hst' _ h'⟩,
      ⟨h, hm, hr.getLast?, hst _ h⟩, (Stream.rest_of_passes hp).1, ?_⟩
    rintro body body' rfl rfl
    exact (hst' _ h').body_le (hst _ h) hp
  · intro h
    rw [outcome_lookup_of_shortens hs (by simp [h, Found.isMatch]), h]

end Blob

/-- In the block that is cut off, `/` starts the name of the property in front of the node that
`/a` finds, and inside of that node no name starts with `z`. -/
theorem Layout.lookup_cutBoard_initial :
    (∃ place' place,
      cutBoard.Lands (cutBoard.lookup .root (.ofBytes [0x2f]) .initial) (.property ⟨[1, 2, 3]⟩)
          place' ∧
        cutBoard.Lands (cutBoard.lookup .root (.ofBytes [0x2f, 0x61]) .exact) (.node ⟨36⟩) place ∧
        place'.offset ≤ place.offset) ∧
    (cutBoard.lookup ⟨36⟩ (.ofBytes [0x7a]) .initial).outcome = .ok .nothing ∧
    (cutBoard.lookup ⟨36⟩ (.ofBytes [0x7a, 0x7a]) .exact).outcome = .ok .nothing := by
  have h₁ : cutBoard.Reads .root (.beginNode []) ⟨8⟩ := rfl
  have h₂ : cutBoard.Reads ⟨8⟩ .nop ⟨12⟩ := rfl
  have h₃ : cutBoard.Reads ⟨12⟩ (.property 2 [1, 2, 3]) ⟨28⟩ := rfl
  have hprop : (cutBoard.lookup .root (.ofBytes [0x2f]) .initial).outcome =
      .ok (.property ⟨[1, 2, 3]⟩) :=
    Blob.outcome_lookup_eq_iff.2 (.enter h₁ (.nop h₂ (.property h₃ rfl rfl)))
  have h₄ : cutBoard.Reads ⟨36⟩ (.property 0 []) ⟨48⟩ := rfl
  have h₅ : cutBoard.Reads ⟨48⟩ (.beginNode [0x62]) ⟨56⟩ := rfl
  have hk : (cutBoard.skip ⟨56⟩).outcome = .ok ⟨60⟩ :=
    Blob.outcome_skip_eq_ok_iff.2 ⟨.nil, _, cutBoard.streamAt ⟨60⟩, rfl, by decide, rfl, rfl⟩
  have he : (cutBoard.streamAt ⟨60⟩).AtLevelEnd := .inl rfl
  have hnothing : (cutBoard.lookup ⟨36⟩ (.ofBytes [0x7a]) .initial).outcome = .ok .nothing :=
    Blob.outcome_lookup_eq_iff.2 (.mismatch h₄ rfl rfl (.skip h₅ rfl hk (.levelEnd he)))
  obtain ⟨found', place', place, hl', hl, hle, -⟩ :=
    (Blob.lookup_initial_of_append cutBoard .root [0x2f] (t := [0x61]) .exact (by decide)).1 _
      lookup_cutBoard rfl
  obtain rfl : found' = .property ⟨[1, 2, 3]⟩ := by
    simpa [hprop] using hl'.outcome.symm
  exact ⟨⟨place', place, hl', hl, hle⟩, hnothing,
    (Blob.lookup_initial_of_append cutBoard ⟨36⟩ [0x7a] (t := [0x7a]) .exact (by decide)).2
      hnothing⟩

end Devicetree
