import Devicetree.Proofs.Rules
import Devicetree.Proofs.Runs

/-!
# Where lookups read

A lookup reads each token that it passes or skips, where the token starts, and last of all the one
at which it stops (`Finds.readsUpTo`). So its reads are the places of tokens that stand one after
the other, and what it finds stands at the last of them. The same is true of a walk and so of a
skip (`readsUpTo_walk`), whose reads are a part of those of the lookup that makes it.
-/

namespace Devicetree

namespace Stream

theorem places_append_of_passes : ∀ (ts ts' : List Token) {s s' : Stream}, s.Passes ts s' →
    places s.offset (ts ++ ts') = places s.offset ts ++ places s'.offset ts'
  | [], ts', s, s', h => by
    obtain rfl : s' = s := h
    rfl
  | t :: ts, ts', s, s', ⟨s₁, h, hp⟩ => by
    have ih := places_append_of_passes ts ts' hp
    rw [offset_of_next h] at ih
    simp only [List.cons_append, places, ih]

/-- Two runs from one stream: the one that passes no more tokens is a part of the other. -/
theorem passes_of_length_le : ∀ (ts ts' : List Token) {s s₁ s₂ : Stream}, s.Passes ts s₁ →
    s.Passes ts' s₂ → ts.length ≤ ts'.length → ∃ us, s₁.Passes us s₂
  | [], ts', s, s₁, s₂, h, h', _ => by
    obtain rfl : s₁ = s := h
    exact ⟨ts', h'⟩
  | _ :: _, [], _, _, _, _, _, hl => by simp at hl
  | t :: ts, t' :: ts', s, s₁, s₂, ⟨u, hu, h⟩, ⟨u', hu', h'⟩, hl => by
    obtain rfl : u = u' := congrArg Prod.snd (hu.symm.trans hu')
    exact passes_of_length_le ts ts' h h' (Nat.le_of_succ_le_succ hl)

end Stream

namespace Blob

variable {b : Blob} {mode : MatchMode} {segment : Bytes} {rest : List Bytes} {c c' place : Cursor}

/-- Whether tokens are read from a cursor on, each where it starts, and at last what stands at
`place`. -/
def ReadsUpTo (b : Blob) (c : Cursor) (reads : List Nat) (place : Cursor) : Prop :=
  ∃ ts, (b.streamAt c).Passes ts (b.streamAt place) ∧
    reads = Stream.places c.offset ts ++ [place.offset]

theorem readsUpTo_self : b.ReadsUpTo c [c.offset] c :=
  ⟨[], rfl, rfl⟩

theorem ReadsUpTo.after {ts : List Token} {reads : List Nat} (h : b.ReadsUpTo c' reads place)
    (hp : (b.streamAt c).Passes ts (b.streamAt c')) :
    b.ReadsUpTo c (Stream.places c.offset ts ++ reads) place := by
  obtain ⟨us, hu, rfl⟩ := h
  refine ⟨ts ++ us, (Stream.passes_append _ _).2 ⟨_, hp, hu⟩, ?_⟩
  rw [← List.append_assoc]
  exact congrArg (· ++ _) (Stream.places_append_of_passes ts us hp).symm

/-- If the last read answers with a token, then the reads are those of tokens. -/
theorem ReadsUpTo.exists_places {reads : List Nat} {t : Token} (h : b.ReadsUpTo c reads place)
    (ht : b.Reads place t c') : ∃ ts, (b.streamAt c).Passes (ts ++ [t]) (b.streamAt c') ∧
      reads = Stream.places c.offset (ts ++ [t]) := by
  obtain ⟨ts, hp, rfl⟩ := h
  exact ⟨ts, (Stream.passes_append _ _).2 ⟨_, hp, ht.passes⟩,
    (Stream.places_append_of_passes ts [t] hp).symm⟩

theorem ReadsUpTo.getLast? {reads : List Nat} (h : b.ReadsUpTo c reads place) :
    reads.getLast? = some place.offset := by
  obtain ⟨ts, -, rfl⟩ := h
  exact List.getLast?_concat

/-- Of two rows of reads from one cursor, the one that is a prefix of the other stops at a place
from which the other goes on. -/
theorem ReadsUpTo.exists_passes {reads reads' : List Nat} {place' : Cursor}
    (h' : b.ReadsUpTo c reads' place') (h : b.ReadsUpTo c reads place) (hr : reads' <+: reads) :
    ∃ us, (b.streamAt place').Passes us (b.streamAt place) := by
  obtain ⟨ts', hp', rfl⟩ := h'
  obtain ⟨ts, hp, rfl⟩ := h
  refine Stream.passes_of_length_le ts' ts hp' hp ?_
  simpa using hr.length_le

/-! ## Walks and skips -/

theorem readsUpTo_walkFrom (b : Blob) (depth nested : Nat) (c : Cursor) :
    ∃ place nested', b.ReadsUpTo c
        (Observed.ofSeen (b.walkFrom depth nested (b.streamAt c) [])).offsets place ∧
      b.Stops depth nested' (b.streamAt place)
        (b.walkFrom depth nested (b.streamAt c) []).1 := by
  obtain ⟨ts, nested', s, r, hp, ho, hn, hs⟩ := exists_stops b depth nested (b.streamAt c)
  obtain ⟨told, htold, hw⟩ := walkFrom_of_passes b depth ts hp ho hn
  obtain ⟨told', htold', hw'⟩ := walkFrom_of_stops hs
  obtain ⟨place, rfl⟩ : ∃ place, s = b.streamAt place := ⟨_, (streamAt_of_passes hp).symm⟩
  rw [hw, hw']
  refine ⟨place, nested', ⟨ts, hp, ?_⟩, hs⟩
  simp only [Observed.offsets, Observed.ofSeen, List.append_nil, List.filterMap_reverse,
    List.filterMap_append, List.reverse_append, htold, htold', List.reverse_reverse]
  rfl

/-- The last read of a walk that comes back is the one of the token that closes the level. -/
theorem readsUpTo_walk (b : Blob) (c : Cursor) (depth : Nat) :
    ∃ place, b.ReadsUpTo c (b.walk c depth).offsets place ∧
      ∀ e, (b.walk c depth).outcome = .ok (some e) → b.Reads place .endNode e := by
  obtain ⟨place, nested, hr, hs⟩ := readsUpTo_walkFrom b depth 0 c
  refine ⟨place, ?_, fun e he => ?_⟩
  · rwa [Observed.offsets, walk, Observed.events_map]
  · rw [outcome_walk] at he
    rcases hw : (b.walkFrom depth 0 (b.streamAt c) []).1 with _ | _ | s <;> rw [hw] at he hs
    · cases he
    · cases he
    · obtain rfl : s.cursor = e := by simpa [Functor.map, Except.map] using he
      cases hs with
      | endOfLevel _ _ h =>
        obtain ⟨c', rfl, -⟩ := exists_streamAt_of_next h
        exact h

theorem offsets_skip (b : Blob) (c : Cursor) : (b.skip c).offsets = (b.walk c 1).offsets := by
  rw [Observed.offsets, skip, Observed.events_map, Observed.offsets, walk, Observed.events_map]
  unfold skipFrom
  rcases b.walkFrom 1 0 (b.streamAt c) [] with ⟨_ | _ | _, _⟩ <;> rfl

theorem readsUpTo_skip (b : Blob) (c : Cursor) : ∃ place, b.ReadsUpTo c (b.skip c).offsets place ∧
    ∀ e, (b.skip c).outcome = .ok e → b.Reads place .endNode e := by
  obtain ⟨place, hr, he⟩ := readsUpTo_walk b c 1
  rw [offsets_skip]
  exact ⟨place, hr, fun e hk => he e (by rw [← some_map_outcome_skip, hk]; rfl)⟩

/-! ## Lookups -/

/-- Where a lookup reads tokens, in order. -/
def lookupReads (b : Blob) (mode : MatchMode) (segment : Bytes) (rest : List Bytes) (c : Cursor) :
    List Nat :=
  (Observed.ofSeen (b.lookupFrom mode segment rest (b.streamAt c) [])).offsets

theorem lookupReads_of_seen {r : Except Error Found} {told : List Event}
    (h : b.lookupFrom mode segment rest (b.streamAt c) [] = (r, told)) :
    b.lookupReads mode segment rest c = told.reverse.filterMap Event.offset? :=
  congrArg (List.filterMap Event.offset?) (lookupEvents_of_seen h)

theorem lookupReads_of_lookupFrom {segment' : Bytes} {rest' : List Bytes} {told : List Event}
    (h : b.lookupFrom mode segment rest (b.streamAt c) [] =
      b.lookupFrom mode segment' rest' (b.streamAt c') told) :
    b.lookupReads mode segment rest c =
      told.reverse.filterMap Event.offset? ++ b.lookupReads mode segment' rest' c' := by
  have he := congrArg (List.filterMap Event.offset?) (lookupEvents_of_lookupFrom h)
  rwa [List.filterMap_append] at he

section

variable {name value : Bytes} {nameOffset : UInt32} {body : Cursor}

theorem lookupReads_error {e : Error} {s : Stream} (h : (b.streamAt c).next = (.error e, s)) :
    b.lookupReads mode segment rest c = [c.offset] :=
  lookupReads_of_seen (lookupFrom_error h)

theorem lookupReads_levelEnd (h : (b.streamAt c).AtLevelEnd) :
    b.lookupReads mode segment rest c = [c.offset] := by
  rcases hs : (b.streamAt c).next with ⟨r, s⟩
  rcases h with h | h <;> rw [hs] at h <;> obtain rfl := h
  · exact lookupReads_of_seen (lookupFrom_endNode hs)
  · exact lookupReads_of_seen (lookupFrom_endOfTree hs)

theorem lookupReads_nop (h : b.Reads c .nop c') : b.lookupReads mode segment rest c =
    c.offset :: b.lookupReads mode segment rest c' :=
  lookupReads_of_lookupFrom (lookupFrom_nop h)

theorem lookupReads_node (h : b.Reads c (.beginNode name) body)
    (ha : mode.accepts segment name = true) : b.lookupReads mode segment [] c = [c.offset] :=
  lookupReads_of_seen (lookupFrom_beginNode_last h ha)

theorem lookupReads_enter {segment' : Bytes} (h : b.Reads c (.beginNode segment) body) :
    b.lookupReads mode segment (segment' :: rest) c =
      c.offset :: b.lookupReads mode segment' rest body :=
  lookupReads_of_lookupFrom (lookupFrom_beginNode_cons h rfl)

theorem lookupReads_property_cons {segment' : Bytes}
    (h : b.Reads c (.property nameOffset value) c') :
    b.lookupReads mode segment (segment' :: rest) c =
      c.offset :: b.lookupReads mode segment (segment' :: rest) c' :=
  lookupReads_of_lookupFrom (lookupFrom_property_cons h)

theorem lookupReads_property_error {e : Error} (h : b.Reads c (.property nameOffset value) c')
    (hn : b.nameAt nameOffset.toNat = .error e) :
    b.lookupReads mode segment [] c = [c.offset] :=
  lookupReads_of_seen (lookupFrom_property_error h hn)

theorem lookupReads_property (h : b.Reads c (.property nameOffset value) c')
    (hn : b.nameAt nameOffset.toNat = .ok name) (ha : mode.accepts segment name = true) :
    b.lookupReads mode segment [] c = [c.offset] := by
  have hl : b.lookupFrom mode segment [] (b.streamAt c) [] = _ := lookupFrom_property_last h hn
  rw [if_pos ha] at hl
  exact lookupReads_of_seen hl

theorem lookupReads_property_mismatch (h : b.Reads c (.property nameOffset value) c')
    (hn : b.nameAt nameOffset.toNat = .ok name) (ha : mode.accepts segment name = false) :
    b.lookupReads mode segment [] c = c.offset :: b.lookupReads mode segment [] c' := by
  have hl : b.lookupFrom mode segment [] (b.streamAt c) [] = _ := lookupFrom_property_last h hn
  rw [if_neg (by simp [ha])] at hl
  exact lookupReads_of_lookupFrom hl

/-- A node that is not the one looked for is read and skipped, and if the skip comes back, the
lookup goes on behind it. -/
theorem lookupReads_skip (h : b.Reads c (.beginNode name) body)
    (ha : (mode.before rest).accepts segment name = false) :
    b.lookupReads mode segment rest c = c.offset :: (b.skip body).offsets ++
      match (b.skip body).outcome with
      | .ok c' => b.lookupReads mode segment rest c'
      | .error _ => [] := by
  obtain ⟨told, htold, hs⟩ := skipFrom_told b body
  have hs := hs [.read c.offset]
  rcases hk : (b.skip body).outcome with e | c' <;> rw [hk] at hs
  · rw [lookupReads_of_seen (lookupFrom_beginNode_error h ha hs)]
    simp [htold, Observed.offsets, Event.offset?]
  · rw [lookupReads_of_lookupFrom (lookupFrom_beginNode_skip h ha hs)]
    simp [htold, Observed.offsets, Event.offset?]

end

/-- What a lookup finds at the place where it stops. -/
def StandsAt (b : Blob) (place : Cursor) : Found → Prop
  | .property value => ∃ nameOffset c', b.Reads place (.property nameOffset value.bytes) c'
  | .node body => ∃ name, b.Reads place (.beginNode name) body
  | .nothing => (b.streamAt place).AtLevelEnd

/-- Each rule reads what it passes, and then the rules behind it read on. -/
theorem Finds.readsUpTo {r : Except Error Found} (h : b.Finds mode segment rest c r) :
    ∃ place, b.ReadsUpTo c (b.lookupReads mode segment rest c) place ∧
      ∀ found, r = .ok found → b.StandsAt place found := by
  induction h with
  | @unreadable segment rest c e s h =>
    rw [lookupReads_error h]
    exact ⟨c, readsUpTo_self, fun _ hr => by cases hr⟩
  | @levelEnd segment rest c h =>
    rw [lookupReads_levelEnd h]
    refine ⟨c, readsUpTo_self, ?_⟩
    rintro _ ⟨⟩
    exact h
  | nop h _ ih =>
    obtain ⟨place, hr, hf⟩ := ih
    rw [lookupReads_nop h]
    exact ⟨place, hr.after h.passes, hf⟩
  | @node segment c name body h ha =>
    rw [lookupReads_node h ha]
    refine ⟨c, readsUpTo_self, ?_⟩
    rintro _ ⟨⟩
    exact ⟨name, h⟩
  | enter h _ ih =>
    obtain ⟨place, hr, hf⟩ := ih
    rw [lookupReads_enter h]
    exact ⟨place, hr.after h.passes, hf⟩
  | @skip segment rest c name body c' r h ha hk _ ih =>
    obtain ⟨place, hr, hf⟩ := ih
    obtain ⟨last, hs, he⟩ := readsUpTo_skip b body
    obtain ⟨ts, hp, hs⟩ := hs.exists_places (he c' hk)
    rw [lookupReads_skip h ha, hk, hs]
    exact ⟨place, (hr.after hp).after h.passes, hf⟩
  | @unclosed segment rest c name body e h ha hk =>
    obtain ⟨place, hs, -⟩ := readsUpTo_skip b body
    rw [lookupReads_skip h ha, hk, List.append_nil]
    exact ⟨place, hs.after h.passes, fun _ hr => by cases hr⟩
  | disregard h _ ih =>
    obtain ⟨place, hr, hf⟩ := ih
    rw [lookupReads_property_cons h]
    exact ⟨place, hr.after h.passes, hf⟩
  | @unnamed segment c nameOffset value c' e h hn =>
    rw [lookupReads_property_error h hn]
    exact ⟨c, readsUpTo_self, fun _ hr => by cases hr⟩
  | @property segment c nameOffset value c' name h hn ha =>
    rw [lookupReads_property h hn ha]
    refine ⟨c, readsUpTo_self, ?_⟩
    rintro _ ⟨⟩
    exact ⟨nameOffset, c', h⟩
  | mismatch h hn ha _ ih =>
    obtain ⟨place, hr, hf⟩ := ih
    rw [lookupReads_property_mismatch h hn ha]
    exact ⟨place, hr.after h.passes, hf⟩

theorem readsUpTo_lookup (b : Blob) (c : Cursor) (path : Path) (mode : MatchMode) :
    ∃ place, b.ReadsUpTo c (b.lookup c path mode).offsets place ∧
      ∀ found, (b.lookup c path mode).outcome = .ok found → b.StandsAt place found :=
  Finds.readsUpTo (outcome_lookup_eq_iff.1 rfl)

end Blob

end Devicetree
