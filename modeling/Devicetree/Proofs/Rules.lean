import Devicetree.Proofs.Search

/-!
# The rules of a lookup

`Finds` says what a lookup answers, one rule for each thing that can stand at its cursor. A lookup
follows the rules on every block, also where the block is malformed, and they leave it no choice
(`outcome_lookup_eq_iff`). What holds of all lookups is then shown rule by rule.

Rules go from cursor to cursor. That loses nothing: the stream that a read or a skip leaves is the
one of the block at its cursor (`exists_streamAt_of_next`, `skipFrom_streamAt`).
-/

namespace Devicetree

namespace Blob

/-- Whether a token stands at a cursor, and the cursor behind it. -/
def Reads (b : Blob) (c : Cursor) (t : Token) (c' : Cursor) : Prop :=
  (b.streamAt c).next = (.ok (some t), b.streamAt c')

/-- What a lookup answers that looks for `segment`, and inside of its node for `rest`, from a
cursor on. -/
inductive Finds (b : Blob) (mode : MatchMode) :
    (segment : Bytes) → (rest : List Bytes) → Cursor → Except Error Found → Prop where
  | unreadable {segment rest c e s} : (b.streamAt c).next = (.error e, s) →
      Finds b mode segment rest c (.error e)
  | levelEnd {segment rest c} : (b.streamAt c).AtLevelEnd →
      Finds b mode segment rest c (.ok .nothing)
  | nop {segment rest c c' r} : b.Reads c .nop c' → Finds b mode segment rest c' r →
      Finds b mode segment rest c r
  | node {segment c name body} : b.Reads c (.beginNode name) body →
      mode.accepts segment name = true → Finds b mode segment [] c (.ok (.node body))
  | enter {segment segment' rest c body r} : b.Reads c (.beginNode segment) body →
      Finds b mode segment' rest body r → Finds b mode segment (segment' :: rest) c r
  | skip {segment rest c name body c' r} : b.Reads c (.beginNode name) body →
      (mode.before rest).accepts segment name = false → (b.skip body).outcome = .ok c' →
        Finds b mode segment rest c' r → Finds b mode segment rest c r
  | unclosed {segment rest c name body e} : b.Reads c (.beginNode name) body →
      (mode.before rest).accepts segment name = false → (b.skip body).outcome = .error e →
        Finds b mode segment rest c (.error e)
  /-- Only the last segment can name a property, and only then its name is asked for. -/
  | disregard {segment segment' rest c nameOffset value c' r} :
      b.Reads c (.property nameOffset value) c' →
        Finds b mode segment (segment' :: rest) c' r → Finds b mode segment (segment' :: rest) c r
  | unnamed {segment c nameOffset value c' e} : b.Reads c (.property nameOffset value) c' →
      b.nameAt nameOffset.toNat = .error e → Finds b mode segment [] c (.error e)
  | property {segment c nameOffset value c' name} : b.Reads c (.property nameOffset value) c' →
      b.nameAt nameOffset.toNat = .ok name → mode.accepts segment name = true →
        Finds b mode segment [] c (.ok (.property ⟨value⟩))
  | mismatch {segment c nameOffset value c' name r} : b.Reads c (.property nameOffset value) c' →
      b.nameAt nameOffset.toNat = .ok name → mode.accepts segment name = false →
        Finds b mode segment [] c' r → Finds b mode segment [] c r

theorem streamAt_of_passes {b : Blob} {c : Cursor} {ts : List Token} {s : Stream}
    (h : (b.streamAt c).Passes ts s) : b.streamAt s.cursor = s :=
  (Stream.ofBlock_of_passes h).symm

theorem exists_streamAt_of_next {b : Blob} {c : Cursor} {t : Token} {s : Stream}
    (h : (b.streamAt c).next = (.ok (some t), s)) :
    ∃ c', s = b.streamAt c' ∧ c'.offset = c.offset + t.size := by
  have hp : (b.streamAt c).Passes [t] s := ⟨s, h, rfl⟩
  exact ⟨s.cursor, (streamAt_of_passes hp).symm, Stream.offset_of_next h⟩

theorem Reads.passes {b : Blob} {c c' : Cursor} {t : Token} (h : b.Reads c t c') :
    (b.streamAt c).Passes [t] (b.streamAt c') :=
  ⟨_, h, rfl⟩

/-- A skip that comes back has passed the items of a level and the token that closes it. -/
theorem passes_of_skipFrom {b : Blob} {s s' : Stream} {seen : List Event}
    (h : (b.skipFrom s seen).1 = .ok s') : ∃ ts, s.Passes (ts ++ [.endNode]) s' := by
  unfold skipFrom at h
  split at h
  · rename_i s₁ _ hw
    obtain rfl : s₁ = s' := by simpa using h
    obtain ⟨f, s₂, hp, -, -, h₂⟩ := walkFrom_eq_ok_iff.1 (congrArg Prod.fst hw)
    exact ⟨f.tokens, (Stream.passes_append _ _).2 ⟨s₂, hp, s₁, h₂, rfl⟩⟩
  · simp at h
  · simp at h

/-- A skip goes to the stream of the block at the cursor with which it comes back. -/
theorem skipFrom_streamAt (b : Blob) (c : Cursor) (seen : List Event) :
    ∃ seen', b.skipFrom (b.streamAt c) seen = (b.streamAt <$> (b.skip c).outcome, seen') := by
  rw [skipFrom_seen, skip, Observed.outcome_map, Observed.outcome_ofSeen]
  rcases h : (b.skipFrom (b.streamAt c) []).1 with e | s
  · exact ⟨_, rfl⟩
  · obtain ⟨ts, hp⟩ := passes_of_skipFrom h
    refine ⟨_, Prod.ext ?_ rfl⟩
    simp [Functor.map, Except.map, streamAt_of_passes hp]

theorem finds_lookupFrom (b : Blob) (mode : MatchMode) (segment : Bytes) (rest : List Bytes)
    (c : Cursor) (seen : List Event) :
    b.Finds mode segment rest c (b.lookupFrom mode segment rest (b.streamAt c) seen).1 := by
  rcases h : (b.streamAt c).next with ⟨e | _ | t, s⟩
  · rw [lookupFrom_error h]
    exact .unreadable h
  · rw [lookupFrom_endOfTree h]
    exact .levelEnd (Stream.atLevelEnd_of_endOfTree h)
  · have hlt := Stream.length_of_next h
    obtain ⟨c', rfl, -⟩ := exists_streamAt_of_next h
    rcases t with name | _ | ⟨nameOffset, value⟩ | _
    · rcases ha : (mode.before rest).accepts segment name with _ | _
      · obtain ⟨seen', hs⟩ := skipFrom_streamAt b c' (.read (b.streamAt c).offset :: seen)
        rcases hk : (b.skip c').outcome with e | c'' <;> rw [hk] at hs
        · rw [lookupFrom_beginNode_error h ha hs]
          exact .unclosed h ha hk
        · have hlt' := length_of_skipFrom (congrArg Prod.fst hs)
          rw [lookupFrom_beginNode_skip h ha hs]
          exact .skip h ha hk (finds_lookupFrom b mode segment rest c'' seen')
      · rcases rest with _ | ⟨segment', rest⟩
        · have ha : mode.accepts segment name = true := ha
          rw [lookupFrom_beginNode_last h ha]
          exact .node h ha
        · obtain rfl : segment = name := by simpa [MatchMode.before, MatchMode.accepts] using ha
          rw [lookupFrom_beginNode_cons h rfl]
          exact .enter h (finds_lookupFrom b mode segment' rest c' _)
    · rw [lookupFrom_endNode h]
      exact .levelEnd (Stream.atLevelEnd_of_endNode h)
    · rcases rest with _ | ⟨segment', rest⟩
      · rcases hn : b.nameAt nameOffset.toNat with e | name
        · rw [lookupFrom_property_error h hn]
          exact .unnamed h hn
        · rw [lookupFrom_property_last h hn]
          split_ifs with ha
          · exact .property h hn ha
          · exact .mismatch h hn (by simpa using ha) (finds_lookupFrom b mode segment [] c' _)
      · rw [lookupFrom_property_cons h]
        exact .disregard h (finds_lookupFrom b mode segment (segment' :: rest) c' _)
    · rw [lookupFrom_nop h]
      exact .nop h (finds_lookupFrom b mode segment rest c' _)
termination_by (b.streamAt c).rest.length

theorem lookupFrom_of_finds {b : Blob} {mode : MatchMode} {segment : Bytes} {rest : List Bytes}
    {c : Cursor} {r : Except Error Found} (h : b.Finds mode segment rest c r) :
    ∀ seen, (b.lookupFrom mode segment rest (b.streamAt c) seen).1 = r := by
  induction h with
  | unreadable h =>
    intro seen
    rw [lookupFrom_error h]
  | @levelEnd segment rest c he =>
    intro seen
    rcases hs : (b.streamAt c).next with ⟨r, s⟩
    rcases he with he | he <;> rw [hs] at he <;> obtain rfl := he
    · rw [lookupFrom_endNode hs]
    · rw [lookupFrom_endOfTree hs]
  | nop h _ ih =>
    intro seen
    rw [lookupFrom_nop h, ih]
  | node h ha =>
    intro seen
    rw [lookupFrom_beginNode_last h ha]
    rfl
  | enter h _ ih =>
    intro seen
    rw [lookupFrom_beginNode_cons h rfl, ih]
  | @skip _ _ c _ body _ _ h ha hk _ ih =>
    intro seen
    obtain ⟨seen', hs⟩ := skipFrom_streamAt b body (.read (b.streamAt c).offset :: seen)
    rw [hk] at hs
    rw [lookupFrom_beginNode_skip h ha hs, ih]
  | @unclosed _ _ c _ body _ h ha hk =>
    intro seen
    obtain ⟨seen', hs⟩ := skipFrom_streamAt b body (.read (b.streamAt c).offset :: seen)
    rw [hk] at hs
    rw [lookupFrom_beginNode_error h ha hs]
  | disregard h _ ih =>
    intro seen
    rw [lookupFrom_property_cons h, ih]
  | unnamed h hn =>
    intro seen
    rw [lookupFrom_property_error h hn]
  | property h hn ha =>
    intro seen
    rw [lookupFrom_property_last h hn, if_pos ha]
  | mismatch h hn ha _ ih =>
    intro seen
    rw [lookupFrom_property_last h hn, if_neg (by simp [ha]), ih]

/-- A lookup answers what the rules say. -/
theorem outcome_lookup_eq_iff {b : Blob} {c : Cursor} {path : Path} {mode : MatchMode}
    {r : Except Error Found} :
    (b.lookup c path mode).outcome = r ↔ b.Finds mode path.first path.rest c r := by
  constructor
  · rintro rfl
    exact finds_lookupFrom b mode path.first path.rest c []
  · intro h
    exact lookupFrom_of_finds h []

/-! ## What a lookup tells -/

/-- A skip puts what it tells in front of what was told before, the last of it first. -/
theorem skipFrom_told (b : Blob) (c : Cursor) : ∃ told, told.reverse = (b.skip c).events ∧
    ∀ seen, b.skipFrom (b.streamAt c) seen = (b.streamAt <$> (b.skip c).outcome, told ++ seen) := by
  obtain ⟨told, h⟩ := skipFrom_streamAt b c []
  refine ⟨told, ?_, fun seen => by rw [skipFrom_seen, h]⟩
  rw [skip, Observed.events_map, h]
  rfl

/-- What a lookup tells from a cursor on. -/
def lookupEvents (b : Blob) (mode : MatchMode) (segment : Bytes) (rest : List Bytes) (c : Cursor) :
    List Event :=
  (Observed.ofSeen (b.lookupFrom mode segment rest (b.streamAt c) [])).events

section

variable {b : Blob} {mode : MatchMode} {segment segment' : Bytes} {rest rest' : List Bytes}
  {c c' : Cursor} {told : List Event}

theorem lookupEvents_of_seen {r : Except Error Found}
    (h : b.lookupFrom mode segment rest (b.streamAt c) [] = (r, told)) :
    b.lookupEvents mode segment rest c = told.reverse := by
  rw [lookupEvents, h]
  rfl

theorem lookupEvents_of_lookupFrom (h : b.lookupFrom mode segment rest (b.streamAt c) [] =
    b.lookupFrom mode segment' rest' (b.streamAt c') told) :
    b.lookupEvents mode segment rest c =
      told.reverse ++ b.lookupEvents mode segment' rest' c' := by
  rw [lookupEvents, h, lookupFrom_seen]
  exact List.reverse_append

end

end Blob

/-- The blob of the board, cut off behind the first node `a`. -/
def Layout.cutBoard : Blob :=
  { board.blob with structureBlock := board.structureBlock.take 64 }

theorem Layout.lookup_cutBoard :
    (cutBoard.lookup .root (.ofBytes [0x2f, 0x61]) .exact).outcome = .ok (.node ⟨36⟩) := by
  have h₁ : cutBoard.Reads .root (.beginNode []) ⟨8⟩ := rfl
  have h₂ : cutBoard.Reads ⟨8⟩ .nop ⟨12⟩ := rfl
  have h₃ : cutBoard.Reads ⟨12⟩ (.property 2 [1, 2, 3]) ⟨28⟩ := rfl
  have h₄ : cutBoard.Reads ⟨28⟩ (.beginNode [0x61]) ⟨36⟩ := rfl
  exact Blob.outcome_lookup_eq_iff.2 (.enter h₁ (.nop h₂ (.mismatch h₃ rfl rfl (.node h₄ rfl))))

theorem Layout.skip_cutBoard : (cutBoard.skip ⟨36⟩).outcome = .ok ⟨64⟩ := by
  refine Blob.outcome_skip_eq_ok_iff.2 ⟨.property 0 [] (.node [0x62] .nil .nil),
    cutBoard.streamAt ⟨60⟩, cutBoard.streamAt ⟨64⟩, ?_, by decide, rfl, rfl⟩
  exact ⟨_, rfl, _, rfl, _, rfl, rfl⟩

end Devicetree
