import Devicetree.Proofs.Rules

/-!
# Lookups along a path

A lookup enters nodes in place: what it answers behind a node is what a lookup from inside of that
node answers, whatever the levels above hold (`Finds.append`). The induction is on the rules of the
shorter lookup. Each goes over to the longer path, where the segment that was the last has another
behind it: a node is compared as before, exactly, and is entered instead of found, and a property
is passed by without its name.

So where the shorter lookup answers with a property, or with a name that cannot be read, the longer
one goes on behind it, and what it answers does not follow.
-/

namespace Devicetree

namespace MatchMode

theorem exact_before (rest : List Bytes) : exact.before rest = exact := by
  cases rest <;> rfl

theorem before_append (mode : MatchMode) (rest : List Bytes) (q : Path) :
    mode.before (rest ++ q.first :: q.rest) = exact := by
  cases rest <;> rfl

end MatchMode

namespace Blob

variable {b : Blob} {mode : MatchMode} {q : Path} {front whole : Except Error Found}

/-- Whether a lookup with more segments, those of `q` last, answers `whole`, as far as it is known
from what the lookup without them answers. -/
def Leads (b : Blob) (mode : MatchMode) (q : Path) : (front whole : Except Error Found) → Prop
  | .ok (.node c), whole => b.Finds mode q.first q.rest c whole
  | .ok .nothing, whole => whole = .ok .nothing
  | .error (.malformed offset defect), whole => whole = .error (.malformed offset defect)
  | _, _ => False

theorem Leads.eq_error {e : Error} (h : b.Leads mode q (.error e) whole) : whole = .error e := by
  cases e with
  | malformed => exact h
  | _ => exact h.elim

theorem Finds.append {segment : Bytes} {rest : List Bytes} {c : Cursor}
    (h : b.Finds .exact segment rest c front) :
    b.Leads mode q front whole → b.Finds mode segment (rest ++ q.first :: q.rest) c whole := by
  induction h with
  | unreadable h =>
    intro hl
    obtain rfl := hl.eq_error
    exact .unreadable h
  | levelEnd h =>
    rintro rfl
    exact .levelEnd h
  | nop h _ ih =>
    intro hl
    exact .nop h (ih hl)
  | node h ha =>
    intro hl
    obtain rfl := eq_of_beq ha
    exact .enter h hl
  | enter h _ ih =>
    intro hl
    exact .enter h (ih hl)
  | skip h ha hk _ ih =>
    intro hl
    rw [MatchMode.exact_before] at ha
    exact .skip h (by rwa [MatchMode.before_append]) hk (ih hl)
  | unclosed h ha hk =>
    intro hl
    obtain rfl := hl.eq_error
    rw [MatchMode.exact_before] at ha
    exact .unclosed h (by rwa [MatchMode.before_append]) hk
  | disregard h _ ih =>
    intro hl
    exact .disregard h (ih hl)
  | unnamed h hn =>
    intro hl
    obtain ⟨offset, length, rfl⟩ := error_of_nameAt hn
    exact hl.elim
  | property => exact False.elim
  | mismatch h _ _ _ ih =>
    intro hl
    exact .disregard h (ih hl)

theorem outcome_lookup_append {c : Cursor} {p : Path}
    (h : b.Leads mode q (b.lookup c p .exact).outcome whole) :
    (b.lookup c (p.append q) mode).outcome = whole :=
  outcome_lookup_eq_iff.2 ((outcome_lookup_eq_iff.1 rfl).append h)

/-- A lookup of two paths with a slash between them goes on from the node that the first one names.
Where the first one names nothing, or the structure block is malformed on the way, the lookup of
both answers the same. -/
theorem lookup_append_slash (b : Blob) (c : Cursor) (p q : Bytes) (mode : MatchMode) :
    (∀ c', (b.lookup c (.ofBytes p) .exact).outcome = .ok (.node c') →
      (b.lookup c (.ofBytes (p ++ Path.slash :: q)) mode).outcome =
        (b.lookup c' (.ofBytes q) mode).outcome) ∧
    ((b.lookup c (.ofBytes p) .exact).outcome = .ok .nothing →
      (b.lookup c (.ofBytes (p ++ Path.slash :: q)) mode).outcome = .ok .nothing) ∧
    ∀ offset defect, (b.lookup c (.ofBytes p) .exact).outcome = .error (.malformed offset defect) →
      (b.lookup c (.ofBytes (p ++ Path.slash :: q)) mode).outcome =
        .error (.malformed offset defect) := by
  rw [Path.ofBytes_append_slash]
  refine ⟨fun c' h => ?_, fun h => ?_, fun offset defect h => ?_⟩
  · refine outcome_lookup_append ?_
    rw [h]
    exact outcome_lookup_eq_iff.1 rfl
  · refine outcome_lookup_append ?_
    rw [h]
    rfl
  · refine outcome_lookup_append ?_
    rw [h]
    rfl

end Blob

theorem Layout.lookup_cutBoard_nothing :
    (cutBoard.lookup ⟨36⟩ (.ofBytes [0x7a]) .exact).outcome = .ok .nothing := by
  have h₁ : cutBoard.Reads ⟨36⟩ (.property 0 []) ⟨48⟩ := rfl
  have h₂ : cutBoard.Reads ⟨48⟩ (.beginNode [0x62]) ⟨56⟩ := rfl
  have hk : (cutBoard.skip ⟨56⟩).outcome = .ok ⟨60⟩ :=
    Blob.outcome_skip_eq_ok_iff.2 ⟨.nil, _, cutBoard.streamAt ⟨60⟩, rfl, by decide, rfl, rfl⟩
  have he : (cutBoard.streamAt ⟨60⟩).AtLevelEnd := .inl rfl
  exact Blob.outcome_lookup_eq_iff.2 (.mismatch h₁ rfl rfl (.skip h₂ rfl hk (.levelEnd he)))

theorem Layout.lookup_cutBoard_error :
    (cutBoard.lookup .root (.ofBytes [0x2f, 0x7a]) .exact).outcome =
      .error (.malformed 64 .endOfBlock) := by
  have h₁ : cutBoard.Reads .root (.beginNode []) ⟨8⟩ := rfl
  have h₂ : cutBoard.Reads ⟨8⟩ .nop ⟨12⟩ := rfl
  have h₃ : cutBoard.Reads ⟨12⟩ (.property 2 [1, 2, 3]) ⟨28⟩ := rfl
  have h₄ : cutBoard.Reads ⟨28⟩ (.beginNode [0x61]) ⟨36⟩ := rfl
  have he : cutBoard.Finds .exact [0x7a] [] ⟨64⟩ (.error (.malformed 64 .endOfBlock)) :=
    .unreadable rfl
  exact Blob.outcome_lookup_eq_iff.2
    (.enter h₁ (.nop h₂ (.mismatch h₃ rfl rfl (.skip h₄ rfl skip_cutBoard he))))

/-- In the block that is cut off: `/a` names a node, `z` inside of it nothing, and on the way to
`/z` the block ends. -/
theorem Blob.lookup_cutBoard_slash :
    (Layout.cutBoard.lookup .root (.ofBytes [0x2f, 0x61, 0x2f, 0x62]) .exact).outcome =
        (Layout.cutBoard.lookup ⟨36⟩ (.ofBytes [0x62]) .exact).outcome ∧
      (Layout.cutBoard.lookup ⟨36⟩ (.ofBytes [0x7a, 0x2f, 0x62]) .initial).outcome = .ok .nothing ∧
      (Layout.cutBoard.lookup .root (.ofBytes [0x2f, 0x7a, 0x2f, 0x62]) .exact).outcome =
        .error (.malformed 64 .endOfBlock) := by
  have hnode := (lookup_append_slash Layout.cutBoard .root [0x2f, 0x61] [0x62] .exact).1
  have hnothing := (lookup_append_slash Layout.cutBoard ⟨36⟩ [0x7a] [0x62] .initial).2.1
  have herror := (lookup_append_slash Layout.cutBoard .root [0x2f, 0x7a] [0x62] .exact).2.2
  exact ⟨hnode _ Layout.lookup_cutBoard, hnothing Layout.lookup_cutBoard_nothing,
    herror _ _ Layout.lookup_cutBoard_error⟩

end Devicetree
