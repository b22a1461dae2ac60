import Devicetree.Proofs.Levels

/-!
# A lookup is a search of the tree

A lookup reads tokens, skips nodes and goes on inside of others, and never has a tree. On a level
that spells a forest it answers what the search of that forest answers (`lookupFrom_forest`), by
induction over the forest: an item that does not match is passed, with a skip if it is a node, and
a node that matches brings the lookup to the forest inside of it.
-/

namespace Devicetree

namespace Path

def segments (p : Path) : List Bytes :=
  p.first :: p.rest

theorem segments_ofBytes (b : Bytes) : (ofBytes b).segments = b.splitOn slash := by
  induction b with
  | nil => rfl
  | cons c b ih =>
    rw [List.splitOn, List.splitOnP_cons_eq_if_modifyHead, ← List.splitOn, ← ih]
    simp only [ofBytes, List.foldr_cons, cons, segments]
    by_cases hc : c = slash
    · simp [hc]
    · simp [hc]

end Path

namespace Blob

theorem skipFrom_forest {b : Blob} {f : Forest} {s s₁ s₂ : Stream} (h : s.Passes f.tokens s₁)
    (hn : f.Named b.stringsBlock) (h₁ : s₁.next = (.ok (some .endNode), s₂)) (seen : List Event) :
    ∃ seen', b.skipFrom s seen = (.ok s₂, seen') := by
  obtain ⟨told, -, hw⟩ := walkFrom_forest b 1 f 0 h hn
  refine ⟨.read s₁.offset :: (told ++ seen), ?_⟩
  rw [skipFrom, hw, walkFrom_endNode_zero h₁, if_neg Nat.one_ne_zero]

theorem lookupFrom_forest (b : Blob) (mode : MatchMode) : ∀ (f : Forest) (segment : Bytes)
    (rest : List Bytes) {s s' : Stream} (seen : List Event), s.Passes f.tokens s' →
      f.Named b.stringsBlock → s'.AtLevelEnd →
        (b.lookupFrom mode segment rest s seen).1 =
          .ok (f.searchFrom b.stringsBlock mode s.offset segment rest)
  | .nil, segment, rest, s, s', seen, h, hn, he => by
    obtain rfl : s' = s := h
    rw [Forest.searchFrom_nil]
    rcases hs : s'.next with ⟨r, s₁⟩
    rcases he with he | he <;> rw [hs] at he <;> obtain rfl := he
    · rw [lookupFrom_endNode hs]
    · rw [lookupFrom_endOfTree hs]
  | .nop next, segment, rest, s, s', seen, ⟨s₁, h₁, h⟩, hn, he => by
    have ih := lookupFrom_forest b mode next segment rest (.read s.offset :: seen) h
      (Forest.named_nop_iff.1 hn) he
    rw [lookupFrom_nop h₁, ih, Forest.searchFrom_nop, ← Stream.offset_of_next h₁]
  | .property nameOffset value next, segment, rest, s, s', seen, ⟨s₁, h₁, h⟩, hn, he => by
    obtain ⟨⟨name, hname⟩, hn⟩ := Forest.named_property_iff.1 hn
    have ih := lookupFrom_forest b mode next segment rest (.read s.offset :: seen) h hn he
    have ho := Stream.offset_of_next h₁
    cases rest with
    | nil =>
      rw [lookupFrom_property_last h₁ (nameAt_eq_ok_iff.2 hname),
        Forest.searchFrom_property_last, Bytes.stringAt?_eq_some_iff.2 hname, Option.getD_some,
        ← ho]
      simp only [MatchMode.accepts_iff_matches]
      split_ifs
      · rfl
      · exact ih
    | cons segment' rest =>
      rw [lookupFrom_property_cons h₁, ih, Forest.searchFrom_property_cons, ← ho]
  | .node name items next, segment, rest, s, s', seen, h, hn, he => by
    obtain ⟨s₁, s₂, s₃, h₁, hi, h₂, h⟩ := Stream.passes_node_iff.1 h
    obtain ⟨hni, hn⟩ := Forest.named_node_iff.1 hn
    obtain ⟨seen', hs⟩ := skipFrom_forest hi hni h₂ (.read s.offset :: seen)
    have ih := lookupFrom_forest b mode next segment rest seen' h hn he
    have ho := Stream.offset_of_next h₁
    have ho₁ := Stream.offset_of_passes hi
    have ho₂ := Stream.offset_of_next h₂
    cases rest with
    | nil =>
      rw [Forest.searchFrom_node_last, ← ho, ← ho₁, ← ho₂]
      split_ifs with ha
      · rw [lookupFrom_beginNode_last h₁ (MatchMode.accepts_iff_matches.2 ha)]
        rfl
      · have ha' : (mode.before []).accepts segment name = false :=
          eq_false_of_ne_true (mt MatchMode.accepts_iff_matches.1 ha)
        rw [lookupFrom_beginNode_skip h₁ ha' hs, ih]
    | cons segment' rest =>
      rw [Forest.searchFrom_node_cons, ← ho, ← ho₁, ← ho₂]
      split_ifs with ha
      · rw [lookupFrom_beginNode_cons h₁ ha]
        exact lookupFrom_forest b mode items segment' rest _ hi hni
          (Stream.atLevelEnd_of_endNode h₂)
      · have ha' : (mode.before (segment' :: rest)).accepts segment name = false := by
          simpa [MatchMode.before, MatchMode.accepts] using ha
        rw [lookupFrom_beginNode_skip h₁ ha' hs, ih]

theorem outcome_lookup_eq_search {b : Blob} {c : Cursor} {f : Forest} {s : Stream}
    (h : (b.streamAt c).Passes f.tokens s) (hn : f.Named b.stringsBlock) (he : s.AtLevelEnd)
    (path : Path) (mode : MatchMode) :
    (b.lookup c path mode).outcome = .ok (f.search b.stringsBlock c.offset path mode) :=
  lookupFrom_forest b mode f path.first path.rest [] h hn he

/-- Whether the items of a level stand in the block, and after them a tag that closes a level. -/
def Places (b : Blob) (level : Forest.Level) : Prop :=
  ∃ x tag rest, level.items.Spells x ∧ (tag = Tag.endNode ∨ tag = Tag.endOfTree) ∧
    b.structureBlock.drop level.start.offset = x ++ (BigEndian.encodeWord tag.number ++ rest)

theorem places_of_passes {b : Blob} {level : Forest.Level} {s : Stream}
    (h : (b.streamAt level.start).Passes level.items.tokens s) (he : s.AtLevelEnd) :
    b.Places level := by
  obtain ⟨x, hx, hr, -⟩ := (Stream.passes_iff_spells _).1 h
  rcases hs : s.next with ⟨r, s'⟩
  rcases he with he | he <;> rw [hs] at he <;> obtain rfl := he
  · obtain ⟨y, hy, hr', -⟩ := Stream.next_eq_some_iff.1 hs
    cases hy
    exact ⟨x, .endNode, s'.rest, hx, .inl rfl, by rw [← hr', ← hr]; rfl⟩
  · exact ⟨x, .endOfTree, s'.rest, hx, .inr rfl,
      by rw [← (Stream.next_eq_none_iff.1 hs).1, ← hr]; rfl⟩

/-- The levels of a blob that holds a tree can be walked from where they start. -/
theorem Holds.passes_of_mem_levels {b : Blob} {f : Forest} (h : b.Holds f) {level : Forest.Level}
    (hl : level ∈ f.levels) : level.items.Named b.stringsBlock ∧
      ∃ s, (b.streamAt level.start).Passes level.items.tokens s ∧ s.AtLevelEnd := by
  obtain ⟨hn, s, s', hp, hs⟩ := holds_iff_passes.1 h
  rcases List.mem_cons.1 hl with rfl | hl
  · exact ⟨hn, s, hp, Stream.atLevelEnd_of_endOfTree hs⟩
  · obtain ⟨ts, s₁, s₂, s₃, h₁, -, hc, h₂, h₃, -⟩ := Stream.passes_of_mem_levelsFrom f hl hp
    have hb : b.streamAt level.start = s₁ := by
      rw [← hc]
      exact (Stream.ofBlock_of_passes h₁).symm
    exact ⟨Forest.named_of_mem_levelsFrom f hl hn, s₂, hb ▸ h₂, Stream.atLevelEnd_of_endNode h₃⟩

theorem Holds.outcome_lookup {b : Blob} {f : Forest} (h : b.Holds f) {level : Forest.Level}
    (hl : level ∈ f.levels) (path : Path) (mode : MatchMode) :
    (b.lookup level.start path mode).outcome =
      .ok (level.items.search b.stringsBlock level.start.offset path mode) := by
  obtain ⟨hn, s, hp, he⟩ := h.passes_of_mem_levels hl
  exact outcome_lookup_eq_search hp hn he path mode

/-- A skip from the inside of a node comes back behind the token that closes it. -/
theorem outcome_skip_of_mem_levelsFrom {b : Blob} {c : Cursor} {f : Forest} {s : Stream}
    (h : (b.streamAt c).Passes f.tokens s) (hn : f.Named b.stringsBlock) {level : Forest.Level}
    (hl : level ∈ f.levelsFrom c.offset) : c < level.start ∧
      (b.skip level.start).outcome = .ok level.stop ∧ level.stop.offset ≤ s.offset := by
  obtain ⟨ts, s₁, s₂, s₃, h₁, hlt, hc, h₂, h₃, hle⟩ := Stream.passes_of_mem_levelsFrom f hl h
  have hb : b.streamAt level.start = s₁ := by
    rw [← hc]
    exact (Stream.ofBlock_of_passes h₁).symm
  have hstop : level.stop = s₃.cursor := by
    rw [Forest.Level.stop, Stream.cursor, Stream.offset_of_next h₃, Stream.offset_of_passes h₂,
      ← hc]
    rfl
  refine ⟨?_, ?_, ?_⟩
  · rw [← hc]
    exact hlt
  · exact outcome_skip_eq_ok_iff.2 ⟨level.items, s₂, s₃, by rwa [hb],
      Forest.named_of_mem_levelsFrom f hl hn, h₃, hstop⟩
  · rw [hstop]
    exact hle

theorem Holds.outcome_skip {b : Blob} {f : Forest} (h : b.Holds f) {level : Forest.Level}
    (hl : level ∈ f.levelsFrom 0) : (b.skip level.start).outcome = .ok level.stop := by
  obtain ⟨hn, s, -, hp, -⟩ := holds_iff_passes.1 h
  exact (outcome_skip_of_mem_levelsFrom hp hn hl).2.1

/-- In a validated blob a lookup from the top or from inside of any node never fails. It finds what
the search of the tree finds that stands in the structure block, so a node that it finds is one of
the tree. -/
theorem lookup_of_validate {b : Blob} (h : b.validate.outcome = .ok ()) :
    (∃ f, b.Holds f) ∧ ∀ f, b.Holds f → ∀ level ∈ f.levels, b.Places level ∧
      ∀ (text : Bytes) (mode : MatchMode), ∃ segment rest found,
        text.splitOn Path.slash = segment :: rest ∧
          found = level.items.searchFrom b.stringsBlock mode level.start.offset segment rest ∧
          (b.lookup level.start (Path.ofBytes text) mode).outcome = .ok found ∧
          ∀ c, found = .node c → ∃ items, ⟨c, items⟩ ∈ f.levels := by
  refine ⟨outcome_validate_eq_ok_iff.1 h, fun f hf level hl => ?_⟩
  obtain ⟨-, s, hp, he⟩ := hf.passes_of_mem_levels hl
  refine ⟨places_of_passes hp he, fun text mode => ?_⟩
  refine ⟨(Path.ofBytes text).first, (Path.ofBytes text).rest, _, (Path.segments_ofBytes text).symm,
    rfl, hf.outcome_lookup hl _ mode, fun c hc => ?_⟩
  have hhas := Forest.has_searchFrom b.stringsBlock mode level.items level.start.offset
    (Path.ofBytes text).first (Path.ofBytes text).rest
  rw [hc] at hhas
  obtain ⟨items, hi⟩ := hhas
  exact ⟨items, Forest.levels_subset hl hi⟩

end Blob

/-- A root node with a property `reg` and two nodes `a`, the first of which holds a property `a`
and a node `b`. -/
def Layout.board : Layout where
  version := 17
  lastCompatible := 16
  bootCpu := 0
  reservations := []
  forest := .node [] (.nop (.property 2 [1, 2, 3]
    (.node [0x61] (.property 0 [] (.node [0x62] .nil .nil)) (.node [0x61] .nil .nil)))) .nil
  strings := [0x61, 0, 0x72, 0x65, 0x67, 0]

theorem Layout.board_writable : board.Writable where
  forest := by simp [board, Forest.Writable, Forest.tokens, Token.Writable, UInt32.size]
  named := by decide
  aligned := rfl
  size_lt := by decide

/-- The path `/a/b` from the top, names that start with `re` inside of the root node, and names that
start with `b` inside of the first node `a`, where there is a property that does not. -/
theorem Blob.lookup_board : Layout.board.blob.validate.outcome = .ok () ∧
    (Layout.board.blob.lookup .root (.ofBytes [0x2f, 0x61, 0x2f, 0x62]) .exact).outcome =
        .ok (.node ⟨56⟩) ∧
      (Layout.board.blob.lookup ⟨8⟩ (.ofBytes [0x72, 0x65]) .initial).outcome =
        .ok (.property ⟨[1, 2, 3]⟩) ∧
      (Layout.board.blob.lookup ⟨36⟩ (.ofBytes [0x62]) .initial).outcome = .ok (.node ⟨56⟩) := by
  have hb := Layout.holds_blob Layout.board_writable
  have h : Layout.board.blob.validate.outcome = .ok () := outcome_validate_eq_ok_iff.2 ⟨_, hb⟩
  have hl := (lookup_of_validate h).2 _ hb
  obtain ⟨_, _, _, hs, rfl, hr, -⟩ := (hl ⟨.root, Layout.board.forest⟩ (by decide)).2
    [0x2f, 0x61, 0x2f, 0x62] .exact
  obtain ⟨_, _, _, hs', rfl, hr', -⟩ := (hl ⟨⟨8⟩, .nop (.property 2 [1, 2, 3]
    (.node [0x61] (.property 0 [] (.node [0x62] .nil .nil)) (.node [0x61] .nil .nil)))⟩
      (by decide)).2 [0x72, 0x65] .initial
  obtain ⟨_, _, _, hs'', rfl, hr'', -⟩ :=
    (hl ⟨⟨36⟩, .property 0 [] (.node [0x62] .nil .nil)⟩ (by decide)).2 [0x62] .initial
  cases hs
  cases hs'
  cases hs''
  exact ⟨h, hr, hr', hr''⟩

end Devicetree
