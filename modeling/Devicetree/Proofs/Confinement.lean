import Devicetree.Proofs.Search

/-!
# A lookup stays inside of the node it starts in

Where a skip comes back, the bytes up to there spell a forest and the token that closes it
(`region?_of_passes`), whatever the rest of the blob is. A lookup from the same place is a search of
that forest, so it never sees what comes after: nodes that it finds lie inside, values that it finds
are cut out of these bytes, and in another blob the same bytes give the same answer. Only the place
where the forest starts shows in the answer, as an offset (`searchFrom_add`).
-/

namespace Devicetree

namespace Token

theorem value_isInfix {nameOffset : UInt32} {value x : Bytes}
    (h : (property nameOffset value).Spells x) : value <:+: x := by
  cases h with
  | @property _ size _ pad _ _ =>
    refine ⟨BigEndian.encodeWord Tag.property.number ++ (BigEndian.encodeWord size ++
      BigEndian.encodeWord nameOffset), pad, by simp only [List.append_assoc]⟩

theorem SpellsAll.exists_isInfix {t : Token} {ts : List Token} {x : Bytes} (h : SpellsAll ts x)
    (ht : t ∈ ts) : ∃ y, t.Spells y ∧ y <:+: x := by
  induction h with
  | nil => simp at ht
  | @cons t' ts y z hy _ ih =>
    rcases List.mem_cons.1 ht with rfl | ht
    · exact ⟨y, hy, (List.prefix_append y z).isInfix⟩
    · obtain ⟨y', hy', hi⟩ := ih ht
      exact ⟨y', hy', hi.trans (List.suffix_append y z).isInfix⟩

end Token

namespace Found

/-- What is found when everything lies `n` bytes further on. -/
def moved (n : Nat) : Found → Found
  | node body => node ⟨body.offset + n⟩
  | found => found

/-- What is found, with the offset of a node counted from a cursor on. -/
def relativeTo (c : Cursor) : Found → Found
  | node body => node ⟨body.offset - c.offset⟩
  | found => found

theorem relativeTo_moved (c : Cursor) (found : Found) :
    (found.moved c.offset).relativeTo c = found := by
  cases found <;> simp [moved, relativeTo]

end Found

namespace Forest

theorem searchFrom_add (strings : Bytes) (mode : MatchMode) (n : Nat) : ∀ (f : Forest)
    (start : Nat) (segment : Bytes) (rest : List Bytes),
    f.searchFrom strings mode (start + n) segment rest =
      (f.searchFrom strings mode start segment rest).moved n
  | .nil, start, segment, rest => by
    rw [searchFrom_nil, searchFrom_nil]
    rfl
  | .nop next, start, segment, rest => by
    rw [searchFrom_nop, searchFrom_nop, Nat.add_right_comm, searchFrom_add]
  | .property nameOffset value next, start, segment, [] => by
    rw [searchFrom_property_last, searchFrom_property_last, Nat.add_right_comm, searchFrom_add]
    split_ifs <;> rfl
  | .property nameOffset value next, start, segment, segment' :: rest => by
    rw [searchFrom_property_cons, searchFrom_property_cons, Nat.add_right_comm, searchFrom_add]
  | .node name items next, start, segment, rest => by
    have hbody : start + n + (Token.beginNode name).size =
        start + (Token.beginNode name).size + n := Nat.add_right_comm _ _ _
    have hnext : start + (Token.beginNode name).size + n + items.size + Token.endNode.size =
        start + (Token.beginNode name).size + items.size + Token.endNode.size + n := by
      omega
    cases rest with
    | nil =>
      rw [searchFrom_node_last, searchFrom_node_last, hbody, hnext,
        searchFrom_add strings mode n next]
      split_ifs <;> rfl
    | cons segment' rest =>
      rw [searchFrom_node_cons, searchFrom_node_cons, hbody, hnext,
        searchFrom_add strings mode n next, searchFrom_add strings mode n items]
      split_ifs <;> rfl

theorem relativeTo_search (strings : Bytes) (f : Forest) (c : Cursor) (path : Path)
    (mode : MatchMode) :
    (f.search strings c.offset path mode).relativeTo c = f.search strings 0 path mode := by
  have h := searchFrom_add strings mode c.offset f 0 path.first path.rest
  rw [Nat.zero_add] at h
  rw [search, h, Found.relativeTo_moved, search]

end Forest

namespace Stream

/-- From where a level starts to behind the node that it is in, a block holds the spelling of a
forest and the token that closes the node. -/
theorem region?_of_passes {block : Bytes} {c : Cursor} {f : Forest} {s s' : Stream}
    (h : (ofBlock block c).Passes f.tokens s) (h' : s.next = (.ok (some .endNode), s')) :
    ∃ x, f.Spells x ∧ block.region? c.offset (s'.offset - c.offset) =
      some (x ++ BigEndian.encodeWord Tag.endNode.number) := by
  obtain ⟨x, hx, hr, ho⟩ := (passes_iff_spells _).1 h
  obtain ⟨y, hy, hr', ho'⟩ := next_eq_some_iff.1 h'
  cases hy
  have hd : block.drop c.offset =
      (x ++ BigEndian.encodeWord Tag.endNode.number) ++ s'.rest := by
    rw [List.append_assoc, ← hr', ← hr]
    rfl
  have hn : s'.offset - c.offset =
      (x ++ BigEndian.encodeWord Tag.endNode.number).length := by
    have ho : s.offset = c.offset + x.length := ho
    rw [List.length_append]
    omega
  have hl : 4 ≤ (x ++ BigEndian.encodeWord Tag.endNode.number).length := by simp
  have hd' := congrArg List.length hd
  rw [List.length_drop, List.length_append] at hd'
  refine ⟨x, hx, Bytes.region?_eq_some_iff.2 ⟨by omega, ?_⟩⟩
  rw [hn, hd, List.take_left]

/-- The bytes of a level and of the token that closes it are all that it takes to pass it. -/
theorem passes_of_region? {block x : Bytes} {c : Cursor} {n : Nat} {f : Forest} (hx : f.Spells x)
    (h : block.region? c.offset n = some (x ++ BigEndian.encodeWord Tag.endNode.number)) :
    ∃ s s', (ofBlock block c).Passes f.tokens s ∧ s.next = (.ok (some .endNode), s') := by
  have hspells : Token.SpellsAll (f.tokens ++ [.endNode])
      (x ++ BigEndian.encodeWord Tag.endNode.number) := by
    simpa using hx.append (.cons .endNode .nil)
  obtain ⟨s, hp, s', hs, -⟩ := (passes_append _ _).1 (passes_ofBlock_of_region? hspells h)
  exact ⟨s, s', hp, hs⟩

end Stream

namespace Blob

/-- Where a skip comes back, a lookup from the same place succeeds. What it finds lies in the region
that is skipped, and this region and the strings block alone determine it. -/
theorem lookup_confined {b : Blob} {c e : Cursor} (h : (b.skip c).outcome = .ok e) (path : Path)
    (mode : MatchMode) : ∃ region found,
      b.structureBlock.region? c.offset (e.offset - c.offset) = some region ∧
      (b.lookup c path mode).outcome = .ok found ∧
      (∀ c', found = .node c' → c < c' ∧ ∃ e', (b.skip c').outcome = .ok e' ∧ e' < e) ∧
      (∀ v, found = .property v → v.bytes <:+: region) ∧
      ∀ (b' : Blob) (c' : Cursor), b'.stringsBlock = b.stringsBlock →
        b'.structureBlock.region? c'.offset (e.offset - c.offset) = some region →
          ∃ found', (b'.lookup c' path mode).outcome = .ok found' ∧
            found'.relativeTo c' = found.relativeTo c := by
  obtain ⟨f, s, s', hp, hn, hs, rfl⟩ := outcome_skip_eq_ok_iff.1 h
  obtain ⟨x, hx, hr⟩ := Stream.region?_of_passes hp hs
  have hfound := outcome_lookup_eq_search hp hn (Stream.atLevelEnd_of_endNode hs) path mode
  have hhas := Forest.has_searchFrom b.stringsBlock mode f c.offset path.first path.rest
  refine ⟨_, _, hr, hfound, fun c' hc' => ?_, fun v hv => ?_, fun b' c' hb hr' => ?_⟩
  · rw [Forest.search] at hc'
    rw [hc'] at hhas
    obtain ⟨items, hl⟩ := hhas
    obtain ⟨hlt, hskip, hle⟩ := outcome_skip_of_mem_levelsFrom hp hn hl
    have ho : s.offset < s'.offset := by
      rw [Stream.offset_of_next hs]
      exact Nat.lt_add_of_pos_right (by decide)
    exact ⟨hlt, _, hskip, Nat.lt_of_le_of_lt hle ho⟩
  · rw [Forest.search] at hv
    rw [hv] at hhas
    obtain ⟨o, hm⟩ := hhas
    obtain ⟨y, hy, hi⟩ := Token.SpellsAll.exists_isInfix hx hm
    exact ((Token.value_isInfix hy).trans hi).trans (List.prefix_append x _).isInfix
  · obtain ⟨s₁, s₁', hp', hs'⟩ := Stream.passes_of_region? hx hr'
    have hfound' := outcome_lookup_eq_search hp' (hb ▸ hn) (Stream.atLevelEnd_of_endNode hs')
      path mode
    refine ⟨_, hfound', ?_⟩
    rw [Forest.relativeTo_search, Forest.relativeTo_search, hb]

/-- The inside of the root node, once in its place and once as a block of its own. -/
theorem lookup_confined_board : (Layout.board.blob.skip ⟨8⟩).outcome = .ok ⟨80⟩ ∧
    (∃ e, (Layout.board.blob.skip ⟨56⟩).outcome = .ok e ∧ e < ⟨80⟩) ∧
      ∃ found, ({ Layout.board.blob with structureBlock :=
          (Layout.board.structureBlock.drop 8).take 72 }.lookup .root
            (.ofBytes [0x61, 0x2f, 0x62]) .exact).outcome = .ok found ∧
        found.relativeTo .root = .node ⟨48⟩ := by
  have hb := Layout.holds_blob Layout.board_writable
  have hm : Layout.board.forest.levels[1] ∈ Layout.board.forest.levelsFrom 0 := by decide
  have h : (Layout.board.blob.skip ⟨8⟩).outcome = .ok ⟨80⟩ := hb.outcome_skip hm
  have hl : (Layout.board.blob.lookup ⟨8⟩ (.ofBytes [0x61, 0x2f, 0x62]) .exact).outcome =
      .ok (.node ⟨56⟩) :=
    hb.outcome_lookup (List.mem_cons_of_mem _ hm) (.ofBytes [0x61, 0x2f, 0x62]) .exact
  obtain ⟨_, _, hr, hf, hn, -, hc⟩ := lookup_confined h (.ofBytes [0x61, 0x2f, 0x62]) .exact
  rw [hl] at hf
  cases hf
  cases hr
  exact ⟨h, (hn _ rfl).2, hc _ .root rfl rfl⟩

end Blob

end Devicetree
