import Devicetree.Log
import Devicetree.Proofs.Search

/-!
# The log of a walk is what it walks through

From a cursor to the end of its level stands one forest (`Blob.Spans`). The records of a walk that
comes back are the lines of this forest (`Forest.lines`), and a record more if the level ends with
the tree. The walk has only a count of the nodes that are open, so that the line for the end of a
node is indented as the line for its start is a fact about all that stands between them; the
induction for it is `walkFrom_forest`.
-/

namespace Devicetree

namespace Forest

def spaces (n : Nat) : String :=
  String.ofList (List.replicate n ' ')

/-- The line behind the last one of a tree. -/
def endLine : String := "end of structure block"

/-- A forest as text: a line for each property, and two for each node, around the lines of what it
holds, which are indented by one space more. -/
def lines (strings : Bytes) : (indent : Nat) → Forest → List String
  | _, nil => []
  | indent, nop next => next.lines strings indent
  | indent, property nameOffset value next =>
    let name := (strings.stringAt? nameOffset.toNat).getD []
    (spaces indent ++ ("property " ++ Escaped.name name ++ " (" ++ toString value.length ++
      " bytes)")) :: next.lines strings indent
  | indent, node name items next =>
    (spaces indent ++ ("node " ++ Escaped.name name)) :: (items.lines strings (indent + 1) ++
      (spaces indent ++ "end node") :: next.lines strings indent)

/-- The records of a walk through a forest are its lines. -/
theorem map_record_notices (strings : Bytes) : ∀ (indent : Nat) (f : Forest),
    (f.notices strings indent).map Notice.record =
      (f.lines strings indent).map (Record.mk .trace "fdt_lookup::base::walk")
  | _, nil => rfl
  | indent, nop next => map_record_notices strings indent next
  | indent, property nameOffset value next => by
    rw [notices, lines, List.map_cons, List.map_cons, map_record_notices strings indent next]
    rfl
  | indent, node name items next => by
    rw [notices, lines, List.map_cons, List.map_cons, List.map_append, List.map_append,
      List.map_cons, List.map_cons, map_record_notices strings (indent + 1) items,
      map_record_notices strings indent next]
    rfl

/-- An indented line parts from the last line of a tree at the first character. One that is not
indented does so within five, as `end node` does. -/
theorem spaces_append_ne {s : String} (indent : Nat)
    (h : s.toList.take 5 ≠ endLine.toList.take 5) : spaces indent ++ s ≠ endLine := by
  intro he
  have hl : List.replicate indent ' ' ++ s.toList = endLine.toList := by
    rw [← he, String.toList_append, spaces, String.toList_ofList]
  cases indent with
  | zero => exact h (congrArg (List.take 5) hl)
  | succ indent => exact absurd (congrArg List.head? hl) (by simp [List.replicate_succ, endLine])

/-- No line of a forest looks like the end of the block. -/
theorem endLine_notMem_lines (strings : Bytes) : ∀ (indent : Nat) (f : Forest),
    endLine ∉ f.lines strings indent
  | _, nil => List.not_mem_nil
  | indent, nop next => endLine_notMem_lines strings indent next
  | indent, property nameOffset value next => by
    rw [lines, List.mem_cons, not_or]
    refine ⟨(spaces_append_ne indent ?_).symm, endLine_notMem_lines strings indent next⟩
    simp [endLine]
  | indent, node name items next => by
    rw [lines, List.mem_cons, List.mem_append, List.mem_cons, not_or, not_or, not_or]
    refine ⟨(spaces_append_ne indent ?_).symm, endLine_notMem_lines strings (indent + 1) items,
      (spaces_append_ne indent ?_).symm, endLine_notMem_lines strings indent next⟩
    · simp [endLine]
    · simp [endLine]

end Forest

/-- The tag at which a walk stops that goes on from a cursor, or from nowhere. -/
def closingTag : Option Cursor → Tag
  | none => .endOfTree
  | some _ => .endNode

namespace Stream

variable {s : Stream} {depth : Nat}

theorem Closes.atLevelEnd {o : Option Stream} (h : s.Closes depth o) : s.AtLevelEnd := by
  cases o with
  | none =>
    obtain ⟨-, s', hs⟩ := h
    exact atLevelEnd_of_endOfTree hs
  | some s' => exact atLevelEnd_of_endNode h.2

/-- How a level closes is said by the word that stands at its end. -/
theorem exists_closes_iff {o : Option Cursor} :
    (∃ o', s.Closes depth o' ∧ o = o'.map cursor) ↔ (o = none ↔ depth = 0) ∧
      (∃ rest, s.rest = BigEndian.encodeWord (closingTag o).number ++ rest) ∧
        ∀ e, o = some e → e.offset = s.offset + 4 := by
  constructor
  · rintro ⟨_ | s', hc, rfl⟩
    · obtain ⟨h0, s', hs⟩ := hc
      exact ⟨iff_of_true rfl h0, ⟨s'.rest, (next_eq_none_iff.1 hs).1⟩, nofun⟩
    · obtain ⟨h0, hs⟩ := hc
      obtain ⟨x, hx, hr, ho⟩ := next_eq_some_iff.1 hs
      cases hx
      refine ⟨iff_of_false nofun h0, ⟨s'.rest, hr⟩, ?_⟩
      rintro _ ⟨⟩
      exact ho
  · rintro ⟨h0, ⟨rest, hr⟩, he⟩
    cases o with
    | none =>
      exact ⟨none, ⟨h0.1 rfl, ⟨s.offset + 4, rest⟩, next_eq_none_iff.2 ⟨hr, rfl⟩⟩, rfl⟩
    | some e =>
      have hs : s.next = (.ok (some .endNode), ⟨e.offset, rest⟩) :=
        next_eq_some_iff.2 ⟨_, .endNode, hr, he e rfl⟩
      exact ⟨some _, ⟨fun h => Option.some_ne_none e (h0.2 h), hs⟩, rfl⟩

end Stream

namespace Blob

/-- Whether the forest stands from the cursor on up to where its level ends: a level at the top with
the tree, and any other with its node, in front of the cursor that the walk goes on from. -/
structure Spans (b : Blob) (c : Cursor) (depth : Nat) (f : Forest) (o : Option Cursor) : Prop where
  spelled : ∃ x rest, f.Spells x ∧
    b.structureBlock.drop c.offset = x ++ (BigEndian.encodeWord (closingTag o).number ++ rest)
  named : f.Named b.stringsBlock
  top : o = none ↔ depth = 0
  stop : ∀ e, o = some e → e.offset = c.offset + f.size + 4

variable {b : Blob} {c : Cursor} {depth : Nat} {f f' : Forest} {o : Option Cursor}

theorem spans_iff_passes : b.Spans c depth f o ↔ ∃ s o', (b.streamAt c).Passes f.tokens s ∧
    f.Named b.stringsBlock ∧ s.Closes depth o' ∧ o = o'.map Stream.cursor := by
  constructor
  · rintro ⟨⟨x, rest, hx, hr⟩, hn, htop, hstop⟩
    let s : Stream := ⟨c.offset + f.size, BigEndian.encodeWord (closingTag o).number ++ rest⟩
    have hp : (b.streamAt c).Passes f.tokens s :=
      (Stream.passes_iff_spells _).2 ⟨x, hx, hr, by rw [hx.length]; rfl⟩
    obtain ⟨o', hc, ho⟩ := (Stream.exists_closes_iff (s := s)).2 ⟨htop, ⟨rest, rfl⟩, hstop⟩
    exact ⟨s, o', hp, hn, hc, ho⟩
  · rintro ⟨s, o', hp, hn, hc, ho⟩
    obtain ⟨htop, ⟨rest, hrest⟩, hstop⟩ := Stream.exists_closes_iff.1 ⟨o', hc, ho⟩
    obtain ⟨x, hx, hr, -⟩ := (Stream.passes_iff_spells _).1 hp
    refine ⟨⟨x, rest, hx, ?_⟩, hn, htop, ?_⟩
    · rw [← hrest, ← hr]
      rfl
    · rwa [Stream.offset_of_passes hp] at hstop

/-- A walk comes back exactly where a forest stands up to the end of the level. -/
theorem outcome_walk_eq_ok_iff_spans :
    (b.walk c depth).outcome = .ok o ↔ ∃ f, b.Spans c depth f o := by
  rw [outcome_walk_eq_ok_iff]
  exact exists_congr fun f => spans_iff_passes.symm

/-- A valid block is one level at the top. -/
theorem Holds.spans (h : b.Holds f) : b.Spans .root 0 f none :=
  ⟨h.spelled, h.named, iff_of_true rfl rfl, nofun⟩

theorem Spans.unique (h : b.Spans c depth f o) (h' : b.Spans c depth f' o) : f' = f := by
  obtain ⟨s, p, hp, -, hc, -⟩ := spans_iff_passes.1 h
  obtain ⟨s', p', hp', -, hc', -⟩ := spans_iff_passes.1 h'
  exact (Stream.forest_unique f' f hp' hc'.atLevelEnd hp hc.atLevelEnd).1

/-! ## What is told -/

theorem notices_walk (h : b.Spans c depth f o) : (b.walk c depth).notices =
    f.notices b.stringsBlock depth ++ if o.isNone then [.treeEnded] else [] := by
  obtain ⟨s, o', hp, hn, hc, rfl⟩ := spans_iff_passes.1 h
  obtain ⟨told, ht, hw⟩ := walkFrom_forest b depth f 0 hp hn
  rw [Observed.notices, walk, Observed.events_map, Observed.ofSeen, hw, List.append_nil,
    List.filterMap_reverse]
  cases o' with
  | none =>
    obtain ⟨rfl, s₁, hs⟩ := hc
    rw [walkFrom_endOfTree hs, if_pos ⟨rfl, rfl⟩]
    exact (List.reverse_cons ..).trans (congrArg (· ++ _) ht)
  | some s₁ =>
    obtain ⟨h0, hs⟩ := hc
    rw [walkFrom_endNode_zero hs, if_neg h0]
    exact ht.trans (List.append_nil _).symm

/-- The records of a walk where everything is logged. -/
def traced (b : Blob) (c : Cursor) (depth : Nat) : List Record :=
  Logger.records ⟨.trace⟩ (b.walk c depth).notices

theorem records_trace (ns : List Notice) :
    Logger.records ⟨.trace⟩ ns = ns.map Notice.record := by
  have h (l : Level) : Logger.isEnabled ⟨.trace⟩ l = true := by
    cases l <;> rfl
  rw [Logger.records, List.filter_eq_self.2 fun n _ => h n.level]

theorem traced_eq (h : b.Spans c depth f o) : b.traced c depth =
    (f.lines b.stringsBlock depth ++ if o.isNone then [Forest.endLine] else []).map
      (Record.mk .trace "fdt_lookup::base::walk") := by
  rw [traced, records_trace, notices_walk h, List.map_append, List.map_append,
    Forest.map_record_notices]
  cases o <;> rfl

theorem getLast?_traced (h : b.Spans c depth f o) :
    (b.traced c depth).getLast?.map Record.message = some Forest.endLine ↔ o = none := by
  rw [traced_eq h, List.getLast?_map, Option.map_map]
  cases o with
  | none =>
    refine iff_of_true ?_ rfl
    rw [Option.isNone_none, if_pos rfl, List.getLast?_concat]
    rfl
  | some e =>
    refine iff_of_false (fun he => ?_) nofun
    rw [Option.isNone_some, if_neg Bool.false_ne_true, List.append_nil, Option.map_eq_some_iff]
      at he
    obtain ⟨line, hl, rfl⟩ := he
    exact Forest.endLine_notMem_lines b.stringsBlock depth f (List.mem_of_getLast? hl)

/-- What is logged of a walk that comes back is the text of the one forest that stands between the
cursor and the end of its level, indented by the depth of the walk. A record that the block ends
comes last if the walk has come to the end of the tree, and otherwise there is none. -/
theorem traced_of_walk (h : (b.walk c depth).outcome = .ok o) :
    ∃ f : Forest, b.Spans c depth f o ∧ (∀ f', b.Spans c depth f' o → f' = f) ∧
      b.traced c depth =
        (f.lines b.stringsBlock depth ++ if o.isNone then [Forest.endLine] else []).map
          (Record.mk .trace "fdt_lookup::base::walk") ∧
      ((b.traced c depth).getLast?.map Record.message = some Forest.endLine ↔ o = none) := by
  obtain ⟨f, hf⟩ := outcome_walk_eq_ok_iff_spans.1 h
  exact ⟨f, hf, fun f' hf' => hf.unique hf', traced_eq hf, getLast?_traced hf⟩

/-- The whole board, and the inside of its first node `a` from the depth that it has. -/
theorem traced_board :
    (Layout.board.blob.traced .root 0).map Record.message =
      ["node ", " property reg (3 bytes)", " node a", "  property a (0 bytes)", "  node b",
        "  end node", " end node", " node a", " end node", "end node", "end of structure block"] ∧
    (Layout.board.blob.traced ⟨36⟩ 2).map Record.message =
      ["  property a (0 bytes)", "  node b", "  end node"] := by
  have hboard : Layout.board.blob.Spans .root 0 Layout.board.forest none :=
    (Layout.holds_blob Layout.board_writable).spans
  have hnode : Layout.board.blob.Spans ⟨36⟩ 2 (.property 0 [] (.node [0x62] .nil .nil))
      (some ⟨64⟩) := by
    refine ⟨⟨_, Layout.board.blob.structureBlock.drop 64, Forest.spells_encode (by decide), rfl⟩,
      by decide, iff_of_false nofun nofun, ?_⟩
    rintro _ ⟨⟩
    rfl
  obtain ⟨f, -, huniq, ht, -⟩ := traced_of_walk (outcome_walk_eq_ok_iff_spans.2 ⟨_, hboard⟩)
  obtain ⟨f', -, huniq', ht', -⟩ := traced_of_walk (outcome_walk_eq_ok_iff_spans.2 ⟨_, hnode⟩)
  rw [ht, ht', ← huniq _ hboard, ← huniq' _ hnode]
  exact ⟨by decide, by decide⟩

end Blob

end Devicetree
