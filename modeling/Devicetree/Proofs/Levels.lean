import Devicetree.Forest.Search
import Devicetree.Proofs.Grammar

/-!
# The levels of a tree

The levels of a tree are its top and the insides of its nodes. Where a block holds the tree, each
level stands in the block where `Forest.Level.start` says, before the token that closes its node
(`passes_of_mem_levelsFrom`). A search of a level finds a property of the tree or one of its levels
(`has_searchFrom`).
-/

namespace Devicetree

namespace Forest

/-- A level of a tree: where its first item starts, and its items. -/
structure Level where
  start : Cursor
  items : Forest
  deriving DecidableEq, Repr

/-- Where the inside of a node stops, behind the token that closes it. -/
def Level.stop (level : Level) : Cursor :=
  ⟨level.start.offset + level.items.size + Token.endNode.size⟩

/-- The insides of the nodes of a forest that starts at `start`, at every depth. -/
def levelsFrom : (start : Nat) → Forest → List Level
  | _, nil => []
  | start, nop next => next.levelsFrom (start + Token.nop.size)
  | start, property nameOffset value next =>
    next.levelsFrom (start + (Token.property nameOffset value).size)
  | start, node name items next =>
    let body := start + (Token.beginNode name).size
    ⟨⟨body⟩, items⟩ :: (items.levelsFrom body ++
      next.levelsFrom (body + items.size + Token.endNode.size))

def levels (f : Forest) : List Level :=
  ⟨.root, f⟩ :: f.levelsFrom 0

/-! ## One item of a search -/

section

variable {strings : Bytes} {mode : MatchMode} {start : Nat} {segment segment' : Bytes}
  {rest : List Bytes} {name value : Bytes} {nameOffset : UInt32} {items next : Forest}

theorem searchFrom_nil : nil.searchFrom strings mode start segment rest = .nothing := by
  cases rest <;> rfl

theorem searchFrom_nop : (nop next).searchFrom strings mode start segment rest =
    next.searchFrom strings mode (start + Token.nop.size) segment rest := by
  cases rest <;> rfl

theorem searchFrom_property_last :
    (property nameOffset value next).searchFrom strings mode start segment [] =
      if mode.Matches segment ((strings.stringAt? nameOffset.toNat).getD []) then
        .property ⟨value⟩
      else next.searchFrom strings mode (start + (Token.property nameOffset value).size)
        segment [] := by
  by_cases hm : mode.Matches segment ((strings.stringAt? nameOffset.toNat).getD [])
  · simp [searchFrom, entries, Entry.name, Entry.found, hm]
  · simp [searchFrom, entries, Entry.name, Entry.found, hm]

theorem searchFrom_property_cons :
    (property nameOffset value next).searchFrom strings mode start segment (segment' :: rest) =
      next.searchFrom strings mode (start + (Token.property nameOffset value).size) segment
        (segment' :: rest) := by
  simp [searchFrom, firstNode?, entries, Entry.isNode]

theorem searchFrom_node_last :
    (node name items next).searchFrom strings mode start segment [] =
      if mode.Matches segment name then .node ⟨start + (Token.beginNode name).size⟩
      else next.searchFrom strings mode
        (start + (Token.beginNode name).size + items.size + Token.endNode.size) segment [] := by
  by_cases hm : mode.Matches segment name
  · simp [searchFrom, entries, Entry.name, Entry.found, hm]
  · simp [searchFrom, entries, Entry.name, Entry.found, hm]

theorem searchFrom_node_cons :
    (node name items next).searchFrom strings mode start segment (segment' :: rest) =
      if segment = name then
        items.searchFrom strings mode (start + (Token.beginNode name).size) segment' rest
      else next.searchFrom strings mode
        (start + (Token.beginNode name).size + items.size + Token.endNode.size) segment
          (segment' :: rest) := by
  by_cases hn : segment = name
  · simp [searchFrom, firstNode?, entries, Entry.isNode, Entry.name, hn]
  · simp [searchFrom, firstNode?, entries, Entry.isNode, Entry.name, hn, Ne.symm hn]

end

/-! ## What a search finds -/

/-- Whether what is found, if anything is, is a property or a node of a forest that starts at
`start`. -/
def Has (start : Nat) (f : Forest) : Found → Prop
  | .property v => ∃ nameOffset, .property nameOffset v.bytes ∈ f.tokens
  | .node c => ∃ items, ⟨c, items⟩ ∈ f.levelsFrom start
  | .nothing => True

theorem Has.mono {start start' : Nat} {f f' : Forest} {r : Found} (h : f.Has start r)
    (ht : f.tokens ⊆ f'.tokens) (hl : f.levelsFrom start ⊆ f'.levelsFrom start') :
    f'.Has start' r := by
  cases r with
  | property v =>
    obtain ⟨nameOffset, h⟩ := h
    exact ⟨nameOffset, ht h⟩
  | node c =>
    obtain ⟨items, h⟩ := h
    exact ⟨items, hl h⟩
  | nothing => trivial

section

variable {start : Nat} {name value : Bytes} {nameOffset : UInt32} {items next : Forest} {r : Found}

theorem Has.of_next_property (h : next.Has (start + (Token.property nameOffset value).size) r) :
    (property nameOffset value next).Has start r :=
  h.mono (List.subset_cons_self _ _) (List.Subset.refl _)

theorem Has.of_items (h : items.Has (start + (Token.beginNode name).size) r) :
    (node name items next).Has start r := by
  refine h.mono (fun t ht => ?_) (fun level hl => ?_)
  · simp [tokens, ht]
  · simp [levelsFrom, hl]

theorem Has.of_next_node (h : next.Has
    (start + (Token.beginNode name).size + items.size + Token.endNode.size) r) :
    (node name items next).Has start r := by
  refine h.mono (fun t ht => ?_) (fun level hl => ?_)
  · simp [tokens, ht]
  · simp [levelsFrom, hl]

end

theorem has_searchFrom (strings : Bytes) (mode : MatchMode) : ∀ (f : Forest) (start : Nat)
    (segment : Bytes) (rest : List Bytes),
    f.Has start (f.searchFrom strings mode start segment rest)
  | .nil, start, segment, rest => by
    rw [searchFrom_nil]
    trivial
  | .nop next, start, segment, rest => by
    rw [searchFrom_nop]
    exact (has_searchFrom strings mode next _ segment rest).mono (List.subset_cons_self _ _)
      (List.Subset.refl _)
  | .property nameOffset value next, start, segment, rest => by
    have hnext := has_searchFrom strings mode next
      (start + (Token.property nameOffset value).size) segment rest
    cases rest with
    | nil =>
      rw [searchFrom_property_last]
      split_ifs
      · exact ⟨nameOffset, List.mem_cons_self⟩
      · exact hnext.of_next_property
    | cons segment' rest =>
      rw [searchFrom_property_cons]
      exact hnext.of_next_property
  | .node name items next, start, segment, rest => by
    have hnext := has_searchFrom strings mode next
      (start + (Token.beginNode name).size + items.size + Token.endNode.size) segment rest
    cases rest with
    | nil =>
      rw [searchFrom_node_last]
      split_ifs
      · exact ⟨items, List.mem_cons_self⟩
      · exact hnext.of_next_node
    | cons segment' rest =>
      rw [searchFrom_node_cons]
      split_ifs
      · exact (has_searchFrom strings mode items _ segment' rest).of_items
      · exact hnext.of_next_node

/-! ## Levels inside of levels -/

theorem levelsFrom_subset : ∀ (f : Forest) {start : Nat} {level : Level},
    level ∈ f.levelsFrom start →
      level.items.levelsFrom level.start.offset ⊆ f.levelsFrom start
  | .nop next, _, _, hl => levelsFrom_subset next hl
  | .property _ _ next, _, _, hl => levelsFrom_subset next hl
  | .node name items next, start, level, hl => by
    simp only [levelsFrom, List.mem_cons, List.mem_append] at hl ⊢
    intro level' hl'
    rcases hl with rfl | hl | hl
    · simp [hl']
    · simp [levelsFrom_subset items hl hl']
    · simp [levelsFrom_subset next hl hl']

theorem levels_subset {f : Forest} {level : Level} (hl : level ∈ f.levels) :
    level.items.levelsFrom level.start.offset ⊆ f.levels := by
  intro level' hl'
  rcases List.mem_cons.1 hl with rfl | hl
  · exact List.mem_cons_of_mem _ hl'
  · exact List.mem_cons_of_mem _ (levelsFrom_subset f hl hl')

theorem named_of_mem_levelsFrom {strings : Bytes} : ∀ (f : Forest) {start : Nat} {level : Level},
    level ∈ f.levelsFrom start → f.Named strings → level.items.Named strings
  | .nop next, start, level, hl, hn => named_of_mem_levelsFrom next hl (named_nop_iff.1 hn)
  | .property _ _ next, start, level, hl, hn =>
    named_of_mem_levelsFrom next hl (named_property_iff.1 hn).2
  | .node name items next, start, level, hl, hn => by
    obtain ⟨hni, hn⟩ := named_node_iff.1 hn
    simp only [levelsFrom, List.mem_cons, List.mem_append] at hl
    rcases hl with rfl | hl | hl
    · exact hni
    · exact named_of_mem_levelsFrom items hl hni
    · exact named_of_mem_levelsFrom next hl hn

end Forest

namespace Stream

theorem passes_of_mem_levelsFrom : ∀ (f : Forest) {s s' : Stream} {level : Forest.Level},
    level ∈ f.levelsFrom s.offset → s.Passes f.tokens s' →
      ∃ ts s₁ s₂ s₃, s.Passes ts s₁ ∧ s.offset < s₁.offset ∧ s₁.cursor = level.start ∧
        s₁.Passes level.items.tokens s₂ ∧ s₂.next = (.ok (some .endNode), s₃) ∧
          s₃.offset ≤ s'.offset
  | .nop next, s, s', level, hl, ⟨t, ht, h⟩ => by
    have ho := offset_of_next ht
    rw [Forest.levelsFrom, ← ho] at hl
    obtain ⟨ts, s₁, s₂, s₃, h₁, hlt, hr⟩ := passes_of_mem_levelsFrom next hl h
    exact ⟨_ :: ts, s₁, s₂, s₃, ⟨t, ht, h₁⟩, by omega, hr⟩
  | .property _ _ next, s, s', level, hl, ⟨t, ht, h⟩ => by
    have ho := offset_of_next ht
    rw [Forest.levelsFrom, ← ho] at hl
    obtain ⟨ts, s₁, s₂, s₃, h₁, hlt, hr⟩ := passes_of_mem_levelsFrom next hl h
    exact ⟨_ :: ts, s₁, s₂, s₃, ⟨t, ht, h₁⟩, by omega, hr⟩
  | .node name items next, s, s', level, hl, h => by
    obtain ⟨t, t₁, t₂, ht, hi, ht₁, h⟩ := passes_node_iff.1 h
    have ho := offset_of_next ht
    have ho₁ := offset_of_passes hi
    have ho₂ := offset_of_next ht₁
    have hle := (rest_of_passes h).1
    have hpos : 0 < (Token.beginNode name).size := by
      rw [Token.size]
      omega
    simp only [Forest.levelsFrom, List.mem_cons, List.mem_append] at hl
    rw [← ho, ← ho₁, ← ho₂] at hl
    rcases hl with rfl | hl | hl
    · exact ⟨[_], t, t₁, t₂, ⟨t, ht, rfl⟩, by omega, rfl, hi, ht₁, hle⟩
    · obtain ⟨ts, s₁, s₂, s₃, h₁, hlt, hc, hp, hs, hle'⟩ := passes_of_mem_levelsFrom items hl hi
      exact ⟨_ :: ts, s₁, s₂, s₃, ⟨t, ht, h₁⟩, by omega, hc, hp, hs, by omega⟩
    · obtain ⟨ts, s₁, s₂, s₃, h₁, hlt, hc, hp, hs, hle'⟩ := passes_of_mem_levelsFrom next hl h
      refine ⟨_ :: (items.tokens ++ .endNode :: ts), s₁, s₂, s₃, ⟨t, ht, ?_⟩, by omega, hc, hp, hs,
        hle'⟩
      exact (passes_append _ _).2 ⟨t₁, hi, t₂, ht₁, h₁⟩

end Stream

end Devicetree
