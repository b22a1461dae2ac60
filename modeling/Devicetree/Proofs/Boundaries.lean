import Devicetree.Proofs.Reads

/-!
# Cursors stand where tokens start

A caller starts from the root and may go on from any cursor that a walk, a skip or a lookup has
handed out before. However such a session goes, and whatever the block is, each of its cursors is a
place that reading the block token by token from the start comes to (`session_atBoundary`). One call
keeps this (`standsBehind_of_answer?`): it goes on reading where its own cursor stands and
stops behind a token that it has read, the one that closes a level or the one that opens the node.
-/

namespace Devicetree

namespace Stream

theorem four_dvd_of_passes : ∀ (ts : List Token) {s s' : Stream}, s.Passes ts s' →
    4 ∣ s.offset → 4 ∣ s'.offset
  | [], s, s', h, hs => by
    obtain rfl : s' = s := h
    exact hs
  | t :: ts, s, s', ⟨s₁, h₁, h⟩, hs => by
    refine four_dvd_of_passes ts h ?_
    rw [offset_of_next h₁]
    exact Nat.dvd_add hs t.four_dvd_size

end Stream

/-- A call that can hand out a cursor. -/
inductive Call where
  | walk (depth : Nat)
  | skip
  | lookup (path : Path) (mode : MatchMode)
  deriving DecidableEq, Repr

/-- A cursor with the call that handed it out. -/
structure Handed where
  call : Call
  cursor : Cursor
  deriving DecidableEq, Repr

/-- A call in a session: from the root, which has number 0, or from a cursor handed out before. -/
structure Request where
  source : Nat
  call : Call
  deriving DecidableEq, Repr

namespace Call

/-- The cursor that a call from `c` hands out, if it does. -/
def answer? (b : Blob) (c : Cursor) : Call → Option Cursor
  | walk depth => (b.walk c depth).outcome.toOption.join
  | skip => (b.skip c).outcome.toOption
  | lookup path mode => (b.lookup c path mode).outcome.toOption.bind Found.body?

/-- Whether a call of this kind hands out cursors that stand directly behind this token. -/
def StopsAt : Call → Token → Prop
  | walk _, t => t = .endNode
  | skip, t => t = .endNode
  | lookup _ _, t => ∃ name, t = .beginNode name

end Call

namespace Blob

/-- The cursors that a session holds, after one more request. -/
def serve (b : Blob) (held : List Handed) (r : Request) : List Handed :=
  match ((Cursor.root :: held.map Handed.cursor)[r.source]?).bind (r.call.answer? b) with
  | some c => held ++ [⟨r.call, c⟩]
  | none => held

/-- The cursors that a session hands out, in order. -/
def session (b : Blob) (rs : List Request) : List Handed :=
  rs.foldl b.serve []

/-- Whether reading tokens from the start of the block comes to a cursor. -/
def Reaches (b : Blob) (c : Cursor) : Prop :=
  ∃ ts, (b.streamAt .root).Passes ts (b.streamAt c)

/-- Whether reading tokens from the start of the block comes to a cursor, with `t` the last. -/
def StandsBehind (b : Blob) (c : Cursor) (t : Token) : Prop :=
  ∃ ts, (b.streamAt .root).Passes (ts ++ [t]) (b.streamAt c)

section

variable {b : Blob} {c c' : Cursor} {t : Token}

theorem StandsBehind.reaches (h : b.StandsBehind c t) : b.Reaches c := by
  obtain ⟨ts, h⟩ := h
  exact ⟨ts ++ [t], h⟩

/-- A call that goes on reading from a reached cursor stops behind its last token. -/
theorem Reaches.standsBehind {reads : List Nat} {place : Cursor} (h : b.Reaches c)
    (hr : b.ReadsUpTo c reads place) (ht : b.Reads place t c') : b.StandsBehind c' t := by
  obtain ⟨ts', h⟩ := h
  obtain ⟨ts, hp, -⟩ := hr.exists_places ht
  refine ⟨ts' ++ ts, ?_⟩
  rw [List.append_assoc]
  exact (Stream.passes_append _ _).2 ⟨_, h, hp⟩

theorem Reaches.four_dvd (h : b.Reaches c) : 4 ∣ c.offset := by
  obtain ⟨ts, h⟩ := h
  exact Stream.four_dvd_of_passes ts h (Nat.dvd_zero 4)

theorem Reaches.offset_le (h : b.Reaches c) : c.offset ≤ b.structureBlock.length := by
  obtain ⟨ts, h⟩ := h
  exact (Stream.passes_ofBlock_root_iff.1 h).1

/-! ## One call -/

theorem standsBehind_of_answer? {call : Call} (hc : b.Reaches c)
    (h : call.answer? b c = some c') : ∃ t, call.StopsAt t ∧ b.StandsBehind c' t := by
  rcases call with depth | _ | ⟨path, mode⟩
  · rcases hw : (b.walk c depth).outcome with e | o <;> simp only [Call.answer?, hw] at h
    · cases h
    · obtain rfl : o = some c' := h
      obtain ⟨place, hr, hs⟩ := readsUpTo_walk b c depth
      exact ⟨.endNode, rfl, hc.standsBehind hr (hs _ hw)⟩
  · rcases hk : (b.skip c).outcome with e | c₁ <;> simp only [Call.answer?, hk] at h
    · cases h
    · obtain rfl : c₁ = c' := Option.some.inj h
      obtain ⟨place, hr, hs⟩ := readsUpTo_skip b c
      exact ⟨.endNode, rfl, hc.standsBehind hr (hs _ hk)⟩
  · rcases hl : (b.lookup c path mode).outcome with e | found <;>
      simp only [Call.answer?, hl] at h
    · cases h
    · rcases found with v | body | _ <;> cases h
      obtain ⟨place, hr, hs⟩ := readsUpTo_lookup b c path mode
      obtain ⟨name, ht⟩ := hs _ hl
      exact ⟨.beginNode name, ⟨name, rfl⟩, hc.standsBehind hr ht⟩

/-! ## Sessions -/

/-- Whether a cursor stands behind the token at which the call that handed it out stops. -/
def AtBoundary (b : Blob) (h : Handed) : Prop :=
  ∃ t, h.call.StopsAt t ∧ b.StandsBehind h.cursor t

theorem serve_atBoundary {held : List Handed} (hb : ∀ h ∈ held, b.AtBoundary h) (r : Request) :
    ∀ h ∈ b.serve held r, b.AtBoundary h := by
  unfold serve
  split
  · rename_i c hc
    obtain ⟨source, hs, ha⟩ := Option.bind_eq_some_iff.1 hc
    have hreach : b.Reaches source := by
      rcases List.mem_cons.1 (List.mem_of_getElem? hs) with rfl | hm
      · exact ⟨[], rfl⟩
      · obtain ⟨h, hh, rfl⟩ := List.mem_map.1 hm
        obtain ⟨t, -, ht⟩ := hb h hh
        exact ht.reaches
    intro h hh
    rcases List.mem_append.1 hh with hh | hh
    · exact hb h hh
    · obtain rfl := List.mem_singleton.1 hh
      exact standsBehind_of_answer? hreach ha
  · exact hb

theorem foldl_serve_atBoundary : ∀ (rs : List Request) {held : List Handed},
    (∀ h ∈ held, b.AtBoundary h) → ∀ h ∈ rs.foldl b.serve held, b.AtBoundary h
  | [], _, hb => hb
  | r :: rs, _, hb => foldl_serve_atBoundary rs (serve_atBoundary hb r)

end

/-- In every session on a block each cursor that is handed out stands where reading the block token
by token from its start comes to, behind a token that closes a level or, from a lookup, behind one
that opens a node. So it is a multiple of four and lies in the block. -/
theorem session_atBoundary (b : Blob) (rs : List Request) : ∀ h ∈ b.session rs,
    (∃ ts t, (b.streamAt .root).Passes (ts ++ [t]) (b.streamAt h.cursor) ∧ h.call.StopsAt t) ∧
      4 ∣ h.cursor.offset ∧ h.cursor.offset ≤ b.structureBlock.length := by
  intro h hh
  have hstart : ∀ h ∈ ([] : List Handed), b.AtBoundary h := by simp
  obtain ⟨t, ht, hs⟩ := foldl_serve_atBoundary rs hstart h hh
  have hr := hs.reaches
  obtain ⟨ts, hp⟩ := hs
  exact ⟨⟨ts, t, hp, ht⟩, hr.four_dvd, hr.offset_le⟩

end Blob

/-- A lookup from the root and a skip from the node that it finds: the cursor that the skip hands
out stands at the end of a block that no tag ends. -/
theorem Blob.session_cutBoard :
    Layout.cutBoard.session [⟨0, .lookup (.ofBytes [0x2f, 0x61]) .exact⟩, ⟨1, .skip⟩] =
        [⟨.lookup (.ofBytes [0x2f, 0x61]) .exact, ⟨36⟩⟩, ⟨.skip, ⟨64⟩⟩] ∧
      (∃ ts t, (Layout.cutBoard.streamAt .root).Passes (ts ++ [t]) (Layout.cutBoard.streamAt ⟨64⟩) ∧
        Call.StopsAt .skip t) ∧ 64 ≤ Layout.cutBoard.structureBlock.length := by
  have hs : Layout.cutBoard.session [⟨0, .lookup (.ofBytes [0x2f, 0x61]) .exact⟩, ⟨1, .skip⟩] =
      [⟨.lookup (.ofBytes [0x2f, 0x61]) .exact, ⟨36⟩⟩, ⟨.skip, ⟨64⟩⟩] := by
    simp [session, serve, Call.answer?, Layout.lookup_cutBoard, Layout.skip_cutBoard,
      Except.toOption, Found.body?]
  have hm := session_atBoundary Layout.cutBoard
    [⟨0, .lookup (.ofBytes [0x2f, 0x61]) .exact⟩, ⟨1, .skip⟩] ⟨.skip, ⟨64⟩⟩ (by simp [hs])
  exact ⟨hs, hm.1, hm.2.2⟩

end Devicetree
