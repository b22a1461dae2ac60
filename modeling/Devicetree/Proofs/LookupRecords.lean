import Devicetree.Log
import Devicetree.Proofs.Rules

/-!
# What the log says of a lookup

At the debug level a lookup logs one record for each node that it enters, in the order of the
segments of its path, and at last one that says what it has found (`debugRecords_lookup`). A lookup
that fails logs no such last record. On the way it skips nodes, and the walks through these tell of
them at another level (`traced_walkFrom`), however deep they are.

A rule of lookups puts what it tells in front of what the lookup tells that goes on, so all lookups
with one outcome end alike (`Closing`). The induction on the rules keeps this end, and with it that
all in front of it is told of nodes that were entered (`Tells`).
-/

namespace Devicetree

/-- The records at one level that are logged of events. -/
def recordsAt (level : Level) (events : List Event) : List Record :=
  ((events.filterMap Event.notice?).map Notice.record).filter fun r => r.level = level

theorem recordsAt_append (level : Level) (events events' : List Event) :
    recordsAt level (events ++ events') = recordsAt level events ++ recordsAt level events' := by
  simp only [recordsAt, List.filterMap_append, List.map_append, List.filter_append]

/-- Whether all that is told is told at the level of traces. -/
def Traced (events : List Event) : Prop :=
  ∀ n, .notice n ∈ events → n.level = .trace

namespace Traced

variable {events : List Event}

theorem read (h : Traced events) (offset : Nat) : Traced (.read offset :: events) := by
  intro n hn
  rcases List.mem_cons.1 hn with hn | hn
  · cases hn
  · exact h n hn

theorem notice (h : Traced events) {n : Notice} (hl : n.level = .trace) :
    Traced (.notice n :: events) := by
  intro n' hn
  rcases List.mem_cons.1 hn with hn | hn
  · cases hn
    exact hl
  · exact h n' hn

theorem reverse (h : Traced events) : Traced events.reverse :=
  fun n hn => h n (List.mem_reverse.1 hn)

theorem recordsAt_debug (h : Traced events) : recordsAt .debug events = [] := by
  simp only [recordsAt, List.filter_eq_nil_iff, List.mem_map, List.mem_filterMap,
    decide_eq_true_eq]
  rintro _ ⟨n, ⟨_ | n', he, hn⟩, rfl⟩ hl
  · cases hn
  · cases hn
    have ht := h n he
    rw [show n.level = .debug from hl] at ht
    cases ht

end Traced

namespace Blob

theorem traced_walkFrom (b : Blob) (depth nested : Nat) (s : Stream) (seen : List Event) :
    Traced seen → Traced (b.walkFrom depth nested s seen).2 := by
  fun_induction walkFrom b depth nested s seen with
  | case1 | case3 | case6 | case7 | case8 => exact fun h => h.read _
  | case2 => exact fun h => (h.read _).notice rfl
  | case4 _ _ _ _ _ _ _ ih | case5 _ _ _ _ _ _ ih | case9 _ _ _ _ _ _ _ _ _ _ ih =>
    exact fun h => ih ((h.read _).notice rfl)
  | case10 _ _ _ _ _ _ ih => exact fun h => ih (h.read _)

theorem traced_skipFrom (b : Blob) (s : Stream) : Traced (b.skipFrom s []).2 := by
  have h := traced_walkFrom b 1 0 s [] (fun _ hn => absurd hn List.not_mem_nil)
  unfold skipFrom
  split <;> rename_i hw <;> rw [hw] at h <;> exact h

theorem traced_skip (b : Blob) (c : Cursor) : Traced (b.skip c).events := by
  rw [skip, Observed.events_map]
  exact (traced_skipFrom b (b.streamAt c)).reverse

variable {b : Blob} {mode : MatchMode} {segment : Bytes} {rest : List Bytes} {c c' : Cursor}
  {r : Except Error Found}

/-! ## The end of a lookup -/

/-- The record of a lookup with this text. -/
def lookupRecord (text : String) : Record :=
  ⟨.debug, "fdt_lookup::base::lookup", text⟩

/-- How a lookup ends that has come to `segment` with `left` after it: with the read of what it has
found and with what it tells of that, or, if it fails, without telling. -/
inductive Closing (b : Blob) (mode : MatchMode) (segment : Bytes) :
    (left : List Bytes) → Except Error Found → List Event → Prop where
  | failed {left e} : Closing b mode segment left (.error e) []
  | node {place name body} : b.Reads place (.beginNode name) body →
      mode.accepts segment name = true → Closing b mode segment [] (.ok (.node body))
        [.read place.offset, .notice (.nodeFound name body.offset)]
  | property {place nameOffset value name c'} : b.Reads place (.property nameOffset value) c' →
      b.nameAt nameOffset.toNat = .ok name → mode.accepts segment name = true →
        Closing b mode segment [] (.ok (.property ⟨value⟩))
          [.read place.offset, .notice (.propertyFound name value.length)]
  | nothing {left place} : (b.streamAt place).AtLevelEnd → Closing b mode segment left
      (.ok .nothing) [.read place.offset, .notice (.nothingFound segment)]

/-- Whether events tell of a lookup: of each node that it enters, one for each segment, and then of
its outcome. -/
def Tells (b : Blob) (mode : MatchMode) (segment : Bytes) (rest : List Bytes)
    (r : Except Error Found) (events : List Event) : Prop :=
  ∃ entered segment' left told last, segment :: rest = entered ++ segment' :: left ∧
    events = told ++ last ∧ recordsAt .debug told =
      entered.map (fun s => lookupRecord ("lookup: descending into " ++ Escaped.name s)) ∧
      b.Closing mode segment' left r last

theorem Closing.tells {last : List Event} (h : b.Closing mode segment rest r last) :
    b.Tells mode segment rest r last :=
  ⟨[], segment, rest, [], last, rfl, rfl, rfl, h⟩

theorem tells_of_error {e : Error} {events : List Event} (h : recordsAt .debug events = []) :
    b.Tells mode segment rest (.error e) events :=
  ⟨[], segment, rest, events, [], rfl, (List.append_nil _).symm, h, .failed⟩

theorem Tells.after {events : List Event} (h : b.Tells mode segment rest r events)
    {pre : List Event} (hp : recordsAt .debug pre = []) :
    b.Tells mode segment rest r (pre ++ events) := by
  obtain ⟨entered, segment', left, told, last, hs, rfl, hr, hc⟩ := h
  refine ⟨entered, segment', left, pre ++ told, last, hs, (List.append_assoc ..).symm, ?_, hc⟩
  rw [recordsAt_append, hp, hr, List.nil_append]

theorem Tells.inside {segment' : Bytes} {events : List Event}
    (h : b.Tells mode segment' rest r events) (offset : Nat) :
    b.Tells mode segment (segment' :: rest) r
      (.read offset :: .notice (.nodeEntered segment) :: events) := by
  obtain ⟨entered, last', left, told, last, hs, rfl, hr, hc⟩ := h
  refine ⟨segment :: entered, last', left, .read offset :: .notice (.nodeEntered segment) :: told,
    last, congrArg (segment :: ·) hs, rfl, ?_, hc⟩
  exact congrArg (lookupRecord ("lookup: descending into " ++ Escaped.name segment) :: ·) hr

theorem Finds.tells (h : b.Finds mode segment rest c r) :
    b.Tells mode segment rest r (b.lookupEvents mode segment rest c) := by
  induction h with
  | unreadable h =>
    rw [lookupEvents_of_seen (lookupFrom_error h)]
    exact tells_of_error rfl
  | @levelEnd segment rest c h =>
    rcases hs : (b.streamAt c).next with ⟨r, s⟩
    have he := h
    rcases he with he | he <;> rw [hs] at he <;> obtain rfl := he
    · rw [lookupEvents_of_seen (lookupFrom_endNode hs)]
      exact (Closing.nothing h).tells
    · rw [lookupEvents_of_seen (lookupFrom_endOfTree hs)]
      exact (Closing.nothing h).tells
  | nop h _ ih =>
    rw [lookupEvents_of_lookupFrom (lookupFrom_nop h)]
    exact ih.after rfl
  | node h ha =>
    rw [lookupEvents_of_seen (lookupFrom_beginNode_last h ha)]
    exact (Closing.node h ha).tells
  | enter h _ ih =>
    rw [lookupEvents_of_lookupFrom (lookupFrom_beginNode_cons h rfl)]
    exact ih.inside _
  | @skip segment rest c name body c' r h ha hk _ ih =>
    obtain ⟨told, ht, hs⟩ := skipFrom_told b body
    have hs := hs [.read c.offset]
    rw [hk] at hs
    rw [lookupEvents_of_lookupFrom (lookupFrom_beginNode_skip h ha hs), List.reverse_append, ht]
    exact ih.after ((traced_skip b body).read c.offset).recordsAt_debug
  | @unclosed segment rest c name body e h ha hk =>
    obtain ⟨told, ht, hs⟩ := skipFrom_told b body
    have hs := hs [.read c.offset]
    rw [hk] at hs
    rw [lookupEvents_of_seen (lookupFrom_beginNode_error h ha hs), List.reverse_append, ht]
    exact tells_of_error ((traced_skip b body).read c.offset).recordsAt_debug
  | disregard h _ ih =>
    rw [lookupEvents_of_lookupFrom (lookupFrom_property_cons h)]
    exact ih.after rfl
  | unnamed h hn =>
    rw [lookupEvents_of_seen (lookupFrom_property_error h hn)]
    exact tells_of_error rfl
  | @property segment c nameOffset value c' name h hn ha =>
    have hl : b.lookupFrom mode segment [] (b.streamAt c) [] = _ := lookupFrom_property_last h hn
    rw [if_pos ha] at hl
    rw [lookupEvents_of_seen hl]
    exact (Closing.property h hn ha).tells
  | @mismatch segment c nameOffset value c' name r h hn ha _ ih =>
    have hl : b.lookupFrom mode segment [] (b.streamAt c) [] = _ := lookupFrom_property_last h hn
    rw [if_neg (by simp [ha])] at hl
    rw [lookupEvents_of_lookupFrom hl]
    exact ih.after rfl

theorem tells_lookup (b : Blob) (c : Cursor) (path : Path) (mode : MatchMode) :
    b.Tells mode path.first path.rest (b.lookup c path mode).outcome
      (b.lookup c path mode).events :=
  (outcome_lookup_eq_iff.1 rfl).tells

/-- Whether texts are what a lookup closes with that has come to `segment` with `left` after it:
none if it has failed, and otherwise one. What was found is what was read last. -/
structure ClosesWith (b : Blob) (mode : MatchMode) (x : Observed Found) (segment : Bytes)
    (left : List Bytes) (texts : List String) : Prop where
  failed : ∀ e, x.outcome = .error e → texts = []
  node : ∀ body, x.outcome = .ok (.node body) → left = [] ∧ ∃ place name,
    x.offsets.getLast? = some place.offset ∧ b.Reads place (.beginNode name) body ∧
      mode.accepts segment name = true ∧ texts =
        ["lookup: node " ++ Escaped.name name ++ " at " ++ Hex.numeral body.offset]
  property : ∀ value, x.outcome = .ok (.property value) → left = [] ∧ ∃ place nameOffset c' name,
    x.offsets.getLast? = some place.offset ∧
      b.Reads place (.property nameOffset value.bytes) c' ∧
      b.nameAt nameOffset.toNat = .ok name ∧ mode.accepts segment name = true ∧ texts =
        ["lookup: property " ++ Escaped.name name ++ " (" ++ toString value.size ++ " bytes)"]
  nothing : x.outcome = .ok .nothing → (∃ place, x.offsets.getLast? = some place.offset ∧
    (b.streamAt place).AtLevelEnd) ∧ texts = ["lookup: no match for " ++ Escaped.name segment]

theorem Closing.exists_texts {x : Observed Found} {left : List Bytes} {told last : List Event}
    (h : b.Closing mode segment left x.outcome last) (hx : x.events = told ++ last) :
    ∃ texts, b.ClosesWith mode x segment left texts ∧
      recordsAt .debug last = texts.map lookupRecord := by
  have hlast {place : Cursor} {n : Notice} (hl : last = [.read place.offset, .notice n]) :
      x.offsets.getLast? = some place.offset := by
    rw [Observed.offsets, hx, hl, List.filterMap_append]
    exact List.getLast?_concat
  generalize ho : x.outcome = r at h
  cases h with
  | failed => exact ⟨[], ⟨by simp, by simp [ho], by simp [ho], by simp [ho]⟩, rfl⟩
  | @node place name body hr ha =>
    refine ⟨[_], ⟨by simp [ho], ?_, by simp [ho], by simp [ho]⟩, rfl⟩
    intro found hf
    obtain rfl : body = found := by simpa [ho] using hf
    exact ⟨rfl, place, name, hlast rfl, hr, ha, rfl⟩
  | @property place nameOffset value name c' hr hn ha =>
    refine ⟨[_], ⟨by simp [ho], by simp [ho], ?_, by simp [ho]⟩, rfl⟩
    intro found hf
    obtain rfl : ⟨value⟩ = found := by simpa [ho] using hf
    exact ⟨rfl, place, nameOffset, c', name, hlast rfl, hr, hn, ha, rfl⟩
  | @nothing _ place he =>
    exact ⟨[_], ⟨by simp [ho], by simp [ho], by simp [ho], fun _ => ⟨⟨place, hlast rfl, he⟩, rfl⟩⟩,
      rfl⟩

/-- The debug records of a lookup are one for each node that it enters, by the first segments of the
path, and behind them the one that says what it has found and where. If it fails there is no record
behind them. -/
theorem debugRecords_lookup (b : Blob) (c : Cursor) (path : Path) (mode : MatchMode) :
    ∃ entered segment left texts, path.first :: path.rest = entered ++ segment :: left ∧
      recordsAt .debug (b.lookup c path mode).events =
        (entered.map (fun s => "lookup: descending into " ++ Escaped.name s) ++ texts).map
          (Record.mk .debug "fdt_lookup::base::lookup") ∧
      b.ClosesWith mode (b.lookup c path mode) segment left texts := by
  obtain ⟨entered, segment, left, told, last, hs, hx, hr, hc⟩ := tells_lookup b c path mode
  obtain ⟨texts, ht, hl⟩ := hc.exists_texts hx
  refine ⟨entered, segment, left, texts, hs, ?_, ht⟩
  rw [hx, recordsAt_append, hr, hl, List.map_append, List.map_map]
  rfl

end Blob

end Devicetree
