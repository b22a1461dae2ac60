import Devicetree.Boot
import Devicetree.Proofs.Search
import Devicetree.Proofs.Utf8

/-!
# When a machine can be booted

Every question that `Config.discover` asks the blob is answered by the tree that the blob holds: the
root node is the first node without a name at the top, and a name means the first entry that has it,
property or node (`Holds.outcome_lookup_root`, `Holds.outcome_lookup_level`). Each check then comes
down to what the values are, and all of them to `Forest.Level.Describes`: what a tree has to say for
there to be a configuration (`outcome_discover_eq_ok_iff`).
-/

namespace Devicetree

namespace Entry

/-- The value of a property. -/
def value? : Entry → Option Bytes
  | property _ value => some value
  | node .. => none

/-- The inside of a node. -/
def level? : Entry → Option Forest.Level
  | property .. => none
  | node _ body items => some ⟨⟨body⟩, items⟩

theorem value?_found (o : Option Entry) : ((o.map found).getD .nothing).value? =
    (o.bind value?).map Value.mk := by
  rcases o with _ | ⟨_, _⟩ | ⟨_, _, _⟩ <;> rfl

theorem body?_found (o : Option Entry) : ((o.map found).getD .nothing).body? =
    (o.bind level?).map Forest.Level.start := by
  rcases o with _ | ⟨_, _⟩ | ⟨_, _, _⟩ <;> rfl

end Entry

namespace Forest

/-! ## Entries by name -/

/-- The inside of the root node, which is the first node at the top with an empty name. -/
def root? (strings : Bytes) (f : Forest) : Option Level :=
  (f.firstNode? strings 0 []).bind Entry.level?

namespace Level

variable (strings : Bytes) (level : Level)

/-- The first entry of a name, be it a property or a node. -/
def first? (name : String) : Option Entry :=
  level.items.first? strings level.start.offset (Bytes.ofText name)

/-- The first entry whose name starts so. -/
def firstStarting? (start : String) : Option Entry :=
  (level.items.entries strings level.start.offset).find? fun e =>
    (Bytes.ofText start).isPrefixOf e.name

/-- The value of the first entry of a name, if that is a property. -/
def value? (name : String) : Option Bytes :=
  (level.first? strings name).bind Entry.value?

/-- The inside of the first entry of a name, if that is a node. -/
def inside? (name : String) : Option Level :=
  (level.first? strings name).bind Entry.level?

/-- The inside of the first entry whose name starts so, if that is a node. -/
def insideStarting? (start : String) : Option Level :=
  (level.firstStarting? strings start).bind Entry.level?

end Level

theorem mem_levelsFrom_of_mem_entries {strings : Bytes} {e : Entry} {level : Level} :
    ∀ (f : Forest) {start : Nat}, e ∈ f.entries strings start → e.level? = some level →
      level ∈ f.levelsFrom start
  | .nil, _, he, _ => by simp [entries] at he
  | .nop next, _, he, hl => mem_levelsFrom_of_mem_entries next he hl
  | .property _ _ next, _, he, hl => by
    rcases List.mem_cons.1 he with rfl | he
    · cases hl
    · exact mem_levelsFrom_of_mem_entries next he hl
  | .node name items next, start, he, hl => by
    rw [levelsFrom, List.mem_cons, List.mem_append]
    rcases List.mem_cons.1 he with rfl | he
    · exact .inl (Option.some.inj hl).symm
    · exact .inr (.inr (mem_levelsFrom_of_mem_entries next he hl))

/-- The inside of a node that is picked from a level of the tree is a level of the tree. -/
theorem mem_levels_of_find? {strings : Bytes} {f : Forest} {level level' : Level}
    (hl : level ∈ f.levels) {p : Entry → Bool}
    (h : ((level.items.entries strings level.start.offset).find? p).bind Entry.level? =
      some level') : level' ∈ f.levels := by
  obtain ⟨e, he, hl'⟩ := Option.bind_eq_some_iff.1 h
  exact levels_subset hl
    (mem_levelsFrom_of_mem_entries level.items (List.mem_of_find?_eq_some he) hl')

theorem mem_levels_of_root? {strings : Bytes} {f : Forest} {root : Level}
    (h : f.root? strings = some root) : root ∈ f.levels := by
  have htop : (⟨.root, f⟩ : Level) ∈ f.levels := List.mem_cons_self
  exact mem_levels_of_find? htop h

/-! ## What is found under a name -/

namespace Level

/-- What is found when a name is looked up in a level. -/
def found (strings : Bytes) (level : Level) (mode : MatchMode) (name : String) : Found :=
  level.items.searchFrom strings mode level.start.offset (Bytes.ofText name) []

variable (strings : Bytes) (level : Level) (name : String)

theorem found_eq (mode : MatchMode) : level.found strings mode name =
    (((level.items.entries strings level.start.offset).find? fun e =>
      mode.Matches (Bytes.ofText name) e.name).map Entry.found).getD .nothing := by
  rw [found, searchFrom]
  split <;> rename_i h <;> rw [h] <;> rfl

theorem found_exact : level.found strings .exact name =
    ((level.first? strings name).map Entry.found).getD .nothing := by
  have hp : (fun e : Entry => decide (MatchMode.exact.Matches (Bytes.ofText name) e.name)) =
      fun e => e.name == Bytes.ofText name :=
    funext fun e => (Bool.beq_eq_decide_eq _ _).symm
  rw [found_eq, hp, first?, Forest.first?]

theorem found_initial : level.found strings .initial name =
    ((level.firstStarting? strings name).map Entry.found).getD .nothing := by
  have hp : (fun e : Entry => decide (MatchMode.initial.Matches (Bytes.ofText name) e.name)) =
      fun e => (Bytes.ofText name).isPrefixOf e.name := by
    funext e
    rw [Bool.eq_iff_iff, decide_eq_true_iff, List.isPrefixOf_iff_prefix, MatchMode.Matches]
  rw [found_eq, hp, firstStarting?]

theorem value?_found : (level.found strings .exact name).value? =
    (level.value? strings name).map Value.mk := by
  rw [found_exact, Entry.value?_found, value?]

theorem body?_found : (level.found strings .exact name).body? =
    (level.inside? strings name).map start := by
  rw [found_exact, Entry.body?_found, inside?]

theorem body?_found_initial : (level.found strings .initial name).body? =
    (level.insideStarting? strings name).map start := by
  rw [found_initial, Entry.body?_found, insideStarting?]

end Level

section

variable {strings : Bytes} {f : Forest} (mode : MatchMode)

theorem searchFrom_of_root? {root : Level} (hr : f.root? strings = some root) {name : String} :
    f.searchFrom strings mode 0 [] [Bytes.ofText name] = root.found strings mode name := by
  unfold root? at hr
  rcases he : f.firstNode? strings 0 [] with _ | ⟨_, _⟩ | ⟨_, body, items⟩
  all_goals rw [he] at hr
  · cases hr
  · cases hr
  · obtain rfl := Option.some.inj hr
    rw [searchFrom, he]
    rfl

theorem searchFrom_of_no_root (hr : f.root? strings = none) (segment : Bytes)
    (rest : List Bytes) : f.searchFrom strings mode 0 [] (segment :: rest) = .nothing := by
  unfold root? at hr
  rcases he : f.firstNode? strings 0 [] with _ | ⟨_, _⟩ | ⟨_, body, items⟩
  all_goals rw [he] at hr
  · rw [searchFrom, he]
  · rw [searchFrom, he]
  · cases hr

end

/-! ## What a tree has to say -/

/-- Whether a node counts the cells of addresses and sizes by this number, where it says how many
there are, and does not translate addresses. -/
structure Level.Keeps (strings : Bytes) (cells : UInt32) (level : Level) : Prop where
  addressCells : ∀ value, level.value? strings "#address-cells" = some value →
    value = BigEndian.encodeWord cells
  sizeCells : ∀ value, level.value? strings "#size-cells" = some value →
    value = BigEndian.encodeWord cells
  ranges : ∀ value, level.value? strings "ranges" = some value → value = []

/-- Whether a root node counts the cells of addresses and sizes by two, its reserved memory does so
too, and `memory` is the inside of its memory node. -/
structure Level.HasMemory (strings : Bytes) (root memory : Level) : Prop where
  addressCells : root.value? strings "#address-cells" = some (BigEndian.encodeWord 2)
  sizeCells : root.value? strings "#size-cells" = some (BigEndian.encodeWord 2)
  reserved : ∀ r, root.inside? strings "reserved-memory" = some r → r.Keeps strings 2
  memoryNode : root.insideStarting? strings "memory@" = some memory

/-- Whether a root node describes a machine whose memory is what the value `reg` of its memory node
lists: pairs of an address and a size of two cells each. -/
structure Level.Describes (strings : Bytes) (root memory : Level) (reg : Bytes) : Prop
    extends Level.HasMemory strings root memory where
  deviceType : ∃ rest,
    memory.value? strings "device_type" = some (Bytes.ofText "memory" ++ 0 :: rest)
  regions : memory.value? strings "reg" = some reg
  nonempty : reg ≠ []
  pairs : 16 ∣ reg.length

end Forest

/-! ## Lookups of one name -/

namespace Blob

variable {b : Blob} {f : Forest} (h : b.Holds f)
include h

theorem Holds.outcome_lookup_level {level : Forest.Level} (hl : level ∈ f.levels) (name : String)
    (hp : Path.ofText name = ⟨Bytes.ofText name, []⟩) (mode : MatchMode) :
    (b.lookup level.start (.ofText name) mode).outcome =
      .ok (level.found b.stringsBlock mode name) := by
  rw [h.outcome_lookup hl, hp]
  rfl

theorem Holds.outcome_lookup_root {root : Forest.Level} (hr : f.root? b.stringsBlock = some root)
    (path name : String) (hp : Path.ofText path = ⟨[], [Bytes.ofText name]⟩) (mode : MatchMode) :
    (b.lookup .root (.ofText path) mode).outcome = .ok (root.found b.stringsBlock mode name) := by
  have htop : (⟨.root, f⟩ : Forest.Level) ∈ f.levels := List.mem_cons_self
  have hlookup := h.outcome_lookup htop (.ofText path) mode
  rw [hp] at hlookup ⊢
  exact hlookup.trans (congrArg Except.ok (Forest.searchFrom_of_root? mode hr))

theorem Holds.outcome_lookup_no_root (hr : f.root? b.stringsBlock = none) (path name : String)
    (hp : Path.ofText path = ⟨[], [Bytes.ofText name]⟩) (mode : MatchMode) :
    (b.lookup .root (.ofText path) mode).outcome = .ok .nothing := by
  have htop : (⟨.root, f⟩ : Forest.Level) ∈ f.levels := List.mem_cons_self
  have hlookup := h.outcome_lookup htop (.ofText path) mode
  rw [hp] at hlookup ⊢
  exact hlookup.trans (congrArg Except.ok (Forest.searchFrom_of_no_root mode hr _ _))

theorem Holds.value?_of_lookup {level : Forest.Level} (hl : level ∈ f.levels) (name : String)
    (hp : Path.ofText name = ⟨Bytes.ofText name, []⟩) {found : Found} {v : Value}
    (hlookup : (b.lookup level.start (.ofText name) .exact).outcome = .ok found)
    (hv : found.value? = some v) : level.value? b.stringsBlock name = some v.bytes := by
  rw [h.outcome_lookup_level hl name hp, Except.ok.injEq] at hlookup
  rw [← hlookup, Forest.Level.value?_found, Option.map_eq_some_iff] at hv
  obtain ⟨value, hvalue, rfl⟩ := hv
  exact hvalue

theorem Holds.insideStarting?_of_lookup {root : Forest.Level}
    (hr : f.root? b.stringsBlock = some root) (path name : String)
    (hp : Path.ofText path = ⟨[], [Bytes.ofText name]⟩) {found : Found} {c : Cursor}
    (hlookup : (b.lookup .root (.ofText path) .initial).outcome = .ok found)
    (hc : found.body? = some c) :
    ∃ level, root.insideStarting? b.stringsBlock name = some level ∧ c = level.start := by
  rw [h.outcome_lookup_root hr path name hp, Except.ok.injEq] at hlookup
  rw [← hlookup, Forest.Level.body?_found_initial, Option.map_eq_some_iff] at hc
  obtain ⟨level, hlevel, rfl⟩ := hc
  exact ⟨level, hlevel, rfl⟩

end Blob

/-! ## Values -/

namespace Value

theorem text_eq_ok_iff {v : Value} {s : String} :
    v.text = .ok s ↔ 0 ∉ Bytes.ofText s ∧ ∃ rest, v.bytes = Bytes.ofText s ++ 0 :: rest := by
  have hdecode : ∀ string : Bytes, string.text = .ok s ↔ string = Bytes.ofText s := by
    intro string
    rw [← Utf8.decode_eq_ok_iff, Bytes.text]
    rcases Utf8.decode string with fault | s' <;> simp [Except.mapError]
  simp only [text, bind_eq_ok_iff, hdecode, Bytes.stringAt, valueOr_eq_ok_iff, Bytes.stringAt?,
    List.drop_zero, Bytes.beforeNul?_eq_some_iff, exists_eq_right]

end Value

namespace Config

theorem singleCell_eq (v : Value) : singleCell v =
    if v.bytes.length = 4 then .ok (BigEndian.word v.bytes)
    else .error (.unsupported .cellCountNotSingle) := by
  unfold singleCell require Value.wordAt Bytes.wordAt Value.size Value.cellSize
  by_cases hv : v.bytes.length = 4
  · have hregion : v.bytes.region? 0 4 = some v.bytes :=
      Bytes.region?_eq_some_iff.2 ⟨by omega, by rw [List.drop_zero, ← hv, List.take_length]⟩
    rw [if_pos hv, if_pos hv, hregion]
    rfl
  · rw [if_neg hv, if_neg hv]
    rfl

theorem singleCell_eq_ok_iff {v : Value} {n : UInt32} :
    singleCell v = .ok n ↔ v.bytes = BigEndian.encodeWord n := by
  rw [singleCell_eq]
  split_ifs with hv
  · rw [Except.ok.injEq]
    constructor
    · rintro rfl
      exact (BigEndian.encodeWord_word hv).symm
    · intro he
      rw [he, BigEndian.word_encodeWord]
  · constructor
    · intro hn
      cases hn
    · intro he
      exact absurd (he ▸ BigEndian.length_encodeWord n) hv

/-! ## The checks -/

section

variable {b : Blob} {f : Forest} (h : b.Holds f)
include h

theorem outcome_rootCells_eq_ok_iff (path name : String)
    (hp : Path.ofText path = ⟨[], [Bytes.ofText name]⟩) {n : UInt32} :
    (rootCells b (.ofText path)).outcome = .ok n ↔
      ∃ root, f.root? b.stringsBlock = some root ∧
        root.value? b.stringsBlock name = some (BigEndian.encodeWord n) := by
  simp only [rootCells, Observed.outcome_bind, Observed.outcome_liftM, bind_eq_ok_iff,
    valueOr_eq_ok_iff, singleCell_eq_ok_iff]
  rcases hr : f.root? b.stringsBlock with _ | root
  · simp [h.outcome_lookup_no_root hr path name hp, Found.value?]
  · simp only [h.outcome_lookup_root hr path name hp, Except.ok.injEq, exists_eq_left',
      Forest.Level.value?_found, Option.map_eq_some_iff, Option.some.injEq]
    constructor
    · rintro ⟨_, ⟨value, hv, rfl⟩, rfl⟩
      exact hv
    · intro hv
      exact ⟨_, ⟨_, hv, rfl⟩, rfl⟩

theorem outcome_checkCells_eq_ok_iff {level : Forest.Level} (hl : level ∈ f.levels) (name : String)
    (hp : Path.ofText name = ⟨Bytes.ofText name, []⟩) (cells : UInt32) :
    (checkCells b level.start (.ofText name) cells).outcome = .ok () ↔
      ∀ value, level.value? b.stringsBlock name = some value →
        value = BigEndian.encodeWord cells := by
  simp only [checkCells, Observed.outcome_bind, h.outcome_lookup_level hl name hp, bind_eq_ok_iff,
    Except.ok.injEq, exists_eq_left', Forest.Level.value?_found]
  rcases level.value? b.stringsBlock name with _ | value
  · simp
  · simp [bind_eq_ok_iff, singleCell_eq_ok_iff]

theorem outcome_checkRanges_eq_ok_iff {level : Forest.Level} (hl : level ∈ f.levels) :
    (checkRanges b level.start).outcome = .ok () ↔
      ∀ value, level.value? b.stringsBlock "ranges" = some value → value = [] := by
  simp only [checkRanges, Observed.outcome_bind, h.outcome_lookup_level hl "ranges" rfl,
    bind_eq_ok_iff, Except.ok.injEq, exists_eq_left', Forest.Level.value?_found]
  rcases level.value? b.stringsBlock "ranges" with _ | value
  · simp
  · simp [Value.isEmpty]

theorem outcome_checkReserved_eq_ok_iff {root : Forest.Level}
    (hr : f.root? b.stringsBlock = some root) (cells : UInt32) :
    (checkReserved b cells).outcome = .ok () ↔
      ∀ r, root.inside? b.stringsBlock "reserved-memory" = some r →
        r.Keeps b.stringsBlock cells := by
  simp only [checkReserved, Observed.outcome_bind,
    h.outcome_lookup_root hr "/reserved-memory" "reserved-memory" rfl, bind_eq_ok_iff,
    Except.ok.injEq, exists_eq_left', Forest.Level.body?_found]
  rcases hi : root.inside? b.stringsBlock "reserved-memory" with _ | r
  · simp
  · have hl := Forest.mem_levels_of_find? (Forest.mem_levels_of_root? hr) hi
    simp only [Option.map_some, Observed.outcome_bind, bind_eq_ok_iff, Option.some.injEq,
      forall_eq', outcome_checkCells_eq_ok_iff h hl "#address-cells" rfl,
      outcome_checkCells_eq_ok_iff h hl "#size-cells" rfl, outcome_checkRanges_eq_ok_iff h hl]
    constructor
    · rintro ⟨-, ha, -, hs, hr⟩
      exact ⟨ha, hs, hr⟩
    · intro hk
      exact ⟨(), hk.addressCells, (), hk.sizeCells, hk.ranges⟩

/-- With a memory node that says of what type it is, one step after the other succeeds up to the
first that depends on what the type is: left to check are this type and the regions. -/
theorem outcome_discover_of_hasMemory {root memory : Forest.Level} {value : Bytes}
    (hr : f.root? b.stringsBlock = some root) (hm : root.HasMemory b.stringsBlock memory)
    (hvalue : memory.value? b.stringsBlock "device_type" = some value) :
    (discover b).outcome = (⟨value⟩ : Value).text >>= fun name =>
      require (name = "memory") (.unsupported .deviceType) >>= fun _ =>
      valueOr (.unsupported .noReg) ((memory.value? b.stringsBlock "reg").map Value.mk) >>=
        fun reg => require (¬ reg.isEmpty ∧ reg.size % 16 = 0) (.unsupported .regNotPairs) >>=
          fun _ => .ok { addressCells := 2, sizeCells := 2, bootCpu := b.header.bootCpu,
                         memoryNode := memory.start, reg } := by
  have hl := Forest.mem_levels_of_find? (Forest.mem_levels_of_root? hr) hm.memoryNode
  have haddress := (outcome_rootCells_eq_ok_iff h "/#address-cells" "#address-cells" rfl).2
    ⟨root, hr, hm.addressCells⟩
  have hsize := (outcome_rootCells_eq_ok_iff h "/#size-cells" "#size-cells" rfl).2
    ⟨root, hr, hm.sizeCells⟩
  have hwidth : (2 : UInt32) = supportedCells := rfl
  have hbody : (root.found b.stringsBlock .initial "memory@").body? = some memory.start := by
    rw [Forest.Level.body?_found_initial, hm.memoryNode]
    rfl
  have hdeviceType : (memory.found b.stringsBlock .exact "device_type").value? = some ⟨value⟩ := by
    rw [Forest.Level.value?_found, hvalue]
    rfl
  simp only [discover, Observed.outcome_bind, Observed.outcome_liftM, Observed.outcome_tell]
  rw [haddress, ok_bind, hsize, ok_bind, ok_bind, (require_eq_ok_iff (u := ())).2 hwidth, ok_bind,
    (require_eq_ok_iff (u := ())).2 rfl, ok_bind,
    (outcome_checkReserved_eq_ok_iff h hr 2).2 hm.reserved, ok_bind,
    h.outcome_lookup_root hr "/memory@" "memory@" rfl, ok_bind, hbody, valueOr_some, ok_bind,
    h.outcome_lookup_level hl "device_type" rfl, ok_bind, hdeviceType, valueOr_some, ok_bind,
    h.outcome_lookup_level hl "reg" rfl]
  simp only [ok_bind, Forest.Level.value?_found]
  rfl

/-- When there is a configuration, and which. -/
theorem outcome_discover_eq_ok_iff {c : Config} : (discover b).outcome = .ok c ↔
    ∃ root memory reg, f.root? b.stringsBlock = some root ∧
      root.Describes b.stringsBlock memory reg ∧
      c = { addressCells := 2, sizeCells := 2, bootCpu := b.header.bootCpu,
            memoryNode := memory.start, reg := ⟨reg⟩ } := by
  constructor
  · simp only [discover, Observed.outcome_bind, Observed.outcome_liftM, Observed.outcome_tell,
      Observed.outcome_pure, bind_eq_ok_iff, require_eq_ok_iff, valueOr_eq_ok_iff,
      outcome_rootCells_eq_ok_iff h "/#address-cells" "#address-cells" rfl,
      outcome_rootCells_eq_ok_iff h "/#size-cells" "#size-cells" rfl, Except.ok.injEq]
    rintro ⟨_, ⟨root, hr, haddress⟩, _, ⟨root', hr', hsize⟩, -, -, -, rfl, -, rfl, _, hreserved,
      _, hlookup, _, hbody, _, hlookup', _, hvalue, _, htext, -, rfl, _, hlookup'', _, hvalue',
      -, ⟨hnonempty, hpairs⟩, rfl⟩
    obtain rfl := Option.some.inj (hr.symm.trans hr')
    obtain ⟨memory, hmemory, rfl⟩ :=
      h.insideStarting?_of_lookup hr "/memory@" "memory@" rfl hlookup hbody
    have hl := Forest.mem_levels_of_find? (Forest.mem_levels_of_root? hr) hmemory
    have hdeviceType := h.value?_of_lookup hl "device_type" rfl hlookup' hvalue
    obtain ⟨-, rest, hrest⟩ := Value.text_eq_ok_iff.1 htext
    have hreg := h.value?_of_lookup hl "reg" rfl hlookup'' hvalue'
    refine ⟨root, memory, _, hr, ?_, rfl⟩
    exact {
      addressCells := haddress
      sizeCells := hsize
      reserved := (outcome_checkReserved_eq_ok_iff h hr supportedCells).1 hreserved
      memoryNode := hmemory
      deviceType := ⟨rest, hrest ▸ hdeviceType⟩
      regions := hreg
      nonempty := by simpa [Value.isEmpty] using hnonempty
      pairs := Nat.dvd_of_mod_eq_zero hpairs }
  · rintro ⟨root, memory, reg, hr, hd, rfl⟩
    obtain ⟨rest, hdeviceType⟩ := hd.deviceType
    have htext : (⟨Bytes.ofText "memory" ++ 0 :: rest⟩ : Value).text = .ok "memory" :=
      Value.text_eq_ok_iff.2 ⟨by decide, rest, rfl⟩
    have hpairs : ¬ Value.isEmpty ⟨reg⟩ ∧ Value.size ⟨reg⟩ % 16 = 0 :=
      ⟨by simpa [Value.isEmpty] using hd.nonempty, Nat.mod_eq_zero_of_dvd hd.pairs⟩
    rw [outcome_discover_of_hasMemory h hr hd.toHasMemory hdeviceType, htext, ok_bind,
      (require_eq_ok_iff (u := ())).2 rfl, ok_bind, hd.regions, Option.map_some, valueOr_some,
      ok_bind, (require_eq_ok_iff (u := ())).2 hpairs, ok_bind]

end

/-- In a validated blob there is a configuration exactly when the root node describes a machine, and
then it is the one described. -/
theorem discover_of_validate {b : Blob} (h : b.validate.outcome = .ok ()) :
    (∃ f, b.Holds f) ∧ ∀ f, b.Holds f → ∀ c, (discover b).outcome = .ok c ↔
      ∃ root memory reg, f.root? b.stringsBlock = some root ∧
        root.Describes b.stringsBlock memory reg ∧
        c = { addressCells := 2, sizeCells := 2, bootCpu := b.header.bootCpu,
              memoryNode := memory.start, reg := ⟨reg⟩ } := by
  refine ⟨Blob.outcome_validate_eq_ok_iff.1 h, ?_⟩
  intro f hf c
  exact outcome_discover_eq_ok_iff hf

end Config

namespace Layout

/-- One region of memory: an address and a size of two cells each. -/
def machineReg : Bytes :=
  BigEndian.encode 8 0x80000000 ++ BigEndian.encode 8 0x40000000

/-- What a memory node of this device type holds. -/
def machineMemory (deviceType : Bytes) : Forest :=
  .property 27 deviceType (.property 39 machineReg .nil)

/-- What the root node of a machine holds: the cell counts, more items, and a memory node of this
device type. -/
def machineRoot (deviceType : Bytes) (items : Forest → Forest) : Forest :=
  .property 0 (BigEndian.encodeWord 2) (.property 15 (BigEndian.encodeWord 2)
    (items (.node (Bytes.ofText "memory@0") (machineMemory deviceType) .nil)))

def machine (deviceType : Bytes) (items : Forest → Forest) : Layout where
  version := 17
  lastCompatible := 16
  bootCpu := 0
  reservations := []
  forest := .node [] (machineRoot deviceType items) .nil
  strings := Bytes.ofText
    "#address-cells\x00#size-cells\x00device_type\x00reg\x00ranges\x00reserved-memory\x00"

def memoryType : Bytes :=
  Bytes.ofText "memory" ++ [0]

section

variable {deviceType : Bytes} {items : Forest → Forest} {root : Forest.Level} {start : Cursor}
  (hr : root = ⟨⟨8⟩, machineRoot deviceType items⟩)
  (hreserved : ∀ r, root.inside? (machine deviceType items).strings "reserved-memory" = some r →
    r.Keeps (machine deviceType items).strings 2)
  (hmemory : root.insideStarting? (machine deviceType items).strings "memory@" =
    some ⟨start, machineMemory deviceType⟩)
include hr hreserved hmemory

theorem machine_hasMemory :
    (machine deviceType items).forest.root? (machine deviceType items).strings = some root ∧
      root.HasMemory (machine deviceType items).strings ⟨start, machineMemory deviceType⟩ := by
  subst hr
  exact ⟨rfl, rfl, rfl, hreserved, hmemory⟩

/-- A machine can be booted unless its other items stand in the way. -/
theorem machine_describes (ht : deviceType = memoryType) :
    (machine deviceType items).forest.root? (machine deviceType items).strings = some root ∧
      root.Describes (machine deviceType items).strings ⟨start, machineMemory deviceType⟩
        machineReg := by
  obtain ⟨hroot, hm⟩ := machine_hasMemory hr hreserved hmemory
  subst ht
  exact ⟨hroot, hm, ⟨[], rfl⟩, rfl, by decide, by decide⟩

end

/-- A machine with a memory controller, the name of which is not that of a memory node, and with
reserved memory that does not translate addresses. -/
def reservingMachine : Layout :=
  machine memoryType fun next =>
    .node (Bytes.ofText "memory-controller@0") .nil (.node (Bytes.ofText "reserved-memory")
      (.property 0 (BigEndian.encodeWord 2) (.property 43 [] .nil)) next)

theorem reservingMachine_writable : reservingMachine.Writable := by
  decide +kernel

theorem reservingMachine_describes : ∃ root,
    reservingMachine.forest.root? reservingMachine.strings = some root ∧
      root.Describes reservingMachine.strings ⟨⟨136⟩, machineMemory memoryType⟩ machineReg := by
  refine ⟨_, machine_describes rfl ?_ rfl rfl⟩
  intro r hr
  obtain rfl := Option.some.inj hr
  exact ⟨by decide, by decide, by decide⟩

end Layout

theorem Config.discover_reservingMachine :
    Layout.reservingMachine.blob.validate.outcome = .ok () ∧
      (discover Layout.reservingMachine.blob).outcome = .ok
        { addressCells := 2, sizeCells := 2, bootCpu := 0, memoryNode := ⟨136⟩,
          reg := ⟨Layout.machineReg⟩ } := by
  have hb := Layout.holds_blob Layout.reservingMachine_writable
  have h := Blob.outcome_validate_eq_ok_iff.2 ⟨_, hb⟩
  obtain ⟨root, hr, hd⟩ := Layout.reservingMachine_describes
  exact ⟨h, ((discover_of_validate h).2 _ hb _).2 ⟨root, _, _, hr, hd, rfl⟩⟩

end Devicetree
