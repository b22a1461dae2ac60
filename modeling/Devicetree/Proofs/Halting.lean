import Devicetree.Proofs.Discovery
import Devicetree.Proofs.RoundTrip

/-!
# What stops a boot

A boot ends with the error of the first stage that fails: opening the blob, validating it or asking
it for the configuration (`Boot.outcome_probe_eq_error_iff`). Behind a validation the structure
of the blob is no longer in question. Each lookup starts where a level of the tree starts and so
succeeds, and what is left to fail are the checks of what the tree says, and reading the device type
as a text (`Config.failsOnly_discover`).
-/

namespace Devicetree

namespace Observed

variable {α β : Type} {P : Error → Prop}

/-- Whether each error that an operation can end in is one of `P`. -/
def FailsOnly (P : Error → Prop) (x : Observed α) : Prop :=
  ∀ e, x.outcome = .error e → P e

theorem FailsOnly.of_ok {x : Observed α} {a : α} (h : x.outcome = .ok a) : x.FailsOnly P := by
  intro e he
  rw [h] at he
  cases he

theorem FailsOnly.bind {x : Observed α} {f : α → Observed β} (hx : x.FailsOnly P)
    (hf : ∀ a, x.outcome = .ok a → (f a).FailsOnly P) : (x >>= f).FailsOnly P := by
  intro e he
  rw [outcome_bind] at he
  rcases bind_eq_error_iff.1 he with he | ⟨a, ha, he⟩
  · exact hx e he
  · exact hf a ha e he

theorem failsOnly_valueOr {e : Error} (he : P e) (o : Option α) :
    (liftM (valueOr e o) : Observed α).FailsOnly P := by
  intro e' he'
  obtain ⟨-, rfl⟩ := valueOr_eq_error_iff.1 he'
  exact he

theorem failsOnly_require {e : Error} (he : P e) (p : Prop) [Decidable p] :
    (liftM (require p e) : Observed Unit).FailsOnly P := by
  intro e' he'
  obtain ⟨-, rfl⟩ := require_eq_error_iff.1 he'
  exact he

end Observed

/-! ## Values that are no text -/

/-- Whether a value is not a text, and the error that says so: no zero byte ends it, or the bytes
before the first one are not UTF-8. -/
inductive Value.NoText : Bytes → Error → Prop where
  | unterminated {value : Bytes} : 0 ∉ value → NoText value (.outOfRegion 0 (value.length + 1))
  | undecodable {string rest : Bytes} {fault : Utf8.Fault} : 0 ∉ string →
      (∀ s, string ≠ Bytes.ofText s) → fault.Blames string →
        NoText (string ++ 0 :: rest) (.notText fault)

theorem Bytes.text_eq_error_iff {b : Bytes} {e : Error} : b.text = .error e ↔
    ∃ fault, (∀ s, b ≠ ofText s) ∧ fault.Blames b ∧ e = .notText fault := by
  unfold text
  rcases hd : Utf8.decode b with fault | s
  · obtain ⟨hs, hf⟩ := Utf8.decode_eq_error_iff.1 hd
    simp only [Except.mapError, Except.error.injEq]
    constructor
    · rintro rfl
      exact ⟨fault, hs, hf, rfl⟩
    · rintro ⟨fault', -, hf', rfl⟩
      rw [hf.unique hf']
  · simp only [Except.mapError, reduceCtorEq, false_iff]
    rintro ⟨fault, hs, -, -⟩
    exact hs s (Utf8.decode_eq_ok_iff.1 hd)

theorem Value.text_eq_error_iff {v : Value} {e : Error} : v.text = .error e ↔
    NoText v.bytes e := by
  unfold text
  rw [bind_eq_error_iff]
  unfold Bytes.stringAt Bytes.stringAt?
  rw [List.drop_zero, valueOr_eq_error_iff, Bytes.beforeNul?_eq_none_iff]
  simp only [valueOr_eq_ok_iff, Bytes.beforeNul?_eq_some_iff, Bytes.text_eq_error_iff]
  constructor
  · rintro (⟨h, rfl⟩ | ⟨string, ⟨h, rest, hv⟩, fault, hs, hf, rfl⟩)
    · exact .unterminated h
    · rw [hv]
      exact .undecodable h hs hf
  · generalize v.bytes = value
    intro h
    rcases h with h | ⟨h, hs, hf⟩
    · exact .inl ⟨h, rfl⟩
    · exact .inr ⟨_, ⟨h, _, rfl⟩, _, hs, hf, rfl⟩

/-! ## What stops the discovery -/

/-- The errors by which a tree is refused: a configuration that is not supported, or a memory node
whose device type is not a text. -/
inductive Forest.Refused (strings : Bytes) (f : Forest) : Error → Prop where
  | unsupported (reason : Unsupported) : Refused strings f (.unsupported reason)
  | deviceType {root memory : Level} {value : Bytes} {e : Error} : f.root? strings = some root →
      root.insideStarting? strings "memory@" = some memory →
        memory.value? strings "device_type" = some value → Value.NoText value e →
          Refused strings f e

/-- A tree is not refused for how it is spelled. -/
theorem Forest.Refused.ne_structural {strings : Bytes} {f : Forest} {e : Error}
    (h : f.Refused strings e) : (∀ offset defect, e ≠ .malformed offset defect) ∧
      (∀ found, e ≠ .badMagic found) ∧ ∀ what, e ≠ .invalidParameter what := by
  rcases h with reason | ⟨-, -, -, h | _⟩
  all_goals
    refine ⟨?_, ?_, ?_⟩
    all_goals
      intros
      nofun

namespace Blob

section

variable {b : Blob} {f : Forest} (h : b.Holds f) {level : Forest.Level} (hl : level ∈ f.levels)
include h hl

theorem Holds.failsOnly_lookup {P : Error → Prop} (path : Path) (mode : MatchMode) :
    (b.lookup level.start path mode).FailsOnly P :=
  .of_ok (h.outcome_lookup hl path mode)

/-- A node that is found is one of the tree. -/
theorem Holds.body?_of_lookup {path : Path} {mode : MatchMode} {found : Found} {c : Cursor}
    (hlookup : (b.lookup level.start path mode).outcome = .ok found)
    (hc : found.body? = some c) : ∃ items, ⟨c, items⟩ ∈ f.levels := by
  have hhas := Forest.has_searchFrom b.stringsBlock mode level.items level.start.offset path.first
    path.rest
  rw [h.outcome_lookup hl, Except.ok.injEq] at hlookup
  rw [← Forest.search, hlookup] at hhas
  rcases found with _ | body | _
  · cases hc
  · obtain rfl := Option.some.inj hc
    obtain ⟨items, hi⟩ := hhas
    exact ⟨items, Forest.levels_subset hl hi⟩
  · cases hc

end

/-- Whether what a tree refers to can be read: lookups from the levels of the tree succeed and find
levels of the tree again, skips come to where a node stops, and properties have names. -/
structure Legible (b : Blob) (f : Forest) : Prop where
  lookup : ∀ level ∈ f.levels, ∀ path mode, ∃ found,
    (b.lookup level.start path mode).outcome = .ok found ∧
      ∀ c, found.body? = some c → ∃ items, ⟨c, items⟩ ∈ f.levels
  skip : ∀ level ∈ f.levelsFrom 0, (b.skip level.start).outcome = .ok level.stop
  name : ∀ nameOffset value, .property nameOffset value ∈ f.tokens →
    ∃ name, b.nameAt nameOffset.toNat = .ok name

theorem Holds.legible {b : Blob} {f : Forest} (h : b.Holds f) : b.Legible f where
  lookup := by
    intro level hl path mode
    have hlookup := h.outcome_lookup hl path mode
    exact ⟨_, hlookup, fun c hc => h.body?_of_lookup hl hlookup hc⟩
  skip := fun level hl => h.outcome_skip hl
  name := by
    intro nameOffset value hp
    obtain ⟨name, hname⟩ : ∃ name, b.stringsBlock.IsStringAt nameOffset.toNat name :=
      h.named _ hp
    exact ⟨name, nameAt_eq_ok_iff.2 hname⟩

end Blob

namespace Config

open Observed

theorem failsOnly_singleCell (strings : Bytes) (f : Forest) (v : Value) :
    (liftM (singleCell v) : Observed UInt32).FailsOnly (f.Refused strings) := by
  intro e he
  rw [outcome_liftM, singleCell_eq] at he
  split_ifs at he
  cases he
  exact .unsupported _

section

variable {b : Blob} {f : Forest} (h : b.Holds f)
include h

theorem failsOnly_rootCells (path : Path) :
    (rootCells b path).FailsOnly (f.Refused b.stringsBlock) := by
  have htop : (⟨.root, f⟩ : Forest.Level) ∈ f.levels := List.mem_cons_self
  unfold rootCells
  refine (h.failsOnly_lookup htop path _).bind ?_
  intro found _
  refine (failsOnly_valueOr (.unsupported _) _).bind ?_
  intro value _
  exact failsOnly_singleCell _ _ value

theorem failsOnly_checkCells {level : Forest.Level} (hl : level ∈ f.levels) (path : Path)
    (cells : UInt32) :
    (checkCells b level.start path cells).FailsOnly (f.Refused b.stringsBlock) := by
  unfold checkCells
  refine (h.failsOnly_lookup hl path _).bind ?_
  intro found _
  rcases found.value? with _ | value
  · exact .of_ok rfl
  · refine (failsOnly_singleCell _ _ value).bind ?_
    intro found _
    exact failsOnly_require (.unsupported _) _

theorem failsOnly_checkRanges {level : Forest.Level} (hl : level ∈ f.levels) :
    (checkRanges b level.start).FailsOnly (f.Refused b.stringsBlock) := by
  unfold checkRanges
  refine (h.failsOnly_lookup hl _ _).bind ?_
  intro found _
  rcases found.value? with _ | ranges
  · exact .of_ok rfl
  · exact failsOnly_require (.unsupported _) _

theorem failsOnly_checkReserved (cells : UInt32) :
    (checkReserved b cells).FailsOnly (f.Refused b.stringsBlock) := by
  have htop : (⟨.root, f⟩ : Forest.Level) ∈ f.levels := List.mem_cons_self
  unfold checkReserved
  refine (h.failsOnly_lookup htop _ _).bind ?_
  intro found hlookup
  rcases hb : found.body? with _ | body
  · exact .of_ok rfl
  · obtain ⟨items, hl⟩ := h.body?_of_lookup htop hlookup hb
    refine (failsOnly_checkCells h hl _ cells).bind ?_
    intro _ _
    refine (failsOnly_checkCells h hl _ cells).bind ?_
    intro _ _
    exact failsOnly_checkRanges h hl

/-- No lookup fails, since each starts at a level of the tree, those behind the memory node inside of
it. So what fails is a check of what the tree says, or the device type as a text. -/
theorem failsOnly_discover : (discover b).FailsOnly (f.Refused b.stringsBlock) := by
  have htop : (⟨.root, f⟩ : Forest.Level) ∈ f.levels := List.mem_cons_self
  unfold discover
  refine (failsOnly_rootCells h _).bind ?_
  intro addressCells haddress
  obtain ⟨root, hr, -⟩ :=
    (outcome_rootCells_eq_ok_iff h "/#address-cells" "#address-cells" rfl).1 haddress
  refine (failsOnly_rootCells h _).bind ?_
  intro sizeCells _
  refine (FailsOnly.of_ok rfl).bind ?_
  intro _ _
  refine (failsOnly_require (.unsupported _) _).bind ?_
  intro _ _
  refine (failsOnly_require (.unsupported _) _).bind ?_
  intro _ _
  refine (failsOnly_checkReserved h _).bind ?_
  intro _ _
  refine (h.failsOnly_lookup htop _ _).bind ?_
  intro found hlookup
  refine (failsOnly_valueOr (.unsupported _) _).bind ?_
  intro body hbody
  obtain ⟨memory, hmemory, rfl⟩ := h.insideStarting?_of_lookup hr "/memory@" "memory@" rfl
    hlookup (valueOr_eq_ok_iff.1 hbody)
  have hl := Forest.mem_levels_of_find? (Forest.mem_levels_of_root? hr) hmemory
  refine (h.failsOnly_lookup hl _ _).bind ?_
  intro found hlookup
  refine (failsOnly_valueOr (.unsupported _) _).bind ?_
  intro deviceType hvalue
  have hdeviceType := h.value?_of_lookup hl "device_type" rfl hlookup (valueOr_eq_ok_iff.1 hvalue)
  have htext : (liftM deviceType.text : Observed String).FailsOnly (f.Refused b.stringsBlock) := by
    intro e he
    exact .deviceType hr hmemory hdeviceType (Value.text_eq_error_iff.1 he)
  refine htext.bind ?_
  intro name _
  refine (failsOnly_require (.unsupported _) _).bind ?_
  intro _ _
  refine (h.failsOnly_lookup hl _ _).bind ?_
  intro found _
  refine (failsOnly_valueOr (.unsupported _) _).bind ?_
  intro reg _
  refine (failsOnly_require (.unsupported _) _).bind ?_
  intro _ _
  exact .of_ok rfl

/-- A device type that is no text stops the discovery with the error that says so, when there was
nothing to refuse before. -/
theorem outcome_discover_of_noText {root memory : Forest.Level} {value : Bytes} {e : Error}
    (hr : f.root? b.stringsBlock = some root) (hm : root.HasMemory b.stringsBlock memory)
    (hvalue : memory.value? b.stringsBlock "device_type" = some value)
    (he : Value.NoText value e) : (discover b).outcome = .error e := by
  have htext : (⟨value⟩ : Value).text = .error e := Value.text_eq_error_iff.2 he
  rw [outcome_discover_of_hasMemory h hr hm hvalue, htext, error_bind]

end

end Config

/-! ## The stages of a boot -/

namespace Observed

theorem outcome_tellHalt {α : Type} (x : Observed α) : x.tellHalt.outcome = x.outcome := by
  unfold tellHalt
  split
  · rfl
  · rename_i e he
    exact he.symm

theorem getLast?_tellHalt {α : Type} {x : Observed α} {e : Error} (h : x.outcome = .error e) :
    x.tellHalt.events.getLast? = some (.notice (.halted e)) := by
  unfold tellHalt
  rw [h]
  exact List.getLast?_concat

end Observed

namespace Boot

/-- Whether an error is the one of the first stage that fails. -/
inductive Stops (opened : Except Error Blob) : Error → Prop where
  | opening {e : Error} : opened = .error e → Stops opened e
  | validation {b : Blob} {e : Error} : opened = .ok b → b.validate.outcome = .error e →
      Stops opened e
  | discovery {b : Blob} {e : Error} : opened = .ok b → b.validate.outcome = .ok () →
      (Config.discover b).outcome = .error e → Stops opened e

theorem outcome_probe (opened : Except Error Blob) : (probe opened).outcome =
    opened >>= fun b => b.validate.outcome >>= fun _ => (Config.discover b).outcome := by
  have htold : ∀ x : Observed Config, (x >>= fun c => Observed.tellAll
      (c.memoryRegions.toList.map fun r => .memoryFound r.address.toNat r.stop) >>= fun _ =>
        pure c).outcome = x.outcome := by
    intro x
    rw [Observed.outcome_bind]
    rcases x.outcome with e | c <;> rfl
  unfold probe
  simp only [Observed.outcome_bind, Observed.outcome_liftM, Observed.outcome_tell] at htold ⊢
  simp only [htold]
  rfl

theorem outcome_probe_eq_ok_iff {opened : Except Error Blob} {c : Config} :
    (probe opened).outcome = .ok c ↔ ∃ b, opened = .ok b ∧ b.validate.outcome = .ok () ∧
      (Config.discover b).outcome = .ok c := by
  simp only [outcome_probe, bind_eq_ok_iff]
  constructor
  · rintro ⟨b, ho, _, hv, hd⟩
    exact ⟨b, ho, hv, hd⟩
  · rintro ⟨b, ho, hv, hd⟩
    exact ⟨b, ho, _, hv, hd⟩

theorem outcome_probe_eq_error_iff {opened : Except Error Blob} {e : Error} :
    (probe opened).outcome = .error e ↔ Stops opened e := by
  simp only [outcome_probe, bind_eq_error_iff]
  constructor
  · rintro (ho | ⟨b, ho, hv | ⟨_, hv, hd⟩⟩)
    · exact .opening ho
    · exact .validation ho hv
    · exact .discovery ho hv hd
  · rintro (ho | ⟨ho, hv⟩ | ⟨ho, hv, hd⟩)
    · exact .inl ho
    · exact .inr ⟨_, ho, .inl hv⟩
    · exact .inr ⟨_, ho, .inr ⟨_, hv, hd⟩⟩

theorem outcome_fromBytes (bytes : Bytes) :
    (fromBytes bytes).outcome = (probe (Blob.ofBytes bytes)).outcome :=
  Observed.outcome_tellHalt _

/-- A boot gives the configuration that the blob gives if it opens and is valid, and ends otherwise
with the error of the first stage that fails, as its last notice says. Behind a validation nothing
that the tree refers to is missing, and the error is one by which a tree is refused. -/
theorem outcome_fromBytes_verdict (bytes : Bytes) :
    (∀ c, (fromBytes bytes).outcome = .ok c ↔ ∃ b, Blob.ofBytes bytes = .ok b ∧
      b.validate.outcome = .ok () ∧ (Config.discover b).outcome = .ok c) ∧
    (∀ e, (fromBytes bytes).outcome = .error e ↔ Stops (Blob.ofBytes bytes) e) ∧
    (∀ e, (fromBytes bytes).outcome = .error e →
      (fromBytes bytes).events.getLast? = some (.notice (.halted e))) ∧
    (∀ v : Value, v.size = Value.cellSize → ∃ n, Config.singleCell v = .ok n) ∧
    ∀ b, Blob.ofBytes bytes = .ok b → b.validate.outcome = .ok () → ∃ f, b.Holds f ∧
      b.Legible f ∧ ∀ e, (fromBytes bytes).outcome = .error e → f.Refused b.stringsBlock e ∧
        (∀ offset defect, e ≠ .malformed offset defect) ∧ (∀ found, e ≠ .badMagic found) ∧
        ∀ what, e ≠ .invalidParameter what := by
  have herror : ∀ e, (fromBytes bytes).outcome = .error e ↔ Stops (Blob.ofBytes bytes) e := by
    intro e
    rw [outcome_fromBytes, outcome_probe_eq_error_iff]
  refine ⟨?_, herror, ?_, ?_, ?_⟩
  · intro c
    rw [outcome_fromBytes, outcome_probe_eq_ok_iff]
  · intro e he
    rw [outcome_fromBytes] at he
    exact Observed.getLast?_tellHalt he
  · intro v hv
    exact ⟨_, Config.singleCell_eq_ok_iff.2 (BigEndian.encodeWord_word hv).symm⟩
  · intro b ho hv
    obtain ⟨f, hf⟩ := Blob.outcome_validate_eq_ok_iff.1 hv
    refine ⟨f, hf, hf.legible, ?_⟩
    intro e he
    have hr : f.Refused b.stringsBlock e := by
      rcases (herror e).1 he with ho' | ⟨ho', hv'⟩ | ⟨ho', -, hd⟩
      all_goals rw [ho] at ho'
      · cases ho'
      · cases ho'
        rw [hv] at hv'
        cases hv'
      · cases ho'
        exact Config.failsOnly_discover hf e hd
    exact ⟨hr, hr.ne_structural⟩

end Boot

/-- A machine whose device type no zero byte ends. -/
def Layout.unterminatedMachine : Layout :=
  machine (Bytes.ofText "memory") id

theorem Layout.unterminatedMachine_writable : unterminatedMachine.Writable := by
  decide +kernel

/-- The device type is read to its end and beyond, although the tree is valid. -/
theorem Boot.outcome_fromBytes_unterminatedMachine :
    (fromBytes Layout.unterminatedMachine.encode).outcome = .error (.outOfRegion 0 7) := by
  have hb := Layout.holds_blob Layout.unterminatedMachine_writable
  have ho := Layout.ofBytes_encode Layout.unterminatedMachine_writable
  have hv := Blob.outcome_validate_eq_ok_iff.2 ⟨_, hb⟩
  have he : Value.NoText (Bytes.ofText "memory") (.outOfRegion 0 7) := .unterminated (by decide)
  have hreserved : ∀ r, none = some r →
      Forest.Level.Keeps Layout.unterminatedMachine.strings 2 r := by
    intro r hr
    cases hr
  obtain ⟨hr, hm⟩ := @Layout.machine_hasMemory (Bytes.ofText "memory") id _ _ rfl hreserved rfl
  have hd := Config.outcome_discover_of_noText hb hr hm rfl he
  exact ((outcome_fromBytes_verdict _).2.1 _).2 (.discovery ho hv hd)

end Devicetree
