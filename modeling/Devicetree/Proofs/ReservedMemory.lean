import Devicetree.Proofs.Discovery
import Devicetree.Proofs.RoundTrip

/-!
# What the check of reserved memory sees

A node of reserved memory that counts cells unlike the root node, or that translates addresses, is
to be refused. The check asks for names, and what has a name is the first entry of it. So the check
sees the node unless a property of its name stands before it, and of the node it sees a property
unless a node of the name of the property stands before that (`outcome_checkReserved_iff_node?`).
What it does not see it takes to be absent: a property in front of the node is enough to have
addresses translated (`discover_hidingMachine`).
-/

namespace Devicetree

namespace Forest

section

variable {p q : Entry → Bool}

/-- If the first entry that `p` picks is one of `q`, it is also the first that both pick. -/
theorem find?_and_of_find? {es : List Entry} (h : ∀ e, es.find? p = some e → q e = true) :
    (es.find? fun e => q e && p e) = es.find? p := by
  induction es with
  | nil => rfl
  | cons e es ih =>
    rw [List.find?_cons] at h
    rw [List.find?_cons, List.find?_cons]
    by_cases hp : p e
    · simp only [hp] at h ⊢
      rw [h e rfl]
      rfl
    · simp only [hp] at h ⊢
      rw [Bool.and_false]
      exact ih h

/-- What only entries of `q` have is read off the first entry that `p` picks if that is one of `q`,
and then it is the first one of `q` that `p` picks. -/
theorem find?_bind_eq_some_iff {α : Type} {g : Entry → Option α}
    (hq : ∀ e a, g e = some a → q e = true) {es : List Entry} {a : α} :
    (es.find? p).bind g = some a ↔ (∀ e, es.find? p = some e → q e = true) ∧
      (es.find? fun e => q e && p e).bind g = some a := by
  constructor
  · intro h
    have hfirst : ∀ e, es.find? p = some e → q e = true := by
      obtain ⟨e, he, hg⟩ := Option.bind_eq_some_iff.1 h
      intro e' he'
      obtain rfl := Option.some.inj (he.symm.trans he')
      exact hq e a hg
    exact ⟨hfirst, by rwa [find?_and_of_find? hfirst]⟩
  · rintro ⟨hfirst, h⟩
    rwa [find?_and_of_find? hfirst] at h

end

namespace Level

variable (strings : Bytes) (level : Level) (name : String)

/-- The inside of the first node of a name. -/
def node? : Option Level :=
  (level.items.firstNode? strings level.start.offset (Bytes.ofText name)).bind Entry.level?

/-- The value of the first property of a name. -/
def property? : Option Bytes :=
  ((level.items.entries strings level.start.offset).find? fun e =>
    !e.isNode && e.name == Bytes.ofText name).bind Entry.value?

/-- Whether no property of a name stands before the nodes of it. -/
def NodeFirst : Prop :=
  ∀ e, level.first? strings name = some e → e.isNode = true

/-- Whether no node of a name stands before the properties of it. -/
def PropertyFirst : Prop :=
  ∀ e, level.first? strings name = some e → (!e.isNode) = true

variable {strings level name}

theorem inside?_eq_some_iff {r : Level} : level.inside? strings name = some r ↔
    level.NodeFirst strings name ∧ level.node? strings name = some r := by
  have hq : ∀ e r, Entry.level? e = some r → e.isNode = true := by
    rintro (⟨_, _⟩ | ⟨_, _, _⟩) _ h
    · cases h
    · rfl
  exact find?_bind_eq_some_iff hq

theorem value?_eq_some_iff {value : Bytes} : level.value? strings name = some value ↔
    level.PropertyFirst strings name ∧ level.property? strings name = some value := by
  have hq : ∀ e value, Entry.value? e = some value → (!e.isNode) = true := by
    rintro (⟨_, _⟩ | ⟨_, _, _⟩) _ h
    · rfl
    · cases h
  exact find?_bind_eq_some_iff hq

/-- Whether a node counts the cells of addresses and sizes by this number and does not translate
addresses, as far as its properties do not stand behind nodes of the same name. -/
structure KeepsVisibly (strings : Bytes) (cells : UInt32) (level : Level) : Prop where
  addressCells : level.PropertyFirst strings "#address-cells" →
    ∀ value, level.property? strings "#address-cells" = some value →
      value = BigEndian.encodeWord cells
  sizeCells : level.PropertyFirst strings "#size-cells" →
    ∀ value, level.property? strings "#size-cells" = some value →
      value = BigEndian.encodeWord cells
  ranges : level.PropertyFirst strings "ranges" →
    ∀ value, level.property? strings "ranges" = some value → value = []

theorem keeps_iff {cells : UInt32} :
    level.Keeps strings cells ↔ level.KeepsVisibly strings cells := by
  constructor
  · intro h
    exact {
      addressCells := fun hp value hv => h.addressCells value (value?_eq_some_iff.2 ⟨hp, hv⟩)
      sizeCells := fun hp value hv => h.sizeCells value (value?_eq_some_iff.2 ⟨hp, hv⟩)
      ranges := fun hp value hv => h.ranges value (value?_eq_some_iff.2 ⟨hp, hv⟩) }
  · intro h
    constructor
    all_goals
      intro value hv
      obtain ⟨hp, hv⟩ := value?_eq_some_iff.1 hv
    · exact h.addressCells hp value hv
    · exact h.sizeCells hp value hv
    · exact h.ranges hp value hv

end Level

end Forest

namespace Config

/-- The check passes exactly when the first node of reserved memory, if no property of its name
stands before it, is as far as it can be seen in the way of the root node. -/
theorem outcome_checkReserved_iff_node? {b : Blob} {f : Forest} (h : b.Holds f)
    {root : Forest.Level} (hr : f.root? b.stringsBlock = some root) (cells : UInt32) :
    (checkReserved b cells).outcome = .ok () ↔
      (root.NodeFirst b.stringsBlock "reserved-memory" →
        ∀ r, root.node? b.stringsBlock "reserved-memory" = some r →
          r.KeepsVisibly b.stringsBlock cells) := by
  rw [outcome_checkReserved_eq_ok_iff h hr]
  constructor
  · intro hk hfirst r hn
    exact Forest.Level.keeps_iff.1 (hk r (Forest.Level.inside?_eq_some_iff.2 ⟨hfirst, hn⟩))
  · intro hk r hi
    obtain ⟨hfirst, hn⟩ := Forest.Level.inside?_eq_some_iff.1 hi
    exact Forest.Level.keeps_iff.2 (hk hfirst r hn)

/-- Where there is a configuration, the first node of reserved memory has passed the check if no
property of its name stands before it. -/
theorem keepsVisibly_of_discover {b : Blob} {c : Config} (h : b.validate.outcome = .ok ())
    (hc : (discover b).outcome = .ok c) : ∃ f root, b.Holds f ∧
      f.root? b.stringsBlock = some root ∧
      (root.NodeFirst b.stringsBlock "reserved-memory" →
        ∀ r, root.node? b.stringsBlock "reserved-memory" = some r →
          r.KeepsVisibly b.stringsBlock 2) := by
  obtain ⟨f, hf⟩ := Blob.outcome_validate_eq_ok_iff.1 h
  obtain ⟨root, memory, reg, hr, hd, -⟩ := (outcome_discover_eq_ok_iff hf).1 hc
  exact ⟨f, root, hf, hr, (outcome_checkReserved_iff_node? hf hr 2).1
    ((outcome_checkReserved_eq_ok_iff hf hr 2).2 hd.reserved)⟩

theorem keepsVisibly_reservingMachine : Layout.reservingMachine.blob.validate.outcome = .ok () ∧
    (∃ c, (discover Layout.reservingMachine.blob).outcome = .ok c) ∧
      ∃ root r, Layout.reservingMachine.forest.root? Layout.reservingMachine.strings = some root ∧
        root.node? Layout.reservingMachine.strings "reserved-memory" = some r ∧
        r.property? Layout.reservingMachine.strings "ranges" = some [] ∧
        r.KeepsVisibly Layout.reservingMachine.strings 2 := by
  have hb := Layout.holds_blob Layout.reservingMachine_writable
  have h := Blob.outcome_validate_eq_ok_iff.2 ⟨_, hb⟩
  obtain ⟨root, hr, hd⟩ := Layout.reservingMachine_describes
  have hc := (outcome_discover_eq_ok_iff hb).2 ⟨root, _, _, hr, hd, rfl⟩
  obtain ⟨f, root', hf, hr', hk⟩ := keepsVisibly_of_discover h hc
  obtain rfl := hf.unique hb
  obtain rfl := Option.some.inj hr'
  refine ⟨h, ⟨_, hc⟩, _, _, hr', rfl, rfl, hk ?_ _ rfl⟩
  intro e he
  obtain rfl := Option.some.inj he
  rfl

end Config

namespace Layout

/-- A machine whose reserved memory translates addresses, with a property of the name of that node
before it. -/
def hidingMachine : Layout :=
  machine memoryType fun next =>
    .property 50 [] (.node (Bytes.ofText "reserved-memory") (.property 43
      (BigEndian.encode 8 0 ++ (BigEndian.encode 8 0x80000000 ++ BigEndian.encode 8 0x1000)) .nil)
        next)

theorem hidingMachine_writable : hidingMachine.Writable := by
  decide +kernel

theorem hidingMachine_describes : ∃ root,
    hidingMachine.forest.root? hidingMachine.strings = some root ∧
      root.Describes hidingMachine.strings ⟨⟨128⟩, machineMemory memoryType⟩ machineReg := by
  refine ⟨_, machine_describes rfl ?_ rfl rfl⟩
  intro r hr
  have hr : none = some r := hr
  cases hr

end Layout

/-- A machine that translates addresses of reserved memory is booted. -/
theorem Config.discover_hidingMachine : ∃ b c f root r value,
    Blob.ofBytes Layout.hidingMachine.encode = .ok b ∧ b.validate.outcome = .ok () ∧
      (discover b).outcome = .ok c ∧ b.Holds f ∧ f.root? b.stringsBlock = some root ∧
      root.node? b.stringsBlock "reserved-memory" = some r ∧
      r.property? b.stringsBlock "ranges" = some value ∧ value ≠ [] := by
  have hb := Layout.holds_blob Layout.hidingMachine_writable
  obtain ⟨root, hr, hd⟩ := Layout.hidingMachine_describes
  have hc := (outcome_discover_eq_ok_iff hb).2 ⟨root, _, _, hr, hd, rfl⟩
  obtain rfl := Option.some.inj hr
  exact ⟨_, _, _, _, _, _, Layout.ofBytes_encode Layout.hidingMachine_writable,
    Blob.outcome_validate_eq_ok_iff.2 ⟨_, hb⟩, hc, hb, rfl, rfl, rfl, by decide⟩

end Devicetree
