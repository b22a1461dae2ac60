import Devicetree.Token

/-!
# Forests

The items of one level in the order of the stream, with what the nodes among them hold: the tree
that a structure block spells. A forest is read as its tokens in pre-order, so that the bytes that
spell it are the bytes that spell these tokens (`Forest.Spells`).
-/

namespace Devicetree

namespace Token

/-- The bytes that are these tokens one after the other. -/
inductive SpellsAll : List Token → Bytes → Prop where
  | nil : SpellsAll [] []
  | cons {t : Token} {ts : List Token} {b b' : Bytes} :
      t.Spells b → SpellsAll ts b' → SpellsAll (t :: ts) (b ++ b')

theorem SpellsAll.append {ts ts' : List Token} {b b' : Bytes} (h : SpellsAll ts b)
    (h' : SpellsAll ts' b') : SpellsAll (ts ++ ts') (b ++ b') := by
  induction h with
  | nil => exact h'
  | cons ht _ ih =>
    rw [List.append_assoc]
    exact .cons ht ih

theorem SpellsAll.length {ts : List Token} {b : Bytes} (h : SpellsAll ts b) :
    b.length = (ts.flatMap encode).length := by
  induction h with
  | nil => rfl
  | cons ht _ ih => rw [List.length_append, ht.length, ih, List.flatMap_cons, List.length_append,
      length_encode]

/-- Whether a token has a name in a strings block, if it is a property. -/
def Named (strings : Bytes) : Token → Prop
  | property nameOffset _ => ∃ name, strings.IsStringAt nameOffset.toNat name
  | _ => True

instance (strings : Bytes) : DecidablePred (Named strings)
  | beginNode _ => inferInstanceAs (Decidable True)
  | endNode => inferInstanceAs (Decidable True)
  | property nameOffset _ =>
    inferInstanceAs (Decidable (∃ name, strings.IsStringAt nameOffset.toNat name))
  | nop => inferInstanceAs (Decidable True)

/-- Whether each property among tokens has a name in a strings block. -/
def AllNamed (strings : Bytes) (ts : List Token) : Prop :=
  ∀ t ∈ ts, t.Named strings

instance (strings : Bytes) : DecidablePred (AllNamed strings) := fun ts =>
  inferInstanceAs (Decidable (∀ t ∈ ts, t.Named strings))

section

variable {strings : Bytes} {t : Token} {ts ts' : List Token}

theorem allNamed_nil : AllNamed strings [] := nofun

theorem allNamed_cons_iff :
    AllNamed strings (t :: ts) ↔ t.Named strings ∧ AllNamed strings ts :=
  List.forall_mem_cons

theorem allNamed_append_iff :
    AllNamed strings (ts ++ ts') ↔ AllNamed strings ts ∧ AllNamed strings ts' :=
  List.forall_mem_append

end

end Token

/-- Each item is followed by the items after it on its level. -/
inductive Forest where
  | nil
  | nop (next : Forest)
  | property (nameOffset : UInt32) (value : Bytes) (next : Forest)
  | node (name : Bytes) (items next : Forest)
  deriving DecidableEq, Repr

namespace Forest

def tokens : Forest → List Token
  | nil => []
  | nop next => .nop :: next.tokens
  | property nameOffset value next => .property nameOffset value :: next.tokens
  | node name items next => .beginNode name :: (items.tokens ++ .endNode :: next.tokens)

/-- The bytes that are a forest, whatever their padding. -/
def Spells (f : Forest) (b : Bytes) : Prop :=
  Token.SpellsAll f.tokens b

def encode (f : Forest) : Bytes :=
  f.tokens.flatMap Token.encode

def Writable (f : Forest) : Prop :=
  ∀ t ∈ f.tokens, t.Writable

instance : DecidablePred Writable := fun f =>
  inferInstanceAs (Decidable (∀ t ∈ f.tokens, t.Writable))

/-- Whether every property has a name in a strings block. -/
def Named (strings : Bytes) (f : Forest) : Prop :=
  Token.AllNamed strings f.tokens

instance (strings : Bytes) : DecidablePred (Named strings) := fun f =>
  inferInstanceAs (Decidable (Token.AllNamed strings f.tokens))

section

variable {strings name value : Bytes} {nameOffset : UInt32} {items next : Forest}

theorem named_nil : Named strings .nil :=
  Token.allNamed_nil

theorem named_nop_iff : Named strings (.nop next) ↔ Named strings next :=
  Token.allNamed_cons_iff.trans (and_iff_right trivial)

theorem named_property_iff : Named strings (.property nameOffset value next) ↔
    (∃ name, strings.IsStringAt nameOffset.toNat name) ∧ Named strings next :=
  Token.allNamed_cons_iff

theorem named_node_iff :
    Named strings (.node name items next) ↔ Named strings items ∧ Named strings next := by
  unfold Named
  rw [tokens, Token.allNamed_cons_iff, Token.allNamed_append_iff, Token.allNamed_cons_iff]
  exact (and_iff_right trivial).trans (and_congr_right fun _ => and_iff_right trivial)

end

def size : Forest → Nat
  | nil => 0
  | nop next => Token.nop.size + next.size
  | property nameOffset value next => (Token.property nameOffset value).size + next.size
  | node name items next =>
    (Token.beginNode name).size + items.size + Token.endNode.size + next.size

@[simp]
theorem length_encode (f : Forest) : f.encode.length = f.size := by
  unfold encode
  induction f with
  | nil => rfl
  | nop _ ih => simp [size, tokens, ih]
  | property _ _ _ ih => simp [size, tokens, ih]
  | node _ _ _ ih ih' => simp [size, tokens, ih, ih']; omega

theorem Spells.length {f : Forest} {b : Bytes} (h : f.Spells b) : b.length = f.size := by
  rw [← length_encode]
  exact Token.SpellsAll.length h

theorem spells_encode {f : Forest} (h : f.Writable) : f.Spells f.encode := by
  unfold Spells encode
  unfold Writable at h
  generalize f.tokens = ts at h
  induction ts with
  | nil => exact .nil
  | cons t ts ih =>
    simp only [List.mem_cons, forall_eq_or_imp] at h
    exact .cons (Token.spells_encode h.1) (ih h.2)

end Forest

end Devicetree
