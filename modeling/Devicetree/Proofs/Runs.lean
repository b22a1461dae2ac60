import Devicetree.Proofs.Grammar

/-!
# A walk is a run of tokens

Whatever stands in a block, a walk passes tokens one after the other and keeps count of the nodes
that they leave open, until it stops at one of six things (`Stops`). The tokens, the count behind
them and the thing decide the answer, and there is no walk without them (`walkFrom_eq_iff`). On the
way a walk reads each token once, where it starts, and the last of its reads is the one at which it
stops (`walkFrom_of_passes`, `walkFrom_of_stops`).
-/

namespace Devicetree

namespace Token

/-- How many nodes are open behind tokens, with `nested` open in front of them: `none` if one of
the tokens closes a node that is not open. -/
def openBehind : (nested : Nat) → List Token → Option Nat
  | nested, [] => some nested
  | nested, .beginNode _ :: ts => openBehind (nested + 1) ts
  | 0, .endNode :: _ => none
  | nested + 1, .endNode :: ts => openBehind nested ts
  | nested, .property _ _ :: ts => openBehind nested ts
  | nested, .nop :: ts => openBehind nested ts

end Token

namespace Stream

/-- Where tokens start that stand one after the other from an offset on. -/
def places : (offset : Nat) → List Token → List Nat
  | _, [] => []
  | offset, t :: ts => offset :: places (offset + t.size) ts

@[simp]
theorem length_places : ∀ (offset : Nat) (ts : List Token), (places offset ts).length = ts.length
  | _, [] => rfl
  | offset, t :: ts => congrArg (· + 1) (length_places (offset + t.size) ts)

end Stream

namespace Blob

/-- Where a walk stops that lies at `depth` and is inside of `nested` nodes, and what it answers:
where nothing can be read, at the tag that ends the tree, at the end of its own level and at a
property without a name. -/
inductive Stops (b : Blob) (depth nested : Nat) (s : Stream) :
    Except Error (Option Stream) → Prop where
  | unreadable {e s'} : s.next = (.error e, s') → Stops b depth nested s (.error e)
  | endOfTree {s'} : depth = 0 ∧ nested = 0 → s.next = (.ok none, s') →
      Stops b depth nested s (.ok none)
  | insideNode {s'} : ¬ (depth = 0 ∧ nested = 0) → s.next = (.ok none, s') →
      Stops b depth nested s (.error (.malformed s.offset .endInsideNode))
  | endOfLevel {s'} : depth ≠ 0 → nested = 0 → s.next = (.ok (some .endNode), s') →
      Stops b depth nested s (.ok (some s'))
  | unopened {s'} : depth = 0 → nested = 0 → s.next = (.ok (some .endNode), s') →
      Stops b depth nested s (.error (.malformed s.offset .endNodeWithoutBeginNode))
  | unnamed {nameOffset value s' e} : s.next = (.ok (some (.property nameOffset value)), s') →
      b.nameAt nameOffset.toNat = .error e → Stops b depth nested s (.error e)

variable {b : Blob} {depth nested nested' : Nat} {s s' : Stream}
  {r : Except Error (Option Stream)}

theorem walkFrom_of_stops (h : b.Stops depth nested s r) :
    ∃ told, told.filterMap Event.offset? = [s.offset] ∧
      ∀ seen, b.walkFrom depth nested s seen = (r, told ++ seen) := by
  cases h with
  | unreadable h => exact ⟨[.read s.offset], rfl, fun seen => walkFrom_error h⟩
  | endOfTree h0 h =>
    refine ⟨[.notice .treeEnded, .read s.offset], rfl, fun seen => ?_⟩
    rw [walkFrom_endOfTree h, if_pos h0]
    rfl
  | insideNode h0 h =>
    refine ⟨[.read s.offset], rfl, fun seen => ?_⟩
    rw [walkFrom_endOfTree h, if_neg h0]
    rfl
  | endOfLevel hd hn h =>
    subst hn
    refine ⟨[.read s.offset], rfl, fun seen => ?_⟩
    rw [walkFrom_endNode_zero h, if_neg hd]
    rfl
  | unopened hd hn h =>
    subst hn
    refine ⟨[.read s.offset], rfl, fun seen => ?_⟩
    rw [walkFrom_endNode_zero h, if_pos hd]
    rfl
  | unnamed h hn => exact ⟨[.read s.offset], rfl, fun seen => walkFrom_property_error h hn⟩

/-- Each token that is passed is one step of the walk, which keeps the count of `openBehind`. -/
theorem walkFrom_of_passes (b : Blob) (depth : Nat) : ∀ (ts : List Token) {nested nested' : Nat}
    {s s' : Stream}, s.Passes ts s' → Token.openBehind nested ts = some nested' →
      Token.AllNamed b.stringsBlock ts →
        ∃ told, told.filterMap Event.offset? = (Stream.places s.offset ts).reverse ∧
          ∀ seen, b.walkFrom depth nested s seen = b.walkFrom depth nested' s' (told ++ seen)
  | [], nested, nested', s, s', hp, ho, hn => by
    obtain rfl : s' = s := hp
    obtain rfl : nested = nested' := Option.some.inj ho
    exact ⟨[], rfl, fun _ => rfl⟩
  | t :: ts, nested, nested', s, s', ⟨s₁, h, hp⟩, ho, hn => by
    obtain ⟨ht, hn⟩ := Token.allNamed_cons_iff.1 hn
    have hs₁ : s₁.offset = s.offset + t.size := Stream.offset_of_next h
    have hstep {n : Nat} (l : List Event) (ho : Token.openBehind n ts = some nested')
        (hl : l.filterMap Event.offset? = [s.offset])
        (hw : ∀ seen, b.walkFrom depth nested s seen = b.walkFrom depth n s₁ (l ++ seen)) :
        ∃ told, told.filterMap Event.offset? = (Stream.places s.offset (t :: ts)).reverse ∧
          ∀ seen, b.walkFrom depth nested s seen =
            b.walkFrom depth nested' s' (told ++ seen) := by
      obtain ⟨told, htold, hw'⟩ := walkFrom_of_passes b depth ts hp ho hn
      refine ⟨told ++ l, ?_, fun seen => ?_⟩
      · rw [List.filterMap_append, htold, hl, Stream.places, List.reverse_cons, hs₁]
      · rw [hw, hw', List.append_assoc]
    cases t with
    | beginNode name =>
      exact hstep [.notice (.nodeOpened (depth + nested) name), .read s.offset] ho rfl
        fun seen => walkFrom_beginNode h
    | endNode =>
      cases nested with
      | zero => cases ho
      | succ nested =>
        exact hstep [.notice (.nodeClosed (depth + nested)), .read s.offset] ho rfl
          fun seen => walkFrom_endNode_succ h
    | property nameOffset value =>
      obtain ⟨name, hname⟩ := ht
      exact hstep [.notice (.propertyPassed (depth + nested) name value.length), .read s.offset]
        ho rfl fun seen => walkFrom_property h (nameAt_eq_ok_iff.2 hname)
    | nop => exact hstep [.read s.offset] ho rfl fun seen => walkFrom_nop h

theorem exists_stops (b : Blob) (depth nested : Nat) (s : Stream) :
    ∃ ts nested' s' r, s.Passes ts s' ∧ Token.openBehind nested ts = some nested' ∧
      Token.AllNamed b.stringsBlock ts ∧ b.Stops depth nested' s' r := by
  rcases h : s.next with ⟨e | _ | t, s₁⟩
  · exact ⟨[], nested, s, _, rfl, rfl, Token.allNamed_nil, .unreadable h⟩
  · by_cases h0 : depth = 0 ∧ nested = 0
    · exact ⟨[], nested, s, _, rfl, rfl, Token.allNamed_nil, .endOfTree h0 h⟩
    · exact ⟨[], nested, s, _, rfl, rfl, Token.allNamed_nil, .insideNode h0 h⟩
  · have hlt := Stream.length_of_next h
    have hstep {n : Nat} (ho : ∀ ts, Token.openBehind nested (t :: ts) = Token.openBehind n ts)
        (ht : t.Named b.stringsBlock) :
        ∃ ts nested' s' r, s.Passes ts s' ∧ Token.openBehind nested ts = some nested' ∧
          Token.AllNamed b.stringsBlock ts ∧ b.Stops depth nested' s' r := by
      obtain ⟨ts, nested', s', r, hp, hb, hn, hs⟩ := exists_stops b depth n s₁
      exact ⟨t :: ts, nested', s', r, ⟨s₁, h, hp⟩, (ho ts).trans hb,
        Token.allNamed_cons_iff.2 ⟨ht, hn⟩, hs⟩
    cases t with
    | beginNode name => exact hstep (fun _ => rfl) trivial
    | endNode =>
      cases nested with
      | zero =>
        by_cases hd : depth = 0
        · exact ⟨[], 0, s, _, rfl, rfl, Token.allNamed_nil, .unopened hd rfl h⟩
        · exact ⟨[], 0, s, _, rfl, rfl, Token.allNamed_nil, .endOfLevel hd rfl h⟩
      | succ nested => exact hstep (fun _ => rfl) trivial
    | property nameOffset value =>
      rcases hn : b.nameAt nameOffset.toNat with e | name
      · exact ⟨[], nested, s, _, rfl, rfl, Token.allNamed_nil, .unnamed h hn⟩
      · exact hstep (fun _ => rfl) ⟨name, nameAt_eq_ok_iff.1 hn⟩
    | nop => exact hstep (fun _ => rfl) trivial
termination_by s.rest.length

/-- A walk answers what is answered where it stops. -/
theorem walkFrom_eq_iff {seen : List Event} : (b.walkFrom depth nested s seen).1 = r ↔
    ∃ ts nested' s', s.Passes ts s' ∧ Token.openBehind nested ts = some nested' ∧
      Token.AllNamed b.stringsBlock ts ∧ b.Stops depth nested' s' r := by
  have hrun : ∀ ts nested' s' r, s.Passes ts s' → Token.openBehind nested ts = some nested' →
      Token.AllNamed b.stringsBlock ts → b.Stops depth nested' s' r →
        (b.walkFrom depth nested s seen).1 = r := by
    intro ts nested' s' r hp ho hn hs
    obtain ⟨told, -, hw⟩ := walkFrom_of_passes b depth ts hp ho hn
    obtain ⟨told', -, hw'⟩ := walkFrom_of_stops hs
    rw [hw, hw']
  constructor
  · rintro rfl
    obtain ⟨ts, nested', s', r, hp, ho, hn, hs⟩ := exists_stops b depth nested s
    exact ⟨ts, nested', s', hp, ho, hn, hrun _ _ _ _ hp ho hn hs ▸ hs⟩
  · rintro ⟨ts, nested', s', hp, ho, hn, hs⟩
    exact hrun _ _ _ _ hp ho hn hs

end Blob

end Devicetree
