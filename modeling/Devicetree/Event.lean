import Devicetree.Error

/-!
# Events

Operations say what they do on the way to their outcome: where they read a token, and what there is
to tell a person who follows the boot. `Observed` is an outcome with these events, in order. It is
a monad that puts the events of one step before those of the next; `outcome_bind` says that the
outcome of a sequence depends on outcomes alone.
-/

namespace Devicetree

inductive Notice where
  /-- A walk entered a node, at this depth. -/
  | nodeOpened (depth : Nat) (name : Bytes)
  /-- A walk left the node that it had entered at this depth. -/
  | nodeClosed (depth : Nat)
  | propertyPassed (depth : Nat) (name : Bytes) (size : Nat)
  | treeEnded
  /-- A lookup found a node, whose body starts at this offset. -/
  | nodeFound (name : Bytes) (body : Nat)
  /-- A lookup goes on inside a node. -/
  | nodeEntered (name : Bytes)
  | propertyFound (name : Bytes) (size : Nat)
  /-- A lookup came to the end of a level where nothing matches the segment. -/
  | nothingFound (segment : Bytes)
  | cellCounts (addressCells sizeCells : UInt32)
  | blobOpened (totalSize version lastCompatible : UInt32)
  /-- There is memory from `start` to before `stop`. -/
  | memoryFound (start stop : Nat)
  | halted (e : Error)
  deriving DecidableEq, Repr

inductive Event where
  /-- A token is read at this offset of the structure block. -/
  | read (offset : Nat)
  | notice (n : Notice)
  deriving DecidableEq, Repr

def Event.notice? : Event → Option Notice
  | read _ => none
  | notice n => some n

/-- The place where an event reads a token. -/
def Event.offset? : Event → Option Nat
  | read offset => some offset
  | notice _ => none

/-- The outcome of an operation, with the events on the way to it. -/
structure Observed (α : Type) where
  outcome : Except Error α
  events : List Event

namespace Observed

variable {α β : Type}

/-- An outcome without events. -/
def ofOutcome (r : Except Error α) : Observed α :=
  ⟨r, []⟩

/-- An outcome with the events that a loop has gathered, the last one first. -/
def ofSeen (r : Except Error α × List Event) : Observed α :=
  ⟨r.1, r.2.reverse⟩

def tell (n : Notice) : Observed Unit :=
  ⟨.ok (), [.notice n]⟩

instance : Monad Observed where
  pure a := ⟨.ok a, []⟩
  bind x f :=
    match x.outcome with
    | .ok a => ⟨(f a).outcome, x.events ++ (f a).events⟩
    | .error e => ⟨.error e, x.events⟩

instance : MonadLift (Except Error) Observed := ⟨ofOutcome⟩

def notices (x : Observed α) : List Notice :=
  x.events.filterMap Event.notice?

/-- The offsets at which tokens were read, in order. -/
def offsets (x : Observed α) : List Nat :=
  x.events.filterMap Event.offset?

@[simp]
theorem outcome_pure (a : α) : (pure a : Observed α).outcome = .ok a := rfl

@[simp]
theorem outcome_ofOutcome (r : Except Error α) : (ofOutcome r).outcome = r := rfl

@[simp]
theorem outcome_ofSeen (r : Except Error α × List Event) : (ofSeen r).outcome = r.1 := rfl

@[simp]
theorem outcome_liftM (r : Except Error α) : (liftM r : Observed α).outcome = r := rfl

@[simp]
theorem outcome_tell (n : Notice) : (tell n).outcome = .ok () := rfl

@[simp]
theorem outcome_bind (x : Observed α) (f : α → Observed β) :
    (x >>= f).outcome = x.outcome >>= fun a => (f a).outcome := by
  simp only [bind, Except.bind]
  split <;> simp_all

theorem bind_of_ok {x : Observed α} {a : α} (h : x.outcome = .ok a) (f : α → Observed β) :
    x >>= f = ⟨(f a).outcome, x.events ++ (f a).events⟩ := by
  simp only [bind, h]

theorem bind_of_error {x : Observed α} {e : Error} (h : x.outcome = .error e)
    (f : α → Observed β) : x >>= f = ⟨.error e, x.events⟩ := by
  simp only [bind, h]

instance : LawfulMonad Observed :=
  LawfulMonad.mk' Observed
    (by intro α x; rcases x with ⟨_ | a, events⟩ <;> simp [Functor.map])
    (by intro α β a f; simp [bind, pure])
    (by
      intro α β γ x f g
      rcases x with ⟨_ | a, events⟩
      · simp [bind]
      · simp only [bind]
        split <;> simp_all)

@[simp]
theorem outcome_map (f : α → β) (x : Observed α) : (f <$> x).outcome = f <$> x.outcome := by
  rw [map_eq_pure_bind, outcome_bind]
  cases x.outcome <;> rfl

@[simp]
theorem events_map (f : α → β) (x : Observed α) : (f <$> x).events = x.events := by
  rw [map_eq_pure_bind]
  cases h : x.outcome with
  | error e => rw [bind_of_error h]
  | ok a => simp [bind_of_ok h, pure]

end Observed

end Devicetree
