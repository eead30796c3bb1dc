import StateChannel.UpdateQueue

/-!
# Proofs in order of arrival

The queue of early updates seen as one list of proofs over all epochs, the oldest first, and what
operations do to it.
-/

namespace StateChannel.UpdateQueue

/-- Proofs with their epochs, in order of arrival. -/
abbrev Arrivals := List (EpochId × StateProof)

namespace Arrivals

/-- The proofs for an epoch. -/
def waiting (l : Arrivals) (e : EpochId) : List StateProof :=
  (l.filter (·.1 = e)).map (·.2)

/-- Adds a proof. A list of `capacity` proofs loses those of other epochs, and its first one if it
still has as many. -/
def insert (capacity : Nat) (l : Arrivals) (e : EpochId) (p : StateProof) : Arrivals :=
  let kept := if l.length = capacity then l.filter (·.1 = e) else l
  let room := if kept.length = capacity then kept.tail else kept
  room ++ [(e, p)]

/-- Takes out the proofs for an epoch. -/
def extract (l : Arrivals) (e : EpochId) : List StateProof × Arrivals :=
  (l.waiting e, l.filter (·.1 ≠ e))

end Arrivals

/-- What can be done with a queue. -/
inductive Operation
  | insert (e : EpochId) (p : StateProof)
  | extract (e : EpochId)
deriving DecidableEq

/-- Does an operation and returns the proofs that it takes out. -/
def perform (q : UpdateQueue) : Operation → Except Violation (List StateProof × UpdateQueue)
  | .insert e p => do return ([], ← q.insert e p)
  | .extract e => q.extract e

/-- Does operations in order and returns the proofs that each of them takes out. -/
def run (q : UpdateQueue) :
    List Operation → Except Violation (List (List StateProof) × UpdateQueue)
  | [] => .ok ([], q)
  | op :: ops => do
    let (taken, q) ← q.perform op
    let (later, q) ← q.run ops
    return (taken :: later, q)

namespace Arrivals

/-- What an operation takes out of a list, and the list after it. -/
def perform (capacity : Nat) (l : Arrivals) : Operation → List StateProof × Arrivals
  | .insert e p => ([], l.insert capacity e p)
  | .extract e => l.extract e

/-- What operations in order take out of a list, and the list after them. -/
def run (capacity : Nat) (l : Arrivals) : List Operation → List (List StateProof) × Arrivals
  | [] => ([], l)
  | op :: ops =>
    let (taken, l) := l.perform capacity op
    let (later, l) := run capacity l ops
    (taken :: later, l)

end Arrivals

/-- A queue holds the proofs of a list, those for each epoch in order of arrival. -/
structure Holds (q : UpdateQueue) (l : Arrivals) : Prop where
  size : q.size = l.length
  waiting : ∀ e, q.waiting e = l.waiting e
  pending : ∀ e, e ∈ q.pending → q.waiting e ≠ []

end StateChannel.UpdateQueue
