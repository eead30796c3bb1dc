import StateChannel.EpochId
import StateChannel.StateProof
import StateChannel.Violation

/-!
# The queue of early updates

Proofs for an epoch that is not known yet wait until it is. The number of waiting proofs is bounded
over all epochs: a full queue makes room for a proof by dropping all proofs of other epochs, and if
it is still full, the oldest proof of the same epoch. The queue keeps its size and checks it against
what it holds.
-/

namespace StateChannel

/-- A bounded queue of proofs for each epoch. -/
structure UpdateQueue where
  /-- How many proofs may wait. -/
  capacity : Nat
  /-- The proofs that wait for each epoch, in order of arrival. -/
  pending : EpochMap (List StateProof) := ∅
  /-- How many proofs wait. -/
  size : Nat := 0
deriving DecidableEq

namespace UpdateQueue

/-- The capacity of a queue unless another one is asked for. -/
def defaultCapacity : Nat := 100

/-- An empty queue, which has to have room for a proof. -/
def new (capacity : Nat) : Except Violation UpdateQueue := do
  Violation.ensure (0 < capacity) .zeroCapacity
  return { capacity }

/-- Whether no proof waits. -/
def isEmpty (q : UpdateQueue) : Bool :=
  q.size = 0

/-- The proofs that wait for an epoch. -/
def waiting (q : UpdateQueue) (e : EpochId) : List StateProof :=
  q.pending[e]?.getD []

/-- How many proofs wait for an epoch. -/
def pendingFor (q : UpdateQueue) (e : EpochId) : Nat :=
  (q.waiting e).length

/-- Drops the proofs of all epochs but one. -/
def dropOthers (q : UpdateQueue) (e : EpochId) : Except Violation UpdateQueue := do
  let others := q.pending.toList.filter (·.1 ≠ e)
  let dropped := others.foldl (fun n (_, proofs) => n + proofs.length) 0
  Violation.ensure (dropped ≤ q.size)
    (.queueAccounting s!"dropped {dropped} proofs with total size {q.size}")
  return { q with pending := q.pending.filter fun f _ => f = e, size := q.size - dropped }

/-- Drops the oldest proof of an epoch, the only one with proofs in the queue. -/
def dropOldest (q : UpdateQueue) (e : EpochId) : Except Violation UpdateQueue := do
  Violation.ensure (q.pending.contains e && q.pendingFor e = q.size)
    (.queueAccounting s!"full queue does not consist only of reinit {e.hex}")
  return { q with pending := q.pending.insert e (q.waiting e).tail, size := q.size - 1 }

/-- Adds a proof for an epoch after making room for it. -/
def insert (q : UpdateQueue) (e : EpochId) (p : StateProof) : Except Violation UpdateQueue := do
  let q ← if q.size = q.capacity then q.dropOthers e else pure q
  let q ← if q.size = q.capacity then q.dropOldest e else pure q
  Violation.ensure (q.size < q.capacity)
    (.queueAccounting s!"size {q.size} not below capacity {q.capacity} after eviction")
  return { q with pending := q.pending.insert e (q.waiting e ++ [p]), size := q.size + 1 }

/-- Takes out the proofs of an epoch in order of arrival. -/
def extract (q : UpdateQueue) (e : EpochId) : Except Violation (List StateProof × UpdateQueue) := do
  let proofs := q.waiting e
  Violation.ensure (proofs.length ≤ q.size)
    (.queueAccounting s!"extracting {proofs.length} proofs with total size {q.size}")
  return (proofs, { q with pending := q.pending.erase e, size := q.size - proofs.length })

end UpdateQueue

end StateChannel
