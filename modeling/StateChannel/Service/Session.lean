import StateChannel.Service

/-!
# Sessions with a service

A session processes requests one after the other. A request may wait for a version other than the
one it knows; it is answered at once if there is one, and otherwise after the first update that
changes something.
-/

namespace StateChannel

/-- A request that waits for a version other than `known`. -/
structure Waiter where
  /-- How many requests waited before this one. -/
  ticket : Nat
  known : UInt64
deriving DecidableEq

/-- A service with the requests that wait for a change. -/
structure Session (State : Type) where
  service : Service State
  /-- The waiting requests in order. -/
  waiting : List Waiter := []
  /-- How many requests have waited so far. -/
  tickets : Nat := 0

/-- What can be asked of a service. -/
inductive Request
  | update (u : Update)
  /-- An encoded proof that a player sent for an epoch. -/
  | encoded (e : EpochId) (b : Bytes)
  | snapshot
  | wait (known : UInt64)
deriving DecidableEq

/-- How a request is answered. -/
inductive Answer
  /-- Whether an update changed something, or why it could not be read. -/
  | update (result : Except Rejection Bool)
  | snapshot (view : Except Violation Snapshot)
  /-- The version for the request with a ticket, if there is another one than it knows. -/
  | wait (ticket : Nat) (version : Option UInt64)

namespace Session

variable {State : Type}

/-- Answers the waiting requests that know another version than the current one. -/
def wake (s : Session State) : List (Nat × UInt64) × Session State :=
  let (pending, woken) := s.waiting.partition fun w => (s.service.changedFrom? w.known).isNone
  (woken.map fun w => (w.ticket, s.service.version), { s with waiting := pending })

/-- The answer to a request and the session after it. -/
def answer (s : Session State) : Request → Except Violation (Answer × Session State)
  | .update u => do
    let (changed, service) ← s.service.apply u
    return (.update (.ok changed), { s with service })
  | .encoded e b => do
    let (result, service) ← s.service.applyEncoded e b
    return (.update result, { s with service })
  | .snapshot => .ok (.snapshot s.service.snapshot, s)
  | .wait known =>
    let version := s.service.changedFrom? known
    let waiter := { ticket := s.tickets, known }
    let waiting := if version.isNone then s.waiting ++ [waiter] else s.waiting
    .ok (.wait s.tickets version, { s with waiting, tickets := s.tickets + 1 })

/-- The answer to a request, the waiting requests that are answered after it, and the session then.
-/
def step (s : Session State) (r : Request) :
    Except Violation (Answer × List (Nat × UInt64) × Session State) := do
  let (answer, s) ← s.answer r
  return (answer, s.wake)

/-- The answers to requests in order, each with the waiting requests that are answered after it, and
the session then. -/
def run (s : Session State) :
    List Request → Except Violation (List (Answer × List (Nat × UInt64)) × Session State)
  | [] => .ok ([], s)
  | r :: rs => do
    let (answer, woken, s) ← s.step r
    let (answers, s) ← s.run rs
    return ((answer, woken) :: answers, s)

end Session

end StateChannel
