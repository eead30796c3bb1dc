import StateChannel.Service.Session

/-!
# Waiting by subscription

A request that waits subscribes to the version of the service and looks at it. If that is the
version it knows, it looks again only after another one was published. So a waiter would be lost if
it looked before a change that it is not told about; a `Session` lets everyone look at every step.
-/

namespace StateChannel

/-- A waiting request that has subscribed to the version. -/
structure Subscriber extends Waiter where
  /-- How many versions had been published when it looked last. -/
  seen : Nat

/-- A service with the subscribers to its version. -/
structure Subscriptions (State : Type) where
  service : Service State
  /-- How many versions have been published so far. -/
  published : Nat := 0
  /-- The subscribers in order. -/
  subscribers : List Subscriber := []
  /-- How many requests have waited so far. -/
  tickets : Nat := 0

namespace Subscriptions

variable {State : Type}

/-- Publishes the version of the service if an update changed something. -/
def publish (s : Subscriptions State) (changed : Bool) (service : Service State) :
    Subscriptions State :=
  { s with service, published := if changed then s.published + 1 else s.published }

/-- A subscriber looks at the version: it gets another one than it knows, or goes on waiting. -/
def look (s : Subscriptions State) (w : Waiter) : UInt64 ⊕ Subscriber :=
  match s.service.changedFrom? w.known with
  | some version => .inl version
  | none => .inr { w with seen := s.published }

/-- A subscriber looks at the version if another one was published since it looked last. -/
def poll (s : Subscriptions State) (w : Subscriber) : UInt64 ⊕ Subscriber :=
  if w.seen = s.published then .inr w else s.look w.toWaiter

/-- Polls the subscribers in order, and gives the tickets and versions of those that are done. -/
def wake (s : Subscriptions State) : List (Nat × UInt64) × Subscriptions State :=
  (s.subscribers.filterMap fun w => (s.poll w).getLeft?.map (w.ticket, ·),
    { s with subscribers := s.subscribers.filterMap fun w => (s.poll w).getRight? })

/-- The answer to a request and the subscriptions after it. -/
def answer (s : Subscriptions State) :
    Request → Except Violation (Answer × Subscriptions State)
  | .update u => do
    let (changed, service) ← s.service.apply u
    return (.update (.ok changed), s.publish changed service)
  | .encoded e b => do
    let (result, service) ← s.service.applyEncoded e b
    return (.update result, s.publish (result.toOption.getD false) service)
  | .snapshot => .ok (.snapshot s.service.snapshot, s)
  | .wait known =>
    let s' := { s with tickets := s.tickets + 1 }
    match s.look { ticket := s.tickets, known } with
    | .inl version => .ok (.wait s.tickets (some version), s')
    | .inr w => .ok (.wait s.tickets none, { s' with subscribers := s.subscribers ++ [w] })

/-- The answer to a request, the subscribers that are done after it, and the subscriptions then. -/
def step (s : Subscriptions State) (r : Request) :
    Except Violation (Answer × List (Nat × UInt64) × Subscriptions State) := do
  let (answer, s) ← s.answer r
  return (answer, s.wake)

/-- The answers to requests in order, each with the subscribers that are done after it, and the
subscriptions then. -/
def run (s : Subscriptions State) :
    List Request → Except Violation (List (Answer × List (Nat × UInt64)) × Subscriptions State)
  | [] => .ok ([], s)
  | r :: rs => do
    let (answer, woken, s) ← s.step r
    let (answers, s) ← s.run rs
    return ((answer, woken) :: answers, s)

end Subscriptions

end StateChannel
