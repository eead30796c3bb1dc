import StateChannel.Tracker

/-!
# Histories of trackers

Which updates led to a tracker, and what they brought: the epochs that they confirm on-chain, the
proofs that they send for an epoch, and which of these had to wait in the queue.
-/

namespace StateChannel

namespace Update

/-- The epochs that updates confirm on-chain, in order. -/
def confirmedEpochs (xs : List Update) : List EpochId :=
  xs.filterMap fun
    | onChain u => some u.metadata.epoch
    | offChain .. => none

/-- The proofs that players send for an epoch, in order. -/
def proofsFor (xs : List Update) (e : EpochId) : List StateProof :=
  xs.filterMap fun
    | onChain _ => none
    | offChain f p => if f = e then some p else none

end Update

/-- A proof that is put in the queue. -/
structure Arrival where
  epoch : EpochId
  proof : StateProof
  /-- Whether the queue is full when the proof comes in. -/
  full : Bool
deriving DecidableEq

/-- The proofs for an epoch among those that are put in the queue, in order. -/
def Arrival.proofsFor (log : List Arrival) (e : EpochId) : List StateProof :=
  (log.filter (·.epoch = e)).map (·.proof)

namespace Tracker

variable {State : Type} (ch : Channel State)

/-- The tracker that updates lead to, with the updates in order. An off-chain update may be
processed with or without saying why it was rejected. -/
inductive History (start : Tracker State) : List Update → Tracker State → Prop where
  | start :
    History start [] start
  | apply {xs t t' x changed} :
    History start xs t →
    t.apply ch x = .ok (changed, t') →
    History start (xs ++ [x]) t'
  | tryReceive {xs t t' e p outcome} :
    History start xs t →
    t.tryReceive ch e p = .ok (outcome, t') →
    History start (xs ++ [.offChain e p]) t'

/-- In the course of updates a proof is processed for a known epoch: it is sent while the epoch is
known, or it waits for the epoch when that becomes known. -/
inductive Handled (start : Tracker State) (xs : List Update) (e : EpochId) (p : StateProof) :
    Prop where
  | sent {before after t} :
    xs = before ++ .offChain e p :: after →
    History ch start before t →
    e ∈ t.epochs →
    Handled start xs e p
  | replayed {before u after t} :
    xs = before ++ .onChain u :: after →
    History ch start before t →
    u.metadata.epoch = e →
    e ∉ t.epochs →
    p ∈ t.queue.waiting e →
    Handled start xs e p

/-- The proof that an update puts in the queue, which it does if the epoch is unknown. -/
def arrival? (t : Tracker State) : Update → Option Arrival
  | .onChain _ => none
  | .offChain e p =>
    if e ∈ t.epochs then none else some ⟨e, p, t.queue.size = t.queue.capacity⟩

/-- The proofs that updates put in the queue, in order. -/
def arrivals (t : Tracker State) : List Update → List Arrival
  | [] => []
  | x :: xs =>
    match t.apply ch x with
    | .error _ => []
    | .ok (_, t') => (t.arrival? x).toList ++ t'.arrivals xs

end Tracker

end StateChannel
