import StateChannel.Tracker

/-!
# Reachable trackers

The trackers that updates can lead to, and what holds for each epoch in them.
-/

namespace StateChannel

variable {State : Type} (ch : Channel State)

/-- A tracker that updates lead to from a new one of the given capacity. An off-chain update may be
processed with or without saying why it was rejected. -/
inductive Tracker.Reachable (capacity : Nat) : Tracker State → Prop where
  | new {t} :
    Tracker.new State capacity = .ok t →
    Reachable capacity t
  | apply {t t' u changed} :
    Reachable capacity t →
    t.apply ch u = .ok (changed, t') →
    Reachable capacity t'
  | tryReceive {t t' e p outcome} :
    Reachable capacity t →
    t.tryReceive ch e p = .ok (outcome, t') →
    Reachable capacity t'

/-- An epoch stores, under its own identifier, an acceptable proof that holds and the board state
that the proof ends in, and no turn is confirmed that is not known. -/
structure Epoch.Coherent (id : EpochId) (e : Epoch State) : Prop where
  epoch : e.metadata.epoch = id
  accepted : ch.rules.accepts e.metadata e.proof
  verified : ch.verify? e.metadata e.founding e.proof = some e.proof.latest
  parsed : ch.rules.parse ch.id e.metadata e.proof.latest = some e.latest
  confirmed : e.confirmed ≤ e.turn ch.rules

end StateChannel
