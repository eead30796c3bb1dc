import StateChannel.Config
import StateChannel.Snapshot
import StateChannel.Wire.Proof

/-!
# The channel service

A service tracks one channel and counts its changes: every update that changes the current epoch or
its state raises the version by one.
-/

namespace StateChannel

/-- A tracked channel with the number of its changes. -/
structure Service (State : Type) where
  config : Config
  channel : Channel State
  tracker : Tracker State
  version : UInt64 := 0

namespace Service

variable {State : Type}

/-- The service of a channel that nothing has been confirmed for. -/
def new (config : Config) (id : ChannelId) (rules : GameRules State) (recover : SignatureScheme) :
    Except Violation (Service State) := do
  return {
    config
    channel := { id, game := config.gameId, rules, recover }
    tracker := ← Tracker.new State config.queueCapacity.toNat }

/-- The service after an update, which raises the version if it changed something. -/
def settle (s : Service State) (changed : Bool) (tracker : Tracker State) : Service State :=
  { s with tracker, version := if changed then s.version + 1 else s.version }

/-- Processes an update and says whether something changed. -/
def apply (s : Service State) (u : Update) : Except Violation (Bool × Service State) := do
  let (changed, tracker) ← s.tracker.apply s.channel u
  return (changed, s.settle changed tracker)

/-- Processes an encoded proof that a player sent, if the bytes decode, and says whether something
changed. -/
def applyEncoded (s : Service State) (e : EpochId) (b : Bytes) :
    Except Violation (Except Rejection Bool × Service State) :=
  match StateProof.decode s.config.maxProofBytes b with
  | .error cause => .ok (.error (.undecodable cause.message), s)
  | .ok p => do
    let (changed, s) ← s.apply (.offChain e p)
    return (.ok changed, s)

/-- The snapshot of the channel. -/
def snapshot (s : Service State) : Except Violation Snapshot :=
  s.tracker.snapshot s.channel

/-- The version, if it is another one than the version already known. -/
def changedFrom? (s : Service State) (known : UInt64) : Option UInt64 :=
  if s.version = known then none else some s.version

end Service

end StateChannel
