import StateChannel.Epoch
import StateChannel.Rejection
import StateChannel.UpdateQueue
import StateChannel.Verification

/-!
# Tracking the state of a channel

A tracker reconciles what is confirmed on-chain with what players send each other. On-chain updates
are trusted and select the current epoch. Off-chain updates are checked and can only move a known
epoch on to a higher turn count; those for an unknown epoch wait until it is confirmed. No epoch is
ever forgotten, since the chain may switch back to it.
-/

namespace StateChannel

/-- The best known state of a channel over all its epochs. -/
structure Tracker (State : Type) where
  /-- The current epoch, once there is one. -/
  selected : Option EpochId := none
  epochs : EpochMap (Epoch State) := ∅
  /-- The off-chain updates for unknown epochs. -/
  queue : UpdateQueue
deriving DecidableEq

/-- A state confirmed on-chain, in an epoch with the given metadata and founding state. -/
structure OnChainUpdate where
  metadata : Metadata
  founding : Bytes
  proof : StateProof
deriving DecidableEq

/-- What a tracker is told. -/
inductive Update
  | onChain (u : OnChainUpdate)
  /-- A proof that a player sent for an epoch. -/
  | offChain (e : EpochId) (p : StateProof)
deriving DecidableEq

namespace Tracker

/-- The tracker of a channel that nothing has been confirmed for. -/
def new (State : Type) (capacity : Nat) : Except Violation (Tracker State) := do
  return { queue := ← UpdateQueue.new capacity }

variable {State : Type} (ch : Channel State)

/-- Processes a proof that a player sent for an epoch, and says whether the proof was rejected or,
if it was not, whether the epoch is the current one. -/
def tryReceive (t : Tracker State) (e : EpochId) (p : StateProof) :
    Except Violation (Except Rejection Bool × Tracker State) :=
  match t.epochs[e]? with
  | none => do
    let queue ← t.queue.insert e p
    return (.error (.unknownEpoch e.hex), { t with queue })
  | some known =>
    match ch.examine known.metadata known.founding p with
    | .error .unsupportedVersion => .ok (.error .unsupportedVersion, t)
    | .error .invalid => .ok (.error .invalidProof, t)
    | .error .unparsable => .error (.unparsableState e.hex)
    | .ok latest =>
      match Rejection.checkFresher (known.turn ch.rules) (ch.rules.turn latest) with
      | .error r => .ok (.error r, t)
      | .ok () =>
        .ok (.ok (t.selected = some e),
          { t with epochs := t.epochs.insert e (known.replaceLatest p latest) })

/-- Processes a proof that a player sent for an epoch, and says whether the state of the current
epoch changed. -/
def receive (t : Tracker State) (e : EpochId) (p : StateProof) :
    Except Violation (Bool × Tracker State) := do
  let (outcome, t) ← t.tryReceive ch e p
  return (outcome.toOption.getD false, t)

/-- Processes proofs for an epoch in order. -/
def replay (t : Tracker State) (e : EpochId) (ps : List StateProof) :
    Except Violation (Tracker State) :=
  ps.foldlM (fun t p => (t.receive ch e p).map (·.2)) t

/-- The instance of metadata that an on-chain update is examined with: the one of its epoch if that
has the same content, so that the board state can be kept there, and otherwise a new one. -/
def instanceFor (t : Tracker State) (m : Metadata) : Metadata.Instance :=
  match t.epochs[m.epoch]? with
  | none => m.first
  | some known =>
    if known.metadata.toMetadata = m then known.metadata else m.besides known.metadata

/-- The board state that an on-chain update confirms, examined with an instance of its metadata. -/
def examineOnChain (m : Metadata.Instance) (u : OnChainUpdate) : Except Violation State :=
  match ch.examine m u.founding u.proof with
  | .error .unsupportedVersion => .error (.unsupportedVersion u.metadata.epoch.hex)
  | .error .invalid => .error (.invalidProof u.metadata.epoch.hex)
  | .error .unparsable => .error (.unparsableState u.metadata.epoch.hex)
  | .ok latest => .ok latest

/-- Processes an on-chain update, which makes its epoch the current one, and says whether the
current epoch or its state changed. -/
def confirm (t : Tracker State) (u : OnChainUpdate) : Except Violation (Bool × Tracker State) := do
  let e := u.metadata.epoch
  let shared := t.instanceFor u.metadata
  let latest ← examineOnChain ch shared u
  match t.epochs[e]? with
  | none =>
    let founded := Epoch.found ch.rules shared u.founding u.proof latest
    let (waiting, queue) ← t.queue.extract e
    let t : Tracker State := { selected := some e, epochs := t.epochs.insert e founded, queue }
    return (true, ← t.replay ch e waiting)
  | some known =>
    known.checkFounding u.metadata u.founding
    let turn := ch.rules.turn latest
    let known := known.confirm turn
    match Rejection.checkFresher (known.turn ch.rules) turn with
    | .error _ =>
      let moved : Bool := t.selected ≠ some e
      return (moved, { t with selected := some e, epochs := t.epochs.insert e known })
    | .ok () =>
      let known := known.replaceLatest u.proof latest
      return (true, { t with selected := some e, epochs := t.epochs.insert e known })

/-- Processes an update and says whether the current epoch or its state changed. -/
def apply (t : Tracker State) : Update → Except Violation (Bool × Tracker State)
  | .onChain u => t.confirm ch u
  | .offChain e p => t.receive ch e p

/-- Processes updates in order. -/
def run (t : Tracker State) (us : List Update) : Except Violation (Tracker State) :=
  us.foldlM (fun t u => (t.apply ch u).map (·.2)) t

/-- Whether an on-chain update has been processed. -/
def initialised (t : Tracker State) : Bool :=
  t.selected.isSome

/-- The known epochs in order. -/
def known (t : Tracker State) : List EpochId :=
  t.epochs.keys

/-- The current epoch. -/
def current (t : Tracker State) : Except Violation EpochId :=
  match t.selected with
  | none => .error .uninitialised
  | some e => .ok e

/-- What is known about the current epoch. -/
def currentEpoch (t : Tracker State) : Except Violation (Epoch State) := do
  let e ← t.current
  match t.epochs[e]? with
  | none => .error (.missingEpoch e.hex)
  | some known => .ok known

/-- The latest board state of the current epoch, which has to refer to the instance of metadata that
the epoch has. -/
def latest (t : Tracker State) : Except Violation State := do
  let known ← t.currentEpoch
  Violation.ensure (known.sharesMetadata ch.rules) (.metadataNotShared known.metadata.epoch.hex)
  return known.latest

end Tracker

end StateChannel
