import StateChannel.Signing

/-!
# Verification of state proofs

A transition holds if the player to move could make its move, the move leads to the claimed state,
and that player signed it. A proof holds if all its transitions do and its starting state is
trusted: it is the founding state of the epoch, or every seat signed some state of the proof.
-/

namespace StateChannel.Channel

variable {State : Type} (ch : Channel State)

/-- The seats that signed the state after a transition, if the transition holds from the board state
`data`. -/
def transition? (m : Metadata.Instance) (data : Bytes) (t : Transition) : Option Seats := do
  let before ← ch.rules.parse ch.id m data
  let seat ← ch.rules.toMove before
  let result ← ch.rules.play before t.move
  let after ← ch.rules.parse ch.id m result
  let signers := ch.stateSigners m t.state
  if ch.rules.encodedBy after t.state.data && signers.contains seat then some signers else none

/-- The last state of a chain of transitions from the board state `data`, if all of them hold, and
the seats that signed a state of the chain or were in `seats` already. -/
def walk? (m : Metadata.Instance) : Bytes → Seats → List Transition → Option (Bytes × Seats)
  | data, seats, [] => some (data, seats)
  | data, seats, t :: ts => do
    let signers ← ch.transition? m data t
    walk? m t.state.data (seats ∪ signers) ts

/-- The board state that a proof is evidence for, if it holds in the epoch with the given metadata
and founding state. -/
def verify? (m : Metadata.Instance) (founding : Bytes) (p : StateProof) : Option Bytes := do
  let first ← ch.rules.parse ch.id m p.initial.data
  let (last, signers) ← ch.walk? m p.initial.data (ch.stateSigners m p.initial) p.transitions
  if ch.rules.encodedBy first founding || m.seats.all signers.contains then some last else none

/-- Why a proof cannot be used for an epoch. -/
inductive ProofFault
  /-- The rules do not accept the proof for the version of the epoch. -/
  | unsupportedVersion
  /-- The proof does not hold. -/
  | invalid
  /-- The proof holds, but the rules do not parse the state that it ends in. -/
  | unparsable
deriving DecidableEq

/-- The parsed board state that a proof is evidence for. -/
def examine (m : Metadata.Instance) (founding : Bytes) (p : StateProof) :
    Except ProofFault State :=
  if ch.rules.accepts m p then
    match ch.verify? m founding p with
    | none => .error .invalid
    | some data =>
      match ch.rules.parse ch.id m data with
      | none => .error .unparsable
      | some s => .ok s
  else .error .unsupportedVersion

end StateChannel.Channel
