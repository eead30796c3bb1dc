import StateChannel.Rules
import StateChannel.Violation

/-!
# Epochs

The metadata and the founding state of an epoch are fixed when it becomes known. The proof and the
board state that it leads to move on with fresher updates, and the highest turn count that was
confirmed on-chain never decreases.
-/

namespace StateChannel

/-- What is known about an epoch. -/
structure Epoch (State : Type) where
  /-- The instance of its metadata, which the latest board state is to refer to. -/
  metadata : Metadata.Instance
  /-- The board state that the epoch started from on-chain. -/
  founding : Bytes
  /-- The latest proof. -/
  proof : StateProof
  /-- The board state that the latest proof is evidence for. -/
  latest : State
  /-- The highest turn count confirmed on-chain. -/
  confirmed : UInt32
deriving DecidableEq

namespace Epoch

variable {State : Type} (rules : GameRules State)

/-- An epoch that becomes known through an on-chain proof. -/
def found (metadata : Metadata.Instance) (founding : Bytes) (proof : StateProof)
    (latest : State) : Epoch State :=
  { metadata, founding, proof, latest, confirmed := rules.turn latest }

/-- The turn count of the latest board state. -/
def turn (e : Epoch State) : UInt32 :=
  rules.turn e.latest

/-- Puts a proof and the board state it leads to in place of the latest ones. -/
def replaceLatest (e : Epoch State) (proof : StateProof) (latest : State) : Epoch State :=
  { e with proof, latest }

/-- Records a turn count that was confirmed on-chain. -/
def confirm (e : Epoch State) (turn : UInt32) : Epoch State :=
  { e with confirmed := max e.confirmed turn }

/-- Confirming a turn count keeps the higher one. -/
theorem confirmed_confirm (e : Epoch State) (turn : UInt32) :
    (e.confirm turn).confirmed = if e.confirmed ≤ turn then turn else e.confirmed :=
  rfl

/-- Confirming a turn count leaves the latest state as it is. -/
@[simp] theorem turn_confirm (e : Epoch State) (turn : UInt32) :
    (e.confirm turn).turn rules = e.turn rules :=
  rfl

/-- Whether the latest board state refers to the very instance of metadata that the epoch has. -/
def sharesMetadata (e : Epoch State) : Bool :=
  rules.metadata e.latest = e.metadata

/-- Metadata and founding state of a known epoch do not change. -/
def checkFounding (e : Epoch State) (metadata : Metadata) (founding : Bytes) :
    Except Violation Unit := do
  Violation.ensure (e.metadata.toMetadata = metadata) (.metadataChanged metadata.epoch.hex)
  Violation.ensure (e.founding = founding) (.foundingStateChanged metadata.epoch.hex)

end Epoch

end StateChannel
