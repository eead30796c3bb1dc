import StateChannel.ChannelId
import StateChannel.Json.Basic
import StateChannel.Metadata
import StateChannel.StateProof

/-!
# Channels and the rules of their games

Board states and moves are opaque to a channel. What they mean is given by the rules of its game,
and who made a signature by its signature scheme.
-/

namespace StateChannel

/-- The rules of a game whose parsed board states are of type `State`. -/
structure GameRules (State : Type) where
  /-- The board state that bytes encode in an epoch. -/
  parse : ChannelId → Metadata.Instance → Bytes → Option State
  /-- The instance of metadata that a board state refers to. -/
  metadata : State → Metadata.Instance
  /-- How many turns have been played. -/
  turn : State → UInt32
  /-- The seat that is to move, if anybody can. -/
  toMove : State → Option Nat
  /-- Whether bytes encode a given board state. -/
  encodedBy : State → Bytes → Bool
  /-- The encoded board state that a move leads to, if the player to move can make it. -/
  play : State → Bytes → Option Bytes
  /-- The exported form of a board state. -/
  toJson : State → Json
  /-- Whether the rules understand a protocol version. -/
  supports : ProtocolVersion → Bool := (· = .baseline)
  /-- Whether a proof is acceptable in an epoch with the given metadata. -/
  accepts : Metadata → StateProof → Bool := fun m _ => supports m.version

/-- A signature scheme: the address that made a signature on a message, if any did. -/
abbrev SignatureScheme := (message : String) → (signature : Bytes) → Option String

/-- What is fixed about a channel. -/
structure Channel (State : Type) where
  id : ChannelId
  /-- The game that signatures are bound to. -/
  game : String
  rules : GameRules State
  recover : SignatureScheme

end StateChannel
