import StateChannel.Decimal
import StateChannel.UpdateQueue

/-!
# Configuration

What can be chosen about tracking a channel. Each choice can be made by a variable of the
environment; a variable that is not set, is no text, or does not give a usable value leaves the
default in place.
-/

namespace StateChannel

/-- What is chosen about tracking a channel. -/
structure Config where
  /-- The game that signatures are bound to. -/
  gameId : String := "game"
  /-- How many off-chain updates for unknown epochs are kept. -/
  queueCapacity : UInt64 := UInt64.ofNat UpdateQueue.defaultCapacity
  /-- How many bytes an encoded proof may have. -/
  maxProofBytes : UInt64 := 1048576
deriving DecidableEq

namespace Config

/-- Small values for trying things out. -/
def testing : Config where
  gameId := "add"
  queueCapacity := 8
  maxProofBytes := 65536

/-- The choices that the variables of an environment make. -/
def ofEnvironment (lookup : String → Option Bytes) : Config :=
  let defaults : Config := {}
  let text? (name : String) : Option String := lookup name >>= Bytes.text?
  let number? (name : String) : Option UInt64 := text? name >>= fun s => Decimal.uint64? s.toList
  { gameId := (text? "QC_CHANNEL_GAME_ID").getD defaults.gameId
    queueCapacity :=
      ((number? "QC_CHANNEL_UPDATE_QUEUE_SIZE").filter (0 < ·)).getD defaults.queueCapacity
    maxProofBytes := (number? "QC_CHANNEL_MAX_PROOF_BYTES").getD defaults.maxProofBytes }

end Config

end StateChannel
