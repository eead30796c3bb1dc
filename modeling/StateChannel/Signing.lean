import StateChannel.Rules
import StateChannel.Sha256

/-!
# Signatures on board states

A signature covers the digest of a board state together with the game, the channel, the epoch and a
topic, separated by zero bytes.
-/

namespace StateChannel

namespace Signing

/-- The topic of signatures on board states. -/
def stateTopic : String := "state"

/-- The bytes that a signature on `data` covers. -/
def content (game : String) (channel : ChannelId) (epoch : EpochId) (topic : String)
    (data : Bytes) : Bytes :=
  List.intercalate [0]
    [Bytes.ofText game, Bytes.ofText channel.hex, Bytes.ofText epoch.hex, Bytes.ofText topic, data]

/-- The message that is signed for `data`: the written digest of the bytes to cover. -/
def message (game : String) (channel : ChannelId) (epoch : EpochId) (topic : String)
    (data : Bytes) : String :=
  Hex.encode (Sha256.digest (content game channel epoch topic data))

end Signing

namespace Channel

variable {State : Type} (ch : Channel State)

/-- The seats whose address made one of the signatures on a state under a topic. -/
def signers (m : Metadata) (topic : String) (s : SignedState) : Seats :=
  let message := Signing.message ch.game ch.id m.epoch topic s.data
  let addresses := s.signatures.filterMap (ch.recover message)
  .ofList (addresses.flatMap m.seatsOf)

/-- The seats that signed a board state as such. -/
def stateSigners (m : Metadata) (s : SignedState) : Seats :=
  ch.signers m Signing.stateTopic s

end Channel

end StateChannel
