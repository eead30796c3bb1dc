import StateChannel.ChannelId
import StateChannel.Config
import StateChannel.Json.Parser
import StateChannel.Json.Record
import StateChannel.Metadata

/-!
# JSON documents

Configurations, identifiers, versions, metadata and proofs are stored as JSON documents. Byte
strings are arrays of numbers, and a record is an object of its fields.
-/

namespace StateChannel

namespace ChannelId

/-- The document of a channel identifier. -/
def toJson (id : ChannelId) : Json :=
  .ofBytes id.bytes

/-- The channel identifier that a document holds. -/
def ofJson? (v : Json) : Option ChannelId :=
  v.bytes? >>= ofBytes?

end ChannelId

namespace EpochId

/-- The document of an epoch identifier. -/
def toJson (id : EpochId) : Json :=
  .ofBytes id.bytes

/-- The epoch identifier that a document holds. -/
def ofJson? (v : Json) : Option EpochId :=
  v.bytes?.map mk

end EpochId

namespace ProtocolVersion

/-- The name of a version in documents. -/
def tag : ProtocolVersion → String
  | baseline => "Original"
  | extended => "Extended"

/-- The version with a name. -/
def ofTag? (s : String) : Option ProtocolVersion :=
  if s = baseline.tag then some baseline else if s = extended.tag then some extended else none

/-- The document of a version. -/
def toJson (v : ProtocolVersion) : Json :=
  .ofText v.tag

/-- The version that a document holds: its name, or an object whose only member has that name and no
content. -/
def ofJson? : Json → Option ProtocolVersion
  | .string spelling => (Json.string spelling).text? >>= ofTag?
  | .object [(key, .null)] => (Json.string key).text? >>= ofTag?
  | _ => none

end ProtocolVersion

namespace Participant

/-- The document of a participant. -/
def toJson (p : Participant) : Json :=
  .ofFields [("name", .ofText p.name), ("address", .ofText p.address)]

/-- The participant that a document holds. -/
def ofJson? (v : Json) : Option Participant := do
  match ← v.record? ["name", "address"] with
  | [name, address] => return { name := ← name.text?, address := ← address.text? }
  | _ => none

end Participant

namespace Metadata

/-- The document of an epoch's metadata. -/
def toJson (m : Metadata) : Json :=
  .ofFields
    [("participants", .array (m.participants.map (·.toJson))), ("reinit", m.epoch.toJson),
      ("proto_version", m.version.toJson)]

/-- The metadata that a document holds. -/
def ofJson? (v : Json) : Option Metadata := do
  match ← v.record? ["participants", "reinit", "proto_version"] with
  | [participants, epoch, version] =>
    return {
      participants := ← participants.list? Participant.ofJson?
      epoch := ← EpochId.ofJson? epoch
      version := ← ProtocolVersion.ofJson? version }
  | _ => none

end Metadata

namespace SignedState

/-- The document of a signed state. -/
def toJson (s : SignedState) : Json :=
  .ofFields [("data", .ofBytes s.data), ("signatures", .array (s.signatures.map .ofBytes))]

/-- The signed state that a document holds. -/
def ofJson? (v : Json) : Option SignedState := do
  match ← v.record? ["data", "signatures"] with
  | [data, signatures] =>
    return { data := ← data.bytes?, signatures := ← signatures.list? Json.bytes? }
  | _ => none

end SignedState

namespace Transition

/-- The document of a transition. -/
def toJson (t : Transition) : Json :=
  .ofFields [("board_move", .ofBytes t.move), ("new_state", t.state.toJson)]

/-- The transition that a document holds. -/
def ofJson? (v : Json) : Option Transition := do
  match ← v.record? ["board_move", "new_state"] with
  | [move, state] => return { move := ← move.bytes?, state := ← SignedState.ofJson? state }
  | _ => none

end Transition

namespace StateProof

/-- The document of a proof. -/
def toJson (p : StateProof) : Json :=
  .ofFields
    [("initial_state", p.initial.toJson), ("transitions", .array (p.transitions.map (·.toJson)))]

/-- The proof that a document holds. -/
def ofJson? (v : Json) : Option StateProof := do
  match ← v.record? ["initial_state", "transitions"] with
  | [initial, transitions] =>
    return {
      initial := ← SignedState.ofJson? initial
      transitions := ← transitions.list? Transition.ofJson? }
  | _ => none

end StateProof

namespace Config

/-- The document of a configuration. -/
def toJson (c : Config) : Json :=
  .ofFields
    [("game_id", .ofText c.gameId), ("update_queue_capacity", .ofNat c.queueCapacity.toNat),
      ("max_proof_bytes", .ofNat c.maxProofBytes.toNat)]

/-- The configuration that a document holds. -/
def ofJson? (v : Json) : Option Config := do
  match ← v.record? ["game_id", "update_queue_capacity", "max_proof_bytes"] with
  | [gameId, queueCapacity, maxProofBytes] =>
    return {
      gameId := ← gameId.text?
      queueCapacity := ← queueCapacity.uint64?
      maxProofBytes := ← maxProofBytes.uint64? }
  | _ => none

end Config

end StateChannel
