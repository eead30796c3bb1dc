import StateChannel.Json.Record
import StateChannel.Tracker

/-!
# Snapshots

A snapshot is what is exported about a channel: its name and, once there is a current epoch, the
best known state of that epoch.
-/

namespace StateChannel

/-- The exported form of an epoch's metadata. -/
def Metadata.summary (m : Metadata) : Json :=
  .ofFields
    [("participants",
        .array (m.participants.map fun p =>
          .ofFields [("name", .ofText p.name), ("address", .ofText p.address)])),
      ("reinit", .ofText m.epoch.hex), ("protoversion", .ofText m.version.name)]

/-- What is exported about the current epoch. -/
structure EpochView where
  epoch : EpochId
  metadata : Metadata
  /-- The exported form of the latest board state. -/
  state : Json
  turn : UInt32
  toMove : Option Nat
  /-- The highest turn count confirmed on-chain. -/
  confirmed : UInt32

/-- What is exported about a channel. -/
structure Snapshot where
  channel : ChannelId
  /-- The current epoch, once there is one. -/
  current : Option EpochView

/-- The snapshot in JSON. -/
def Snapshot.toJson (s : Snapshot) : Json :=
  match s.current with
  | none => .ofFields [("id", .ofText s.channel.hex), ("initialised", .bool false)]
  | some v =>
    .ofFields
      [("id", .ofText s.channel.hex),
        ("reinit", .ofText v.epoch.hex),
        ("meta", v.metadata.summary),
        ("state",
          .ofFields
            [("data", v.state), ("turncount", .ofNat v.turn.toNat),
              ("whoseturn", (v.toMove.map Json.ofNat).getD .null)]),
        ("onchainturncount", .ofNat v.confirmed.toNat)]

namespace Tracker

variable {State : Type} (ch : Channel State)

/-- The snapshot of a channel. -/
def snapshot (t : Tracker State) : Except Violation Snapshot := do
  if t.initialised then
    let latest ← t.latest ch
    let known ← t.currentEpoch
    let view : EpochView :=
      { epoch := ← t.current
        metadata := known.metadata
        state := ch.rules.toJson latest
        turn := ch.rules.turn latest
        toMove := ch.rules.toMove latest
        confirmed := known.confirmed }
    return { channel := ch.id, current := some view }
  else return { channel := ch.id, current := none }

end Tracker

end StateChannel
