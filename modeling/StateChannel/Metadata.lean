import StateChannel.EpochId

/-!
# Epoch metadata

The participants of an epoch sit in turn order, and a seat is a place in that order. One address may
hold several seats.

Board states refer to the metadata of their epoch rather than hold it themselves. Whether two of
them refer to the same is more than whether the metadata are equal, so there are instances of
metadata (`Metadata.Instance`), of which several can be equal in content.
-/

namespace StateChannel

/-- A player of a channel. -/
structure Participant where
  name : String
  /-- The address whose signatures count for this player. -/
  address : String
deriving DecidableEq

/-- The protocol version of an epoch. -/
inductive ProtocolVersion
  /-- The format that all rules understand. -/
  | baseline
  /-- The later format, which rules have to support explicitly. -/
  | extended
deriving DecidableEq

/-- The name of a version in exported states. -/
def ProtocolVersion.name : ProtocolVersion → String
  | .baseline => "original"
  | .extended => "extended"

/-- What is fixed about an epoch when it starts. -/
structure Metadata where
  /-- The players in turn order. -/
  participants : List Participant
  epoch : EpochId
  version : ProtocolVersion := .baseline
deriving DecidableEq

/-- A set of seats. -/
abbrev Seats := Std.ExtTreeSet Nat

namespace Metadata

/-- All seats of the epoch. -/
def seats (m : Metadata) : List Nat :=
  List.range m.participants.length

/-- The seats of an address in ascending order. -/
def seatsOf (m : Metadata) (address : String) : List Nat :=
  m.seats.filter fun i => (m.participants[i]?.map (·.address)) == some address

/-- An address holds a seat exactly if the participant there has that address. -/
theorem mem_seatsOf_iff {m : Metadata} {address : String} {i : Nat} :
    i ∈ m.seatsOf address ↔ (m.participants[i]?.map (·.address)) = some address := by
  simp only [seatsOf, seats, List.mem_filter, List.mem_range, beq_iff_eq, and_iff_right_iff_imp]
  intro h
  obtain ⟨p, hp, _⟩ := Option.map_eq_some_iff.1 h
  exact (List.getElem?_eq_some_iff.1 hp).1

/-- An instance of metadata. Instances with the same content are told apart by their numbers. -/
structure Instance extends Metadata where
  number : Nat
deriving DecidableEq

instance : CoeOut Instance Metadata :=
  ⟨Instance.toMetadata⟩

/-- An instance of metadata that there is no instance of yet. -/
def first (m : Metadata) : Instance :=
  { m with number := 0 }

/-- Where an instance is asked for, metadata stand for their first one. -/
instance : Coe Metadata Instance :=
  ⟨first⟩

/-- A new instance of metadata besides one that there is already. -/
def besides (m : Metadata) (other : Instance) : Instance :=
  { m with number := other.number + 1 }

/-- A new instance is another one, even if the metadata are equal. -/
theorem besides_ne {m : Metadata} {other : Instance} : m.besides other ≠ other := by
  intro same
  have number : other.number + 1 = other.number := congrArg Instance.number same
  omega

end Metadata

end StateChannel
