import StateChannel.DigestScheme

/-!
# Drafting state proofs

A draft collects the states of a proof and has each of them signed by addresses for one epoch.
-/

namespace StateChannel

/-- A proof under construction for an epoch of a channel. -/
structure ProofDraft where
  game : String
  channel : ChannelId
  epoch : EpochId
  proof : StateProof := { initial := { data := [] } }

namespace ProofDraft

/-- The message that a board state of the epoch is signed by. -/
def message (d : ProofDraft) (data : Bytes) : String :=
  Signing.message d.game d.channel d.epoch Signing.stateTopic data

/-- A board state signed by addresses. -/
def signed (d : ProofDraft) (data : Bytes) (addresses : List String) : SignedState where
  data
  signatures := addresses.map (DigestScheme.sign · (d.message data))

/-- The draft with another starting state. -/
def start (d : ProofDraft) (data : Bytes) (addresses : List String) : ProofDraft :=
  { d with proof := { d.proof with initial := d.signed data addresses } }

/-- The draft continued by a move and the state that it leads to. -/
def play (d : ProofDraft) (move data : Bytes) (addresses : List String) : ProofDraft :=
  { d with proof := d.proof.append [{ move, state := d.signed data addresses }] }

end ProofDraft

end StateChannel
