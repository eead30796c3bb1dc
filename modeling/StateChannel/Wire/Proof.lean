import StateChannel.StateProof
import StateChannel.Wire.Reader

/-!
# State proofs on the wire

A proof is its signed starting state, the count of its transitions, and these in order. A byte
string is its count and its bytes; a signed state is its data, the count of its signatures, and
these in order. Bytes after the proof are not looked at.
-/

namespace StateChannel.Wire

/-- The count of a list and its encoded elements. -/
def list {α : Type} (item : α → Bytes) (as : List α) : Bytes :=
  count as.length ++ as.flatMap item

/-- The encoding of a byte string. -/
def bytes (b : Bytes) : Bytes :=
  count b.length ++ b

/-- The encoding of a signed state. -/
def signedState (s : SignedState) : Bytes :=
  bytes s.data ++ list bytes s.signatures

/-- The encoding of a transition. -/
def transition (t : Transition) : Bytes :=
  bytes t.move ++ signedState t.state

namespace Reader

/-- A signed state. -/
def signedState : Reader SignedState :=
  bytes.andThen fun data => (list bytes).map fun signatures => { data, signatures }

/-- A transition. -/
def transition : Reader Transition :=
  bytes.andThen fun move => signedState.map fun state => { move, state }

/-- A state proof. -/
def stateProof : Reader StateProof :=
  signedState.andThen fun initial =>
    (list transition).map fun transitions => { initial, transitions }

end Reader

end StateChannel.Wire

namespace StateChannel.StateProof

/-- The encoding of a proof. -/
def encode (p : StateProof) : Bytes :=
  Wire.signedState p.initial ++ Wire.list Wire.transition p.transitions

/-- The proof that bytes start with. There may be at most `limit` bytes. -/
def decode (limit : UInt64) (b : Bytes) : Except Wire.DecodeError StateProof :=
  if limit.toNat < b.length then .error (.tooLong b.length limit.toNat)
  else (Wire.Reader.stateProof { budget := limit.toNat, rest := b }).map (·.1)

end StateChannel.StateProof
