/-!
# Rejected updates

Proofs from other players are not trusted. One that cannot be used is rejected, and the reason says
why.
-/

namespace StateChannel

/-- Why an off-chain update was not applied. Epochs are named by their written identifiers. -/
inductive Rejection
  /-- The epoch is not known yet, and the update was queued. -/
  | unknownEpoch (epoch : String)
  /-- The rules do not accept the proof for the version of the epoch. -/
  | unsupportedVersion
  /-- The proof does not hold. -/
  | invalidProof
  /-- The proof holds, but its turn count is not above the known one. -/
  | notFresher (current : UInt32) (provided : UInt32)
  /-- The bytes are no encoded proof. -/
  | undecodable (detail : String)
deriving DecidableEq, Repr

/-- The wording of a rejection. -/
def Rejection.message : Rejection → String
  | unknownEpoch epoch => s!"Unknown reinitialisation {epoch}, update queued"
  | unsupportedVersion => "State proof does not match a supported protocol version"
  | invalidProof => "State proof verification failed"
  | notFresher current provided =>
    s!"State is not fresher: known turn {current}, provided turn {provided}"
  | undecodable detail => s!"Undecodable state proof: {detail}"

/-- A state replaces a known one only if its turn count is higher. -/
def Rejection.checkFresher (current provided : UInt32) : Except Rejection Unit :=
  if provided ≤ current then .error (.notFresher current provided) else .ok ()

end StateChannel
