import StateChannel.Signing

/-!
# Signatures by digest

A simple signature scheme: a signature is the address that makes it, a colon, and the written digest
of the message. Main statement: a signature is recovered to an address exactly if that address made
it.
-/

namespace StateChannel.DigestScheme

/-- What follows the address in a signature on a message. -/
def stamp (message : String) : String :=
  ":" ++ Hex.encode (Sha256.digest (Bytes.ofText message))

/-- The signature of an address on a message. -/
def sign (address message : String) : Bytes :=
  Bytes.ofText (address ++ stamp message)

/-- The address that made a signature on a message. -/
def recover : SignatureScheme := fun message signature =>
  let mark := Bytes.ofText (stamp message)
  if mark <:+ signature then Bytes.text? (signature.take (signature.length - mark.length)) else none

/-- A signature is recovered to an address exactly if that address made it. -/
theorem recover_eq_some_iff {message address : String} {signature : Bytes} :
    recover message signature = some address ↔ signature = sign address message := by
  simp only [recover, sign]
  rw [Bytes.ofText_append]
  constructor
  · intro h
    split at h
    next suffix =>
      obtain ⟨front, rfl⟩ := suffix
      simp only [List.length_append, Nat.add_sub_cancel, List.take_left,
        Bytes.text?_eq_some_iff] at h
      rw [h]
    next => cases h
  · rintro rfl
    simp

end StateChannel.DigestScheme
