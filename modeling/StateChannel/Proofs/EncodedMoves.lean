import StateChannel.Proofs.Wakeups
import StateChannel.Proofs.WireRoundTrip

/-!
# Encoded proofs are processed like plain ones

A service decodes an encoded proof first and then processes it like the proof itself. If the bytes
do not decode, nothing happens: the service stays as it is, and nobody who waits for a change is
woken, since everyone who waits knows the version that it stays at.

As encoded proofs are decoded again (`StateProof.decode_encode`), to send one encoded comes to the
same as to send it plain, up to the number of bytes that the service accepts.
-/

namespace StateChannel

variable {State : Type} {e : EpochId} {b : Bytes} {p : StateProof} {cause : Wire.DecodeError}

namespace Service

variable {s : Service State}

/-- Bytes that decode have the effect of the proof that they stand for. -/
lemma applyEncoded_of_decoded (decoded : StateProof.decode s.config.maxProofBytes b = .ok p) :
    s.applyEncoded e b = (s.apply (.offChain e p)).map fun r => (.ok r.1, r.2) := by
  simp only [applyEncoded, decoded]
  cases s.apply (.offChain e p) <;> rfl

/-- Bytes that do not decode are refused and have no effect. -/
lemma applyEncoded_of_undecodable
    (failed : StateProof.decode s.config.maxProofBytes b = .error cause) :
    s.applyEncoded e b = .ok (.error (.undecodable cause.message), s) := by
  simp only [applyEncoded, failed]

end Service

namespace Session

variable {s : Session State}

/-- Bytes that decode are answered like the proof, and wake the same. -/
lemma step_encoded_of_decoded
    (decoded : StateProof.decode s.service.config.maxProofBytes b = .ok p) :
    s.step (.encoded e b) = s.step (.update (.offChain e p)) := by
  have same : s.answer (.encoded e b) = s.answer (.update (.offChain e p)) := by
    simp only [Session.answer, Service.applyEncoded_of_decoded decoded]
    cases s.service.apply (.offChain e p) <;> rfl
  simp only [step, same]

/-- Bytes that do not decode change nothing, and wake nobody. -/
lemma step_encoded_of_undecodable (h : s.UpToDate)
    (failed : StateProof.decode s.service.config.maxProofBytes b = .error cause) :
    s.step (.encoded e b) = .ok (.update (.error (.undecodable cause.message)), [], s) := by
  refine step_eq_ok_iff.2 ⟨s, ?_, wake_of_upToDate h⟩
  simp only [Session.answer, Service.applyEncoded_of_undecodable failed]
  rfl

/-- At any point of a session with any service, an encoded proof is answered like the proof, with
the same service after it, and the same requests woken and still waiting. Bytes that do not decode
change none of that. The encoding of any proof decodes, unless it is too long. -/
theorem encoded_agrees {service : Service State} {rs : List Request}
    {answers : List (Answer × List (Nat × UInt64))}
    (ran : Session.run { service } rs = .ok (answers, s)) (e : EpochId) :
    (∀ b p, StateProof.decode s.service.config.maxProofBytes b = .ok p →
      s.service.applyEncoded e b
          = (s.service.apply (.offChain e p)).map (fun r => (.ok r.1, r.2)) ∧
        s.step (.encoded e b) = s.step (.update (.offChain e p))) ∧
    (∀ b cause, StateProof.decode s.service.config.maxProofBytes b = .error cause →
      s.service.applyEncoded e b = .ok (.error (.undecodable cause.message), s.service) ∧
        s.step (.encoded e b) = .ok (.update (.error (.undecodable cause.message)), [], s)) ∧
    ∀ p : StateProof, s.step (.encoded e p.encode) =
      if p.encode.length ≤ s.service.config.maxProofBytes.toNat then
        s.step (.update (.offChain e p))
      else .ok (.update (.error (.undecodable (Wire.DecodeError.message
        (.tooLong p.encode.length s.service.config.maxProofBytes.toNat)))), [], s) := by
  have upToDate := ((awaits_nil service).run ran).upToDate
  refine ⟨fun b p decoded => ?_, fun b cause failed => ?_, fun p => ?_⟩
  · exact ⟨Service.applyEncoded_of_decoded decoded, step_encoded_of_decoded decoded⟩
  · exact ⟨Service.applyEncoded_of_undecodable failed,
      step_encoded_of_undecodable upToDate failed⟩
  · split
    next fits => exact step_encoded_of_decoded (StateProof.decode_encode fits)
    next long =>
      exact step_encoded_of_undecodable upToDate (StateProof.decode_of_lt (Nat.not_le.1 long))

end Session

open AdditionGame in
/-- So it is while a player of an addition game waits for the first move. -/
theorem Session.encoded_agrees_firstMove :
    Session.run { service := emptyHall } [.update (.onChain opened), .wait 1, .wait 0]
        = .ok ([(.update (.ok true), []), (.wait 0 none, []), (.wait 1 (some 1), [])],
            awaitedSession) ∧
      awaitedSession.waiting = [{ ticket := 0, known := 1 }] ∧
      awaitedSession.step (.encoded seating.epoch [255, 255])
        = .ok (.update (.error (.undecodable Wire.DecodeError.reservedMarker.message)), [],
            awaitedSession) ∧
      awaitedSession.step (.encoded seating.epoch (StateProof.trivial []).encode)
        = awaitedSession.step (.update (.offChain seating.epoch (.trivial []))) := by
  obtain ⟨_, fails, encoded⟩ := Session.encoded_agrees awaitedSession_run seating.epoch
  refine ⟨awaitedSession_run, rfl, (fails _ _ rfl).2, ?_⟩
  rw [encoded, if_pos (by decide)]

end StateChannel
