import StateChannel.Proofs.SignedDrafts

/-!
# Stored epochs are coherent

Whatever updates come in, and in whatever order, the proof that a tracker stores for an epoch is an
acceptable and valid one under the metadata and founding state that the epoch was founded with, and
the stored board state is the one that this proof ends in.

All that is stored was examined for the epoch just before. An on-chain update for a known epoch is
examined under its own data, but goes no further unless these are the data of the epoch.
-/

namespace StateChannel
open Std

variable {State : Type} {ch : Channel State}

namespace Epoch

/-- An epoch is coherent if its proof was examined under its own founding data. -/
lemma coherent_of_examine {id : EpochId} {k : Epoch State} (epoch : k.metadata.epoch = id)
    (examined : ch.examine k.metadata k.founding k.proof = .ok k.latest)
    (confirmed : k.confirmed ≤ k.turn ch.rules) : k.Coherent ch id := by
  obtain ⟨accepted, valid, parsed⟩ := Channel.examine_eq_ok_iff.1 examined
  exact ⟨epoch, accepted, Channel.verify?_eq_some_iff.2 ⟨valid, rfl⟩, parsed, confirmed⟩

/-- No more turns are confirmed than a bound on both turn counts. -/
lemma confirmed_confirm_le {k : Epoch State} {turn bound : UInt32} (old : k.confirmed ≤ bound)
    (new : turn ≤ bound) : (k.confirm turn).confirmed ≤ bound := by
  rw [confirmed_confirm]
  split
  · exact new
  · exact old

/-- An epoch is coherent when it becomes known. -/
lemma coherent_found {m : Metadata.Instance} {founding : Bytes} {p : StateProof} {latest : State}
    (examined : ch.examine m founding p = .ok latest) :
    (Epoch.found ch.rules m founding p latest).Coherent ch m.epoch :=
  coherent_of_examine rfl examined (UInt32.le_refl _)

/-- Confirming a turn count that is not above the known one changes nothing else. -/
lemma Coherent.confirm {id : EpochId} {k : Epoch State} {turn : UInt32} (h : k.Coherent ch id)
    (le : turn ≤ k.turn ch.rules) : (k.confirm turn).Coherent ch id :=
  ⟨h.epoch, h.accepted, h.verified, h.parsed, confirmed_confirm_le h.confirmed le⟩

/-- An epoch whose proof is replaced by an examined one is coherent if no confirmed turn count is
lost. -/
lemma coherent_replaceLatest {id : EpochId} {k : Epoch State} {p : StateProof} {latest : State}
    (epoch : k.metadata.epoch = id)
    (examined : ch.examine k.metadata k.founding p = .ok latest)
    (confirmed : k.confirmed ≤ ch.rules.turn latest) : (k.replaceLatest p latest).Coherent ch id :=
  coherent_of_examine epoch examined confirmed

end Epoch

namespace Tracker

variable {t t' : Tracker State} {e : EpochId} {k : Epoch State}

variable (ch) in
/-- All epochs of a tracker are coherent. -/
def Coherent (t : Tracker State) : Prop :=
  ∀ (e : EpochId) (k : Epoch State), t.epochs[e]? = some k → k.Coherent ch e

/-- A tracker stays coherent when a coherent epoch is written to it. -/
lemma Coherent.insert (h : t.Coherent ch) (new : k.Coherent ch e) (f : EpochId) (x : Epoch State)
    (found : (t.epochs.insert e k)[f]? = some x) : x.Coherent ch f := by
  rcases EpochMap.getElem?_insert_eq_some found with ⟨rfl, rfl⟩ | found
  · exact new
  · exact h f x found

/-- Every step writes an epoch only with data that were examined for it. -/
lemma Step.coherent (st : Step ch t t') (h : t.Coherent ch) : t'.Coherent ch := by
  cases st with
  | wait => exact h
  | advance found examined lt =>
    have old := h _ _ found
    have confirmed := UInt32.le_trans old.confirmed (UInt32.le_of_lt lt)
    exact h.insert (Epoch.coherent_replaceLatest old.epoch examined confirmed)
  | found unknown examined extracted =>
    exact h.insert (Epoch.coherent_found examined)
  | reconfirm found examined metadata founding le =>
    have old := h _ _ found
    exact h.insert (old.confirm le)
  | overtake found examined metadata founding lt =>
    have old := h _ _ found
    -- The founding state of the update, which its proof was examined with, is that of the epoch.
    rw [← founding] at examined
    have confirmed := UInt32.le_trans old.confirmed (UInt32.le_of_lt lt)
    refine h.insert (Epoch.coherent_replaceLatest old.epoch examined ?_)
    exact Epoch.confirmed_confirm_le confirmed (UInt32.le_refl _)

/-- All epochs of a reachable tracker are coherent. -/
lemma Reachable.coherent {capacity : Nat} (h : t.Reachable ch capacity) : t.Coherent ch := by
  refine h.induction (fun new => ?_) Step.coherent
  obtain ⟨_, rfl⟩ := new_eq_ok_iff.1 new
  intro e k found
  simp at found

/-- What a reachable tracker stores for an epoch is evidence for it, and none of it has been lost
that was confirmed on-chain. -/
theorem Reachable.stored_evidence {capacity : Nat} (h : t.Reachable ch capacity)
    (stored : t.epochs[e]? = some k) :
    k.metadata.epoch = e ∧
      ch.rules.accepts k.metadata k.proof = true ∧
      ch.verify? k.metadata k.founding k.proof = some k.proof.latest ∧
      ch.rules.parse ch.id k.metadata k.proof.latest = some k.latest ∧
      k.confirmed ≤ k.turn ch.rules := by
  have coherent := h.coherent e k stored
  exact ⟨coherent.epoch, coherent.accepted, coherent.verified, coherent.parsed, coherent.confirmed⟩

open AdditionGame in
/-- So it is after the first move of an addition game. -/
theorem Reachable.stored_evidence_firstMove :
    ∃ k : Epoch AdditionGame.State,
      played.Reachable (hall {}) 1 ∧ played.epochs[seating.epoch]? = some k ∧
      k.turn (hall {}).rules = 1 ∧
      (k.metadata.epoch = seating.epoch ∧
        (hall {}).rules.accepts k.metadata k.proof = true ∧
        (hall {}).verify? k.metadata k.founding k.proof = some k.proof.latest ∧
        (hall {}).rules.parse (hall {}).id k.metadata k.proof.latest = some k.latest ∧
        k.confirmed ≤ k.turn (hall {}).rules) := by
  have reachable := openTable_reachable.apply (u := .offChain ..) played_received
  refine ⟨_, reachable, ExtTreeMap.getElem?_insert_self, rfl, ?_⟩
  exact reachable.stored_evidence ExtTreeMap.getElem?_insert_self

end Tracker
end StateChannel
