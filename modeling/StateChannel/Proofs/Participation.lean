import StateChannel.Proofs.Coherence

/-!
# No participant is bypassed

Whoever is to move where a transition of a stored proof departs has signed the state after it. If
the starting state of the proof is not the founding state of the epoch, everyone has signed some
state of the proof. So a participant without a signature in the proof has not been to move since
the founding of the epoch.
-/

namespace StateChannel

/-- The transitions of a proof, each with the state that it departs from. -/
def StateProof.departures (p : StateProof) : List (SignedState × Transition) :=
  p.states.zip p.transitions

section
variable {State : Type}

namespace Channel

/-- A transition of a proof departs from a board state in which a seat is to move. -/
def Departs (ch : Channel State) (m : Metadata.Instance) (p : StateProof) (seat : Nat) : Prop :=
  ∃ s t before, (s, t) ∈ p.departures ∧ ch.rules.parse ch.id m s.data = some before ∧
    ch.rules.toMove before = some seat

variable {ch : Channel State} {m : Metadata.Instance} {founding : Bytes} {p : StateProof}
variable {seat : Nat}

/-- A list of transitions is a chain exactly if each of them leads on from where it departs. -/
lemma chain_iff_departures {s : SignedState} {ts : List Transition} :
    ch.Chain m s.data ts ↔
      ∀ d ∈ StateProof.departures ⟨s, ts⟩, ch.LeadsTo m d.1.data d.2 := by
  induction ts generalizing s with
  | nil => exact ⟨fun _ => nofun, fun _ => .nil⟩
  | cons t ts ih =>
    -- The further transitions depart as those of the proof that starts from the state of `t`.
    have split : StateProof.departures ⟨s, t :: ts⟩
        = (s, t) :: StateProof.departures ⟨t.state, ts⟩ :=
      rfl
    rw [split, List.forall_mem_cons, ← ih]
    constructor
    · intro chain
      cases chain with
      | cons leads chain => exact ⟨leads, chain⟩
    · intro ⟨leads, chain⟩
      exact .cons leads chain

/-- Whoever is to move where a transition leads on from signs the state after it. -/
lemma LeadsTo.signed_of_toMove {data : Bytes} {t : Transition} {before : State}
    (leads : ch.LeadsTo m data t) (parsed : ch.rules.parse ch.id m data = some before)
    (turn : ch.rules.toMove before = some seat) : ch.Signed m t.state seat := by
  obtain ⟨before', seat', _, _, parsed', turn', _, _, _, signed⟩ := leads
  cases parsed.symm.trans parsed'
  cases turn.symm.trans turn'
  exact signed

/-- Whoever makes a move in a valid proof has signed a state of it. -/
lemma Valid.signed_of_departs (valid : ch.Valid m founding p) (departs : ch.Departs m p seat) :
    ∃ s ∈ p.states, ch.Signed m s seat := by
  obtain ⟨s, t, before, mem, parsed, turn⟩ := departs
  have leads := chain_iff_departures.1 valid.chain (s, t) mem
  have after : t.state ∈ p.states :=
    List.mem_cons_of_mem _ (List.mem_map_of_mem (List.of_mem_zip mem).2)
  exact ⟨t.state, after, leads.signed_of_toMove parsed turn⟩

/-- A participant signed some state of a valid proof, or the proof starts from the founding state
and the participant was not to move in it. -/
lemma Valid.signed_or_anchored (valid : ch.Valid m founding p)
    (sits : seat < m.participants.length) :
    (∃ s ∈ p.states, ch.Signed m s seat) ∨
      ch.Anchored m founding p ∧ ¬ ch.Departs m p seat := by
  by_cases departs : ch.Departs m p seat
  · exact .inl (valid.signed_of_departs departs)
  · cases valid.trusted with
    | inl anchored => exact .inr ⟨anchored, departs⟩
    | inr signed => exact .inl (signed seat sits)

end Channel

namespace Tracker

variable {ch : Channel State} {t : Tracker State} {e : EpochId} {k : Epoch State} {seat : Nat}

/-- Every participant of an epoch in a reachable tracker signed some state of the stored proof,
unless that proof starts from the founding state of the epoch and no transition of it departs where
the participant is to move. -/
theorem Reachable.not_bypassed {capacity : Nat} (h : t.Reachable ch capacity)
    (stored : t.epochs[e]? = some k) (sits : seat < k.metadata.participants.length) :
    (∃ s ∈ k.proof.states, ch.Signed k.metadata s seat) ∨
      ch.Anchored k.metadata k.founding k.proof ∧ ¬ ch.Departs k.metadata k.proof seat := by
  have coherent := h.coherent e k stored
  obtain ⟨valid, _⟩ := Channel.verify?_eq_some_iff.1 coherent.verified
  exact valid.signed_or_anchored sits

open AdditionGame in
/-- So it is for both players after the first move of an addition game: the first one signed it, and
the second one has not been to move. -/
theorem Reachable.not_bypassed_firstMove :
    ∃ k : Epoch AdditionGame.State,
      played.Reachable (hall {}) 1 ∧ played.epochs[seating.epoch]? = some k ∧
      0 < k.metadata.participants.length ∧ 1 < k.metadata.participants.length ∧
      ((∃ s ∈ k.proof.states, (hall {}).Signed k.metadata s 0) ∨
        (hall {}).Anchored k.metadata k.founding k.proof ∧
          ¬ (hall {}).Departs k.metadata k.proof 0) ∧
      ((∃ s ∈ k.proof.states, (hall {}).Signed k.metadata s 1) ∨
        (hall {}).Anchored k.metadata k.founding k.proof ∧
          ¬ (hall {}).Departs k.metadata k.proof 1) := by
  have first : 0 < seating.participants.length := by decide
  have second : 1 < seating.participants.length := by decide
  refine ⟨_, played_reachable, played_known, first, second, ?_, ?_⟩
  · exact played_reachable.not_bypassed played_known first
  · exact played_reachable.not_bypassed played_known second

end Tracker
end
end StateChannel
