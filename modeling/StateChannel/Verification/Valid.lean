import StateChannel.Verification

/-!
# Valid state proofs

What it means for a proof to hold, said without the order in which verification goes about it. Main
statements: the signers of a state are the seats that signed it, and a transition is found to hold
exactly if it leads to its state.
-/

namespace StateChannel.Channel

variable {State : Type} (ch : Channel State)

/-- The participant in a seat made one of the signatures on a board state. -/
def Signed (m : Metadata) (s : SignedState) (seat : Nat) : Prop :=
  ∃ p signature, m.participants[seat]? = some p ∧ signature ∈ s.signatures ∧
    ch.recover (Signing.message ch.game ch.id m.epoch Signing.stateTopic s.data) signature
      = some p.address

/-- The player to move in the board state `data` makes the move of a transition, which leads to the
claimed state, and signs it. -/
def LeadsTo (m : Metadata.Instance) (data : Bytes) (t : Transition) : Prop :=
  ∃ before seat result after,
    ch.rules.parse ch.id m data = some before ∧
    ch.rules.toMove before = some seat ∧
    ch.rules.play before t.move = some result ∧
    ch.rules.parse ch.id m result = some after ∧
    ch.rules.encodedBy after t.state.data ∧
    ch.Signed m t.state seat

/-- Each of a list of transitions leads on from the state before it, the first one from `data`. -/
inductive Chain (m : Metadata.Instance) : Bytes → List Transition → Prop where
  | nil {data} :
    Chain m data []
  | cons {data t ts} :
    ch.LeadsTo m data t →
    Chain m t.state.data ts →
    Chain m data (t :: ts)

/-- The starting state of a proof is the founding state of the epoch. -/
def Anchored (m : Metadata.Instance) (founding : Bytes) (p : StateProof) : Prop :=
  ∃ first, ch.rules.parse ch.id m p.initial.data = some first ∧ ch.rules.encodedBy first founding

/-- Every participant signed some state of a proof. -/
def SignedByAll (m : Metadata) (p : StateProof) : Prop :=
  ∀ seat < m.participants.length, ∃ s ∈ p.states, ch.Signed m s seat

/-- A proof holds: its transitions lead on from its starting state, which is a board state that is
either founding or vouched for by everyone. -/
structure Valid (m : Metadata.Instance) (founding : Bytes) (p : StateProof) : Prop where
  parses : (ch.rules.parse ch.id m p.initial.data).isSome
  chain : ch.Chain m p.initial.data p.transitions
  trusted : ch.Anchored m founding p ∨ ch.SignedByAll m p

/-- The signers of a state under a topic are the seats whose address made one of its signatures. -/
theorem mem_signers_iff {m : Metadata} {topic : String} {s : SignedState} {seat : Nat} :
    seat ∈ ch.signers m topic s ↔
      ∃ p signature, m.participants[seat]? = some p ∧ signature ∈ s.signatures ∧
        ch.recover (Signing.message ch.game ch.id m.epoch topic s.data) signature
          = some p.address := by
  simp only [signers, Std.ExtTreeSet.mem_ofList, List.contains_iff_mem, List.mem_flatMap,
    List.mem_filterMap, Metadata.mem_seatsOf_iff, Option.map_eq_some_iff]
  constructor
  · rintro ⟨_, ⟨signature, mem, recovered⟩, p, hp, rfl⟩
    exact ⟨p, signature, hp, mem, recovered⟩
  · rintro ⟨p, signature, hp, mem, recovered⟩
    exact ⟨_, ⟨signature, mem, recovered⟩, p, hp, rfl⟩

/-- The signers of a board state are the seats that signed it. -/
theorem mem_stateSigners_iff {m : Metadata} {s : SignedState} {seat : Nat} :
    seat ∈ ch.stateSigners m s ↔ ch.Signed m s seat :=
  ch.mem_signers_iff

/-- A transition is found to hold exactly if it leads to its state, with the signers of that state.
-/
theorem transition?_eq_some_iff {m : Metadata.Instance} {data : Bytes} {t : Transition}
    {seats : Seats} :
    ch.transition? m data t = some seats ↔
      ch.LeadsTo m data t ∧ seats = ch.stateSigners m t.state := by
  simp only [transition?, LeadsTo, Option.bind_eq_bind, Option.bind_eq_some_iff]
  constructor
  · rintro ⟨before, h1, seat, h2, result, h3, after, h4, h5⟩
    split at h5
    next h =>
      rw [Bool.and_eq_true, Std.ExtTreeSet.contains_iff_mem, mem_stateSigners_iff] at h
      cases h5
      exact ⟨⟨before, seat, result, after, h1, h2, h3, h4, h⟩, rfl⟩
    next => cases h5
  · rintro ⟨⟨before, seat, result, after, h1, h2, h3, h4, h⟩, rfl⟩
    refine ⟨before, h1, seat, h2, result, h3, after, h4, if_pos ?_⟩
    rw [Bool.and_eq_true, Std.ExtTreeSet.contains_iff_mem, mem_stateSigners_iff]
    exact h

end StateChannel.Channel
