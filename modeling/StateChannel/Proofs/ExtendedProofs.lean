import StateChannel.Proofs.ForeignSignatures
import StateChannel.Proofs.Participation

/-!
# Extending and cutting proofs

Transitions that lead on from the state that a valid proof ends in can be appended to it, and no
others can. Cutting transitions off leaves a chain, but takes the signatures on its states away. So
what is left of a valid proof is valid if it starts from the founding state, or if everyone has
signed what is left.
-/

namespace StateChannel

/-- A proof without the transitions that come after the first `n`. -/
def StateProof.take (p : StateProof) (n : Nat) : StateProof :=
  { p with transitions := p.transitions.take n }

section
variable {State : Type}

namespace Channel

/-- Each of a list of transitions is found to hold from the state before it, the first one from
`data`. -/
def AllHold (ch : Channel State) (m : Metadata.Instance) : Bytes → List Transition → Prop
  | _, [] => True
  | data, t :: ts => (ch.transition? m data t).isSome ∧ ch.AllHold m t.state.data ts

variable {ch : Channel State} {m : Metadata.Instance} {founding data : Bytes} {p : StateProof}
variable {t : Transition} {ts us : List Transition} {n : Nat}

/-- A transition is found to hold exactly if it leads on. -/
lemma isSome_transition?_iff : (ch.transition? m data t).isSome ↔ ch.LeadsTo m data t := by
  simp [Option.isSome_iff_exists, transition?_eq_some_iff]

/-- Transitions are found to hold one by one exactly if they are a chain. -/
lemma allHold_iff_chain : ch.AllHold m data ts ↔ ch.Chain m data ts := by
  induction ts generalizing data with
  | nil => exact iff_of_true trivial .nil
  | cons t ts ih => rw [AllHold, isSome_transition?_iff, ih, chain_cons_iff]

/-- A proof is made up of what is left of it and what is cut off. -/
lemma take_append_drop : (p.take n).append (p.transitions.drop n) = p := by
  simp [StateProof.take, StateProof.append]

/-- What is left of a valid proof is valid if it is trusted for itself. -/
lemma Valid.take_iff (valid : ch.Valid m founding p) :
    ch.Valid m founding (p.take n) ↔
      ch.Anchored m founding p ∨ ch.SignedByAll m (p.take n) := by
  constructor
  · intro cut
    exact cut.trusted
  · intro trusted
    have chain := valid.chain
    rw [← take_append_drop (p := p) (n := n)] at chain
    exact ⟨valid.parses, (chain_append_iff.1 chain).1, trusted⟩

/-- A proof that is cut ends in the state at the place of the cut. -/
lemma latest_take {s : SignedState} (found : p.states[n]? = some s) :
    (p.take n).latest = s.data := by
  cases n with
  | zero =>
    obtain rfl : p.initial = s := by simpa [StateProof.states] using found
    rfl
  | succ n =>
    have last : (p.transitions.map (·.state))[n]? = some s := by
      simpa [StateProof.states] using found
    simp [StateProof.latest, StateProof.take, List.getLastD_eq_getLast?, List.map_take,
      List.getLast?_take, last]

end Channel

/-- Whoever signed a drafted state has one of the addresses that it was signed for. -/
lemma ProofDraft.mem_of_signed {rules : GameRules State} {id : ChannelId} {game : String}
    {m : Metadata.Instance} {data : Bytes} {addresses : List String} {seat : Nat} {p : Participant}
    (signed : (DigestScheme.channel rules id game).Signed m
      ((ProofDraft.of (DigestScheme.channel rules id game) m).signed data addresses) seat)
    (sits : m.participants[seat]? = some p) : p.address ∈ addresses := by
  obtain ⟨p', signature, sits', held, recovered⟩ := signed
  cases sits.symm.trans sits'
  obtain ⟨address, mem, rfl⟩ := List.mem_map.1 held
  rw [DigestScheme.recover_channel] at recovered
  obtain ⟨rfl, _⟩ := DigestScheme.sign_inj (DigestScheme.recover_eq_some_iff.1 recovered)
  exact mem
end

namespace AdditionGame

/-- The second player adds two after the first move. -/
def secondMove : Transition where
  move := Bytes.ofText "2"
  state := (ProofDraft.of (hall {}) seating).signed (encode 13 2) ["addr 1"]

/-- The second move leads on from the first one. -/
lemma secondMove_leads : (hall {}).LeadsTo seating (encode 11 1) secondMove := by
  have allowed : (hall {}).Allows seating ⟨seating, 11, 1⟩ ⟨"bar", "addr 1"⟩ (Bytes.ofText "2")
      (encode 13 2) :=
    ⟨⟨1, rfl, rfl⟩, encode 13 2, ⟨seating, 13, 2⟩, by decide, by decide, by decide⟩
  exact allowed.leadsTo recover_hall (by decide) (.head _)

/-- The game is taken up again from a later state. The first player signs that state, and the second
one the move made in it. -/
def resumed : StateProof :=
  (((ProofDraft.of (hall {}) seating).start (encode 20 3) ["addr 0"]).play (Bytes.ofText "5")
    (encode 25 4) ["addr 1"]).proof

/-- The resumed game is vouched for by both players. -/
lemma resumed_valid : (hall {}).Valid seating opening resumed := by
  have first : (hall {}).Signed seating resumed.initial 0 :=
    ProofDraft.signed_of_mem (p := ⟨"foo", "addr 0"⟩) recover_hall rfl (.head _)
  have second : (hall {}).Signed seating
      ((ProofDraft.of (hall {}) seating).signed (encode 25 4) ["addr 1"]) 1 :=
    ProofDraft.signed_of_mem (p := ⟨"bar", "addr 1"⟩) recover_hall rfl (.head _)
  have allowed : (hall {}).Allows seating ⟨seating, 20, 3⟩ ⟨"bar", "addr 1"⟩ (Bytes.ofText "5")
      (encode 25 4) :=
    ⟨⟨1, rfl, rfl⟩, encode 25 4, ⟨seating, 25, 4⟩, by decide, by decide, by decide⟩
  have leads : (hall {}).LeadsTo seating (encode 20 3) _ :=
    allowed.leadsTo recover_hall (by decide) (.head [])
  refine ⟨by decide, .cons leads .nil, .inr fun seat sits => ?_⟩
  match seat, sits with
  | 0, _ => exact ⟨_, .head _, first⟩
  | 1, _ => exact ⟨_, .tail _ (.head _), second⟩

/-- Without its move, the resumed game is vouched for by nobody but the first player. -/
lemma resumed_cut_untrusted :
    ¬ ((hall {}).Anchored seating opening resumed ∨
      (hall {}).SignedByAll seating (resumed.take 0)) := by
  rintro (⟨first, parsed, same⟩ | all)
  -- The number is 20 after three turns, which is not the opening.
  · have resumes : (hall {}).rules.parse (hall {}).id seating (encode 20 3)
        = some ⟨seating, 20, 3⟩ := by decide
    cases resumes.symm.trans parsed
    have other : (hall {}).rules.encodedBy ⟨seating, 20, 3⟩ opening = false := by decide
    cases other.symm.trans same
  -- Without the move there is no state that the second player signed.
  · obtain ⟨s, mem, signed⟩ := all 1 (by decide)
    cases List.mem_singleton.1 mem
    have held := ProofDraft.mem_of_signed (p := ⟨"bar", "addr 1"⟩) signed rfl
    exact absurd held (by decide)

end AdditionGame

namespace Channel

variable {State : Type} {ch : Channel State} {m : Metadata.Instance} {founding data : Bytes}
variable {p : StateProof}

/-- An accepted proof is accepted with further transitions exactly if each of them is found to hold
from the state before it, and then ends in the last of their states. If it starts from the founding
state, it is accepted wherever it is cut, and ends in the state there. If it does not, that depends
on whether everyone has signed what is left. -/
theorem accepted_extends (accepted : ch.verify? m founding p = some data) :
    (∀ ts, ch.AllHold m data ts →
      ch.verify? m founding (p.append ts) = some ((ts.map (·.state.data)).getLastD data)) ∧
    (∀ ts, (ch.verify? m founding (p.append ts)).isSome → ch.AllHold m data ts) ∧
    (ch.Anchored m founding p → ∀ n s, p.states[n]? = some s →
      ch.verify? m founding (p.take n) = some s.data) ∧
    ∀ n, (ch.verify? m founding (p.take n)).isSome ↔
      ch.Anchored m founding p ∨ ch.SignedByAll m (p.take n) := by
  obtain ⟨valid, rfl⟩ := verify?_eq_some_iff.1 accepted
  refine ⟨fun ts hold => ?_, fun ts extended => ?_, fun anchored n s found => ?_, fun n => ?_⟩
  · have extended := valid.append_iff.2 (allHold_iff_chain.1 hold)
    exact verify?_eq_some_iff.2 ⟨extended, latest_append.symm⟩
  · exact allHold_iff_chain.2 (valid.append_iff.1 (isSome_verify?_iff.1 extended))
  · exact verify?_eq_some_iff.2 ⟨valid.take_iff.2 (.inl anchored), (latest_take found).symm⟩
  · exact isSome_verify?_iff.trans valid.take_iff

open AdditionGame in
/-- So the first move of an addition game can be followed by the second one and taken back again. A
proof from a later state that the players sign one after the other is not accepted without the last
move. -/
theorem accepted_extends_secondMove :
    ((hall {}).verify? seating opening (firstMove {} (encode 11 1)) = some (encode 11 1) ∧
      (hall {}).AllHold seating (encode 11 1) [secondMove] ∧
      (hall {}).verify? seating opening ((firstMove {} (encode 11 1)).append [secondMove])
        = some (encode 13 2) ∧
      (hall {}).Anchored seating opening (firstMove {} (encode 11 1)) ∧
      (hall {}).verify? seating opening ((firstMove {} (encode 11 1)).take 0) = some opening) ∧
    (hall {}).verify? seating opening resumed = some (encode 25 4) ∧
      ((hall {}).verify? seating opening (resumed.take 0)).isSome = false := by
  have hold : (hall {}).AllHold seating (encode 11 1) [secondMove] :=
    allHold_iff_chain.2 (.cons secondMove_leads .nil)
  have anchored : (hall {}).Anchored seating opening (firstMove {} (encode 11 1)) :=
    ⟨_, opening_parsed, opening_encodes⟩
  have taken : (hall {}).verify? seating opening resumed = some (encode 25 4) :=
    verify?_eq_some_iff.2 ⟨resumed_valid, rfl⟩
  obtain ⟨further, _, cut, _⟩ := accepted_extends firstMove_verified
  obtain ⟨_, _, _, left⟩ := accepted_extends taken
  refine ⟨⟨firstMove_verified, hold, further _ hold, anchored, cut anchored 0 _ rfl⟩, taken, ?_⟩
  rw [Bool.eq_false_iff, ne_eq, left]
  exact resumed_cut_untrusted

end Channel
end StateChannel
