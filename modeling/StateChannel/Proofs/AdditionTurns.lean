import StateChannel.Proofs.AdditionMoves
import StateChannel.Proofs.PeerData
import StateChannel.Proofs.Participation

/-!
# Turn counts of the addition game add up

However the states of an accepted proof of the addition game are written, each of them gives one
turn more than the one before it, and a higher number. So the turn count of a proof is that of the
state that it starts from and the number of its transitions, and no count has wrapped around.

Every state that a proof ends in is read back, too, so no proof from a player violates an invariant.
-/

namespace StateChannel.AdditionGame

/-- What the states of an accepted proof give, from the first one to the last one. -/
structure Reckoning (ch : Channel State) (m : Metadata.Instance) (founding : Bytes) (p : StateProof)
    (data : Bytes) (first last : State) : Prop where
  starts : ch.rules.parse ch.id m p.initial.data = some first
  ends : ch.rules.parse ch.id m data = some last
  count : last.count.toNat = first.count.toNat + p.transitions.length
  number : first.number.toNat + p.transitions.length ≤ last.number.toNat
  /-- Where a transition departs the goal is not reached, and the player to move signs. -/
  departs : ∀ d ∈ p.departures, ∃ s, ch.rules.parse ch.id m d.1.data = some s ∧
    s.number < goal ∧ ch.Signed m d.2.state (s.count.toNat % 2)
  /-- A proof that starts from the founding state counts on from there. -/
  anchored : ch.Anchored m founding p → ch.rules.parse ch.id m founding = some first ∧
    (ch.rules.turn last).toNat = (ch.rules.turn first).toNat + p.transitions.length

variable {ch : Channel State} {extended : Bool} {m : Metadata.Instance} {founding data : Bytes}
variable {p : StateProof} {first : State}

/-- A transition takes one turn. -/
lemma Adds.count {s : State} {t : Transition} {amount : UInt32} (h : Adds ch s t amount) :
    (s.add amount).count.toNat = s.count.toNat + 1 :=
  h.fits.toNat_count

/-- A transition adds at least one to the number. -/
lemma Adds.number {s : State} {t : Transition} {amount : UInt32} (h : Adds ch s t amount) :
    s.number.toNat + 1 ≤ (s.add amount).number.toNat := by
  have positive : 0 < amount := UInt32.pos_iff_ne_zero.2 (amount?_ne_zero h.read)
  rw [h.fits.toNat_number]
  exact Nat.add_le_add_left (UInt32.lt_iff_toNat_lt.1 positive) _

/-- A chain counts one turn for each of its transitions, and raises the number as often. -/
lemma chain_last (plays : ch.rules = rules extended) {s : SignedState} {ts : List Transition}
    (chain : ch.Chain m s.data ts) (parsed : parse m s.data = some first) :
    ∃ last, parse m ((ts.map (·.state)).getLastD s).data = some last ∧
      last.count.toNat = first.count.toNat + ts.length ∧
      first.number.toNat + ts.length ≤ last.number.toNat := by
  -- The state that a transition claims is read back, so that the rest of the chain starts from it.
  induction ts generalizing s first with
  | nil => exact ⟨first, parsed, rfl, Nat.le_refl _⟩
  | cons t ts ih =>
    cases chain with
    | cons leads chain =>
      obtain ⟨_, amount, parsed', adds⟩ := (leadsTo_iff plays).1 leads
      cases parsed.symm.trans parsed'
      obtain ⟨_, rfl⟩ := parse_eq_some_iff.1 parsed
      obtain ⟨last, ends, count, number⟩ := ih chain adds.result
      have once := adds.count
      have more := adds.number
      rw [List.map_cons, List.getLastD_cons, List.length_cons]
      exact ⟨last, ends, by omega, by omega⟩

/-- What a valid proof starts from and ends in adds up. -/
lemma valid_reckoning (plays : ch.rules = rules extended) (valid : ch.Valid m founding p) :
    ∃ first last, Reckoning ch m founding p p.latest first last := by
  have parse_eq (b : Bytes) : ch.rules.parse ch.id m b = parse m b := by rw [plays]; rfl
  obtain ⟨first, starts⟩ := Option.isSome_iff_exists.1 valid.parses
  rw [parse_eq] at starts
  obtain ⟨last, ends, count, number⟩ := chain_last plays valid.chain starts
  refine ⟨first, last, (parse_eq _).trans starts, (parse_eq _).trans ends, count, number, ?_, ?_⟩
  · intro d departs
    have leads := Channel.chain_iff_departures.1 valid.chain d departs
    obtain ⟨s, amount, parsed, adds⟩ := (leadsTo_iff plays).1 leads
    obtain ⟨_, rfl⟩ := parse_eq_some_iff.1 parsed
    exact ⟨s, (parse_eq _).trans parsed, adds.unfinished, adds.signed⟩
  · rintro ⟨first', starts', same⟩
    rw [parse_eq] at starts'
    cases starts.symm.trans starts'
    obtain ⟨_, rfl⟩ := parse_eq_some_iff.1 starts
    rw [plays] at same ⊢
    exact ⟨parse_eq_some_iff.2 ⟨of_decide_eq_true same, rfl⟩, count⟩

/-- The plain rules parse whatever they take for a board state. -/
lemma parsesAlike (extended : Bool) : (rules extended).ParsesAlike := by
  rw [← HouseRules.rules_plain]
  exact HouseRules.parsesAlike rfl

/-- In the addition game every accepted proof adds up, whoever signed it. Nothing that a player
sends violates an invariant, neither when it is received nor when it has waited for an on-chain
update that passes its own checks. -/
theorem accepted_adds_up (plays : ch.rules = rules extended) :
    (∀ m founding p data, ch.verify? m founding p = some data →
      ∃ first last, Reckoning ch m founding p data first last) ∧
    ∀ capacity (t : Tracker State), t.Reachable ch capacity →
      (∀ e p v, t.tryReceive ch e p ≠ .error v ∧ t.receive ch e p ≠ .error v) ∧
      ∀ (u : OnChainUpdate) latest v,
        ch.examine (t.instanceFor u.metadata) u.founding u.proof = .ok latest →
        (∀ known, t.epochs[u.metadata.epoch]? = some known →
          known.metadata.toMetadata = u.metadata ∧ known.founding = u.founding) →
        t.confirm ch u ≠ .error v := by
  have alike : ch.rules.ParsesAlike := plays ▸ parsesAlike extended
  refine ⟨?reckoned, fun capacity t reachable => ⟨?received, ?confirmed⟩⟩
  case reckoned =>
    intro m founding p data verified
    obtain ⟨valid, rfl⟩ := Channel.verify?_eq_some_iff.1 verified
    exact valid_reckoning plays valid
  case received =>
    intro e p v
    have returns : t.tryReceive ch e p ≠ .error v := reachable.tryReceive_ne_error alike
    exact ⟨returns, fun failed => returns (Tracker.receive_eq_error_iff.1 failed)⟩
  case confirmed =>
    intro u latest v examined same failed
    obtain ⟨_, _, p, _, stranded⟩ := (reachable.confirm_eq_error_iff examined same).1 failed
    exact Channel.not_stranded alike stranded

/-- So it is for the first move of an addition game, with a sign, a leading zero and two blanks in
the state that it leads to. -/
theorem accepted_adds_up_firstMove :
    (hall {}).rules = rules false ∧
      (hall {}).verify? seating opening (firstMove {} (Bytes.ofText "+011  1"))
        = some (Bytes.ofText "+011  1") ∧
      (∃ first last, Reckoning (hall {}) seating opening
        (firstMove {} (Bytes.ofText "+011  1")) (Bytes.ofText "+011  1") first last) ∧
      (openTable {}).Reachable (hall {}) 1 ∧
      (∀ v, (openTable {}).tryReceive (hall {}) seating.epoch
          (firstMove {} (Bytes.ofText "+011  1")) ≠ .error v ∧
        (openTable {}).receive (hall {}) seating.epoch
          (firstMove {} (Bytes.ofText "+011  1")) ≠ .error v) ∧
      (hall {}).examine seating opening (.trivial opening) = .ok ⟨seating, 10, 0⟩ ∧
      ∀ v, (openTable {}).confirm (hall {}) opened ≠ .error v := by
  have plays : (hall {}).rules = rules false := HouseRules.rules_plain false
  have verified : (hall {}).verify? seating opening (firstMove {} (Bytes.ofText "+011  1"))
      = some (Bytes.ofText "+011  1") :=
    Channel.verify?_eq_some_iff.2 ⟨firstMove_valid (by decide), rfl⟩
  obtain ⟨reckoned, returns⟩ := accepted_adds_up plays
  obtain ⟨received, confirmed⟩ := returns 1 (openTable {}) openTable_reachable
  refine ⟨plays, verified, reckoned _ _ _ _ verified, openTable_reachable, received _ _,
    opened_examined, fun v => confirmed opened _ v opened_examined fun known found => ?_⟩
  cases openTable_known.symm.trans found
  exact ⟨rfl, rfl⟩

end StateChannel.AdditionGame
