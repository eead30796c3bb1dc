import StateChannel.Proofs.Histories
import StateChannel.Proofs.SeparateEpochs

/-!
# What a proof from a player does

A proof for an unknown epoch is put in the queue, and one for a known epoch that is rejected changes
nothing. A proof is applied exactly if the rules accept it, it holds, and its turn count is above
the known one. Then it takes the place of the latest proof of its epoch, with the board state that
it ends in, and nothing else changes.

`Effect` says this of each outcome. An outcome tells what was done, and why.
-/

namespace StateChannel
open Std

variable {State : Type}

/-- A proof moves an epoch on to a board state: the rules accept it, it holds, and the board state
that it ends in has a higher turn count. -/
structure Epoch.MovesOn (ch : Channel State) (k : Epoch State) (p : StateProof) (s : State) :
    Prop where
  accepted : ch.rules.accepts k.metadata p
  verified : ch.verify? k.metadata k.founding p = some p.latest
  parsed : ch.rules.parse ch.id k.metadata p.latest = some s
  higher : k.turn ch.rules < ch.rules.turn s

namespace Tracker

/-- Why a proof for an epoch has an outcome, and what the tracker is after it. -/
def Effect (ch : Channel State) (t : Tracker State) (e : EpochId) (p : StateProof)
    (t' : Tracker State) : Except Rejection Bool → Prop
  | .error (.unknownEpoch id) =>
    e ∉ t.epochs ∧ id = e.hex ∧ ∃ queue, t.queue.insert e p = .ok queue ∧ t' = { t with queue }
  | .error .unsupportedVersion =>
    t' = t ∧ ∃ k, t.epochs[e]? = some k ∧ ch.rules.accepts k.metadata p = false
  | .error .invalidProof =>
    t' = t ∧ ∃ k, t.epochs[e]? = some k ∧ ch.rules.accepts k.metadata p ∧
      ch.verify? k.metadata k.founding p = none
  | .error (.notFresher current provided) =>
    t' = t ∧ provided ≤ current ∧ ∃ k s, t.epochs[e]? = some k ∧ ch.rules.accepts k.metadata p ∧
      ch.verify? k.metadata k.founding p = some p.latest ∧
      ch.rules.parse ch.id k.metadata p.latest = some s ∧
      current = k.turn ch.rules ∧ provided = ch.rules.turn s
  | .error (.undecodable _) => False
  | .ok current =>
    (current = true ↔ t.selected = some e) ∧ t'.selected = t.selected ∧ t'.queue = t.queue ∧
      (∀ f, f ≠ e → t'.epochs[f]? = t.epochs[f]?) ∧
      ∃ k s, t.epochs[e]? = some k ∧ k.MovesOn ch p s ∧
        t'.epochs[e]? = some { k with proof := p, latest := s }

variable {ch : Channel State} {capacity : Nat} {t t' : Tracker State} {e : EpochId}
variable {p : StateProof} {k : Epoch State} {s : State} {outcome : Except Rejection Bool}

/-- A proof is good exactly if the rules accept it, verification returns the state it ends in, and
that state parses. -/
lemma examine_eq_ok_iff_verified {m : Metadata.Instance} {founding : Bytes} :
    ch.examine m founding p = .ok s ↔
      ch.rules.accepts m p ∧ ch.verify? m founding p = some p.latest ∧
        ch.rules.parse ch.id m p.latest = some s := by
  simp [Channel.examine_eq_ok_iff, Channel.verify?_eq_some_iff]

/-- A tracker that differs in one epoch is known once that epoch is. -/
lemma eq_put_of_same (selected : t'.selected = t.selected) (queue : t'.queue = t.queue)
    (others : ∀ f, f ≠ e → t'.epochs[f]? = t.epochs[f]?) (stored : t'.epochs[e]? = some k) :
    t' = t.put e k := by
  have epochs : t'.epochs = t.epochs.insert e k := by
    refine ExtTreeMap.ext_getElem? fun f => ?_
    by_cases eq : e = f
    · subst eq
      exact stored.trans ExtTreeMap.getElem?_insert_self.symm
    · exact (others f (Ne.symm eq)).trans (EpochMap.getElem?_insert_of_ne eq).symm
  cases t' with
  | mk =>
    cases selected
    cases queue
    cases epochs
    rfl

/-- What comes of a proof from a player has the effect described. -/
lemma Received.effect (h : Received ch t e p outcome t') : t.Effect ch e p t' outcome := by
  cases h with
  | early unknown added =>
    exact ⟨EpochMap.getElem?_eq_none_iff.1 unknown, rfl, _, added, rfl⟩
  | unsupported found examined =>
    exact ⟨rfl, _, found, Channel.examine_eq_unsupportedVersion_iff.1 examined⟩
  | invalid found examined =>
    exact ⟨rfl, _, found, Channel.examine_eq_invalid_iff.1 examined⟩
  | stale found examined le =>
    obtain ⟨accepted, verified, parsed⟩ := examine_eq_ok_iff_verified.1 examined
    exact ⟨rfl, le, _, _, found, accepted, verified, parsed, rfl, rfl⟩
  | fresh found examined lt =>
    obtain ⟨accepted, verified, parsed⟩ := examine_eq_ok_iff_verified.1 examined
    exact ⟨decide_eq_true_iff, rfl, rfl, fun f ne => EpochMap.getElem?_insert_of_ne ne.symm, _, _,
      found, ⟨accepted, verified, parsed, lt⟩, ExtTreeMap.getElem?_insert_self⟩

/-- Whatever has the effect described comes of a proof from a player. -/
lemma Effect.received (h : t.Effect ch e p t' outcome) : Received ch t e p outcome t' := by
  cases outcome with
  | ok current =>
    obtain ⟨reported, selected, queue, others, k, s, found, moves, stored⟩ := h
    have examined := examine_eq_ok_iff_verified.2 ⟨moves.accepted, moves.verified, moves.parsed⟩
    obtain rfl : current = decide (t.selected = some e) := by
      rw [Bool.eq_iff_iff, reported, decide_eq_true_iff]
    obtain rfl := eq_put_of_same selected queue others stored
    exact .fresh found examined moves.higher
  | error r =>
    cases r with
    | unknownEpoch id =>
      obtain ⟨unknown, rfl, queue, added, rfl⟩ := h
      exact .early (EpochMap.getElem?_eq_none_iff.2 unknown) added
    | unsupportedVersion =>
      obtain ⟨rfl, k, found, refused⟩ := h
      exact .unsupported found (Channel.examine_eq_unsupportedVersion_iff.2 refused)
    | invalidProof =>
      obtain ⟨rfl, k, found, failed⟩ := h
      exact .invalid found (Channel.examine_eq_invalid_iff.2 failed)
    | notFresher current provided =>
      -- The reported turn counts tell which board states were compared.
      obtain ⟨rfl, le, k, s, found, accepted, verified, parsed, rfl, rfl⟩ := h
      exact .stale found (examine_eq_ok_iff_verified.2 ⟨accepted, verified, parsed⟩) le
    | undecodable detail => exact h.elim

/-- Processing a proof returns exactly what has the effect described. -/
lemma tryReceive_eq_ok_iff_effect :
    t.tryReceive ch e p = .ok (outcome, t') ↔ t.Effect ch e p t' outcome :=
  tryReceive_eq_ok_iff.trans ⟨Received.effect, Effect.received⟩

/-- A proof is put in the queue exactly if its epoch is not known. -/
lemma Reachable.unknown_iff (h : t.Reachable ch capacity) :
    (∃ t', t.tryReceive ch e p = .ok (.error (.unknownEpoch e.hex), t')) ↔ e ∉ t.epochs := by
  constructor
  · rintro ⟨t', returned⟩
    exact (tryReceive_eq_ok_iff_effect.1 returned).1
  · intro unknown
    obtain ⟨l, queued⟩ := h.queued
    obtain ⟨queue, added, _⟩ := queued.insert (EpochMap.getElem?_eq_none_iff.2 unknown) p
    exact ⟨_, tryReceive_eq_ok_iff_effect.2 ⟨unknown, rfl, queue, added, rfl⟩⟩

/-- A proof is taken exactly if it moves a known epoch on. -/
lemma applied_iff :
    (∃ current t', t.tryReceive ch e p = .ok (.ok current, t')) ↔
      ∃ k s, t.epochs[e]? = some k ∧ k.MovesOn ch p s := by
  constructor
  · rintro ⟨current, t', returned⟩
    obtain ⟨_, _, _, _, k, s, found, moves, _⟩ := tryReceive_eq_ok_iff_effect.1 returned
    exact ⟨k, s, found, moves⟩
  · rintro ⟨k, s, found, moves⟩
    have examined := examine_eq_ok_iff_verified.2 ⟨moves.accepted, moves.verified, moves.parsed⟩
    exact ⟨_, _, tryReceive_eq_ok_iff.2 (.fresh found examined moves.higher)⟩

/-- Without the reason, processing a proof says no more than whether the current epoch moved on. -/
lemma receive_eq_ok_iff_outcome {changed : Bool} :
    t.receive ch e p = .ok (changed, t') ↔
      ∃ outcome, t.tryReceive ch e p = .ok (outcome, t') ∧
        (changed = true ↔ outcome = .ok true) := by
  have flag (outcome : Except Rejection Bool) :
      changed = outcome.toOption.getD false ↔ (changed = true ↔ outcome = .ok true) := by
    cases outcome with
    | error r => simp [Except.toOption]
    | ok current =>
      rw [Except.ok.injEq]
      exact Bool.eq_iff_iff
  rw [receive_eq_ok_iff]
  simp only [flag]

/-- Each outcome of a proof from a player has one effect and one cause. A proof for an unknown
epoch, and no other one, is put in the queue; a proof that moves a known epoch on, and no other one,
is applied. Whoever does not ask for the outcome is told whether the current epoch was moved on. -/
theorem Reachable.received_confined (h : t.Reachable ch capacity) (e : EpochId) (p : StateProof) :
    (∀ outcome t', t.tryReceive ch e p = .ok (outcome, t') ↔ t.Effect ch e p t' outcome) ∧
    ((∃ t', t.tryReceive ch e p = .ok (.error (.unknownEpoch e.hex), t')) ↔ e ∉ t.epochs) ∧
    ((∃ current t', t.tryReceive ch e p = .ok (.ok current, t')) ↔
      ∃ k s, t.epochs[e]? = some k ∧ k.MovesOn ch p s) ∧
    ∀ changed t', t.receive ch e p = .ok (changed, t') ↔
      ∃ outcome, t.tryReceive ch e p = .ok (outcome, t') ∧
        (changed = true ↔ outcome = .ok true) := by
  refine ⟨fun outcome t' => ?_, h.unknown_iff, applied_iff, fun changed t' => ?_⟩
  · exact tryReceive_eq_ok_iff_effect
  · exact receive_eq_ok_iff_outcome

open AdditionGame in
/-- So the first move of an addition game is applied once, is not fresher the second time, and is
put in the queue of a tracker that does not know the epoch. -/
theorem Reachable.received_confined_firstMove :
    let p := firstMove {} (encode 11 1)
    ((openTable {}).Reachable (hall {}) 1 ∧
      (openTable {}).Effect (hall {}) seating.epoch p played (.ok true) ∧
      (openTable {}).receive (hall {}) seating.epoch p = .ok (true, played)) ∧
    (played.Reachable (hall {}) 1 ∧
      played.tryReceive (hall {}) seating.epoch p = .ok (.error (.notFresher 1 1), played)) ∧
    emptyTable.Reachable (hall {}) 1 ∧ seating.epoch ∉ emptyTable.epochs ∧
      ∃ t', emptyTable.tryReceive (hall {}) seating.epoch p
        = .ok (.error (.unknownEpoch seating.epoch.hex), t') := by
  intro p
  have applied := tryReceive_eq_ok_iff.2 played_fresh
  have empty : emptyTable.Reachable (hall {}) 1 := emptyTable_reachable
  have unknown : seating.epoch ∉ emptyTable.epochs := ExtTreeMap.not_mem_empty
  obtain ⟨effect, _, _, report⟩ := openTable_reachable.received_confined seating.epoch p
  obtain ⟨effect', _⟩ := played_reachable.received_confined seating.epoch p
  obtain ⟨_, waits, _⟩ := empty.received_confined seating.epoch p
  have parsed : (hall {}).rules.parse (hall {}).id seating (encode 11 1)
      = some ⟨seating, 11, 1⟩ := by decide
  refine ⟨⟨openTable_reachable, (effect _ _).1 applied, ?_⟩, ⟨played_reachable, ?_⟩,
    empty, unknown, waits.2 unknown⟩
  · exact (report _ _).2 ⟨_, applied, by simp⟩
  · have turn : (hall {}).rules.turn ⟨seating, 11, 1⟩ = 1 := rfl
    exact (effect' _ _).2
      ⟨rfl, by decide, _, _, played_known, rfl, firstMove_verified, parsed, turn.symm, turn.symm⟩

end Tracker
end StateChannel
