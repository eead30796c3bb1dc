import Mathlib.Logic.Basic
import StateChannel.Verification.Valid

/-!
# Verification finds the valid proofs

Verification walks along the transitions of a proof once. It finds a proof to hold exactly if the
proof is valid, and then returns the state that the proof ends in. What `examine` makes of a proof
follows from that.

A valid proof stays valid with the transitions that lead on from the state it ends in, and with no
others (`Valid.append_iff`).
-/

namespace StateChannel.Channel
open Std

variable {State : Type} {ch : Channel State} {m : Metadata.Instance} {founding data : Bytes}
variable {p : StateProof} {t : Transition} {ts us : List Transition}

/-- Transitions that can be walked along are a chain. -/
lemma chain_of_walk? {data : Bytes} {seats : Seats} {ts : List Transition} {r : Bytes × Seats}
    (h : ch.walk? m data seats ts = some r) : ch.Chain m data ts := by
  induction ts generalizing data seats with
  | nil => exact .nil
  | cons t ts ih =>
    obtain ⟨signers, holds, h⟩ := Option.bind_eq_some_iff.1 h
    obtain ⟨leads, _⟩ := ch.transition?_eq_some_iff.1 holds
    exact .cons leads (ih h)

/-- Walking along a chain ends in its last state and gathers the seats that signed a state. -/
lemma walk?_of_chain {s : SignedState} {ts : List Transition} (seats : Seats)
    (h : ch.Chain m s.data ts) :
    ∃ all, ch.walk? m s.data seats ts = some (((ts.map (·.state)).getLastD s).data, all) ∧
      ∀ seat, seat ∈ all ↔ seat ∈ seats ∨ ∃ t ∈ ts, ch.Signed m t.state seat := by
  induction ts generalizing s seats with
  | nil => exact ⟨seats, rfl, fun seat => by simp⟩
  | cons t ts ih =>
    cases h with
    | cons leads chain =>
      obtain ⟨all, walked, signed⟩ := ih (seats ∪ ch.stateSigners m t.state) chain
      refine ⟨all, ?_, fun seat => ?_⟩
      · rw [walk?, ch.transition?_eq_some_iff.2 ⟨leads, rfl⟩, List.map_cons, List.getLastD_cons]
        exact walked
      · rw [signed, ExtTreeSet.mem_union_iff, mem_stateSigners_iff, or_assoc]
        simp

/-- A seat has signed a state of a proof if it has signed the first one or a claimed one. -/
lemma exists_mem_states_iff {seat : Nat} :
    (∃ s ∈ p.states, ch.Signed m s seat) ↔
      ch.Signed m p.initial seat ∨ ∃ t ∈ p.transitions, ch.Signed m t.state seat := by
  simp [StateProof.states]

/-- The last check of verification finds out whether the starting state is trusted. -/
lemma trusted_iff {first : State} {all : Seats}
    (parsed : ch.rules.parse ch.id m p.initial.data = some first)
    (signed : ∀ seat, seat ∈ all ↔ ∃ s ∈ p.states, ch.Signed m s seat) :
    (ch.rules.encodedBy first founding || m.seats.all all.contains) = true ↔
      ch.Anchored m founding p ∨ ch.SignedByAll m p := by
  rw [Bool.or_eq_true]
  apply or_congr
  · simp [Anchored, parsed]
  · simp [SignedByAll, Metadata.seats, ← signed]

/-- A proof is found to hold exactly if it is valid, with the state that it ends in. -/
theorem verify?_eq_some_iff {data : Bytes} :
    ch.verify? m founding p = some data ↔ ch.Valid m founding p ∧ data = p.latest := by
  cases parsed : ch.rules.parse ch.id m p.initial.data with
  | none =>
    have absent : ch.verify? m founding p = none := by simp [verify?, parsed]
    rw [absent]
    refine ⟨nofun, fun ⟨valid, _⟩ => ?_⟩
    have parses := valid.parses
    rw [parsed] at parses
    cases parses
  | some first =>
    by_cases chain : ch.Chain m p.initial.data p.transitions
    · obtain ⟨all, walked, signed⟩ := walk?_of_chain (ch.stateSigners m p.initial) chain
      have signed (seat : Nat) : seat ∈ all ↔ ∃ s ∈ p.states, ch.Signed m s seat := by
        rw [signed, mem_stateSigners_iff, exists_mem_states_iff]
      have trusted : (ch.rules.encodedBy first founding || m.seats.all all.contains) = true ↔
          ch.Anchored m founding p ∨ ch.SignedByAll m p :=
        trusted_iff parsed signed
      -- With the transitions walked, it is left to decide whether the start can be trusted.
      have outcome : ch.verify? m founding p =
          if ch.rules.encodedBy first founding || m.seats.all all.contains then some p.latest
          else none := by
        simp only [verify?, parsed, walked]
        rfl
      rw [outcome]
      constructor
      · intro h
        split at h
        next ok =>
          cases h
          exact ⟨⟨by simp [parsed], chain, trusted.1 ok⟩, rfl⟩
        next => cases h
      · rintro ⟨valid, rfl⟩
        exact if_pos (trusted.2 valid.trusted)
    · constructor
      · intro h
        obtain ⟨_, _, h⟩ := Option.bind_eq_some_iff.1 h
        obtain ⟨_, walked, _⟩ := Option.bind_eq_some_iff.1 h
        exact absurd (chain_of_walk? walked) chain
      · rintro ⟨valid, _⟩
        exact absurd valid.chain chain

/-- Some state is found to be proven exactly by a valid proof. -/
lemma isSome_verify?_iff : (ch.verify? m founding p).isSome ↔ ch.Valid m founding p := by
  simp [Option.isSome_iff_exists, verify?_eq_some_iff]

/-- No state is found to be proven exactly by a proof that is not valid. -/
lemma verify?_eq_none_iff : ch.verify? m founding p = none ↔ ¬ ch.Valid m founding p := by
  simp [Option.eq_none_iff_forall_ne_some, verify?_eq_some_iff]

/-- A valid proof that the rules accept stands or falls with the state that it ends in. -/
lemma examine_of_valid (accepted : ch.rules.accepts m p) (valid : ch.Valid m founding p) :
    ch.examine m founding p =
      match ch.rules.parse ch.id m p.latest with
      | none => .error .unparsable
      | some s => .ok s := by
  have verified : ch.verify? m founding p = some p.latest := verify?_eq_some_iff.2 ⟨valid, rfl⟩
  cases parsed : ch.rules.parse ch.id m p.latest with
  | none => simp [examine, accepted, verified, parsed]
  | some s => simp [examine, accepted, verified, parsed]

/-- A proof that the rules accept and that is not valid is refused as such. -/
lemma examine_of_not_valid (accepted : ch.rules.accepts m p) (invalid : ¬ ch.Valid m founding p) :
    ch.examine m founding p = .error .invalid := by
  simp only [examine, accepted, if_true, verify?_eq_none_iff.2 invalid]

/-- A proof that the rules do not accept is refused without a look at its states. -/
lemma examine_of_not_accepts (refused : ch.rules.accepts m p = false) :
    ch.examine m founding p = .error .unsupportedVersion := by
  simp [examine, refused]

/-- What is found out about a proof: its version first, then whether it is valid, then whether the
state that it ends in parses. -/
lemma examine_cases {motive : Except ProofFault State → Prop}
    (unsupported : ch.rules.accepts m p = false → motive (.error .unsupportedVersion))
    (invalid : ch.rules.accepts m p = true → ¬ ch.Valid m founding p → motive (.error .invalid))
    (unparsable : ch.rules.accepts m p = true → ch.Valid m founding p →
      ch.rules.parse ch.id m p.latest = none → motive (.error .unparsable))
    (ok : ∀ s, ch.rules.accepts m p = true → ch.Valid m founding p →
      ch.rules.parse ch.id m p.latest = some s → motive (.ok s)) :
    motive (ch.examine m founding p) := by
  cases accepted : ch.rules.accepts m p with
  | false =>
    rw [examine_of_not_accepts accepted]
    exact unsupported accepted
  | true =>
    by_cases valid : ch.Valid m founding p
    · rw [examine_of_valid accepted valid]
      split
      next parsed => exact unparsable accepted valid parsed
      next s parsed => exact ok s accepted valid parsed
    · rw [examine_of_not_valid accepted valid]
      exact invalid accepted valid

/-- A proof is good for an epoch exactly if the rules accept it, it is valid, and the state that it
ends in parses. -/
theorem examine_eq_ok_iff {s : State} :
    ch.examine m founding p = .ok s ↔
      ch.rules.accepts m p ∧ ch.Valid m founding p ∧ ch.rules.parse ch.id m p.latest = some s := by
  refine examine_cases (motive := (· = .ok s ↔ _)) ?_ ?_ ?_ ?_
  all_goals simp_all

/-- A proof is good but for the state that it ends in exactly if that state does not parse. -/
theorem examine_eq_unparsable_iff :
    ch.examine m founding p = .error .unparsable ↔
      ch.rules.accepts m p ∧ ch.Valid m founding p ∧ ch.rules.parse ch.id m p.latest = none := by
  refine examine_cases (motive := (· = .error .unparsable ↔ _)) ?_ ?_ ?_ ?_
  all_goals simp_all

/-- The version of a proof is refused exactly if the rules do not accept the proof. -/
theorem examine_eq_unsupportedVersion_iff :
    ch.examine m founding p = .error .unsupportedVersion ↔ ch.rules.accepts m p = false := by
  refine examine_cases (motive := (· = .error .unsupportedVersion ↔ _)) ?_ ?_ ?_ ?_
  all_goals simp_all

/-- A proof is refused as invalid exactly if the rules accept it and it does not verify. -/
theorem examine_eq_invalid_iff :
    ch.examine m founding p = .error .invalid ↔
      ch.rules.accepts m p ∧ ch.verify? m founding p = none := by
  rw [verify?_eq_none_iff]
  refine examine_cases (motive := (· = .error .invalid ↔ _)) ?_ ?_ ?_ ?_
  all_goals simp_all

/-- A chain starts with a transition that leads on. -/
lemma chain_cons_iff :
    ch.Chain m data (t :: ts) ↔ ch.LeadsTo m data t ∧ ch.Chain m t.state.data ts := by
  constructor
  · intro chain
    cases chain with
    | cons leads chain => exact ⟨leads, chain⟩
  · intro ⟨leads, chain⟩
    exact .cons leads chain

/-- A chain is one up to some place and leads on from there. -/
lemma chain_append_iff {s : SignedState} :
    ch.Chain m s.data (ts ++ us) ↔
      ch.Chain m s.data ts ∧ ch.Chain m ((ts.map (·.state)).getLastD s).data us := by
  -- The last state of `ts` is `s` if there is none, so the start moves along with the induction.
  induction ts generalizing s with
  | nil => exact ⟨fun chain => ⟨.nil, chain⟩, fun ⟨_, chain⟩ => chain⟩
  | cons t ts ih =>
    rw [List.cons_append, chain_cons_iff, ih, chain_cons_iff, List.map_cons, List.getLastD_cons,
      and_assoc]

/-- A longer proof ends in the last of its further states. -/
lemma latest_append :
    (p.append ts).latest = (ts.map (·.state.data)).getLastD p.latest := by
  simp [StateProof.latest_eq_getLastD, StateProof.append, List.getLastD_eq_getLast?,
    List.getLast?_append]

/-- The states of a proof are among those of a longer one. -/
lemma SignedByAll.append (h : ch.SignedByAll m p) : ch.SignedByAll m (p.append ts) := by
  intro seat sits
  obtain ⟨s, mem, signed⟩ := h seat sits
  have longer : (p.append ts).states = p.states ++ ts.map (·.state) := by
    simp [StateProof.states, StateProof.append]
  exact ⟨s, longer ▸ List.mem_append_left _ mem, signed⟩

/-- A valid proof stays valid with the transitions that lead on from its end, and with no others. -/
lemma Valid.append_iff (valid : ch.Valid m founding p) :
    ch.Valid m founding (p.append ts) ↔ ch.Chain m p.latest ts := by
  constructor
  · intro extended
    exact (chain_append_iff.1 extended.chain).2
  · intro chain
    exact ⟨valid.parses, chain_append_iff.2 ⟨valid.chain, chain⟩,
      valid.trusted.imp_right SignedByAll.append⟩

end StateChannel.Channel
