import StateChannel.Proofs.Freshness
import StateChannel.Proofs.QueuedUpdates
import StateChannel.Proofs.SignedDrafts

/-!
# When proofs from players violate an invariant

A proof from a player is rejected unless it is good, with one exception. Verification compares the
state that a proof ends in with the result of the last move but does not parse it. A proof is
stranded if it is valid and the rules do not parse that state: received for a known epoch, or taken
out of the queue when its epoch becomes known, it ends processing.

No other proof does. Under rules that parse whatever they take for a board state none is stranded.
-/

namespace StateChannel

section
variable {State : Type}

/-- An acceptable and valid proof ends in a state that the rules do not parse. -/
structure Channel.Stranded (ch : Channel State) (m : Metadata.Instance) (founding : Bytes)
    (p : StateProof) : Prop where
  accepted : ch.rules.accepts m p = true
  valid : ch.Valid m founding p
  unparsable : ch.rules.parse ch.id m p.latest = none

/-- The rules parse all bytes that they take for a board state. -/
def GameRules.ParsesAlike (rules : GameRules State) : Prop :=
  ∀ {id m data s data'}, rules.parse id m data = some s → rules.encodedBy s data' →
    (rules.parse id m data').isSome

variable {ch : Channel State} {m : Metadata.Instance} {founding : Bytes} {p : StateProof}
variable {v : Violation}

namespace Channel

/-- A proof is stranded exactly if the state it ends in is all that is wrong with it. -/
lemma stranded_iff :
    ch.Stranded m founding p ↔ ch.examine m founding p = .error .unparsable := by
  rw [examine_eq_unparsable_iff]
  exact ⟨fun h => ⟨h.accepted, h.valid, h.unparsable⟩, fun ⟨h1, h2, h3⟩ => ⟨h1, h2, h3⟩⟩

/-- A chain that starts from a parsed state ends in one. -/
lemma Chain.last_parses (alike : ch.rules.ParsesAlike) {s : SignedState} {ts : List Transition}
    (chain : ch.Chain m s.data ts) (parses : (ch.rules.parse ch.id m s.data).isSome) :
    (ch.rules.parse ch.id m ((ts.map (·.state)).getLastD s).data).isSome := by
  induction ts generalizing s with
  | nil => exact parses
  | cons t ts ih =>
    cases chain with
    | cons leads chain =>
      obtain ⟨_, _, _, after, _, _, _, parsed, same, _⟩ := leads
      rw [List.map_cons, List.getLastD_cons]
      exact ih chain (alike parsed same)

/-- No proof is stranded if bytes that count as the same state parse alike. -/
theorem not_stranded (alike : ch.rules.ParsesAlike) : ¬ ch.Stranded m founding p := by
  intro h
  have parses := h.valid.chain.last_parses alike h.valid.parses
  have unparsable := h.unparsable
  rw [StateProof.latest] at unparsable
  rw [unparsable] at parses
  cases parses

end Channel

namespace Tracker

variable {capacity : Nat} {t t' : Tracker State} {e : EpochId} {u : OnChainUpdate}

/-- A proof for a known epoch breaks the tracker exactly if it is stranded there. -/
lemma tryReceive_eq_error_of_known {known : Epoch State} (found : t.epochs[e]? = some known) :
    t.tryReceive ch e p = .error v ↔
      v = .unparsableState e.hex ∧ ch.Stranded known.metadata known.founding p := by
  rw [Channel.stranded_iff]
  simp only [tryReceive, found]
  cases examined : ch.examine known.metadata known.founding p with
  | error fault => cases fault <;> simp [eq_comm]
  | ok latest =>
    cases fresher : Rejection.checkFresher (known.turn ch.rules) (ch.rules.turn latest) <;>
      simp [fresher]

/-- Leaving out why a proof is rejected leaves out no violation. -/
lemma receive_eq_error_iff : t.receive ch e p = .error v ↔ t.tryReceive ch e p = .error v := by
  simp [receive, Violation.bind_eq_error_iff]

/-- Replaying proofs for a known epoch violates an invariant exactly if one of them is stranded. -/
lemma replay_eq_error_iff {ps : List StateProof} (known : t.Founded e m founding) :
    t.replay ch e ps = .error v ↔
      v = .unparsableState e.hex ∧ ∃ p ∈ ps, ch.Stranded m founding p := by
  induction ps generalizing t with
  | nil => simp
  | cons p ps ih =>
    obtain ⟨k, found, rfl, rfl⟩ := id known
    have first (v : Violation) : t.receive ch e p = .error v ↔
        v = .unparsableState e.hex ∧ ch.Stranded k.metadata k.founding p :=
      receive_eq_error_iff.trans (tryReceive_eq_error_of_known found)
    rw [replay_cons]
    cases received : t.receive ch e p with
    | error w =>
      obtain ⟨rfl, stranded⟩ := (first w).1 received
      simp [stranded, eq_comm]
    | ok r =>
      -- A proof that is received leaves the founding data as they are, so the others are judged
      -- by the same ones.
      have good : ¬ ch.Stranded k.metadata k.founding p := by
        intro stranded
        cases received.symm.trans ((first _).2 ⟨rfl, stranded⟩)
      rw [Violation.ok_bind, ih ((receive_steps received).founded known)]
      simp [good]

/-- A proof from a player violates an invariant exactly if its epoch is known and it is stranded. -/
lemma Reachable.tryReceive_eq_error_iff (h : t.Reachable ch capacity) :
    t.tryReceive ch e p = .error v ↔ v = .unparsableState e.hex ∧
      ∃ known, t.epochs[e]? = some known ∧ ch.Stranded known.metadata known.founding p := by
  cases found : t.epochs[e]? with
  | none =>
    obtain ⟨l, queued⟩ := h.queued
    obtain ⟨queue, added, _⟩ := queued.insert found p
    have early : Received ch t e p _ _ := .early found added
    simp [Tracker.tryReceive_eq_ok_iff.2 early]
  | some known => simp [tryReceive_eq_error_of_known found]

/-- An on-chain update that passes its own checks violates an invariant exactly if it makes an epoch
known that a stranded proof waits for. -/
lemma Reachable.confirm_eq_error_iff (h : t.Reachable ch capacity) {latest : State}
    (examined : ch.examine (t.instanceFor u.metadata) u.founding u.proof = .ok latest)
    (same : ∀ known, t.epochs[u.metadata.epoch]? = some known →
      known.metadata.toMetadata = u.metadata ∧ known.founding = u.founding) :
    t.confirm ch u = .error v ↔ v = .unparsableState u.metadata.epoch.hex ∧
      t.epochs[u.metadata.epoch]? = none ∧
      ∃ p ∈ t.queue.waiting u.metadata.epoch,
        ch.Stranded (t.instanceFor u.metadata) u.founding p := by
  cases found : t.epochs[u.metadata.epoch]? with
  | none =>
    obtain ⟨l, queued⟩ := h.queued
    obtain ⟨queue, taken, _⟩ := queued.extract u.metadata.epoch
    have known : (t.found ch u latest queue).Founded u.metadata.epoch u.metadata.first u.founding :=
      ⟨_, Std.ExtTreeMap.getElem?_insert_self, rfl, rfl⟩
    -- The epoch is founded without fail, so any error is one of the replay.
    rw [instanceFor_of_unknown found] at examined ⊢
    rw [confirm_of_unknown found, examineOnChain_eq_ok_iff.2 examined, Violation.ok_bind, taken,
      Violation.ok_bind, Violation.bind_eq_error_iff, replay_eq_error_iff known]
    simp
  | some known =>
    obtain ⟨metadata, founding⟩ := same known found
    rw [confirm_of_known found, examineOnChain_eq_ok_iff.2 examined, Violation.ok_bind,
      checkFounding_of metadata founding, Violation.ok_bind]
    split <;> simp

/-- Under rules that parse whatever they take for a board state, no proof from a player violates an
invariant. -/
theorem Reachable.tryReceive_ne_error (h : t.Reachable ch capacity)
    (alike : ch.rules.ParsesAlike) : t.tryReceive ch e p ≠ .error v := by
  intro failed
  obtain ⟨_, known, _, stranded⟩ := h.tryReceive_eq_error_iff.1 failed
  exact Channel.not_stranded alike stranded

/-- Data from players violate an invariant exactly where a stranded proof is received for a known
epoch, or has been waiting for an epoch that becomes known. -/
theorem Reachable.peer_data_violates_iff (h : t.Reachable ch capacity) :
    (∀ e p v, t.tryReceive ch e p = .error v ↔ v = .unparsableState e.hex ∧
      ∃ known, t.epochs[e]? = some known ∧ ch.Stranded known.metadata known.founding p) ∧
    (∀ e p v, t.receive ch e p = .error v ↔ v = .unparsableState e.hex ∧
      ∃ known, t.epochs[e]? = some known ∧ ch.Stranded known.metadata known.founding p) ∧
    (∀ u latest v, ch.examine (t.instanceFor u.metadata) u.founding u.proof = .ok latest →
      (∀ known, t.epochs[u.metadata.epoch]? = some known →
        known.metadata.toMetadata = u.metadata ∧ known.founding = u.founding) →
      (t.confirm ch u = .error v ↔ v = .unparsableState u.metadata.epoch.hex ∧
        t.epochs[u.metadata.epoch]? = none ∧
        ∃ p ∈ t.queue.waiting u.metadata.epoch,
          ch.Stranded (t.instanceFor u.metadata) u.founding p)) := by
  refine ⟨fun e p v => ?_, fun e p v => ?_, fun u latest v examined same => ?_⟩
  · exact h.tryReceive_eq_error_iff
  · exact receive_eq_error_iff.trans h.tryReceive_eq_error_iff
  · exact h.confirm_eq_error_iff examined same

end Tracker
end

namespace AdditionGame

/-- Without comments the addition game parses whatever it takes for a board state. -/
lemma HouseRules.parsesAlike {house : HouseRules} (strict : house.comments = false) :
    house.rules.ParsesAlike := by
  intro id m data s data' parsed same
  obtain ⟨s', plain, bounded⟩ := Option.bind_eq_some_iff.1 parsed
  obtain ⟨⟨number, count⟩, _, rfl⟩ := Option.map_eq_some_iff.1 plain
  obtain ⟨bound, eq⟩ := Option.ite_none_right_eq_some.1 bounded
  cases eq
  have same : numbers? data' = some (number, count) := by
    simpa [rules, AdditionGame.rules, strict] using same
  simpa [rules, AdditionGame.rules, AdditionGame.parse, same] using bound

/-- The first move with a comment on the state that it leads to. -/
def commented : StateProof :=
  firstMove { comments := true } (Bytes.ofText "11 1#")

/-- A state with a comment is claimed by a valid proof, but it does not parse. -/
lemma commented_stranded : (hall { comments := true }).Stranded seating opening commented := by
  refine ⟨rfl, firstMove_valid (by decide), ?_⟩
  show (hall { comments := true }).rules.parse _ seating (Bytes.ofText "11 1#") = none
  decide

end AdditionGame

open AdditionGame in
/-- So the first move of an addition game does if its state has a comment, whether it arrives after
its epoch is known or before. -/
theorem Tracker.Reachable.peer_data_violates_commented :
    ((openTable { comments := true }).Reachable (hall { comments := true }) 1 ∧
      (openTable { comments := true }).tryReceive (hall { comments := true }) seating.epoch
        commented = .error (.unparsableState seating.epoch.hex)) ∧
    ∃ t : Tracker AdditionGame.State, t.Reachable (hall { comments := true }) 1 ∧
      t.queue.waiting seating.epoch = [commented] ∧
      t.confirm (hall { comments := true }) opened
        = .error (.unparsableState seating.epoch.hex) := by
  constructor
  · refine ⟨openTable_reachable, (openTable_reachable.peer_data_violates_iff.1 _ _ _).2 ⟨rfl, ?_⟩⟩
    exact ⟨_, openTable_known, commented_stranded⟩
  · have unknown : emptyTable.epochs[seating.epoch]? = none := Std.ExtTreeMap.getElem?_empty
    have early : Tracker.Received (hall { comments := true }) emptyTable seating.epoch commented
        _ _ :=
      .early unknown (UpdateQueue.insert_of_lt Nat.zero_lt_one _ _)
    have reachable := emptyTable_reachable.tryReceive (Tracker.tryReceive_eq_ok_iff.2 early)
    have waits : (emptyTable.queue.push seating.epoch commented).waiting seating.epoch
        = [commented] :=
      (UpdateQueue.waiting_push ..).trans (if_pos rfl)
    refine ⟨_, reachable, waits, ?_⟩
    refine (reachable.peer_data_violates_iff.2.2 opened _ _ opened_examined ?_).2 ⟨rfl, unknown, ?_⟩
    · exact fun known found => nomatch unknown.symm.trans found
    · exact ⟨commented, waits ▸ .head _, commented_stranded⟩

end StateChannel
