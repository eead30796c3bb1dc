import StateChannel.Proofs.Convergence
import StateChannel.Proofs.Histories

/-!
# Updates that are delivered again

Once a proof from a player has been processed for a known epoch, it brings nothing new to that epoch
any more (`Spent`): it is not good, or its turn count has been reached. Once an on-chain update has
been processed, its turn count is confirmed (`Settled`). As epochs only move on, both stay so, and
whoever delivers an update a second time changes at most which epoch is current.
-/

namespace StateChannel
open Std

variable {State : Type}

/-- Confirming no more turns than confirmed already changes nothing. -/
lemma Epoch.confirm_eq_self {k : Epoch State} {turn : UInt32} (le : turn ≤ k.confirmed) :
    k.confirm turn = k := by
  have same : (k.confirm turn).confirmed = k.confirmed := by
    rw [confirmed_confirm]
    split
    next ge => exact UInt32.le_antisymm le ge
    next => rfl
  show { k with confirmed := (k.confirm turn).confirmed } = k
  rw [same]

/-- At least as many turns are confirmed as were just confirmed. -/
lemma Epoch.le_confirmed_confirm {k : Epoch State} {turn : UInt32} :
    turn ≤ (k.confirm turn).confirmed := by
  rw [confirmed_confirm]
  split
  next => exact UInt32.le_refl _
  next gt => exact UInt32.le_of_lt (UInt32.not_le.1 gt)

namespace Tracker

variable {ch : Channel State} {start t t' : Tracker State} {e : EpochId} {p : StateProof}
variable {u : OnChainUpdate} {xs : List Update} {known : Epoch State} {latest : State}

variable (ch) in
/-- A proof brings nothing new to an epoch: the epoch is known, and the proof leads to no higher
turn count if it is good. -/
def Spent (t : Tracker State) (e : EpochId) (p : StateProof) : Prop :=
  ∃ known : Epoch State, t.epochs[e]? = some known ∧
    ch.Within known.metadata known.founding (known.turn ch.rules) p

/-- A proof for a known epoch is spent once it has been processed. -/
lemma Received.spent {outcome : Except Rejection Bool} (h : Received ch t e p outcome t')
    (known : e ∈ t.epochs) : t'.Spent ch e p := by
  cases h with
  | early unknown => exact absurd known (EpochMap.getElem?_eq_none_iff.1 unknown)
  | unsupported found examined =>
    exact ⟨_, found, Channel.within_of_error examined nofun⟩
  | invalid found examined =>
    exact ⟨_, found, Channel.within_of_error examined nofun⟩
  | stale found good le =>
    exact ⟨_, found, (Channel.within_iff good).2 le⟩
  | fresh found good =>
    refine ⟨_, ExtTreeMap.getElem?_insert_self, ?_⟩
    exact (Channel.within_iff good).2 (UInt32.le_refl _)

/-- A proof that is spent stays so. -/
lemma Spent.steps (h : t.Spent ch e p) (later : Steps ch t t') : t'.Spent ch e p := by
  obtain ⟨known, found, within⟩ := h
  obtain ⟨known', found', precedes⟩ := later.precedes e known found
  refine ⟨known', found', ?_⟩
  rw [precedes.metadata, precedes.founding]
  exact within.mono precedes.turn

/-- A proof that is spent is rejected and has no effect. -/
lemma Spent.tryReceive_eq (h : t.Spent ch e p) : ∃ r, t.tryReceive ch e p = .ok (.error r, t) := by
  obtain ⟨known, found, within⟩ := h
  cases examined : ch.examine known.metadata known.founding p with
  | error fault =>
    cases fault with
    | unsupportedVersion => exact ⟨_, tryReceive_eq_ok_iff.2 (.unsupported found examined)⟩
    | invalid => exact ⟨_, tryReceive_eq_ok_iff.2 (.invalid found examined)⟩
    | unparsable =>
      -- Such a proof would not have been processed the first time.
      obtain ⟨accepted, valid, unparsed⟩ := Channel.examine_eq_unparsable_iff.1 examined
      have verified := Channel.verify?_eq_some_iff.2 ⟨valid, rfl⟩
      obtain ⟨s, parsed, _⟩ := within p.latest accepted verified
      cases unparsed.symm.trans parsed
  | ok latest =>
    have le := (Channel.within_iff examined).1 within
    exact ⟨_, tryReceive_eq_ok_iff.2 (.stale found examined le)⟩

/-- All proofs are spent that have been processed from the queue. -/
lemma replay_spent {ps : List StateProof} (h : t.replay ch e ps = .ok t') (known : e ∈ t.epochs)
    (mem : p ∈ ps) : t'.Spent ch e p := by
  induction ps generalizing t with
  | nil => cases mem
  | cons q ps ih =>
    obtain ⟨_, next, received, further⟩ := replay_cons_eq_ok h
    cases mem with
    | head => exact (received.spent known).steps (replay_steps further)
    | tail _ mem => exact ih further (received.mem_iff.2 known) mem

/-- After a proof was processed for a known epoch, it is spent. -/
lemma Handled.spent (h : Handled ch start xs e p) (history : History ch start xs t) :
    t.Spent ch e p := by
  cases h with
  | sent eq before known =>
    subst eq
    obtain ⟨t1, _, t2, before', applied, after⟩ := history.split
    cases before.unique before'
    obtain ⟨_, received, _⟩ := receive_eq_ok_iff.1 applied
    exact ((tryReceive_eq_ok_iff.1 received).spent known).steps after.steps
  | replayed eq before same unknown mem =>
    subst eq same
    obtain ⟨t1, _, t2, before', applied, after⟩ := history.split
    cases before.unique before'
    cases confirm_eq_ok_iff.1 applied with
    | founded _ _ extracted replayed =>
      cases UpdateQueue.extract_eq_ok extracted
      exact (replay_spent replayed ExtTreeMap.mem_insert_self mem).steps after.steps
    | stale found | fresh found => exact absurd (EpochMap.mem_of_getElem? found) unknown

variable (ch) in
/-- An on-chain update is nothing new to an epoch: it agrees with what the epoch was founded with,
and the turn count that it confirms is known and confirmed. -/
structure Settled (t : Tracker State) (u : OnChainUpdate) (known : Epoch State) (latest : State) :
    Prop where
  stored : t.epochs[u.metadata.epoch]? = some known
  metadata : known.metadata.toMetadata = u.metadata
  founding : known.founding = u.founding
  good : ch.examine known.metadata u.founding u.proof = .ok latest
  turn : ch.rules.turn latest ≤ known.turn ch.rules
  confirmed : ch.rules.turn latest ≤ known.confirmed

/-- An on-chain update that is settled stays so. -/
lemma Settled.steps (h : Settled ch t u known latest) (later : Steps ch t t') :
    ∃ known, Settled ch t' u known latest := by
  obtain ⟨known', stored', precedes⟩ := later.precedes _ known h.stored
  have metadata : known'.metadata.toMetadata = u.metadata := precedes.metadata ▸ h.metadata
  have good : ch.examine known'.metadata u.founding u.proof = .ok latest :=
    precedes.metadata ▸ h.good
  exact ⟨known', stored', metadata, precedes.founding.trans h.founding, good,
    UInt32.le_trans h.turn precedes.turn, UInt32.le_trans h.confirmed precedes.confirmed⟩

/-- An on-chain update is settled once it has been processed. -/
lemma Confirmed.settled {changed : Bool} (h : Confirmed ch t u changed t') :
    ∃ known latest, Settled ch t' u known latest := by
  cases h with
  | @founded latest _ queue _ unknown good extracted replayed =>
    have founded : Settled ch (t.found ch u latest queue) u
        (.found ch.rules u.metadata.first u.founding u.proof latest) latest :=
      ⟨ExtTreeMap.getElem?_insert_self, rfl, rfl, good, UInt32.le_refl _, UInt32.le_refl _⟩
    obtain ⟨known, settled⟩ := founded.steps (replay_steps replayed)
    exact ⟨known, latest, settled⟩
  | stale found good metadata founding le =>
    exact ⟨_, _, ExtTreeMap.getElem?_insert_self, metadata, founding, good, le,
      Epoch.le_confirmed_confirm⟩
  | fresh found good metadata founding lt =>
    exact ⟨_, _, ExtTreeMap.getElem?_insert_self, metadata, founding, good, UInt32.le_refl _,
      Epoch.le_confirmed_confirm⟩

/-- A settled on-chain update only makes its epoch the current one. -/
lemma Settled.confirm_eq (h : Settled ch t u known latest) :
    t.confirm ch u = .ok (t.selected ≠ some u.metadata.epoch,
      { t with selected := some u.metadata.epoch }) := by
  have stale : Confirmed ch t u _ _ :=
    .stale h.stored h.good h.metadata h.founding h.turn
  rw [Epoch.confirm_eq_self h.confirmed, EpochMap.insert_eq_self h.stored] at stale
  exact confirm_eq_ok_iff.2 stale

/-- All on-chain updates of a history are settled after it. -/
lemma History.settled (h : History ch start xs t) (mem : .onChain u ∈ xs) :
    ∃ known latest, Settled ch t u known latest := by
  obtain ⟨before, after, rfl⟩ := List.append_of_mem mem
  obtain ⟨t1, _, t2, _, applied, later⟩ := h.split
  obtain ⟨known, latest, settled⟩ := (confirm_eq_ok_iff.1 applied).settled
  obtain ⟨known, settled⟩ := settled.steps later.steps
  exact ⟨known, latest, settled⟩

/-- However much has happened since, a proof that was processed for a known epoch is rejected when
it is delivered again, with no effect, and an on-chain update that was processed has no effect when
it is delivered again but to make its epoch the current one, which it reports as a change if another
epoch was. -/
theorem History.redelivered (h : History ch start xs t) :
    (∀ e p, Handled ch start xs e p →
      (∃ r, t.tryReceive ch e p = .ok (.error r, t)) ∧ t.receive ch e p = .ok (false, t)) ∧
    ∀ u, .onChain u ∈ xs →
      t.confirm ch u = .ok (t.selected ≠ some u.metadata.epoch,
        { t with selected := some u.metadata.epoch }) := by
  constructor
  · intro e p handled
    obtain ⟨r, rejected⟩ := (handled.spent h).tryReceive_eq
    exact ⟨⟨r, rejected⟩, receive_eq_ok_iff.2 ⟨_, rejected, rfl⟩⟩
  · intro u mem
    obtain ⟨known, latest, settled⟩ := h.settled mem
    exact settled.confirm_eq

open AdditionGame in
/-- So it is with the first move of an addition game that waited for its epoch, and with what the
players started from. -/
theorem History.redelivered_firstMove :
    History (hall {}) emptyTable
        [.offChain seating.epoch (firstMove {} (encode 11 1)), .onChain opened] played ∧
      Handled (hall {}) emptyTable
        [.offChain seating.epoch (firstMove {} (encode 11 1)), .onChain opened]
        seating.epoch (firstMove {} (encode 11 1)) ∧
      (∃ r, played.tryReceive (hall {}) seating.epoch (firstMove {} (encode 11 1))
        = .ok (.error r, played)) ∧
      played.receive (hall {}) seating.epoch (firstMove {} (encode 11 1)) = .ok (false, played) ∧
      played.confirm (hall {}) opened = .ok (false, played) := by
  have unknown : emptyTable.epochs[seating.epoch]? = none := ExtTreeMap.getElem?_empty
  have ran : emptyTable.run (hall {})
      [.offChain seating.epoch (firstMove {} (encode 11 1)), .onChain opened] = .ok played :=
    (emptyTable_reachable.run_swap (u := opened) unknown Nat.zero_lt_one _ []).trans played_run
  have history : History (hall {}) emptyTable
      [.offChain seating.epoch (firstMove {} (encode 11 1)), .onChain opened] played :=
    history_iff_run.2 ran
  have reachable : emptyTable.Reachable (hall {}) 1 := emptyTable_reachable
  have waits := reachable.receive_of_room unknown Nat.zero_lt_one (firstMove {} (encode 11 1))
  have handled : Handled (hall {}) emptyTable
      [.offChain seating.epoch (firstMove {} (encode 11 1)), .onChain opened]
      seating.epoch (firstMove {} (encode 11 1)) := by
    have before : History (hall {}) emptyTable
        [.offChain seating.epoch (firstMove {} (encode 11 1))] _ :=
      .apply (x := .offChain ..) .start waits
    refine .replayed rfl before rfl
      (EpochMap.getElem?_eq_none_iff.1 unknown) ?_
    rw [UpdateQueue.waiting_push, if_pos rfl]
    exact List.mem_append_right _ (.head _)
  obtain ⟨rejected, unchanged⟩ := history.redelivered.1 _ _ handled
  refine ⟨history, handled, rejected, unchanged, ?_⟩
  exact history.redelivered.2 opened (.tail _ (.head _))

end Tracker
end StateChannel
