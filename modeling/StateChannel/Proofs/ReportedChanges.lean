import StateChannel.Proofs.Freshness

/-!
# What updates report

An update reports a change exactly if the current epoch is another one afterwards, or if the turn
count of its latest board state is. That a first on-chain update always reports one rests on the
current epoch being known: an epoch that is founded has not been the current one before.

Since an epoch is replaced only with a higher turn count, nothing but the confirmed turn count of
the current epoch changes with an update that reports no change.
-/

namespace StateChannel
open Std

variable {State : Type}

/-- As long as the turn count stays the same, only the confirmed turn count changes. -/
lemma Epoch.Precedes.eq_of_turn_eq {rules : GameRules State} {k k' : Epoch State}
    (h : k.Precedes rules k') (same : k'.turn rules = k.turn rules) :
    k' = { k with confirmed := k'.confirmed } := by
  have kept : ¬ (k'.proof ≠ k.proof ∨ k'.latest ≠ k.latest) := by
    intro differs
    have lt := h.replaced differs
    rw [same] at lt
    exact UInt32.lt_irrefl _ lt
  obtain ⟨proof, latest⟩ := not_or.1 kept
  cases k' with
  | mk =>
    rw [Epoch.mk.injEq]
    exact ⟨h.metadata, h.founding, not_not.1 proof, not_not.1 latest, rfl⟩

namespace Tracker

variable {ch : Channel State} {capacity : Nat} {t t' : Tracker State} {e : EpochId}
variable {p : StateProof} {k : Epoch State} {u : OnChainUpdate} {x : Update} {changed : Bool}

variable (ch) in
/-- The current epoch and the turn count of its latest board state, as far as there are any. -/
def standing (t : Tracker State) : Option EpochId × Option UInt32 :=
  (t.selected, t.currentEpoch.toOption.map (·.turn ch.rules))

/-- What is known about the current epoch can be read. -/
lemma currentEpoch_of_known (current : t.selected = some e) (stored : t.epochs[e]? = some k) :
    t.currentEpoch = .ok k := by
  simp [currentEpoch, Tracker.current, current, stored]

/-- Nothing can be read before there is a current epoch. -/
lemma currentEpoch_of_none (none : t.selected = none) :
    t.currentEpoch = .error .uninitialised := by
  simp [currentEpoch, Tracker.current, none]

/-- A known current epoch stands at the turn count of its latest state. -/
lemma standing_of_known (current : t.selected = some e) (stored : t.epochs[e]? = some k) :
    t.standing ch = (some e, some (k.turn ch.rules)) := by
  rw [standing, currentEpoch_of_known current stored, current]
  rfl

/-- Only what is known about the current epoch matters. -/
lemma standing_congr (selected : t'.selected = t.selected)
    (same : ∀ e, t.selected = some e → t'.epochs[e]? = t.epochs[e]?) :
    t'.standing ch = t.standing ch := by
  simp only [standing, currentEpoch, Tracker.current, selected]
  cases current : t.selected with
  | none => rfl
  | some e => simp only [Violation.ok_bind, same e current]

/-- After a write to the current epoch, it stands where the written state does. -/
lemma standing_write {selected : Option EpochId} (current : selected = some e)
    (queue : UpdateQueue) :
    standing ch ⟨selected, t.epochs.insert e k, queue⟩ = (some e, some (k.turn ch.rules)) :=
  standing_of_known current ExtTreeMap.getElem?_insert_self

/-- A tracker has moved on if its current epoch has a higher turn count. -/
lemma standing_write_ne {selected : Option EpochId} {known : Epoch State}
    (current : selected = some e) (found : t.epochs[e]? = some known)
    (lt : known.turn ch.rules < k.turn ch.rules) (queue : UpdateQueue) :
    standing ch ⟨selected, t.epochs.insert e k, queue⟩ ≠ t.standing ch := by
  intro same
  rw [standing_write current] at same
  have before : t.selected = some e := (congrArg Prod.fst same).symm
  rw [standing_of_known before found] at same
  have turn : k.turn ch.rules = known.turn ch.rules := by simpa using same
  rw [turn] at lt
  exact UInt32.lt_irrefl _ lt

/-- The current epoch is known. -/
def CurrentKnown (t : Tracker State) : Prop :=
  ∀ e, t.selected = some e → ∃ k, t.epochs[e]? = some k

/-- The current epoch stays known over every step. -/
lemma Step.currentKnown (st : Step ch t t') (h : t.CurrentKnown) : t'.CurrentKnown := by
  have precedes := st.precedes
  intro e current
  cases st with
  | wait => exact h e current
  | advance =>
    obtain ⟨k, stored⟩ := h e current
    obtain ⟨k', stored', _⟩ := precedes e k stored
    exact ⟨k', stored'⟩
  | found | reconfirm | overtake =>
    cases current
    exact ⟨_, ExtTreeMap.getElem?_insert_self⟩

/-- The current epoch of a reachable tracker is known. -/
lemma Reachable.currentKnown (h : t.Reachable ch capacity) : t.CurrentKnown := by
  refine h.induction (fun new => ?_) Step.currentKnown
  obtain ⟨_, rfl⟩ := new_eq_ok_iff.1 new
  exact fun e current => nomatch current

/-- A proof from a player does not change which epoch is the current one. -/
lemma Received.selected_eq {outcome : Except Rejection Bool} (h : Received ch t e p outcome t') :
    t'.selected = t.selected := by
  cases h <;> rfl

/-- Processing the queued proofs does not change which epoch is the current one. -/
lemma replay_selected_eq {ps : List StateProof} (h : t.replay ch e ps = .ok t') :
    t'.selected = t.selected := by
  induction ps generalizing t with
  | nil =>
    cases h
    rfl
  | cons p ps ih =>
    obtain ⟨_, _, received, h⟩ := replay_cons_eq_ok h
    exact (ih h).trans received.selected_eq

/-- A proof from a player is reported to change something exactly if it moves the current epoch on.
-/
lemma Received.changed_iff {outcome : Except Rejection Bool} (h : Received ch t e p outcome t') :
    outcome.toOption.getD false = true ↔ t'.standing ch ≠ t.standing ch := by
  cases h with
  | early | unsupported | invalid | stale =>
    exact iff_of_false Bool.false_ne_true fun differs => differs rfl
  | fresh found examined lt =>
    show decide (t.selected = some e) = true ↔ _
    rw [decide_eq_true_iff]
    by_cases current : t.selected = some e
    · exact iff_of_true current (standing_write_ne current found lt _)
    · refine iff_of_false current fun differs => differs (standing_congr rfl fun f other => ?_)
      have ne : e ≠ f := by
        rintro rfl
        exact current other
      exact EpochMap.getElem?_insert_of_ne ne

/-- An on-chain update is reported to change something exactly if it selects another epoch or moves
the current one on. -/
lemma Confirmed.changed_iff (h : Confirmed ch t u changed t') (known : t.CurrentKnown) :
    changed = true ↔ t'.standing ch ≠ t.standing ch := by
  cases h with
  | founded unknown examined extracted replayed =>
    -- An epoch that was the current one before would have been known.
    refine iff_of_true rfl fun same => ?_
    have selected : t'.selected = some u.metadata.epoch := replay_selected_eq replayed
    have current : t.selected = some u.metadata.epoch :=
      (congrArg Prod.fst same).symm.trans selected
    obtain ⟨k, stored⟩ := known _ current
    cases unknown.symm.trans stored
  | stale found =>
    -- Confirming leaves the turn count as it is, so only the selection can have changed.
    rw [decide_eq_true_iff, standing_write rfl, Epoch.turn_confirm]
    by_cases current : t.selected = some u.metadata.epoch
    · rw [standing_of_known current found]
      exact iff_of_false (absurd current) (absurd rfl)
    · exact iff_of_true current fun same => current (congrArg Prod.fst same).symm
  | fresh found examined metadata founding lt =>
    exact iff_of_true rfl (standing_write_ne rfl found lt _)

/-- An update is reported to change something exactly if the tracker stands elsewhere after it. -/
lemma Reachable.changed_iff (h : t.Reachable ch capacity)
    (applied : t.apply ch x = .ok (changed, t')) :
    changed = true ↔ t'.standing ch ≠ t.standing ch := by
  cases x with
  | onChain u => exact (confirm_eq_ok_iff.1 applied).changed_iff h.currentKnown
  | offChain e p =>
    obtain ⟨_, received, rfl⟩ := receive_eq_ok_iff.1 applied
    exact (tryReceive_eq_ok_iff.1 received).changed_iff

/-- After an update that reports no change, at most more turns are confirmed of the current epoch.
-/
lemma Reachable.unchanged (h : t.Reachable ch capacity)
    (applied : t.apply ch x = .ok (false, t')) :
    t'.selected = t.selected ∧
      ∀ e k, t.selected = some e → t.epochs[e]? = some k →
        ∃ n, k.confirmed ≤ n ∧ t'.epochs[e]? = some { k with confirmed := n } := by
  have same : t'.standing ch = t.standing ch :=
    not_not.1 fun differs => Bool.false_ne_true ((h.changed_iff applied).2 differs)
  have selected : t'.selected = t.selected := congrArg Prod.fst same
  refine ⟨selected, fun e k current stored => ?_⟩
  obtain ⟨k', stored', precedes⟩ := (apply_steps applied).precedes e k stored
  rw [standing_of_known current stored, standing_of_known (selected.trans current) stored'] at same
  have eq := precedes.eq_of_turn_eq (by simpa using same)
  exact ⟨k'.confirmed, precedes.confirmed, eq ▸ stored'⟩

/-- An update reports a change exactly if the current epoch or the turn count of its latest board
state is another one afterwards. If it reports none, the current epoch is the same one with the same
metadata, proof and board state. -/
theorem Reachable.reports_change_iff (h : t.Reachable ch capacity)
    (applied : t.apply ch x = .ok (changed, t')) :
    (changed = true ↔ t'.standing ch ≠ t.standing ch) ∧
      (changed = false →
        t'.selected = t.selected ∧
        t'.currentEpoch.map (fun k => (k.metadata, k.proof, k.latest))
          = t.currentEpoch.map (fun k => (k.metadata, k.proof, k.latest))) := by
  refine ⟨h.changed_iff applied, ?_⟩
  rintro rfl
  obtain ⟨selected, kept⟩ := h.unchanged applied
  refine ⟨selected, ?_⟩
  cases current : t.selected with
  | none => rw [currentEpoch_of_none current, currentEpoch_of_none (selected.trans current)]
  | some e =>
    obtain ⟨k, stored⟩ := h.currentKnown e current
    obtain ⟨n, _, stored'⟩ := kept e k current stored
    rw [currentEpoch_of_known current stored,
      currentEpoch_of_known (selected.trans current) stored']
    rfl

end Tracker

namespace AdditionGame

/-- The tracker after what the players started from is confirmed once more. -/
def reconfirmed : Tracker AdditionGame.State :=
  { played with
    selected := some seating.epoch
    epochs := played.epochs.insert seating.epoch
      (((seated {}).replaceLatest (firstMove {} (encode 11 1)) ⟨seating, 11, 1⟩).confirm 0) }

/-- Confirming once more what the players started from reports no change. -/
lemma reconfirmed_confirmed : played.confirm (hall {}) opened = .ok (false, reconfirmed) := by
  let known := (seated {}).replaceLatest (firstMove {} (encode 11 1)) ⟨seating, 11, 1⟩
  have below : (hall {}).rules.turn ⟨seating, 10, 0⟩ ≤ known.turn (hall {}).rules := by
    show (0 : UInt32) ≤ 1
    decide
  have again := Tracker.Confirmed.of_founding (t := played) (k := known) played_known rfl
    opening_parsed opening_encodes below
  exact Tracker.confirm_eq_ok_iff.2 again

end AdditionGame

open AdditionGame in
/-- So the first move of an addition game is reported as a change, and the founding state is not if
it is confirmed once more after it. -/
theorem Tracker.Reachable.reports_change_iff_firstMove :
    ((openTable {}).Reachable (hall {}) 1 ∧
      (openTable {}).apply (hall {}) (.offChain seating.epoch (firstMove {} (encode 11 1)))
        = .ok (true, played) ∧
      played.standing (hall {}) ≠ (openTable {}).standing (hall {})) ∧
    (played.Reachable (hall {}) 1 ∧
      played.apply (hall {}) (.onChain opened) = .ok (false, reconfirmed) ∧
      reconfirmed.standing (hall {}) = played.standing (hall {}) ∧
      reconfirmed.selected = played.selected ∧
      reconfirmed.currentEpoch.map (fun k => (k.metadata, k.proof, k.latest))
        = played.currentEpoch.map (fun k => (k.metadata, k.proof, k.latest))) := by
  constructor
  · refine ⟨openTable_reachable, played_received, ?_⟩
    exact (openTable_reachable.reports_change_iff (x := .offChain ..) played_received).1.1 rfl
  · obtain ⟨report, same⟩ :=
      played_reachable.reports_change_iff (x := .onChain _) reconfirmed_confirmed
    refine ⟨played_reachable, reconfirmed_confirmed, ?_, same rfl⟩
    exact not_not.1 fun differs => Bool.false_ne_true (report.2 differs)

end StateChannel
