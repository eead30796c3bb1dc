import StateChannel.Proofs.SignedDrafts

/-!
# Epochs only move on

No update loses an epoch or changes what it was founded with, and neither of its turn counts ever
decreases. The latest proof and board state are replaced only by ones with a higher turn count.

`Epoch.Precedes` says this of one epoch at two times. It is transitive, so it is enough that every
step of a tracker keeps to it.
-/

namespace StateChannel
open Std

variable {State : Type}

/-- What is known about an epoch is at most as recent as what is known later: the epoch was founded
with the same data, no turn count has decreased, and what has been replaced had a lower turn count.
-/
structure Epoch.Precedes (rules : GameRules State) (k k' : Epoch State) : Prop where
  metadata : k'.metadata = k.metadata
  founding : k'.founding = k.founding
  turn : k.turn rules ≤ k'.turn rules
  confirmed : k.confirmed ≤ k'.confirmed
  replaced : k'.proof ≠ k.proof ∨ k'.latest ≠ k.latest → k.turn rules < k'.turn rules

namespace Epoch

variable {rules : GameRules State} {k k' k'' : Epoch State}

/-- What is known precedes itself. -/
lemma Precedes.refl : k.Precedes rules k where
  metadata := rfl
  founding := rfl
  turn := UInt32.le_refl _
  confirmed := UInt32.le_refl _
  replaced := fun differs => by simp at differs

/-- What precedes something precedes what comes after that. -/
lemma Precedes.trans (h : k.Precedes rules k') (h' : k'.Precedes rules k'') :
    k.Precedes rules k'' where
  metadata := h'.metadata.trans h.metadata
  founding := h'.founding.trans h.founding
  turn := UInt32.le_trans h.turn h'.turn
  confirmed := UInt32.le_trans h.confirmed h'.confirmed
  replaced := by
    intro differs
    -- If nothing was replaced at first, it was later.
    by_cases same : k'.proof = k.proof ∧ k'.latest = k.latest
    · rw [← same.1, ← same.2] at differs
      exact UInt32.lt_of_le_of_lt h.turn (h'.replaced differs)
    · exact UInt32.lt_of_lt_of_le (h.replaced (not_and_or.1 same)) h'.turn

/-- Confirming a turn count moves an epoch on. -/
lemma precedes_confirm (turn : UInt32) : k.Precedes rules (k.confirm turn) where
  metadata := rfl
  founding := rfl
  turn := UInt32.le_refl _
  confirmed := by
    rw [confirmed_confirm]
    split
    next le => exact le
    next => exact UInt32.le_refl _
  replaced := fun differs => by simp [confirm] at differs

/-- A proof with a higher turn count moves an epoch on. -/
lemma precedes_replaceLatest {p : StateProof} {latest : State}
    (lt : k.turn rules < rules.turn latest) : k.Precedes rules (k.replaceLatest p latest) where
  metadata := rfl
  founding := rfl
  turn := UInt32.le_of_lt lt
  confirmed := UInt32.le_refl _
  replaced := fun _ => lt

end Epoch

namespace Tracker

variable {ch : Channel State} {t t' : Tracker State} {e : EpochId} {k : Epoch State}
variable {u : OnChainUpdate}

variable (ch) in
/-- All epochs of a tracker are known to a later one, which knows nothing less recent about them. -/
def Precedes (t t' : Tracker State) : Prop :=
  ∀ (e : EpochId) (k : Epoch State), t.epochs[e]? = some k →
    ∃ k', t'.epochs[e]? = some k' ∧ k.Precedes ch.rules k'

/-- A tracker precedes one with something more recent about one of its epochs. -/
lemma precedes_write {known : Epoch State} (found : t.epochs[e]? = some known)
    (later : known.Precedes ch.rules k) (selected : Option EpochId) (queue : UpdateQueue) :
    t.Precedes ch ⟨selected, t.epochs.insert e k, queue⟩ := by
  intro f old stored
  by_cases eq : e = f
  · subst eq
    cases found.symm.trans stored
    exact ⟨k, ExtTreeMap.getElem?_insert_self, later⟩
  · exact ⟨old, (EpochMap.getElem?_insert_of_ne eq).trans stored, .refl⟩

/-- Every step moves a tracker on. -/
lemma Step.precedes (st : Step ch t t') : t.Precedes ch t' := by
  cases st with
  | wait => exact fun e k stored => ⟨k, stored, .refl⟩
  | advance found examined lt =>
    exact precedes_write found (Epoch.precedes_replaceLatest lt) _ _
  | @found _ _ _ u unknown =>
    -- What is known about other epochs is not touched, and the founded one was not known.
    intro f old stored
    have ne : u.metadata.epoch ≠ f := by
      rintro rfl
      cases unknown.symm.trans stored
    exact ⟨old, (EpochMap.getElem?_insert_of_ne ne).trans stored, .refl⟩
  | reconfirm found => exact precedes_write found (Epoch.precedes_confirm _) _ _
  | overtake found examined metadata founding lt =>
    refine precedes_write found ?_ _ _
    exact (Epoch.precedes_confirm _).trans (Epoch.precedes_replaceLatest lt)

/-- A tracker moves on over any number of steps. -/
lemma Steps.precedes (h : Steps ch t t') : t.Precedes ch t' := by
  induction h with
  | refl => exact fun e k stored => ⟨k, stored, .refl⟩
  | tail _ st ih =>
    intro e k stored
    obtain ⟨k', stored', before⟩ := ih e k stored
    obtain ⟨k'', stored'', after⟩ := st.precedes e k' stored'
    exact ⟨k'', stored'', before.trans after⟩

/-- An epoch is known, and was founded with the given data. -/
def Founded (t : Tracker State) (e : EpochId) (m : Metadata.Instance) (founding : Bytes) : Prop :=
  ∃ known : Epoch State, t.epochs[e]? = some known ∧ known.metadata = m ∧ known.founding = founding

/-- What an epoch was founded with never changes. -/
lemma Steps.founded {m : Metadata.Instance} {founding : Bytes} (h : Steps ch t t')
    (start : t.Founded e m founding) : t'.Founded e m founding := by
  obtain ⟨k, stored, rfl, rfl⟩ := start
  obtain ⟨k', stored', before⟩ := h.precedes e k stored
  exact ⟨k', stored', before.metadata, before.founding⟩

/-- An on-chain update is not processed if it contradicts what its epoch was founded with. -/
lemma confirm_eq_error_of_changed (stored : t.epochs[u.metadata.epoch]? = some k)
    (changed : u.metadata ≠ k.metadata.toMetadata ∨ u.founding ≠ k.founding) :
    ∃ v, t.confirm ch u = .error v := by
  cases confirmed : t.confirm ch u with
  | error v => exact ⟨v, rfl⟩
  | ok r =>
    obtain ⟨_, t'⟩ := r
    cases confirm_eq_ok_iff.1 confirmed with
    | founded unknown => cases unknown.symm.trans stored
    | stale found _ metadata founding | fresh found _ metadata founding =>
      cases found.symm.trans stored
      exact changed.elim (absurd metadata.symm) (absurd founding.symm)

/-- Every update that is processed leaves a known epoch known and only moves it on, and no on-chain
update that contradicts what the epoch was founded with is processed. -/
theorem update_precedes (stored : t.epochs[e]? = some k) :
    (∀ x changed t', t.apply ch x = .ok (changed, t') →
      ∃ k', t'.epochs[e]? = some k' ∧ k.Precedes ch.rules k') ∧
    (∀ f p outcome t', t.tryReceive ch f p = .ok (outcome, t') →
      ∃ k', t'.epochs[e]? = some k' ∧ k.Precedes ch.rules k') ∧
    (∀ u : OnChainUpdate, u.metadata.epoch = e →
      u.metadata ≠ k.metadata.toMetadata ∨ u.founding ≠ k.founding →
        ∃ v, t.confirm ch u = .error v) := by
  refine ⟨?applied, ?received, ?refused⟩
  case applied =>
    intro x changed t' applied
    exact (apply_steps applied).precedes e k stored
  case received =>
    intro f p outcome t' received
    exact (tryReceive_eq_ok_iff.1 received).steps.precedes e k stored
  case refused =>
    rintro u rfl changed
    exact confirm_eq_error_of_changed stored changed

open AdditionGame in
/-- So the first move of an addition game moves its epoch on, and the epoch cannot be confirmed with
another founding state. -/
theorem update_precedes_firstMove :
    (openTable {}).epochs[seating.epoch]? = some (seated {}) ∧
      (openTable {}).apply (hall {}) (.offChain seating.epoch (firstMove {} (encode 11 1)))
        = .ok (true, played) ∧
      (∃ k', played.epochs[seating.epoch]? = some k' ∧ (seated {}).Precedes (hall {}).rules k') ∧
      (openTable {}).tryReceive (hall {}) seating.epoch (firstMove {} (encode 11 1))
        = .ok (.ok true, played) ∧
      (∃ k', played.epochs[seating.epoch]? = some k' ∧ (seated {}).Precedes (hall {}).rules k') ∧
      Bytes.ofText "20 0" ≠ (seated {}).founding ∧
      ∃ v, (openTable {}).confirm (hall {}) { opened with founding := Bytes.ofText "20 0" }
        = .error v := by
  have outcome := tryReceive_eq_ok_iff.2 played_fresh
  have differs : Bytes.ofText "20 0" ≠ (seated {}).founding := by decide
  refine ⟨openTable_known, played_received, ?_, outcome, ?_, differs, ?_⟩
  · exact (update_precedes openTable_known).1 (.offChain ..) _ _ played_received
  · exact (update_precedes openTable_known).2.1 _ _ _ _ outcome
  · exact (update_precedes openTable_known).2.2 _ rfl (.inr differs)

end Tracker
end StateChannel
