import Mathlib.Logic.Relation
import StateChannel.Tracker.Reachable

/-!
# What an update does to a tracker

An update is a sequence of steps, each of which changes one place: a proof is put in the queue, an
epoch moves on, or an on-chain update founds or confirms an epoch. Replaying the proofs that waited
for an epoch is a sequence of steps too, so a property that every step keeps holds of every
reachable tracker (`Reachable.induction`).

`Received` and `Confirmed` say what `tryReceive` and `confirm` return when they return, one case for
each way through them.
-/

namespace StateChannel
open Std

/-- What is found in a map with a new value is that value or was there before. -/
lemma EpochMap.getElem?_insert_eq_some {α : Type} {m : EpochMap α} {e f : EpochId} {x y : α}
    (h : (m.insert e x)[f]? = some y) : f = e ∧ y = x ∨ m[f]? = some y := by
  rw [ExtTreeMap.getElem?_insert] at h
  split at h
  next eq =>
    cases h
    exact .inl ⟨(LawfulEqCmp.compare_eq_iff_eq.1 eq).symm, rfl⟩
  next => exact .inr h

/-- Writing to an epoch leaves what is stored for the others. -/
lemma EpochMap.getElem?_insert_of_ne {α : Type} {m : EpochMap α} {e f : EpochId} {x : α}
    (ne : e ≠ f) : (m.insert e x)[f]? = m[f]? := by
  rw [ExtTreeMap.getElem?_insert, if_neg fun eq => ne (LawfulEqCmp.compare_eq_iff_eq.1 eq)]

/-- Writing a value for a known epoch makes no other epoch known. -/
lemma EpochMap.getElem?_insert_eq_none {α : Type} {m : EpochMap α} {e f : EpochId} {x y : α}
    (known : m[e]? = some x) (h : m[f]? = none) : (m.insert e y)[f]? = none := by
  have ne : e ≠ f := by
    rintro rfl
    cases known.symm.trans h
  rw [EpochMap.getElem?_insert_of_ne ne, h]

/-- Writing what is stored already changes nothing. -/
lemma EpochMap.insert_eq_self {α : Type} {m : EpochMap α} {e : EpochId} {x : α}
    (h : m[e]? = some x) : m.insert e x = m := by
  refine ExtTreeMap.ext_getElem? fun f => ?_
  by_cases eq : e = f
  · subst eq
    exact ExtTreeMap.getElem?_insert_self.trans h.symm
  · exact EpochMap.getElem?_insert_of_ne eq

/-- Of two values written for an epoch, the second one stays. -/
lemma EpochMap.insert_insert {α : Type} {m : EpochMap α} {e : EpochId} {x y : α} :
    (m.insert e x).insert e y = m.insert e y := by
  refine ExtTreeMap.ext_getElem? fun f => ?_
  simp only [ExtTreeMap.getElem?_insert]
  split <;> rfl

/-- Values for different epochs can be written in any order. -/
lemma EpochMap.insert_comm {α : Type} {m : EpochMap α} {e f : EpochId} (ne : e ≠ f) {x y : α} :
    (m.insert e x).insert f y = (m.insert f y).insert e x := by
  refine ExtTreeMap.ext_getElem? fun g => ?_
  simp only [ExtTreeMap.getElem?_insert, LawfulEqCmp.compare_eq_iff_eq]
  split
  next here =>
    subst here
    rw [if_neg ne]
  next => rfl

namespace Tracker

variable {State : Type} (ch : Channel State)

/-- A tracker after an on-chain update founded an epoch and its proofs left the queue. -/
def found (t : Tracker State) (u : OnChainUpdate) (latest : State) (queue : UpdateQueue) :
    Tracker State where
  selected := some u.metadata.epoch
  epochs := t.epochs.insert u.metadata.epoch
    (Epoch.found ch.rules u.metadata.first u.founding u.proof latest)
  queue

/-- What comes of a proof that a player sent for an epoch. -/
inductive Received (t : Tracker State) (e : EpochId) (p : StateProof) :
    Except Rejection Bool → Tracker State → Prop where
  | early {queue} :
    t.epochs[e]? = none →
    t.queue.insert e p = .ok queue →
    Received t e p (.error (.unknownEpoch e.hex)) { t with queue }
  | unsupported {known} :
    t.epochs[e]? = some known →
    ch.examine known.metadata known.founding p = .error .unsupportedVersion →
    Received t e p (.error .unsupportedVersion) t
  | invalid {known} :
    t.epochs[e]? = some known →
    ch.examine known.metadata known.founding p = .error .invalid →
    Received t e p (.error .invalidProof) t
  | stale {known latest} :
    t.epochs[e]? = some known →
    ch.examine known.metadata known.founding p = .ok latest →
    ch.rules.turn latest ≤ known.turn ch.rules →
    Received t e p (.error (.notFresher (known.turn ch.rules) (ch.rules.turn latest))) t
  | fresh {known latest} :
    t.epochs[e]? = some known →
    ch.examine known.metadata known.founding p = .ok latest →
    known.turn ch.rules < ch.rules.turn latest →
    Received t e p (.ok (t.selected = some e))
      { t with epochs := t.epochs.insert e (known.replaceLatest p latest) }

/-- What comes of an on-chain update. -/
inductive Confirmed (t : Tracker State) (u : OnChainUpdate) : Bool → Tracker State → Prop where
  | founded {latest waiting queue t'} :
    t.epochs[u.metadata.epoch]? = none →
    ch.examine u.metadata.first u.founding u.proof = .ok latest →
    t.queue.extract u.metadata.epoch = .ok (waiting, queue) →
    (t.found ch u latest queue).replay ch u.metadata.epoch waiting = .ok t' →
    Confirmed t u true t'
  | stale {known latest} :
    t.epochs[u.metadata.epoch]? = some known →
    ch.examine known.metadata u.founding u.proof = .ok latest →
    known.metadata.toMetadata = u.metadata →
    known.founding = u.founding →
    ch.rules.turn latest ≤ known.turn ch.rules →
    Confirmed t u (t.selected ≠ some u.metadata.epoch)
      { t with
        selected := some u.metadata.epoch
        epochs := t.epochs.insert u.metadata.epoch (known.confirm (ch.rules.turn latest)) }
  | fresh {known latest} :
    t.epochs[u.metadata.epoch]? = some known →
    ch.examine known.metadata u.founding u.proof = .ok latest →
    known.metadata.toMetadata = u.metadata →
    known.founding = u.founding →
    known.turn ch.rules < ch.rules.turn latest →
    Confirmed t u true
      { t with
        selected := some u.metadata.epoch
        epochs := t.epochs.insert u.metadata.epoch
          ((known.confirm (ch.rules.turn latest)).replaceLatest u.proof latest) }

variable {ch} {t t' : Tracker State} {e : EpochId} {p : StateProof} {u : OnChainUpdate}

/-- A turn count that is no higher is refused. -/
lemma checkFresher_of_le {current provided : UInt32} (h : provided ≤ current) :
    Rejection.checkFresher current provided = .error (.notFresher current provided) :=
  if_pos h

/-- A higher turn count passes. -/
lemma checkFresher_of_lt {current provided : UInt32} (h : current < provided) :
    Rejection.checkFresher current provided = .ok () :=
  if_neg (UInt32.not_le.2 h)

/-- Processing an off-chain proof returns exactly what `Received` says. -/
theorem tryReceive_eq_ok_iff {outcome : Except Rejection Bool} :
    t.tryReceive ch e p = .ok (outcome, t') ↔ Received ch t e p outcome t' := by
  constructor
  · intro h
    simp only [tryReceive] at h
    split at h
    next unknown =>
      obtain ⟨queue, added, h⟩ := Violation.bind_eq_ok_iff.1 h
      cases h
      exact .early unknown added
    next known found =>
      split at h
      next eq => cases h; exact .unsupported found eq
      next eq => cases h; exact .invalid found eq
      next => cases h
      next latest eq =>
        by_cases le : ch.rules.turn latest ≤ known.turn ch.rules
        · rw [checkFresher_of_le le] at h
          cases h
          exact .stale found eq le
        · have lt := UInt32.not_le.1 le
          rw [checkFresher_of_lt lt] at h
          cases h
          exact .fresh found eq lt
  · intro h
    cases h with
    | early unknown added => simp [tryReceive, unknown, added]
    | unsupported found eq => simp [tryReceive, found, eq]
    | invalid found eq => simp [tryReceive, found, eq]
    | stale found eq le => simp [tryReceive, found, eq, checkFresher_of_le le]
    | fresh found eq lt => simp [tryReceive, found, eq, checkFresher_of_lt lt]

/-- Processing an off-chain proof without its reason has the same effect. -/
theorem receive_eq_ok_iff {changed : Bool} :
    t.receive ch e p = .ok (changed, t') ↔
      ∃ outcome, t.tryReceive ch e p = .ok (outcome, t') ∧
        changed = outcome.toOption.getD false := by
  simp only [receive, Violation.bind_eq_ok_iff, Prod.exists]
  constructor
  · rintro ⟨outcome, t'', h, eq⟩
    cases eq
    exact ⟨outcome, h, rfl⟩
  · rintro ⟨outcome, h, rfl⟩
    exact ⟨outcome, t', h, rfl⟩

/-- Without queued proofs, nothing changes. -/
@[simp] lemma replay_nil : t.replay ch e [] = .ok t :=
  rfl

/-- Queued proofs are processed from the first one on. -/
lemma replay_cons {ps : List StateProof} :
    t.replay ch e (p :: ps) = t.receive ch e p >>= fun r => r.2.replay ch e ps := by
  simp only [replay, List.foldlM_cons]
  cases t.receive ch e p <;> rfl

/-- Proofs that are replayed are received one after the other. -/
lemma replay_cons_eq_ok {ps : List StateProof} (h : t.replay ch e (p :: ps) = .ok t') :
    ∃ outcome next, Received ch t e p outcome next ∧ next.replay ch e ps = .ok t' := by
  rw [replay_cons] at h
  obtain ⟨⟨_, next⟩, received, h⟩ := Violation.bind_eq_ok_iff.1 h
  obtain ⟨outcome, received, _⟩ := receive_eq_ok_iff.1 received
  exact ⟨outcome, next, tryReceive_eq_ok_iff.1 received, h⟩

/-- Queued proofs are processed in two stretches as they are in one. -/
lemma replay_append {ps qs : List StateProof} :
    t.replay ch e (ps ++ qs) = t.replay ch e ps >>= fun t => t.replay ch e qs :=
  List.foldlM_append

/-- Without updates, nothing changes. -/
@[simp] lemma run_nil : t.run ch [] = .ok t :=
  rfl

/-- Updates are processed from the first one on. -/
lemma run_cons {x : Update} {xs : List Update} :
    t.run ch (x :: xs) = t.apply ch x >>= fun r => r.2.run ch xs := by
  simp only [run, List.foldlM_cons]
  cases t.apply ch x <;> rfl

/-- Proofs are replayed as if they were sent once more, one after the other. -/
lemma replay_eq_run {ps : List StateProof} :
    t.replay ch e ps = t.run ch (ps.map (.offChain e)) := by
  rw [run, List.foldlM_map]
  rfl

/-- A run goes on from what its first update leads to. -/
lemma run_cons_of {x : Update} {xs : List Update} {changed : Bool}
    (applied : t.apply ch x = .ok (changed, t')) : t.run ch (x :: xs) = t'.run ch xs := by
  rw [run_cons, applied, Violation.ok_bind]

/-- A run that does not end early has processed its first update and gone on from there. -/
lemma run_cons_eq_ok {x : Update} {xs : List Update} (ran : t.run ch (x :: xs) = .ok t') :
    ∃ changed next, t.apply ch x = .ok (changed, next) ∧ next.run ch xs = .ok t' := by
  rw [run_cons] at ran
  obtain ⟨⟨changed, next⟩, applied, ran⟩ := Violation.bind_eq_ok_iff.1 ran
  exact ⟨changed, next, applied, ran⟩

/-- Whether an on-chain update passes is decided by its own proof. -/
lemma examineOnChain_eq_ok_iff {m : Metadata.Instance} {latest : State} :
    examineOnChain ch m u = .ok latest ↔ ch.examine m u.founding u.proof = .ok latest := by
  unfold examineOnChain
  split
  next eq => simp [eq]
  next eq => simp [eq]
  next eq => simp [eq]
  next eq => simp [eq]

/-- Founding data pass the check exactly if they are those of the epoch. -/
lemma checkFounding_eq_ok_iff {known : Epoch State} {m : Metadata} {founding : Bytes} {x : Unit} :
    known.checkFounding m founding = .ok x ↔
      known.metadata.toMetadata = m ∧ known.founding = founding := by
  simp [Epoch.checkFounding, Violation.bind_eq_ok_iff]

/-- The metadata and the founding state of an epoch pass the check against it. -/
lemma checkFounding_of {known : Epoch State} {m : Metadata} {founding : Bytes}
    (metadata : known.metadata.toMetadata = m) (same : known.founding = founding) :
    known.checkFounding m founding = .ok () :=
  checkFounding_eq_ok_iff.2 ⟨metadata, same⟩

/-- An update for an unknown epoch is examined with the first instance of its metadata. -/
lemma instanceFor_of_unknown {m : Metadata} (unknown : t.epochs[m.epoch]? = none) :
    t.instanceFor m = m.first := by
  simp only [instanceFor, unknown]

/-- An update with the metadata of a known epoch is examined with the instance of the epoch. -/
lemma instanceFor_of_same {m : Metadata} {known : Epoch State}
    (found : t.epochs[m.epoch]? = some known) (same : known.metadata.toMetadata = m) :
    t.instanceFor m = known.metadata := by
  simp only [instanceFor, found, if_pos same]

/-- An on-chain update for an unknown epoch founds it and replays the proofs that wait for it. -/
lemma confirm_of_unknown (unknown : t.epochs[u.metadata.epoch]? = none) :
    t.confirm ch u = do
      let latest ← examineOnChain ch u.metadata.first u
      let (waiting, queue) ← t.queue.extract u.metadata.epoch
      return (true, ← (t.found ch u latest queue).replay ch u.metadata.epoch waiting) := by
  simp only [confirm, instanceFor_of_unknown unknown, unknown]
  rfl

/-- A tracker is made for any positive capacity, and knows nothing. -/
lemma new_eq_ok_iff {capacity : Nat} :
    Tracker.new State capacity = .ok t ↔ 0 < capacity ∧ t = { queue := { capacity } } := by
  constructor
  · intro h
    obtain ⟨queue, made, h⟩ := Violation.bind_eq_ok_iff.1 h
    obtain ⟨_, positive, made⟩ := Violation.bind_eq_ok_iff.1 made
    cases made
    cases h
    exact ⟨by simpa using positive, rfl⟩
  · rintro ⟨positive, rfl⟩
    simp [Tracker.new, UpdateQueue.new, Violation.ensure_of (decide_eq_true positive)]

/-- An on-chain update for a new tracker founds the first epoch. -/
lemma confirm_of_new {capacity : Nat} {latest : State}
    (examined : ch.examine u.metadata.first u.founding u.proof = .ok latest) :
    confirm ch { queue := { capacity } } u
      = .ok (true, found ch { queue := { capacity } } u latest { capacity }) := by
  have extracted : UpdateQueue.extract { capacity } u.metadata.epoch = .ok ([], { capacity }) := by
    simp [UpdateQueue.extract, UpdateQueue.waiting, Violation.ensure_of]
  rw [confirm_of_unknown (by simp), examineOnChain_eq_ok_iff.2 examined]
  simp only [extracted, Violation.ok_bind]
  rfl

/-- An on-chain update for a known epoch confirms its turn count, and replaces its proof if it is
fresher. -/
lemma confirm_of_known {known : Epoch State} (found : t.epochs[u.metadata.epoch]? = some known) :
    t.confirm ch u = do
      let latest ← examineOnChain ch (t.instanceFor u.metadata) u
      known.checkFounding u.metadata u.founding
      if ch.rules.turn latest ≤ known.turn ch.rules then
        return (t.selected ≠ some u.metadata.epoch,
          { t with
            selected := some u.metadata.epoch
            epochs := t.epochs.insert u.metadata.epoch (known.confirm (ch.rules.turn latest)) })
      else
        return (true,
          { t with
            selected := some u.metadata.epoch
            epochs := t.epochs.insert u.metadata.epoch
              ((known.confirm (ch.rules.turn latest)).replaceLatest u.proof latest) }) := by
  simp only [confirm, found, Epoch.turn_confirm]
  congr 1
  funext latest
  congr 1
  funext _
  by_cases le : ch.rules.turn latest ≤ known.turn ch.rules
  · rw [checkFresher_of_le le, if_pos le]
  · rw [checkFresher_of_lt (UInt32.not_le.1 le), if_neg le]

/-- Processing an on-chain update returns exactly what `Confirmed` says. -/
theorem confirm_eq_ok_iff {changed : Bool} :
    t.confirm ch u = .ok (changed, t') ↔ Confirmed ch t u changed t' := by
  constructor
  · intro h
    -- The update is examined first in both cases, but only a known epoch is compared with it.
    cases found : t.epochs[u.metadata.epoch]? with
    | none =>
      rw [confirm_of_unknown found] at h
      obtain ⟨latest, examined, h⟩ := Violation.bind_eq_ok_iff.1 h
      obtain ⟨⟨waiting, queue⟩, extracted, h⟩ := Violation.bind_eq_ok_iff.1 h
      obtain ⟨_, replayed, h⟩ := Violation.bind_eq_ok_iff.1 h
      cases h
      exact .founded found (examineOnChain_eq_ok_iff.1 examined) extracted replayed
    | some known =>
      rw [confirm_of_known found] at h
      obtain ⟨latest, examined, h⟩ := Violation.bind_eq_ok_iff.1 h
      obtain ⟨_, same, h⟩ := Violation.bind_eq_ok_iff.1 h
      obtain ⟨metadata, founding⟩ := checkFounding_eq_ok_iff.1 same
      rw [instanceFor_of_same found metadata] at examined
      have examined := examineOnChain_eq_ok_iff.1 examined
      split at h
      next le => cases h; exact .stale found examined metadata founding le
      next lt => cases h; exact .fresh found examined metadata founding (UInt32.not_le.1 lt)
  · intro h
    cases h with
    | founded unknown examined extracted replayed =>
      simp [confirm_of_unknown unknown, examineOnChain_eq_ok_iff.2 examined, extracted, replayed]
    | stale found examined metadata founding le =>
      simp [confirm_of_known found, instanceFor_of_same found metadata,
        examineOnChain_eq_ok_iff.2 examined, checkFounding_of metadata founding, le]
    | fresh found examined metadata founding lt =>
      simp [confirm_of_known found, instanceFor_of_same found metadata,
        examineOnChain_eq_ok_iff.2 examined, checkFounding_of metadata founding,
        UInt32.not_le.2 lt]

variable (ch) in
/-- A change of one place of a tracker. -/
inductive Step (t : Tracker State) : Tracker State → Prop where
  | wait {e p queue} :
    t.epochs[e]? = none →
    t.queue.insert e p = .ok queue →
    Step t { t with queue }
  | advance {e p latest} {known : Epoch State} :
    t.epochs[e]? = some known →
    ch.examine known.metadata known.founding p = .ok latest →
    known.turn ch.rules < ch.rules.turn latest →
    Step t { t with epochs := t.epochs.insert e (known.replaceLatest p latest) }
  | found {latest waiting queue} {u : OnChainUpdate} :
    t.epochs[u.metadata.epoch]? = none →
    ch.examine u.metadata.first u.founding u.proof = .ok latest →
    t.queue.extract u.metadata.epoch = .ok (waiting, queue) →
    Step t (t.found ch u latest queue)
  | reconfirm {latest} {u : OnChainUpdate} {known : Epoch State} :
    t.epochs[u.metadata.epoch]? = some known →
    ch.examine known.metadata u.founding u.proof = .ok latest →
    known.metadata.toMetadata = u.metadata →
    known.founding = u.founding →
    ch.rules.turn latest ≤ known.turn ch.rules →
    Step t { t with
      selected := some u.metadata.epoch
      epochs := t.epochs.insert u.metadata.epoch (known.confirm (ch.rules.turn latest)) }
  | overtake {latest} {u : OnChainUpdate} {known : Epoch State} :
    t.epochs[u.metadata.epoch]? = some known →
    ch.examine known.metadata u.founding u.proof = .ok latest →
    known.metadata.toMetadata = u.metadata →
    known.founding = u.founding →
    known.turn ch.rules < ch.rules.turn latest →
    Step t { t with
      selected := some u.metadata.epoch
      epochs := t.epochs.insert u.metadata.epoch
        ((known.confirm (ch.rules.turn latest)).replaceLatest u.proof latest) }

variable (ch) in
/-- Any number of steps. -/
abbrev Steps : Tracker State → Tracker State → Prop :=
  Relation.ReflTransGen (Step ch)

/-- A proof from a player takes one step at most. -/
lemma Received.steps {outcome : Except Rejection Bool} (h : Received ch t e p outcome t') :
    Steps ch t t' := by
  cases h with
  | early unknown added => exact .single (.wait unknown added)
  | unsupported => exact .refl
  | invalid => exact .refl
  | stale => exact .refl
  | fresh found examined lt => exact .single (.advance found examined lt)

/-- Processing a proof takes steps, whether its outcome is asked for or not. -/
lemma receive_steps {changed : Bool} (h : t.receive ch e p = .ok (changed, t')) :
    Steps ch t t' := by
  obtain ⟨outcome, h, _⟩ := receive_eq_ok_iff.1 h
  exact (tryReceive_eq_ok_iff.1 h).steps

/-- Processing the queued proofs takes steps. -/
lemma replay_steps {ps : List StateProof} (h : t.replay ch e ps = .ok t') : Steps ch t t' := by
  induction ps generalizing t with
  | nil =>
    cases h
    exact .refl
  | cons p ps ih =>
    obtain ⟨_, _, received, h⟩ := replay_cons_eq_ok h
    exact received.steps.trans (ih h)

/-- An on-chain update takes steps. -/
lemma Confirmed.steps {changed : Bool} (h : Confirmed ch t u changed t') : Steps ch t t' := by
  cases h with
  | founded unknown examined extracted replayed =>
    exact .head (.found unknown examined extracted) (replay_steps replayed)
  | stale found examined metadata founding le =>
    exact .single (.reconfirm found examined metadata founding le)
  | fresh found examined metadata founding lt =>
    exact .single (.overtake found examined metadata founding lt)

/-- An update is a sequence of steps. -/
theorem apply_steps {x : Update} {changed : Bool} (h : t.apply ch x = .ok (changed, t')) :
    Steps ch t t' := by
  cases x with
  | onChain u => exact (confirm_eq_ok_iff.1 h).steps
  | offChain e p => exact receive_steps h

/-- What holds of new trackers and is kept by every step holds of reachable trackers. -/
theorem Reachable.induction {capacity : Nat} {P : Tracker State → Prop}
    (h : t.Reachable ch capacity)
    (new : ∀ {t}, Tracker.new State capacity = .ok t → P t)
    (step : ∀ {t t'}, Step ch t t' → P t → P t') : P t := by
  have steps {t t'} (h : Steps ch t t') (start : P t) : P t' := by
    induction h with
    | refl => exact start
    | tail _ st ih => exact step st ih
  induction h with
  | new h => exact new h
  | apply _ h ih => exact steps (apply_steps h) ih
  | tryReceive _ h ih => exact steps (tryReceive_eq_ok_iff.1 h).steps ih

end Tracker
end StateChannel
