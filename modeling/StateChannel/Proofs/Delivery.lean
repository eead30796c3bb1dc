import StateChannel.Proofs.QueuedUpdates
import StateChannel.Proofs.SignedDrafts

/-!
# Early proofs are delivered as if they came later

A proof that arrives just before its epoch becomes known can as well arrive just after, as long as
the queue has room for it: both times it is processed after all proofs for the epoch that were
waiting already. So it does not matter how many of a list of proofs arrive before the on-chain
update of their epoch, and how many after.
-/

namespace StateChannel
open Std

/-- Some proofs for the epoch of an on-chain update, then that update, then further proofs. -/
def OnChainUpdate.amid (u : OnChainUpdate) (before after : List StateProof) : List Update :=
  before.map (.offChain u.metadata.epoch) ++ .onChain u :: after.map (.offChain u.metadata.epoch)

namespace Tracker

variable {State : Type} {ch : Channel State} {capacity : Nat} {t : Tracker State}
variable {u : OnChainUpdate} {p : StateProof}

/-- No more proofs wait for one epoch than wait at all. -/
lemma Reachable.counted (h : t.Reachable ch capacity) (e : EpochId) :
    (t.queue.waiting e).length ≤ t.queue.size := by
  obtain ⟨l, queued⟩ := h.queued
  rw [queued.holds.waiting, queued.holds.size, ← UpdateQueue.Arrivals.length_filter_eq]
  exact List.length_filter_le ..

/-- A proof for an unknown epoch joins the queue if there is room for it. -/
lemma Reachable.receive_of_room (h : t.Reachable ch capacity) {e : EpochId}
    (unknown : t.epochs[e]? = none) (room : t.queue.size < capacity) (p : StateProof) :
    t.receive ch e p = .ok (false, { t with queue := t.queue.push e p }) := by
  obtain ⟨l, queued⟩ := h.queued
  have added := UpdateQueue.insert_of_lt (queued.limit ▸ room) e p
  exact receive_eq_ok_iff.2 ⟨_, tryReceive_eq_ok_iff.2 (.early unknown added), rfl⟩

/-- A proof that arrives just before its epoch becomes known can as well arrive just after. -/
lemma Reachable.run_swap (h : t.Reachable ch capacity)
    (unknown : t.epochs[u.metadata.epoch]? = none) (room : t.queue.size < capacity)
    (p : StateProof) (xs : List Update) :
    t.run ch (.offChain u.metadata.epoch p :: .onChain u :: xs)
      = t.run ch (.onChain u :: .offChain u.metadata.epoch p :: xs) := by
  have counted := h.counted u.metadata.epoch
  have pushed := UpdateQueue.extract_push counted p
  have still : ({ t with queue := t.queue.push u.metadata.epoch p } : Tracker State).epochs[
      u.metadata.epoch]? = none :=
    unknown
  simp only [run_cons, Tracker.apply, h.receive_of_room unknown room p, Violation.ok_bind]
  rw [confirm_of_unknown unknown, confirm_of_unknown still]
  cases examineOnChain ch u.metadata.first u with
  | error => rfl
  | ok latest =>
    simp only [pushed, UpdateQueue.extract_of_le counted, Violation.ok_bind, replay_append]
    -- From here on the queue and the epoch are the same, and `p` is the next proof on both sides.
    simp only [found]
    cases replay ch _ u.metadata.epoch (t.queue.waiting u.metadata.epoch) with
    | error => rfl
    | ok t' =>
      simp only [Violation.pure_eq_ok, Violation.ok_bind, replay_cons, replay_nil]
      cases t'.receive ch u.metadata.epoch p <;> rfl

/-- Proofs that arrive before their epoch becomes known can as well arrive after. -/
lemma Reachable.run_postpone (h : t.Reachable ch capacity)
    (unknown : t.epochs[u.metadata.epoch]? = none) {ps : List StateProof}
    (room : t.queue.size + ps.length ≤ capacity) (xs : List Update) :
    t.run ch (ps.map (.offChain u.metadata.epoch) ++ .onChain u :: xs)
      = t.run ch (.onChain u :: (ps.map (.offChain u.metadata.epoch) ++ xs)) := by
  induction ps generalizing t with
  | nil => rfl
  | cons p ps ih =>
    rw [List.length_cons] at room
    -- The proof joins the queue, the others are postponed from there, and then it is itself.
    have one : t.queue.size < capacity := by omega
    have received := h.receive_of_room unknown one p
    have applied : t.apply ch (.offChain u.metadata.epoch p)
        = .ok (false, { t with queue := t.queue.push u.metadata.epoch p }) :=
      received
    have rest : (t.queue.push u.metadata.epoch p).size + ps.length ≤ capacity := by
      simp only [UpdateQueue.push]
      omega
    calc t.run ch ((p :: ps).map (.offChain u.metadata.epoch) ++ .onChain u :: xs)
      _ = Tracker.run ch { t with queue := t.queue.push u.metadata.epoch p }
            (ps.map (.offChain u.metadata.epoch) ++ .onChain u :: xs) :=
        run_cons_of applied
      _ = Tracker.run ch { t with queue := t.queue.push u.metadata.epoch p }
            (.onChain u :: (ps.map (.offChain u.metadata.epoch) ++ xs)) :=
        ih (h.apply applied) unknown rest
      _ = t.run ch (.offChain u.metadata.epoch p :: .onChain u ::
            (ps.map (.offChain u.metadata.epoch) ++ xs)) :=
        (run_cons_of applied).symm
      _ = t.run ch (.onChain u :: ((p :: ps).map (.offChain u.metadata.epoch) ++ xs)) :=
        h.run_swap unknown one p _

/-- It does not matter, as long as the queue has room, which of the proofs for an unknown epoch
arrive before the on-chain update that makes it known. -/
theorem Reachable.run_amid (h : t.Reachable ch capacity)
    (unknown : t.epochs[u.metadata.epoch]? = none) {before after before' after' : List StateProof}
    (same : before ++ after = before' ++ after')
    (room : t.queue.size + (before ++ after).length ≤ capacity) :
    t.run ch (u.amid before after) = t.run ch (u.amid before' after') := by
  have late {before after : List StateProof}
      (room : t.queue.size + (before ++ after).length ≤ capacity) :
      t.run ch (u.amid before after)
        = t.run ch (.onChain u :: (before ++ after).map (.offChain u.metadata.epoch)) := by
    rw [List.map_append]
    refine h.run_postpone unknown ?_ _
    rw [List.length_append] at room
    omega
  rw [late room, late (same ▸ room), same]

open AdditionGame in
/-- So it is with the first move of an addition game, whether it arrives before the epoch is known
or after. -/
theorem Reachable.run_amid_firstMove :
    emptyTable.Reachable (hall {}) 1 ∧
      emptyTable.epochs[opened.metadata.epoch]? = none ∧
      emptyTable.queue.size + 1 ≤ 1 ∧
      emptyTable.run (hall {}) (opened.amid [firstMove {} (encode 11 1)] [])
        = emptyTable.run (hall {}) (opened.amid [] [firstMove {} (encode 11 1)]) ∧
      emptyTable.run (hall {}) (opened.amid [] [firstMove {} (encode 11 1)]) = .ok played := by
  have unknown : emptyTable.epochs[opened.metadata.epoch]? = none := ExtTreeMap.getElem?_empty
  have room : emptyTable.queue.size + 1 ≤ 1 := Nat.le_refl 1
  refine ⟨emptyTable_reachable, unknown, room, ?_, played_run⟩
  exact emptyTable_reachable.run_amid unknown rfl room

end Tracker
end StateChannel
