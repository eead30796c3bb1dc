import Mathlib.Data.List.Induction
import StateChannel.Proofs.QueuedUpdates
import StateChannel.Proofs.ReportedChanges
import StateChannel.Proofs.SignedDrafts
import StateChannel.Tracker.History

/-!
# What a history says about its tracker

The epochs that a tracker knows are those that were confirmed on-chain, and its current epoch is the
last one of them. No proof for a known epoch waits in the queue, since proofs wait only for epochs
that are not known.
-/

namespace StateChannel
open Std

namespace EpochMap

variable {α : Type} {m : EpochMap α} {e : EpochId} {x : α}

/-- An epoch that is found in a map is in the map. -/
lemma mem_of_getElem? (h : m[e]? = some x) : e ∈ m :=
  ExtTreeMap.mem_iff_isSome_getElem?.2 (Option.isSome_of_eq_some h)

/-- An epoch is not found in a map exactly if it is not in the map. -/
lemma getElem?_eq_none_iff : m[e]? = none ↔ e ∉ m := by
  rw [ExtTreeMap.mem_iff_isSome_getElem?, Option.not_isSome_iff_eq_none]

end EpochMap

namespace Update

variable {xs : List Update} {e : EpochId}

/-- The first update confirms its epoch before the others do. -/
lemma confirmedEpochs_cons {x : Update} :
    confirmedEpochs (x :: xs) = confirmedEpochs [x] ++ confirmedEpochs xs :=
  List.filterMap_append (l := [x])

/-- An on-chain update confirms its epoch. -/
lemma confirmedEpochs_onChain {u : OnChainUpdate} :
    confirmedEpochs [.onChain u] = [u.metadata.epoch] :=
  rfl

/-- A proof from a player confirms no epoch. -/
lemma confirmedEpochs_offChain {p : StateProof} : confirmedEpochs [.offChain e p] = [] :=
  rfl

/-- Without updates no proof comes in. -/
lemma proofsFor_nil : proofsFor [] e = [] :=
  rfl

/-- The proof of the first update comes in before those of the others. -/
lemma proofsFor_cons {x : Update} : proofsFor (x :: xs) e = proofsFor [x] e ++ proofsFor xs e :=
  List.filterMap_append (l := [x])

/-- A proof from a player comes in for its own epoch only. -/
lemma proofsFor_offChain {f : EpochId} {p : StateProof} :
    proofsFor [.offChain f p] e = if f = e then [p] else [] := by
  by_cases eq : f = e <;> simp [proofsFor, eq]

end Update

namespace Tracker

variable {State : Type} {ch : Channel State} {capacity : Nat} {start t t' : Tracker State}
variable {e f : EpochId} {p : StateProof} {u : OnChainUpdate} {x : Update} {xs ys : List Update}
variable {changed : Bool}

/-- Updates are processed in two stretches as they are in one. -/
lemma run_append : t.run ch (xs ++ ys) = t.run ch xs >>= fun t => t.run ch ys :=
  List.foldlM_append

/-- One more update is processed after the others. -/
lemma run_concat_of (ran : start.run ch xs = .ok t) (applied : t.apply ch x = .ok (changed, t')) :
    start.run ch (xs ++ [x]) = .ok t' := by
  rw [run_append, ran, Violation.ok_bind, run_cons_of applied, run_nil]

/-- A history is a run of its updates. -/
theorem history_iff_run : History ch start xs t ↔ start.run ch xs = .ok t := by
  constructor
  · intro h
    induction h with
    | start => exact run_nil
    | apply _ applied ih => exact run_concat_of ih applied
    | @tryReceive xs t t' e p outcome _ received ih =>
      have applied : t.apply ch (.offChain e p) = .ok (outcome.toOption.getD false, t') :=
        receive_eq_ok_iff.2 ⟨outcome, received, rfl⟩
      exact run_concat_of ih applied
  · intro h
    -- A history grows at its end, so it is the last update that is taken off.
    induction xs using List.reverseRecOn generalizing t with
    | nil =>
      cases h
      exact .start
    | append_singleton xs x ih =>
      rw [run_append] at h
      obtain ⟨t1, ran, last⟩ := Violation.bind_eq_ok_iff.1 h
      obtain ⟨_, t2, applied, last⟩ := run_cons_eq_ok last
      cases last
      exact .apply (ih ran) applied

namespace History

/-- A history from a reachable tracker leads to a reachable one. -/
lemma reachable (h : History ch start xs t) (reachable : start.Reachable ch capacity) :
    t.Reachable ch capacity := by
  induction h with
  | start => exact reachable
  | apply _ applied ih => exact ih.apply applied
  | tryReceive _ received ih => exact ih.tryReceive received

/-- A history is a number of steps. -/
lemma steps (h : History ch start xs t) : Steps ch start t := by
  induction h with
  | start => exact .refl
  | apply _ applied ih => exact ih.trans (apply_steps applied)
  | tryReceive _ received ih => exact ih.trans (tryReceive_eq_ok_iff.1 received).steps

/-- The same updates lead to the same tracker. -/
lemma unique (h : History ch start xs t) (h' : History ch start xs t') : t = t' := by
  have same := (history_iff_run.1 h).symm.trans (history_iff_run.1 h')
  cases same
  rfl

/-- A history can be stopped at any update. -/
lemma split (h : History ch start (xs ++ x :: ys) t) :
    ∃ t1 changed t2, History ch start xs t1 ∧ t1.apply ch x = .ok (changed, t2) ∧
      History ch t2 ys t := by
  have ran := history_iff_run.1 h
  rw [run_append] at ran
  obtain ⟨t1, before, ran⟩ := Violation.bind_eq_ok_iff.1 ran
  obtain ⟨changed, t2, applied, after⟩ := run_cons_eq_ok ran
  exact ⟨t1, changed, t2, history_iff_run.2 before, applied, history_iff_run.2 after⟩

end History

/-- Writing to a known epoch makes no other epoch known. -/
lemma mem_write {known k : Epoch State} (found : t.epochs[e]? = some known) :
    f ∈ t.epochs.insert e k ↔ f ∈ t.epochs := by
  rw [ExtTreeMap.mem_insert, LawfulEqCmp.compare_eq_iff_eq]
  constructor
  · rintro (rfl | mem)
    · exact EpochMap.mem_of_getElem? found
    · exact mem
  · exact .inr

/-- No proof from a player makes an epoch known. -/
lemma Received.mem_iff {outcome : Except Rejection Bool} (h : Received ch t e p outcome t') :
    f ∈ t'.epochs ↔ f ∈ t.epochs := by
  cases h with
  | early | unsupported | invalid | stale => exact Iff.rfl
  | fresh found => exact mem_write found

/-- Processing the queued proofs makes no epoch known. -/
lemma replay_mem_iff {ps : List StateProof} (h : t.replay ch e ps = .ok t') :
    f ∈ t'.epochs ↔ f ∈ t.epochs := by
  induction ps generalizing t with
  | nil =>
    cases h
    exact Iff.rfl
  | cons p ps ih =>
    obtain ⟨_, _, received, h⟩ := replay_cons_eq_ok h
    exact (ih h).trans received.mem_iff

/-- An on-chain update makes its own epoch known and no other one. -/
lemma Confirmed.mem_iff (h : Confirmed ch t u changed t') :
    f ∈ t'.epochs ↔ f ∈ t.epochs ∨ f = u.metadata.epoch := by
  cases h with
  | founded unknown examined extracted replayed =>
    rw [replay_mem_iff replayed, found, ExtTreeMap.mem_insert, LawfulEqCmp.compare_eq_iff_eq,
      or_comm, eq_comm]
  | stale found | fresh found =>
    rw [mem_write found]
    refine ⟨.inl, ?_⟩
    rintro (mem | rfl)
    · exact mem
    · exact EpochMap.mem_of_getElem? found

/-- An on-chain update makes its epoch the current one. -/
lemma Confirmed.selected_eq (h : Confirmed ch t u changed t') :
    t'.selected = some u.metadata.epoch := by
  cases h with
  | founded _ _ _ replayed => exact replay_selected_eq replayed
  | stale | fresh => rfl

/-- An update makes known the epoch that it confirms, if it does, and no other one. -/
lemma apply_mem_iff (applied : t.apply ch x = .ok (changed, t')) :
    f ∈ t'.epochs ↔ f ∈ t.epochs ∨ f ∈ Update.confirmedEpochs [x] := by
  cases x with
  | onChain u =>
    rw [Update.confirmedEpochs_onChain, List.mem_singleton]
    exact (confirm_eq_ok_iff.1 applied).mem_iff
  | offChain e p =>
    obtain ⟨_, received, _⟩ := receive_eq_ok_iff.1 applied
    rw [(tryReceive_eq_ok_iff.1 received).mem_iff, Update.confirmedEpochs_offChain,
      List.mem_nil_iff, or_false]

/-- The known epochs are those that were confirmed on-chain. -/
lemma run_mem_iff (ran : t.run ch xs = .ok t') :
    f ∈ t'.epochs ↔ f ∈ t.epochs ∨ f ∈ Update.confirmedEpochs xs := by
  induction xs generalizing t with
  | nil =>
    cases ran
    exact (or_iff_left List.not_mem_nil).symm
  | cons x xs ih =>
    obtain ⟨_, next, applied, ran⟩ := run_cons_eq_ok ran
    rw [Update.confirmedEpochs_cons, List.mem_append, ih ran, apply_mem_iff applied, or_assoc]

/-- An update makes current the epoch that it confirms, if it does. -/
lemma apply_selected_eq (applied : t.apply ch x = .ok (changed, t')) :
    t'.selected = (Update.confirmedEpochs [x]).getLast?.or t.selected := by
  cases x with
  | onChain u => exact (confirm_eq_ok_iff.1 applied).selected_eq
  | offChain e p =>
    obtain ⟨_, received, _⟩ := receive_eq_ok_iff.1 applied
    exact (tryReceive_eq_ok_iff.1 received).selected_eq

/-- The current epoch is the last one that was confirmed on-chain. -/
lemma run_selected_eq (ran : t.run ch xs = .ok t') :
    t'.selected = (Update.confirmedEpochs xs).getLast?.or t.selected := by
  induction xs generalizing t with
  | nil =>
    cases ran
    rfl
  | cons x xs ih =>
    obtain ⟨_, next, applied, ran⟩ := run_cons_eq_ok ran
    rw [Update.confirmedEpochs_cons, List.getLast?_append, ih ran, apply_selected_eq applied,
      Option.or_assoc]

/-- If a known epoch is current, its latest board state can be read, unless that refers to another
instance of metadata. -/
lemma latest_of_known {k : Epoch State} (current : t.selected = some e)
    (stored : t.epochs[e]? = some k) :
    t.latest ch = if k.sharesMetadata ch.rules then .ok k.latest
      else .error (.metadataNotShared k.metadata.epoch.hex) := by
  simp only [latest, currentEpoch_of_known current stored, Violation.ok_bind, Violation.ensure]
  split <;> rfl

/-- No proof for a known epoch waits. -/
lemma Queued.waiting_eq_nil {l : UpdateQueue.Arrivals} (h : t.Queued capacity l)
    (known : e ∈ t.epochs) : t.queue.waiting e = [] := by
  rw [h.holds.waiting, List.eq_nil_iff_forall_not_mem]
  intro p mem
  have unknown := h.unknown _ (UpdateQueue.Arrivals.mem_waiting_iff.1 mem)
  exact EpochMap.getElem?_eq_none_iff.1 unknown known

/-- What is known, what is current and what waits in the queue is consistent: the known epochs are
those confirmed on-chain, each listed once and in the order of their bytes; the current epoch is the
last one confirmed, and so can be read once there is one; and only proofs for unknown epochs wait,
no more than the queue has room for. -/
theorem History.consistent (h : History ch start xs t)
    (new : Tracker.new State capacity = .ok start) :
    t.known.Pairwise (·.bytes < ·.bytes) ∧
      (∀ e, e ∈ t.known ↔ e ∈ Update.confirmedEpochs xs) ∧
      t.selected = (Update.confirmedEpochs xs).getLast? ∧
      (∀ e, t.selected = some e → e ∈ t.known) ∧
      (t.initialised = true ↔ Update.confirmedEpochs xs ≠ []) ∧
      (t.initialised = true → ∃ e k, t.current = .ok e ∧ t.epochs[e]? = some k ∧
        t.currentEpoch = .ok k ∧
        t.latest ch = if k.sharesMetadata ch.rules then .ok k.latest
          else .error (.metadataNotShared k.metadata.epoch.hex)) ∧
      (∀ e ∈ t.known, t.queue.waiting e = []) ∧
      ∃ l, t.queue.Holds l ∧ t.queue.size = l.length ∧ l.length ≤ capacity := by
  have reachable := h.reachable (.new new)
  have ran := history_iff_run.1 h
  obtain ⟨l, queued⟩ := reachable.queued
  obtain ⟨_, rfl⟩ := new_eq_ok_iff.1 new
  have known (e : EpochId) : e ∈ t.known ↔ e ∈ Update.confirmedEpochs xs := by
    rw [Tracker.known, ExtTreeMap.mem_keys, run_mem_iff ran]
    simp
  have selected : t.selected = (Update.confirmedEpochs xs).getLast? := by
    rw [run_selected_eq ran, Option.or_none]
  have current (e : EpochId) (eq : t.selected = some e) : e ∈ t.known := by
    rw [selected] at eq
    exact (known e).2 (List.mem_of_getLast? eq)
  refine ⟨?ordered, known, selected, current, ?initialised, ?readable, ?waiting, l, queued.holds,
    queued.holds.size, queued.bound⟩
  case ordered =>
    refine ExtTreeMap.ordered_keys.imp fun lt => ?_
    exact Bytes.compare_eq_lt_iff.1 lt
  case initialised =>
    rw [initialised, selected, List.getLast?_isSome]
  case readable =>
    intro some
    obtain ⟨e, eq⟩ := Option.isSome_iff_exists.1 some
    obtain ⟨k, stored⟩ := reachable.currentKnown e eq
    refine ⟨e, k, by rw [Tracker.current, eq], stored, currentEpoch_of_known eq stored, ?_⟩
    exact latest_of_known eq stored
  case waiting =>
    intro e mem
    exact queued.waiting_eq_nil (ExtTreeMap.mem_keys.1 mem)

open AdditionGame in
/-- So it is when the first move of an addition game was made and a proof for another epoch came in:
only that proof waits. -/
theorem History.consistent_firstMove :
    ∃ t : Tracker AdditionGame.State,
      Tracker.new AdditionGame.State 1 = .ok emptyTable ∧
      History (hall {}) emptyTable
        [.onChain opened, .offChain seating.epoch (firstMove {} (encode 11 1)),
          .offChain ⟨[]⟩ (.trivial opening)] t ∧
      (∀ e, e ∈ t.known ↔ e = seating.epoch) ∧
      t.selected = some seating.epoch ∧
      (∃ e k, t.current = .ok e ∧ t.currentEpoch = .ok k) ∧
      t.queue.waiting seating.epoch = [] ∧
      t.queue.size ≤ 1 := by
  have absent : (⟨[]⟩ : EpochId) ∉ played.epochs := by
    rw [run_mem_iff played_run]
    rintro (mem | mem)
    · exact absurd mem ExtTreeMap.not_mem_empty
    · exact absurd (List.mem_singleton.1 mem) (by decide)
  have unknown := EpochMap.getElem?_eq_none_iff.2 absent
  obtain ⟨queue, waits⟩ := played_reachable.exists_wait unknown (.trivial opening)
  have history := (history_iff_run.2 played_run).apply waits
  have new : Tracker.new AdditionGame.State 1 = .ok emptyTable := rfl
  obtain ⟨_, known, selected, current, initialised, readable, waiting, l, _, size, bound⟩ :=
    history.consistent new
  have mem (e : EpochId) := (known e).trans List.mem_singleton
  obtain ⟨e, k, eq, _, found, _⟩ := readable (initialised.2 nofun)
  refine ⟨_, new, history, mem, selected, ⟨e, k, eq, found⟩, ?_, size ▸ bound⟩
  exact waiting _ ((mem _).2 rfl)

end Tracker
end StateChannel
