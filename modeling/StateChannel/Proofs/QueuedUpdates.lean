import StateChannel.Proofs.QueueRuns
import StateChannel.Proofs.TrackerSteps

/-!
# What waits in the queue of a tracker

The queue of a reachable tracker holds a list of proofs that fits its capacity, and all of these are
for epochs that are not known. So a proof for an unknown epoch can always be put in the queue, and
the proofs for an epoch can always be taken out of it.
-/

namespace StateChannel.Tracker
open Std UpdateQueue

variable {State : Type} {ch : Channel State} {capacity : Nat} {t t' : Tracker State} {l : Arrivals}

/-- The queue of a tracker holds a list of proofs for unknown epochs. -/
structure Queued (capacity : Nat) (t : Tracker State) (l : Arrivals) : Prop where
  holds : t.queue.Holds l
  limit : t.queue.capacity = capacity
  positive : 0 < capacity
  bound : l.length ≤ capacity
  unknown : ∀ a ∈ l, t.epochs[a.1]? = none

/-- The queue of a tracker holds the list that is queued there. -/
lemma Queued.represents (h : t.Queued capacity l) : t.queue.Represents capacity l :=
  ⟨h.holds, h.limit, h.bound⟩

/-- A proof for an unknown epoch can be put in the queue. -/
lemma Queued.insert (h : t.Queued capacity l) {e : EpochId} (unknown : t.epochs[e]? = none)
    (p : StateProof) :
    ∃ queue, t.queue.insert e p = .ok queue ∧
      ({ t with queue } : Tracker State).Queued capacity (Arrivals.insert capacity l e p) := by
  obtain ⟨queue, added, after⟩ := h.represents.insert h.positive e p
  refine ⟨queue, added, after.holds, after.limit, h.positive, after.bound, fun a mem => ?_⟩
  rcases Arrivals.mem_insert mem with mem | rfl
  · exact h.unknown a mem
  · exact unknown

/-- The proofs for an epoch can be taken out of the queue, which makes room for it to be known. -/
lemma Queued.extract (h : t.Queued capacity l) (e : EpochId) :
    ∃ queue, t.queue.extract e = .ok (t.queue.waiting e, queue) ∧
      ∀ (selected : Option EpochId) (k : Epoch State),
        Queued capacity ⟨selected, t.epochs.insert e k, queue⟩ (l.filter (·.1 ≠ e)) := by
  obtain ⟨queue, taken, after⟩ := h.represents.extract e
  rw [← h.holds.waiting] at taken
  refine ⟨queue, taken, fun selected k => ?_⟩
  refine ⟨after.holds, after.limit, h.positive, after.bound, fun a mem => ?_⟩
  obtain ⟨mem, ne⟩ := List.mem_filter.1 mem
  have ne : a.1 ≠ e := by simpa using ne
  exact (EpochMap.getElem?_insert_of_ne ne.symm).trans (h.unknown a mem)

/-- Writing to a known epoch leaves what is queued. -/
lemma Queued.write (h : t.Queued capacity l) {e : EpochId} {known : Epoch State}
    (found : t.epochs[e]? = some known) (selected : Option EpochId) (k : Epoch State) :
    Queued capacity ⟨selected, t.epochs.insert e k, t.queue⟩ l :=
  ⟨h.holds, h.limit, h.positive, h.bound, fun a mem =>
    EpochMap.getElem?_insert_eq_none found (h.unknown a mem)⟩

/-- Every step leaves proofs for unknown epochs only in the queue. -/
lemma Step.queued (st : Step ch t t') (h : ∃ l, t.Queued capacity l) :
    ∃ l, t'.Queued capacity l := by
  obtain ⟨l, h⟩ := h
  cases st with
  -- The step names the queue it leads to, the invariant finds it again.
  | @wait e p queue unknown added =>
    obtain ⟨queue', added', h⟩ := h.insert unknown p
    rw [added] at added'
    cases added'
    exact ⟨_, h⟩
  | advance found => exact ⟨l, h.write found ..⟩
  | @found _ _ _ u _ _ taken =>
    obtain ⟨queue', taken', h⟩ := h.extract u.metadata.epoch
    rw [taken] at taken'
    cases taken'
    exact ⟨_, h _ _⟩
  | reconfirm found => exact ⟨l, h.write found ..⟩
  | overtake found => exact ⟨l, h.write found ..⟩

/-- The queue of a reachable tracker holds a list of proofs for unknown epochs. -/
theorem Reachable.queued (h : t.Reachable ch capacity) : ∃ l, t.Queued capacity l := by
  refine h.induction (fun new => ?_) Step.queued
  obtain ⟨positive, rfl⟩ := new_eq_ok_iff.1 new
  exact ⟨[], .empty capacity, rfl, positive, Nat.zero_le _, nofun⟩

/-- A proof for an unknown epoch waits, and reports no change. -/
lemma Reachable.exists_wait (h : t.Reachable ch capacity) {e : EpochId}
    (unknown : t.epochs[e]? = none) (p : StateProof) :
    ∃ queue, t.apply ch (.offChain e p) = .ok (false, { t with queue }) := by
  obtain ⟨l, queued⟩ := h.queued
  obtain ⟨queue, added, _⟩ := queued.insert unknown p
  exact ⟨queue, receive_eq_ok_iff.2 ⟨_, tryReceive_eq_ok_iff.2 (.early unknown added), rfl⟩⟩

end StateChannel.Tracker
