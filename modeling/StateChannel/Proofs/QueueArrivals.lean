import Mathlib.Tactic.Lemma
import StateChannel.UpdateQueue.Arrivals

/-!
# The update queue keeps a list of arrivals

A queue that holds a list of proofs still does after every operation, which succeeds and does to the
list what `Arrivals` says. The size that the queue keeps is the length of that list, so none of the
checks on it fails.

Dropping the oldest proof may leave an empty place for its epoch behind. The proof that made the
queue drop it fills that place again, so `HoldsUpTo` carries the invariant over the steps between.
-/

namespace StateChannel.UpdateQueue
open Std

namespace Arrivals

/-- A proof waits for an epoch exactly if it has come in for it. -/
lemma mem_waiting_iff {l : Arrivals} {e : EpochId} {p : StateProof} :
    p ∈ l.waiting e ↔ (e, p) ∈ l := by
  simp [waiting]

/-- Of two lists in a row, those wait that wait in the first one and then those in the second. -/
@[simp] lemma waiting_append (l r : Arrivals) (e : EpochId) :
    waiting (l ++ r) e = waiting l e ++ waiting r e := by
  simp [waiting]

/-- If only the proofs for one epoch stay, none wait for another one. -/
lemma waiting_filter_eq (l : Arrivals) (e f : EpochId) :
    waiting (l.filter (·.1 = e)) f = if f = e then l.waiting f else [] := by
  split
  next h => simp [waiting, List.filter_filter, h]
  next h =>
    simp only [waiting, List.filter_filter, List.map_eq_nil_iff, List.filter_eq_nil_iff,
      Bool.and_eq_true, decide_eq_true_eq, not_and]
    rintro a _ rfl
    exact h

/-- If the proofs for one epoch go, those for the others still wait. -/
lemma waiting_filter_ne (l : Arrivals) (e f : EpochId) :
    waiting (l.filter (·.1 ≠ e)) f = if f = e then [] else l.waiting f := by
  simp only [waiting, List.filter_filter]
  split
  next h =>
    subst h
    simp
  next h =>
    congr 1
    apply List.filter_congr
    rintro a _
    by_cases eq : a.1 = f
    · simp [eq, h]
    · simp [eq]

/-- As many arrivals are for an epoch as proofs wait for it. -/
lemma length_filter_eq (l : Arrivals) (e : EpochId) :
    (l.filter (·.1 = e)).length = (l.waiting e).length := by
  simp [waiting]

/-- The proofs for one epoch and those for all others are all proofs. -/
lemma length_filter_ne (l : Arrivals) (e : EpochId) :
    (l.filter (·.1 ≠ e)).length + (l.waiting e).length = l.length := by
  induction l with
  | nil => rfl
  | cons a l ih =>
    by_cases h : a.1 = e <;> simp [waiting, h] at ih ⊢ <;> omega

/-- A list within the capacity stays within it. -/
lemma length_insert_le {capacity : Nat} {l : Arrivals} (e : EpochId) (p : StateProof)
    (positive : 0 < capacity) (room : l.length ≤ capacity) :
    (Arrivals.insert capacity l e p).length ≤ capacity := by
  have kept := List.length_filter_le (·.1 = e) l
  simp only [Arrivals.insert, List.length_append, List.length_singleton]
  split
  · split
    · rw [List.length_tail]
      omega
    · omega
  · omega

/-- Proofs come in for the epoch that is inserted for, and else only leave. -/
lemma mem_insert {capacity : Nat} {l : Arrivals} {e : EpochId} {p : StateProof}
    {a : EpochId × StateProof} (h : a ∈ Arrivals.insert capacity l e p) :
    a ∈ l ∨ a = (e, p) := by
  simp only [Arrivals.insert, List.mem_append, List.mem_singleton] at h
  rcases h with h | rfl
  · left
    split at h
    · split at h
      · exact (List.mem_filter.1 (List.mem_of_mem_tail h)).1
      · exact (List.mem_filter.1 h).1
    · exact h
  · exact .inr rfl

/-- What is left of a list leaves of the waiting proofs the last ones. -/
lemma waiting_suffix {l r : Arrivals} (h : r <:+ l) (e : EpochId) : r.waiting e <:+ l.waiting e :=
  (h.filter _).map _

/-- Where there is room, a proof is added at the end. -/
lemma waiting_insert_of_room {capacity : Nat} {l : Arrivals} {f : EpochId} {p : StateProof}
    (room : l.length ≠ capacity) (e : EpochId) :
    (l.insert capacity f p).waiting e = l.waiting e ++ Arrivals.waiting [(f, p)] e := by
  rw [Arrivals.insert, if_neg room, if_neg room, waiting_append]

/-- The proofs that make room for another one are the oldest for their epoch. -/
lemma exists_waiting_insert (capacity : Nat) (l : Arrivals) (f : EpochId) (p : StateProof)
    (e : EpochId) :
    ∃ kept, kept <:+ l.waiting e ∧
      (l.insert capacity f p).waiting e = kept ++ Arrivals.waiting [(f, p)] e := by
  have others : Arrivals.waiting (l.filter (·.1 = f)) e <:+ l.waiting e := by
    rw [waiting_filter_eq]
    split
    · exact List.suffix_rfl
    · exact List.nil_suffix
  refine ⟨_, ?_, waiting_append ..⟩
  split
  · split
    · exact (waiting_suffix (List.tail_suffix _) e).trans others
    · exact others
  · exact List.suffix_rfl

/-- Lists of the proofs for different epochs have as many proofs together as they were taken from.
-/
lemma foldl_length {l : Arrivals} {kept : List (EpochId × List StateProof)} (n : Nat)
    (distinct : kept.Pairwise (·.1 ≠ ·.1))
    (here : ∀ k ∈ kept, k.2 = l.waiting k.1)
    (all : ∀ a ∈ l, ∃ k ∈ kept, k.1 = a.1) :
    kept.foldl (fun n (_, proofs) => n + proofs.length) n = n + l.length := by
  induction kept generalizing l n with
  | nil =>
    cases l with
    | nil => rfl
    | cons a l =>
      obtain ⟨k, mem, _⟩ := all a (.head l)
      cases mem
  | cons k kept ih =>
    obtain ⟨fresh, distinct⟩ := List.pairwise_cons.1 distinct
    obtain ⟨own, here⟩ := List.forall_mem_cons.1 here
    -- The other lists account for the arrivals that are not for the epoch of `k`.
    rw [List.foldl_cons, ih (l := l.filter (·.1 ≠ k.1)) _ distinct]
    · have split := length_filter_ne l k.1
      have own := congrArg List.length own
      simp only
      omega
    · intro k' mem
      rw [waiting_filter_ne, if_neg (fresh k' mem).symm]
      exact here k' mem
    · intro a mem
      obtain ⟨mem, other⟩ := List.mem_filter.1 mem
      obtain ⟨k', mem', eq⟩ := all a mem
      rcases List.mem_cons.1 mem' with rfl | mem'
      · simp [eq] at other
      · exact ⟨k', mem', eq⟩

end Arrivals

/-- A queue holds the proofs of a list, but may keep an empty place for one epoch. -/
structure HoldsUpTo (q : UpdateQueue) (e : EpochId) (l : Arrivals) : Prop where
  size : q.size = l.length
  waiting : ∀ f, q.waiting f = l.waiting f
  pending : ∀ f, f ∈ q.pending → f ≠ e → q.waiting f ≠ []

/-- A queue that holds a list holds it up to the proofs for any epoch. -/
lemma Holds.upTo {q : UpdateQueue} {l : Arrivals} (h : q.Holds l) (e : EpochId) :
    q.HoldsUpTo e l :=
  ⟨h.size, h.waiting, fun f mem _ => h.pending f mem⟩

/-- What is put down for an epoch waits for it. -/
lemma waiting_insert (q : UpdateQueue) (e f : EpochId) (ps : List StateProof) (n : Nat) :
    ({ q with pending := q.pending.insert e ps, size := n } : UpdateQueue).waiting f
      = if e = f then ps else q.waiting f := by
  simp only [UpdateQueue.waiting, ExtTreeMap.getElem?_insert, LawfulEqCmp.compare_eq_iff_eq]
  split <;> rfl

/-- A queue with one more proof, whether or not there is room for it. -/
def push (q : UpdateQueue) (e : EpochId) (p : StateProof) : UpdateQueue :=
  { q with pending := q.pending.insert e (q.waiting e ++ [p]), size := q.size + 1 }

/-- A proof that is added waits last for its epoch. -/
lemma waiting_push (q : UpdateQueue) (e f : EpochId) (p : StateProof) :
    (q.push e p).waiting f = if e = f then q.waiting e ++ [p] else q.waiting f :=
  waiting_insert ..

/-- Nothing waits for an epoch that is taken out. -/
lemma waiting_erase (q : UpdateQueue) (e f : EpochId) (n : Nat) :
    ({ q with pending := q.pending.erase e, size := n } : UpdateQueue).waiting f
      = if e = f then [] else q.waiting f := by
  simp only [UpdateQueue.waiting, ExtTreeMap.getElem?_erase, LawfulEqCmp.compare_eq_iff_eq]
  split <;> rfl

/-- Nothing waits for any other epoch if only one is kept. -/
lemma waiting_keep (q : UpdateQueue) (e f : EpochId) (n : Nat) :
    ({ q with pending := q.pending.filter fun f _ => f = e, size := n } : UpdateQueue).waiting f
      = if f = e then q.waiting f else [] := by
  simp only [UpdateQueue.waiting, ExtTreeMap.getElem?_filter']
  split
  next h => cases q.pending[f]? <;> simp [h, Option.filter]
  next h => cases q.pending[f]? <;> simp [h, Option.filter]

/-- Only an epoch that the queue has a place for has proofs in it. -/
lemma mem_pending_of_waiting {q : UpdateQueue} {e : EpochId} (h : q.waiting e ≠ []) :
    e ∈ q.pending := by
  refine Decidable.byContradiction fun absent => h ?_
  simp [waiting, absent]

/-- An empty queue holds no proof. -/
lemma Holds.empty (capacity : Nat) : Holds { capacity } [] := by
  refine ⟨rfl, fun e => ?_, fun e => ?_⟩
  · simp [UpdateQueue.waiting, Arrivals.waiting]
  · simp

/-- Dropping the other epochs leaves those proofs that came in for the given one. -/
lemma Holds.dropOthers {q : UpdateQueue} {l : Arrivals} (h : q.Holds l) (e : EpochId) :
    ∃ q', q.dropOthers e = .ok q' ∧ q'.Holds (l.filter (·.1 = e)) ∧ q'.capacity = q.capacity := by
  have dropped : (q.pending.toList.filter (·.1 ≠ e)).foldl (fun n (_, proofs) => n + proofs.length)
      0 = (l.filter (·.1 ≠ e)).length := by
    rw [Arrivals.foldl_length (l := l.filter (·.1 ≠ e)), Nat.zero_add]
    · apply List.Pairwise.filter
      refine ExtTreeMap.distinct_keys_toList.imp fun ne eq => ne ?_
      rw [eq]
      exact ReflCmp.compare_self
    · intro k mem
      obtain ⟨mem, other⟩ := List.mem_filter.1 mem
      have other : k.1 ≠ e := by simpa using other
      have found := ExtTreeMap.mem_toList_iff_getElem?_eq_some.1 mem
      rw [Arrivals.waiting_filter_ne, if_neg other, ← h.waiting, UpdateQueue.waiting, found]
      rfl
    · intro a mem
      obtain ⟨mem, other⟩ := List.mem_filter.1 mem
      have some : q.waiting a.1 ≠ [] := by
        rw [h.waiting]
        exact List.ne_nil_of_mem (Arrivals.mem_waiting_iff.2 mem)
      have place := mem_pending_of_waiting some
      refine ⟨(a.1, q.pending[a.1]), List.mem_filter.2 ⟨?_, other⟩, rfl⟩
      exact ExtTreeMap.mem_toList_iff_getElem?_eq_some.2 (ExtTreeMap.getElem?_eq_some_getElem place)
  have total := Arrivals.length_filter_ne l e
  have kept := Arrivals.length_filter_eq l e
  have size := h.size
  -- The checked sum counts exactly the proofs for other epochs, so it is not above the size.
  refine ⟨{ q with
    pending := q.pending.filter fun f _ => f = e
    size := q.size - (l.filter (·.1 ≠ e)).length }, ?_, ⟨?_, fun f => ?_, fun f mem => ?_⟩, rfl⟩
  · rw [UpdateQueue.dropOthers, dropped, Violation.ensure_of (decide_eq_true (by omega))]
    rfl
  · simp only
    omega
  · rw [waiting_keep, Arrivals.waiting_filter_eq, h.waiting]
  · obtain ⟨place, eq⟩ := ExtTreeMap.mem_filter.1 mem
    rw [waiting_keep, if_pos (by simpa using eq)]
    exact h.pending f place

/-- Dropping the oldest proof of the only epoch leaves the others. -/
lemma Holds.dropOldest {q : UpdateQueue} {l : Arrivals} {e : EpochId} (h : q.Holds l)
    (nonempty : l ≠ []) (only : ∀ a ∈ l, a.1 = e) :
    ∃ q', q.dropOldest e = .ok q' ∧ q'.HoldsUpTo e l.tail ∧ q'.capacity = q.capacity := by
  -- The oldest proof for `e` is the oldest of all, since there are no others.
  have whole : l.filter (·.1 = e) = l :=
    List.filter_eq_self.2 fun a mem => by simpa using only a mem
  have count : q.pendingFor e = q.size := by
    rw [pendingFor, h.waiting, h.size, ← Arrivals.length_filter_eq, whole]
  have place : q.pending.contains e := by
    refine mem_pending_of_waiting fun none => nonempty (List.eq_nil_of_length_eq_zero ?_)
    rw [← h.size, ← count, pendingFor, none, List.length_nil]
  obtain ⟨⟨e', p⟩, l, rfl⟩ := List.exists_cons_of_ne_nil nonempty
  obtain ⟨rfl, only⟩ := List.forall_mem_cons.1 only
  refine ⟨{ q with pending := q.pending.insert e' (q.waiting e').tail, size := q.size - 1 }, ?_,
    ⟨?_, fun f => ?_, fun f mem ne => ?_⟩, rfl⟩
  · rw [UpdateQueue.dropOldest, Violation.ensure_of (by simp [place, count])]
    rfl
  · simp [h.size]
  · rw [waiting_insert]
    split
    next eq =>
      subst eq
      simp [h.waiting, Arrivals.waiting]
    next ne =>
      rw [h.waiting]
      simp [Arrivals.waiting, ne]
  · rw [waiting_insert, if_neg (Ne.symm ne)]
    refine h.pending f ?_
    simpa [Ne.symm ne] using mem

/-- Adding a proof for an epoch fills the place that is kept for it. -/
lemma HoldsUpTo.push {q : UpdateQueue} {l : Arrivals} {e : EpochId} (h : q.HoldsUpTo e l)
    (p : StateProof) : (q.push e p).Holds (l ++ [(e, p)]) := by
  refine ⟨?_, fun f => ?_, fun f mem => ?_⟩
  · simp [UpdateQueue.push, h.size]
  · rw [waiting_push, Arrivals.waiting_append]
    split
    next eq =>
      subst eq
      simp [h.waiting, Arrivals.waiting]
    next ne =>
      rw [h.waiting]
      simp [Arrivals.waiting, ne]
  · rw [waiting_push]
    split
    next => simp
    next ne =>
      refine h.pending f ?_ (Ne.symm ne)
      simpa [UpdateQueue.push, ne] using mem

/-- With room left, a proof is added and nothing is dropped. -/
lemma insert_of_lt {q : UpdateQueue} (room : q.size < q.capacity) (e : EpochId) (p : StateProof) :
    q.insert e p = .ok (q.push e p) := by
  have free : q.size ≠ q.capacity := Nat.ne_of_lt room
  simp [UpdateQueue.insert, push, free, Violation.ensure_of (decide_eq_true room)]

/-- Adding a proof to a full queue that has room once the proofs of other epochs are dropped. -/
lemma insert_of_dropOthers {q q' : UpdateQueue} {e : EpochId} (full : q.size = q.capacity)
    (drop : q.dropOthers e = .ok q') (room : q'.size < q'.capacity) (p : StateProof) :
    q.insert e p = q'.insert e p := by
  have free : q'.size ≠ q'.capacity := Nat.ne_of_lt room
  simp [UpdateQueue.insert, full, drop, free]

/-- Adding a proof to a queue that is full of proofs for the same epoch. -/
lemma insert_of_dropOldest {q q1 q2 : UpdateQueue} {e : EpochId} (full : q.size = q.capacity)
    (others : q.dropOthers e = .ok q1) (still : q1.size = q1.capacity)
    (oldest : q1.dropOldest e = .ok q2) (room : q2.size < q2.capacity) (p : StateProof) :
    q.insert e p = q2.insert e p := by
  have free : q2.size ≠ q2.capacity := Nat.ne_of_lt room
  simp [UpdateQueue.insert, full, others, still, oldest, free]

/-- Adding a proof succeeds and does to the list of arrivals what it should. -/
lemma Holds.insert {q : UpdateQueue} {l : Arrivals} (h : q.Holds l) (positive : 0 < q.capacity)
    (bound : l.length ≤ q.capacity) (e : EpochId) (p : StateProof) :
    ∃ q', q.insert e p = .ok q' ∧ q'.Holds (Arrivals.insert q.capacity l e p) ∧
      q'.capacity = q.capacity := by
  have size := h.size
  by_cases full : l.length = q.capacity
  · obtain ⟨q1, others, h1, cap1⟩ := h.dropOthers e
    have size1 := h1.size
    have kept := List.length_filter_le (·.1 = e) l
    by_cases alone : (l.filter (·.1 = e)).length = q.capacity
    · -- All proofs are for `e`, and the oldest one makes room.
      obtain ⟨q2, oldest, h2, cap2⟩ := h1.dropOldest (e := e)
        (fun none => by rw [none, List.length_nil] at alone; omega)
        (fun a mem => by simpa using (List.mem_filter.1 mem).2)
      have size2 := h2.size
      rw [List.length_tail] at size2
      have room : q2.size < q2.capacity := by omega
      have same := insert_of_dropOldest (size.trans full) others (by omega) oldest room p
      refine ⟨_, same.trans (insert_of_lt room e p), ?_, cap2.trans cap1⟩
      simpa [Arrivals.insert, full, alone] using h2.push p
    · have room : q1.size < q1.capacity := by omega
      have same := insert_of_dropOthers (size.trans full) others room p
      refine ⟨_, same.trans (insert_of_lt room e p), ?_, cap1⟩
      simpa [Arrivals.insert, full, alone] using (h1.upTo e).push p
  · have room : q.size < q.capacity := by omega
    refine ⟨_, insert_of_lt room e p, ?_, rfl⟩
    simpa [Arrivals.insert, full] using (h.upTo e).push p

/-- Taking out the proofs for an epoch when the queue has not lost count of them. -/
lemma extract_of_le {q : UpdateQueue} {e : EpochId} (counted : (q.waiting e).length ≤ q.size) :
    q.extract e = .ok (q.waiting e,
      { q with pending := q.pending.erase e, size := q.size - (q.waiting e).length }) := by
  simp [UpdateQueue.extract, Violation.ensure_of (decide_eq_true counted)]

/-- What is extracted is what waits for the epoch. -/
lemma extract_eq_ok {q q' : UpdateQueue} {e : EpochId} {ps : List StateProof}
    (h : q.extract e = .ok (ps, q')) : ps = q.waiting e := by
  obtain ⟨_, _, h⟩ := Violation.bind_eq_ok_iff.1 h
  cases h
  rfl

/-- A proof that was added last comes out last, and leaves behind what was left without it. -/
lemma extract_push {q : UpdateQueue} {e : EpochId} (counted : (q.waiting e).length ≤ q.size)
    (p : StateProof) :
    (q.push e p).extract e = .ok (q.waiting e ++ [p],
      { q with pending := q.pending.erase e, size := q.size - (q.waiting e).length }) := by
  have waiting : (q.push e p).waiting e = q.waiting e ++ [p] := by simp [waiting_push]
  have erased : (q.push e p).pending.erase e = q.pending.erase e := by
    refine ExtTreeMap.ext_getElem? fun f => ?_
    simp only [push, ExtTreeMap.getElem?_erase, ExtTreeMap.getElem?_insert]
    split <;> rfl
  have size : (q.push e p).size = q.size + 1 := rfl
  rw [extract_of_le (by rw [waiting, size, List.length_append]; exact Nat.succ_le_succ counted)]
  rw [waiting, erased, size, List.length_append, List.length_singleton, Nat.add_sub_add_right]
  rfl

/-- Taking out the proofs for an epoch succeeds and takes them out of the list of arrivals. -/
lemma Holds.extract {q : UpdateQueue} {l : Arrivals} (h : q.Holds l) (e : EpochId) :
    ∃ q', q.extract e = .ok (l.waiting e, q') ∧ q'.Holds (l.filter (·.1 ≠ e)) ∧
      q'.capacity = q.capacity := by
  have total := Arrivals.length_filter_ne l e
  have size := h.size
  refine ⟨{ q with pending := q.pending.erase e, size := q.size - (l.waiting e).length }, ?_,
    ⟨?_, fun f => ?_, fun f mem => ?_⟩, rfl⟩
  · rw [extract_of_le (by rw [h.waiting]; omega), h.waiting]
  · simp only
    omega
  · rw [waiting_erase, Arrivals.waiting_filter_ne, h.waiting]
    simp only [eq_comm]
  · obtain ⟨ne, mem⟩ := ExtTreeMap.mem_erase.1 mem
    rw [waiting_erase, if_neg fun eq => ne (LawfulEqCmp.compare_eq_iff_eq.2 eq)]
    exact h.pending f mem

end StateChannel.UpdateQueue
