import StateChannel.Proofs.QueueArrivals

/-!
# The update queue behaves as a list of arrivals

Whatever is done with a queue, the same is done to the list of proofs that it holds. It always
succeeds, takes out the same proofs, and leaves a queue that holds what is left of the list. The
places for the epochs and the size that the queue keeps can so be forgotten.
-/

namespace StateChannel.UpdateQueue

variable {q : UpdateQueue} {l : Arrivals} {capacity : Nat}

/-- A queue of a given capacity holds a list of proofs that fits in it. -/
structure Represents (capacity : Nat) (q : UpdateQueue) (l : Arrivals) : Prop where
  holds : q.Holds l
  limit : q.capacity = capacity
  bound : l.length ≤ capacity

/-- A new queue holds nothing. -/
lemma new_represents (positive : 0 < capacity) :
    ∃ q, UpdateQueue.new capacity = .ok q ∧ Represents capacity q [] := by
  refine ⟨{ capacity }, ?_, .empty capacity, rfl, Nat.zero_le capacity⟩
  simp [UpdateQueue.new, Violation.ensure_of (decide_eq_true positive)]

/-- Inserting a proof in a queue inserts it in the list that the queue holds. -/
lemma Represents.insert (h : Represents capacity q l) (positive : 0 < capacity) (e : EpochId)
    (p : StateProof) :
    ∃ q', q.insert e p = .ok q' ∧ Represents capacity q' (l.insert capacity e p) := by
  obtain ⟨holds, rfl, bound⟩ := h
  obtain ⟨q', added, holds', limit⟩ := holds.insert positive bound e p
  exact ⟨q', added, holds', limit, Arrivals.length_insert_le e p positive bound⟩

/-- Extracting an epoch takes its proofs from the list that the queue holds. -/
lemma Represents.extract (h : Represents capacity q l) (e : EpochId) :
    ∃ q', q.extract e = .ok (l.waiting e, q') ∧ Represents capacity q' (l.filter (·.1 ≠ e)) := by
  obtain ⟨holds, rfl, bound⟩ := h
  obtain ⟨q', taken, holds', limit⟩ := holds.extract e
  exact ⟨q', taken, holds', limit, Nat.le_trans (List.length_filter_le ..) bound⟩

/-- An operation succeeds and does to the list what it should. -/
lemma Represents.perform (h : Represents capacity q l) (positive : 0 < capacity) (op : Operation) :
    ∃ q', q.perform op = .ok ((l.perform capacity op).1, q') ∧
      Represents capacity q' (l.perform capacity op).2 := by
  cases op with
  | insert e p =>
    obtain ⟨q', added, after⟩ := h.insert positive e p
    refine ⟨q', ?_, after⟩
    rw [UpdateQueue.perform, added]
    rfl
  | extract e =>
    obtain ⟨q', taken, after⟩ := h.extract e
    exact ⟨q', taken, after⟩

/-- Operations on a queue give out the same as on the list that it holds. -/
lemma Represents.run (h : Represents capacity q l) (positive : 0 < capacity)
    (ops : List Operation) :
    ∃ q', q.run ops = .ok ((l.run capacity ops).1, q') ∧
      Represents capacity q' (l.run capacity ops).2 := by
  induction ops generalizing q l with
  | nil => exact ⟨q, rfl, h⟩
  | cons op ops ih =>
    obtain ⟨q1, first, h1⟩ := h.perform positive op
    obtain ⟨q2, later, h2⟩ := ih h1
    refine ⟨q2, ?_, h2⟩
    simp only [UpdateQueue.run, first, Violation.ok_bind, later]
    rfl

/-- A queue is empty exactly if the list that it holds is. -/
lemma Represents.isEmpty_iff (h : Represents capacity q l) : q.isEmpty = true ↔ l = [] := by
  rw [UpdateQueue.isEmpty, h.holds.size, decide_eq_true_iff, List.length_eq_zero_iff]

/-- A queue counts the proofs that have come in for an epoch. -/
lemma Represents.pendingFor_eq (h : Represents capacity q l) (e : EpochId) :
    q.pendingFor e = l.countP (·.1 = e) := by
  rw [pendingFor, h.holds.waiting, ← Arrivals.length_filter_eq, List.countP_eq_length_filter]

/-- A queue with room for a proof and a list of arrivals that starts empty give the same proofs in
the same operations, all of which succeed. After them the queue has the size of the list, which is
not above its capacity, and as many proofs for each epoch as the list. -/
theorem run_eq_arrivals (positive : 0 < capacity) (ops : List Operation) :
    ∃ start q, UpdateQueue.new capacity = .ok start ∧
      start.run ops = .ok ((Arrivals.run capacity [] ops).1, q) ∧
      q.size = (Arrivals.run capacity [] ops).2.length ∧
      q.size ≤ capacity ∧
      (q.isEmpty = true ↔ (Arrivals.run capacity [] ops).2 = []) ∧
      ∀ e, q.pendingFor e = (Arrivals.run capacity [] ops).2.countP (·.1 = e) := by
  obtain ⟨start, new, empty⟩ := new_represents positive
  obtain ⟨q, ran, after⟩ := empty.run positive ops
  refine ⟨start, q, new, ran, after.holds.size, ?_, after.isEmpty_iff, after.pendingFor_eq⟩
  rw [after.holds.size]
  exact after.bound

/-- So with room for two proofs, a third one drives out that of another epoch, and a fourth one the
oldest of its own epoch. -/
theorem run_eq_arrivals_two :
    0 < 2 ∧ ∃ start q, UpdateQueue.new 2 = .ok start ∧
      start.run
          [.insert ⟨[0]⟩ (.trivial [1]), .insert ⟨[1]⟩ (.trivial [2]),
            .insert ⟨[0]⟩ (.trivial [3]), .insert ⟨[0]⟩ (.trivial [4]), .extract ⟨[0]⟩]
        = .ok ([[], [], [], [], [.trivial [3], .trivial [4]]], q) ∧
      q.size = 0 ∧ q.size ≤ 2 ∧ q.isEmpty = true ∧ ∀ e, q.pendingFor e = 0 := by
  obtain ⟨start, q, new, ran, size, bound, empty, pending⟩ :=
    run_eq_arrivals Nat.zero_lt_two
      [.insert ⟨[0]⟩ (.trivial [1]), .insert ⟨[1]⟩ (.trivial [2]),
        .insert ⟨[0]⟩ (.trivial [3]), .insert ⟨[0]⟩ (.trivial [4]), .extract ⟨[0]⟩]
  exact ⟨Nat.zero_lt_two, start, q, new, ran, size, bound, empty.2 rfl, pending⟩

end StateChannel.UpdateQueue
