import StateChannel.Proofs.Histories
import StateChannel.Proofs.PeerData

/-!
# Which proofs are replayed

When an epoch becomes known, the proofs that have waited for it are replayed. Making room in the
queue drops either all proofs for an epoch or the oldest one, so those that wait are always the last
ones of all that were sent for it, with none missing in between. Without a need for room, all of
them wait.
-/

namespace StateChannel
open Std UpdateQueue

/-- A proof from a player comes in for an epoch exactly as it waits for it. -/
lemma Update.proofsFor_offChain_eq_waiting {e f : EpochId} {p : StateProof} :
    Update.proofsFor [.offChain f p] e = Arrivals.waiting [(f, p)] e := by
  rw [Update.proofsFor_offChain]
  by_cases eq : f = e <;> simp [Arrivals.waiting, eq]

namespace Arrival

variable {a : Arrival} {log log' : List Arrival} {e : EpochId}

/-- Two logs in a row give the proofs of the first and then those of the second. -/
@[simp] lemma proofsFor_append :
    proofsFor (log ++ log') e = proofsFor log e ++ proofsFor log' e := by
  simp [proofsFor]

/-- The first arrival is the first proof for its epoch. -/
lemma proofsFor_cons_self : proofsFor (a :: log) a.epoch = a.proof :: proofsFor log a.epoch := by
  simp [proofsFor]

/-- No proof comes in for an epoch if all are for other ones. -/
lemma proofsFor_eq_nil (others : ∀ b ∈ log, b.epoch ≠ e) : proofsFor log e = [] := by
  rw [proofsFor, List.map_eq_nil_iff, List.filter_eq_nil_iff]
  intro b mem
  simpa using others b mem

end Arrival

namespace Tracker

variable {State : Type} {ch : Channel State} {capacity : Nat} {start t t' : Tracker State}
variable {e : EpochId} {x : Update} {xs : List Update} {changed : Bool} {a : Arrival}
variable {u : OnChainUpdate} {before after : List Arrival}

/-- Processing the proofs of a known epoch leaves the queue as it is. -/
lemma replay_queue_eq {ps : List StateProof} (h : t.replay ch e ps = .ok t')
    (known : e ∈ t.epochs) : t'.queue = t.queue := by
  induction ps generalizing t with
  | nil =>
    cases h
    rfl
  | cons p ps ih =>
    obtain ⟨_, next, received, further⟩ := replay_cons_eq_ok h
    rw [ih further (received.mem_iff.2 known)]
    cases received with
    | early unknown => exact absurd known (EpochMap.getElem?_eq_none_iff.1 unknown)
    | unsupported | invalid | stale | fresh => rfl

/-- What an update does to the proofs that wait for an epoch: nothing if it puts no proof in the
queue, and else what adding that proof does to the list of arrivals. -/
inductive Queues (capacity : Nat) (t : Tracker State) (x : Update) (e : EpochId)
    (t' : Tracker State) : Prop where
  | passes :
    t.arrival? x = none →
    Update.proofsFor [x] e = [] →
    t'.queue.waiting e = t.queue.waiting e →
    Queues capacity t x e t'
  | joins {f p l} :
    x = .offChain f p →
    t.arrival? x = some ⟨f, p, decide (l.length = capacity)⟩ →
    t.queue.waiting e = Arrivals.waiting l e →
    t'.queue.waiting e = (Arrivals.insert capacity l f p).waiting e →
    Queues capacity t x e t'

/-- As long as an epoch stays unknown, its proofs leave the queue only to make room. -/
lemma Reachable.queues (h : t.Reachable ch capacity) (applied : t.apply ch x = .ok (changed, t'))
    (unknown : e ∉ t'.epochs) : Queues capacity t x e t' := by
  obtain ⟨l, queued⟩ := h.queued
  cases x with
  | onChain u =>
    have confirmed := confirm_eq_ok_iff.1 applied
    have other : e ≠ u.metadata.epoch := fun eq => unknown (confirmed.mem_iff.2 (.inr eq))
    -- Only the proofs for the epoch that is confirmed leave the queue, and `e` is another one.
    refine .passes rfl rfl ?_
    cases confirmed with
    | founded _ _ extracted replayed =>
      obtain ⟨_, taken, holds, _⟩ := queued.holds.extract u.metadata.epoch
      cases extracted.symm.trans taken
      have same := replay_queue_eq replayed ExtTreeMap.mem_insert_self
      rw [same, Tracker.found, holds.waiting, Arrivals.waiting_filter_ne, if_neg other,
        queued.holds.waiting]
    | stale | fresh => rfl
  | offChain f p =>
    obtain ⟨_, received, _⟩ := receive_eq_ok_iff.1 applied
    have received := tryReceive_eq_ok_iff.1 received
    have other (known : f ∈ t.epochs) : f ≠ e := by
      rintro rfl
      exact unknown (received.mem_iff.2 known)
    have passes (known : f ∈ t.epochs) (same : t'.queue = t.queue) :
        Queues capacity t (.offChain f p) e t' := by
      refine .passes (if_pos known) ?_ (by rw [same])
      rw [Update.proofsFor_offChain, if_neg (other known)]
    cases received with
    | early absent added =>
      obtain ⟨_, added', after⟩ := queued.represents.insert queued.positive f p
      cases added.symm.trans added'
      refine .joins rfl ?_ (queued.holds.waiting e) (after.holds.waiting e)
      rw [arrival?, if_neg (EpochMap.getElem?_eq_none_iff.1 absent), queued.holds.size,
        queued.limit]
    | unsupported found | invalid found | stale found | fresh found =>
      exact passes (EpochMap.mem_of_getElem? found) rfl

namespace Queues

/-- Of the proofs that wait, only the oldest ones go. -/
lemma exists_kept (h : Queues capacity t x e t') :
    ∃ kept, kept <:+ t.queue.waiting e ∧ t'.queue.waiting e = kept ++ Update.proofsFor [x] e := by
  cases h with
  | passes _ none same => exact ⟨_, List.suffix_rfl, by rw [same, none, List.append_nil]⟩
  | @joins f p l eq _ waiting waiting' =>
    obtain ⟨kept, suffix, eq'⟩ := Arrivals.exists_waiting_insert capacity l f p e
    refine ⟨kept, by rwa [waiting], ?_⟩
    rw [waiting', eq', eq, Update.proofsFor_offChain_eq_waiting]

/-- With room left, no proof goes. -/
lemma eq_append (h : Queues capacity t x e t')
    (roomy : ∀ a, t.arrival? x = some a → a.full = false) :
    t'.queue.waiting e = t.queue.waiting e ++ Update.proofsFor [x] e := by
  cases h with
  | passes _ none same => rw [same, none, List.append_nil]
  | @joins f p l eq arrives waiting waiting' =>
    have room : l.length ≠ capacity := by simpa using roomy _ arrives
    rw [waiting', Arrivals.waiting_insert_of_room room, waiting, eq,
      Update.proofsFor_offChain_eq_waiting]

/-- Every proof for an unknown epoch is put in the queue. -/
lemma proofsFor_eq (h : Queues capacity t x e t') :
    Update.proofsFor [x] e = Arrival.proofsFor (t.arrival? x).toList e := by
  cases h with
  | passes none nothing _ =>
    rw [none, nothing]
    rfl
  | @joins f p l eq arrives _ _ =>
    rw [arrives, eq, Update.proofsFor_offChain]
    by_cases own : f = e <;> simp [Arrival.proofsFor, own]

end Queues

/-- What the first update puts in the queue comes before what the others do. -/
lemma arrivals_cons_of (applied : t.apply ch x = .ok (changed, t')) :
    t.arrivals ch (x :: xs) = (t.arrival? x).toList ++ t'.arrivals ch xs := by
  rw [arrivals, applied]

/-- An epoch that is not known after a run was not known before it. -/
lemma unknown_of_run (ran : t.run ch xs = .ok t') (unknown : e ∉ t'.epochs) : e ∉ t.epochs :=
  fun mem => unknown ((run_mem_iff ran).2 (.inl mem))

/-- The proofs that wait for an unknown epoch are the last ones of those that were sent for it. -/
lemma Reachable.waiting_suffix (h : t.Reachable ch capacity) (ran : t.run ch xs = .ok t')
    (unknown : e ∉ t'.epochs) :
    t'.queue.waiting e <:+ t.queue.waiting e ++ Update.proofsFor xs e := by
  induction xs generalizing t with
  | nil =>
    cases ran
    simp only [Update.proofsFor_nil, List.append_nil, List.suffix_rfl]
  | cons x xs ih =>
    obtain ⟨_, next, applied, ran⟩ := run_cons_eq_ok ran
    obtain ⟨kept, suffix, eq⟩ := (h.queues applied (unknown_of_run ran unknown)).exists_kept
    have later := ih (h.apply applied) ran
    rw [eq, List.append_assoc, ← Update.proofsFor_cons] at later
    exact later.trans (List.suffix_append_self_iff.2 suffix)

/-- Without a need for room, all proofs wait that were sent for an unknown epoch. -/
lemma Reachable.waiting_eq (h : t.Reachable ch capacity) (ran : t.run ch xs = .ok t')
    (unknown : e ∉ t'.epochs) (roomy : ∀ a ∈ t.arrivals ch xs, a.full = false) :
    t'.queue.waiting e = t.queue.waiting e ++ Update.proofsFor xs e := by
  induction xs generalizing t with
  | nil =>
    cases ran
    rw [Update.proofsFor_nil, List.append_nil]
  | cons x xs ih =>
    obtain ⟨_, next, applied, ran⟩ := run_cons_eq_ok ran
    rw [arrivals_cons_of applied] at roomy
    have added := (h.queues applied (unknown_of_run ran unknown)).eq_append fun a arrives =>
      roomy a (List.mem_append_left _ (by rw [arrives]; exact .head _))
    have later := ih (h.apply applied) ran fun a mem => roomy a (List.mem_append_right _ mem)
    rw [later, added, List.append_assoc, ← Update.proofsFor_cons]

/-- As long as an epoch is not known, all proofs for it are put in the queue. -/
lemma Reachable.proofsFor_eq (h : t.Reachable ch capacity) (ran : t.run ch xs = .ok t')
    (unknown : e ∉ t'.epochs) :
    Update.proofsFor xs e = Arrival.proofsFor (t.arrivals ch xs) e := by
  induction xs generalizing t with
  | nil => rfl
  | cons x xs ih =>
    obtain ⟨_, next, applied, ran⟩ := run_cons_eq_ok ran
    have own := (h.queues applied (unknown_of_run ran unknown)).proofsFor_eq
    rw [Update.proofsFor_cons, own, ih (h.apply applied) ran, arrivals_cons_of applied,
      Arrival.proofsFor_append]

/-- What is put in the queue is a proof from a player. -/
lemma arrival_eq_some (h : t.arrival? x = some a) : x = .offChain a.epoch a.proof := by
  cases x with
  | onChain u => cases h
  | offChain f p =>
    rw [arrival?] at h
    split at h
    · cases h
    · cases h
      rfl

variable (ch) in
/-- A proof is put in the queue in the course of a run, after some others and before some others. -/
inductive ArrivesAmid (t : Tracker State) (xs : List Update) (t' : Tracker State)
    (before : List Arrival) (a : Arrival) (after : List Arrival) : Prop where
  | intro {ys zs t1 changed t2} :
    xs = ys ++ .offChain a.epoch a.proof :: zs →
    t.run ch ys = .ok t1 →
    t1.apply ch (.offChain a.epoch a.proof) = .ok (changed, t2) →
    t2.run ch zs = .ok t' →
    t.arrivals ch ys = before →
    t2.arrivals ch zs = after →
    ArrivesAmid t xs t' before a after

/-- What comes in amid later updates comes in amid all of them. -/
lemma ArrivesAmid.cons {next : Tracker State} (applied : t.apply ch x = .ok (changed, next))
    (h : ArrivesAmid ch next xs t' before a after) :
    ArrivesAmid ch t (x :: xs) t' ((t.arrival? x).toList ++ before) a after := by
  obtain ⟨rfl, ran1, applied1, ran2, rfl, rfl⟩ := h
  refine .intro rfl ?_ applied1 ran2 (arrivals_cons_of applied) rfl
  rw [run_cons_of applied, ran1]

/-- A run can be stopped wherever a proof is put in the queue. -/
lemma arrivesAmid (ran : t.run ch xs = .ok t') (log : t.arrivals ch xs = before ++ a :: after) :
    ArrivesAmid ch t xs t' before a after := by
  induction xs generalizing t before with
  | nil =>
    rw [arrivals] at log
    cases before <;> cases log
  | cons x xs ih =>
    obtain ⟨changed, next, applied, further⟩ := run_cons_eq_ok ran
    have cons {rest} (later : ArrivesAmid ch next xs t' rest a after) := later.cons applied
    rw [arrivals_cons_of applied] at log
    -- Either this update puts `a` in the queue, or a later one does.
    cases arrives : t.arrival? x with
    | none =>
      rw [arrives] at log cons
      exact cons (ih further log)
    | some b =>
      rw [arrives] at log cons
      cases before with
      | nil =>
        cases log
        cases arrival_eq_some arrives
        exact .intro (List.nil_append _).symm run_nil applied further rfl rfl
      | cons _ before =>
        obtain ⟨rfl, tail⟩ := List.cons.inj log
        exact cons (ih further tail)

/-- Where a proof is put in the queue, it waits behind the last ones of the proofs that were sent
before it. What is sent after it, without a need for room, waits behind it. -/
lemma Reachable.exists_waiting (h : t.Reachable ch capacity) (ran : t.run ch xs = .ok t')
    (unknown : a.epoch ∉ t'.epochs) (log : t.arrivals ch xs = before ++ a :: after)
    (roomy : ∀ b ∈ after, b.full = false) :
    ∃ kept, kept <:+ t.queue.waiting a.epoch ++ Arrival.proofsFor before a.epoch ∧
      t'.queue.waiting a.epoch = kept ++ a.proof :: Arrival.proofsFor after a.epoch := by
  obtain ⟨rfl, ran1, applied, ran2, rfl, rfl⟩ := arrivesAmid ran log
  have unknown2 := unknown_of_run ran2 unknown
  have unknown1 := unknown_of_run ((run_cons_of applied).trans run_nil) unknown2
  have reachable1 := (history_iff_run.2 ran1).reachable h
  have reachable2 := reachable1.apply applied
  obtain ⟨kept, suffix, joined⟩ := (reachable1.queues applied unknown2).exists_kept
  rw [Update.proofsFor_offChain, if_pos rfl] at joined
  -- Before `a` comes in only the oldest ones go, and after it none does.
  refine ⟨kept, ?_, ?_⟩
  · rw [← h.proofsFor_eq ran1 unknown1]
    exact suffix.trans (h.waiting_suffix ran1 unknown1)
  · rw [reachable2.waiting_eq ran2 unknown roomy, joined, reachable2.proofsFor_eq ran2 unknown,
      List.append_assoc, List.singleton_append]

/-- When an epoch becomes known, the last ones of the proofs that were sent for it are replayed in
order. The very last one is among them, unless the queue was full when a proof for another epoch
came in later; and so are all of them, unless it was full when any proof came in after the first
one. None is left in the queue. -/
theorem History.replays_suffix (h : History ch start xs t)
    (new : Tracker.new State capacity = .ok start) (same : u.metadata.epoch = e)
    (first : e ∉ Update.confirmedEpochs xs) (confirmed : t.confirm ch u = .ok (changed, t')) :
    ∃ latest replayed queue,
      ch.examine u.metadata.first u.founding u.proof = .ok latest ∧
      t.queue.extract e = .ok (replayed, queue) ∧
      (t.found ch u latest queue).run ch (replayed.map (.offChain e)) = .ok t' ∧
      replayed <:+ Update.proofsFor xs e ∧
      Update.proofsFor xs e = Arrival.proofsFor (start.arrivals ch xs) e ∧
      (∀ before a after, start.arrivals ch xs = before ++ a :: after → a.epoch = e →
        (∀ b ∈ after, b.epoch ≠ e ∧ b.full = false) →
        replayed.getLast? = some a.proof ∧ (Update.proofsFor xs e).getLast? = some a.proof) ∧
      (∀ before a after, start.arrivals ch xs = before ++ a :: after → a.epoch = e →
        (∀ b ∈ before, b.epoch ≠ e) → (∀ b ∈ after, b.full = false) →
        replayed = Update.proofsFor xs e) ∧
      t'.queue.waiting e = [] := by
  have ran := history_iff_run.1 h
  have empty : start.Reachable ch capacity := .new new
  have reachable := h.reachable empty
  have unknown : e ∉ t.epochs := by
    obtain ⟨_, rfl⟩ := new_eq_ok_iff.1 new
    rw [run_mem_iff ran]
    simpa using first
  have nothing : start.queue.waiting e = [] := by
    obtain ⟨_, rfl⟩ := new_eq_ok_iff.1 new
    exact (Holds.empty capacity).waiting e
  have sent := empty.proofsFor_eq ran unknown
  obtain ⟨l, queued⟩ := (reachable.apply (u := .onChain u) confirmed).queued
  have confirmed := confirm_eq_ok_iff.1 confirmed
  have done := queued.waiting_eq_nil (confirmed.mem_iff.2 (.inr same.symm))
  subst same
  cases confirmed with
  -- It is the first confirmation of the epoch, so the update founds it.
  | stale found | fresh found => exact absurd (EpochMap.mem_of_getElem? found) unknown
  | @founded latest _ queue _ _ examined taken replayed =>
    cases extract_eq_ok taken
    rw [replay_eq_run] at replayed
    refine ⟨latest, _, queue, examined, taken, replayed, ?suffix, sent, ?last, ?all, done⟩
    case suffix =>
      have suffix := empty.waiting_suffix ran unknown
      rwa [nothing, List.nil_append] at suffix
    case last =>
      intro before a after log own others
      rw [← own] at nothing sent unknown others ⊢
      obtain ⟨kept, _, eq⟩ := empty.exists_waiting ran unknown log fun b mem => (others b mem).2
      rw [sent, log, eq, Arrival.proofsFor_append, Arrival.proofsFor_cons_self,
        Arrival.proofsFor_eq_nil fun b mem => (others b mem).1]
      exact ⟨List.getLast?_concat, List.getLast?_concat⟩
    case all =>
      intro before a after log own others roomy
      rw [← own] at nothing sent unknown others ⊢
      obtain ⟨kept, suffix, eq⟩ := empty.exists_waiting ran unknown log roomy
      rw [nothing, Arrival.proofsFor_eq_nil others] at suffix
      cases List.suffix_nil.1 suffix
      rw [sent, log, eq, Arrival.proofsFor_append, Arrival.proofsFor_cons_self,
        Arrival.proofsFor_eq_nil others]

open AdditionGame in
/-- So the first move of an addition game is replayed when its epoch becomes known, although it took
the only place in the queue from an earlier proof. -/
theorem History.replays_suffix_firstMove :
    ∃ (t t' : Tracker AdditionGame.State) (changed : Bool) (replayed : List StateProof)
      (queue : UpdateQueue),
      History (hall {}) emptyTable
        [.offChain seating.epoch (.trivial opening),
          .offChain seating.epoch (firstMove {} (encode 11 1))] t ∧
      seating.epoch ∉ Update.confirmedEpochs
        [.offChain seating.epoch (.trivial opening),
          .offChain seating.epoch (firstMove {} (encode 11 1))] ∧
      t.confirm (hall {}) opened = .ok (changed, t') ∧
      t.queue.extract seating.epoch = .ok (replayed, queue) ∧
      replayed <:+ [.trivial opening, firstMove {} (encode 11 1)] ∧
      replayed.getLast? = some (firstMove {} (encode 11 1)) ∧
      t'.queue.waiting seating.epoch = [] := by
  have unknown : emptyTable.epochs[seating.epoch]? = none := ExtTreeMap.getElem?_empty
  have none_confirmed : seating.epoch ∉ Update.confirmedEpochs
      [.offChain seating.epoch (.trivial opening),
        .offChain seating.epoch (firstMove {} (encode 11 1))] :=
    List.not_mem_nil
  have new : Tracker.new AdditionGame.State 1 = .ok emptyTable := rfl
  have empty : emptyTable.Reachable (hall {}) 1 := .new new
  obtain ⟨queue1, applied1⟩ := empty.exists_wait unknown (.trivial opening)
  obtain ⟨queue2, applied2⟩ := (empty.apply applied1).exists_wait
    (t := { emptyTable with queue := queue1 }) unknown (firstMove {} (encode 11 1))
  have history := (History.start.apply applied1).apply applied2
  have reachable := history.reachable empty
  cases confirmed : Tracker.confirm (hall {}) { emptyTable with queue := queue2 } opened with
  | error v =>
    -- The rules parse whatever they take for a board state, so no proof that waits is stranded.
    obtain ⟨_, _, p, _, stranded⟩ := (reachable.confirm_eq_error_iff opened_examined
      fun known found => nomatch unknown.symm.trans found).1 confirmed
    exact absurd stranded (Channel.not_stranded (HouseRules.parsesAlike rfl))
  | ok r =>
    obtain ⟨_, replayed, queue, _, taken, _, suffix, _, last, _, done⟩ :=
      history.replays_suffix new rfl none_confirmed confirmed
    have absent := EpochMap.getElem?_eq_none_iff.1 unknown
    obtain ⟨full1, full2, log⟩ : ∃ full1 full2, emptyTable.arrivals (hall {})
        [.offChain seating.epoch (.trivial opening),
          .offChain seating.epoch (firstMove {} (encode 11 1))]
          = [⟨seating.epoch, .trivial opening, full1⟩] ++
            ⟨seating.epoch, firstMove {} (encode 11 1), full2⟩ :: [] := by
      rw [arrivals_cons_of applied1, arrivals_cons_of applied2, arrival?, arrival?, if_neg absent,
        if_neg absent]
      exact ⟨_, _, rfl⟩
    have newest := (last _ _ _ log rfl nofun).1
    exact ⟨_, r.2, r.1, replayed, queue, history, none_confirmed, confirmed, taken, suffix, newest,
      done⟩

end Tracker
end StateChannel
