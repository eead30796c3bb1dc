import StateChannel.Proofs.ReportedChanges

/-!
# Updates for different epochs commute

Whatever an update does to one epoch, it neither reads nor writes another one (`Apart`): with
another value for that epoch before it, it returns the same and leaves the value alone. Processing
an off-chain proof for a known epoch changes nothing but that epoch, and reads nothing else of the
tracker but whether the epoch is the current one, which it only reports.

So such a proof and an update for another epoch can change places (`Interchange`), even if the
update makes its epoch known and replays the proofs that waited for it.
-/

namespace StateChannel
open Std

/-- Whether a proof was applied, and if not, why it was rejected. -/
def Rejection.verdict (outcome : Except Rejection Bool) : Except Rejection Unit :=
  outcome.map fun _ => ()

namespace Tracker

variable {State : Type} {α β γ : Type}

/-- What returns something and leads to another tracker, or ends processing. -/
abbrev Call (State α : Type) := Tracker State → Except Violation (α × Tracker State)

namespace Call

/-- A call that returns something else. -/
def returning (g : α → γ) (F : Call State α) : Call State γ := fun t =>
  (F t).map fun r => (g r.1, r.2)

/-- A call and another one after it, with what both return. -/
def andThen (F : Call State α) (G : Call State β) : Call State (α × β) := fun t => do
  let (a, t) ← F t
  let (b, t) ← G t
  return ((a, b), t)

/-- Two calls can change places: in both orders each of them returns the same and they lead to the
same tracker, or in both orders processing ends. -/
structure Interchange (F : Call State α) (G : Call State β) (t : Tracker State) : Prop where
  same : ∀ a b t', F.andThen G t = .ok ((a, b), t') ↔ G.andThen F t = .ok ((b, a), t')
  ends : (∃ v, F.andThen G t = .error v) ↔ ∃ v, G.andThen F t = .error v

variable {F : Call State α} {G : Call State β} {t t' : Tracker State}

/-- Two calls in a row return exactly if the second one does after the first one. -/
lemma andThen_eq_ok_iff {a : α} {b : β} :
    F.andThen G t = .ok ((a, b), t') ↔ ∃ next, F t = .ok (a, next) ∧ G next = .ok (b, t') := by
  simp only [andThen, Violation.bind_eq_ok_iff, Prod.exists]
  constructor
  · rintro ⟨_, next, first, _, last, second, eq⟩
    cases eq
    exact ⟨next, first, second⟩
  · rintro ⟨next, first, second⟩
    exact ⟨a, next, first, b, t', second, rfl⟩

/-- A call returns something else exactly if it returns what that is made of. -/
lemma returning_eq_ok_iff {g : α → γ} {c : γ} :
    F.returning g t = .ok (c, t') ↔ ∃ a, F t = .ok (a, t') ∧ g a = c := by
  simp only [returning]
  constructor
  · intro h
    cases called : F t with
    | error v => simp [called, Except.map] at h
    | ok r =>
      rw [called] at h
      cases h
      exact ⟨_, rfl, rfl⟩
  · rintro ⟨a, called, rfl⟩
    simp [called, Except.map]

/-- What is made of a returned value can be made of it at once. -/
lemma returning_returning {δ : Type} {g : α → γ} {h : γ → δ} :
    (F.returning g).returning h = F.returning (h ∘ g) := by
  funext t
  simp only [returning]
  cases F t <;> rfl

/-- Processing ends exactly if nothing is returned. -/
lemma ends_iff {x : Except Violation α} : (∃ v, x = .error v) ↔ ∀ a, x ≠ .ok a := by
  cases x <;> simp

namespace Interchange

/-- Two calls that return in both orders or in none can change places. -/
lemma of_same
    (same : ∀ a b t', F.andThen G t = .ok ((a, b), t') ↔ G.andThen F t = .ok ((b, a), t')) :
    Interchange F G t := by
  refine ⟨same, ?_⟩
  rw [ends_iff, ends_iff]
  constructor
  · rintro none ⟨⟨b, a⟩, t'⟩ done
    exact none _ ((same a b t').2 done)
  · rintro none ⟨⟨a, b⟩, t'⟩ done
    exact none _ ((same a b t').1 done)

/-- Calls that can change places can change them back. -/
lemma symm (h : Interchange F G t) : Interchange G F t where
  same b a t' := (h.same a b t').symm
  ends := h.ends.symm

/-- It does not matter for the places of two calls what is made of the value that one returns. -/
lemma returning (h : Interchange F G t) (g : α → γ) : Interchange (F.returning g) G t := by
  refine of_same fun c b t' => ?_
  simp only [andThen_eq_ok_iff, returning_eq_ok_iff]
  constructor
  · rintro ⟨next, ⟨a, first, rfl⟩, second⟩
    obtain ⟨next, first, second⟩ :=
      andThen_eq_ok_iff.1 ((h.same a b t').1 (andThen_eq_ok_iff.2 ⟨next, first, second⟩))
    exact ⟨next, first, a, second, rfl⟩
  · rintro ⟨next, first, a, second, rfl⟩
    obtain ⟨next, first, second⟩ :=
      andThen_eq_ok_iff.1 ((h.same a b t').2 (andThen_eq_ok_iff.2 ⟨next, first, second⟩))
    exact ⟨next, ⟨a, first, rfl⟩, second⟩

end Interchange
end Call

open Call

variable {ch : Channel State} {t t' : Tracker State} {e f : EpochId} {p q : StateProof}
variable {k k' : Epoch State} {u : OnChainUpdate}

/-- A tracker with another value for an epoch. -/
def put (t : Tracker State) (e : EpochId) (k : Epoch State) : Tracker State :=
  { t with epochs := t.epochs.insert e k }

/-- The value that is put for an epoch is found there. -/
lemma getElem?_put_self : (t.put e k).epochs[e]? = some k :=
  ExtTreeMap.getElem?_insert_self

/-- Values for the other epochs are found as before. -/
lemma getElem?_put_of_ne (ne : e ≠ f) : (t.put e k).epochs[f]? = t.epochs[f]? :=
  EpochMap.getElem?_insert_of_ne ne

/-- Putting the value that is stored already changes nothing. -/
lemma put_eq_self (stored : t.epochs[e]? = some k) : t.put e k = t := by
  rw [put, EpochMap.insert_eq_self stored]

/-- Of two values that are put for an epoch, the second one stays. -/
lemma put_put : (t.put e k).put e k' = t.put e k' := by
  simp only [put, EpochMap.insert_insert]

/-- A call has nothing to do with an epoch: with another value for the epoch before it, it returns
the same and leaves that value. -/
def Apart (e : EpochId) (G : Call State β) : Prop :=
  ∀ t b t' k, G t = .ok (b, t') → G (t.put e k) = .ok (b, t'.put e k)

/-- A call that has nothing to do with an epoch leaves what is stored for it. -/
lemma Apart.kept {G : Call State β} {b : β} (apart : Apart e G) (done : G t = .ok (b, t'))
    (stored : t.epochs[e]? = some k) : t'.epochs[e]? = some k := by
  have again := apart t b t' k done
  rw [put_eq_self stored, done] at again
  have same : t' = t'.put e k := (Prod.mk.inj (Except.ok.inj again)).2
  rw [same]
  exact getElem?_put_self

/-- A proof for another epoch has the same outcome whatever is stored for this one. -/
lemma Received.put {outcome : Except Rejection Bool} (h : Received ch t f q outcome t')
    (ne : e ≠ f) (k : Epoch State) : Received ch (t.put e k) f q outcome (t'.put e k) := by
  have same : (t.put e k).epochs[f]? = t.epochs[f]? := getElem?_put_of_ne ne
  cases h with
  | early unknown added => exact .early (same.trans unknown) added
  | unsupported found examined => exact .unsupported (same.trans found) examined
  | invalid found examined => exact .invalid (same.trans found) examined
  | stale found examined le => exact .stale (same.trans found) examined le
  | fresh found examined lt =>
    have moved := Received.fresh (same.trans found) examined lt
    rw [Tracker.put, EpochMap.insert_comm ne] at moved
    exact moved

/-- Proofs for another epoch are processed alike whatever is stored for this one. -/
lemma replay_put {qs : List StateProof} (h : t.replay ch f qs = .ok t') (ne : e ≠ f)
    (k : Epoch State) : (t.put e k).replay ch f qs = .ok (t'.put e k) := by
  induction qs generalizing t with
  | nil =>
    cases h
    exact replay_nil
  | cons q qs ih =>
    obtain ⟨outcome, next, received, further⟩ := replay_cons_eq_ok h
    have elsewhere := tryReceive_eq_ok_iff.2 (received.put ne k)
    rw [replay_cons, receive_eq_ok_iff.2 ⟨outcome, elsewhere, rfl⟩, Violation.ok_bind]
    exact ih further

/-- An on-chain update of another epoch has the same outcome whatever is stored for this one. -/
lemma Confirmed.put {changed : Bool} (h : Confirmed ch t u changed t')
    (ne : e ≠ u.metadata.epoch) (k : Epoch State) :
    Confirmed ch (t.put e k) u changed (t'.put e k) := by
  have same : (t.put e k).epochs[u.metadata.epoch]? = t.epochs[u.metadata.epoch]? :=
    getElem?_put_of_ne ne
  cases h with
  | @founded latest _ queue _ unknown examined extracted replayed =>
    have start : (t.put e k).found ch u latest queue = (t.found ch u latest queue).put e k := by
      simp only [Tracker.put, found, EpochMap.insert_comm ne]
    refine .founded (same.trans unknown) examined extracted ?_
    rw [start]
    exact replay_put replayed ne k
  | stale found examined metadata founding le =>
    have confirmed := Confirmed.stale (same.trans found) examined metadata founding le
    rw [Tracker.put, EpochMap.insert_comm ne] at confirmed
    exact confirmed
  | fresh found examined metadata founding lt =>
    have confirmed := Confirmed.fresh (same.trans found) examined metadata founding lt
    rw [Tracker.put, EpochMap.insert_comm ne] at confirmed
    exact confirmed

/-- A proof from a player has nothing to do with other epochs. -/
lemma apart_tryReceive (ne : e ≠ f) (q : StateProof) : Apart e (tryReceive ch · f q) := by
  intro t outcome t' k done
  exact tryReceive_eq_ok_iff.2 ((tryReceive_eq_ok_iff.1 done).put ne k)

/-- An on-chain update has nothing to do with other epochs. -/
lemma apart_confirm (ne : e ≠ u.metadata.epoch) : Apart e (confirm ch · u) := by
  intro t changed t' k done
  exact confirm_eq_ok_iff.2 ((confirm_eq_ok_iff.1 done).put ne k)

/-- A proof that is rejected wherever an epoch is known like that leaves the value of the epoch. -/
lemma Received.elsewhere_of_error {r : Rejection} (stored : t.epochs[e]? = some k)
    (rejects : ∀ t₁ : Tracker State, t₁.epochs[e]? = some k → Received ch t₁ e p (.error r) t₁) :
    ∃ k', t = t.put e k' ∧ ∀ t₁ : Tracker State, t₁.epochs[e]? = some k →
      Received ch t₁ e p (.error r) (t₁.put e k') := by
  refine ⟨k, (put_eq_self stored).symm, fun t₁ found => ?_⟩
  rw [put_eq_self found]
  exact rejects t₁ found

/-- What comes of a proof for a known epoch, in whatever tracker the epoch is known like that. -/
lemma Received.elsewhere {outcome : Except Rejection Bool} (h : Received ch t e p outcome t')
    (stored : t.epochs[e]? = some k) :
    ∃ k', t' = t.put e k' ∧ ∀ t₁ : Tracker State, t₁.epochs[e]? = some k →
      Received ch t₁ e p (outcome.map fun _ => t₁.selected = some e) (t₁.put e k') := by
  cases h with
  | early unknown => cases unknown.symm.trans stored
  | unsupported found examined =>
    cases found.symm.trans stored
    exact elsewhere_of_error found fun _ found => .unsupported found examined
  | invalid found examined =>
    cases found.symm.trans stored
    exact elsewhere_of_error found fun _ found => .invalid found examined
  | stale found examined le =>
    cases found.symm.trans stored
    exact elsewhere_of_error found fun _ found => .stale found examined le
  | @fresh _ latest found examined lt =>
    cases found.symm.trans stored
    exact ⟨k.replaceLatest p latest, rfl, fun t₁ found => .fresh found examined lt⟩

/-- Whether the epoch is the current one is all that is reported of a proof that was applied. -/
lemma Received.map_eq {outcome : Except Rejection Bool} (h : Received ch t e p outcome t') :
    (outcome.map fun _ => decide (t.selected = some e)) = outcome := by
  cases h <;> rfl

section
variable {G : Call State β} {next : Tracker State} {outcome : Except Rejection Bool} {b : β}

/-- A proof for a known epoch can as well be processed after a call that has nothing to do with the
epoch. -/
lemma Apart.postpone (apart : Apart e G) (stored : t.epochs[e]? = some k)
    (received : t.tryReceive ch e p = .ok (outcome, next)) (done : G next = .ok (b, t')) :
    ∃ next, G t = .ok (b, next) ∧
      next.tryReceive ch e p = .ok (outcome.map fun _ => next.selected = some e, t') := by
  obtain ⟨k', rfl, elsewhere⟩ := (tryReceive_eq_ok_iff.1 received).elsewhere stored
  -- The call is the same with the old value of the epoch, and leaves it for the proof.
  have first := apart _ _ _ k done
  rw [put_put, put_eq_self stored] at first
  have last := elsewhere (t'.put e k) getElem?_put_self
  rw [put_put, put_eq_self (apart.kept done getElem?_put_self)] at last
  exact ⟨_, first, tryReceive_eq_ok_iff.2 last⟩

/-- A proof for a known epoch can as well be processed before a call that has nothing to do with the
epoch. -/
lemma Apart.prepone (apart : Apart e G) (stored : t.epochs[e]? = some k)
    (done : G t = .ok (b, next)) (received : next.tryReceive ch e p = .ok (outcome, t')) :
    ∃ next, t.tryReceive ch e p = .ok (outcome.map fun _ => t.selected = some e, next) ∧
      G next = .ok (b, t') := by
  obtain ⟨k', rfl, elsewhere⟩ :=
    (tryReceive_eq_ok_iff.1 received).elsewhere (apart.kept done stored)
  exact ⟨t.put e k', tryReceive_eq_ok_iff.2 (elsewhere t stored), apart _ _ _ k' done⟩

/-- What is rejected does not depend on which epoch is the current one. -/
lemma verdict_map (g : Bool → Bool) :
    Rejection.verdict (outcome.map g) = Rejection.verdict outcome := by
  cases outcome <;> rfl

/-- A proof for a known epoch and a call that has nothing to do with the epoch can change places, if
it does not matter whether the epoch is the current one. -/
lemma Apart.interchange_verdict (apart : Apart e G) (stored : t.epochs[e]? = some k) :
    Interchange (returning Rejection.verdict (tryReceive ch · e p)) G t := by
  refine .of_same fun r b t' => ?_
  simp only [andThen_eq_ok_iff, returning_eq_ok_iff]
  constructor
  · rintro ⟨_, ⟨outcome, received, rfl⟩, done⟩
    obtain ⟨next, done, received⟩ := apart.postpone stored received done
    exact ⟨next, done, _, received, verdict_map _⟩
  · rintro ⟨_, done, outcome, received, rfl⟩
    obtain ⟨next, received, done⟩ := apart.prepone stored done received
    exact ⟨next, ⟨_, received, verdict_map _⟩, done⟩

/-- A proof for a known epoch and a call that has nothing to do with the epoch can change places, if
the current epoch stays what it is. -/
lemma Apart.interchange (apart : Apart e G) (stored : t.epochs[e]? = some k)
    (steady : ∀ {t b t'}, G t = .ok (b, t') → t'.selected = t.selected) :
    Interchange (tryReceive ch · e p) G t := by
  refine .of_same fun outcome b t' => ?_
  simp only [andThen_eq_ok_iff]
  constructor
  · rintro ⟨_, received, done⟩
    obtain ⟨next, done, again⟩ := apart.postpone stored received done
    rw [steady done, (tryReceive_eq_ok_iff.1 received).map_eq] at again
    exact ⟨next, done, again⟩
  · rintro ⟨_, done, received⟩
    obtain ⟨next, again, done'⟩ := apart.prepone stored done received
    rw [← steady done, (tryReceive_eq_ok_iff.1 received).map_eq] at again
    exact ⟨next, again, done'⟩

end

/-- Processing a proof without the reason is doing so and leaving the reason out. -/
lemma receive_eq_returning :
    (receive ch · e p) = returning (·.toOption.getD false) (tryReceive ch · e p) := by
  funext t
  simp only [receive, returning]
  cases t.tryReceive ch e p <;> rfl

/-- In any tracker, a proof for a known epoch can change places with a proof for another epoch and
with an on-chain update for another epoch, known or not. Only whether the epoch of the proof is the
current one can be reported otherwise, since an on-chain update makes its own epoch the current one.
-/
theorem updates_commute (known : e ∈ t.epochs) (p : StateProof) :
    (∀ f, e ≠ f → ∀ q,
      Interchange (tryReceive ch · e p) (tryReceive ch · f q) t ∧
      Interchange (receive ch · e p) (receive ch · f q) t) ∧
    ∀ u : OnChainUpdate, e ≠ u.metadata.epoch →
      Interchange (returning Rejection.verdict (tryReceive ch · e p)) (confirm ch · u) t ∧
      Interchange (returning (fun _ => ()) (receive ch · e p)) (confirm ch · u) t := by
  obtain ⟨k, stored⟩ := Option.isSome_iff_exists.1 (ExtTreeMap.mem_iff_isSome_getElem?.1 known)
  constructor
  · intro f ne q
    have moves : Interchange (tryReceive ch · e p) (tryReceive ch · f q) t := by
      refine (apart_tryReceive ne q).interchange stored fun done => ?_
      exact (tryReceive_eq_ok_iff.1 done).selected_eq
    refine ⟨moves, ?_⟩
    rw [receive_eq_returning, receive_eq_returning]
    exact ((moves.returning _).symm.returning _).symm
  · intro u ne
    -- Whether `e` is the current epoch depends on the order, so only the verdict is the same.
    have judged :
        Interchange (returning Rejection.verdict (tryReceive ch · e p)) (confirm ch · u) t :=
      (apart_confirm ne).interchange_verdict stored
    refine ⟨judged, ?_⟩
    have silent := judged.returning fun _ => ()
    rw [returning_returning] at silent
    rw [receive_eq_returning, returning_returning]
    exact silent

open AdditionGame in
/-- So it is with the first move of an addition game and the start of a rematch, which make the move
report a change in one order only. -/
theorem updates_commute_firstMove :
    ∃ u : OnChainUpdate, u.metadata = rematch ∧
      seating.epoch ∈ (openTable {}).epochs ∧ seating.epoch ≠ u.metadata.epoch ∧
      ∃ t' : Tracker AdditionGame.State,
        (openTable {}).tryReceive (hall {}) seating.epoch (firstMove {} (encode 11 1))
          = .ok (.ok true, played) ∧
        played.confirm (hall {}) u = .ok (true, t') ∧
        (andThen (confirm (hall {}) · u) (returning Rejection.verdict
            (tryReceive (hall {}) · seating.epoch (firstMove {} (encode 11 1))))) (openTable {})
          = .ok ((true, .ok ()), t') := by
  have known : seating.epoch ∈ (openTable {}).epochs := ExtTreeMap.mem_insert_self
  have ne : seating.epoch ≠ rematch.epoch := by decide
  have parsed : (hall {}).rules.parse (hall {}).id rematch opening = some ⟨rematch, 10, 0⟩ := by
    decide
  have encodes : (hall {}).rules.encodedBy ⟨rematch, 10, 0⟩ opening = true := by decide
  have examined : (hall {}).examine rematch opening (.trivial opening) = .ok ⟨rematch, 10, 0⟩ :=
    Channel.examine_eq_ok_iff.2 ⟨rfl, Channel.valid_trivial parsed encodes, parsed⟩
  have unknown : played.epochs[rematch.epoch]? = none :=
    (EpochMap.getElem?_insert_of_ne ne).trans
      ((EpochMap.getElem?_insert_of_ne ne).trans ExtTreeMap.getElem?_empty)
  have taken : played.queue.extract rematch.epoch = .ok ([], { capacity := 1 }) := rfl
  have moved := tryReceive_eq_ok_iff.2 played_fresh
  have started : Confirmed (hall {}) played ⟨rematch, opening, .trivial opening⟩ true _ :=
    .founded unknown examined taken replay_nil
  refine ⟨_, rfl, known, ne, _, moved, confirm_eq_ok_iff.2 started, ?_⟩
  refine (((updates_commute known _).2 _ ne).1.same _ _ _).1 ?_
  exact andThen_eq_ok_iff.2 ⟨_, returning_eq_ok_iff.2 ⟨_, moved, rfl⟩, confirm_eq_ok_iff.2 started⟩

end Tracker
end StateChannel
