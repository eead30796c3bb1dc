import StateChannel.Proofs.Delivery

/-!
# Updates of an epoch converge

However the updates of one epoch are ordered, if all of them can be processed, the turn count of its
latest state is the highest one among all proofs given, and the confirmed turn count the highest one
among those given on-chain.

Whether a proof is good depends on the data that the epoch was founded with alone. So what has been
processed so far determines both turn counts (`Caught`). The proofs that arrive before the epoch is
known do not have to be considered, as they can as well arrive later.
-/

namespace StateChannel
open Std

section
variable {State : Type}

namespace Channel

variable (ch : Channel State) (m : Metadata.Instance) (founding : Bytes)

/-- The state that a proof ends in has a turn count of at most `n` if the proof is acceptable and
valid. -/
def Within (n : UInt32) (p : StateProof) : Prop :=
  ∀ data, ch.rules.accepts m p = true → ch.verify? m founding p = some data →
    ∃ s, ch.rules.parse ch.id m data = some s ∧ ch.rules.turn s ≤ n

/-- The highest turn count that is reached by a good proof among the given ones. -/
structure HighestTurn (Given : StateProof → Prop) (n : UInt32) : Prop where
  reached : ∃ p s, Given p ∧ ch.examine m founding p = .ok s ∧ ch.rules.turn s = n
  within : ∀ p, Given p → ch.Within m founding n p

variable {ch m founding} {Given Given' : StateProof → Prop} {n k : UInt32} {p : StateProof}
variable {s : State}

/-- A proof within a turn count is within any higher one. -/
lemma Within.mono (h : ch.Within m founding n p) (le : n ≤ k) : ch.Within m founding k p := by
  intro data accepted verified
  obtain ⟨s, parsed, bound⟩ := h data accepted verified
  exact ⟨s, parsed, UInt32.le_trans bound le⟩

/-- A good proof is within a turn count if its state is. -/
lemma within_iff (good : ch.examine m founding p = .ok s) :
    ch.Within m founding n p ↔ ch.rules.turn s ≤ n := by
  obtain ⟨accepted, valid, parsed⟩ := examine_eq_ok_iff.1 good
  constructor
  · intro h
    obtain ⟨s', parsed', bound⟩ := h p.latest accepted (verify?_eq_some_iff.2 ⟨valid, rfl⟩)
    cases parsed.symm.trans parsed'
    exact bound
  · intro bound data _ verified
    obtain ⟨_, rfl⟩ := verify?_eq_some_iff.1 verified
    exact ⟨s, parsed, bound⟩

/-- A proof that is rejected is within every turn count. -/
lemma within_of_error {fault : ProofFault} (h : ch.examine m founding p = .error fault)
    (ne : fault ≠ .unparsable) : ch.Within m founding n p := by
  intro data accepted verified
  obtain ⟨valid, rfl⟩ := verify?_eq_some_iff.1 verified
  rw [examine_of_valid accepted valid] at h
  -- An acceptable and valid proof has no other fault than a state that does not parse.
  split at h
  · cases h
    exact absurd rfl ne
  · cases h

/-- There is only one highest turn count. -/
lemma HighestTurn.unique (h : ch.HighestTurn m founding Given n)
    (h' : ch.HighestTurn m founding Given k) : n = k := by
  obtain ⟨p, s, given, good, rfl⟩ := h.reached
  obtain ⟨p', s', given', good', rfl⟩ := h'.reached
  exact UInt32.le_antisymm ((within_iff good).1 (h'.within p given))
    ((within_iff good').1 (h.within p' given'))

/-- The highest turn count depends on nothing but which proofs are given. -/
lemma HighestTurn.congr (h : ch.HighestTurn m founding Given n) (same : ∀ p, Given p ↔ Given' p) :
    ch.HighestTurn m founding Given' n := by
  obtain ⟨p, s, given, good⟩ := h.reached
  exact ⟨⟨p, s, (same p).1 given, good⟩, fun p given => h.within p ((same p).2 given)⟩

/-- A further good proof raises the highest turn count to its own if that is not below it. -/
lemma HighestTurn.insert (h : ch.HighestTurn m founding Given n)
    (good : ch.examine m founding p = .ok s) (same : ∀ q, Given' q ↔ Given q ∨ q = p) :
    ch.HighestTurn m founding Given'
      (if n ≤ ch.rules.turn s then ch.rules.turn s else n) := by
  split
  next le =>
    refine ⟨⟨p, s, (same p).2 (.inr rfl), good, rfl⟩, fun q given => ?_⟩
    rcases (same q).1 given with given | rfl
    · exact (h.within q given).mono le
    · exact (within_iff good).2 (UInt32.le_refl _)
  next gt =>
    obtain ⟨q, s', given, reached⟩ := h.reached
    refine ⟨⟨q, s', (same q).2 (.inl given), reached⟩, fun q given => ?_⟩
    rcases (same q).1 given with given | rfl
    · exact h.within q given
    · exact (within_iff good).2 (UInt32.le_of_lt (UInt32.not_le.1 gt))

end Channel

/-- The updates that concern an epoch. -/
inductive Update.Concerns (m : Metadata) (founding : Bytes) : Update → Prop where
  | onChain {p} :
    Concerns m founding (.onChain ⟨m, founding, p⟩)
  | offChain {p} :
    Concerns m founding (.offChain m.epoch p)

namespace Tracker

/-- Updates confirm a proof on-chain. -/
def Confirms (m : Metadata) (founding : Bytes) (xs : List Update) (p : StateProof) : Prop :=
  .onChain ⟨m, founding, p⟩ ∈ xs

/-- Updates contain a proof, on-chain or not. -/
def Gives (m : Metadata) (founding : Bytes) (xs : List Update) (p : StateProof) : Prop :=
  Confirms m founding xs p ∨ .offChain m.epoch p ∈ xs

variable (ch : Channel State) (m : Metadata) (founding : Bytes)

/-- An epoch has caught up with updates for it: its proof is one of those given, and no better one
was given. -/
structure Caught (xs : List Update) (t : Tracker State) (known : Epoch State) : Prop where
  stored : t.epochs[m.epoch]? = some known
  metadata : known.metadata = m.first
  same : known.founding = founding
  given : Gives m founding xs known.proof
  good : ch.examine m.first founding known.proof = .ok known.latest
  within : ∀ p, Gives m founding xs p → ch.Within m.first founding (known.turn ch.rules) p
  confirmed : ch.HighestTurn m.first founding (Confirms m founding xs) known.confirmed

variable {ch m founding} {xs : List Update} {t t' : Tracker State} {known : Epoch State}
variable {p : StateProof}

/-- An on-chain update adds its proof to those confirmed. -/
lemma confirms_onChain {q : StateProof} :
    Confirms m founding (xs ++ [.onChain ⟨m, founding, p⟩]) q ↔
      Confirms m founding xs q ∨ q = p := by
  simp [Confirms]

/-- A proof from a player adds nothing to those confirmed. -/
lemma confirms_offChain {q : StateProof} :
    Confirms m founding (xs ++ [.offChain m.epoch p]) q ↔ Confirms m founding xs q := by
  simp [Confirms]

/-- Either kind of update adds its proof to those given. -/
lemma gives_concat {q : StateProof} {x : Update}
    (brings : x = .onChain ⟨m, founding, p⟩ ∨ x = .offChain m.epoch p) :
    Gives m founding (xs ++ [x]) q ↔ Gives m founding xs q ∨ q = p := by
  rcases brings with rfl | rfl
  · simp [Gives, Confirms, or_right_comm]
  · simp [Gives, Confirms, or_assoc]

/-- All proofs given are within a turn count if the earlier ones and the last one are. -/
lemma within_concat {n k : UInt32} {x : Update}
    (old : ∀ q, Gives m founding xs q → ch.Within m.first founding n q) (le : n ≤ k)
    (new : ch.Within m.first founding k p)
    (brings : x = .onChain ⟨m, founding, p⟩ ∨ x = .offChain m.epoch p) (q : StateProof)
    (given : Gives m founding (xs ++ [x]) q) : ch.Within m.first founding k q := by
  rcases (gives_concat brings).1 given with given | rfl
  · exact (old q given).mono le
  · exact new

/-- What a tracker stores for the epoch is what has been caught up with. -/
lemma Caught.eq_of_stored {k : Epoch State} (h : Caught ch m founding xs t known)
    (stored : t.epochs[m.epoch]? = some k) : k = known := by
  have eq := stored.symm.trans h.stored
  cases eq
  rfl

/-- A proof that is not better than the latest one changes nothing. -/
lemma Caught.keep (h : Caught ch m founding xs t known)
    (within : ch.Within m.first founding (known.turn ch.rules) p) :
    Caught ch m founding (xs ++ [.offChain m.epoch p]) t known where
  stored := h.stored
  metadata := h.metadata
  same := h.same
  given := (gives_concat (.inr rfl)).2 (.inl h.given)
  good := h.good
  within := within_concat h.within (UInt32.le_refl _) within (.inr rfl)
  confirmed := h.confirmed.congr fun _ => confirms_offChain.symm

/-- An epoch that has caught up does so with a further proof from a player. -/
lemma Caught.receive (h : Caught ch m founding xs t known) {outcome : Except Rejection Bool}
    (received : Received ch t m.epoch p outcome t') :
    ∃ known, Caught ch m founding (xs ++ [.offChain m.epoch p]) t' known := by
  cases received with
  | early unknown => cases unknown.symm.trans h.stored
  | unsupported found eq =>
    -- The proof was examined under the data of the epoch, so the fault is one for `m` too.
    cases h.eq_of_stored found
    rw [h.metadata, h.same] at eq
    exact ⟨known, h.keep (Channel.within_of_error eq nofun)⟩
  | invalid found eq =>
    cases h.eq_of_stored found
    rw [h.metadata, h.same] at eq
    exact ⟨known, h.keep (Channel.within_of_error eq nofun)⟩
  | stale found good le =>
    cases h.eq_of_stored found
    rw [h.metadata, h.same] at good
    exact ⟨known, h.keep ((Channel.within_iff good).2 le)⟩
  | @fresh _ latest found good lt =>
    cases h.eq_of_stored found
    rw [h.metadata, h.same] at good
    refine ⟨known.replaceLatest p latest, ExtTreeMap.getElem?_insert_self, h.metadata, h.same,
      ?given, good, ?within, ?confirmed⟩
    case given => exact (gives_concat (.inr rfl)).2 (.inr rfl)
    case within =>
      have own := (Channel.within_iff good).2 (UInt32.le_refl _)
      exact within_concat h.within (UInt32.le_of_lt lt) own (.inr rfl)
    case confirmed => exact h.confirmed.congr fun _ => confirms_offChain.symm

/-- An epoch that has caught up does so with a further proof from the chain. -/
lemma Caught.confirm (h : Caught ch m founding xs t known) {changed : Bool}
    (done : Confirmed ch t ⟨m, founding, p⟩ changed t') :
    ∃ known, Caught ch m founding (xs ++ [.onChain ⟨m, founding, p⟩]) t' known := by
  cases done with
  | founded unknown => cases unknown.symm.trans h.stored
  | @stale _ latest found good _ _ le =>
    cases h.eq_of_stored found
    rw [h.metadata] at good
    refine ⟨known.confirm (ch.rules.turn latest), ExtTreeMap.getElem?_insert_self, h.metadata,
      h.same, ?given, h.good, ?within, ?confirmed⟩
    case given => exact (gives_concat (.inl rfl)).2 (.inl h.given)
    case within =>
      have own := (Channel.within_iff good).2 le
      exact within_concat h.within (UInt32.le_refl _) own (.inl rfl)
    case confirmed => exact h.confirmed.insert good fun _ => confirms_onChain
  | @fresh _ latest found good _ _ lt =>
    cases h.eq_of_stored found
    rw [h.metadata] at good
    refine ⟨(known.confirm (ch.rules.turn latest)).replaceLatest p latest,
      ExtTreeMap.getElem?_insert_self, h.metadata, h.same, ?given, good, ?within, ?confirmed⟩
    case given => exact (gives_concat (.inl rfl)).2 (.inr rfl)
    case within =>
      have own := (Channel.within_iff good).2 (UInt32.le_refl _)
      exact within_concat h.within (UInt32.le_of_lt lt) own (.inl rfl)
    -- The turn count is confirmed even though the proof is not stale.
    case confirmed => exact h.confirmed.insert good fun _ => confirms_onChain

/-- A tracker that has caught up stays so over further updates for the epoch. -/
lemma Caught.run (h : Caught ch m founding xs t known) {ys : List Update}
    (concern : ∀ y ∈ ys, y.Concerns m founding) (ran : t.run ch ys = .ok t') :
    ∃ known, Caught ch m founding (xs ++ ys) t' known := by
  induction ys generalizing xs t known with
  | nil =>
    cases ran
    exact ⟨known, by rwa [List.append_nil]⟩
  | cons y ys ih =>
    obtain ⟨first, others⟩ := List.forall_mem_cons.1 concern
    obtain ⟨changed, t1, applied, further⟩ := run_cons_eq_ok ran
    rw [List.append_cons]
    cases first with
    | onChain =>
      obtain ⟨known, h⟩ := h.confirm (confirm_eq_ok_iff.1 applied)
      exact ih h others further
    | offChain =>
      obtain ⟨_, received, _⟩ := receive_eq_ok_iff.1 applied
      obtain ⟨known, h⟩ := h.receive (tryReceive_eq_ok_iff.1 received)
      exact ih h others further

/-- Whether a tracker has caught up does not depend on the order of the updates. -/
lemma Caught.perm (h : Caught ch m founding xs t known) {ys : List Update} (same : xs.Perm ys) :
    Caught ch m founding ys t known := by
  have confirms (q : StateProof) : Confirms m founding xs q ↔ Confirms m founding ys q :=
    same.mem_iff
  have gives (q : StateProof) : Gives m founding xs q ↔ Gives m founding ys q :=
    or_congr (confirms q) same.mem_iff
  exact ⟨h.stored, h.metadata, h.same, (gives _).1 h.given, h.good,
    fun q given => h.within q ((gives q).2 given), h.confirmed.congr confirms⟩

/-- The epoch that an on-chain update founds has caught up with it. -/
lemma caught_found {s : State} {queue : UpdateQueue}
    (good : ch.examine m.first founding p = .ok s) :
    Caught ch m founding [.onChain ⟨m, founding, p⟩] (t.found ch ⟨m, founding, p⟩ s queue)
      (.found ch.rules m.first founding p s) := by
  have own (q : StateProof) : Confirms m founding [.onChain ⟨m, founding, p⟩] q ↔ q = p := by
    simp [Confirms]
  have only (q : StateProof) : Gives m founding [.onChain ⟨m, founding, p⟩] q ↔ q = p := by
    simp [Gives, own]
  have within := (Channel.within_iff good).2 (UInt32.le_refl _)
  refine ⟨ExtTreeMap.getElem?_insert_self, rfl, rfl, (only p).2 rfl, good, fun q given => ?_,
    ⟨p, s, (own p).2 rfl, good, rfl⟩, fun q given => ?_⟩
  · cases (only q).1 given
    exact within
  · cases (own q).1 given
    exact within

/-- Among updates for an epoch that confirm a proof, proofs from players precede a first on-chain
update. -/
lemma exists_first (concern : ∀ x ∈ xs, x.Concerns m founding) (some : Confirms m founding xs p) :
    ∃ (ps : List StateProof) (p : StateProof) (rest : List Update),
      xs = ps.map (.offChain m.epoch) ++ .onChain ⟨m, founding, p⟩ :: rest := by
  induction xs with
  | nil => cases some
  | cons x xs ih =>
    obtain ⟨first, others⟩ := List.forall_mem_cons.1 concern
    cases first with
    | @onChain p => exact ⟨[], p, xs, rfl⟩
    | @offChain q =>
      have some : Confirms m founding xs p := by simpa [Confirms] using some
      obtain ⟨ps, p, rest, rfl⟩ := ih others some
      exact ⟨q :: ps, p, rest, rfl⟩

variable {confirmed sent : List StateProof} {capacity : Nat}

/-- Updates for an epoch: those that confirm a list of proofs, and proofs that players send. -/
def updatesFor (m : Metadata) (founding : Bytes) (confirmed sent : List StateProof) : List Update :=
  confirmed.map (fun p => .onChain ⟨m, founding, p⟩) ++ sent.map (.offChain m.epoch)

/-- All updates for an epoch concern it. -/
lemma concerns_of_mem {x : Update} (mem : x ∈ updatesFor m founding confirmed sent) :
    x.Concerns m founding := by
  rcases List.mem_append.1 mem with mem | mem
  · obtain ⟨p, _, rfl⟩ := List.mem_map.1 mem
    exact .onChain
  · obtain ⟨p, _, rfl⟩ := List.mem_map.1 mem
    exact .offChain

/-- Of the updates for an epoch, those on-chain confirm the proofs that are confirmed. -/
lemma confirms_updatesFor :
    Confirms m founding (updatesFor m founding confirmed sent) p ↔ p ∈ confirmed := by
  simp [Confirms, updatesFor]

/-- The updates for an epoch give the proofs that are confirmed or sent. -/
lemma gives_updatesFor :
    Gives m founding (updatesFor m founding confirmed sent) p ↔ p ∈ confirmed ++ sent := by
  simp [Gives, Confirms, updatesFor]

/-- No more proofs come before the first on-chain update than were sent. -/
lemma length_le_of_perm {ps : List StateProof} {rest : List Update}
    (order : (ps.map (Update.offChain m.epoch) ++ rest).Perm
      (updatesFor m founding confirmed sent)) :
    ps.length ≤ sent.length := by
  -- Both sides contain the same number of proofs from players.
  let offChain : Update → Bool := fun x => x matches .offChain ..
  have count := order.countP_eq offChain
  simp only [updatesFor, List.countP_append, List.countP_map] at count
  have first : ps.countP (offChain ∘ .offChain m.epoch) = ps.length :=
    List.countP_eq_length.2 (fun _ _ => rfl)
  have all : sent.countP (offChain ∘ .offChain m.epoch) = sent.length :=
    List.countP_eq_length.2 (fun _ _ => rfl)
  have none : confirmed.countP (offChain ∘ fun p => .onChain ⟨m, founding, p⟩) = 0 :=
    List.countP_eq_zero.2 (fun _ _ => nofun)
  omega

/-- However its updates are ordered, an epoch catches up with them. -/
lemma run_caught (new : Tracker.new State capacity = .ok t) (nonempty : confirmed ≠ [])
    (room : sent.length ≤ capacity) (order : xs.Perm (updatesFor m founding confirmed sent))
    (ran : t.run ch xs = .ok t') : ∃ known, Caught ch m founding xs t' known := by
  have concern : ∀ x ∈ xs, x.Concerns m founding := fun x mem =>
    concerns_of_mem (order.mem_iff.1 mem)
  obtain ⟨p, mem⟩ := List.exists_mem_of_ne_nil _ nonempty
  obtain ⟨ps, p, rest, rfl⟩ := exists_first concern (order.mem_iff.2 (confirms_updatesFor.2 mem))
  -- What arrives before the first on-chain update may as well arrive right after it.
  have reachable : t.Reachable ch capacity := .new new
  obtain ⟨_, rfl⟩ := new_eq_ok_iff.1 new
  have fits : 0 + ps.length ≤ capacity := by
    have few := length_le_of_perm order
    omega
  rw [reachable.run_postpone (u := ⟨m, founding, p⟩) (by simp) fits] at ran
  obtain ⟨changed, t1, applied, further⟩ := run_cons_eq_ok ran
  have founded : confirm ch { queue := { capacity } } ⟨m, founding, p⟩ = .ok (changed, t1) :=
    applied
  cases confirm_eq_ok_iff.1 founded with
  | stale found => simp at found
  | fresh found => simp at found
  | @founded s _ _ _ _ good =>
    cases founded.symm.trans (confirm_of_new good)
    obtain ⟨known, h⟩ := (caught_found good).run
      (fun y mem => concern y (List.perm_middle.mem_iff.2 (.tail _ mem))) further
    rw [List.singleton_append] at h
    exact ⟨known, h.perm List.perm_middle.symm⟩

/-- A tracker that has caught up knows the highest turn count of all proofs given. -/
lemma Caught.highestTurn (h : Caught ch m founding xs t known)
    (order : xs.Perm (updatesFor m founding confirmed sent)) :
    ch.HighestTurn m.first founding (· ∈ confirmed ++ sent) (known.turn ch.rules) := by
  have h := h.perm order
  refine ⟨⟨known.proof, known.latest, gives_updatesFor.1 h.given, h.good, rfl⟩, fun p mem => ?_⟩
  exact h.within p (gives_updatesFor.2 mem)

/-- A tracker that has caught up knows the highest turn count of the confirmed proofs. -/
lemma Caught.highestConfirmed (h : Caught ch m founding xs t known)
    (order : xs.Perm (updatesFor m founding confirmed sent)) :
    ch.HighestTurn m.first founding (· ∈ confirmed) known.confirmed :=
  (h.perm order).confirmed.congr fun _ => confirms_updatesFor

/-- In whatever order the updates of an epoch are processed by a new tracker, the turn counts of the
epoch are the highest ones among the proofs given and among those given on-chain. If only one proof
reaches the highest turn count, that proof is stored. -/
theorem run_converges {start : Tracker State} {ys : List Update}
    (new : Tracker.new State capacity = .ok start) (nonempty : confirmed ≠ [])
    (room : sent.length ≤ capacity)
    (order : xs.Perm (updatesFor m founding confirmed sent))
    (order' : ys.Perm (updatesFor m founding confirmed sent))
    (ran : start.run ch xs = .ok t) (ran' : start.run ch ys = .ok t') :
    ∃ known known' : Epoch State,
      t.epochs[m.epoch]? = some known ∧ t'.epochs[m.epoch]? = some known' ∧
      known.turn ch.rules = known'.turn ch.rules ∧ known.confirmed = known'.confirmed ∧
      ch.HighestTurn m.first founding (· ∈ confirmed ++ sent) (known.turn ch.rules) ∧
      ch.HighestTurn m.first founding (· ∈ confirmed) known.confirmed ∧
      ∀ p, (∀ q s, q ∈ confirmed ++ sent → ch.examine m.first founding q = .ok s →
          ch.rules.turn s = known.turn ch.rules → q = p) →
        known.proof = p ∧ known'.proof = p := by
  obtain ⟨known, h⟩ := run_caught new nonempty room order ran
  obtain ⟨known', h'⟩ := run_caught new nonempty room order' ran'
  have turn := (h.highestTurn order).unique (h'.highestTurn order')
  have confirmed := (h.highestConfirmed order).unique (h'.highestConfirmed order')
  refine ⟨known, known', h.stored, h'.stored, turn, confirmed, h.highestTurn order,
    h.highestConfirmed order, fun p only => ⟨?_, ?_⟩⟩
  · exact only _ _ (gives_updatesFor.1 (h.perm order).given) h.good rfl
  · exact only _ _ (gives_updatesFor.1 (h'.perm order').given) h'.good turn.symm

open AdditionGame in
/-- So do the founding state and the first move of an addition game. -/
theorem run_converges_firstMove :
    emptyTable.run (hall {}) [.onChain opened, .offChain seating.epoch (firstMove {} (encode 11 1))]
        = .ok played ∧
      emptyTable.run (hall {})
          [.offChain seating.epoch (firstMove {} (encode 11 1)), .onChain opened] = .ok played ∧
      ∃ known known' : Epoch AdditionGame.State,
        played.epochs[seating.epoch]? = some known ∧ played.epochs[seating.epoch]? = some known' ∧
        known.turn (hall {}).rules = known'.turn (hall {}).rules ∧
        known.confirmed = known'.confirmed ∧
        (hall {}).HighestTurn seating opening
          (· ∈ [.trivial opening] ++ [firstMove {} (encode 11 1)]) (known.turn (hall {}).rules) ∧
        (hall {}).HighestTurn seating opening (· ∈ [.trivial opening]) known.confirmed ∧
        ∀ p, (∀ q s, q ∈ [.trivial opening] ++ [firstMove {} (encode 11 1)] →
            (hall {}).examine seating opening q = .ok s →
            (hall {}).rules.turn s = known.turn (hall {}).rules → q = p) →
          known.proof = p ∧ known'.proof = p := by
  have unknown : emptyTable.epochs[opened.metadata.epoch]? = none := ExtTreeMap.getElem?_empty
  have ran : emptyTable.run (hall {})
      [.offChain seating.epoch (firstMove {} (encode 11 1)), .onChain opened] = .ok played :=
    (emptyTable_reachable.run_swap (u := opened) unknown Nat.zero_lt_one _ []).trans played_run
  refine ⟨played_run, ran, ?_⟩
  exact run_converges rfl nofun (Nat.le_refl 1) (.refl _) (.swap ..) played_run ran

end Tracker
end
end StateChannel
