import StateChannel.Proofs.ExportedSnapshots
import StateChannel.Proofs.SessionSteps

/-!
# Versions tell snapshots apart

The version of a service counts the answers that report a change. So between two points of a session
with the same version no update reported one, and the snapshots there are the same, except that more
turns may be confirmed at the later point. Whoever waits for a new version misses nothing else.

Under rules whose board states refer to the metadata that they were parsed with, a snapshot can be
taken at any time, and shows the last epoch that was confirmed on-chain.
-/

namespace StateChannel
open Std

/-- Two objects have the same fields in the same order, apart from those of a given name. -/
def Json.SameBut (name : String) (v v' : Json) : Prop :=
  ∃ fields fields', v = .ofFields fields ∧ v' = .ofFields fields' ∧
    fields.filter (·.1 ≠ name) = fields'.filter (·.1 ≠ name)

section
variable {State : Type}

/-- A later snapshot shows the same, with at least as many turns confirmed. -/
inductive Snapshot.SameButConfirmed : Snapshot → Snapshot → Prop where
  | blank {channel} :
    SameButConfirmed ⟨channel, none⟩ ⟨channel, none⟩
  | current {channel} {v : EpochView} {n} :
    v.confirmed ≤ n →
    SameButConfirmed ⟨channel, some v⟩ ⟨channel, some { v with confirmed := n }⟩

namespace Snapshot

variable {s s' s'' : Snapshot}

/-- A snapshot shows the same as itself. -/
lemma SameButConfirmed.refl : s.SameButConfirmed s := by
  obtain ⟨channel, _ | v⟩ := s
  · exact .blank
  · exact .current (UInt32.le_refl _)

/-- What is the same over two stretches is the same over both together. -/
lemma SameButConfirmed.trans (h : s.SameButConfirmed s') (h' : s'.SameButConfirmed s'') :
    s.SameButConfirmed s'' := by
  cases h with
  | blank => exact h'
  | current le =>
    cases h' with
    | current le' => exact .current (UInt32.le_trans le le')

/-- The JSON of the two snapshots differs in the confirmed turns at most. -/
lemma SameButConfirmed.toJson (h : s.SameButConfirmed s') :
    Json.SameBut "onchainturncount" s.toJson s'.toJson := by
  cases h with
  | blank => exact ⟨_, _, rfl, rfl, rfl⟩
  | current => exact ⟨_, _, rfl, rfl, rfl⟩

/-- The confirmed turns in the JSON of the later snapshot are at least those in the earlier one. -/
lemma SameButConfirmed.confirmed_le (h : s.SameButConfirmed s') {n : Nat}
    (shown : s.toJson.at? ["onchainturncount"] = some (.ofNat n)) :
    ∃ m, s'.toJson.at? ["onchainturncount"] = some (.ofNat m) ∧ n ≤ m := by
  cases h with
  | blank => exact ⟨n, shown, Nat.le_refl n⟩
  | @current _ v m le =>
    rw [at?_toJson_confirmed] at shown
    cases Json.ofNat_inj (Option.some.inj shown)
    exact ⟨m.toNat, at?_toJson_confirmed, UInt32.le_iff_toNat_le.1 le⟩

end Snapshot

namespace Tracker

variable {ch : Channel State} {capacity : Nat} {t t' : Tracker State} {e : EpochId}
variable {k : Epoch State} {x : Update}

/-- After an update that reports no change, the snapshot is the same but for the confirmed turns. -/
lemma Reachable.snapshot_unchanged (h : t.Reachable ch capacity)
    (faithful : ch.rules.KeepsMetadata) (applied : t.apply ch x = .ok (false, t'))
    {view : Snapshot} (shown : t.snapshot ch = .ok view) :
    ∃ view', t'.snapshot ch = .ok view' ∧ view.SameButConfirmed view' := by
  obtain ⟨selected, kept⟩ := h.unchanged applied
  cases current : t.selected with
  | none =>
    cases (snapshot_of_none current).symm.trans shown
    exact ⟨_, snapshot_of_none (selected.trans current), .blank⟩
  | some e =>
    obtain ⟨k, stored⟩ := h.currentKnown e current
    obtain ⟨n, le, stored'⟩ := kept e k current stored
    cases (h.snapshot_of_current faithful current stored).symm.trans shown
    have later := h.apply applied
    refine ⟨_, later.snapshot_of_current faithful (selected.trans current) stored', ?_⟩
    exact .current (v := k.view ch.rules e) le

end Tracker

/-- Whether a request is an update. -/
def Request.isUpdate : Request → Bool
  | .update _ | .encoded .. => true
  | .snapshot | .wait _ => false

/-- The epochs that are confirmed on-chain by requests, in order. -/
def Request.confirmedEpochs (rs : List Request) : List EpochId :=
  rs.filterMap fun
    | .update (.onChain u) => some u.metadata.epoch
    | .update (.offChain ..) | .encoded .. | .snapshot | .wait _ => none

/-- Requests in a row confirm the epochs of the first ones and then those of the others. -/
lemma Request.confirmedEpochs_append {rs rs' : List Request} :
    confirmedEpochs (rs ++ rs') = confirmedEpochs rs ++ confirmedEpochs rs' :=
  List.filterMap_append

/-- Whether an answer reports a change. -/
def Answer.changed : Answer → Bool
  | .update (.ok changed) => changed
  | .update (.error _) | .snapshot _ | .wait .. => false

namespace Service

variable {s s' : Service State} {r : Request} {answer : Answer} {ch : Channel State}
variable {capacity : Nat}

/-- The version goes up with an answer that reports a change. -/
lemma Served.version_eq (h : s.Served r answer s') :
    s'.version = if answer.changed then s.version + 1 else s.version := by
  cases h <;> rfl

/-- Only updates change something. -/
lemma Served.isUpdate_of_changed (h : s.Served r answer s') (changed : answer.changed) :
    r.isUpdate := by
  cases h with
  | update | decoded => rfl
  | undecodable | snapshot | wait => cases changed

/-- An answer that reports no change leaves the snapshot the same but for the confirmed turns. -/
lemma Served.snapshot_unchanged (h : s.Served r answer s') (tracks : s.Tracks ch capacity)
    (faithful : ch.rules.KeepsMetadata) (quiet : answer.changed = false) {view : Snapshot}
    (shown : s.snapshot = .ok view) :
    ∃ view', s'.snapshot = .ok view' ∧ view.SameButConfirmed view' := by
  obtain ⟨rfl, reachable⟩ := tracks
  cases h with
  | update applied | decoded _ applied =>
    cases quiet
    exact reachable.snapshot_unchanged faithful applied shown
  | undecodable | snapshot | wait => exact ⟨view, shown, .refl⟩

/-- Only a request that confirms an epoch on-chain makes another one the current one. -/
lemma Served.selected_eq (h : s.Served r answer s') :
    s'.tracker.selected
      = (Request.confirmedEpochs [r]).getLast?.or s.tracker.selected := by
  cases h with
  | @update x _ _ applied =>
    have selected := Tracker.apply_selected_eq applied
    cases x <;> exact selected
  | decoded _ applied => exact Tracker.apply_selected_eq applied
  | undecodable | snapshot | wait => rfl

/-- The service of a channel has a snapshot, which shows the current epoch of its tracker. -/
lemma Tracks.exists_snapshot (h : s.Tracks ch capacity) (faithful : ch.rules.KeepsMetadata) :
    ∃ view, s.snapshot = .ok view ∧ s.tracker.Shows ch.id ch.rules s.tracker.selected view.toJson ∧
      (s.tracker.selected ≠ none → ∃ n m,
        view.toJson.at? ["onchainturncount"] = some (.ofNat n) ∧
        view.toJson.at? ["state", "turncount"] = some (.ofNat m) ∧ n ≤ m) := by
  obtain ⟨rfl, reachable⟩ := h
  exact reachable.exists_snapshot faithful

end Service

namespace Session

variable {s s' : Session State} {rs : List Request} {ch : Channel State} {capacity : Nat}
variable {answers : List (Answer × List (Nat × UInt64))}

/-- How many answers report a change. -/
def changes (answers : List (Answer × List (Nat × UInt64))) : Nat :=
  answers.countP (·.1.changed)

/-- The first answer counts if it reports a change. -/
lemma changes_cons {answer : Answer} {woken : List (Nat × UInt64)} :
    changes ((answer, woken) :: answers) = changes answers + if answer.changed then 1 else 0 :=
  List.countP_cons

/-- The version goes up by one with each answer that reports a change. -/
lemma run_version (ran : s.run rs = .ok (answers, s')) :
    s'.service.version = s.service.version + .ofNat (changes answers) := by
  induction rs generalizing s answers with
  | nil =>
    cases ran
    simp [changes]
  | cons r rs ih =>
    obtain ⟨answer, woken, next, rest, served, further, rfl⟩ := run_cons_eq_ok ran
    rw [ih further, served.version_eq, changes_cons]
    split
    next => rw [UInt64.ofNat_add, UInt64.add_assoc, UInt64.add_comm 1]; rfl
    next => rfl

/-- No more answers report a change than there are updates. -/
lemma changes_le (ran : s.run rs = .ok (answers, s')) :
    changes answers ≤ rs.countP Request.isUpdate := by
  induction rs generalizing s answers with
  | nil =>
    cases ran
    exact Nat.le_refl 0
  | cons r rs ih =>
    obtain ⟨answer, woken, next, rest, served, further, rfl⟩ := run_cons_eq_ok ran
    rw [changes_cons, List.countP_cons]
    have others := ih further
    have first := served.isUpdate_of_changed
    split
    next changed => rw [if_pos (first changed)]; omega
    next => omega

/-- Over answers none of which reports a change, the snapshot stays the same but for the confirmed
turns. -/
lemma run_snapshot (ran : s.run rs = .ok (answers, s')) (tracks : s.service.Tracks ch capacity)
    (faithful : ch.rules.KeepsMetadata) (quiet : changes answers = 0) {view : Snapshot}
    (shown : s.service.snapshot = .ok view) :
    ∃ view', s'.service.snapshot = .ok view' ∧ view.SameButConfirmed view' := by
  induction rs generalizing s answers view with
  | nil =>
    cases ran
    exact ⟨view, shown, .refl⟩
  | cons r rs ih =>
    obtain ⟨answer, woken, next, rest, served, further, rfl⟩ := run_cons_eq_ok ran
    rw [changes_cons, Nat.add_eq_zero_iff] at quiet
    obtain ⟨quiet, first⟩ := quiet
    have first : answer.changed = false := by simpa using first
    obtain ⟨view', shown', same⟩ := served.snapshot_unchanged tracks faithful first shown
    obtain ⟨view'', shown'', same'⟩ := ih further (served.tracks tracks) quiet shown'
    exact ⟨view'', shown'', same.trans same'⟩

/-- The current epoch is the last one that was confirmed on-chain. -/
lemma run_selected_eq (ran : s.run rs = .ok (answers, s')) :
    s'.service.tracker.selected
      = (Request.confirmedEpochs rs).getLast?.or s.service.tracker.selected := by
  induction rs generalizing s answers with
  | nil =>
    cases ran
    rfl
  | cons r rs ih =>
    obtain ⟨_, _, next, rest, served, further, rfl⟩ := run_cons_eq_ok ran
    rw [← List.singleton_append, Request.confirmedEpochs_append, List.getLast?_append, ih further,
      served.selected_eq, Option.or_assoc]

/-- Requests in a row are answered one stretch after the other. -/
lemma run_append {s'' : Session State} {rs' : List Request}
    {answers' : List (Answer × List (Nat × UInt64))} (ran : s.run rs = .ok (answers, s'))
    (ran' : s'.run rs' = .ok (answers', s'')) :
    s.run (rs ++ rs') = .ok (answers ++ answers', s'') := by
  induction rs generalizing s answers with
  | nil =>
    cases ran
    exact ran'
  | cons r rs ih =>
    obtain ⟨answer, woken, next, rest, stepped, further, rfl⟩ := run_cons_eq_ok_iff.1 ran
    exact run_cons_eq_ok_iff.2 ⟨answer, woken, next, _, stepped, ih further, rfl⟩

section
variable {config : Config} {id : ChannelId} {rules : GameRules State} {recover : SignatureScheme}
variable {service : Service State}

/-- The version of a new service is the number of changes, if they are few enough to be counted. -/
lemma toNat_version (new : Service.new config id rules recover = .ok service)
    (ran : Session.run { service } rs = .ok (answers, s)) (few : changes answers < UInt64.size) :
    s.service.version.toNat = changes answers := by
  have zero := (Service.tracks_new new).1
  rw [run_version ran, zero, UInt64.zero_add, UInt64.toNat_ofNat_of_lt' few]

/-- At any point of a session with a new service there is a snapshot, which shows the last epoch
that was confirmed on-chain with no more turns confirmed than played. -/
lemma exists_snapshot (faithful : rules.KeepsMetadata)
    (new : Service.new config id rules recover = .ok service)
    (ran : Session.run { service } rs = .ok (answers, s)) :
    ∃ view, s.service.snapshot = .ok view ∧
      s.service.tracker.Shows id rules (Request.confirmedEpochs rs).getLast? view.toJson ∧
      (Request.confirmedEpochs rs ≠ [] → ∃ n m,
        view.toJson.at? ["onchainturncount"] = some (.ofNat n) ∧
        view.toJson.at? ["state", "turncount"] = some (.ofNat m) ∧ n ≤ m) := by
  obtain ⟨_, tracks, none⟩ := Service.tracks_new new
  have selected : s.service.tracker.selected = (Request.confirmedEpochs rs).getLast? := by
    rw [run_selected_eq ran, none, Option.or_none]
  obtain ⟨view, shown, shows, bounded⟩ := (run_tracks ran tracks).exists_snapshot faithful
  rw [selected] at shows
  rw [selected, ne_eq, List.getLast?_eq_none_iff] at bounded
  exact ⟨view, shown, shows, bounded⟩

/-- From a new service on, the version is the number of answers that reported a change, and a
snapshot can be taken at any point. Its JSON shows what is known about the last epoch that was
confirmed on-chain, with no more turns confirmed than played. Under the same version a later
snapshot shows the same, with at least as many turns confirmed. -/
theorem version_tracks_snapshot {before between : List Request}
    {answers answers' : List (Answer × List (Nat × UInt64))} (faithful : rules.KeepsMetadata)
    (new : Service.new config id rules recover = .ok service)
    (ran : Session.run { service } before = .ok (answers, s))
    (ran' : s.run between = .ok (answers', s'))
    (few : (before ++ between).countP Request.isUpdate < UInt64.size) :
    s.service.version.toNat = changes answers ∧
    s'.service.version.toNat = changes answers + changes answers' ∧
    ∃ view view', s.service.snapshot = .ok view ∧ s'.service.snapshot = .ok view' ∧
      s.service.tracker.Shows id rules (Request.confirmedEpochs before).getLast? view.toJson ∧
      s'.service.tracker.Shows id rules (Request.confirmedEpochs (before ++ between)).getLast?
        view'.toJson ∧
      (Request.confirmedEpochs (before ++ between) ≠ [] → ∃ n m,
        view'.toJson.at? ["onchainturncount"] = some (.ofNat n) ∧
        view'.toJson.at? ["state", "turncount"] = some (.ofNat m) ∧ n ≤ m) ∧
      (s'.service.version = s.service.version →
        view.SameButConfirmed view' ∧
        Json.SameBut "onchainturncount" view.toJson view'.toJson ∧
        ∀ n, view.toJson.at? ["onchainturncount"] = some (.ofNat n) →
          ∃ m, view'.toJson.at? ["onchainturncount"] = some (.ofNat m) ∧ n ≤ m) := by
  obtain ⟨_, tracks, _⟩ := Service.tracks_new new
  -- Both points are looked at from the new service on, where the counts start.
  have whole := run_append ran ran'
  have few := Nat.lt_of_le_of_lt (changes_le whole) few
  have count' := toNat_version new whole few
  rw [changes, List.countP_append] at few count'
  have count := toNat_version new ran (Nat.lt_of_le_of_lt (Nat.le_add_right ..) few)
  obtain ⟨view, shown, shows, _⟩ := exists_snapshot faithful new ran
  obtain ⟨view', shown', shows', bounded⟩ := exists_snapshot faithful new whole
  refine ⟨count, count', view, view', shown, shown', shows, shows', bounded, fun same => ?_⟩
  -- The same version means that none of the answers between the two points reported a change.
  have quiet : changes answers' = 0 := by
    rw [same, count] at count'
    exact Nat.add_eq_left.1 count'.symm
  obtain ⟨_, shown'', kept⟩ := run_snapshot ran' (run_tracks ran tracks) faithful quiet shown
  cases shown'.symm.trans shown''
  exact ⟨kept, kept.toJson, fun _ => kept.confirmed_le⟩

end

end Session
end

namespace AdditionGame

/-- The service that the players start with. -/
def emptyHall : Service State where
  config := { gameId := "add", queueCapacity := 1 }
  channel := hall {}
  tracker := emptyTable

/-- Their session after the first move. -/
def playedSession : Session State where
  service := { emptyHall with tracker := played, version := 2 }

/-- The session after the opening and the first move has counted two changes. -/
lemma playedSession_run :
    Session.run { service := emptyHall }
        [.update (.onChain opened), .update (.offChain seating.epoch (firstMove {} (encode 11 1)))]
      = .ok ([(.update (.ok true), []), (.update (.ok true), [])], playedSession) := by
  have first : emptyHall.tracker.apply emptyHall.channel (.onChain opened)
      = .ok (true, openTable {}) :=
    openTable_confirmed
  let founded := emptyHall.settle true (openTable {})
  have second : founded.tracker.apply founded.channel
      (.offChain seating.epoch (firstMove {} (encode 11 1))) = .ok (true, played) :=
    played_received
  rw [Session.run_update (s := { service := emptyHall }) rfl first,
    Session.run_update (s := { service := founded }) rfl second, Session.run_nil]
  rfl

end AdditionGame

open AdditionGame in
/-- So it is after the first move of an addition game, where confirming once more what the players
started from reports no change. -/
theorem Session.version_tracks_snapshot_firstMove :
    (HouseRules.rules {}).KeepsMetadata ∧
      Service.new emptyHall.config (hall {}).id (HouseRules.rules {}) DigestScheme.recover
        = .ok emptyHall ∧
      Session.run { service := emptyHall }
          [.update (.onChain opened),
            .update (.offChain seating.epoch (firstMove {} (encode 11 1)))]
        = .ok ([(.update (.ok true), []), (.update (.ok true), [])], playedSession) ∧
      ∃ s : Session AdditionGame.State,
        playedSession.run [.update (.onChain opened)] = .ok ([(.update (.ok false), [])], s) ∧
        playedSession.service.version.toNat = 2 ∧ s.service.version.toNat = 2 ∧
        ∃ view view', playedSession.service.snapshot = .ok view ∧
          s.service.snapshot = .ok view' ∧
          playedSession.service.tracker.Shows (hall {}).id (HouseRules.rules {})
            (some seating.epoch) view.toJson ∧
          s.service.tracker.Shows (hall {}).id (HouseRules.rules {}) (some seating.epoch)
            view'.toJson ∧
          (∃ n m, view'.toJson.at? ["onchainturncount"] = some (.ofNat n) ∧
            view'.toJson.at? ["state", "turncount"] = some (.ofNat m) ∧ n ≤ m) ∧
          view.SameButConfirmed view' ∧
          Json.SameBut "onchainturncount" view.toJson view'.toJson := by
  have faithful : (HouseRules.rules {}).KeepsMetadata := HouseRules.keepsMetadata rfl
  have again : playedSession.run [.update (.onChain opened)]
      = .ok ([(.update (.ok false), [])], _) :=
    Session.run_update (x := .onChain opened) rfl reconfirmed_confirmed
  have new : Service.new emptyHall.config (hall {}).id (HouseRules.rules {}) DigestScheme.recover
      = .ok emptyHall :=
    rfl
  obtain ⟨count, count', view, view', shown, shown', shows, shows', bounded, same⟩ :=
    Session.version_tracks_snapshot faithful new playedSession_run again (by decide)
  obtain ⟨kept, json, _⟩ := same rfl
  exact ⟨faithful, new, playedSession_run, _, again, count, count', view, view', shown, shown',
    shows, shows', bounded nofun, kept, json⟩

end StateChannel
