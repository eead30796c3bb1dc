import Mathlib.Tactic.Lemma
import StateChannel.Service.Session
import StateChannel.Tracker.Reachable

/-!
# What a request does to a service

`Served` says how a service answers a request and what becomes of it, one case for each way through
a request. The service of a session goes from one such step to the next (`run_cons_eq_ok`); the
requests that wait do not change it. A service stays with its channel, and its tracker stays
reachable (`Tracks`).
-/

namespace StateChannel

variable {State : Type}

/-- How a service answers a request, and what becomes of the service. -/
inductive Service.Served (s : Service State) : Request → Answer → Service State → Prop where
  | update {x changed tracker} :
    s.tracker.apply s.channel x = .ok (changed, tracker) →
    Served s (.update x) (.update (.ok changed)) (s.settle changed tracker)
  | decoded {e b p changed tracker} :
    StateProof.decode s.config.maxProofBytes b = .ok p →
    s.tracker.apply s.channel (.offChain e p) = .ok (changed, tracker) →
    Served s (.encoded e b) (.update (.ok changed)) (s.settle changed tracker)
  | undecodable {e b cause} :
    StateProof.decode s.config.maxProofBytes b = .error cause →
    Served s (.encoded e b) (.update (.error (.undecodable cause.message))) s
  | snapshot :
    Served s .snapshot (.snapshot s.snapshot) s
  | wait {known ticket} :
    Served s (.wait known) (.wait ticket (s.changedFrom? known)) s

/-- A service is the one of a given channel, with a reachable tracker. -/
structure Service.Tracks (ch : Channel State) (capacity : Nat) (s : Service State) : Prop where
  channel : s.channel = ch
  reachable : s.tracker.Reachable ch capacity

namespace Service

variable {s s' : Service State} {r : Request} {answer : Answer} {ch : Channel State}
variable {capacity : Nat}

/-- A service processes an update exactly if its tracker does, and settles the outcome. -/
lemma apply_eq_ok_iff {x : Update} {changed : Bool} :
    s.apply x = .ok (changed, s') ↔
      ∃ tracker, s.tracker.apply s.channel x = .ok (changed, tracker) ∧
        s' = s.settle changed tracker := by
  simp only [Service.apply, Violation.bind_eq_ok_iff, Prod.exists]
  constructor
  · rintro ⟨_, tracker, applied, eq⟩
    cases eq
    exact ⟨tracker, applied, rfl⟩
  · rintro ⟨tracker, applied, rfl⟩
    exact ⟨_, tracker, applied, rfl⟩

/-- An encoded proof is served, whether it decodes or not. -/
lemma served_of_applyEncoded {e : EpochId} {b : Bytes} {result : Except Rejection Bool}
    (h : s.applyEncoded e b = .ok (result, s')) : s.Served (.encoded e b) (.update result) s' := by
  cases decoded : StateProof.decode s.config.maxProofBytes b with
  | error cause =>
    simp only [applyEncoded, decoded] at h
    cases h
    exact .undecodable decoded
  | ok p =>
    simp only [applyEncoded, decoded] at h
    obtain ⟨⟨changed, service⟩, done, eq⟩ := Violation.bind_eq_ok_iff.1 h
    obtain ⟨tracker, applied, rfl⟩ := apply_eq_ok_iff.1 done
    cases eq
    exact .decoded decoded applied

/-- A new service tracks its channel from version zero on, without a current epoch. -/
lemma tracks_new {config : Config} {id : ChannelId} {rules : GameRules State}
    {recover : SignatureScheme} (new : Service.new config id rules recover = .ok s) :
    s.version = 0 ∧
      s.Tracks { id, game := config.gameId, rules, recover } config.queueCapacity.toNat ∧
      s.tracker.selected = none := by
  obtain ⟨t, made, eq⟩ := Violation.bind_eq_ok_iff.1 new
  cases eq
  refine ⟨rfl, ⟨rfl, .new made⟩, ?_⟩
  obtain ⟨_, _, eq⟩ := Violation.bind_eq_ok_iff.1 made
  cases eq
  rfl

/-- A service that settles an update still tracks its channel. -/
lemma Tracks.settle (h : s.Tracks ch capacity) {x : Update} {changed : Bool}
    {tracker : Tracker State} (applied : s.tracker.apply s.channel x = .ok (changed, tracker)) :
    (s.settle changed tracker).Tracks ch capacity := by
  obtain ⟨rfl, reachable⟩ := h
  exact ⟨rfl, reachable.apply applied⟩

/-- A service that has served a request still tracks its channel. -/
lemma Served.tracks (h : s.Served r answer s') (tracks : s.Tracks ch capacity) :
    s'.Tracks ch capacity := by
  cases h with
  | update applied => exact tracks.settle applied
  | decoded _ applied => exact tracks.settle applied
  | undecodable | snapshot | wait => exact tracks

end Service

namespace Session

variable {s s' next : Session State} {r : Request} {rs : List Request} {ch : Channel State}
variable {answers : List (Answer × List (Nat × UInt64))} {capacity : Nat}

/-- A session has its requests served by its service. -/
lemma served_of_answer {answer : Answer} (h : s.answer r = .ok (answer, s')) :
    s.service.Served r answer s'.service := by
  cases r with
  | update x =>
    obtain ⟨⟨changed, service⟩, done, eq⟩ := Violation.bind_eq_ok_iff.1 h
    obtain ⟨tracker, applied, rfl⟩ := Service.apply_eq_ok_iff.1 done
    cases eq
    exact .update applied
  | encoded e b =>
    obtain ⟨⟨result, service⟩, done, eq⟩ := Violation.bind_eq_ok_iff.1 h
    cases eq
    exact Service.served_of_applyEncoded done
  | snapshot =>
    cases h
    exact .snapshot
  | wait known =>
    cases h
    exact .wait

/-- Without requests, a session stays as it is. -/
@[simp] lemma run_nil : s.run [] = .ok ([], s) :=
  rfl

/-- A session takes a step by answering a request and then those who wait. -/
lemma step_eq_ok_iff {answer : Answer} {woken : List (Nat × UInt64)} :
    s.step r = .ok (answer, woken, s') ↔
      ∃ answered, s.answer r = .ok (answer, answered) ∧ answered.wake = (woken, s') := by
  simp only [step, Violation.bind_eq_ok_iff, Violation.pure_eq_ok, Prod.exists, Except.ok.injEq,
    Prod.mk.injEq]
  constructor
  · rintro ⟨_, answered, done, rfl, awake⟩
    exact ⟨answered, done, awake⟩
  · rintro ⟨answered, done, awake⟩
    exact ⟨_, answered, done, rfl, awake⟩

/-- A session is run by taking a step and going on from there. -/
lemma run_cons_eq_ok_iff :
    s.run (r :: rs) = .ok (answers, s') ↔
      ∃ answer woken next rest, s.step r = .ok (answer, woken, next) ∧
        next.run rs = .ok (rest, s') ∧ answers = (answer, woken) :: rest := by
  simp only [Session.run, Violation.bind_eq_ok_iff, Violation.pure_eq_ok, Prod.exists]
  constructor
  · rintro ⟨answer, woken, next, stepped, rest, last, ran, eq⟩
    cases eq
    exact ⟨answer, woken, next, rest, stepped, ran, rfl⟩
  · rintro ⟨answer, woken, next, rest, stepped, ran, rfl⟩
    exact ⟨answer, woken, next, stepped, rest, s', ran, rfl⟩

/-- A session that is run on a request serves it, answers the waiting requests that it can, and goes
on with the others. -/
lemma run_cons_eq_ok (h : s.run (r :: rs) = .ok (answers, s')) :
    ∃ answer woken, ∃ next : Session State, ∃ rest, s.service.Served r answer next.service ∧
      next.run rs = .ok (rest, s') ∧ answers = (answer, woken) :: rest := by
  obtain ⟨answer, woken, next, rest, stepped, ran, eq⟩ := run_cons_eq_ok_iff.1 h
  obtain ⟨answered, done, awake⟩ := step_eq_ok_iff.1 stepped
  have served := served_of_answer done
  cases awake
  exact ⟨answer, _, answered.wake.2, rest, served, ran, eq⟩

/-- A session without waiting requests that is run on an update goes on after it. -/
lemma run_update {x : Update} {changed : Bool} {tracker : Tracker State} (idle : s.waiting = [])
    (applied : s.service.tracker.apply s.service.channel x = .ok (changed, tracker)) :
    s.run (.update x :: rs) =
      (Session.run { s with service := s.service.settle changed tracker } rs).map fun r =>
        ((.update (.ok changed), []) :: r.1, r.2) := by
  simp only [Session.run, step, Session.answer, Service.apply, applied, wake, idle,
    Violation.ok_bind, Violation.pure_eq_ok]
  cases Session.run { s with service := s.service.settle changed tracker } rs <;> rfl

/-- The service of a session tracks its channel throughout. -/
lemma run_tracks (ran : s.run rs = .ok (answers, s')) (h : s.service.Tracks ch capacity) :
    s'.service.Tracks ch capacity := by
  induction rs generalizing s answers with
  | nil =>
    cases ran
    exact h
  | cons r rs ih =>
    obtain ⟨_, _, next, rest, served, ran, _⟩ := run_cons_eq_ok ran
    exact ih ran (served.tracks h)

end Session
end StateChannel
