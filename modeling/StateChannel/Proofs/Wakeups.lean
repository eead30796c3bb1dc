import Mathlib.Data.List.Basic
import StateChannel.Proofs.Waiting
import StateChannel.Service.Subscriptions

/-!
# Whoever waits is woken by the next change

A request that is not answered at once waits for the first change after it, and is woken by that
one only. It makes no difference that a subscriber looks at the version only when another one was
published: when nothing was published, the version is still the one that it knows
(`run_subscribed`).
-/

namespace StateChannel

namespace Subscriptions

variable {State : Type} {s : Subscriptions State}

/-- If all subscribers have something to return, all of them are woken. -/
lemma wake_of_done (version : Subscriber → UInt64)
    (done : ∀ w ∈ s.subscribers, s.poll w = .inl (version w)) :
    s.wake = (s.subscribers.map fun w => (w.ticket, version w), { s with subscribers := [] }) := by
  have told : s.subscribers.filterMap (fun w => (s.poll w).getLeft?.map (w.ticket, ·))
      = s.subscribers.map fun w => (w.ticket, version w) := by
    rw [List.filterMap_eq_map_iff_forall_eq_some]
    intro w mem
    rw [done w mem]
    rfl
  have left : s.subscribers.filterMap (fun w => (s.poll w).getRight?) = [] := by
    rw [List.filterMap_eq_nil_iff]
    intro w mem
    rw [done w mem]
    rfl
  rw [wake, told, left]

/-- If no subscriber has anything to return, none is woken. -/
lemma wake_of_idle (idle : ∀ w ∈ s.subscribers, s.poll w = .inr w) : s.wake = ([], s) := by
  have told : s.subscribers.filterMap (fun w => (s.poll w).getLeft?.map (w.ticket, ·)) = [] := by
    rw [List.filterMap_eq_nil_iff]
    intro w mem
    rw [idle w mem]
    rfl
  have left : s.subscribers.filterMap (fun w => (s.poll w).getRight?) = s.subscribers.map id := by
    rw [List.filterMap_eq_map_iff_forall_eq_some]
    intro w mem
    rw [idle w mem]
    rfl
  rw [wake, told, left, List.map_id]

end Subscriptions

namespace Session

variable {State : Type} {s s' : Session State} {service : Service State} {r : Request}
variable {rs : List Request} {answer : Answer} {woken : List (Nat × UInt64)} {n : Nat}
variable {answers : List (Answer × List (Nat × UInt64))}

/-- A session in which everyone who waits has subscribed, and has seen as many versions as were
published. -/
def subscribed (s : Session State) (n : Nat) : Subscriptions State where
  service := s.service
  published := n
  subscribers := s.waiting.map fun w => { w with seen := n }
  tickets := s.tickets

/-- Whoever has seen all published versions is woken by an answer that publishes another one. -/
lemma wake_publish (h : s.UpToDate) (served : s.service.Served r answer service) :
    ((s.subscribed n).publish answer.changed service).wake =
      ((Session.wake { s with service }).1,
        (Session.wake { s with service }).2.subscribed (n + if answer.changed then 1 else 0)) := by
  have version := served.version_eq
  rw [wake_served h served]
  cases changed : answer.changed with
  | true =>
    rw [if_pos changed] at version
    rw [if_pos rfl, Subscriptions.wake_of_done fun w => w.known + 1]
    · simp [Subscriptions.publish, subscribed]
    · intro _ mem
      obtain ⟨w, waits, rfl⟩ := List.mem_map.1 mem
      simp [Subscriptions.poll, Subscriptions.look, Subscriptions.publish, subscribed,
        Service.changedFrom?, version, h w waits]
  | false =>
    rw [if_neg Bool.false_ne_true, Subscriptions.wake_of_idle]
    · simp [Subscriptions.publish, subscribed]
    · intro _ mem
      obtain ⟨w, _, rfl⟩ := List.mem_map.1 mem
      simp [Subscriptions.poll, Subscriptions.publish, subscribed]

/-- Subscribers leave the answer to a request as it is, and are told if it reports a change. -/
lemma answer_subscribed (unticketed : answer.ticket? = none)
    (done : s.answer r = .ok (answer, s')) :
    (s.subscribed n).answer r =
      .ok (answer, (s.subscribed n).publish answer.changed s'.service) := by
  cases r with
  | update x =>
    obtain ⟨⟨changed, service⟩, applied, eq⟩ := Violation.bind_eq_ok_iff.1 done
    cases eq
    simp only [Subscriptions.answer, subscribed, applied]
    rfl
  | encoded e b =>
    obtain ⟨⟨result, service⟩, applied, eq⟩ := Violation.bind_eq_ok_iff.1 done
    cases eq
    simp only [Subscriptions.answer, subscribed, applied]
    cases result <;> rfl
  | snapshot =>
    cases done
    rfl
  | wait known =>
    cases done
    cases unticketed

/-- Nobody who has seen all published versions is woken. -/
lemma wake_subscribed : (s.subscribed n).wake = ([], s.subscribed n) := by
  apply Subscriptions.wake_of_idle
  intro _ mem
  obtain ⟨w, _, rfl⟩ := List.mem_map.1 mem
  simp [Subscriptions.poll, subscribed]

/-- If an answer publishes nothing, nobody is woken after it. -/
lemma step_of_answer_subscribed
    (done : (s.subscribed n).answer r = .ok (answer, s'.subscribed n)) :
    (s.subscribed n).step r = .ok (answer, [], s'.subscribed n) := by
  simp only [Subscriptions.step, done, Violation.ok_bind, wake_subscribed]
  rfl

/-- A step with subscribers gives the same answer and wakes the same ones. -/
lemma step_subscribed (h : s.UpToDate) (stepped : s.step r = .ok (answer, woken, s')) :
    (s.subscribed n).step r =
      .ok (answer, woken, s'.subscribed (n + if answer.changed then 1 else 0)) := by
  obtain ⟨answered, done, awake⟩ := step_eq_ok_iff.1 stepped
  rcases answer_eq_ok done with ⟨unticketed, service, rfl⟩ | ⟨known, rfl⟩
  · have served := served_of_answer done
    have published := answer_subscribed (n := n) unticketed done
    simp only [Subscriptions.step, published, Violation.ok_bind, wake_publish h served, awake]
    rfl
  · rw [step_wait h] at stepped
    split at stepped
    next current =>
      cases stepped
      apply step_of_answer_subscribed
      simp [Subscriptions.answer, Subscriptions.look, subscribed, Service.changedFrom?, current]
    next behind =>
      cases stepped
      apply step_of_answer_subscribed
      simp [Subscriptions.answer, Subscriptions.look, subscribed, Service.changedFrom?, behind]

/-- Subscribers get the same answers, and are woken by the same ones. -/
lemma run_subscribed (h : s.UpToDate) (ran : s.run rs = .ok (answers, s')) :
    (s.subscribed n).run rs = .ok (answers, s'.subscribed (n + changes answers)) := by
  induction rs generalizing s answers n with
  | nil =>
    cases ran
    rfl
  | cons r rs ih =>
    obtain ⟨answer, woken, next, rest, stepped, further, rfl⟩ := run_cons_eq_ok_iff.1 ran
    have later {n} := ih (n := n) ((proceeds_of_step h stepped).upToDate h) further
    rw [Subscriptions.run, step_subscribed h stepped, Violation.ok_bind]
    simp only [later, Violation.ok_bind]
    rw [changes_cons, Nat.add_comm (changes rest), ← Nat.add_assoc]
    rfl

/-- The last answer counts if it reports a change. -/
lemma changes_concat :
    changes (answers ++ [(answer, woken)]) = changes answers + if answer.changed then 1 else 0 := by
  simp [changes, List.countP_append, List.countP_singleton]

/-- Every request is answered. -/
lemma length_answers (ran : s.run rs = .ok (answers, s')) : answers.length = rs.length := by
  induction rs generalizing s answers with
  | nil =>
    cases ran
    rfl
  | cons r rs ih =>
    obtain ⟨_, _, next, rest, _, further, rfl⟩ := run_cons_eq_ok_iff.1 ran
    rw [List.length_cons, List.length_cons, ih further]

/-- In a session with a new service, a request that waits is answered at once if there is another
version than it knows. Otherwise it waits, knowing the current version, for the first change after
it, which wakes it with the next version, once. For subscribers it is the same session. -/
theorem change_wakes_waiting {config : Config} {id : ChannelId} {rules : GameRules State}
    {recover : SignatureScheme}
    (new : Service.new config id rules recover = .ok service)
    (ran : Session.run { service } rs = .ok (answers, s)) :
    Subscriptions.run { service } rs = .ok (answers, s.subscribed (changes answers)) ∧
    (∀ w, w ∈ s.waiting ↔ Pending (rs.zip answers) w.ticket w.known) ∧
    (∀ w ∈ s.waiting, w.known = s.service.version) ∧
    answers.filterMap (·.1.ticket?) = .range s.tickets ∧
    ((answers.flatMap (·.2)).map (·.1) ++ s.waiting.map (·.ticket)).Nodup ∧
    (∀ known, ∃ s', s.step (.wait known) = .ok (.wait s.tickets
      (if s.service.version = known then none else some s.service.version), [], s')) ∧
    ∀ r answer woken s', s.step r = .ok (answer, woken, s') →
      changes (answers ++ [(answer, woken)]) < UInt64.size →
      ∀ k v, (k, v) ∈ woken ↔ answer.changed ∧
        ∃ known, Pending (rs.zip answers) k known ∧ v.toNat = known.toNat + 1 := by
  have awaits := (awaits_nil service).run ran
  rw [List.nil_append] at awaits
  have answered : (rs.zip answers).map (·.2) = answers :=
    List.map_snd_zip (Nat.le_of_eq (length_answers ran))
  refine ⟨?_, awaits.mem_iff, awaits.upToDate, ?_, ?_, ?_, ?_⟩
  · have same := run_subscribed (n := 0) (s := { service }) nofun ran
    rwa [Nat.zero_add] at same
  · rw [← answered, List.filterMap_map]
    exact awaits.numbered
  · rw [← answered, List.flatMap_map]
    exact awaits.ordered.nodup List.nodup_range
  · intro known
    rw [step_wait awaits.upToDate]
    split
    next => exact ⟨_, rfl⟩
    next => exact ⟨_, rfl⟩
  · intro r answer woken s' stepped few k v
    rw [awaits.mem_woken_iff (proceeds_of_step awaits.upToDate stepped)]
    refine and_congr_right fun changed => exists_congr fun known =>
      and_congr_right fun pending => ?_
    have current : known = s.service.version :=
      awaits.upToDate { ticket := k, known } ((awaits.mem_iff _).2 pending)
    -- With so few changes the counter does not wrap around.
    have room : known.toNat + 1 < UInt64.size := by
      rw [changes_concat, if_pos changed] at few
      rw [current, toNat_version new ran (by omega)]
      exact few
    have next : (known + 1).toNat = known.toNat + 1 := by
      rw [UInt64.toNat_add]
      exact Nat.mod_eq_of_lt room
    rw [← UInt64.toNat_inj, next]

end Session

namespace AdditionGame

/-- The session of the players before the first move, which one of them waits for. -/
def awaitedSession : Session State where
  service := emptyHall.settle true (openTable {})
  waiting := [{ ticket := 0, known := 1 }]
  tickets := 2

/-- After the opening one request waits, and another one is answered at once. -/
lemma awaitedSession_run :
    Session.run { service := emptyHall } [.update (.onChain opened), .wait 1, .wait 0]
      = .ok ([(.update (.ok true), []), (.wait 0 none, []), (.wait 1 (some 1), [])],
          awaitedSession) := by
  have first : emptyHall.tracker.apply emptyHall.channel (.onChain opened)
      = .ok (true, openTable {}) :=
    openTable_confirmed
  rw [Session.run_update (s := { service := emptyHall }) rfl first]
  rfl

/-- The first move wakes the request that waits. -/
lemma awaitedSession_step :
    awaitedSession.step (.update (.offChain seating.epoch (firstMove {} (encode 11 1))))
      = .ok (.update (.ok true), [(0, 2)],
          { service := awaitedSession.service.settle true played, tickets := 2 }) := by
  have second : awaitedSession.service.tracker.apply awaitedSession.service.channel
      (.offChain seating.epoch (firstMove {} (encode 11 1))) = .ok (true, played) :=
    played_received
  have applied := Service.apply_eq_ok_iff.2 ⟨played, second, rfl⟩
  refine Session.step_eq_ok_iff.2 ⟨{ awaitedSession with
    service := awaitedSession.service.settle true played }, ?_, rfl⟩
  simp only [Session.answer, applied]
  rfl

end AdditionGame

open AdditionGame in
/-- So the first move of an addition game wakes who waits for it, and not who was answered at once.
-/
theorem Session.change_wakes_waiting_firstMove :
    Service.new emptyHall.config (hall {}).id (HouseRules.rules {}) DigestScheme.recover
        = .ok emptyHall ∧
      Session.run { service := emptyHall } [.update (.onChain opened), .wait 1, .wait 0]
        = .ok ([(.update (.ok true), []), (.wait 0 none, []), (.wait 1 (some 1), [])],
            awaitedSession) ∧
      awaitedSession.service.version = 1 ∧
      ∃ s : Session AdditionGame.State,
        awaitedSession.step (.update (.offChain seating.epoch (firstMove {} (encode 11 1))))
          = .ok (.update (.ok true), [(0, 2)], s) ∧
        ∀ k v, (k, v) ∈ [(0, (2 : UInt64))] ↔ (Answer.update (.ok true)).changed ∧
          ∃ known, Pending [(.update (.onChain opened), .update (.ok true), []),
            (.wait 1, .wait 0 none, []), (.wait 0, .wait 1 (some 1), [])] k known ∧
              v.toNat = known.toNat + 1 := by
  have new : Service.new emptyHall.config (hall {}).id (HouseRules.rules {}) DigestScheme.recover
      = .ok emptyHall :=
    rfl
  obtain ⟨_, _, current, _, _, _, wakes⟩ := Session.change_wakes_waiting new awaitedSession_run
  have known := current { ticket := 0, known := 1 } (List.mem_singleton.2 rfl)
  exact ⟨new, awaitedSession_run, known.symm, _, awaitedSession_step,
    wakes _ _ _ _ awaitedSession_step (by decide)⟩

end StateChannel
