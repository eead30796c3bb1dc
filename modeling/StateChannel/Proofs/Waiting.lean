import StateChannel.Proofs.VersionedSnapshots

/-!
# Who waits in a session

In a session everyone who waits knows the current version (`UpToDate`). So a step wakes nobody, or,
if its answer reports a change, everyone (`Proceeds`). From this follows, over a whole session, who
waits at its end (`Awaits`): those whose request was not answered and who saw no change since.
-/

namespace StateChannel

/-- The ticket that an answer gives to a request that waits. -/
def Answer.ticket? : Answer → Option Nat
  | .wait ticket _ => some ticket
  | .update _ | .snapshot _ => none

/-- A request that waits is given its ticket. -/
@[simp] lemma Answer.ticket?_wait {k : Nat} {version : Option UInt64} :
    (Answer.wait k version).ticket? = some k :=
  rfl

/-- Waiting changes nothing. -/
@[simp] lemma Answer.changed_wait {k : Nat} {version : Option UInt64} :
    (Answer.wait k version).changed = false :=
  rfl

/-- No request that changes something waits. -/
lemma Answer.ticket?_of_changed {answer : Answer} (h : answer.changed) : answer.ticket? = none := by
  cases answer with
  | update | snapshot => rfl
  | wait => cases h

namespace Session

section
variable {State : Type}

/-- Everyone who waits knows the current version. -/
def UpToDate (s : Session State) : Prop :=
  ∀ w ∈ s.waiting, w.known = s.service.version

/-- How a session in which everyone who waits is up to date goes on after a request. -/
inductive Proceeds (s : Session State) :
    Request → Answer → List (Nat × UInt64) → Session State → Prop where
  | changed {r answer service} :
    s.service.Served r answer service → answer.changed →
    Proceeds s r answer (s.waiting.map fun w => (w.ticket, w.known + 1))
      { s with service, waiting := [] }
  | unchanged {r answer service} :
    s.service.Served r answer service → answer.changed = false → answer.ticket? = none →
    Proceeds s r answer [] { s with service }
  | waits {known} :
    s.service.version = known →
    Proceeds s (.wait known) (.wait s.tickets none) []
      { s with waiting := s.waiting ++ [{ ticket := s.tickets, known }], tickets := s.tickets + 1 }
  | answered {known} :
    s.service.version ≠ known →
    Proceeds s (.wait known) (.wait s.tickets (some s.service.version)) []
      { s with tickets := s.tickets + 1 }

end

variable {State : Type} {s s' : Session State} {service : Service State} {r : Request}
variable {rs : List Request} {answer : Answer} {woken : List (Nat × UInt64)}
variable {answers : List (Answer × List (Nat × UInt64))} {k : Nat} {known : UInt64}
variable {log : List (Request × Answer × List (Nat × UInt64))}

/-- Nobody is woken who knows the current version. -/
lemma wake_of_upToDate (h : s.UpToDate) : s.wake = ([], s) := by
  have pending : ∀ w ∈ s.waiting, (s.service.changedFrom? w.known).isNone := by
    intro w mem
    simp [Service.changedFrom?, h w mem]
  have woken : s.waiting.filter (fun w => !(s.service.changedFrom? w.known).isNone) = [] := by
    rw [List.filter_eq_nil_iff]
    intro w mem
    simp [pending w mem]
  simp only [wake, List.partition_eq_filter_filter, Function.comp_def,
    List.filter_eq_self.2 pending, woken, List.map_nil]

/-- Everyone is woken who knows another version. -/
lemma wake_of_behind (behind : ∀ w ∈ s.waiting, s.service.version ≠ w.known) :
    s.wake = (s.waiting.map fun w => (w.ticket, s.service.version), { s with waiting := [] }) := by
  have woken : ∀ w ∈ s.waiting, !(s.service.changedFrom? w.known).isNone := by
    intro w mem
    simp [Service.changedFrom?, behind w mem]
  have pending : s.waiting.filter (fun w => (s.service.changedFrom? w.known).isNone) = [] := by
    rw [List.filter_eq_nil_iff]
    intro w mem
    simpa [Option.isSome_iff_ne_none] using woken w mem
  simp only [wake, List.partition_eq_filter_filter, Function.comp_def,
    List.filter_eq_self.2 woken, pending]

/-- After an answer nobody is woken, or, if it reports a change, everyone. -/
lemma wake_served (h : s.UpToDate) (served : s.service.Served r answer service) :
    Session.wake { s with service } =
      if answer.changed then
        (s.waiting.map fun w => (w.ticket, w.known + 1), { s with service, waiting := [] })
      else ([], { s with service }) := by
  have version := served.version_eq
  split
  next changed =>
    rw [if_pos changed] at version
    have told : (s.waiting.map fun w => (w.ticket, service.version))
        = s.waiting.map fun w => (w.ticket, w.known + 1) := by
      refine List.map_congr_left fun w mem => ?_
      rw [version, h w mem]
    rw [← told]
    apply wake_of_behind
    intro w mem
    simp [version, h w mem]
  next quiet =>
    rw [if_neg quiet] at version
    exact wake_of_upToDate fun w mem => (h w mem).trans version.symm

/-- Answering a request changes nothing but the service, unless the request waits. -/
lemma answer_eq_ok (done : s.answer r = .ok (answer, s')) :
    answer.ticket? = none ∧ (∃ service, s' = { s with service }) ∨
      ∃ known, r = .wait known := by
  cases r with
  | update x =>
    obtain ⟨⟨changed, service⟩, _, eq⟩ := Violation.bind_eq_ok_iff.1 done
    cases eq
    exact .inl ⟨rfl, service, rfl⟩
  | encoded e b =>
    obtain ⟨⟨result, service⟩, _, eq⟩ := Violation.bind_eq_ok_iff.1 done
    cases eq
    exact .inl ⟨rfl, service, rfl⟩
  | snapshot =>
    cases done
    exact .inl ⟨rfl, s.service, rfl⟩
  | wait known => exact .inr ⟨known, rfl⟩

/-- Who starts to wait with the current version is up to date. -/
lemma UpToDate.wait (h : s.UpToDate) (current : s.service.version = known) :
    UpToDate { s with
      waiting := s.waiting ++ [{ ticket := s.tickets, known }]
      tickets := s.tickets + 1 } := by
  intro w mem
  rcases List.mem_append.1 mem with mem | mem
  · exact h w mem
  · cases List.mem_singleton.1 mem
    exact current.symm

/-- A request to wait is answered at once if its version is not the current one, and waits
otherwise. -/
lemma step_wait (h : s.UpToDate) (known : UInt64) :
    s.step (.wait known) = .ok (
      if s.service.version = known then
        (.wait s.tickets none, [],
          { s with
            waiting := s.waiting ++ [{ ticket := s.tickets, known }]
            tickets := s.tickets + 1 })
      else
        (.wait s.tickets (some s.service.version), [], { s with tickets := s.tickets + 1 })) := by
  split
  next current =>
    simp [step, Session.answer, Service.changedFrom?, current, wake_of_upToDate (h.wait current)]
  next behind =>
    have h : UpToDate { s with tickets := s.tickets + 1 } := h
    simp [step, Session.answer, Service.changedFrom?, behind, wake_of_upToDate h]

/-- Every step of a session in which everyone is up to date is one of those described. -/
lemma proceeds_of_step (h : s.UpToDate) (stepped : s.step r = .ok (answer, woken, s')) :
    s.Proceeds r answer woken s' := by
  obtain ⟨answered, done, awake⟩ := step_eq_ok_iff.1 stepped
  have served := served_of_answer done
  -- Only a request to wait changes more than the service.
  rcases answer_eq_ok done with ⟨unticketed, service, rfl⟩ | ⟨known, rfl⟩
  · rw [wake_served h served] at awake
    split at awake
    next changed =>
      cases awake
      exact .changed served changed
    next quiet =>
      cases awake
      exact .unchanged served (eq_false_of_ne_true quiet) unticketed
  · rw [step_wait h] at stepped
    split at stepped
    next current =>
      cases stepped
      exact .waits current
    next behind =>
      cases stepped
      exact .answered behind

/-- After every step, everyone who still waits is up to date. -/
lemma Proceeds.upToDate (h : s.UpToDate) (p : s.Proceeds r answer woken s') : s'.UpToDate := by
  cases p with
  | changed => exact nofun
  | unchanged served quiet =>
    have version := served.version_eq
    rw [quiet] at version
    exact fun w mem => (h w mem).trans version.symm
  | waits current => exact h.wait current
  | answered => exact h

/-- A request waits since it was asked: it was given a ticket only, and no answer after that one
reported a change. -/
def Pending (log : List (Request × Answer × List (Nat × UInt64))) (k : Nat) (known : UInt64) :
    Prop :=
  ∃ before woken after, log = before ++ (.wait known, .wait k none, woken) :: after ∧
    ∀ x ∈ after, x.2.1.changed = false

/-- Nobody waits before anything was asked. -/
lemma not_pending_nil : ¬ Pending [] k known := by
  rintro ⟨before, _, after, eq, _⟩
  exact List.append_ne_nil_of_right_ne_nil before (List.cons_ne_nil _ after) eq.symm

/-- Who waits after one more answer waited before and was not woken, or has just started to wait. -/
lemma pending_concat_iff :
    Pending (log ++ [(r, answer, woken)]) k known ↔
      Pending log k known ∧ answer.changed = false ∨ r = .wait known ∧ answer = .wait k none := by
  constructor
  · rintro ⟨before, woken', after, eq, quiet⟩
    -- The request that waits is the last one of the log, or it was in the log before.
    rcases List.eq_nil_or_concat after with rfl | ⟨after, last, rfl⟩
    · obtain ⟨_, eq⟩ := List.append_singleton_inj.1 eq
      cases eq
      exact .inr ⟨rfl, rfl⟩
    · rw [List.concat_eq_append] at eq quiet
      rw [← List.cons_append, ← List.append_assoc] at eq
      obtain ⟨rfl, rfl⟩ := List.append_singleton_inj.1 eq
      refine .inl ⟨⟨before, woken', after, rfl, fun x mem => ?_⟩, ?_⟩
      · exact quiet x (List.mem_append_left _ mem)
      · exact quiet (r, answer, woken) (List.mem_append_right _ (List.mem_singleton.2 rfl))
  · rintro (⟨⟨before, woken', after, rfl, quiet⟩, last⟩ | ⟨rfl, rfl⟩)
    · refine ⟨before, woken', after ++ [(r, answer, woken)], by simp, fun x mem => ?_⟩
      rcases List.mem_append.1 mem with mem | mem
      · exact quiet x mem
      · cases List.mem_singleton.1 mem
        exact last
    · exact ⟨log, woken, [], rfl, nofun⟩

/-- The tickets of those who were woken. -/
def wokenTickets (log : List (Request × Answer × List (Nat × UInt64))) : List Nat :=
  (log.flatMap (·.2.2)).map (·.1)

/-- Those woken by one more answer come last. -/
lemma wokenTickets_concat :
    wokenTickets (log ++ [(r, answer, woken)]) = wokenTickets log ++ woken.map (·.1) := by
  simp [wokenTickets]

/-- Who waits in a session after what it was asked and answered. -/
structure Awaits (log : List (Request × Answer × List (Nat × UInt64))) (s : Session State) :
    Prop where
  upToDate : s.UpToDate
  mem_iff : ∀ w, w ∈ s.waiting ↔ Pending log w.ticket w.known
  numbered : log.filterMap (·.2.1.ticket?) = .range s.tickets
  ordered : (wokenTickets log ++ s.waiting.map (·.ticket)).Sublist (.range s.tickets)

/-- Nobody waits in a new session. -/
lemma awaits_nil (service : Service State) : Awaits [] { service } where
  upToDate := nofun
  mem_iff _ := ⟨nofun, fun pending => (not_pending_nil pending).elim⟩
  numbered := rfl
  ordered := List.Sublist.refl []

/-- What is said about those who wait stays true over one more step. -/
lemma Awaits.proceeds (h : Awaits log s) (p : s.Proceeds r answer woken s') :
    Awaits (log ++ [(r, answer, woken)]) s' := by
  have upToDate := p.upToDate h.upToDate
  obtain ⟨_, mem_iff, numbered, ordered⟩ := h
  cases p with
  | changed served changed =>
    -- Nobody waits any longer, and nothing that was asked before a change is pending.
    refine ⟨upToDate, fun w => ⟨nofun, fun pending => ?_⟩, ?_, ?_⟩
    · rcases pending_concat_iff.1 pending with ⟨_, quiet⟩ | ⟨_, rfl⟩
      · rw [quiet] at changed
        cases changed
      · cases changed
    · have unticketed : answer.ticket? = none := Answer.ticket?_of_changed changed
      simp [List.filterMap_append, numbered, unticketed]
    · -- Those who are woken are those who waited.
      rw [wokenTickets_concat, List.map_nil, List.append_nil, List.map_map]
      exact ordered
  | unchanged served quiet unticketed =>
    refine ⟨upToDate, fun w => ?_, ?_, ?_⟩
    · rw [mem_iff, pending_concat_iff]
      constructor
      · exact fun pending => .inl ⟨pending, quiet⟩
      · rintro (⟨pending, _⟩ | ⟨_, rfl⟩)
        · exact pending
        · cases unticketed
    · simp [List.filterMap_append, numbered, unticketed]
    · rw [wokenTickets_concat, List.map_nil, List.append_nil]
      exact ordered
  | waits current =>
    refine ⟨upToDate, fun w => ?_, ?_, ?_⟩
    -- The request that was just asked is the only new one on either side.
    · rw [List.mem_append, mem_iff, List.mem_singleton, pending_concat_iff]
      refine or_congr (by simp) ?_
      constructor
      · rintro rfl
        exact ⟨rfl, rfl⟩
      · obtain ⟨ticket, known⟩ := w
        rintro ⟨⟨⟩, ⟨⟩⟩
        rfl
    · simp [List.filterMap_append, numbered, List.range_succ]
    · rw [wokenTickets_concat, List.map_nil, List.append_nil, List.map_append, ← List.append_assoc,
        List.range_succ]
      exact ordered.append (.refl _)
  | answered behind =>
    refine ⟨upToDate, fun w => ?_, ?_, ?_⟩
    · rw [mem_iff, pending_concat_iff]
      simp
    · simp [List.filterMap_append, numbered, List.range_succ]
    · rw [wokenTickets_concat, List.map_nil, List.append_nil, List.range_succ]
      exact ordered.trans (List.sublist_append_left ..)

/-- Whoever is woken waited until then, and gets the next version. -/
lemma Awaits.mem_woken_iff (h : Awaits log s) (p : s.Proceeds r answer woken s') {v : UInt64} :
    (k, v) ∈ woken ↔ answer.changed ∧ ∃ known, Pending log k known ∧ v = known + 1 := by
  cases p with
  | changed served changed =>
    rw [List.mem_map]
    constructor
    · rintro ⟨w, mem, eq⟩
      cases eq
      exact ⟨changed, w.known, (h.mem_iff w).1 mem, rfl⟩
    · rintro ⟨_, known, pending, rfl⟩
      exact ⟨{ ticket := k, known }, (h.mem_iff _).2 pending, rfl⟩
  | unchanged served quiet =>
    simp [quiet]
  | waits | answered =>
    simp

/-- What is said about those who wait stays true over a run. -/
lemma Awaits.run (h : Awaits log s) (ran : s.run rs = .ok (answers, s')) :
    Awaits (log ++ rs.zip answers) s' := by
  induction rs generalizing s answers log with
  | nil =>
    cases ran
    rwa [List.zip_nil_left, List.append_nil]
  | cons r rs ih =>
    obtain ⟨answer, woken, next, rest, stepped, further, rfl⟩ := run_cons_eq_ok_iff.1 ran
    have later := ih (h.proceeds (proceeds_of_step h.upToDate stepped)) further
    rwa [List.append_assoc] at later

end Session
end StateChannel
