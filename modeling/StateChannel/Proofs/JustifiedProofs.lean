import StateChannel.Proofs.Participation

/-!
# Verification accepts exactly the justified proofs

A proof is justified if each of its states is, seen for itself: the first one is a board state, and
each further one is signed by the player to move in the state before it and is what that player's
move leads to. Besides, the first one is founding or everyone signed some state. No state that was
computed on the way is mentioned, and neither is the order in which verification goes about it.
-/

namespace StateChannel.Channel

variable {State : Type}

/-- What there is to see in the states and transitions of a proof, each of them at its place. -/
structure Justified (ch : Channel State) (m : Metadata.Instance) (founding : Bytes)
    (p : StateProof) : Prop where
  parses : ∃ first, ch.rules.parse ch.id m p.initial.data = some first
  /-- A transition leads from the state at its place to the state at the next one. -/
  leads : ∀ (i : Nat) s t s', p.states[i]? = some s → p.transitions[i]? = some t →
    p.states[i + 1]? = some s' → ch.LeadsTo m s.data ⟨t.move, s'⟩
  trusted : ch.Anchored m founding p ∨ ch.SignedByAll m p

variable {ch : Channel State} {m : Metadata.Instance} {founding : Bytes} {p : StateProof}

/-- A list of transitions is a chain exactly if each of them leads to the state after its place. -/
lemma chain_iff_places {s : SignedState} {ts : List Transition} :
    ch.Chain m s.data ts ↔ ∀ (i : Nat) a t b, (StateProof.states ⟨s, ts⟩)[i]? = some a →
      ts[i]? = some t → (StateProof.states ⟨s, ts⟩)[i + 1]? = some b →
      ch.LeadsTo m a.data ⟨t.move, b⟩ := by
  rw [chain_iff_departures]
  constructor
  · intro leads i a t b here made next
    have reached : b = t.state := by simpa [StateProof.states, made] using next.symm
    subst reached
    have departs : (a, t) ∈ StateProof.departures ⟨s, ts⟩ :=
      List.mem_of_getElem? (List.getElem?_zip_eq_some.2 ⟨here, made⟩)
    exact leads (a, t) departs
  · rintro leads ⟨a, t⟩ departs
    obtain ⟨i, found⟩ := List.mem_iff_getElem?.1 departs
    obtain ⟨here, made⟩ := List.getElem?_zip_eq_some.1 found
    have next : (StateProof.states ⟨s, ts⟩)[i + 1]? = some t.state := by
      simp [StateProof.states, made]
    exact leads i a t t.state here made next

/-- A proof is valid exactly if it is justified place by place. -/
lemma valid_iff_justified : ch.Valid m founding p ↔ ch.Justified m founding p := by
  constructor
  · intro ⟨parses, chain, trusted⟩
    exact ⟨Option.isSome_iff_exists.1 parses, chain_iff_places.1 chain, trusted⟩
  · intro ⟨parses, leads, trusted⟩
    exact ⟨Option.isSome_iff_exists.2 parses, chain_iff_places.2 leads, trusted⟩

/-- A proof is found to hold exactly if it is justified, with its latest state. Otherwise nothing is
found. -/
theorem verify?_finds_justified :
    (∀ data, ch.verify? m founding p = some data ↔
      ch.Justified m founding p ∧ data = p.latest) ∧
    (ch.verify? m founding p = none ↔ ¬ ch.Justified m founding p) := by
  have found (data : Bytes) : ch.verify? m founding p = some data ↔
      ch.Justified m founding p ∧ data = p.latest := by
    rw [verify?_eq_some_iff, valid_iff_justified]
  refine ⟨found, ?_⟩
  rw [Option.eq_none_iff_forall_ne_some]
  constructor
  · intro nothing justified
    exact nothing _ ((found _).2 ⟨justified, rfl⟩)
  · intro unjustified data h
    exact unjustified ((found data).1 h).1

end StateChannel.Channel
