import Mathlib.Tactic.Lemma
import StateChannel.AdditionGame.Play
import StateChannel.Verification.Valid

/-!
# Transitions of the addition game

Under the rules of the addition game a transition leads on from a board state exactly if it adds an
amount to it (`leadsTo_iff`): the claimed state may be written in any way, but it gives the number
and the count that the move results in, neither of which has wrapped around.
-/

namespace StateChannel.AdditionGame

variable {m : Metadata.Instance} {s s' : State} {b move : Bytes} {amount : UInt32}

/-- A board state is parsed from its number and its count, and refers to the given metadata. -/
lemma parse_eq_some_iff :
    parse m b = some s ↔ numbers? b = some (s.number, s.count) ∧ s.metadata = m := by
  simp only [parse, Option.map_eq_some_iff, Prod.exists]
  constructor
  · rintro ⟨number, count, read, rfl⟩
    exact ⟨read, rfl⟩
  · rintro ⟨read, rfl⟩
    exact ⟨s.number, s.count, read, rfl⟩

/-- The encoding of a board state parses as that state. -/
lemma parse_encoded (s : State) : parse s.metadata s.encoded = some s :=
  parse_eq_some_iff.2 ⟨numbers?_encode s.number s.count, rfl⟩

/-- The players take turns until the number has reached the goal. -/
lemma toMove_eq_some_iff {seat : Nat} :
    s.toMove = some seat ↔ s.number < goal ∧ seat = s.count.toNat % 2 := by
  rw [State.toMove, Option.ite_none_left_eq_some, UInt32.not_le, Option.some_inj,
    eq_comm (a := seat)]

/-- A move that can be read adds something. -/
lemma amount?_ne_zero (h : amount? move = some amount) : amount ≠ 0 := by
  obtain ⟨_, _, h⟩ := Option.bind_eq_some_iff.1 h
  obtain ⟨_, _, h⟩ := Option.bind_eq_some_iff.1 h
  split at h
  next => cases h
  next ne => cases h; exact ne

/-- A move results in the state with its amount added, if that fits. -/
lemma play_eq_some_iff {result : Bytes} :
    s.play move = some result ↔
      ∃ amount, amount? move = some amount ∧ s.Fits amount ∧ result = (s.add amount).encoded := by
  simp only [State.play, Option.bind_eq_bind, Option.bind_eq_some_iff]
  constructor
  · rintro ⟨amount, read, h⟩
    split at h
    next fits =>
      cases h
      exact ⟨amount, read, ⟨fits.1, fits.2⟩, rfl⟩
    next => cases h
  · rintro ⟨amount, read, ⟨number, count⟩, rfl⟩
    exact ⟨amount, read, if_pos ⟨number, count⟩⟩

/-- A transition from a board state is the move of the player whose turn it is, who adds an amount
before the number has reached the goal and signs the state that results. -/
structure Adds (ch : Channel State) (s : State) (t : Transition) (amount : UInt32) : Prop where
  unfinished : s.number < goal
  read : amount? t.move = some amount
  fits : s.Fits amount
  result : parse s.metadata t.state.data = some (s.add amount)
  signed : ch.Signed s.metadata t.state (s.count.toNat % 2)

variable {ch : Channel State} {extended : Bool} {data : Bytes} {t : Transition}

/-- A transition leads on from a board state exactly if it adds an amount to it. -/
theorem leadsTo_iff (plays : ch.rules = rules extended) :
    ch.LeadsTo m data t ↔
      ∃ s amount, parse m data = some s ∧ Adds ch s t amount := by
  rw [Channel.LeadsTo, plays]
  constructor
  · rintro ⟨s, seat, result, after, parsed, turn, moved, parsed', same, signed⟩
    obtain ⟨_, rfl⟩ := parse_eq_some_iff.1 parsed
    obtain ⟨unfinished, rfl⟩ := toMove_eq_some_iff.1 turn
    obtain ⟨amount, read, fits, rfl⟩ := play_eq_some_iff.1 moved
    cases parsed'.symm.trans (parse_encoded (s.add amount))
    have claimed : parse s.metadata t.state.data = some (s.add amount) :=
      parse_eq_some_iff.2 ⟨of_decide_eq_true same, rfl⟩
    exact ⟨s, amount, parsed, unfinished, read, fits, claimed, signed⟩
  · rintro ⟨s, amount, parsed, h⟩
    obtain ⟨_, rfl⟩ := parse_eq_some_iff.1 parsed
    obtain ⟨claimed, _⟩ := parse_eq_some_iff.1 h.result
    exact ⟨s, _, _, s.add amount, parsed, toMove_eq_some_iff.2 ⟨h.unfinished, rfl⟩,
      play_eq_some_iff.2 ⟨amount, h.read, h.fits, rfl⟩, parse_encoded (s.add amount),
      decide_eq_true claimed, h.signed⟩

end StateChannel.AdditionGame
