import StateChannel.AdditionGame
import StateChannel.ProofDraft

/-!
# Lines of play of the addition game

A line of play is a list of amounts that are added one after the other. A draft takes it down: each
amount becomes a move, and the state that it leads to is signed by the player whose move it was.
-/

namespace StateChannel

namespace AdditionGame

namespace State

/-- The encoding of a board state. -/
def encoded (s : State) : Bytes :=
  encode s.number s.count

/-- The board state after an amount is added. -/
def add (s : State) (amount : UInt32) : State :=
  { s with number := s.number + amount, count := s.count + 1 }

/-- The board state after amounts are added in order. -/
def addAll (s : State) : List UInt32 → State
  | [] => s
  | amount :: amounts => (s.add amount).addAll amounts

/-- Neither the number nor the count wraps around when an amount is added. -/
structure Fits (s : State) (amount : UInt32) : Prop where
  number : s.number.toNat + amount.toNat < UInt32.size
  count : s.count.toNat + 1 < UInt32.size

/-- An amount that fits is added to the number without wrapping around. -/
theorem Fits.toNat_number {s : State} {amount : UInt32} (h : s.Fits amount) :
    (s.add amount).number.toNat = s.number.toNat + amount.toNat :=
  (UInt32.toNat_add ..).trans (Nat.mod_eq_of_lt h.number)

/-- An amount that fits counts as one more turn. -/
theorem Fits.toNat_count {s : State} {amount : UInt32} (h : s.Fits amount) :
    (s.add amount).count.toNat = s.count.toNat + 1 :=
  (UInt32.toNat_add ..).trans (Nat.mod_eq_of_lt h.count)

end State

/-- Amounts can be played one after the other: each of them is positive and is added before the
number has reached the goal, and neither the number nor the count ever wraps around. -/
inductive Playable : State → List UInt32 → Prop where
  | nil {s} :
    Playable s []
  | cons {s amount amounts} :
    s.number < goal →
    amount ≠ 0 →
    s.Fits amount →
    Playable (s.add amount) amounts →
    Playable s (amount :: amounts)

end AdditionGame

end StateChannel
