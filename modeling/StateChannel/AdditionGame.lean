import StateChannel.Blank
import StateChannel.Json.Record
import StateChannel.Rules

/-!
# The addition game

A board state is a number and a count of moves, written in decimal with blanks between them. A move
is a positive amount, which is added to the number. The two players take turns until the number
reaches the goal.
-/

namespace StateChannel.AdditionGame

/-- The number at which nobody can move any more. -/
def goal : UInt32 := 100

/-- A board state of the addition game. -/
structure State where
  metadata : Metadata.Instance
  number : UInt32
  /-- How many moves have been made. -/
  count : UInt32
deriving DecidableEq

/-- The number and the count that a text gives. -/
def numbers? (b : Bytes) : Option (UInt32 × UInt32) := do
  let text ← Bytes.text? b
  match Blank.words text.toList with
  | [number, count] => return (← Decimal.uint32? number, ← Decimal.uint32? count)
  | _ => none

/-- The plain form of a number consists of digits, none of which is blank. -/
theorem isBlank_of_mem_digits {n : Nat} {c : Char} (h : c ∈ Decimal.digits n) :
    Blank.isBlank c = false :=
  Blank.isBlank_of_isDigit (Decimal.isDigit_of_mem_digits h)

/-- The board state that bytes encode. -/
def parse (m : Metadata.Instance) (b : Bytes) : Option State :=
  (numbers? b).map fun (number, count) => { metadata := m, number, count }

/-- The plain encoding of a number and a count. -/
def encode (number count : UInt32) : Bytes :=
  Bytes.ofText (String.ofList (Decimal.digits number.toNat ++ ' ' :: Decimal.digits count.toNat))

/-- What was encoded reads back. -/
@[simp] theorem numbers?_encode (number count : UInt32) :
    numbers? (encode number count) = some (number, count) := by
  have split := Blank.words_append_cons (c := ' ') (fun _ => isBlank_of_mem_digits)
    (fun _ => isBlank_of_mem_digits) (by decide) (Decimal.digits_ne_nil number.toNat)
    (Decimal.digits_ne_nil count.toNat)
  simp [numbers?, encode, split]

/-- The amount that a move adds. -/
def amount? (move : Bytes) : Option UInt32 := do
  let text ← Bytes.text? move
  let amount ← Decimal.uint32? (Blank.trim text.toList)
  if amount = 0 then none else some amount

/-- The encoded board state after a move, if neither the number nor the count outgrows 32 bits. -/
def State.play (s : State) (move : Bytes) : Option Bytes := do
  let amount ← amount? move
  if s.number.toNat + amount.toNat < UInt32.size ∧ s.count.toNat + 1 < UInt32.size then
    some (encode (s.number + amount) (s.count + 1))
  else none

/-- The seat that is to move. -/
def State.toMove (s : State) : Option Nat :=
  if goal ≤ s.number then none else some (s.count.toNat % 2)

/-- The exported form of a board state. -/
def State.toJson (s : State) : Json :=
  .ofFields [("number", .ofNat s.number.toNat), ("count", .ofNat s.count.toNat)]

/-- The rules of the addition game, for channels of the extended version too if `extended` says so.
-/
def rules (extended : Bool) : GameRules State where
  parse _ m b := parse m b
  metadata s := s.metadata
  turn s := s.count
  toMove := State.toMove
  encodedBy s b := numbers? b = some (s.number, s.count)
  play := State.play
  toJson := State.toJson
  supports v := v = .baseline || extended

end StateChannel.AdditionGame
