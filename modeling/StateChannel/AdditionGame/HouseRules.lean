import StateChannel.AdditionGame

/-!
# House rules of the addition game

Variations of the rules under which the checks of a channel can be told apart: which proofs are
accepted, which states parse, which bytes count as a state, and which metadata a state refers to.
-/

namespace StateChannel.AdditionGame

/-- A choice of variations, each of them off unless it is asked for. -/
structure HouseRules where
  /-- Channels of the extended version can be played. -/
  extended : Bool := false
  /-- Only channels of the baseline version can be played, whatever `extended` says. -/
  baselineOnly : Bool := false
  /-- A proof may have no more transitions than this. -/
  maxTransitions : Option Nat := none
  /-- A state whose number exceeds this does not parse. -/
  maxNumber : Option Nat := none
  /-- Bytes from the first `#` on do not matter when bytes are compared with a state. -/
  comments : Bool := false
  /-- A parsed state refers to an instance of its own, with a further participant. -/
  guest : Bool := false
deriving DecidableEq

/-- A new instance of metadata with a further participant. -/
def withGuest (m : Metadata.Instance) : Metadata.Instance :=
  let seated : Metadata :=
    { m with participants := m.participants ++ [{ name := "alien", address := "alien" }] }
  seated.besides m

/-- Bytes up to the first `#`. -/
def withoutComment (b : Bytes) : Bytes :=
  b.takeWhile (· ≠ 0x23)

namespace HouseRules

/-- Whether a protocol version can be played. -/
def supports (h : HouseRules) (v : ProtocolVersion) : Bool :=
  v = .baseline || h.extended && !h.baselineOnly

/-- The rules of the addition game with the chosen variations. -/
def rules (h : HouseRules) : GameRules State :=
  let plain := AdditionGame.rules h.extended
  { plain with
    parse := fun id m b => do
      let s ← plain.parse id (if h.guest then withGuest m else m) b
      if h.maxNumber.all (s.number.toNat ≤ ·) then some s else none
    encodedBy := fun s b => plain.encodedBy s (if h.comments then withoutComment b else b)
    supports := h.supports
    accepts := fun m p => h.supports m.version && h.maxTransitions.all (p.transitions.length ≤ ·) }

/-- Without variations they are the plain rules. -/
theorem rules_plain (extended : Bool) : rules { extended } = AdditionGame.rules extended := by
  have versions : supports { extended } = fun v => v = .baseline || extended := by
    funext v
    simp [supports]
  simp [rules, AdditionGame.rules, versions]

end HouseRules

end StateChannel.AdditionGame
