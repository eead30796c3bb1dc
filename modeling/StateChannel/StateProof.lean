import StateChannel.Bytes

/-!
# State proofs

A state proof is self-contained evidence for a board state: a signed starting state and the moves
that lead on from it, each with the signed state that it results in.
-/

namespace StateChannel

/-- An encoded board state with signatures on it. -/
structure SignedState where
  data : Bytes
  signatures : List Bytes := []
deriving DecidableEq

/-- A move and the signed state that it leads to. -/
structure Transition where
  move : Bytes
  state : SignedState
deriving DecidableEq

/-- A starting state and the transitions made from it. -/
structure StateProof where
  initial : SignedState
  transitions : List Transition := []
deriving DecidableEq

namespace StateProof

/-- The proof that consists of an unsigned starting state alone. -/
def trivial (data : Bytes) : StateProof where
  initial := { data }

/-- All states of a proof in order. -/
def states (p : StateProof) : List SignedState :=
  p.initial :: p.transitions.map (·.state)

/-- The board state that a proof is evidence for. -/
def latest (p : StateProof) : Bytes :=
  ((p.transitions.map (·.state)).getLastD p.initial).data

/-- A proof continued by further transitions. -/
def append (p : StateProof) (ts : List Transition) : StateProof :=
  { p with transitions := p.transitions ++ ts }

/-- A proof ends in the last of its claimed states, or where it starts if there is none. -/
theorem latest_eq_getLastD (p : StateProof) :
    p.latest = (p.transitions.map (·.state.data)).getLastD p.initial.data := by
  have last := List.getLastD_map (f := SignedState.data) (l := p.transitions.map (·.state))
    (a := p.initial)
  rw [List.map_map] at last
  exact last.symm

end StateProof

end StateChannel
