import Mathlib.Tactic.Lemma
import StateChannel.Proofs.WireSpellings

/-!
# Decoded proofs can be passed on

Whatever was decoded, its encoding is no longer and is decoded under the same limit, since it is a
shortest spelling. Only the bytes of the spelling matter for what is decoded, and all of them do,
since no spelling starts another one.

A list has at least as many bytes as elements. So a count that announces more is refused where the
bytes end, however great it is (`RefusesExcess`).
-/

namespace StateChannel.Wire

variable {α : Type} {b : Bytes}

namespace Reader

/-- All counts that exceed the bytes that are left come to the same refusal. -/
def RefusesExcess (item : Reader α) : Prop :=
  ∀ done c, ∃ cause, ∀ n, c.rest.length < n → repeatedAfter item done n c = .error cause

/-- A reader of values that take a byte or more refuses counts beyond the bytes that are left. -/
lemma Reads.refusesExcess {item : Reader α} {spelling : Spelling α} (h : item.Reads spelling)
    (nonempty : ∀ a b, spelling a b → 0 < b.length) : item.RefusesExcess := by
  intro done c
  -- Each value takes at least a byte, so the bytes that are left get fewer.
  induction size : c.rest.length using Nat.strongRecOn generalizing done c with
  | _ size ih =>
    subst size
    cases read : item c with
    | error cause =>
      refine ⟨cause, fun n excess => ?_⟩
      cases n with
      | zero => cases excess
      | succ n => simp only [repeatedAfter, read]
    | ok taken =>
      obtain ⟨a, c'⟩ := taken
      obtain ⟨b, spelt, rfl⟩ := (h _ _ _).1 read
      have fewer : c'.rest.length < (c'.before b).rest.length := by
        rw [Cursor.before, List.length_append]
        exact Nat.lt_add_of_pos_left (nonempty a b spelt)
      obtain ⟨cause, refused⟩ := ih _ fewer (a :: done) c' rfl
      refine ⟨cause, fun n excess => ?_⟩
      cases n with
      | zero => cases excess
      | succ n =>
        simp only [repeatedAfter, read]
        exact refused n (by omega)

end Reader

/-- Every spelling of a byte string takes a byte or more. -/
lemma Spelling.length_bytes_pos {a b : Bytes} (spelt : bytes a b) : 0 < b.length :=
  Nat.lt_of_lt_of_le (Reader.length_bytes_pos a) (shortest_bytes a b spelt)

/-- Every spelling of a transition takes a byte or more. -/
lemma Spelling.length_transition_pos {t : Transition} {b : Bytes} (spelt : transition t b) :
    0 < b.length :=
  Nat.lt_of_lt_of_le (Reader.length_transition_pos t) (shortest_transition t b spelt)

end StateChannel.Wire

namespace StateChannel.StateProof

variable {limit : UInt64} {b : Bytes} {p : StateProof}

open Wire

/-- Bytes within the limit decode exactly to the proof that they start with a spelling of. -/
lemma decode_eq_ok_iff : decode limit b = .ok p ↔
    b.length ≤ limit.toNat ∧ ∃ start, Spelling.stateProof p start ∧ start <+: b := by
  unfold decode
  by_cases long : limit.toNat < b.length
  · rw [if_pos long]
    exact ⟨nofun, fun ⟨fits, _⟩ => absurd long (Nat.not_lt.2 fits)⟩
  · rw [if_neg long]
    have fits := Nat.not_lt.1 long
    constructor
    · intro decoded
      cases read : Reader.stateProof ⟨limit.toNat, b⟩ with
      | error => rw [read] at decoded; cases decoded
      | ok taken =>
        rw [read] at decoded
        cases decoded
        obtain ⟨start, spelt, eq⟩ := (Reader.reads_stateProof _ _ _).1 read
        exact ⟨fits, start, spelt, taken.2.rest, (congrArg Cursor.rest eq).symm⟩
    · rintro ⟨_, start, spelt, rest, rfl⟩
      rw [List.length_append] at fits
      have cursor : (⟨limit.toNat, start ++ rest⟩ : Cursor)
          = Cursor.before ⟨limit.toNat - start.length, rest⟩ start := by
        rw [Cursor.before, Nat.add_sub_cancel' (by omega)]
      rw [cursor, (Reader.reads_stateProof _ p _).2 ⟨start, spelt, rfl⟩]
      rfl

/-- Nothing that is cut off from a spelling is decoded. -/
lemma decode_of_cut {start : Bytes} (spelt : Spelling.stateProof p start) (cut : b <+: start)
    (ne : b ≠ start) : ∃ cause, decode limit b = .error cause := by
  cases decoded : decode limit b with
  | error cause => exact ⟨cause, rfl⟩
  | ok p' =>
    obtain ⟨_, start', spelt', within⟩ := decode_eq_ok_iff.1 decoded
    obtain rfl := Reader.reads_stateProof.eq_of_prefix spelt' spelt (within.trans cut)
    exact absurd (cut.eq_of_length_le within.length_le) ne

/-- Bytes that do not decode are too long, or no start of them spells a proof. -/
lemma refused_of_error {cause : DecodeError} (failed : decode limit b = .error cause) :
    limit.toNat < b.length ∨ ∀ p start, start <+: b → ¬ Spelling.stateProof p start := by
  by_cases long : limit.toNat < b.length
  · exact .inl long
  · refine .inr fun p start within spelt => ?_
    have decoded := decode_eq_ok_iff.2 ⟨Nat.not_lt.1 long, start, spelt, within⟩
    rw [failed] at decoded
    cases decoded

/-- What was decoded is encoded in no more bytes, and decoded again under the same limit. It is
also decoded from any other bytes within the limit that start with a certain part of the given ones,
but not from less than this part. All other bytes are refused: there are too many of them, or they
do not start with a spelling of a proof. A count that exceeds the bytes that follow it makes no
difference by its size, be it of bytes, of signatures or of transitions. -/
theorem decoded_relays (limit : UInt64) (b : Bytes) :
    (∀ p, decode limit b = .ok p →
      p.encode.length ≤ b.length ∧ b.length ≤ limit.toNat ∧ decode limit p.encode = .ok p ∧
      ∃ start, start <+: b ∧
        (∀ b', start <+: b' → b'.length ≤ limit.toNat → decode limit b' = .ok p) ∧
        ∀ b' limit', b' <+: start → b' ≠ start → ∃ cause, decode limit' b' = .error cause) ∧
    ((∃ p, decode limit b = .ok p) ∨
      (∃ cause, decode limit b = .error cause) ∧
        (limit.toNat < b.length ∨ ∀ p start, start <+: b → ¬ Spelling.stateProof p start)) ∧
    Reader.byte.RefusesExcess ∧ Reader.bytes.RefusesExcess ∧ Reader.transition.RefusesExcess := by
  refine ⟨fun p decoded => ?_, ?_, ?_, ?_, ?_⟩
  · obtain ⟨fits, start, spelt, within⟩ := decode_eq_ok_iff.1 decoded
    have shorter : p.encode.length ≤ b.length :=
      Nat.le_trans (Spelling.shortest_stateProof p start spelt) within.length_le
    refine ⟨shorter, fits, decode_encode (Nat.le_trans shorter fits), start, within, ?_, ?_⟩
    · intro b' within' fits'
      exact decode_eq_ok_iff.2 ⟨fits', start, spelt, within'⟩
    · intro b' limit' cut ne
      exact decode_of_cut spelt cut ne
  · cases decoded : decode limit b with
    | ok p => exact .inl ⟨p, rfl⟩
    | error cause => exact .inr ⟨⟨cause, rfl⟩, refused_of_error decoded⟩
  · exact Reader.reads_byte.refusesExcess fun x b spelt => spelt ▸ Nat.zero_lt_one
  · exact Reader.reads_bytes.refusesExcess fun _ _ => Spelling.length_bytes_pos
  · exact Reader.reads_transition.refusesExcess fun _ _ => Spelling.length_transition_pos

/-- So it is for an unsigned state whose counts are written longer than necessary, with a byte after
it. -/
theorem decoded_relays_padded :
    let b : Bytes := [251, 1, 0, 7, 0, 252, 0, 0, 0, 0, 9]
    let p : StateProof := ⟨⟨[7], []⟩, []⟩
    decode 11 b = .ok p ∧ p.encode = [1, 7, 0, 0] ∧ decode 11 p.encode = .ok p ∧
      ∃ start, start <+: b ∧ ∀ b', start <+: b' → b'.length ≤ 11 → decode 11 b' = .ok p := by
  intro b p
  have decoded : decode 11 b = .ok p := rfl
  obtain ⟨_, _, again, start, within, others, _⟩ := (decoded_relays 11 b).1 p decoded
  exact ⟨decoded, rfl, again, start, within, others⟩

/-- The greatest count there is ends where the bytes do. -/
example : decode 100 [253, 255, 255, 255, 255, 255, 255, 255, 255, 7] = .error .truncated :=
  rfl

end StateChannel.StateProof
