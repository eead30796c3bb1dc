import Mathlib.Tactic.Lemma
import StateChannel.Wire.Proof

/-!
# Encoded proofs read back

A reader takes back a value if it reads it from the written form in front of any other bytes, and
takes no more from the budget than the bytes of that form (`TakesBack`). Readers of records and of
lists do if the readers of their parts do, up to the reader of proofs.

Counts are taken back below 2 ^ 64 only. A list whose written form fits a budget of 64 bits does not
have more elements, since each of them has at least a byte.
-/

namespace StateChannel.Wire.Reader

variable {α β γ : Type} {budget n : Nat} {rest : Bytes}

/-- A reader takes back what is written in front of other bytes, if the budget suffices. -/
def TakesBack (read : Reader α) (write : α → Bytes) : Prop :=
  ∀ a budget rest, budget < UInt64.size → (write a).length ≤ budget →
    read ⟨budget, write a ++ rest⟩ = .ok (a, ⟨budget - (write a).length, rest⟩)

/-- A byte is read if the budget allows one. -/
lemma byte_cons (b : UInt8) (room : 0 < budget) :
    byte ⟨budget, b :: rest⟩ = .ok (b, ⟨budget - 1, rest⟩) := by
  cases budget with
  | zero => cases room
  | succ => rfl

/-- A byte is taken back. -/
lemma takesBack_byte : TakesBack byte fun b => [b] :=
  fun b _ _ _ room => byte_cons b room

/-- A chunk is taken from in front of other bytes. -/
lemma take_append {chunk : Bytes} (room : chunk.length ≤ budget) (rest : Bytes) :
    take chunk.length ⟨budget, chunk ++ rest⟩ = .ok (chunk, ⟨budget - chunk.length, rest⟩) := by
  simp [take, Nat.not_lt.2 room]

/-- A number is read from its lowest bytes if nothing remains above them. -/
lemma number_append {width : Nat} (fits : n >>> (8 * width) = 0) (room : width ≤ budget)
    (rest : Bytes) :
    (take width).map ofLittleEndian ⟨budget, littleEndian width n ++ rest⟩
      = .ok (n, ⟨budget - width, rest⟩) := by
  have size : (littleEndian width n).length = width := length_littleEndian width n
  have read : take width ⟨budget, littleEndian width n ++ rest⟩
      = .ok (littleEndian width n, ⟨budget - width, rest⟩) := by
    have read := take_append (size.symm ▸ room) rest
    rwa [size] at read
  simp [map, read, ofLittleEndian_littleEndian fits]

/-- The markers, each with how many bytes it announces. -/
inductive Announces : UInt8 → Nat → Prop where
  | two : Announces 251 2
  | four : Announces 252 4
  | eight : Announces 253 8

/-- A count below 2 ^ 64 is written as one byte, or in so many bytes that nothing is lost, after the
marker that announces them. -/
lemma count_cases (small : n < UInt64.size) :
    n ≤ 250 ∧ Wire.count n = [UInt8.ofNat n] ∨
      ∃ marker width, Announces marker width ∧ n >>> (8 * width) = 0 ∧
        Wire.count n = marker :: littleEndian width n := by
  have lost {k : Nat} (below : n < 2 ^ k) : n >>> k = 0 := by
    rw [Nat.shiftRight_eq_div_pow]
    exact Nat.div_eq_of_lt below
  unfold Wire.count
  split
  next one => exact .inl ⟨one, rfl⟩
  next =>
    split
    next two => exact .inr ⟨_, _, .two, lost two, rfl⟩
    next =>
      split
      next four => exact .inr ⟨_, _, .four, lost four, rfl⟩
      next => exact .inr ⟨_, _, .eight, lost small, rfl⟩

/-- A count below 2 ^ 64 is taken back. -/
lemma count_append (small : n < UInt64.size) (room : (Wire.count n).length ≤ budget)
    (rest : Bytes) :
    count ⟨budget, Wire.count n ++ rest⟩ = .ok (n, ⟨budget - (Wire.count n).length, rest⟩) := by
  rcases count_cases small with ⟨one, eq⟩ | ⟨marker, width, announces, fits, eq⟩
  · rw [eq, List.length_singleton] at room
    rw [eq, List.length_singleton, List.singleton_append]
    have value : (UInt8.ofNat n).toNat = n :=
      UInt8.toNat_ofNat_of_lt' (Nat.lt_of_le_of_lt one (by decide))
    have marker : UInt8.ofNat n ≤ 250 := by
      rw [UInt8.le_iff_toNat_le, value]
      exact one
    simp only [count, andThen, byte_cons _ room, if_pos marker, value]
  · rw [eq, List.length_cons, length_littleEndian] at room
    rw [eq, List.length_cons, length_littleEndian]
    have read : byte ⟨budget, marker :: littleEndian width n ++ rest⟩ = _ :=
      byte_cons marker (by omega)
    have left : width ≤ budget - 1 := by omega
    have number := number_append fits left rest
    rw [Nat.sub_sub, Nat.add_comm 1] at number
    simp only [count, andThen, read]
    cases announces with
    | two | four | eight => exact number

/-- A record of two parts is taken back if both parts are. -/
lemma TakesBack.record {first : Reader α} {second : Reader β} {write : α → Bytes}
    {write' : β → Bytes} {left : γ → α} {right : γ → β} (make : α → β → γ)
    (h : first.TakesBack write) (h' : second.TakesBack write')
    (whole : ∀ c, make (left c) (right c) = c) :
    TakesBack (first.andThen fun a => second.map (make a))
      fun c => write (left c) ++ write' (right c) := by
  intro c budget rest small room
  rw [List.length_append] at room
  have read := h (left c) budget (write' (right c) ++ rest) small (by omega)
  have read' := h' (right c) (budget - (write (left c)).length) rest (by omega) (by omega)
  rw [List.append_assoc, List.length_append, ← Nat.sub_sub]
  simp only [andThen, map, read, read', whole]

/-- Written values in a row are taken back by as many readings. -/
lemma TakesBack.repeated {item : Reader α} {write : α → Bytes} (h : item.TakesBack write)
    (done as : List α) (small : budget < UInt64.size)
    (room : (as.flatMap write).length ≤ budget) (rest : Bytes) :
    repeatedAfter item done as.length ⟨budget, as.flatMap write ++ rest⟩
      = .ok (done.reverse ++ as, ⟨budget - (as.flatMap write).length, rest⟩) := by
  induction as generalizing done budget with
  | nil => simp [repeatedAfter]
  | cons a as ih =>
    rw [List.flatMap_cons, List.length_append] at room
    have read := h a budget (as.flatMap write ++ rest) small (by omega)
    rw [List.flatMap_cons, List.append_assoc, List.length_append, ← Nat.sub_sub, List.length_cons]
    simp only [repeatedAfter, read]
    rw [ih (a :: done) (by omega) (by omega), List.reverse_cons, List.append_assoc]
    rfl

/-- A list whose elements take a byte or more each takes at least as many bytes as it is long. -/
lemma length_le_flatMap {write : α → Bytes} (nonempty : ∀ a, 0 < (write a).length) (as : List α) :
    as.length ≤ (as.flatMap write).length := by
  induction as with
  | nil => exact Nat.le_refl 0
  | cons a as ih =>
    have some := nonempty a
    rw [List.flatMap_cons, List.length_append, List.length_cons]
    omega

/-- A list of values that are never written as nothing is taken back if its values are. -/
lemma TakesBack.list {item : Reader α} {write : α → Bytes} (h : item.TakesBack write)
    (nonempty : ∀ a, 0 < (write a).length) : (list item).TakesBack (Wire.list write) := by
  intro as budget rest small room
  rw [Wire.list, List.length_append] at room
  have enough := length_le_flatMap nonempty as
  have counted : (Wire.count as.length).length ≤ budget := by omega
  have counted := count_append (by omega) counted (as.flatMap write ++ rest)
  have left : (as.flatMap write).length ≤ budget - (Wire.count as.length).length := by omega
  have read := h.repeated [] as (by omega) left rest
  rw [Wire.list, List.append_assoc, List.length_append, ← Nat.sub_sub]
  simp only [Reader.list, andThen, counted, read, List.reverse_nil, List.nil_append]

/-- A byte string is written as the list of its bytes. -/
lemma bytes_eq_list : Wire.bytes = Wire.list fun b => [b] := by
  funext b
  simp [Wire.bytes, Wire.list, List.flatMap_singleton']

/-- A byte string is taken back. -/
lemma takesBack_bytes : bytes.TakesBack Wire.bytes := by
  rw [bytes_eq_list]
  exact takesBack_byte.list fun _ => Nat.zero_lt_one

/-- A count takes a byte or more. -/
lemma length_count_pos (n : Nat) : 0 < (Wire.count n).length := by
  unfold Wire.count
  repeat' split
  all_goals exact Nat.zero_lt_succ _

/-- A byte string takes a byte or more. -/
lemma length_bytes_pos (b : Bytes) : 0 < (Wire.bytes b).length := by
  have counted := length_count_pos b.length
  rw [Wire.bytes, List.length_append]
  omega

/-- A signed state is taken back. -/
lemma takesBack_signedState : signedState.TakesBack Wire.signedState :=
  .record SignedState.mk takesBack_bytes (takesBack_bytes.list length_bytes_pos) fun _ => rfl

/-- A transition is taken back. -/
lemma takesBack_transition : transition.TakesBack Wire.transition :=
  .record Transition.mk takesBack_bytes takesBack_signedState fun _ => rfl

/-- A transition takes a byte or more. -/
lemma length_transition_pos (t : Transition) : 0 < (Wire.transition t).length := by
  have moved := length_bytes_pos t.move
  rw [Wire.transition, List.length_append]
  omega

/-- A proof is taken back. -/
lemma takesBack_stateProof : stateProof.TakesBack StateProof.encode :=
  .record StateProof.mk takesBack_signedState
    (takesBack_transition.list length_transition_pos) fun _ => rfl

end StateChannel.Wire.Reader

namespace StateChannel.StateProof

variable {limit : UInt64} {p : StateProof} {rest : Bytes}

/-- An encoded proof is decoded, whatever follows it, if all of the bytes are within the limit. -/
lemma decode_encode_append (room : (p.encode ++ rest).length ≤ limit.toNat) :
    decode limit (p.encode ++ rest) = .ok p := by
  have within : p.encode.length ≤ limit.toNat := by
    rw [List.length_append] at room
    omega
  have read := Wire.Reader.takesBack_stateProof p limit.toNat rest limit.toNat_lt within
  rw [decode, if_neg (Nat.not_lt.2 room), read]
  rfl

/-- A proof whose encoding is within the limit is decoded from it. -/
lemma decode_encode (room : p.encode.length ≤ limit.toNat) : decode limit p.encode = .ok p := by
  rw [← List.append_nil p.encode] at room ⊢
  exact decode_encode_append room

/-- Bytes that exceed the limit are not decoded. -/
lemma decode_of_lt {b : Bytes} (long : limit.toNat < b.length) :
    decode limit b = .error (.tooLong b.length limit.toNat) :=
  if_pos long

end StateChannel.StateProof
