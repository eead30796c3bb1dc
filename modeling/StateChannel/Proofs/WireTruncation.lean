import Mathlib.Tactic.Lemma
import StateChannel.Proofs.WireRoundTrip

/-!
# Encoded proofs delimit themselves

An encoded proof tells where it ends: it is decoded whatever follows it, and nothing that is cut off
before its end is. Beyond that only the number of bytes decides, all of which count.

A reader refuses what is cut off if it fails on every proper start of a written value
(`RefusesCut`). Readers of records and lists do if the readers of their parts do: what is cut off
from a concatenation is cut off from its first part, or from its second one after all of the first,
which is taken back (`TakesBack`).
-/

namespace StateChannel.Wire.Reader

variable {α β γ : Type} {budget n : Nat} {b : Bytes}

/-- Bytes are what is left of a whole without at least its last byte. -/
def CutFrom (whole b : Bytes) : Prop :=
  ∃ x missing, whole = b ++ x :: missing

/-- What is cut off is shorter than the whole. -/
lemma CutFrom.length_lt {whole : Bytes} (h : CutFrom whole b) : b.length < whole.length := by
  obtain ⟨x, missing, rfl⟩ := h
  rw [List.length_append, List.length_cons]
  omega

/-- A proper prefix is cut off from the whole. -/
lemma cutFrom_of_prefix {whole : Bytes} (start : b <+: whole) (ne : b ≠ whole) :
    CutFrom whole b := by
  obtain ⟨missing, rfl⟩ := start
  cases missing with
  | nil => exact absurd (List.append_nil b).symm ne
  | cons x missing => exact ⟨x, missing, rfl⟩

/-- What is cut off from two parts is cut off from the first one, or from the second one after all
of the first. -/
lemma CutFrom.append {first second : Bytes} (h : CutFrom (first ++ second) b) :
    CutFrom first b ∨ ∃ rest, b = first ++ rest ∧ CutFrom second rest := by
  obtain ⟨x, missing, eq⟩ := h
  rcases List.append_eq_append_iff.1 eq with ⟨rest, rfl, tail⟩ | ⟨lost, rfl, tail⟩
  · exact .inr ⟨rest, rfl, x, missing, tail⟩
  · cases lost with
    | nil => exact .inr ⟨[], by simp, x, missing, tail.symm⟩
    | cons y lost => exact .inl ⟨y, lost, rfl⟩

/-- What is cut off is empty, or starts with the first byte of the whole. -/
lemma CutFrom.cons {x : UInt8} {whole : Bytes} (h : CutFrom (x :: whole) b) :
    b = [] ∨ ∃ rest, b = x :: rest ∧ CutFrom whole rest := by
  obtain ⟨y, missing, eq⟩ := h
  cases b with
  | nil => exact .inl rfl
  | cons z b =>
    cases eq
    exact .inr ⟨b, rfl, y, missing, rfl⟩

/-- A reader refuses what is cut off from the written form of a value. -/
def RefusesCut (read : Reader α) (write : α → Bytes) : Prop :=
  ∀ a budget b, budget < UInt64.size → b.length ≤ budget → CutFrom (write a) b →
    ∃ cause, read ⟨budget, b⟩ = .error cause

/-- No byte is read where there is none. -/
lemma byte_nil : ∃ cause, byte ⟨budget, []⟩ = .error cause := by
  cases budget with
  | zero => exact ⟨.limitReached, rfl⟩
  | succ => exact ⟨.truncated, rfl⟩

/-- A byte is refused if it is cut off. -/
lemma refusesCut_byte : RefusesCut byte fun x => [x] := by
  intro x budget b _ _ cut
  have none : b = [] := List.length_eq_zero_iff.1 (Nat.lt_one_iff.1 cut.length_lt)
  subst none
  exact byte_nil

/-- A chunk is refused if fewer bytes are left. -/
lemma take_of_length_lt (short : b.length < n) : ∃ cause, take n ⟨budget, b⟩ = .error cause := by
  have chunk : (b.take n).length < n := by
    rw [List.length_take]
    omega
  by_cases room : budget < n
  · exact ⟨.limitReached, if_pos room⟩
  · exact ⟨.truncated, (if_neg room).trans (if_pos chunk)⟩

/-- A reader that fails does so whatever is made of its value. -/
lemma map_eq_error {f : α → β} {read : Reader α} {c : Cursor}
    (h : ∃ cause, read c = .error cause) : ∃ cause, map f read c = .error cause := by
  obtain ⟨cause, h⟩ := h
  exact ⟨cause, by simp only [map, h]⟩

/-- Readers in a row fail if the first one does. -/
lemma andThen_eq_error {first : Reader α} {next : α → Reader β} {c : Cursor}
    (h : ∃ cause, first c = .error cause) : ∃ cause, first.andThen next c = .error cause := by
  obtain ⟨cause, h⟩ := h
  exact ⟨cause, by simp only [andThen, h]⟩

/-- Readers in a row go on with the second one after the first one. -/
lemma andThen_eq_of_ok {first : Reader α} {next : α → Reader β} {c c' : Cursor} {a : α}
    (h : first c = .ok (a, c')) : first.andThen next c = next a c' := by
  simp only [andThen, h]

/-- A marker is not enough for the count that it announces. -/
lemma count_marker_cut {marker : UInt8} {width : Nat} (announces : Announces marker width)
    (short : b.length < width) : ∃ cause, count ⟨budget, marker :: b⟩ = .error cause := by
  by_cases room : 0 < budget
  · rw [count, andThen_eq_of_ok (byte_cons marker room)]
    have failed : ∃ cause, map ofLittleEndian (take width) ⟨budget - 1, b⟩ = .error cause :=
      map_eq_error (take_of_length_lt short)
    cases announces with
    | two | four | eight => exact failed
  · have none : budget = 0 := Nat.eq_zero_of_not_pos room
    subst none
    exact ⟨.limitReached, rfl⟩

/-- A count of 2 ^ 64 or more is written with the marker that no reader takes. -/
lemma count_eq_wide (large : UInt64.size ≤ n) : Wire.count n = 254 :: littleEndian 16 n := by
  have one : ¬ n ≤ 250 := Nat.not_le.2 (Nat.lt_of_lt_of_le (by decide) large)
  have two : ¬ n < UInt16.size := Nat.not_lt.2 (Nat.le_trans (by decide) large)
  have four : ¬ n < UInt32.size := Nat.not_lt.2 (Nat.le_trans (by decide) large)
  rw [Wire.count, if_neg one, if_neg two, if_neg four, if_neg (Nat.not_lt.2 large)]

/-- A count behind the widest marker is refused. -/
lemma count_wide : ∃ cause, count ⟨budget, 254 :: b⟩ = .error cause := by
  cases budget with
  | zero => exact ⟨.limitReached, rfl⟩
  | succ => exact ⟨.wideCount, rfl⟩

/-- No count is read where there are no bytes. -/
lemma count_nil : ∃ cause, count ⟨budget, []⟩ = .error cause :=
  andThen_eq_error byte_nil

/-- A count is refused if it is cut off. -/
lemma refusesCut_count : RefusesCut count Wire.count := by
  intro n budget b _ _ cut
  rcases Nat.lt_or_ge n UInt64.size with small | large
  · rcases count_cases small with ⟨_, single⟩ | ⟨marker, width, announces, _, marked⟩
    · rw [single] at cut
      rcases cut.cons with rfl | ⟨rest, rfl, later⟩
      · exact count_nil
      · exact absurd later.length_lt (Nat.not_lt_zero _)
    · -- Either nothing is left, or a marker that announces more bytes than follow it.
      rw [marked] at cut
      rcases cut.cons with rfl | ⟨rest, rfl, later⟩
      · exact count_nil
      · have short := later.length_lt
        rw [length_littleEndian] at short
        exact count_marker_cut announces short
  · rw [count_eq_wide large] at cut
    rcases cut.cons with rfl | ⟨rest, rfl, _⟩
    · exact count_nil
    · exact count_wide

/-- A record of two parts is refused if both parts are, and the first one is taken back. -/
lemma RefusesCut.record {first : Reader α} {second : Reader β} {write : α → Bytes}
    {write' : β → Bytes} {left : γ → α} {right : γ → β} (make : α → β → γ)
    (back : first.TakesBack write) (h : first.RefusesCut write) (h' : second.RefusesCut write') :
    RefusesCut (first.andThen fun a => second.map (make a))
      fun c => write (left c) ++ write' (right c) := by
  intro c budget b small room cut
  rcases cut.append with early | ⟨rest, rfl, later⟩
  · exact andThen_eq_error (h _ _ _ small room early)
  · rw [List.length_append] at room
    rw [andThen_eq_of_ok (back (left c) budget rest small (by omega))]
    exact map_eq_error (h' _ _ _ (by omega) (by omega) later)

/-- Written values in a row are refused by as many readings if one of them is cut off. -/
lemma RefusesCut.repeated {item : Reader α} {write : α → Bytes} (back : item.TakesBack write)
    (h : item.RefusesCut write) (done as : List α) (small : budget < UInt64.size)
    (room : b.length ≤ budget) (cut : CutFrom (as.flatMap write) b) :
    ∃ cause, repeatedAfter item done as.length ⟨budget, b⟩ = .error cause := by
  induction as generalizing done budget b with
  | nil => exact absurd cut.length_lt (Nat.not_lt_zero _)
  | cons a as ih =>
    rw [List.flatMap_cons] at cut
    rw [List.length_cons]
    rcases cut.append with early | ⟨rest, rfl, later⟩
    · obtain ⟨cause, failed⟩ := h a budget b small room early
      exact ⟨cause, by simp only [repeatedAfter, failed]⟩
    · -- The first value is there in full. What is left of the budget covers the others.
      rw [List.length_append] at room
      have read := back a budget rest small (by omega)
      simp only [repeatedAfter, read]
      exact ih (a :: done) (by omega) (by omega) later

/-- A list is refused if it is cut off, provided that its elements are. -/
lemma RefusesCut.list {item : Reader α} {write : α → Bytes} (back : item.TakesBack write)
    (h : item.RefusesCut write) : (list item).RefusesCut (Wire.list write) := by
  intro as budget b small room cut
  rcases cut.append with early | ⟨rest, rfl, later⟩
  · exact andThen_eq_error (refusesCut_count _ _ _ small room early)
  · rw [List.length_append] at room
    -- A list that is too long to be counted is refused by its count, which is there in full.
    rcases Nat.lt_or_ge as.length UInt64.size with few | many
    · have left : (Wire.count as.length).length ≤ budget := by omega
      rw [Reader.list, andThen_eq_of_ok (count_append few left rest)]
      exact h.repeated back [] as (by omega) (by omega) later
    · rw [count_eq_wide many]
      exact andThen_eq_error count_wide

/-- A byte string is refused if it is cut off. -/
lemma refusesCut_bytes : bytes.RefusesCut Wire.bytes := by
  rw [bytes_eq_list]
  exact refusesCut_byte.list takesBack_byte

/-- A signed state is refused if it is cut off. -/
lemma refusesCut_signedState : signedState.RefusesCut Wire.signedState :=
  .record SignedState.mk takesBack_bytes refusesCut_bytes (refusesCut_bytes.list takesBack_bytes)

/-- A transition is refused if it is cut off. -/
lemma refusesCut_transition : transition.RefusesCut Wire.transition :=
  .record Transition.mk takesBack_bytes refusesCut_bytes refusesCut_signedState

/-- A proof is refused if it is cut off. -/
lemma refusesCut_stateProof : stateProof.RefusesCut StateProof.encode :=
  .record StateProof.mk takesBack_signedState refusesCut_signedState
    (refusesCut_transition.list takesBack_transition)

end StateChannel.Wire.Reader

namespace StateChannel.StateProof

variable {p : StateProof} {b : Bytes}

/-- What is cut off from an encoded proof is not decoded under any limit. -/
lemma decode_of_cutFrom (limit : UInt64) (cut : Wire.Reader.CutFrom p.encode b) :
    ∃ cause, decode limit b = .error cause := by
  by_cases long : limit.toNat < b.length
  · exact ⟨_, decode_of_lt long⟩
  · obtain ⟨cause, failed⟩ := Wire.Reader.refusesCut_stateProof p limit.toNat b limit.toNat_lt
      (Nat.not_lt.1 long) cut
    rw [decode, if_neg long, failed]
    exact ⟨cause, rfl⟩

/-- An encoded proof is decoded, whatever follows it, exactly if all of the bytes are within the
limit. No proper start of it is decoded under any limit. -/
theorem decode_encoded (p : StateProof) :
    (∀ rest limit, decode limit (p.encode ++ rest) =
      if p.encode.length + rest.length ≤ limit.toNat then .ok p
      else .error (.tooLong (p.encode.length + rest.length) limit.toNat)) ∧
    ∀ b limit, b <+: p.encode → b ≠ p.encode → ∃ cause, decode limit b = .error cause := by
  refine ⟨fun rest limit => ?_, fun b limit start ne => ?_⟩
  · rw [← List.length_append]
    split
    next room => exact decode_encode_append room
    next long => exact decode_of_lt (Nat.not_le.1 long)
  · exact decode_of_cutFrom limit (Wire.Reader.cutFrom_of_prefix start ne)

/-- So it is for a proof of one signed move, whose last signature is cut off. -/
theorem decode_encoded_move :
    let p : StateProof := ⟨⟨[7], []⟩, [⟨[1], ⟨[8], [[9, 9]]⟩⟩]⟩
    p.encode = [1, 7, 0, 1, 1, 1, 1, 8, 1, 2, 9, 9] ∧
      decode 13 (p.encode ++ [0]) = .ok p ∧
      decode 12 (p.encode ++ [0]) = .error (.tooLong 13 12) ∧
      [1, 7, 0, 1, 1, 1, 1, 8, 1, 2, 9] <+: p.encode ∧
      [1, 7, 0, 1, 1, 1, 1, 8, 1, 2, 9] ≠ p.encode ∧
      ∃ cause, decode 12 [1, 7, 0, 1, 1, 1, 1, 8, 1, 2, 9] = .error cause := by
  intro p
  have start : [1, 7, 0, 1, 1, 1, 1, 8, 1, 2, 9] <+: p.encode := by decide
  have ne : [1, 7, 0, 1, 1, 1, 1, 8, 1, 2, 9] ≠ p.encode := by decide
  obtain ⟨whole, cut⟩ := decode_encoded p
  refine ⟨rfl, ?_, ?_, start, ne, cut _ _ start ne⟩
  · rw [whole]
    rfl
  · rw [whole]
    rfl

end StateChannel.StateProof
