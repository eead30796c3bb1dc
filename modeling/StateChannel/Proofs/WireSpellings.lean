import Mathlib.Tactic.Lemma
import StateChannel.Proofs.WireRoundTrip

/-!
# What bytes spell

A count has more than one form, so a value may be spelt in several ways. What it may be spelt with
is said here without reading (`Spelling`), and what is written is a shortest spelling (`Shortest`).

A reader reads a spelling if it succeeds exactly on bytes that start with one, and takes these off
the bytes and off the budget (`Reads`). Readers of records and lists do if the readers of their
parts do, up to the reader of proofs.
-/

namespace StateChannel.Wire

variable {α β γ : Type}

/-- Which bytes spell a value. -/
abbrev Spelling (α : Type) := α → Bytes → Prop

namespace Spelling

/-- A byte spells itself. -/
def byte : Spelling UInt8 := fun x b => b = [x]

/-- A count is one byte, or a marker and as many bytes as it announces. -/
inductive count : Spelling Nat where
  | single {x : UInt8} :
    x ≤ 250 →
    count x.toNat [x]
  | marked {marker width b} :
    Reader.Announces marker width →
    b.length = width →
    count (ofLittleEndian b) (marker :: b)

/-- The parts of a record one after the other. -/
def record (first : Spelling α) (second : Spelling β) (left : γ → α) (right : γ → β) :
    Spelling γ :=
  fun c b => ∃ b₁ b₂, first (left c) b₁ ∧ second (right c) b₂ ∧ b = b₁ ++ b₂

/-- Values one after the other. -/
inductive row (item : Spelling α) : Spelling (List α) where
  | nil :
    row item [] []
  | cons {a as b bs} :
    item a b →
    row item as bs →
    row item (a :: as) (b ++ bs)

/-- A count and as many values. -/
def list (item : Spelling α) : Spelling (List α) :=
  record count (row item) List.length id

def bytes : Spelling Bytes :=
  list byte

def signedState : Spelling SignedState :=
  record bytes (list bytes) SignedState.data SignedState.signatures

def transition : Spelling Transition :=
  record bytes signedState Transition.move Transition.state

def stateProof : Spelling StateProof :=
  record signedState (list transition) StateProof.initial StateProof.transitions

/-- No spelling is shorter than what is written. -/
def Shortest (spelling : Spelling α) (write : α → Bytes) : Prop :=
  ∀ a b, spelling a b → (write a).length ≤ b.length

/-- Nothing remains above the bytes of a number. -/
lemma ofLittleEndian_shiftRight (b : Bytes) : ofLittleEndian b >>> (8 * b.length) = 0 := by
  induction b with
  | nil => rfl
  | cons x b ih =>
    have rest : (x.toNat + 256 * ofLittleEndian b) >>> 8 = ofLittleEndian b := by
      have small := x.toNat_lt
      rw [Nat.shiftRight_eq_div_pow]
      omega
    rw [ofLittleEndian, List.length_cons, Nat.mul_succ, Nat.add_comm _ 8, Nat.shiftRight_add, rest,
      ih]

/-- A count takes one byte up to 250, and else a marker and as many bytes as it needs. -/
lemma length_count (n : Nat) :
    (Wire.count n).length =
      if n ≤ 250 then 1
      else if n < UInt16.size then 3
      else if n < UInt32.size then 5
      else if n < UInt64.size then 9
      else 17 := by
  unfold Wire.count
  repeat' split
  all_goals simp

/-- No spelling of a count is shorter than the one that is written. -/
lemma shortest_count : count.Shortest Wire.count := by
  intro n b h
  cases h with
  | @single x le =>
    have one : x.toNat ≤ 250 := UInt8.le_iff_toNat_le.1 le
    rw [length_count, if_pos one]
    exact Nat.le_refl 1
  | @marked _ width b announces size =>
    -- What fits into so many bytes has no longer form than this one.
    have fits := ofLittleEndian_shiftRight b
    rw [size, Nat.shiftRight_eq_div_pow] at fits
    rw [length_count, List.length_cons, size]
    cases announces with
    | two | four | eight => grind

/-- What is written for a record is shortest if it is for both fields. -/
lemma Shortest.record {first : Spelling α} {second : Spelling β} {write : α → Bytes}
    {write' : β → Bytes} {left : γ → α} {right : γ → β} (h : first.Shortest write)
    (h' : second.Shortest write') :
    (record first second left right).Shortest fun c => write (left c) ++ write' (right c) := by
  rintro c _ ⟨b₁, b₂, spelt, spelt', rfl⟩
  rw [List.length_append, List.length_append]
  exact Nat.add_le_add (h _ _ spelt) (h' _ _ spelt')

/-- What is written for elements in a row is shortest if it is for each of them. -/
lemma Shortest.row {item : Spelling α} {write : α → Bytes} (h : item.Shortest write) :
    (row item).Shortest fun as => as.flatMap write := by
  intro as b spelt
  induction spelt with
  | nil => exact Nat.le_refl 0
  | @cons a as b bs here _ ih =>
    show ((a :: as).flatMap write).length ≤ (b ++ bs).length
    rw [List.flatMap_cons, List.length_append, List.length_append]
    exact Nat.add_le_add (h a b here) ih

/-- What is written for a list is shortest if it is for its elements. -/
lemma Shortest.list {item : Spelling α} {write : α → Bytes} (h : item.Shortest write) :
    (list item).Shortest (Wire.list write) :=
  shortest_count.record h.row

/-- A byte is written in the only way there is. -/
lemma shortest_byte : byte.Shortest fun x => [x] := by
  rintro x _ rfl
  exact Nat.le_refl 1

/-- No spelling of a byte string is shorter than the one that is written. -/
lemma shortest_bytes : bytes.Shortest Wire.bytes := by
  rw [Reader.bytes_eq_list]
  exact shortest_byte.list

/-- No spelling of a signed state is shorter than the one that is written. -/
lemma shortest_signedState : signedState.Shortest Wire.signedState :=
  shortest_bytes.record shortest_bytes.list

/-- No spelling of a transition is shorter than the one that is written. -/
lemma shortest_transition : transition.Shortest Wire.transition :=
  shortest_bytes.record shortest_signedState

/-- No spelling of a proof is shorter than the one that is written. -/
lemma shortest_stateProof : stateProof.Shortest StateProof.encode :=
  shortest_signedState.record shortest_transition.list

end Spelling

namespace Cursor

/-- The cursor from which bytes are read up to this one. -/
def before (c : Cursor) (b : Bytes) : Cursor :=
  ⟨b.length + c.budget, b ++ c.rest⟩

/-- A cursor from which nothing is read stays where it is. -/
lemma before_nil (c : Cursor) : c.before [] = c := by
  cases c
  simp [before]

/-- Bytes are read up to a cursor in two stretches as they are in one. -/
lemma before_append (c : Cursor) (b b' : Bytes) : c.before (b ++ b') = (c.before b').before b := by
  simp [before, Nat.add_assoc]

end Cursor

namespace Reader

variable {b : Bytes} {c c' : Cursor}

/-- A reader succeeds exactly on bytes that start with a spelling, and takes it off the bytes and
off the budget. -/
def Reads (read : Reader α) (spelling : Spelling α) : Prop :=
  ∀ c a c', read c = .ok (a, c') ↔ ∃ b, spelling a b ∧ c = c'.before b

/-- A reader of spellings reads any that are the same. -/
lemma Reads.congr {read : Reader α} {spelling spelling' : Spelling α} (h : read.Reads spelling)
    (same : ∀ a b, spelling a b ↔ spelling' a b) : read.Reads spelling' := by
  intro c a c'
  simp only [h c a c', same]

/-- A reader that takes nothing reads its value from no bytes. -/
lemma reads_pure (a : α) : Reads (fun c => .ok (a, c)) fun a' b => a' = a ∧ b = [] := by
  intro c a' c'
  constructor
  · intro eq
    cases eq
    exact ⟨[], ⟨rfl, rfl⟩, c.before_nil.symm⟩
  · rintro ⟨_, ⟨rfl, rfl⟩, rfl⟩
    rw [c'.before_nil]

/-- A reader that always fails reads no spelling. -/
lemma reads_error (cause : DecodeError) :
    Reads (α := α) (fun _ => .error cause) fun _ _ => False := by
  intro c a c'
  constructor
  · intro eq
    cases eq
  · rintro ⟨_, none, _⟩
    cases none

/-- A byte is read exactly from itself. -/
lemma reads_byte : byte.Reads Spelling.byte := by
  intro c x c'
  constructor
  · intro eq
    match c with
    | ⟨0, _⟩ | ⟨_ + 1, []⟩ => cases eq
    | ⟨n + 1, y :: b⟩ =>
      cases eq
      exact ⟨[x], rfl, by rw [Cursor.before, Nat.add_comm]; rfl⟩
  · rintro ⟨_, rfl, rfl⟩
    have room : 0 < [x].length + c'.budget := by
      rw [List.length_singleton]
      omega
    have read : byte (c'.before [x]) = _ := byte_cons x room
    rwa [List.length_singleton, Nat.add_sub_cancel_left] at read

/-- A chunk is read exactly from as many bytes. -/
lemma reads_take (n : Nat) : (take n).Reads fun chunk b => chunk = b ∧ b.length = n := by
  intro c chunk c'
  constructor
  · intro eq
    unfold take at eq
    split at eq
    next => cases eq
    next room =>
      dsimp only at eq
      split at eq
      next => cases eq
      next enough =>
        cases eq
        have size : (c.rest.take n).length = n := by
          rw [List.length_take] at enough ⊢
          omega
        refine ⟨_, ⟨rfl, size⟩, ?_⟩
        rw [Cursor.before, size, List.take_append_drop]
        have all : n + (c.budget - n) = c.budget := by omega
        rw [all]
  · rintro ⟨_, ⟨rfl, rfl⟩, rfl⟩
    have read := take_append (Nat.le_add_right chunk.length c'.budget) c'.rest
    rwa [Nat.add_sub_cancel_left] at read

/-- Two readers in a row succeed exactly if the second one does after the first one. -/
lemma andThen_eq_ok_iff {first : Reader α} {next : α → Reader β} {y : β} :
    first.andThen next c = .ok (y, c') ↔
      ∃ a c₁, first c = .ok (a, c₁) ∧ next a c₁ = .ok (y, c') := by
  unfold andThen
  cases first c with
  | error cause => exact ⟨nofun, nofun⟩
  | ok read => exact ⟨fun eq => ⟨_, _, rfl, eq⟩, fun ⟨_, _, here, eq⟩ => by cases here; exact eq⟩

/-- Making something of what is read is reading no more after it. -/
lemma map_eq_andThen (f : α → β) (read : Reader α) :
    read.map f = read.andThen fun a c => .ok (f a, c) := by
  rfl

/-- Readers in a row read spellings in a row. -/
lemma Reads.andThen {first : Reader α} {next : α → Reader β} {spelling : Spelling α}
    {spelling' : α → Spelling β} (h : first.Reads spelling)
    (h' : ∀ a, (next a).Reads (spelling' a)) :
    (first.andThen next).Reads fun y b =>
      ∃ a b₁ b₂, spelling a b₁ ∧ spelling' a y b₂ ∧ b = b₁ ++ b₂ := by
  intro c y c'
  rw [andThen_eq_ok_iff]
  constructor
  · rintro ⟨a, c₁, here, later⟩
    obtain ⟨b₁, spelt, rfl⟩ := (h _ _ _).1 here
    obtain ⟨b₂, spelt', rfl⟩ := (h' a _ _ _).1 later
    exact ⟨b₁ ++ b₂, ⟨a, b₁, b₂, spelt, spelt', rfl⟩, (c'.before_append b₁ b₂).symm⟩
  · rintro ⟨_, ⟨a, b₁, b₂, spelt, spelt', rfl⟩, rfl⟩
    rw [c'.before_append]
    exact ⟨a, c'.before b₂, (h _ _ _).2 ⟨b₁, spelt, rfl⟩, (h' a _ _ _).2 ⟨b₂, spelt', rfl⟩⟩

/-- What is made of a value is read from the spellings of that value. -/
lemma Reads.map {read : Reader α} {spelling : Spelling α} (f : α → β) (h : read.Reads spelling) :
    (map f read).Reads fun y b => ∃ a, spelling a b ∧ y = f a := by
  rw [map_eq_andThen]
  refine (h.andThen fun a => reads_pure (f a)).congr fun y b => ?_
  constructor
  · rintro ⟨a, b, _, spelt, ⟨rfl, rfl⟩, rfl⟩
    exact ⟨a, by rwa [List.append_nil], rfl⟩
  · rintro ⟨a, spelt, rfl⟩
    exact ⟨a, b, [], spelt, ⟨rfl, rfl⟩, (List.append_nil b).symm⟩

/-- A marker is no count by itself. -/
lemma Announces.large {marker : UInt8} {width : Nat} (h : Announces marker width) :
    ¬ marker ≤ 250 := by
  cases h with
  | two | four | eight => decide

/-- A marker announces one width only. -/
lemma Announces.unique {marker : UInt8} {width width' : Nat} (h : Announces marker width)
    (h' : Announces marker width') : width = width' := by
  cases h <;> cases h' <;> rfl

/-- After a marker, a count is read from as many bytes as announced. -/
lemma reads_marked {marker : UInt8} {width : Nat} (announces : Announces marker width) :
    ((take width).map ofLittleEndian).Reads fun n b => Spelling.count n (marker :: b) := by
  refine ((reads_take width).map ofLittleEndian).congr fun n b => ?_
  constructor
  · rintro ⟨_, ⟨rfl, size⟩, rfl⟩
    exact .marked announces size
  · intro spelt
    cases spelt with
    | single le => exact absurd le announces.large
    | marked announces' size => exact ⟨b, ⟨rfl, size.trans (announces'.unique announces)⟩, rfl⟩

/-- No count starts with a byte that is neither one nor a marker. -/
lemma reads_unmarked {marker : UInt8} (large : ¬ marker ≤ 250)
    (other : ∀ width, ¬ Announces marker width) (cause : DecodeError) :
    Reads (fun _ => .error cause) fun n b => Spelling.count n (marker :: b) := by
  refine (reads_error cause).congr fun n b => ⟨False.elim, fun spelt => ?_⟩
  cases spelt with
  | single le => exact large le
  | marked announces => exact other _ announces

/-- After its first byte a count is complete, or the bytes follow that this byte announces. -/
lemma reads_afterMarker (marker : UInt8) :
    Reads (α := Nat)
      (if marker ≤ 250 then fun c => .ok (marker.toNat, c)
        else if marker = 251 then (take 2).map ofLittleEndian
        else if marker = 252 then (take 4).map ofLittleEndian
        else if marker = 253 then (take 8).map ofLittleEndian
        else if marker = 254 then fun _ => .error .wideCount
        else fun _ => .error .reservedMarker)
      fun n b => Spelling.count n (marker :: b) := by
  -- A small marker is the count itself. Any other one announces a width, or nothing at all.
  by_cases small : marker ≤ 250
  · rw [if_pos small]
    refine (reads_pure marker.toNat).congr fun n b => ?_
    constructor
    · rintro ⟨rfl, rfl⟩
      exact .single small
    · intro spelt
      cases spelt with
      | single => exact ⟨rfl, rfl⟩
      | marked announces => exact absurd small announces.large
  · rw [if_neg small]
    split
    next eq => exact reads_marked (eq ▸ .two)
    next two =>
      split
      next eq => exact reads_marked (eq ▸ .four)
      next four =>
        split
        next eq => exact reads_marked (eq ▸ .eight)
        next eight =>
          have other (width : Nat) : ¬ Announces marker width := by
            intro announces
            cases announces with
            | two => exact two rfl
            | four => exact four rfl
            | eight => exact eight rfl
          split
          next => exact reads_unmarked small other .wideCount
          next => exact reads_unmarked small other .reservedMarker

/-- Counts are read exactly from their spellings. -/
lemma reads_count : count.Reads Spelling.count := by
  refine (reads_byte.andThen reads_afterMarker).congr fun n b => ?_
  constructor
  · rintro ⟨marker, _, b, rfl, spelt, rfl⟩
    exact spelt
  · intro spelt
    cases spelt with
    | single le => exact ⟨_, _, _, rfl, .single le, rfl⟩
    | marked announces size => exact ⟨_, _, _, rfl, .marked announces size, rfl⟩

/-- Elements are read one after the other, behind those that are done. -/
lemma Reads.repeated {item : Reader α} {spelling : Spelling α} (h : item.Reads spelling)
    (done : List α) (n : Nat) : (repeatedAfter item done n).Reads fun as b =>
      ∃ more, spelling.row more b ∧ more.length = n ∧ as = done.reverse ++ more := by
  -- Each element that is read is done when the next one is, so `done` has to be arbitrary.
  induction n generalizing done with
  | zero =>
    refine (reads_pure done.reverse).congr fun as b => ?_
    constructor
    · rintro ⟨rfl, rfl⟩
      exact ⟨[], .nil, rfl, (List.append_nil _).symm⟩
    · rintro ⟨more, spelt, none, rfl⟩
      cases spelt with
      | nil => exact ⟨List.append_nil _, rfl⟩
      | cons => cases none
  | succ n ih =>
    have step : repeatedAfter item done (n + 1)
        = item.andThen fun a => repeatedAfter item (a :: done) n := by
      funext c
      rfl
    rw [step]
    refine (h.andThen fun a => ih (a :: done)).congr fun as b => ?_
    constructor
    · rintro ⟨a, b₁, b₂, here, ⟨more, later, size, rfl⟩, rfl⟩
      exact ⟨a :: more, .cons here later, congrArg (· + 1) size, by simp⟩
    · rintro ⟨more, spelt, size, rfl⟩
      cases spelt with
      | nil => cases size
      | @cons a more b₁ b₂ here later =>
        exact ⟨a, b₁, b₂, here, ⟨more, later, Nat.succ.inj size, by simp⟩, rfl⟩

/-- Lists are read exactly from their spellings if their elements are. -/
lemma Reads.list {item : Reader α} {spelling : Spelling α} (h : item.Reads spelling) :
    (list item).Reads spelling.list := by
  refine (reads_count.andThen (h.repeated [])).congr fun as b => ?_
  constructor
  · rintro ⟨_, b₁, b₂, counted, ⟨more, spelt, rfl, rfl⟩, rfl⟩
    exact ⟨b₁, b₂, counted, spelt, rfl⟩
  · rintro ⟨b₁, b₂, counted, spelt, rfl⟩
    exact ⟨_, b₁, b₂, counted, ⟨as, spelt, rfl, rfl⟩, rfl⟩

/-- A record of two parts is read if both parts are. -/
lemma Reads.record {first : Reader α} {second : Reader β} {spelling : Spelling α}
    {spelling' : Spelling β} {left : γ → α} {right : γ → β} (make : α → β → γ)
    (h : first.Reads spelling) (h' : second.Reads spelling')
    (whole : ∀ c, make (left c) (right c) = c) (lefts : ∀ a b, left (make a b) = a)
    (rights : ∀ a b, right (make a b) = b) :
    (first.andThen fun a => second.map (make a)).Reads (spelling.record spelling' left right) := by
  refine (h.andThen fun a => h'.map (make a)).congr fun c b => ?_
  constructor
  · rintro ⟨x, b₁, b₂, spelt, ⟨y, spelt', rfl⟩, rfl⟩
    exact ⟨b₁, b₂, (lefts x y).symm ▸ spelt, (rights x y).symm ▸ spelt', rfl⟩
  · rintro ⟨b₁, b₂, spelt, spelt', rfl⟩
    exact ⟨left c, b₁, b₂, spelt, ⟨right c, spelt', (whole c).symm⟩, rfl⟩

/-- Byte strings are read exactly from their spellings. -/
lemma reads_bytes : bytes.Reads Spelling.bytes :=
  reads_byte.list

/-- Signed states are read exactly from their spellings. -/
lemma reads_signedState : signedState.Reads Spelling.signedState :=
  .record SignedState.mk reads_bytes reads_bytes.list (fun _ => rfl) (fun _ _ => rfl) fun _ _ => rfl

/-- Transitions are read exactly from their spellings. -/
lemma reads_transition : transition.Reads Spelling.transition :=
  .record Transition.mk reads_bytes reads_signedState (fun _ => rfl) (fun _ _ => rfl) fun _ _ => rfl

/-- Proofs are read exactly from their spellings. -/
lemma reads_stateProof : stateProof.Reads Spelling.stateProof :=
  .record StateProof.mk reads_signedState reads_transition.list (fun _ => rfl) (fun _ _ => rfl)
    fun _ _ => rfl

/-- No spelling starts another one. -/
lemma Reads.eq_of_prefix {read : Reader α} {spelling : Spelling α} (h : read.Reads spelling)
    {a a' : α} {b' : Bytes} (spelt : spelling a b) (spelt' : spelling a' b') (start : b <+: b') :
    b = b' := by
  obtain ⟨rest, rfl⟩ := start
  let last : Cursor := ⟨0, []⟩
  have whole := (h (last.before (b ++ rest)) a' last).2 ⟨_, spelt', rfl⟩
  have part := (h (last.before (b ++ rest)) a (last.before rest)).2
    ⟨b, spelt, last.before_append ..⟩
  rw [whole] at part
  have same : last = last.before rest := (Prod.mk.inj (Except.ok.inj part)).2
  have none : [] = rest ++ [] := congrArg Cursor.rest same
  rw [List.append_nil] at none
  rw [← none, List.append_nil]

end Reader

end StateChannel.Wire
