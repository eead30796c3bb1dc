import StateChannel.Bytes

/-!
# Hexadecimal text

Bytes are written as two lower-case digits each. Reading takes digits of either case, so a text that
reads back is the written form up to case.
-/

namespace StateChannel.Hex

/-- The two digits of a byte, the higher one first. -/
def digits (b : UInt8) : List Char :=
  [Nat.digitChar (b.toNat / 16), Nat.digitChar (b.toNat % 16)]

/-- The written form of a byte string. -/
def encode (b : Bytes) : String :=
  String.ofList (b.flatMap digits)

/-- The value of a digit of either case. -/
def value? (c : Char) : Option Nat :=
  if '0' ≤ c ∧ c ≤ '9' then some (c.toNat - '0'.toNat)
  else if 'a' ≤ c ∧ c ≤ 'f' then some (c.toNat - 'a'.toNat + 10)
  else if 'A' ≤ c ∧ c ≤ 'F' then some (c.toNat - 'A'.toNat + 10)
  else none

/-- The bytes that pairs of digits stand for. -/
def ofDigits? : List Char → Option Bytes
  | [] => some []
  | [_] => none
  | c :: d :: r => do
    let high ← value? c
    let low ← value? d
    let rest ← ofDigits? r
    return UInt8.ofNat (16 * high + low) :: rest

/-- The bytes that a text stands for, unless it is of odd length or holds something else than
digits. -/
def decode? (s : String) : Option Bytes :=
  ofDigits? s.toList

/-- A hexadecimal digit has the value that it was written for. -/
theorem value?_digitChar {n : Nat} (h : n < 16) : value? (Nat.digitChar n) = some n := by
  revert n
  decide

/-- The digits of a byte string read back. -/
theorem ofDigits?_flatMap (b : Bytes) : ofDigits? (b.flatMap digits) = some b := by
  induction b with
  | nil => rfl
  | cons x b ih =>
    have hx := x.toNat_lt
    have high := value?_digitChar (n := x.toNat / 16) (by omega)
    have low := value?_digitChar (n := x.toNat % 16) (by omega)
    have join : 16 * (x.toNat / 16) + x.toNat % 16 = x.toNat := Nat.div_add_mod ..
    simp only [List.flatMap_cons, digits, List.cons_append, List.nil_append, ofDigits?, high, low,
      ih, bind, Option.bind, join, UInt8.ofNat_toNat]
    rfl

/-- What was written reads back. -/
@[simp] theorem decode?_encode (b : Bytes) : decode? (encode b) = some b := by
  simp [decode?, encode, ofDigits?_flatMap]

/-- Different byte strings have different written forms. -/
theorem encode_injective {b c : Bytes} (h : encode b = encode c) : b = c := by
  have hb := decode?_encode b
  rw [h, decode?_encode] at hb
  exact (Option.some.inj hb).symm

/-- The written form has two digits for each byte. -/
theorem length_encode (b : Bytes) : (encode b).length = 2 * b.length := by
  induction b with
  | nil => rfl
  | cons x b ih =>
    simp only [encode, String.length_ofList, List.flatMap_cons, List.length_append] at ih ⊢
    rw [ih, List.length_cons, Nat.mul_succ, Nat.add_comm]
    rfl

/-- The digits of a byte are those of numbers below 16. -/
theorem exists_of_mem_digits {x : UInt8} {c : Char} (h : c ∈ digits x) :
    ∃ n < 16, c = Nat.digitChar n := by
  have hx := x.toNat_lt
  simp only [digits, List.mem_cons, List.not_mem_nil, or_false] at h
  rcases h with rfl | rfl
  · exact ⟨_, by omega, rfl⟩
  · exact ⟨_, by omega, rfl⟩

/-- No hexadecimal digit is encoded with a zero byte. -/
theorem zero_not_mem_utf8EncodeChar {n : Nat} (h : n < 16) :
    0 ∉ String.utf8EncodeChar (Nat.digitChar n) := by
  revert n
  decide

/-- No byte of the written form is zero. -/
theorem zero_not_mem_encode (b : Bytes) : 0 ∉ Bytes.ofText (encode b) := by
  intro mem
  rw [encode, Bytes.ofText_ofList] at mem
  obtain ⟨c, mem, zero⟩ := List.mem_flatMap.1 mem
  obtain ⟨x, _, mem⟩ := List.mem_flatMap.1 mem
  obtain ⟨n, lt, rfl⟩ := exists_of_mem_digits mem
  exact zero_not_mem_utf8EncodeChar lt zero

end StateChannel.Hex
