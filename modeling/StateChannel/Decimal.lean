import StateChannel.Bytes

/-!
# Decimal numerals

Numbers are written in decimal without leading zeros. An unsigned numeral is read with an optional
plus sign and any number of leading zeros, and refused when it exceeds the width it is read at.
-/

namespace StateChannel.Decimal

/-- The written form of a number. -/
def digits (n : Nat) : List Char :=
  Nat.toDigits 10 n

/-- The value of a nonempty sequence of decimal digits. -/
def value? (cs : List Char) : Option Nat :=
  if cs ≠ [] ∧ cs.all Char.isDigit then some (Nat.ofDigitChars 10 cs 0) else none

/-- A numeral without the plus sign it may start with. -/
def unsigned : List Char → List Char
  | '+' :: r => r
  | cs => cs

/-- The value of a numeral, if it is below `bound`. -/
def below? (bound : Nat) (cs : List Char) : Option Nat :=
  (value? (unsigned cs)).filter (· < bound)

/-- The value of a numeral as a 32-bit number. -/
def uint32? (cs : List Char) : Option UInt32 :=
  (below? UInt32.size cs).map UInt32.ofNat

/-- The value of a numeral as a 64-bit number. -/
def uint64? (cs : List Char) : Option UInt64 :=
  (below? UInt64.size cs).map UInt64.ofNat

/-- Every number has a digit. -/
theorem digits_ne_nil (n : Nat) : digits n ≠ [] := by
  simp [digits, Nat.toDigits_ne_nil]

/-- A number is written in decimal digits only. -/
theorem isDigit_of_mem_digits {n : Nat} {c : Char} (h : c ∈ digits n) : c.isDigit :=
  Nat.isDigit_of_mem_toDigits (by decide) (by decide) h

/-- What was written reads back. -/
@[simp] theorem value?_digits (n : Nat) : value? (digits n) = some n := by
  have all : (digits n).all Char.isDigit := by
    simpa using fun c h => isDigit_of_mem_digits h
  have back : Nat.ofDigitChars 10 (digits n) 0 = n :=
    Nat.ofDigitChars_toDigits (by decide) (by decide)
  simp [value?, digits_ne_nil, all, back]

/-- The written form has no sign. -/
theorem unsigned_digits (n : Nat) : unsigned (digits n) = digits n := by
  unfold unsigned
  split
  next eq =>
    have digit : Char.isDigit '+' := isDigit_of_mem_digits (eq ▸ List.mem_cons_self ..)
    cases digit
  next => rfl

/-- A number below the bound reads back. -/
theorem below?_digits {bound n : Nat} (h : n < bound) : below? bound (digits n) = some n := by
  simp [below?, unsigned_digits, h]

/-- A 32-bit number that was written reads back. -/
@[simp] theorem uint32?_digits (n : UInt32) : uint32? (digits n.toNat) = some n := by
  simp [uint32?, below?_digits n.toNat_lt_size]

end StateChannel.Decimal
