import StateChannel.Bytes

/-!
# Counts on the wire

A count of up to 250 is one byte. A greater one is a marker and the bytes of the number, the least
significant one first: marker 251 announces two bytes, 252 four and 253 eight.
-/

namespace StateChannel.Wire

/-- The lowest `n` bytes of a number, the least significant one first. -/
def littleEndian : Nat → Nat → Bytes
  | 0, _ => []
  | n + 1, x => UInt8.ofNat x :: littleEndian n (x / 256)

/-- The number that bytes form, the least significant one first. -/
def ofLittleEndian : Bytes → Nat
  | [] => 0
  | b :: r => b.toNat + 256 * ofLittleEndian r

/-- The shortest form of a count. A count of 2 ^ 64 or more gets the marker 254, which no reader
takes. -/
def count (n : Nat) : Bytes :=
  if n ≤ 250 then [UInt8.ofNat n]
  else if n < UInt16.size then 251 :: littleEndian 2 n
  else if n < UInt32.size then 252 :: littleEndian 4 n
  else if n < UInt64.size then 253 :: littleEndian 8 n
  else 254 :: littleEndian 16 n

/-- A number takes as many bytes as asked for. -/
@[simp] theorem length_littleEndian (n x : Nat) : (littleEndian n x).length = n := by
  induction n generalizing x with
  | zero => rfl
  | succ n ih => simp [littleEndian, ih]

/-- A number reads back from its lowest bytes if nothing remains above them. -/
theorem ofLittleEndian_littleEndian {n x : Nat} (h : x >>> (8 * n) = 0) :
    ofLittleEndian (littleEndian n x) = x := by
  induction n generalizing x with
  | zero => exact h.symm
  | succ n ih =>
    have div : x >>> 8 = x / 256 := Nat.shiftRight_eq_div_pow x 8
    have rest : (x / 256) >>> (8 * n) = 0 := by
      rwa [Nat.mul_succ, Nat.add_comm, Nat.shiftRight_add, div] at h
    have low : (UInt8.ofNat x).toNat = x % 256 := UInt8.toNat_ofNat' ..
    rw [littleEndian, ofLittleEndian, ih rest, low]
    exact Nat.mod_add_div x 256

end StateChannel.Wire
