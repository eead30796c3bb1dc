import StateChannel.Bytes

/-!
# The SHA-256 digest

A message is padded to blocks of 64 bytes. Each block is mixed into eight 32-bit words by 64 rounds,
which extend the sixteen words of the block as they go.
-/

namespace StateChannel.Sha256

/-- The round constants. -/
def constants : List UInt32 :=
  [0x428a2f98, 0x71374491, 0xb5c0fbcf, 0xe9b5dba5, 0x3956c25b, 0x59f111f1, 0x923f82a4, 0xab1c5ed5,
   0xd807aa98, 0x12835b01, 0x243185be, 0x550c7dc3, 0x72be5d74, 0x80deb1fe, 0x9bdc06a7, 0xc19bf174,
   0xe49b69c1, 0xefbe4786, 0x0fc19dc6, 0x240ca1cc, 0x2de92c6f, 0x4a7484aa, 0x5cb0a9dc, 0x76f988da,
   0x983e5152, 0xa831c66d, 0xb00327c8, 0xbf597fc7, 0xc6e00bf3, 0xd5a79147, 0x06ca6351, 0x14292967,
   0x27b70a85, 0x2e1b2138, 0x4d2c6dfc, 0x53380d13, 0x650a7354, 0x766a0abb, 0x81c2c92e, 0x92722c85,
   0xa2bfe8a1, 0xa81a664b, 0xc24b8b70, 0xc76c51a3, 0xd192e819, 0xd6990624, 0xf40e3585, 0x106aa070,
   0x19a4c116, 0x1e376c08, 0x2748774c, 0x34b0bcb5, 0x391c0cb3, 0x4ed8aa4a, 0x5b9cca4f, 0x682e6ff3,
   0x748f82ee, 0x78a5636f, 0x84c87814, 0x8cc70208, 0x90befffa, 0xa4506ceb, 0xbef9a3f7, 0xc67178f2]

/-- The eight words that the rounds mix. -/
structure Words where
  (a b c d e f g h : UInt32)

/-- The words before the first block. -/
def Words.initial : Words where
  a := 0x6a09e667
  b := 0xbb67ae85
  c := 0x3c6ef372
  d := 0xa54ff53a
  e := 0x510e527f
  f := 0x9b05688c
  g := 0x1f83d9ab
  h := 0x5be0cd19

/-- Wordwise sum. -/
def Words.add (x y : Words) : Words where
  a := x.a + y.a
  b := x.b + y.b
  c := x.c + y.c
  d := x.d + y.d
  e := x.e + y.e
  f := x.f + y.f
  g := x.g + y.g
  h := x.h + y.h

/-- A word rotated to the right. -/
def rotate (x n : UInt32) : UInt32 :=
  x >>> n ||| x <<< (32 - n)

/-- The next sixteen words of the schedule: the oldest word leaves and a new one joins. -/
def slide (window : Vector UInt32 16) : Vector UInt32 16 :=
  let x := window[1]
  let y := window[14]
  let next := (rotate y 17 ^^^ rotate y 19 ^^^ y >>> 10) + window[9]
    + (rotate x 7 ^^^ rotate x 18 ^^^ x >>> 3) + window[0]
  (window.extract 1).push next

/-- One round with the word `w` of the schedule and the constant `k`. -/
def Words.round (s : Words) (w k : UInt32) : Words :=
  let t := s.h + (rotate s.e 6 ^^^ rotate s.e 11 ^^^ rotate s.e 25)
    + ((s.e &&& s.f) ^^^ (~~~s.e &&& s.g)) + k + w
  let u := (rotate s.a 2 ^^^ rotate s.a 13 ^^^ rotate s.a 22)
    + ((s.a &&& s.b) ^^^ (s.a &&& s.c) ^^^ (s.b &&& s.c))
  { a := t + u, b := s.a, c := s.b, d := s.c, e := s.d + t, f := s.e, g := s.f, h := s.g }

/-- A block mixed into the words. -/
def Words.compress (s : Words) (block : Vector UInt32 16) : Words :=
  let (mixed, _) := constants.foldl
    (fun (t, window) k => (t.round window[0] k, slide window)) (s, block)
  s.add mixed

/-- The word that four bytes starting at place `i` form, the most significant one first. -/
def wordAt (block : Array UInt8) (i : Nat) : UInt32 :=
  let byte (j : Nat) := (block.getD (i + j) 0).toUInt32
  byte 0 <<< 24 ||| byte 1 <<< 16 ||| byte 2 <<< 8 ||| byte 3

/-- The first `n` blocks of a padded message mixed into the words. -/
def Words.absorb : Nat → Words → Bytes → Words
  | 0, s, _ => s
  | n + 1, s, message =>
    let block := (message.take 64).toArray
    Words.absorb n (s.compress (Vector.ofFn fun i => wordAt block (4 * i))) (message.drop 64)

/-- The lowest `n` bytes of a number, the most significant one first. -/
def bigEndian : Nat → Nat → Bytes
  | 0, _ => []
  | n + 1, x => bigEndian n (x / 256) ++ [UInt8.ofNat x]

/-- A message followed by a one bit, zeros up to a whole block, and its length in bits. -/
def pad (message : Bytes) : Bytes :=
  message ++ 0x80 :: List.replicate ((119 - message.length % 64) % 64) 0
    ++ bigEndian 8 (8 * message.length)

/-- The bytes of the eight words in order. -/
def Words.bytes (s : Words) : Bytes :=
  [s.a, s.b, s.c, s.d, s.e, s.f, s.g, s.h].flatMap fun w => bigEndian 4 w.toNat

/-- The digest of a message. -/
def digest (message : Bytes) : Bytes :=
  let padded := pad message
  (Words.initial.absorb (padded.length / 64) padded).bytes

/-- A digest has 32 bytes. -/
theorem length_digest (message : Bytes) : (digest message).length = 32 :=
  rfl

end StateChannel.Sha256
