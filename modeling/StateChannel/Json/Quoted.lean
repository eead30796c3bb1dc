import StateChannel.Hex

/-!
# Quoted text

Between quotes, a quote, a backslash and the control characters are written as escapes and all other
characters stand for themselves. Reading takes every escape of the format. An escape may name half
of a surrogate pair, and the spelling is a text only if such halves come in pairs.
-/

namespace StateChannel.Json.Quoted

/-- The spelling of a character. -/
def encodeChar (c : Char) : List Char :=
  match c with
  | '"' => ['\\', '"']
  | '\\' => ['\\', '\\']
  | '\x08' => ['\\', 'b']
  | '\x0c' => ['\\', 'f']
  | '\n' => ['\\', 'n']
  | '\r' => ['\\', 'r']
  | '\t' => ['\\', 't']
  | c =>
    if c.toNat < 0x20 then '\\' :: 'u' :: '0' :: '0' :: Hex.digits (UInt8.ofNat c.toNat) else [c]

/-- The spelling of a text. -/
def encode (cs : List Char) : List Char :=
  cs.flatMap encodeChar

/-- The character that a backslash and a letter stand for. -/
def escape? : Char → Option Char
  | '"' => some '"'
  | '\\' => some '\\'
  | '/' => some '/'
  | 'b' => some '\x08'
  | 'f' => some '\x0c'
  | 'n' => some '\n'
  | 'r' => some '\r'
  | 't' => some '\t'
  | _ => none

/-- The number that four hexadecimal digits stand for. -/
def unit? (a b c d : Char) : Option Nat := do
  let a ← Hex.value? a
  let b ← Hex.value? b
  let c ← Hex.value? c
  let d ← Hex.value? d
  return ((a * 16 + b) * 16 + c) * 16 + d

/-- The code points of a spelling, where an escape may give half of a surrogate pair. -/
def points? : List Char → Option (List Nat)
  | [] => some []
  | '\\' :: 'u' :: a :: b :: c :: d :: r => do
    let point ← unit? a b c d
    let rest ← points? r
    return point :: rest
  | '\\' :: e :: r => do
    let c ← escape? e
    let rest ← points? r
    return c.toNat :: rest
  | ['\\'] => none
  | c :: r => (points? r).map (c.toNat :: ·)

/-- The characters of a sequence of code points in which surrogates come in pairs. -/
def pair? : List Nat → Option (List Char)
  | [] => some []
  | [p] => if h : p.isValidChar then some [Char.ofNatAux p h] else none
  | p :: q :: r =>
    if h : p.isValidChar then (pair? (q :: r)).map (Char.ofNatAux p h :: ·)
    else if 0xD800 ≤ p ∧ p < 0xDC00 ∧ 0xDC00 ≤ q ∧ q < 0xE000 then
      (pair? r).map (Char.ofNat (0x10000 + (p - 0xD800) * 0x400 + (q - 0xDC00)) :: ·)
    else none

/-- The text that a spelling stands for, if it stands for one. -/
def decode? (spelling : List Char) : Option (List Char) :=
  points? spelling >>= pair?

end StateChannel.Json.Quoted
