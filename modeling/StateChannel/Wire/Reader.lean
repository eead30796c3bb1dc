import StateChannel.Wire.Count

/-!
# Reading the wire

Reading goes on from a cursor: the bytes that are left and the budget of bytes that may still be
read. Every single read takes its size from the budget before it looks at the bytes. A count is not
checked beforehand, so a count that is too great ends in a lack of budget or of bytes.
-/

namespace StateChannel.Wire

/-- Why bytes are no encoded value. -/
inductive DecodeError
  /-- There are more bytes than allowed. -/
  | tooLong (size : Nat) (limit : Nat)
  /-- The budget is too small for the next read. -/
  | limitReached
  /-- The bytes end within the next read. -/
  | truncated
  /-- A count is announced to have sixteen bytes. -/
  | wideCount
  /-- A count starts with the byte 255. -/
  | reservedMarker
deriving DecidableEq, Repr

/-- The wording of a decoding error. -/
def DecodeError.message : DecodeError → String
  | tooLong size limit => s!"proof of {size} bytes exceeds limit of {limit}"
  | limitReached => "the size limit has been reached"
  | truncated => "io error: failed to fill whole buffer"
  | wideCount =>
    "Invalid value (u128 range): you may have a version or configuration disagreement?"
  | reservedMarker =>
    "\nByte 255 is treated as an extension point; it should not be encoding anything.\n"
      ++ "Do you have a mismatched bincode version or configuration?\n"

/-- Where reading goes on. -/
structure Cursor where
  /-- How many bytes may still be read. -/
  budget : Nat
  /-- The bytes that are left. -/
  rest : Bytes

/-- A reader of a value from a cursor. -/
abbrev Reader (α : Type) := Cursor → Except DecodeError (α × Cursor)

namespace Reader

/-- A value followed by one that depends on it. -/
@[inline] def andThen {α β : Type} (first : Reader α) (next : α → Reader β) : Reader β := fun c =>
  match first c with
  | .ok (a, c) => next a c
  | .error e => .error e

/-- The image of a value. -/
@[inline] def map {α β : Type} (f : α → β) (first : Reader α) : Reader β := fun c =>
  match first c with
  | .ok (a, c) => .ok (f a, c)
  | .error e => .error e

/-- The next `n` bytes in a single read. -/
def take (n : Nat) : Reader Bytes := fun c =>
  if c.budget < n then .error .limitReached
  else
    let chunk := c.rest.take n
    if chunk.length < n then .error .truncated
    else .ok (chunk, { budget := c.budget - n, rest := c.rest.drop n })

/-- The next byte. -/
def byte : Reader UInt8 := fun c =>
  match c.budget, c.rest with
  | 0, _ => .error .limitReached
  | _ + 1, [] => .error .truncated
  | n + 1, b :: r => .ok (b, { budget := n, rest := r })

/-- A count, in any of its forms. -/
def count : Reader Nat :=
  byte.andThen fun marker =>
    if marker ≤ 250 then fun c => .ok (marker.toNat, c)
    else if marker = 251 then (take 2).map ofLittleEndian
    else if marker = 252 then (take 4).map ofLittleEndian
    else if marker = 253 then (take 8).map ofLittleEndian
    else if marker = 254 then fun _ => .error .wideCount
    else fun _ => .error .reservedMarker

/-- The values `done`, the latest first, and `n` further ones. -/
def repeatedAfter {α : Type} (item : Reader α) : List α → Nat → Reader (List α)
  | done, 0, c => .ok (done.reverse, c)
  | done, n + 1, c =>
    match item c with
    | .ok (a, c) => repeatedAfter item (a :: done) n c
    | .error e => .error e

/-- A count and as many values. -/
def list {α : Type} (item : Reader α) : Reader (List α) :=
  count.andThen (repeatedAfter item [])

/-- A byte string. -/
def bytes : Reader Bytes :=
  list byte

end Reader

end StateChannel.Wire
