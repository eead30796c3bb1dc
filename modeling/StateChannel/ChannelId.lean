import StateChannel.Hex

/-!
# Channel identifiers

A channel is named by 32 bytes, written as 64 hexadecimal digits.
-/

namespace StateChannel

/-- The globally unique name of a channel. -/
structure ChannelId where
  bytes : Bytes
  length_bytes : bytes.length = 32
deriving DecidableEq

namespace ChannelId

/-- Why a text is not a channel identifier. -/
inductive ParseError
  /-- The text is not made of pairs of hexadecimal digits. -/
  | notHex
  /-- The text stands for another number of bytes. -/
  | wrongLength (size : Nat)
deriving DecidableEq, Repr

/-- The wording of a parse error. -/
def ParseError.message : ParseError → String
  | .notHex => "Channel id is not valid hex"
  | .wrongLength size => s!"Channel id has {size} bytes, expected 32"

/-- The identifier that a byte string is, if it has the right length. -/
def ofBytes? (b : Bytes) : Option ChannelId :=
  if h : b.length = 32 then some ⟨b, h⟩ else none

/-- The identifier that a text stands for. -/
def ofHex (s : String) : Except ParseError ChannelId :=
  match Hex.decode? s with
  | none => .error .notHex
  | some b => if h : b.length = 32 then .ok ⟨b, h⟩ else .error (.wrongLength b.length)

/-- The written form of an identifier. -/
def hex (id : ChannelId) : String :=
  Hex.encode id.bytes

/-- The bytes of a channel name are those of a channel. -/
@[simp] theorem ofBytes?_bytes (id : ChannelId) : ofBytes? id.bytes = some id :=
  dif_pos id.length_bytes

/-- A channel name that is written in hexadecimal digits reads back. -/
@[simp] theorem ofHex_hex (id : ChannelId) : ofHex id.hex = .ok id := by
  simp [ofHex, hex, id.length_bytes]

/-- Different identifiers have different written forms. -/
theorem hex_injective {id id' : ChannelId} (h : id.hex = id'.hex) : id = id' := by
  have read := ofHex_hex id
  rw [h, ofHex_hex] at read
  exact (Except.ok.inj read).symm

end ChannelId

end StateChannel
