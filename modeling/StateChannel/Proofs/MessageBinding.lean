import StateChannel.Proofs.ForeignSignatures

/-!
# What a signed message binds

The bytes that a signature covers hold five parts with zero bytes between them. Channel and epoch
are written without zero bytes, and the data come last, but a game and a topic may have zero bytes
of their own. Along with how many they have, the covered bytes tell all five parts. Without that
they do not: what the data begin with can be taken for the end of the topic, and channel and epoch
for the end of the game.
-/

namespace StateChannel

namespace Signing

/-- What a signature is made for. -/
structure Context where
  game : String
  channel : ChannelId
  epoch : EpochId
  topic : String
  data : Bytes
deriving DecidableEq

namespace Context

/-- The bytes that the signature covers. -/
def content (c : Context) : Bytes :=
  Signing.content c.game c.channel c.epoch c.topic c.data

/-- The message that is signed. -/
def message (c : Context) : String :=
  Signing.message c.game c.channel c.epoch c.topic c.data

/-- How many zero bytes the encodings of game and topic have. -/
def zeros (c : Context) : Nat × Nat :=
  ((Bytes.ofText c.game).count 0, (Bytes.ofText c.topic).count 0)

variable {c c' : Context}

/-- The covered bytes fix what is signed, if the zero bytes in game and topic are known. -/
lemma eq_of_content_eq (same : c.content = c'.content) (zeros : c.zeros = c'.zeros) : c = c' := by
  cases c with
  | mk game id e topic data =>
  cases c' with
  | mk game' id' e' topic' data' =>
  obtain ⟨games, topics⟩ := Prod.mk.inj zeros
  simp only [content, content_eq] at same
  -- The separators are found one after the other. The last part needs none after it.
  obtain ⟨game, same⟩ := separator_inj games same
  obtain ⟨channel, same⟩ := separator_inj (zeros_hex id.bytes id'.bytes) same
  obtain ⟨epoch, same⟩ := separator_inj (zeros_hex e.bytes e'.bytes) same
  obtain ⟨topic, rfl⟩ := separator_inj topics same
  obtain rfl := Bytes.ofText_injective game
  obtain rfl := ChannelId.hex_injective (Bytes.ofText_injective channel)
  obtain rfl := EpochId.hex_injective (Bytes.ofText_injective epoch)
  obtain rfl := Bytes.ofText_injective topic
  rfl

/-- The same message covers the same bytes, or there is a collision. -/
lemma content_eq_or_collide (same : c.message = c'.message) :
    c.content = c'.content ∨ Sha256.Collide [c.content] [c'.content] :=
  Sha256.eq_or_collide (.head _) (.head _) (Hex.encode_injective same)

variable {game topic : String} {id id' : ChannelId} {e e' : EpochId} {data : Bytes}

/-- The text of one NUL is encoded as a zero byte. -/
lemma ofText_nul : Bytes.ofText "\x00" = [0] := by
  decide

/-- What the data begin with can be taken for the end of the topic. -/
lemma content_append_topic (rest : String) :
    content ⟨game, id, e, topic, Bytes.ofText rest ++ 0 :: data⟩
      = content ⟨game, id, e, topic ++ "\x00" ++ rest, data⟩ := by
  simp [content, content_eq, Bytes.ofText_append, ofText_nul]

/-- Channel and epoch can be taken for the end of the game if the topic reads as an epoch. -/
lemma content_append_game :
    content ⟨game, id, ⟨id'.bytes⟩, e'.hex, Bytes.ofText topic ++ 0 :: data⟩
      = content ⟨game ++ "\x00" ++ id.hex, id', e', topic, data⟩ := by
  have written : (⟨id'.bytes⟩ : EpochId).hex = id'.hex := rfl
  simp [content, content_eq, Bytes.ofText_append, ofText_nul, written]

variable {State : Type} {rules : GameRules State} {m : Metadata} {topic' : String} {data' : Bytes}
variable {seat : Nat} {address : String}

/-- A signature by digest counts wherever the bytes that it covers are covered. -/
lemma mem_signers_of_content_eq (sits : seat ∈ m.seatsOf address)
    (same : content ⟨game, id, m.epoch, topic, data⟩ = content ⟨game, id, m.epoch, topic', data'⟩) :
    seat ∈ (DigestScheme.channel rules id game).signers m topic'
      ⟨data', [DigestScheme.sign address (message ⟨game, id, m.epoch, topic, data⟩)]⟩ := by
  obtain ⟨p, seated, rfl⟩ := Option.map_eq_some_iff.1 (Metadata.mem_seatsOf_iff.1 sits)
  have messages : message ⟨game, id, m.epoch, topic, data⟩
      = message ⟨game, id, m.epoch, topic', data'⟩ :=
    congrArg (fun bytes => Hex.encode (Sha256.digest bytes)) same
  refine (Channel.mem_signers_iff _).2 ⟨p, _, seated, .head _, ?_⟩
  rw [messages, DigestScheme.recover_channel]
  exact DigestScheme.recover_eq_some_iff.2 rfl

/-- Covered bytes are the same for the same parts, and for others only if their games or their
topics have different numbers of zero bytes. Apart from that, two signatures for different parts are
made on different messages unless the bytes that they cover collide. -/
theorem content_binds_all (c c' : Context) :
    (c.content = c'.content ∧ c.zeros = c'.zeros ↔ c = c') ∧
    (c ≠ c' → c.zeros = c'.zeros →
      c.message ≠ c'.message ∨ Sha256.Collide [c.content] [c'.content]) := by
  refine ⟨⟨fun ⟨same, zeros⟩ => eq_of_content_eq same zeros, ?_⟩, fun ne zeros => ?_⟩
  · rintro rfl
    exact ⟨rfl, rfl⟩
  · by_cases same : c.message = c'.message
    · have distinct : c.content ≠ c'.content := fun same => ne (eq_of_content_eq same zeros)
      exact .inr ((content_eq_or_collide same).resolve_left distinct)
    · exact .inl same

open AdditionGame in
/-- So the first move of an addition game is signed by another message than in the next epoch. -/
theorem content_binds_all_rematch :
    let c : Context := ⟨"add", (hall {}).id, seating.epoch, stateTopic, encode 11 1⟩
    let c' : Context := { c with epoch := rematch.epoch }
    c ≠ c' ∧ c.zeros = c'.zeros ∧ c.content ≠ c'.content ∧
      (c.message ≠ c'.message ∨ Sha256.Collide [c.content] [c'.content]) := by
  intro c c'
  have ne : c ≠ c' := by decide
  have zeros : c.zeros = c'.zeros := rfl
  obtain ⟨binds, collides⟩ := content_binds_all c c'
  exact ⟨ne, zeros, fun same => ne (binds.1 ⟨same, zeros⟩), collides ne zeros⟩

open AdditionGame in
/-- Zero bytes move the ends of topic and game. A signature on some data counts on other data under
another topic, and the same bytes are covered for five parts all of which differ. -/
theorem content_not_binding :
    (let c : Context := ⟨"add", (hall {}).id, seating.epoch, "a", [0, 0x62]⟩
      let c' : Context := ⟨"add", (hall {}).id, seating.epoch, "a\x00", [0x62]⟩
      c ≠ c' ∧ c.content = c'.content ∧
        0 ∈ (hall {}).signers seating c'.topic ⟨c'.data, [DigestScheme.sign "addr 0" c.message]⟩) ∧
    ∃ c c' : Context, c.content = c'.content ∧ c.game ≠ c'.game ∧ c.channel ≠ c'.channel ∧
      c.epoch ≠ c'.epoch ∧ c.topic ≠ c'.topic ∧ c.data ≠ c'.data := by
  constructor
  · intro c c'
    have same : c.content = c'.content := content_append_topic ""
    have ne : c ≠ c' := by decide
    have seated : 0 ∈ seating.seatsOf "addr 0" := by decide
    exact ⟨ne, same, mem_signers_of_content_eq seated same⟩
  · let other : ChannelId := ⟨List.replicate 32 0xbb, rfl⟩
    refine ⟨⟨"add", (hall {}).id, ⟨other.bytes⟩, seating.epoch.hex, Bytes.ofText "state" ++ [0]⟩,
      ⟨"add" ++ "\x00" ++ (hall {}).id.hex, other, seating.epoch, "state", []⟩,
      content_append_game, ?_, ?_, ?_, ?_, ?_⟩
    all_goals decide

end Context

end Signing

end StateChannel
