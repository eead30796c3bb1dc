import Mathlib.Data.List.Basic
import StateChannel.Proofs.SignedDrafts

/-!
# Signatures do not carry over to other epochs

A signature covers the game, the channel and the epoch that it is made for. The written identifiers
of channel and epoch have no zero byte, so it can be told from the covered bytes where they end,
whatever follows them. A signature by digest that was made for another epoch or another channel is
therefore no signature of anybody, unless two different byte strings that were hashed to make and to
check it have the same digest.

A proof with such signatures alone has no signers. It can only be valid where no signature is asked
for: without transitions, from the founding state of the epoch or in an epoch without participants.
-/

namespace StateChannel

namespace Sha256

/-- Two different byte strings, one of each list, have the same digest. -/
def Collide (xs ys : List Bytes) : Prop :=
  ∃ x ∈ xs, ∃ y ∈ ys, x ≠ y ∧ digest x = digest y

variable {xs xs' ys ys' : List Bytes} {x y : Bytes}

/-- A collision is one among more messages as well. -/
lemma Collide.mono (h : Collide xs ys) (left : xs ⊆ xs') (right : ys ⊆ ys') :
    Collide xs' ys' := by
  obtain ⟨x, hx, y, hy, ne, same⟩ := h
  exact ⟨x, left hx, y, right hy, ne, same⟩

/-- Messages with the same digest are the same, or they collide. -/
lemma eq_or_collide (hx : x ∈ xs) (hy : y ∈ ys) (same : digest x = digest y) :
    x = y ∨ Collide xs ys := by
  by_cases eq : x = y
  · exact .inl eq
  · exact .inr ⟨x, hx, y, hy, eq, same⟩

end Sha256

namespace Signing

variable {game topic topic' : String} {id id' : ChannelId} {e e' : EpochId} {data data' : Bytes}

/-- How many zero bytes come before it tells where a zero byte separates two parts. -/
lemma separator_inj {a b r s : Bytes} (zeros : a.count 0 = b.count 0)
    (h : a ++ 0 :: r = b ++ 0 :: s) : a = b ∧ r = s := by
  -- If one of the two ended first, the other one would have a zero byte more.
  induction a generalizing b with
  | nil =>
    cases b with
    | nil => exact ⟨rfl, (List.cons.inj h).2⟩
    | cons y b =>
      obtain ⟨rfl, _⟩ := List.cons.inj h
      simp at zeros
  | cons x a ih =>
    cases b with
    | nil =>
      obtain ⟨rfl, _⟩ := List.cons.inj h
      simp at zeros
    | cons y b =>
      obtain ⟨rfl, rest⟩ := List.cons.inj h
      have fewer : a.count 0 = b.count 0 := by simpa [List.count_cons] using zeros
      obtain ⟨rfl, back⟩ := ih fewer rest
      exact ⟨rfl, back⟩

/-- As many zero bytes are among the digits of one byte string as of another: none. -/
lemma zeros_hex (b c : Bytes) :
    (Bytes.ofText (Hex.encode b)).count 0 = (Bytes.ofText (Hex.encode c)).count 0 := by
  rw [List.count_eq_zero.2 (Hex.zero_not_mem_encode b),
    List.count_eq_zero.2 (Hex.zero_not_mem_encode c)]

/-- The bytes that are signed are five parts with a zero byte after each but the last. -/
lemma content_eq :
    content game id e topic data =
      Bytes.ofText game ++ 0 :: (Bytes.ofText id.hex ++ 0 :: (Bytes.ofText e.hex ++
        0 :: (Bytes.ofText topic ++ 0 :: data))) := by
  simp [content, List.intercalate]

/-- The bytes that a signature covers tell its channel and its epoch. -/
lemma content_binds (same : content game id e topic data = content game id' e' topic' data') :
    id = id' ∧ e = e' := by
  rw [content_eq, content_eq, List.append_cancel_left_eq, List.cons_inj_right] at same
  obtain ⟨channel, same⟩ := separator_inj (zeros_hex id.bytes id'.bytes) same
  obtain ⟨epoch, _⟩ := separator_inj (zeros_hex e.bytes e'.bytes) same
  exact ⟨ChannelId.hex_injective (Bytes.ofText_injective channel),
    EpochId.hex_injective (Bytes.ofText_injective epoch)⟩

/-- What is hashed for a signature on `data`: the bytes that it covers, and the message that is made
of their digest. -/
def hashed (game : String) (channel : ChannelId) (epoch : EpochId) (topic : String)
    (data : Bytes) : List Bytes :=
  [content game channel epoch topic data, Bytes.ofText (message game channel epoch topic data)]

end Signing

namespace DigestScheme

/-- A signature tells its address and the digest of its message. -/
lemma sign_inj {address address' message message' : String}
    (same : sign address message = sign address' message') :
    address = address' ∧
      Sha256.digest (Bytes.ofText message) = Sha256.digest (Bytes.ofText message') := by
  have text : address.toList ++ (stamp message).toList
      = address'.toList ++ (stamp message').toList := by
    rw [← String.toList_append, Bytes.ofText_injective same, String.toList_append]
  have width (message : String) : (stamp message).toList.length = 65 := by
    rw [String.length_toList, stamp, String.length_append, Hex.length_encode, Sha256.length_digest]
    rfl
  obtain ⟨front, back⟩ := List.append_inj' text ((width _).trans (width _).symm)
  refine ⟨String.toList_inj.1 front, Hex.encode_injective ?_⟩
  simpa [stamp, String.toList_inj] using back

variable {game : String} {id id' : ChannelId} {e e' : EpochId} {topic topic' address : String}
variable {data data' : Bytes}

/-- A signature that was made for one epoch and is recovered in another one shows a collision. -/
lemma collide_of_recover {by_ : String} (elsewhere : (id, e) ≠ (id', e'))
    (recovered : recover (Signing.message game id' e' topic' data')
      (sign address (Signing.message game id e topic data)) = some by_) :
    Sha256.Collide (Signing.hashed game id e topic data)
      (Signing.hashed game id' e' topic' data') := by
  obtain ⟨_, same⟩ := sign_inj (recover_eq_some_iff.1 recovered)
  rcases Sha256.eq_or_collide (.tail _ (.head _)) (.tail _ (.head _)) same with same | collision
  · -- Equal messages were written from equal digests, of contents that are different.
    have same := Hex.encode_injective (Bytes.ofText_injective same)
    rcases Sha256.eq_or_collide (.head _) (.head _) same with same | collision
    · obtain ⟨rfl, rfl⟩ := Signing.content_binds same
      exact absurd rfl elsewhere
    · exact collision
  · exact collision

end DigestScheme

/-- All signatures of a proof were made by digest, in an epoch of a channel, on board states in a
list. -/
def StateProof.SignedFor (game : String) (id : ChannelId) (e : EpochId) (datas : List Bytes)
    (p : StateProof) : Prop :=
  ∀ s ∈ p.states, ∀ signature ∈ s.signatures, ∃ address, ∃ data ∈ datas,
    signature = DigestScheme.sign address (Signing.message game id e Signing.stateTopic data)

/-- Two different byte strings have the same digest, one that was hashed to sign the board states in
a list for one epoch, and one that is hashed to check the signatures of a proof in another epoch. -/
def StateProof.Collides (game : String) (id id' : ChannelId) (e e' : EpochId) (datas : List Bytes)
    (p : StateProof) : Prop :=
  Sha256.Collide (datas.flatMap (Signing.hashed game id e Signing.stateTopic))
    (p.states.flatMap fun s => Signing.hashed game id' e' Signing.stateTopic s.data)

section
variable {State : Type} {rules : GameRules State} {game : String} {id id' : ChannelId}
variable {e : EpochId} {m : Metadata.Instance} {datas : List Bytes} {p : StateProof}

/-- A proof that was signed for another epoch is signed by nobody. -/
lemma StateProof.SignedFor.not_signed (made : p.SignedFor game id e datas)
    (elsewhere : (id, e) ≠ (id', m.epoch))
    (clean : ¬ p.Collides game id id' e m.epoch datas) {s : SignedState} (mem : s ∈ p.states)
    (seat : Nat) : ¬ (DigestScheme.channel rules id' game).Signed m s seat := by
  rintro ⟨_, signature, _, held, recovered⟩
  obtain ⟨address, data, drafted, rfl⟩ := made s mem signature held
  rw [DigestScheme.recover_channel] at recovered
  have collision := DigestScheme.collide_of_recover elsewhere recovered
  refine clean (collision.mono (fun x hx => ?_) (fun y hy => ?_))
  · exact List.mem_flatMap.2 ⟨data, drafted, hx⟩
  · exact List.mem_flatMap.2 ⟨s, mem, hy⟩

namespace Channel

variable {ch : Channel State} {founding : Bytes}

/-- A state that no seat has signed has no signers. -/
lemma stateSigners_eq_empty {s : SignedState} (unsigned : ∀ seat, ¬ ch.Signed m s seat) :
    ch.stateSigners m s = ∅ := by
  refine Std.ExtTreeSet.ext_mem fun seat => ?_
  simp [mem_stateSigners_iff, unsigned]

/-- A valid proof that nobody signed has no transitions, and starts from the founding state unless
the epoch has no participants. -/
lemma Valid.of_unsigned (valid : ch.Valid m founding p)
    (unsigned : ∀ s ∈ p.states, ∀ seat, ¬ ch.Signed m s seat) :
    p.transitions = [] ∧ (ch.Anchored m founding p ∨ m.participants = []) := by
  constructor
  · cases transitions : p.transitions with
    | nil => rfl
    | cons t ts =>
      have chain := valid.chain
      rw [transitions] at chain
      cases chain with
      | cons leads =>
        obtain ⟨_, seat, _, _, _, _, _, _, _, signed⟩ := leads
        have mem : t.state ∈ p.states := by simp [StateProof.states, transitions]
        exact absurd signed (unsigned _ mem seat)
  · refine valid.trusted.imp_right fun all => List.eq_nil_iff_length_eq_zero.2 ?_
    refine Nat.eq_zero_of_not_pos fun seated => ?_
    obtain ⟨s, mem, signed⟩ := all 0 seated
    exact unsigned s mem 0 signed

end Channel

/-- A proof all of whose signatures were made for another epoch or another channel of the game has
no signers, so it is accepted only without transitions, from the founding state or in an epoch
without participants; or else two byte strings that were hashed on the way collide. -/
theorem StateProof.SignedFor.not_replayed (rules : GameRules State) (founding : Bytes)
    (made : p.SignedFor game id e datas) (elsewhere : (id, e) ≠ (id', m.epoch)) :
    p.Collides game id id' e m.epoch datas ∨
      (∀ s ∈ p.states, (DigestScheme.channel rules id' game).stateSigners m s = ∅) ∧
      ∀ data, (DigestScheme.channel rules id' game).verify? m founding p = some data →
        p.transitions = [] ∧
          ((DigestScheme.channel rules id' game).Anchored m founding p ∨ m.participants = []) := by
  by_cases clean : p.Collides game id id' e m.epoch datas
  · exact .inl clean
  · have unsigned {s : SignedState} (mem : s ∈ p.states) (seat : Nat) :
        ¬ (DigestScheme.channel rules id' game).Signed m s seat :=
      made.not_signed elsewhere clean mem seat
    refine .inr ⟨fun s mem => Channel.stateSigners_eq_empty (unsigned mem), fun data verified => ?_⟩
    obtain ⟨valid, _⟩ := Channel.verify?_eq_some_iff.1 verified
    exact valid.of_unsigned fun s mem => unsigned mem

open AdditionGame in
/-- So the first move of an addition game counts for nothing when the same players have started from
the same board state in another epoch. -/
theorem StateProof.SignedFor.not_replayed_firstMove :
    (firstMove {} (encode 11 1)).SignedFor "add" (hall {}).id seating.epoch [encode 11 1] ∧
      ((hall {}).id, seating.epoch) ≠ ((hall {}).id, rematch.epoch) ∧
      ((firstMove {} (encode 11 1)).Collides "add" (hall {}).id (hall {}).id seating.epoch
          rematch.epoch [encode 11 1] ∨
        (∀ s ∈ (firstMove {} (encode 11 1)).states, (hall {}).stateSigners rematch s = ∅) ∧
        (hall {}).verify? rematch opening (firstMove {} (encode 11 1)) = none) := by
  have made : (firstMove {} (encode 11 1)).SignedFor "add" (hall {}).id seating.epoch
      [encode 11 1] := by
    intro s mem signature held
    rcases List.mem_cons.1 mem with rfl | mem
    · cases held
    · cases List.mem_singleton.1 mem
      exact ⟨"addr 0", _, .head _, List.mem_singleton.1 held⟩
  have elsewhere : ((hall {}).id, seating.epoch) ≠ ((hall {}).id, rematch.epoch) := by decide
  have replayed := made.not_replayed (m := rematch) (HouseRules.rules {}) opening elsewhere
  refine ⟨made, elsewhere, replayed.imp_right ?_⟩
  rintro ⟨unsigned, accepted⟩
  refine ⟨unsigned, Option.eq_none_iff_forall_ne_some.2 fun data verified => ?_⟩
  exact List.cons_ne_nil _ _ (accepted data verified).1

end
end StateChannel
