import StateChannel.AdditionGame.HouseRules
import StateChannel.Proofs.TrackerSteps
import StateChannel.Proofs.ValidProofs
import StateChannel.ProofDraft

/-!
# Drafts are signed by their addresses

In a channel with signatures by digest, a board state that a draft has signed for an address is
signed by every seat of that address. So a valid proof stays valid with a further move that the
player to move signs (`Valid.drafted`), and a tracker that knows the epoch and fewer turns moves on
to it (`Received.of_drafted`). The first move of an addition game is such a move.
-/

namespace StateChannel

section
variable {State : Type}

/-- The channel of a game in which signatures are made by digest. -/
def DigestScheme.channel (rules : GameRules State) (id : ChannelId) (game : String) :
    Channel State :=
  { id, game, rules, recover := DigestScheme.recover }

/-- In a channel with signatures by digest, signers are recovered by digest. -/
@[simp] lemma DigestScheme.recover_channel (rules : GameRules State) (id : ChannelId)
    (game : String) : (DigestScheme.channel rules id game).recover = DigestScheme.recover := by
  simp only [DigestScheme.channel]

/-- The empty draft for an epoch of a channel. -/
def ProofDraft.of (ch : Channel State) (m : Metadata) : ProofDraft where
  game := ch.game
  channel := ch.id
  epoch := m.epoch

/-- A proof for an epoch of a channel that is drafted further by a move. -/
def StateProof.drafted (p : StateProof) (ch : Channel State) (m : Metadata) (move data : Bytes)
    (addresses : List String) : StateProof :=
  ({ ProofDraft.of ch m with proof := p }.play move data addresses).proof

/-- A drafted state is signed by the seats of the addresses that it was signed for. -/
lemma ProofDraft.signed_of_mem {ch : Channel State} {m : Metadata} {data : Bytes}
    {addresses : List String} {seat : Nat} {p : Participant}
    (digests : ch.recover = DigestScheme.recover) (sits : m.participants[seat]? = some p)
    (mem : p.address ∈ addresses) :
    ch.Signed m ((ProofDraft.of ch m).signed data addresses) seat := by
  refine ⟨p, _, sits, List.mem_map_of_mem mem, ?_⟩
  rw [digests]
  exact DigestScheme.recover_eq_some_iff.2 rfl

namespace Channel

/-- A player is to move in a board state and can make a move that leads to what is claimed. -/
structure Allows (ch : Channel State) (m : Metadata.Instance) (before : State)
    (player : Participant) (move data : Bytes) : Prop where
  toMove : ∃ seat, ch.rules.toMove before = some seat ∧ m.participants[seat]? = some player
  leads : ∃ result after, ch.rules.play before move = some result ∧
    ch.rules.parse ch.id m result = some after ∧ ch.rules.encodedBy after data

variable {ch : Channel State} {m : Metadata.Instance} {founding data move : Bytes}
variable {first before : State} {player : Participant} {addresses : List String} {p : StateProof}

/-- The founding state of an epoch is a valid proof of itself. -/
lemma valid_trivial (parsed : ch.rules.parse ch.id m founding = some first)
    (same : ch.rules.encodedBy first founding) : ch.Valid m founding (.trivial founding) where
  parses := by simp [StateProof.trivial, parsed]
  chain := .nil
  trusted := .inl ⟨first, parsed, same⟩

/-- The founding state of an epoch can be confirmed if the rules accept it as a proof. -/
lemma examine_trivial (accepted : ch.rules.accepts m (.trivial founding))
    (parsed : ch.rules.parse ch.id m founding = some first)
    (same : ch.rules.encodedBy first founding) :
    ch.examine m founding (.trivial founding) = .ok first :=
  examine_eq_ok_iff.2 ⟨accepted, valid_trivial parsed same, parsed⟩

/-- A move that is allowed leads on if the player signs the state that is claimed. -/
lemma Allows.leadsTo (allowed : ch.Allows m before player move data)
    (digests : ch.recover = DigestScheme.recover)
    (parsed : ch.rules.parse ch.id m founding = some before) (mem : player.address ∈ addresses) :
    ch.LeadsTo m founding ⟨move, (ProofDraft.of ch m).signed data addresses⟩ := by
  obtain ⟨seat, turn, sits⟩ := allowed.toMove
  obtain ⟨result, after, moves, reads, same⟩ := allowed.leads
  exact ⟨before, seat, result, after, parsed, turn, moves, reads, same,
    ProofDraft.signed_of_mem digests sits mem⟩

/-- A valid proof stays valid with a further move that is allowed and signed by the player. -/
lemma Valid.drafted (valid : ch.Valid m founding p) (digests : ch.recover = DigestScheme.recover)
    (parsed : ch.rules.parse ch.id m p.latest = some before)
    (allowed : ch.Allows m before player move data) (mem : player.address ∈ addresses) :
    ch.Valid m founding (p.drafted ch m move data addresses) :=
  valid.append_iff.2 (.cons (allowed.leadsTo digests parsed mem) .nil)

/-- A proof that is drafted further ends in what was claimed last. -/
lemma latest_drafted : (p.drafted ch m move data addresses).latest = data :=
  latest_append

end Channel

namespace Tracker

variable {ch : Channel State} {t : Tracker State} {e : EpochId} {k : Epoch State}
variable {first before after : State}

/-- A tracker that knows the epoch and fewer turns moves on to a proof that was drafted further by a
move of the player to move. -/
lemma Received.of_drafted {p : StateProof} {player : Participant} {move data : Bytes}
    {addresses : List String} (found : t.epochs[e]? = some k)
    (valid : ch.Valid k.metadata k.founding p) (digests : ch.recover = DigestScheme.recover)
    (parsed : ch.rules.parse ch.id k.metadata p.latest = some before)
    (allowed : ch.Allows k.metadata before player move data) (mem : player.address ∈ addresses)
    (accepted : ch.rules.accepts k.metadata (p.drafted ch k.metadata move data addresses))
    (claimed : ch.rules.parse ch.id k.metadata data = some after)
    (later : k.turn ch.rules < ch.rules.turn after) :
    Received ch t e (p.drafted ch k.metadata move data addresses) (.ok (t.selected = some e))
      { t with
        epochs := t.epochs.insert e
          (k.replaceLatest (p.drafted ch k.metadata move data addresses) after) } := by
  have ends : ch.rules.parse ch.id k.metadata
      (p.drafted ch k.metadata move data addresses).latest = some after := by
    rw [Channel.latest_drafted]
    exact claimed
  have examined := Channel.examine_eq_ok_iff.2
    ⟨accepted, valid.drafted digests parsed allowed mem, ends⟩
  exact .fresh found examined later

/-- When the founding state of a known epoch is confirmed once more, the latest state stays. -/
lemma Confirmed.of_founding
    (found : t.epochs[k.metadata.epoch]? = some k)
    (accepted : ch.rules.accepts k.metadata (.trivial k.founding))
    (parsed : ch.rules.parse ch.id k.metadata k.founding = some first)
    (same : ch.rules.encodedBy first k.founding)
    (known : ch.rules.turn first ≤ k.turn ch.rules) :
    Confirmed ch t ⟨k.metadata, k.founding, .trivial k.founding⟩
      (t.selected ≠ some k.metadata.epoch)
      { t with
        selected := some k.metadata.epoch
        epochs := t.epochs.insert k.metadata.epoch (k.confirm (ch.rules.turn first)) } :=
  .stale found (Channel.examine_trivial accepted parsed same) rfl rfl known

end Tracker
end

namespace AdditionGame

/-- A channel of the addition game. -/
def hall (house : HouseRules) : Channel State :=
  DigestScheme.channel house.rules ⟨List.replicate 32 0xaa, rfl⟩ "add"

/-- Signers are recovered by digest in the channel of the players. -/
@[simp] lemma recover_hall {house : HouseRules} : (hall house).recover = DigestScheme.recover := by
  rw [hall, DigestScheme.recover_channel]

/-- Two players. -/
def seating : Metadata.Instance where
  participants := [⟨"foo", "addr 0"⟩, ⟨"bar", "addr 1"⟩]
  epoch := ⟨Bytes.ofText "e1"⟩
  number := 0

/-- The same players in another epoch. -/
def rematch : Metadata.Instance :=
  { seating with epoch := ⟨Bytes.ofText "e2"⟩ }

/-- The board state that they start from. -/
def opening : Bytes :=
  Bytes.ofText "10 0"

/-- The board state that they start from, confirmed on-chain. -/
def opened : OnChainUpdate where
  metadata := seating
  founding := opening
  proof := .trivial opening

/-- The first player adds one and claims that this leads to `data`. -/
def firstMove (house : HouseRules) (data : Bytes) : StateProof :=
  (((ProofDraft.of (hall house) seating).start opening []).play (Bytes.ofText "1") data
    ["addr 0"]).proof

/-- The opening parses, whether comments count or not. -/
lemma opening_parsed {comments : Bool} :
    (hall { comments }).rules.parse (hall { comments }).id seating opening
      = some ⟨seating, 10, 0⟩ := by
  cases comments <;> decide

/-- The opening counts as the state that it parses as. -/
lemma opening_encodes {comments : Bool} :
    (hall { comments }).rules.encodedBy ⟨seating, 10, 0⟩ opening = true := by
  cases comments <;> decide

/-- The opening can be confirmed on-chain. -/
lemma opened_examined {comments : Bool} :
    (hall { comments }).examine seating opening (.trivial opening) = .ok ⟨seating, 10, 0⟩ :=
  Channel.examine_trivial rfl opening_parsed opening_encodes

/-- A tracker that knows nothing and has room for one proof. -/
def emptyTable : Tracker State where
  queue := { capacity := 1 }

/-- A tracker that knows what the players start from. -/
def openTable (house : HouseRules) : Tracker State :=
  .found (hall house) emptyTable opened ⟨seating, 10, 0⟩ { capacity := 1 }

/-- A tracker that knows nothing is reachable. -/
lemma emptyTable_reachable {house : HouseRules} : emptyTable.Reachable (hall house) 1 :=
  .new rfl

/-- Confirming the opening makes it known. -/
lemma openTable_confirmed {comments : Bool} :
    emptyTable.confirm (hall { comments }) opened = .ok (true, openTable { comments }) :=
  Tracker.confirm_of_new opened_examined

/-- The tracker that knows the opening is reachable. -/
lemma openTable_reachable {comments : Bool} :
    (openTable { comments }).Reachable (hall { comments }) 1 :=
  emptyTable_reachable.apply (u := .onChain opened) openTable_confirmed

/-- What is known about the epoch that the players start. -/
def seated (house : HouseRules) : Epoch State :=
  .found (hall house).rules seating opening (.trivial opening) ⟨seating, 10, 0⟩

/-- What is stored for the epoch is the opening. -/
lemma openTable_known {house : HouseRules} :
    (openTable house).epochs[seating.epoch]? = some (seated house) :=
  Std.ExtTreeMap.getElem?_insert_self

/-- The first player may claim whatever encodes the number 11 after one turn. -/
lemma firstMove_allowed {comments : Bool} {data : Bytes}
    (same : (hall { comments }).rules.encodedBy ⟨seating, 11, 1⟩ data) :
    (hall { comments }).Allows seating ⟨seating, 10, 0⟩ ⟨"foo", "addr 0"⟩ (Bytes.ofText "1")
      data := by
  have moves : State.play ⟨seating, 10, 0⟩ (Bytes.ofText "1") = some (encode 11 1) := by
    decide
  have reads : (hall { comments }).rules.parse (hall { comments }).id seating (encode 11 1)
      = some ⟨seating, 11, 1⟩ := by
    cases comments <;> decide
  exact ⟨⟨0, rfl, rfl⟩, encode 11 1, ⟨seating, 11, 1⟩, moves, reads, same⟩

/-- The first move is valid whatever it claims, if that encodes the result. -/
lemma firstMove_valid {comments : Bool} {data : Bytes}
    (same : (hall { comments }).rules.encodedBy ⟨seating, 11, 1⟩ data) :
    (hall { comments }).Valid seating opening (firstMove { comments } data) :=
  (Channel.valid_trivial opening_parsed opening_encodes).drafted recover_hall opening_parsed
    (firstMove_allowed same) (.head _)

/-- The first move as it should be made is accepted. -/
lemma firstMove_verified :
    (hall {}).verify? seating opening (firstMove {} (encode 11 1)) = some (encode 11 1) :=
  Channel.verify?_eq_some_iff.2 ⟨firstMove_valid (by decide), rfl⟩

/-- The tracker after the first move. -/
def played : Tracker State :=
  { openTable {} with
    epochs := (openTable {}).epochs.insert seating.epoch
      ((seated {}).replaceLatest (firstMove {} (encode 11 1)) ⟨seating, 11, 1⟩) }

/-- The tracker that knows the opening moves on to the first move. -/
lemma played_fresh : Tracker.Received (hall {}) (openTable {}) seating.epoch
    (firstMove {} (encode 11 1)) (.ok true) played := by
  have valid : (hall {}).Valid seating opening (.trivial opening) :=
    Channel.valid_trivial opening_parsed opening_encodes
  have claimed : (hall {}).rules.parse (hall {}).id seating (encode 11 1)
      = some ⟨seating, 11, 1⟩ := by decide
  have later : (seated {}).turn (hall {}).rules < (hall {}).rules.turn ⟨seating, 11, 1⟩ := by
    decide
  have allowed : (hall {}).Allows seating ⟨seating, 10, 0⟩ ⟨"foo", "addr 0"⟩ (Bytes.ofText "1")
      (encode 11 1) := firstMove_allowed (by decide)
  have received := Tracker.Received.of_drafted (t := openTable {}) (k := seated {}) openTable_known
    valid recover_hall opening_parsed allowed (.head []) rfl claimed later
  exact received

/-- The first move is reported as a change. -/
lemma played_received : (openTable {}).receive (hall {}) seating.epoch
    (firstMove {} (encode 11 1)) = .ok (true, played) :=
  Tracker.receive_eq_ok_iff.2 ⟨_, Tracker.tryReceive_eq_ok_iff.2 played_fresh, rfl⟩

/-- The tracker after the first move is reachable. -/
lemma played_reachable : played.Reachable (hall {}) 1 :=
  openTable_reachable.tryReceive (Tracker.tryReceive_eq_ok_iff.2 played_fresh)

/-- What is stored for the epoch is the first move. -/
lemma played_known : played.epochs[seating.epoch]? =
    some ((seated {}).replaceLatest (firstMove {} (encode 11 1)) ⟨seating, 11, 1⟩) :=
  Std.ExtTreeMap.getElem?_insert_self

/-- The opening and the first move lead to the tracker after the first move. -/
lemma played_run : emptyTable.run (hall {})
    [.onChain opened, .offChain seating.epoch (firstMove {} (encode 11 1))] = .ok played := by
  have first : emptyTable.apply (hall {}) (.onChain opened) = .ok (true, openTable {}) :=
    openTable_confirmed
  have second : (openTable {}).apply (hall {})
      (.offChain seating.epoch (firstMove {} (encode 11 1))) = .ok (true, played) :=
    played_received
  rw [Tracker.run_cons_of first, Tracker.run_cons_of second, Tracker.run_nil]

end AdditionGame

end StateChannel
