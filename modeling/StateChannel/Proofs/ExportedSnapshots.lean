import StateChannel.Proofs.Coherence
import StateChannel.Proofs.Histories
import StateChannel.Proofs.JsonRecords
import StateChannel.Snapshot

/-!
# Snapshots show the current epoch

The JSON of a snapshot is read by its field names. It shows what a tracker knows about its current
epoch (`Tracker.Shows`): the metadata, the latest board state with its turn count and whose turn it
is, and the confirmed turns, which are no more than those played.

That there is a snapshot rests on the rules: board states have to refer to the very instance of
metadata that they were parsed with. Under rules whose board states refer to a copy there is no
snapshot of any epoch (`Reachable.snapshot_of_copies`).
-/

namespace StateChannel
open Std

namespace Json

/-- The value at a path of names, each of which is that of one field of an object. -/
def at? : Json → List String → Option Json
  | v, [] => some v
  | object members, name :: path => do
    let fields ← (object members).record? [name]
    (← fields.head?).at? path
  | _, _ :: _ => none

/-- A path into a field of a record goes on in the value of that field. -/
lemma at?_ofFields {fields : List (String × Json)} (distinct : (fields.map (·.1)).Nodup)
    {name : String} {v : Json} (mem : (name, v) ∈ fields) (path : List String) :
    (ofFields fields).at? (name :: path) = v.at? path := by
  have among : [(name, v)] ⊆ fields := by simpa using mem
  have found : (ofFields fields).record? [name] = some [v] :=
    record?_ofFields fields distinct among
  rw [ofFields] at found ⊢
  rw [at?, found]
  rfl

/-- A field of a record is found under its name. -/
lemma at?_field {fields : List (String × Json)} (distinct : (fields.map (·.1)).Nodup)
    {name : String} {v : Json} (mem : (name, v) ∈ fields) :
    (ofFields fields).at? [name] = some v := by
  rw [at?_ofFields distinct mem, at?]

/-- Different numbers are written differently. -/
lemma ofNat_inj {n m : Nat} (h : ofNat n = ofNat m) : n = m := by
  have digits : Decimal.digits n = Decimal.digits m := Json.number.inj h
  have value := Decimal.value?_digits n
  rw [digits, Decimal.value?_digits] at value
  exact (Option.some.inj value).symm

end Json

section
variable {State : Type}

/-- A board state refers to the very instance of metadata that it was parsed with. -/
def GameRules.KeepsMetadata (rules : GameRules State) : Prop :=
  ∀ {id m data s}, rules.parse id m data = some s → rules.metadata s = m

/-- A board state refers to a copy of the metadata that it was parsed with. -/
def GameRules.CopiesMetadata (rules : GameRules State) : Prop :=
  ∀ {id m data s}, rules.parse id m data = some s → rules.metadata s = m.toMetadata.besides m

/-- What is exported in JSON is what is known about an epoch of a channel. -/
structure Json.Exports (id : ChannelId) (rules : GameRules State) (e : EpochId) (k : Epoch State)
    (v : Json) : Prop where
  channel : v.at? ["id"] = some (.ofText id.hex)
  epoch : v.at? ["reinit"] = some (.ofText e.hex)
  participants : v.at? ["meta", "participants"] = some (.array (k.metadata.participants.map fun p =>
    .ofFields [("name", .ofText p.name), ("address", .ofText p.address)]))
  founded : v.at? ["meta", "reinit"] = some (.ofText k.metadata.epoch.hex)
  version : v.at? ["meta", "protoversion"] = some (.ofText k.metadata.version.name)
  state : v.at? ["state", "data"] = some (rules.toJson k.latest)
  turn : v.at? ["state", "turncount"] = some (.ofNat (k.turn rules).toNat)
  toMove : v.at? ["state", "whoseturn"] = some ((rules.toMove k.latest).elim .null .ofNat)
  confirmed : v.at? ["onchainturncount"] = some (.ofNat k.confirmed.toNat)

/-- What is exported in JSON is what a tracker knows about its current epoch, if there is one. -/
inductive Tracker.Shows (id : ChannelId) (rules : GameRules State) (t : Tracker State) :
    Option EpochId → Json → Prop where
  | blank {v} :
    v.at? ["id"] = some (.ofText id.hex) → v.at? ["initialised"] = some (.bool false) →
    Shows id rules t none v
  | current {e k v} :
    t.epochs[e]? = some k → v.Exports id rules e k →
    Shows id rules t (some e) v

/-- What is exported about an epoch. -/
def Epoch.view (rules : GameRules State) (e : EpochId) (k : Epoch State) : EpochView where
  epoch := e
  metadata := k.metadata
  state := rules.toJson k.latest
  turn := rules.turn k.latest
  toMove := rules.toMove k.latest
  confirmed := k.confirmed

namespace Snapshot

/-- Before there is an epoch, the JSON of a snapshot says so. -/
lemma at?_toJson_blank (id : ChannelId) :
    (toJson ⟨id, none⟩).at? ["id"] = some (.ofText id.hex) ∧
      (toJson ⟨id, none⟩).at? ["initialised"] = some (.bool false) := by
  have distinct : ["id", "initialised"].Nodup := by decide
  exact ⟨Json.at?_field (by exact distinct) (by simp), Json.at?_field (by exact distinct) (by simp)⟩

/-- The confirmed turns stand in the JSON under their name. -/
lemma at?_toJson_confirmed {id : ChannelId} {v : EpochView} :
    (toJson ⟨id, some v⟩).at? ["onchainturncount"] = some (.ofNat v.confirmed.toNat) := by
  have distinct : ["id", "reinit", "meta", "state", "onchainturncount"].Nodup := by decide
  exact Json.at?_field (by exact distinct) (by simp)

/-- The JSON of a snapshot holds all that is exported about an epoch. -/
lemma exports_toJson (id : ChannelId) (rules : GameRules State) (e : EpochId) (k : Epoch State) :
    (toJson ⟨id, some (k.view rules e)⟩).Exports id rules e k := by
  have distinct : ["id", "reinit", "meta", "state", "onchainturncount"].Nodup := by decide
  have inMeta : ["participants", "reinit", "protoversion"].Nodup := by decide
  have inState : ["data", "turncount", "whoseturn"].Nodup := by decide
  have toMove : ((rules.toMove k.latest).map Json.ofNat).getD .null
      = (rules.toMove k.latest).elim .null .ofNat := by
    cases rules.toMove k.latest <;> rfl
  constructor
  case channel | epoch | confirmed =>
    exact Json.at?_field (by exact distinct) (by simp [Epoch.view])
  case participants | founded | version =>
    refine (Json.at?_ofFields (by exact distinct) (.tail _ (.tail _ (.head _))) [_]).trans ?_
    exact Json.at?_field (by exact inMeta) (by simp [Epoch.view])
  case state | turn | toMove =>
    refine (Json.at?_ofFields (by exact distinct)
      (.tail _ (.tail _ (.tail _ (.head _)))) [_]).trans ?_
    exact Json.at?_field (by exact inState) (by simp [Epoch.view, Epoch.turn, toMove])

end Snapshot

/-- If no more turns are confirmed than played, the exported numbers say so. -/
lemma Json.Exports.confirmed_le {id : ChannelId} {rules : GameRules State} {e : EpochId}
    {k : Epoch State} {v : Json} (h : v.Exports id rules e k) (le : k.confirmed ≤ k.turn rules) :
    ∃ n m, v.at? ["onchainturncount"] = some (.ofNat n) ∧
      v.at? ["state", "turncount"] = some (.ofNat m) ∧ n ≤ m :=
  ⟨_, _, h.confirmed, h.turn, UInt32.le_iff_toNat_le.1 le⟩

namespace Tracker

variable {ch : Channel State} {capacity : Nat} {t : Tracker State} {e : EpochId}
variable {k : Epoch State}

/-- Before there is an epoch, a snapshot shows only the channel. -/
lemma snapshot_of_none (blank : t.selected = none) :
    t.snapshot ch = .ok { channel := ch.id, current := none } := by
  simp [Tracker.snapshot, initialised, blank]

/-- There is a snapshot of a known epoch exactly if its latest board state refers to the instance of
metadata that the epoch has. -/
lemma snapshot_of_known (current : t.selected = some e) (stored : t.epochs[e]? = some k) :
    t.snapshot ch = if k.sharesMetadata ch.rules
      then .ok { channel := ch.id, current := some (k.view ch.rules e) }
      else .error (.metadataNotShared k.metadata.epoch.hex) := by
  have running : t.initialised = true := by simp [initialised, current]
  have id : t.current = .ok e := by simp [Tracker.current, current]
  simp only [Tracker.snapshot, running, if_true, latest_of_known current stored,
    currentEpoch_of_known current stored, id]
  split <;> rfl

/-- A reachable tracker shows what is known about its current epoch. -/
lemma Reachable.snapshot_of_current (h : t.Reachable ch capacity)
    (faithful : ch.rules.KeepsMetadata) (current : t.selected = some e)
    (stored : t.epochs[e]? = some k) :
    t.snapshot ch = .ok { channel := ch.id, current := some (k.view ch.rules e) } := by
  have shared : k.sharesMetadata ch.rules = true :=
    decide_eq_true (faithful (h.coherent e k stored).parsed)
  rw [snapshot_of_known current stored, if_pos shared]

/-- Under rules whose board states refer to a copy of their metadata there is no snapshot of any
epoch, although the copy is equal. -/
theorem Reachable.snapshot_of_copies (h : t.Reachable ch capacity)
    (copies : ch.rules.CopiesMetadata) (current : t.selected = some e) :
    t.snapshot ch = .error (.metadataNotShared e.hex) := by
  obtain ⟨k, stored⟩ := h.currentKnown e current
  have coherent := h.coherent e k stored
  have other : ¬ k.sharesMetadata ch.rules = true := by
    rw [Epoch.sharesMetadata, decide_eq_true_iff, copies coherent.parsed]
    exact Metadata.besides_ne
  rw [snapshot_of_known current stored, if_neg other, coherent.epoch]

/-- A reachable tracker has a snapshot, which shows its current epoch with no more turns confirmed
than played. -/
lemma Reachable.exists_snapshot (h : t.Reachable ch capacity)
    (faithful : ch.rules.KeepsMetadata) :
    ∃ view, t.snapshot ch = .ok view ∧ t.Shows ch.id ch.rules t.selected view.toJson ∧
      (t.selected ≠ none → ∃ n m,
        view.toJson.at? ["onchainturncount"] = some (.ofNat n) ∧
        view.toJson.at? ["state", "turncount"] = some (.ofNat m) ∧ n ≤ m) := by
  cases current : t.selected with
  | none =>
    obtain ⟨channel, initialised⟩ := Snapshot.at?_toJson_blank ch.id
    exact ⟨_, snapshot_of_none current, .blank channel initialised, fun some => absurd rfl some⟩
  | some e =>
    obtain ⟨k, stored⟩ := h.currentKnown e current
    have exported := Snapshot.exports_toJson ch.id ch.rules e k
    have bounded := exported.confirmed_le (h.coherent e k stored).confirmed
    exact ⟨_, h.snapshot_of_current faithful current stored, .current stored exported,
      fun _ => bounded⟩

end Tracker
end

namespace AdditionGame

/-- Unless a guest joins, a board state of the addition game refers to the instance of metadata that
it was parsed with. -/
lemma HouseRules.keepsMetadata {house : HouseRules} (alone : house.guest = false) :
    house.rules.KeepsMetadata := by
  intro id m data s parsed
  obtain ⟨s', plain, bounded⟩ := Option.bind_eq_some_iff.1 parsed
  obtain ⟨_, eq⟩ := Option.ite_none_right_eq_some.1 bounded
  obtain ⟨⟨number, count⟩, _, rfl⟩ := Option.map_eq_some_iff.1 plain
  cases eq
  simp [alone, rules, AdditionGame.rules]

/-- The house rules, except that a board state refers to a copy of its instance of metadata. -/
def HouseRules.copying (house : HouseRules) : GameRules State :=
  { house.rules with metadata := fun s => s.metadata.toMetadata.besides s.metadata }

/-- Under these rules, what a board state refers to is a copy of what it was parsed with. -/
lemma HouseRules.copiesMetadata {house : HouseRules} (alone : house.guest = false) :
    house.copying.CopiesMetadata := by
  intro id m data s parsed
  have same : s.metadata = m := keepsMetadata alone parsed
  show s.metadata.toMetadata.besides s.metadata = m.toMetadata.besides m
  rw [same]

/-- So the opening of an addition game can be confirmed under these rules, but has no snapshot. -/
theorem snapshot_of_copies_opened :
    let ch := DigestScheme.channel (HouseRules.copying {}) (hall {}).id (hall {}).game
    ∃ t, emptyTable.confirm ch opened = .ok (true, t) ∧
      t.snapshot ch = .error (.metadataNotShared seating.epoch.hex) := by
  intro ch
  have examined : ch.examine seating opening (.trivial opening) = .ok ⟨seating, 10, 0⟩ :=
    Channel.examine_trivial rfl (by decide) (by decide)
  have confirmed : emptyTable.confirm ch opened = .ok (true, _) :=
    Tracker.confirm_of_new (u := opened) examined
  have empty : emptyTable.Reachable ch 1 := .new rfl
  have reachable := empty.apply (u := .onChain opened) confirmed
  exact ⟨_, confirmed, reachable.snapshot_of_copies (HouseRules.copiesMetadata rfl) rfl⟩

end AdditionGame

end StateChannel
