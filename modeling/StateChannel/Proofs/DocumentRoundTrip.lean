import Mathlib.Tactic.Lemma
import StateChannel.Document
import StateChannel.Proofs.JsonRecords

/-!
# Documents read back

Configurations, identifiers, versions, metadata and proofs are read back from the compact texts of
their documents. Each type of document is stored field by field (`Json.Stores`), and a stored value
is told by its text (`Json.TextsReadBack`).
-/

namespace StateChannel

namespace Json

variable {α : Type} {write : α → Json} {read : Json → Option α}

/-- The compact text of what is written for a value reads as that value, so that different values
have different texts. -/
def TextsReadBack (write : α → Json) (read : Json → Option α) : Prop :=
  (∀ a, (parse? (write a).render >>= read) = some a) ∧
    ∀ a a', (write a).render = (write a').render → a = a'

/-- What reads back as a value reads back as a text, too. -/
lemma Stores.textsReadBack (h : Stores write read) : TextsReadBack write read := by
  have back (a : α) : (parse? (write a).render >>= read) = some a := by
    rw [parse?_render (h.wellSpelt a)]
    exact h.back a
  refine ⟨back, fun a a' same => ?_⟩
  have read := back a
  rw [same, back a'] at read
  exact (Option.some.inj read).symm

variable {β γ δ : Type} {write' : β → Json} {read' : Json → Option β}
variable {write'' : γ → Json} {read'' : Json → Option γ} {name name' name'' : String}

/-- A record of two fields is stored if both fields are. -/
lemma Stores.pair {left : δ → α} {right : δ → β} (make : α → β → δ)
    (differ : name ≠ name') (h : Stores write read) (h' : Stores write' read')
    (whole : ∀ d, make (left d) (right d) = d) :
    Stores (fun d => ofFields [(name, write (left d)), (name', write' (right d))]) fun v => do
      match ← v.record? [name, name'] with
      | [a, b] => return make (← read a) (← read' b)
      | _ => none where
  wellSpelt d := by
    refine wellSpelt_ofFields ?_
    simp [h.wellSpelt, h'.wellSpelt]
  back d := by
    have fields := record?_ofFields [(name, write (left d)), (name', write' (right d))]
      (by simpa using differ) (.refl _)
    simp only [List.map_cons, List.map_nil] at fields
    simp only [fields, h.back, h'.back, Option.bind_eq_bind, Option.bind_some, whole]
    rfl

/-- A record of three fields is stored if all of them are. -/
lemma Stores.triple {left : δ → α} {middle : δ → β} {right : δ → γ} (make : α → β → γ → δ)
    (differ : [name, name', name''].Nodup) (h : Stores write read) (h' : Stores write' read')
    (h'' : Stores write'' read'') (whole : ∀ d, make (left d) (middle d) (right d) = d) :
    Stores
      (fun d => ofFields
        [(name, write (left d)), (name', write' (middle d)), (name'', write'' (right d))])
      fun v => do
        match ← v.record? [name, name', name''] with
        | [a, b, c] => return make (← read a) (← read' b) (← read'' c)
        | _ => none where
  wellSpelt d := by
    refine wellSpelt_ofFields ?_
    simp [h.wellSpelt, h'.wellSpelt, h''.wellSpelt]
  back d := by
    have fields := record?_ofFields
      [(name, write (left d)), (name', write' (middle d)), (name'', write'' (right d))]
      differ (.refl _)
    simp only [List.map_cons, List.map_nil] at fields
    simp only [fields, h.back, h'.back, h''.back, Option.bind_eq_bind, Option.bind_some, whole]
    rfl

end Json

open Json

/-- Channel names read back from what is written for them. -/
lemma ChannelId.stores : Stores ChannelId.toJson ChannelId.ofJson? where
  wellSpelt id := stores_bytes.wellSpelt id.bytes
  back id := by
    rw [toJson, ofJson?, stores_bytes.back]
    exact ofBytes?_bytes id

/-- Epoch names read back from what is written for them. -/
lemma EpochId.stores : Stores EpochId.toJson EpochId.ofJson? where
  wellSpelt id := stores_bytes.wellSpelt id.bytes
  back id := by
    rw [toJson, ofJson?, stores_bytes.back]
    rfl

/-- Protocol versions read back from what is written for them. -/
lemma ProtocolVersion.stores : Stores ProtocolVersion.toJson ProtocolVersion.ofJson? where
  wellSpelt v := stores_text.wellSpelt v.tag
  back v := by
    cases v <;> rfl

/-- Participants read back from what is written for them. -/
lemma Participant.stores : Stores Participant.toJson Participant.ofJson? :=
  .pair Participant.mk (by decide) stores_text stores_text fun _ => rfl

/-- Metadata read back from what is written for them. -/
lemma Metadata.stores : Stores Metadata.toJson Metadata.ofJson? :=
  .triple Metadata.mk (by decide) Participant.stores.list EpochId.stores ProtocolVersion.stores
    fun _ => rfl

/-- Signed states read back from what is written for them. -/
lemma SignedState.stores : Stores SignedState.toJson SignedState.ofJson? :=
  .pair SignedState.mk (by decide) stores_bytes stores_bytes.list fun _ => rfl

/-- Transitions read back from what is written for them. -/
lemma Transition.stores : Stores Transition.toJson Transition.ofJson? :=
  .pair Transition.mk (by decide) stores_bytes SignedState.stores fun _ => rfl

/-- Proofs read back from what is written for them. -/
lemma StateProof.stores : Stores StateProof.toJson StateProof.ofJson? :=
  .pair StateProof.mk (by decide) SignedState.stores Transition.stores.list fun _ => rfl

/-- Configurations read back from what is written for them. -/
lemma Config.stores : Stores Config.toJson Config.ofJson? :=
  .triple Config.mk (by decide) stores_text stores_uint64 stores_uint64 fun _ => rfl

/-- Configurations, identifiers of channels and of epochs, versions, metadata and proofs are what
the compact texts of their documents are read as. Different ones have different texts. -/
theorem Json.documents_readBack :
    TextsReadBack Config.toJson Config.ofJson? ∧
    TextsReadBack ChannelId.toJson ChannelId.ofJson? ∧
    TextsReadBack EpochId.toJson EpochId.ofJson? ∧
    TextsReadBack ProtocolVersion.toJson ProtocolVersion.ofJson? ∧
    TextsReadBack Metadata.toJson Metadata.ofJson? ∧
    TextsReadBack StateProof.toJson StateProof.ofJson? :=
  ⟨Config.stores.textsReadBack, ChannelId.stores.textsReadBack, EpochId.stores.textsReadBack,
    ProtocolVersion.stores.textsReadBack, Metadata.stores.textsReadBack,
    StateProof.stores.textsReadBack⟩

end StateChannel
