import StateChannel.Proofs.SignedDrafts
import StateChannel.Verification.Valid

/-!
# Who signed by digest

Under the digest scheme the signers of a state are the seats whose signature is in its list, byte
for byte: no signature of a participant is missed, and nothing else counts as one.

A signature is recovered by its end (`DigestScheme.recover`). The same is found by looking for the
last colon (`DigestScheme.named?`), as the digest after it is written without colons, whatever the
address before it is.
-/

namespace StateChannel

namespace DigestScheme

/-- What stands before and after the last colon of a text. -/
def atLastColon? : List Char → Option (List Char × List Char)
  | [] => none
  | c :: cs =>
    match atLastColon? cs with
    | some (front, back) => some (c :: front, back)
    | none => if c = ':' then some ([], cs) else none

/-- The address that a signature names before its last colon, if the written digest of the message
follows there. -/
def named? (message : String) (signature : Bytes) : Option String := do
  let text ← Bytes.text? signature
  let (front, back) ← atLastColon? text.toList
  if String.ofList back = Hex.encode (Sha256.digest (Bytes.ofText message)) then
    some (String.ofList front)
  else none

variable {cs front back : List Char} {message address : String} {signature : Bytes}

/-- A text without a colon is not split. -/
lemma atLastColon?_eq_none (plain : ':' ∉ cs) : atLastColon? cs = none := by
  induction cs with
  | nil => rfl
  | cons c cs ih =>
    rw [List.mem_cons, not_or] at plain
    rw [atLastColon?, ih plain.2]
    exact if_neg (Ne.symm plain.1)

/-- A text is split at a colon that no other one comes after. -/
lemma atLastColon?_append (front : List Char) (plain : ':' ∉ back) :
    atLastColon? (front ++ ':' :: back) = some (front, back) := by
  induction front with
  | nil => rw [List.nil_append, atLastColon?, atLastColon?_eq_none plain, if_pos rfl]
  | cons c front ih => rw [List.cons_append, atLastColon?, ih]

/-- Both parts of a text that is split make it up with the colon between them. -/
lemma eq_of_atLastColon? (h : atLastColon? cs = some (front, back)) :
    cs = front ++ ':' :: back := by
  induction cs generalizing front with
  | nil => cases h
  | cons c cs ih =>
    rw [atLastColon?] at h
    cases later : atLastColon? cs with
    | some parts =>
      rw [later] at h
      cases h
      exact congrArg (c :: ·) (ih later)
    | none =>
      rw [later] at h
      dsimp only at h
      split at h
      next colon =>
        cases h
        rw [colon, List.nil_append]
      next => cases h

/-- A digest is written without colons. -/
lemma colon_not_mem_encode (b : Bytes) : ':' ∉ (Hex.encode b).toList := by
  intro mem
  rw [Hex.encode, String.toList_ofList] at mem
  obtain ⟨x, _, mem⟩ := List.mem_flatMap.1 mem
  obtain ⟨n, small, eq⟩ := Hex.exists_of_mem_digits mem
  revert n
  decide

/-- A signature by digest has the address in front of a colon and the digest of the message behind
it. -/
lemma toList_stamp (address message : String) :
    (address ++ stamp message).toList
      = address.toList ++ ':' :: (Hex.encode (Sha256.digest (Bytes.ofText message))).toList := by
  rw [stamp, String.toList_append, String.toList_append]
  rfl

/-- A signature names an address exactly if it is the one that the address makes. -/
lemma named?_eq_some_iff : named? message signature = some address ↔
    signature = sign address message := by
  simp only [named?, Option.bind_eq_bind, Option.bind_eq_some_iff]
  constructor
  · rintro ⟨text, read, ⟨front, back⟩, parts, h⟩
    split at h
    next follows =>
      cases h
      have whole := toList_stamp (String.ofList front) message
      rw [← follows, String.toList_ofList, String.toList_ofList,
        ← eq_of_atLastColon? parts] at whole
      rw [Bytes.text?_eq_some_iff.1 read, sign, String.toList_inj.1 whole]
    next => cases h
  · rintro rfl
    -- There is no colon in a digest, so the last one is in front of it.
    have parts := atLastColon?_append address.toList
      (colon_not_mem_encode (Sha256.digest (Bytes.ofText message)))
    rw [← toList_stamp] at parts
    refine ⟨_, Bytes.text?_ofText _, _, parts, ?_⟩
    rw [String.ofList_toList, String.ofList_toList, if_pos rfl]

/-- The address is recovered from what stands in front of the last colon. -/
lemma recover_eq_named? : recover message signature = named? message signature := by
  apply Option.ext
  intro address
  rw [recover_eq_some_iff, named?_eq_some_iff]

variable {State : Type} {rules : GameRules State} {id : ChannelId} {game topic : String}
variable {m : Metadata} {s : SignedState} {i : Nat}

/-- A seat has signed exactly if the signature that its address makes is listed. -/
lemma mem_signers_iff_sign : i ∈ (channel rules id game).signers m topic s ↔
    ∃ _ : i < m.participants.length,
      sign m.participants[i].address (Signing.message game id m.epoch topic s.data)
        ∈ s.signatures := by
  rw [Channel.mem_signers_iff]
  constructor
  · rintro ⟨p, signature, seated, mem, recovered⟩
    obtain ⟨lt, rfl⟩ := List.getElem?_eq_some_iff.1 seated
    rw [recover_channel, recover_eq_some_iff] at recovered
    exact ⟨lt, recovered ▸ mem⟩
  · rintro ⟨lt, mem⟩
    refine ⟨m.participants[i], _, List.getElem?_eq_getElem lt, mem, ?_⟩
    rw [recover_channel]
    exact recover_eq_some_iff.2 rfl

/-- The signers of a state are, in ascending order and each of them once, the seats of an epoch
whose participant's signature on the state is in its list. A signature is recovered to an address
exactly if it is the one that this address makes, and this is what can be read around its last
colon. -/
theorem signers_exact (rules : GameRules State) (id : ChannelId) (game topic : String)
    (m : Metadata) (s : SignedState) :
    ((channel rules id game).signers m topic s).toList.Pairwise (· < ·) ∧
    (∀ i, i ∈ ((channel rules id game).signers m topic s).toList ↔
      ∃ _ : i < m.participants.length,
        sign m.participants[i].address (Signing.message game id m.epoch topic s.data)
          ∈ s.signatures) ∧
    (∀ message address signature,
      recover message signature = some address ↔ signature = sign address message) ∧
    ∀ message signature, recover message signature = named? message signature := by
  refine ⟨?_, fun i => ?_, fun _ _ _ => recover_eq_some_iff, fun _ _ => recover_eq_named?⟩
  · refine Std.ExtTreeSet.ordered_toList.imp fun before => ?_
    exact Nat.compare_eq_lt.1 before
  · rw [Std.ExtTreeSet.mem_toList]
    exact mem_signers_iff_sign

/-- An address may be empty or have colons of its own. -/
example : atLastColon? "a:b:c".toList = some ("a:b".toList, ['c']) ∧
    atLastColon? ":c".toList = some ([], ['c']) := by
  decide

end DigestScheme

end StateChannel
