import Mathlib.Data.List.Forall2
import StateChannel.Proofs.SignedDrafts

/-!
# Signatures are a set

Of the signatures on a board state it only matters which seats they make signers. A valid proof
stays valid if any of its states gets more signatures, whoever made these, so nobody can spoil a
proof by adding to it. The order of signatures does not matter, nor how often one is there.
-/

namespace StateChannel

namespace SignedState

/-- The same board state with at least the same signatures. -/
structure Covered (s s' : SignedState) : Prop where
  data : s'.data = s.data
  signatures : s.signatures ⊆ s'.signatures

/-- The same board state with the same signatures, in any order and any number of times. -/
structure SameSignatures (s s' : SignedState) : Prop where
  data : s'.data = s.data
  signatures : ∀ signature, signature ∈ s'.signatures ↔ signature ∈ s.signatures

end SignedState

/-- What is at a place of a list is related to what is at that place of the other. -/
lemma exists_of_mem_of_forall₂ {α β : Type} {R : α → β → Prop} {l : List α} {l' : List β} {a : α}
    (h : List.Forall₂ R l l') (mem : a ∈ l) : ∃ b ∈ l', R a b := by
  induction h with
  | nil => cases mem
  | @cons _ b _ _ first _ ih =>
    cases mem with
    | head => exact ⟨b, .head _, first⟩
    | tail _ mem =>
      obtain ⟨b, mem', related⟩ := ih mem
      exact ⟨b, .tail _ mem', related⟩

/-- Two proofs make the same moves, and their states are related, place by place. -/
structure StateProof.Alike (R : SignedState → SignedState → Prop) (p p' : StateProof) : Prop where
  initial : R p.initial p'.initial
  transitions : List.Forall₂ (fun t t' => t'.move = t.move ∧ R t.state t'.state)
    p.transitions p'.transitions

/-- A proof with what `f` makes of the signatures on each of its states. -/
def StateProof.resign (f : List Bytes → List Bytes) (p : StateProof) : StateProof where
  initial := { p.initial with signatures := f p.initial.signatures }
  transitions := p.transitions.map fun t =>
    { t with state := { t.state with signatures := f t.state.signatures } }

namespace StateProof.Alike

variable {R S : SignedState → SignedState → Prop} {p p' : StateProof} {s : SignedState}

/-- Two proofs are alike if the second one has other signatures of a related kind. -/
lemma resign {f : List Bytes → List Bytes}
    (related : ∀ s, R s { s with signatures := f s.signatures }) : p.Alike R (p.resign f) where
  initial := related p.initial
  transitions :=
    List.forall₂_map_right_iff.2 (List.forall₂_same.2 fun t _ => ⟨rfl, related t.state⟩)

/-- Proofs whose states are related are alike for every weaker relation. -/
lemma imp (h : p.Alike R p') (weaker : ∀ s s', R s s' → S s s') : p.Alike S p' where
  initial := weaker _ _ h.initial
  transitions := h.transitions.imp fun _ _ ⟨move, related⟩ => ⟨move, weaker _ _ related⟩

/-- Proofs are alike the other way around for the reverse relation. -/
lemma symm (h : p.Alike R p') : p'.Alike (fun s s' => R s' s) p where
  initial := h.initial
  transitions := (h.transitions.imp fun _ _ ⟨move, related⟩ => ⟨move.symm, related⟩).flip

/-- The states of proofs that are alike are related place by place. -/
lemma states (h : p.Alike R p') : List.Forall₂ R p.states p'.states := by
  refine .cons h.initial ?_
  rw [List.forall₂_map_left_iff, List.forall₂_map_right_iff]
  exact h.transitions.imp fun _ _ => And.right

/-- Proofs whose related states are the same go through the same states. -/
lemma datas (h : p.Alike R p') (same : ∀ s s', R s s' → s'.data = s.data) :
    p'.states.map (·.data) = p.states.map (·.data) := by
  rw [← List.forall₂_eq_eq_eq, List.forall₂_map_left_iff, List.forall₂_map_right_iff]
  exact (h.states.imp same).flip

end StateProof.Alike

section
variable {State : Type}

namespace Channel

/-- The same board state, signed by at least the same seats. -/
structure Vouched (ch : Channel State) (m : Metadata) (s s' : SignedState) : Prop where
  data : s'.data = s.data
  signed : ∀ seat, ch.Signed m s seat → ch.Signed m s' seat

/-- The same board state with the same signers. -/
structure SameSigners (ch : Channel State) (m : Metadata) (s s' : SignedState) : Prop where
  data : s'.data = s.data
  signers : ch.stateSigners m s' = ch.stateSigners m s

variable {ch : Channel State} {m : Metadata.Instance} {founding data : Bytes} {p p' : StateProof}
variable {s s' : SignedState} {t t' : Transition} {ts ts' : List Transition}

/-- With more signatures, at least the same seats have signed. -/
lemma vouched_of_covered (h : s.Covered s') : ch.Vouched m s s' where
  data := h.data
  signed := by
    rintro seat ⟨p, signature, sits, mem, recovered⟩
    rw [← h.data] at recovered
    exact ⟨p, signature, sits, h.signatures mem, recovered⟩

/-- Whether two states have the same signers does not depend on their order. -/
lemma SameSigners.symm (h : ch.SameSigners m s s') : ch.SameSigners m s' s where
  data := h.data.symm
  signers := h.signers.symm

/-- With the same signers, at least the same seats have signed. -/
lemma SameSigners.vouched (h : ch.SameSigners m s s') : ch.Vouched m s s' where
  data := h.data
  signed seat signed := by
    rw [← mem_stateSigners_iff] at signed ⊢
    rw [h.signers]
    exact signed

/-- States that are signed by at least the same seats in both directions have the same signers. -/
lemma sameSigners_of_vouched (wider : ch.Vouched m s s') (narrower : ch.Vouched m s' s) :
    ch.SameSigners m s s' where
  data := wider.data
  signers := by
    refine Std.ExtTreeSet.ext_mem fun seat => ?_
    rw [mem_stateSigners_iff, mem_stateSigners_iff]
    exact ⟨narrower.signed seat, wider.signed seat⟩

/-- The same signatures are made by the same signers. -/
lemma sameSigners_of_sameSignatures (h : s.SameSignatures s') : ch.SameSigners m s s' := by
  have more : s.Covered s' := ⟨h.data, fun signature => (h.signatures signature).2⟩
  have less : s'.Covered s := ⟨h.data.symm, fun signature => (h.signatures signature).1⟩
  exact sameSigners_of_vouched (vouched_of_covered more) (vouched_of_covered less)

/-- Signatures that no participant made are no signatures. -/
lemma sameSigners_of_foreign {more : List Bytes}
    (foreign : ∀ signature ∈ more, ∀ p ∈ m.participants, ch.recover
      (Signing.message ch.game ch.id m.epoch Signing.stateTopic s.data) signature
        ≠ some p.address) :
    ch.SameSigners m s { s with signatures := more ++ s.signatures } := by
  have covered : s.Covered { s with signatures := more ++ s.signatures } :=
    ⟨rfl, List.subset_append_right _ _⟩
  refine sameSigners_of_vouched (vouched_of_covered covered) ⟨rfl, ?_⟩
  rintro seat ⟨p, signature, sits, mem, recovered⟩
  rcases List.mem_append.1 mem with mem | mem
  · exact absurd recovered (foreign signature mem p (List.mem_of_getElem? sits))
  · exact ⟨p, signature, sits, mem, recovered⟩

/-- A transition leads on with more signers as well. -/
lemma LeadsTo.vouched (leads : ch.LeadsTo m data t) (move : t'.move = t.move)
    (vouched : ch.Vouched m t.state t'.state) : ch.LeadsTo m data t' := by
  obtain ⟨before, seat, result, after, parsed, turn, played, parsed', same, signed⟩ := leads
  rw [← move] at played
  rw [← vouched.data] at same
  exact ⟨before, seat, result, after, parsed, turn, played, parsed', same,
    vouched.signed seat signed⟩

/-- A chain is one with more signers on its states as well. -/
lemma Chain.vouched (chain : ch.Chain m data ts)
    (alike : List.Forall₂ (fun t t' => t'.move = t.move ∧ ch.Vouched m t.state t'.state) ts ts') :
    ch.Chain m data ts' := by
  -- The states on the way have the same data, so both chains go on from the same board state.
  induction alike generalizing data with
  | nil => exact .nil
  | cons first _ ih =>
    obtain ⟨move, vouched⟩ := first
    cases chain with
    | cons leads chain =>
      refine .cons (leads.vouched move vouched) ?_
      rw [vouched.data]
      exact ih chain

/-- A valid proof stays valid if its states are signed by more seats. -/
lemma Valid.vouched (valid : ch.Valid m founding p) (alike : p.Alike (ch.Vouched m) p') :
    ch.Valid m founding p' := by
  have initial := alike.initial.data
  refine ⟨?parses, ?chain, valid.trusted.imp ?anchored ?signed⟩
  case parses =>
    rw [initial]
    exact valid.parses
  case chain =>
    rw [initial]
    exact valid.chain.vouched alike.transitions
  case anchored =>
    intro anchored
    rw [Anchored, initial]
    exact anchored
  case signed =>
    intro all seat sits
    obtain ⟨s, mem, signed⟩ := all seat sits
    obtain ⟨s', mem', vouched⟩ := exists_of_mem_of_forall₂ alike.states mem
    exact ⟨s', mem', vouched.signed seat signed⟩

/-- A proof ends in the same state with more signers. -/
lemma latest_vouched (alike : p.Alike (ch.Vouched m) p') : p'.latest = p.latest := by
  have ends (p : StateProof) : p.latest = (p.states.map (·.data)).getLastD [] := by
    rw [StateProof.latest_eq_getLastD, StateProof.states, List.map_cons, List.getLastD_cons,
      List.map_map]
    rfl
  rw [ends, ends, alike.datas fun _ _ => Vouched.data]

/-- A proof that is accepted is accepted with more signers as well. -/
lemma verify?_vouched (alike : p.Alike (ch.Vouched m) p')
    (accepted : ch.verify? m founding p = some data) : ch.verify? m founding p' = some data := by
  obtain ⟨valid, rfl⟩ := verify?_eq_some_iff.1 accepted
  exact verify?_eq_some_iff.2 ⟨valid.vouched alike, (latest_vouched alike).symm⟩

/-- Verification does not tell proofs with the same signers apart. -/
lemma verify?_congr_signers (alike : p.Alike (ch.SameSigners m) p') :
    ch.verify? m founding p' = ch.verify? m founding p := by
  refine Option.ext fun data => ⟨fun accepted => ?_, fun accepted => ?_⟩
  · exact verify?_vouched (alike.symm.imp fun _ _ h => h.symm.vouched) accepted
  · exact verify?_vouched (alike.imp fun _ _ h => h.vouched) accepted

end Channel
end

/-- A signature by digest has a colon. -/
lemma DigestScheme.recover_eq_none {message : String} {signature : Bytes}
    (plain : 0x3a ∉ signature) : recover message signature = none := by
  refine Option.eq_none_iff_forall_ne_some.2 fun address recovered => plain ?_
  have colon : Bytes.ofText ":" = [0x3a] := by decide
  rw [recover_eq_some_iff.1 recovered, sign, stamp, Bytes.ofText_append, Bytes.ofText_append, colon]
  simp

namespace AdditionGame

/-- The first move, with a broken signature added to each state. -/
def scribbled : StateProof :=
  (firstMove {} (encode 11 1)).resign ([[0xff]] ++ ·)

/-- The first move, with each signature given twice. -/
def doubled : StateProof :=
  (firstMove {} (encode 11 1)).resign fun l => l ++ l.reverse

/-- Broken signatures leave the signers of the first move what they are. -/
lemma scribbled_sameSigners :
    (firstMove {} (encode 11 1)).Alike ((hall {}).SameSigners seating) scribbled := by
  refine .resign fun s => Channel.sameSigners_of_foreign fun signature mem p _ => ?_
  cases List.mem_singleton.1 mem
  rw [recover_hall, DigestScheme.recover_eq_none (by decide)]
  exact (Option.some_ne_none _).symm

end AdditionGame

namespace Channel

/-- A proof that is accepted is accepted with more signatures on its states as well, whatever these
are. Verification does not tell two proofs apart that differ in the order of signatures and in how
often they are there, or at all only in signatures that leave the signers what they are. -/
theorem verify?_signatures {State : Type} (ch : Channel State) (m : Metadata.Instance)
    (founding : Bytes) (p p' : StateProof) :
    (p.Alike SignedState.Covered p' → ∀ data, ch.verify? m founding p = some data →
      ch.verify? m founding p' = some data) ∧
    (p.Alike SignedState.SameSignatures p' →
      ch.verify? m founding p' = ch.verify? m founding p) ∧
    (p.Alike (ch.SameSigners m) p' →
      ch.verify? m founding p' = ch.verify? m founding p) := by
  refine ⟨fun alike data accepted => ?_, fun alike => ?_, verify?_congr_signers⟩
  · exact verify?_vouched (alike.imp fun _ _ => vouched_of_covered) accepted
  · exact verify?_congr_signers (alike.imp fun _ _ => sameSigners_of_sameSignatures)

open AdditionGame in
/-- So the first move of an addition game is accepted with broken signatures and with repeated ones
as well. -/
theorem verify?_signatures_firstMove :
    ((firstMove {} (encode 11 1)).Alike SignedState.Covered scribbled ∧
      (hall {}).verify? seating opening (firstMove {} (encode 11 1)) = some (encode 11 1) ∧
      (hall {}).verify? seating opening scribbled = some (encode 11 1)) ∧
    ((firstMove {} (encode 11 1)).Alike SignedState.SameSignatures doubled ∧
      (hall {}).verify? seating opening doubled
        = (hall {}).verify? seating opening (firstMove {} (encode 11 1))) ∧
    (firstMove {} (encode 11 1)).Alike ((hall {}).SameSigners seating) scribbled ∧
      (hall {}).verify? seating opening scribbled
        = (hall {}).verify? seating opening (firstMove {} (encode 11 1)) := by
  have covered : (firstMove {} (encode 11 1)).Alike SignedState.Covered scribbled :=
    .resign fun s => ⟨rfl, List.subset_append_right _ _⟩
  have repeated : (firstMove {} (encode 11 1)).Alike SignedState.SameSignatures doubled :=
    .resign fun s => ⟨rfl, by simp⟩
  obtain ⟨more, _, same⟩ :=
    verify?_signatures (hall {}) seating opening (firstMove {} (encode 11 1)) scribbled
  obtain ⟨_, again, _⟩ :=
    verify?_signatures (hall {}) seating opening (firstMove {} (encode 11 1)) doubled
  exact ⟨⟨covered, firstMove_verified, more covered _ firstMove_verified⟩,
    ⟨repeated, again repeated⟩, scribbled_sameSigners, same scribbled_sameSigners⟩

end Channel
end StateChannel
