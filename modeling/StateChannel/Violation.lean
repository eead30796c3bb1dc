/-!
# Violated invariants

What has been confirmed on-chain is trusted, as is what a channel keeps itself. When such data fails
a check, the state of the channel cannot be relied on, and processing ends.
-/

namespace StateChannel

/-- A condition that does not occur while a channel is sound. Epochs are named by their written
identifiers. -/
inductive Violation
  /-- The state was read before any on-chain update. -/
  | uninitialised
  /-- The rules do not accept an on-chain proof for the version of its epoch. -/
  | unsupportedVersion (epoch : String)
  /-- An on-chain proof does not hold. -/
  | invalidProof (epoch : String)
  /-- A known epoch was confirmed with different metadata. -/
  | metadataChanged (epoch : String)
  /-- A known epoch was confirmed with a different founding state. -/
  | foundingStateChanged (epoch : String)
  /-- The rules do not parse the state that a valid proof ends in. -/
  | unparsableState (epoch : String)
  /-- A parsed state refers to another instance of metadata than the one that its epoch has. -/
  | metadataNotShared (epoch : String)
  /-- The selected epoch is not known. -/
  | missingEpoch (epoch : String)
  /-- A queue was created without room for an update. -/
  | zeroCapacity
  /-- The size that a queue keeps disagrees with what it holds. -/
  | queueAccounting (detail : String)
deriving DecidableEq, Repr

namespace Violation

/-- The wording of a violation. -/
def message : Violation → String
  | uninitialised => "RollingState has not been initialised yet"
  | unsupportedVersion epoch =>
    s!"On-chain state proof for reinit {epoch} has an unsupported version"
  | invalidProof epoch => s!"State proof provided on-chain is not valid (reinit {epoch})"
  | metadataChanged epoch => s!"Metadata for reinit {epoch} differs from the stored metadata"
  | foundingStateChanged epoch => s!"Reinit state for reinit {epoch} differs from the stored state"
  | unparsableState epoch => s!"Rules failed to parse a verified state for reinit {epoch}"
  | metadataNotShared epoch =>
    s!"Parsed state of reinit {epoch} does not share the entry's metadata"
  | missingEpoch epoch => s!"Selected reinit {epoch} has no entry"
  | zeroCapacity => "State update queue capacity must be positive"
  | queueAccounting detail => s!"Update queue bookkeeping is inconsistent: {detail}"

/-- Ends processing unless a condition holds. -/
def ensure (condition : Bool) (v : Violation) : Except Violation Unit :=
  if condition then .ok () else .error v

/-- A check goes through exactly if its condition holds. -/
@[simp] theorem ensure_eq_ok_iff {condition : Bool} {v : Violation} {u : Unit} :
    ensure condition v = .ok u ↔ condition = true := by
  cases condition <;> simp [ensure]

/-- A check whose condition holds goes through. -/
theorem ensure_of {condition : Bool} (h : condition = true) (v : Violation) :
    ensure condition v = .ok () :=
  ensure_eq_ok_iff.2 h

variable {α β : Type}

/-- A result that is given back is no violation. -/
@[simp] theorem pure_eq_ok (a : α) : (pure a : Except Violation α) = .ok a :=
  rfl

/-- What comes after a result goes on from it. -/
@[simp] theorem ok_bind (a : α) (f : α → Except Violation β) : (Except.ok a >>= f) = f a :=
  rfl

/-- Nothing comes after a violation. -/
@[simp] theorem error_bind (v : Violation) (f : α → Except Violation β) :
    (Except.error v >>= f) = .error v :=
  rfl

/-- Two steps succeed exactly if the first one does and the second one does after it. -/
theorem bind_eq_ok_iff {x : Except Violation α} {f : α → Except Violation β} {b : β} :
    x >>= f = .ok b ↔ ∃ a, x = .ok a ∧ f a = .ok b := by
  cases x <;> simp

/-- Two steps fail exactly if the first one does, or the second one does after it. -/
theorem bind_eq_error_iff {x : Except Violation α} {f : α → Except Violation β} {v : Violation} :
    x >>= f = .error v ↔ x = .error v ∨ ∃ a, x = .ok a ∧ f a = .error v := by
  cases x <;> simp

end Violation

end StateChannel
