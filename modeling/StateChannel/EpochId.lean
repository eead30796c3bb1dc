import Std.Data.ExtTreeMap
import Std.Data.ExtTreeSet
import StateChannel.Hex

/-!
# Epoch identifiers

Every reinitialisation of a channel starts a new epoch, named by opaque bytes. Epochs are ordered by
these bytes, and what is kept per epoch is kept in that order.
-/

namespace StateChannel

/-- Of two byte strings the lesser one is a proper start of the other one, or has the lesser byte
where they first differ. -/
theorem Bytes.compare_eq_lt_iff {a b : Bytes} : compare a b = .lt ↔ a < b := by
  induction a generalizing b with
  | nil =>
    cases b with
    | nil => exact ⟨nofun, nofun⟩
    | cons y b => exact iff_of_true rfl (List.nil_lt_cons y b)
  | cons x a ih =>
    cases b with
    | nil => exact ⟨nofun, nofun⟩
    | cons y b =>
      rw [List.compare_cons_cons, Ordering.then_eq_lt, List.cons_lt_cons_iff, Std.compare_eq_lt,
        Std.LawfulEqCmp.compare_eq_iff_eq, ih]

/-- The name of one reinitialisation of a channel. -/
structure EpochId where
  bytes : Bytes
deriving DecidableEq

namespace EpochId

/-- The written form of an identifier. -/
def hex (id : EpochId) : String :=
  Hex.encode id.bytes

/-- Different identifiers have different written forms. -/
theorem hex_injective {id id' : EpochId} (h : id.hex = id'.hex) : id = id' :=
  congrArg mk (Hex.encode_injective h)

/-- Identifiers are ordered as byte strings are, by the first byte that differs. -/
instance : Ord EpochId where
  compare a b := compare a.bytes b.bytes

instance : Std.TransOrd EpochId where
  eq_swap := Std.OrientedCmp.eq_swap (α := Bytes)
  isLE_trans := Std.TransCmp.isLE_trans (α := Bytes)

instance : Std.LawfulEqOrd EpochId where
  compare_self := Std.ReflCmp.compare_self (α := Bytes)
  eq_of_compare {a b} h := by
    cases a
    cases b
    exact congrArg mk (Std.LawfulEqCmp.eq_of_compare (α := Bytes) h)

/-- Identifiers in order, each of them once. -/
def sort (ids : List EpochId) : List EpochId :=
  (Std.ExtTreeSet.ofList ids).toList

end EpochId

/-- A value for each of finitely many epochs, in the order of their identifiers. -/
abbrev EpochMap (α : Type) := Std.ExtTreeMap EpochId α

end StateChannel
