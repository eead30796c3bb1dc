import StateChannel.Decimal
import StateChannel.Json.Basic
import StateChannel.Json.Quoted

/-!
# Records in JSON

A record is written as an object of its fields. Reading takes the fields of an object in any order,
ignores members that are no fields, and refuses a field that is missing or given twice; it also
takes an array of exactly the fields in order.
-/

namespace StateChannel.Json

/-- A natural number in JSON. -/
def ofNat (n : Nat) : Json :=
  .number (Decimal.digits n)

/-- A text in JSON. -/
def ofText (s : String) : Json :=
  .string (Quoted.encode s.toList)

/-- A byte string in JSON, as an array of numbers. -/
def ofBytes (b : Bytes) : Json :=
  .array (b.map fun x => ofNat x.toNat)

/-- A record in JSON, as an object. -/
def ofFields (fields : List (String × Json)) : Json :=
  .object (fields.map fun (name, v) => (Quoted.encode name.toList, v))

/-- The natural number that a value is, if it is below `bound`. -/
def below? (bound : Nat) : Json → Option Nat
  | .number spelling => (Decimal.value? spelling).filter (· < bound)
  | _ => none

/-- The byte that a value is. -/
def uint8? (v : Json) : Option UInt8 :=
  (v.below? UInt8.size).map UInt8.ofNat

/-- The 64-bit number that a value is. -/
def uint64? (v : Json) : Option UInt64 :=
  (v.below? UInt64.size).map UInt64.ofNat

/-- The text that a value is. -/
def text? : Json → Option String
  | .string spelling => (Quoted.decode? spelling).map String.ofList
  | _ => none

/-- The list that an array is, if each item is one of its elements. -/
def list? {α : Type} (item? : Json → Option α) : Json → Option (List α)
  | .array items => items.mapM item?
  | _ => none

/-- The byte string that a value is. -/
def bytes? (v : Json) : Option Bytes :=
  v.list? uint8?

/-- The value of the only member with a name. -/
def only? (members : List (List Char × Json)) (name : String) : Option Json :=
  match members.filter (·.1 = name.toList) with
  | [(_, v)] => some v
  | _ => none

/-- The values of the fields of a record in order. -/
def record? (names : List String) : Json → Option (List Json)
  | .array items => if items.length = names.length then some items else none
  | .object members => do
    let members ← members.mapM fun (key, v) => (Quoted.decode? key).map (·, v)
    names.mapM (only? members)
  | _ => none

end StateChannel.Json
