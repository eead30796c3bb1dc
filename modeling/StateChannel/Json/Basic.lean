/-!
# JSON values

A value keeps its numbers and strings as they are spelt, so that every document has a value, also
one whose numbers or strings nobody asks for.
-/

namespace StateChannel

/-- A JSON value. -/
inductive Json where
  | null
  | bool (b : Bool)
  /-- A number, as spelt. -/
  | number (spelling : List Char)
  /-- A string, as spelt between its quotes. -/
  | string (spelling : List Char)
  | array (items : List Json)
  /-- An object with its members in order, each key as spelt between its quotes. -/
  | object (members : List (List Char × Json))

end StateChannel
