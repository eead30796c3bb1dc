import StateChannel.Json.Basic
import StateChannel.Json.Token

/-!
# Printing JSON

A value is written as the compact text of its tokens.
-/

namespace StateChannel.Json

mutual

/-- The tokens of a value. -/
def tokens : Json → List Token
  | .null => [.null]
  | .bool b => [.bool b]
  | .number spelling => [.number spelling]
  | .string spelling => [.string spelling]
  | .array items => .openArray :: itemTokens items
  | .object members => .openObject :: memberTokens members

/-- The tokens of the items of an array and of its end. -/
def itemTokens : List Json → List Token
  | [] => [.closeArray]
  | v :: vs => tokens v ++ moreItemTokens vs

/-- The tokens of the items that follow the first one and of the end of the array. -/
def moreItemTokens : List Json → List Token
  | [] => [.closeArray]
  | v :: vs => .comma :: tokens v ++ moreItemTokens vs

/-- The tokens of the members of an object and of its end. -/
def memberTokens : List (List Char × Json) → List Token
  | [] => [.closeObject]
  | (key, v) :: ms => .string key :: .colon :: tokens v ++ moreMemberTokens ms

/-- The tokens of the members that follow the first one and of the end of the object. -/
def moreMemberTokens : List (List Char × Json) → List Token
  | [] => [.closeObject]
  | (key, v) :: ms => .comma :: .string key :: .colon :: tokens v ++ moreMemberTokens ms

end

/-- The compact text of a value. -/
def render (v : Json) : String :=
  String.ofList (v.tokens.flatMap Token.spelling)

end StateChannel.Json
