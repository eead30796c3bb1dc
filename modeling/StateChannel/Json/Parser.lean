import StateChannel.Json.Printer

/-!
# Parsing JSON

A value is read from its tokens with a stack of the arrays and objects that are still open. Main
statement: the tokens of a value read as that value.
-/

namespace StateChannel.Json

/-- An open array or object, what it holds so far in reverse. -/
inductive Frame where
  | array (items : List Json)
  /-- An object that waits for the value of `key`. -/
  | member (done : List (List Char × Json)) (key : List Char)

/-- A parser between two tokens, with a stack of the open arrays and objects, the innermost first.
-/
inductive Parser where
  /-- A value has to follow. -/
  | value (stack : List Frame)
  /-- An array has been opened. -/
  | items (stack : List Frame)
  /-- An object has been opened. -/
  | members (stack : List Frame)
  /-- The key of a further member has to follow. -/
  | key (done : List (List Char × Json)) (stack : List Frame)
  /-- The colon after a key has to follow. -/
  | colon (done : List (List Char × Json)) (key : List Char) (stack : List Frame)
  /-- A value has just ended. -/
  | ended (v : Json) (stack : List Frame)

namespace Parser

/-- The first token of a value. -/
def start (stack : List Frame) : Token → Option Parser
  | .null => some (ended .null stack)
  | .bool b => some (ended (.bool b) stack)
  | .number spelling => some (ended (.number spelling) stack)
  | .string spelling => some (ended (.string spelling) stack)
  | .openArray => some (items stack)
  | .openObject => some (members stack)
  | _ => none

/-- One token more, unless no value goes on like this. -/
def feed : Parser → Token → Option Parser
  | value stack, t => start stack t
  | items stack, .closeArray => some (ended (.array []) stack)
  | items stack, t => start (.array [] :: stack) t
  | members stack, .closeObject => some (ended (.object []) stack)
  | members stack, .string k => some (colon [] k stack)
  | key done stack, .string k => some (colon done k stack)
  | colon done k stack, .colon => some (value (.member done k :: stack))
  | ended v (.array vs :: stack), .comma => some (value (.array (v :: vs) :: stack))
  | ended v (.array vs :: stack), .closeArray => some (ended (.array (v :: vs).reverse) stack)
  | ended v (.member ms k :: stack), .comma => some (key ((k, v) :: ms) stack)
  | ended v (.member ms k :: stack), .closeObject =>
    some (ended (.object ((k, v) :: ms).reverse) stack)
  | _, _ => none

/-- The value that has been read, if all arrays and objects are closed. -/
def finish? : Parser → Option Json
  | ended v [] => some v
  | _ => none

end Parser

/-- The value that a sequence of tokens stands for. -/
def ofTokens? (ts : List Token) : Option Json := do
  let p ← ts.foldlM Parser.feed (.value [])
  p.finish?

/-- After an array has been opened, its first value is read like any other value. -/
theorem feed_items (stack : List Frame) (v : Json) (ts : List Token) :
    (v.tokens ++ ts).foldlM Parser.feed (.items stack)
      = (v.tokens ++ ts).foldlM Parser.feed (.value (.array [] :: stack)) := by
  cases v <;> rfl

mutual

/-- The tokens of a value read as that value. -/
theorem feed_tokens (v : Json) (stack : List Frame) :
    v.tokens.foldlM Parser.feed (.value stack) = some (.ended v stack) := by
  match v with
  | .null | .bool _ | .number _ | .string _ => rfl
  | .array [] | .object [] => rfl
  | .array (v :: vs) =>
    show (tokens v ++ moreItemTokens vs).foldlM Parser.feed (.items stack) = _
    rw [feed_items, List.foldlM_append, feed_tokens v]
    exact feed_moreItemTokens vs v [] stack
  | .object ((key, v) :: ms) =>
    show (tokens v ++ moreMemberTokens ms).foldlM Parser.feed (.value (.member [] key :: stack)) = _
    rw [List.foldlM_append, feed_tokens v]
    exact feed_moreMemberTokens ms v [] key stack

/-- The items that follow `v` and the items `done` before it complete the array. -/
theorem feed_moreItemTokens (vs : List Json) (v : Json) (done : List Json) (stack : List Frame) :
    (moreItemTokens vs).foldlM Parser.feed (.ended v (.array done :: stack))
      = some (.ended (.array (done.reverse ++ v :: vs)) stack) := by
  match vs with
  | [] => simp [moreItemTokens, Parser.feed]
  | w :: vs =>
    show (tokens w ++ moreItemTokens vs).foldlM Parser.feed
      (.value (.array (v :: done) :: stack)) = _
    rw [List.foldlM_append, feed_tokens w]
    refine (feed_moreItemTokens vs w (v :: done) stack).trans ?_
    simp

/-- The members that follow the one with `key` and `v` and the members `done` before it complete the
object. -/
theorem feed_moreMemberTokens (ms : List (List Char × Json)) (v : Json)
    (done : List (List Char × Json)) (key : List Char) (stack : List Frame) :
    (moreMemberTokens ms).foldlM Parser.feed (.ended v (.member done key :: stack))
      = some (.ended (.object (done.reverse ++ (key, v) :: ms)) stack) := by
  match ms with
  | [] => simp [moreMemberTokens, Parser.feed]
  | (k, w) :: ms =>
    show (tokens w ++ moreMemberTokens ms).foldlM Parser.feed
      (.value (.member ((key, v) :: done) k :: stack)) = _
    rw [List.foldlM_append, feed_tokens w]
    refine (feed_moreMemberTokens ms w ((key, v) :: done) k stack).trans ?_
    simp

end

/-- A value reads back from its tokens. -/
theorem ofTokens?_tokens (v : Json) : ofTokens? v.tokens = some v := by
  simp [ofTokens?, feed_tokens, Parser.finish?]

/-- The value that a text stands for. -/
def parse? (text : String) : Option Json :=
  Token.scan? text.toList >>= ofTokens?

end StateChannel.Json
