import StateChannel.Hex

/-!
# JSON tokens

A text is scanned into tokens character by character. A number is in one of the phases of its
grammar and ends at the first character that does not continue it; a string ends at the first quote
that is not part of an escape. Blanks separate tokens and are dropped.
-/

namespace StateChannel.Json

/-- A token of a JSON text. -/
inductive Token where
  | openArray
  | closeArray
  | openObject
  | closeObject
  | comma
  | colon
  | null
  | bool (b : Bool)
  | number (spelling : List Char)
  | string (spelling : List Char)
deriving DecidableEq

namespace Token

/-- The text of a token. -/
def spelling : Token → List Char
  | openArray => ['[']
  | closeArray => [']']
  | openObject => ['\x7b']
  | closeObject => ['\x7d']
  | comma => [',']
  | colon => [':']
  | null => ['n', 'u', 'l', 'l']
  | bool true => ['t', 'r', 'u', 'e']
  | bool false => ['f', 'a', 'l', 's', 'e']
  | number spelling => spelling
  | string spelling => '"' :: spelling ++ ['"']

/-- The part of a number that has been read last. -/
inductive Phase where
  | minus
  | zero
  | whole
  | point
  | fraction
  | exponent
  | exponentSign
  | exponentDigits
deriving DecidableEq

/-- The phase that a character leads on to, unless the number cannot go on with it. -/
def Phase.next? (p : Phase) (c : Char) : Option Phase :=
  match p with
  | minus => if c = '0' then some zero else if c.isDigit then some whole else none
  | zero => if c = '.' then some point else if c = 'e' ∨ c = 'E' then some exponent else none
  | whole =>
    if c.isDigit then some whole
    else if c = '.' then some point
    else if c = 'e' ∨ c = 'E' then some exponent
    else none
  | point => if c.isDigit then some fraction else none
  | fraction =>
    if c.isDigit then some fraction else if c = 'e' ∨ c = 'E' then some exponent else none
  | exponent =>
    if c = '+' ∨ c = '-' then some exponentSign
    else if c.isDigit then some exponentDigits
    else none
  | exponentSign | exponentDigits => if c.isDigit then some exponentDigits else none

/-- Whether a number may end after a phase. -/
def Phase.final : Phase → Bool
  | zero | whole | fraction | exponentDigits => true
  | minus | point | exponent | exponentSign => false

/-- What the scanner has read of the current token, characters in reverse. -/
inductive Reading where
  /-- No token has been begun. -/
  | nothing
  /-- A word, of which `rest` has to follow. -/
  | word (rest : List Char) (token : Token)
  | number (phase : Phase) (read : List Char)
  | string (read : List Char)
  /-- A string up to a backslash. -/
  | escape (read : List Char)
  /-- A string up to an escape of which `left` digits have to follow. -/
  | unit (left : Nat) (read : List Char)

/-- A scanner between two characters: the finished tokens, the latest first, and the current one. -/
structure Scanner where
  done : List Token
  reading : Reading

namespace Scanner

/-- A blank or the first character of a token. -/
def start (done : List Token) (c : Char) : Option Scanner :=
  match c with
  | ' ' | '\t' | '\n' | '\r' => some ⟨done, .nothing⟩
  | '[' => some ⟨openArray :: done, .nothing⟩
  | ']' => some ⟨closeArray :: done, .nothing⟩
  | '\x7b' => some ⟨openObject :: done, .nothing⟩
  | '\x7d' => some ⟨closeObject :: done, .nothing⟩
  | ',' => some ⟨comma :: done, .nothing⟩
  | ':' => some ⟨colon :: done, .nothing⟩
  | 'n' => some ⟨done, .word ['u', 'l', 'l'] null⟩
  | 't' => some ⟨done, .word ['r', 'u', 'e'] (bool true)⟩
  | 'f' => some ⟨done, .word ['a', 'l', 's', 'e'] (bool false)⟩
  | '"' => some ⟨done, .string []⟩
  | '-' => some ⟨done, .number .minus [c]⟩
  | c => (Phase.minus.next? c).map fun phase => ⟨done, .number phase [c]⟩

/-- One character more, unless no text goes on like this. -/
def feed (s : Scanner) (c : Char) : Option Scanner :=
  match s.reading with
  | .nothing => start s.done c
  | .word rest token =>
    match rest with
    | [] => none
    | [d] => if c = d then some ⟨token :: s.done, .nothing⟩ else none
    | d :: rest => if c = d then some ⟨s.done, .word rest token⟩ else none
  | .number phase read =>
    match phase.next? c with
    | some next => some ⟨s.done, .number next (c :: read)⟩
    | none => if phase.final then start (number read.reverse :: s.done) c else none
  | .string read =>
    if c = '"' then some ⟨string read.reverse :: s.done, .nothing⟩
    else if c = '\\' then some ⟨s.done, .escape (c :: read)⟩
    else if c.toNat < 0x20 then none
    else some ⟨s.done, .string (c :: read)⟩
  | .escape read =>
    if c = 'u' then some ⟨s.done, .unit 4 (c :: read)⟩
    else if c ∈ ['"', '\\', '/', 'b', 'f', 'n', 'r', 't'] then some ⟨s.done, .string (c :: read)⟩
    else none
  | .unit left read =>
    if (Hex.value? c).isNone then none
    else if left ≤ 1 then some ⟨s.done, .string (c :: read)⟩
    else some ⟨s.done, .unit (left - 1) (c :: read)⟩

/-- The tokens in order, if the text may end here. -/
def finish? (s : Scanner) : Option (List Token) :=
  match s.reading with
  | .nothing => some s.done.reverse
  | .number phase read => if phase.final then some (number read.reverse :: s.done).reverse else none
  | _ => none

end Scanner

/-- The tokens of a text. -/
def scan? (text : List Char) : Option (List Token) := do
  let s ← text.foldlM Scanner.feed ⟨[], .nothing⟩
  s.finish?

end Token

end StateChannel.Json
