/-!
# Blank characters and words

The characters with the property White_Space separate words. They are listed as ranges of code
points, both ends included.
-/

namespace StateChannel.Blank

/-- The ranges of the property White_Space. -/
def ranges : List (Nat × Nat) :=
  [(0x09, 0x0D), (0x20, 0x20), (0x85, 0x85), (0xA0, 0xA0), (0x1680, 0x1680), (0x2000, 0x200A),
   (0x2028, 0x2029), (0x202F, 0x202F), (0x205F, 0x205F), (0x3000, 0x3000)]

/-- Whether a character has the property White_Space. -/
def isBlank (c : Char) : Bool :=
  ranges.any fun (first, last) => first ≤ c.toNat && c.toNat ≤ last

/-- A character in front of the word being read and the words after it. -/
def pushChar (c : Char) : List Char × List (List Char) → List Char × List (List Char)
  | (word, later) =>
    if isBlank c then ([], if word = [] then later else word :: later) else (c :: word, later)

/-- The words of a text: its maximal runs of characters that are not blank. -/
def words (cs : List Char) : List (List Char) :=
  match cs.foldr pushChar ([], []) with
  | (word, later) => if word = [] then later else word :: later

/-- A text without the blanks at its ends. -/
def trim (cs : List Char) : List Char :=
  ((cs.dropWhile isBlank).reverse.dropWhile isBlank).reverse

/-- No decimal digit is blank. -/
theorem isBlank_of_isDigit {c : Char} (h : c.isDigit) : isBlank c = false := by
  have bounds : 48 ≤ c.toNat ∧ c.toNat ≤ 57 := Char.isDigit_iff_toNat.1 h
  have outside : ∀ r ∈ ranges, r.2 < 48 ∨ 57 < r.1 := by decide
  rw [isBlank, List.any_eq_false]
  intro r mem
  have apart := outside r mem
  rw [Bool.and_eq_true, decide_eq_true_eq, decide_eq_true_eq]
  omega

/-- Characters that are not blank go in front of the word being read. -/
theorem foldr_pushChar {cs : List Char} (h : ∀ c ∈ cs, isBlank c = false) (word : List Char)
    (later : List (List Char)) : cs.foldr pushChar (word, later) = (cs ++ word, later) := by
  induction cs with
  | nil => rfl
  | cons c cs ih =>
    rw [List.foldr_cons, ih fun d mem => h d (List.mem_cons_of_mem c mem)]
    simp [pushChar, h c (List.mem_cons_self ..)]

/-- A blank between two words separates them. -/
theorem words_append_cons {v w : List Char} {c : Char} (hv : ∀ c ∈ v, isBlank c = false)
    (hw : ∀ c ∈ w, isBlank c = false) (hc : isBlank c) (nv : v ≠ []) (nw : w ≠ []) :
    words (v ++ c :: w) = [v, w] := by
  have last : (c :: w).foldr pushChar ([], []) = ([], [w]) := by
    rw [List.foldr_cons, foldr_pushChar hw]
    simp [pushChar, hc, nw]
  rw [words, List.foldr_append, last, foldr_pushChar hv]
  simp [nv]

end StateChannel.Blank
