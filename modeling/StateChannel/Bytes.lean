/-!
# Byte strings

Board states, moves, signatures and identifiers are byte strings. A text becomes one through its
UTF-8 encoding, and a byte string is the encoding of at most one text.
-/

namespace StateChannel

/-- A byte string. -/
abbrev Bytes := List UInt8

namespace Bytes

/-- The UTF-8 encoding of a text. -/
def ofText (s : String) : Bytes :=
  s.toUTF8.data.toList

/-- The text that a byte string encodes in UTF-8, if it encodes one. -/
def text? (b : Bytes) : Option String :=
  String.fromUTF8? ⟨b.toArray⟩

/-- A byte string reads as a text exactly if it is the encoding of that text. -/
theorem text?_eq_some_iff {b : Bytes} {s : String} : text? b = some s ↔ b = ofText s := by
  unfold text? ofText String.fromUTF8?
  constructor
  · intro h
    split at h
    · cases h
      rfl
    · cases h
  · rintro rfl
    exact dif_pos s.isValidUTF8

/-- The bytes of a text read back as the text. -/
@[simp] theorem text?_ofText (s : String) : text? (ofText s) = some s :=
  text?_eq_some_iff.2 rfl

/-- Different texts have different encodings. -/
theorem ofText_injective {s t : String} (h : ofText s = ofText t) : s = t := by
  have hs := text?_ofText s
  rw [h, text?_ofText] at hs
  exact (Option.some.inj hs).symm

/-- The bytes of two texts in a row are those of the first and then those of the second. -/
theorem ofText_append (s t : String) : ofText (s ++ t) = ofText s ++ ofText t := by
  simp [ofText]

/-- The encoding of a text is that of its characters in order. -/
theorem ofText_ofList (cs : List Char) :
    ofText (String.ofList cs) = cs.flatMap String.utf8EncodeChar := by
  simp [ofText, List.utf8Encode]

end Bytes

end StateChannel
