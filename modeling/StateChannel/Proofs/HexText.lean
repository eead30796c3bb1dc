import Mathlib.Tactic.Lemma
import StateChannel.ChannelId

/-!
# What reads as a channel identifier

A text reads as bytes exactly if it has an even number of characters, all of them hexadecimal
digits. It is then the written form of these bytes up to case (`encode_of_decode?`). For a text that
does not read, this can be seen in its encoding, too: each character that is no digit has a byte
that is none.
-/

namespace StateChannel

namespace Hex

/-- The numbers of hexadecimal digits of either case. -/
def IsDigit (n : Nat) : Prop :=
  0x30 ≤ n ∧ n ≤ 0x39 ∨ 0x41 ≤ n ∧ n ≤ 0x46 ∨ 0x61 ≤ n ∧ n ≤ 0x66

instance : DecidablePred IsDigit :=
  fun _ => inferInstanceAs (Decidable (_ ∨ _ ∨ _))

variable {c : Char} {cs : List Char} {b : Bytes} {s : String} {n : Nat}

/-- What holds of all code points below 128 holds of every ASCII character. -/
lemma forall_ascii {P : Char → Prop} (h : ∀ n < 128, P (Char.ofNat n)) (small : c.toNat < 128) :
    P c := by
  have check := h c.toNat small
  rwa [Char.ofNat_toNat] at check

/-- Only ASCII characters have a value as digits. -/
lemma value?_of_not_ascii (large : ¬ c.toNat < 128) : value? c = none := by
  have above {d : Char} (ascii : d.toNat < 128) : ¬ c ≤ d := by
    intro le
    have le : c.toNat ≤ d.toNat := le
    omega
  unfold value?
  rw [if_neg fun h => above (by decide) h.2, if_neg fun h => above (by decide) h.2,
    if_neg fun h => above (by decide) h.2]

/-- A character has no value exactly if it is no hexadecimal digit. -/
lemma value?_eq_none_iff : value? c = none ↔ ¬ IsDigit c.toNat := by
  by_cases small : c.toNat < 128
  · exact forall_ascii (P := fun c => value? c = none ↔ ¬ IsDigit c.toNat) (by decide) small
  · refine iff_of_true (value?_of_not_ascii small) fun digit => ?_
    unfold IsDigit at digit
    omega

/-- A digit is the written form of its value up to case. -/
lemma digitChar_of_value? (h : value? c = some n) : n < 16 ∧ Nat.digitChar n = c.toLower := by
  by_cases small : c.toNat < 128
  · have check : ∀ n ∈ value? c, n < 16 ∧ Nat.digitChar n = c.toLower :=
      forall_ascii (P := fun c => ∀ n ∈ value? c, n < 16 ∧ Nat.digitChar n = c.toLower)
        (by decide) small
    exact check n h
  · rw [value?_of_not_ascii small] at h
    cases h

/-- The digits of a byte are those of its halves. -/
lemma digits_join {high low : Nat} (h : high < 16) (l : low < 16) :
    digits (UInt8.ofNat (16 * high + low)) = [Nat.digitChar high, Nat.digitChar low] := by
  have value : (UInt8.ofNat (16 * high + low)).toNat = 16 * high + low :=
    UInt8.toNat_ofNat_of_lt' (show 16 * high + low < 256 by omega)
  have quotient : (16 * high + low) / 16 = high := by omega
  have remainder : (16 * high + low) % 16 = low := by omega
  rw [digits, value, quotient, remainder]

/-- Digits do not read exactly if their number is odd or one of them is no hexadecimal digit. -/
lemma ofDigits?_eq_none_iff :
    ofDigits? cs = none ↔ cs.length % 2 = 1 ∨ ∃ c ∈ cs, ¬ IsDigit c.toNat := by
  -- Digits are read in pairs, which leaves the parity of those behind them as it is.
  induction cs using ofDigits?.induct with
  | case1 => simp [ofDigits?]
  | case2 c => simp [ofDigits?]
  | case3 c d r ih =>
    have size : (c :: d :: r).length % 2 = r.length % 2 := by
      rw [List.length_cons, List.length_cons]
      omega
    have other : (∃ e ∈ c :: d :: r, ¬ IsDigit e.toNat) ↔
        value? c = none ∨ value? d = none ∨ ∃ e ∈ r, ¬ IsDigit e.toNat := by
      simp [value?_eq_none_iff]
    rw [size, other]
    cases readHigh : value? c with
    | none => simp [ofDigits?, readHigh]
    | some high =>
      cases readLow : value? d with
      | none => simp [ofDigits?, readHigh, readLow]
      | some low =>
        have rest : ofDigits? (c :: d :: r) = none ↔ ofDigits? r = none := by
          cases readRest : ofDigits? r <;> simp [ofDigits?, readHigh, readLow, readRest]
        simp [rest, ih]

/-- Digits that read are written again in lower case. -/
lemma flatMap_of_ofDigits? (h : ofDigits? cs = some b) :
    b.flatMap digits = cs.map Char.toLower := by
  induction cs using ofDigits?.induct generalizing b with
  | case1 =>
    cases h
    rfl
  | case2 c => cases h
  | case3 c d r ih =>
    simp only [ofDigits?, Option.bind_eq_bind, Option.bind_eq_some_iff] at h
    obtain ⟨high, readHigh, low, readLow, rest, readRest, h⟩ := h
    cases h
    obtain ⟨small, upper⟩ := digitChar_of_value? readHigh
    obtain ⟨small', lower⟩ := digitChar_of_value? readLow
    rw [List.flatMap_cons, digits_join small small', ih readRest, upper, lower]
    rfl

/-- A text is put in lower case character by character. -/
lemma toList_toLower (s : String) : s.toLower.toList = s.toList.map Char.toLower :=
  String.toList_map

/-- A text that reads is written again in lower case. -/
lemma encode_of_decode? (h : decode? s = some b) : encode b = s.toLower := by
  apply String.toList_inj.1
  rw [encode, String.toList_ofList, flatMap_of_ofDigits? h, toList_toLower]

/-- The value of a digit does not depend on its case. -/
lemma value?_toLower (c : Char) : value? c.toLower = value? c := by
  by_cases small : c.toNat < 128
  · exact forall_ascii (P := fun c => value? c.toLower = value? c) (by decide) small
  · have same : c.toLower = c := by
      unfold Char.toLower
      refine dif_neg fun upper => small ?_
      have le : c.toNat ≤ 90 := upper.2
      omega
    rw [same]

/-- How digits read does not depend on their case. -/
lemma ofDigits?_toLower (cs : List Char) : ofDigits? (cs.map Char.toLower) = ofDigits? cs := by
  induction cs using ofDigits?.induct with
  | case1 => rfl
  | case2 c => rfl
  | case3 c d r ih => simp only [List.map_cons, ofDigits?, value?_toLower, ih]

/-- How a text reads does not depend on its case. -/
lemma decode?_toLower (s : String) : decode? s.toLower = decode? s := by
  rw [decode?, toList_toLower, ofDigits?_toLower, decode?]

/-- A text that reads has two digits for each byte. -/
lemma length_of_decode? (h : decode? s = some b) : s.length = 2 * b.length := by
  have same : s.toLower.length = s.length := String.length_map ..
  rw [← length_encode, encode_of_decode? h, same]

/-- The last byte of what is not ASCII is 128 or more. -/
lemma mem_utf8EncodeChar_of_not_ascii (large : ¬ c.toNat ≤ 127) :
    UInt8.ofNat (c.toNat % 64 + 128) ∈ String.utf8EncodeChar c := by
  have large : ¬ c.val.toNat ≤ 127 := large
  rw [String.utf8EncodeChar]
  simp only [if_neg large]
  repeat' split
  all_goals simp

/-- An ASCII character is encoded as one byte. -/
lemma utf8EncodeChar_of_ascii (small : c.toNat ≤ 127) :
    String.utf8EncodeChar c = [UInt8.ofNat c.toNat] :=
  if_pos small

/-- A digit is encoded by digits only, and nothing else is. -/
lemma forall_utf8EncodeChar_iff :
    (∀ x ∈ String.utf8EncodeChar c, IsDigit x.toNat) ↔ IsDigit c.toNat := by
  have value {n : Nat} (fits : n < 256) : (UInt8.ofNat n).toNat = n :=
    UInt8.toNat_ofNat_of_lt' fits
  by_cases small : c.toNat ≤ 127
  · rw [utf8EncodeChar_of_ascii small, List.forall_mem_singleton, value (by omega)]
  · refine iff_of_false (fun digits => ?_) fun digit => ?_
    · have digit := digits _ (mem_utf8EncodeChar_of_not_ascii small)
      rw [value (by omega)] at digit
      unfold IsDigit at digit
      omega
    · unfold IsDigit at digit
      omega

/-- The bytes of a text are those of its characters in order. -/
lemma ofText_eq_flatMap (s : String) : Bytes.ofText s = s.toList.flatMap String.utf8EncodeChar := by
  rw [← Bytes.ofText_ofList, String.ofList_toList]

/-- All bytes of a text are digits exactly if all its characters are. -/
lemma forall_ofText_iff :
    (∀ x ∈ Bytes.ofText s, IsDigit x.toNat) ↔ ∀ c ∈ s.toList, IsDigit c.toNat := by
  rw [ofText_eq_flatMap, List.forall_mem_flatMap]
  simp only [forall_utf8EncodeChar_iff]

/-- As many bytes encode digits as there are digits. -/
lemma length_flatMap_utf8EncodeChar (h : ∀ c ∈ cs, IsDigit c.toNat) :
    (cs.flatMap String.utf8EncodeChar).length = cs.length := by
  induction cs with
  | nil => rfl
  | cons c cs ih =>
    obtain ⟨digit, digits⟩ := List.forall_mem_cons.1 h
    have small : c.toNat ≤ 127 := by
      unfold IsDigit at digit
      omega
    rw [List.flatMap_cons, utf8EncodeChar_of_ascii small, List.length_append, ih digits,
      List.length_singleton, List.length_cons, Nat.add_comm]

/-- A text does not read exactly if its encoding has an odd number of bytes, or a byte that is no
digit. -/
lemma decode?_eq_none_iff : decode? s = none ↔
    (Bytes.ofText s).length % 2 = 1 ∨ ∃ x ∈ Bytes.ofText s, ¬ IsDigit x.toNat := by
  rw [decode?, ofDigits?_eq_none_iff]
  by_cases digits : ∀ c ∈ s.toList, IsDigit c.toNat
  · have bytes := forall_ofText_iff.2 digits
    have none : ¬ ∃ c ∈ s.toList, ¬ IsDigit c.toNat := by
      rintro ⟨c, mem, other⟩
      exact other (digits c mem)
    have none' : ¬ ∃ x ∈ Bytes.ofText s, ¬ IsDigit x.toNat := by
      rintro ⟨x, mem, other⟩
      exact other (bytes x mem)
    rw [or_iff_left none, or_iff_left none', ofText_eq_flatMap,
      length_flatMap_utf8EncodeChar digits]
  · have bytes := mt forall_ofText_iff.1 digits
    refine iff_of_true (.inr ?_) (.inr ?_)
    · simpa using digits
    · simpa using bytes

/-- A text reads exactly if it is an even number of digits. -/
lemma exists_decode?_iff :
    (∃ b, decode? s = some b) ↔ s.length % 2 = 0 ∧ ∀ c ∈ s.toList, IsDigit c.toNat := by
  rw [← Option.isSome_iff_exists, Option.isSome_iff_ne_none, decode?, ne_eq, ofDigits?_eq_none_iff,
    String.length_toList]
  simp

end Hex

namespace ChannelId

variable {id : ChannelId} {s : String} {n : Nat}

/-- Bytes of the right length are an identifier. Otherwise it is said what is wrong. -/
lemma ofHex_cases (s : String) :
    (∃ id : ChannelId, Hex.decode? s = some id.bytes ∧ ofHex s = .ok id) ∨
    (∃ b, Hex.decode? s = some b ∧ b.length ≠ 32 ∧ ofHex s = .error (.wrongLength b.length)) ∨
    (Hex.decode? s = none ∧ ofHex s = .error .notHex) := by
  unfold ofHex
  cases Hex.decode? s with
  | none => exact .inr (.inr ⟨rfl, rfl⟩)
  | some b =>
    by_cases size : b.length = 32
    · exact .inl ⟨⟨b, size⟩, rfl, dif_pos size⟩
    · exact .inr (.inl ⟨b, rfl, size, dif_neg size⟩)

/-- A text is the name of a channel exactly if it reads as the bytes of that name. -/
lemma ofHex_eq_ok_iff_decode? : ofHex s = .ok id ↔ Hex.decode? s = some id.bytes := by
  constructor
  · intro eq
    rcases ofHex_cases s with ⟨id', read, eq'⟩ | ⟨b, _, _, eq'⟩ | ⟨_, eq'⟩
    all_goals
      rw [eq'] at eq
      cases eq
    exact read
  · intro read
    rw [ofHex, read]
    exact dif_pos id.length_bytes

/-- A text has the wrong length for a name exactly if it reads as another number of bytes. -/
lemma ofHex_eq_wrongLength_iff_decode? :
    ofHex s = .error (.wrongLength n) ↔ n ≠ 32 ∧ ∃ b, Hex.decode? s = some b ∧ b.length = n := by
  rcases ofHex_cases s with ⟨id, read, eq⟩ | ⟨b, read, size, eq⟩ | ⟨read, eq⟩
  · simp only [read, eq]
    constructor
    · intro error
      cases error
    · rintro ⟨other, _, same, rfl⟩
      cases same
      exact absurd id.length_bytes other
  · simp only [read, eq]
    constructor
    · intro error
      cases error
      exact ⟨size, b, rfl, rfl⟩
    · rintro ⟨_, _, same, rfl⟩
      cases same
      rfl
  · simp [read, eq]

/-- A text is refused as no digits exactly if it does not read. -/
lemma ofHex_eq_notHex_iff_decode? : ofHex s = .error .notHex ↔ Hex.decode? s = none := by
  rcases ofHex_cases s with ⟨id, read, eq⟩ | ⟨b, read, _, eq⟩ | ⟨read, eq⟩
  all_goals simp [read, eq]

/-- A text is the name of a channel exactly if it is that name but for the case of letters. -/
lemma ofHex_eq_ok_iff : ofHex s = .ok id ↔ id.hex = s.toLower := by
  rw [ofHex_eq_ok_iff_decode?]
  constructor
  · intro read
    exact Hex.encode_of_decode? read
  · intro written
    rw [← Hex.decode?_toLower, ← written, hex, Hex.decode?_encode]

/-- A text reads as some bytes exactly if it is twice as many digits. -/
lemma exists_bytes_iff : (∃ b, Hex.decode? s = some b ∧ b.length = n) ↔
    s.length = 2 * n ∧ ∀ c ∈ s.toList, Hex.IsDigit c.toNat := by
  constructor
  · rintro ⟨b, read, rfl⟩
    exact ⟨Hex.length_of_decode? read, (Hex.exists_decode?_iff.1 ⟨b, read⟩).2⟩
  · rintro ⟨size, digits⟩
    obtain ⟨b, read⟩ := Hex.exists_decode?_iff.2 ⟨by omega, digits⟩
    have size' := Hex.length_of_decode? read
    exact ⟨b, read, by omega⟩

/-- A text reads as an identifier exactly if it is 64 hexadecimal digits, which are then the written
form of the identifier up to case. Another even number of digits is of the wrong length. Everything
else is not hexadecimal: it is encoded in an odd number of bytes, or a byte of it is no digit. What
is written for an identifier reads as that identifier, and for no two identifiers the same is
written. -/
theorem ofHex_exact :
    (∀ s, (∃ id, ofHex s = .ok id) ↔ s.length = 64 ∧ ∀ c ∈ s.toList, Hex.IsDigit c.toNat) ∧
    (∀ s id, ofHex s = .ok id ↔ id.hex = s.toLower) ∧
    (∀ s n, ofHex s = .error (.wrongLength n) ↔
      n ≠ 32 ∧ s.length = 2 * n ∧ ∀ c ∈ s.toList, Hex.IsDigit c.toNat) ∧
    (∀ s, ofHex s = .error .notHex ↔
      (Bytes.ofText s).length % 2 = 1 ∨ ∃ x ∈ Bytes.ofText s, ¬ Hex.IsDigit x.toNat) ∧
    (∀ id, ofHex id.hex = .ok id) ∧
    ∀ id id' : ChannelId, id.hex = id'.hex → id = id' := by
  refine ⟨fun s => ?_, fun s id => ofHex_eq_ok_iff, fun s n => ?_, fun s => ?_, ofHex_hex,
    fun _ _ => hex_injective⟩
  · have bytes : (∃ id, ofHex s = .ok id) ↔ ∃ b, Hex.decode? s = some b ∧ b.length = 32 := by
      constructor
      · rintro ⟨id, read⟩
        exact ⟨id.bytes, ofHex_eq_ok_iff_decode?.1 read, id.length_bytes⟩
      · rintro ⟨b, read, size⟩
        exact ⟨⟨b, size⟩, ofHex_eq_ok_iff_decode?.2 read⟩
    rw [bytes, exists_bytes_iff]
  · rw [ofHex_eq_wrongLength_iff_decode?, exists_bytes_iff]
  · rw [ofHex_eq_notHex_iff_decode?, Hex.decode?_eq_none_iff]

/-- Two letters with an accent are four bytes, none of which is a digit. -/
example : ofHex "éé" = .error .notHex :=
  rfl

end ChannelId

end StateChannel
