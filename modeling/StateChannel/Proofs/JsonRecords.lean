import Mathlib.Tactic.Lemma
import StateChannel.Json.Record
import StateChannel.Proofs.JsonText

/-!
# Texts, numbers, lists and records in JSON

What is written for a text, a number, a list or a record is spelt as the format has it and reads
back. Every character has a spelling of its own, which stands for its code point, and code points of
characters are no surrogates, so nothing is paired. Fields are found by their names, which have to
differ.
-/

namespace StateChannel.Json

namespace Quoted

variable {c : Char} {cs : List Char}

/-- A character is written as a letter after a backslash, with the two lower digits of its code
point, or as itself. -/
lemma encodeChar_cases (c : Char) :
    (∃ e ∈ ['"', '\\', '/', 'b', 'f', 'n', 'r', 't'],
      encodeChar c = ['\\', e] ∧ escape? e = some c) ∨
    (c.toNat < 0x20 ∧ encodeChar c =
      ['\\', 'u', '0', '0', Nat.digitChar (c.toNat / 16), Nat.digitChar (c.toNat % 16)]) ∨
    (c ≠ '"' ∧ c ≠ '\\' ∧ ¬ c.toNat < 0x20 ∧ encodeChar c = [c]) := by
  unfold encodeChar
  split
  case h_8 quote backslash _ _ _ _ _ =>
    split
    next control =>
      have value : (UInt8.ofNat c.toNat).toNat = c.toNat :=
        UInt8.toNat_ofNat_of_lt' (show c.toNat < 256 by omega)
      rw [Hex.digits, value]
      exact .inr (.inl ⟨control, rfl⟩)
    next control => exact .inr (.inr ⟨quote, backslash, control, rfl⟩)
  all_goals exact .inl ⟨_, by decide, rfl, rfl⟩

/-- The digit zero has the value zero. -/
lemma value?_zero : Hex.value? '0' = some 0 :=
  rfl

/-- What is written for a character may stand in front of what is written within quotes. -/
lemma isQuoted_encodeChar (c : Char) (h : Token.IsQuoted cs) :
    Token.IsQuoted (encodeChar c ++ cs) := by
  rcases encodeChar_cases c with
    ⟨e, letter, eq, _⟩ | ⟨control, eq⟩ | ⟨quote, backslash, control, eq⟩
  · rw [eq]
    exact .escape letter h
  · rw [eq]
    have high := Hex.value?_digitChar (show c.toNat / 16 < 16 by omega)
    have low := Hex.value?_digitChar (show c.toNat % 16 < 16 by omega)
    exact .unit (by simp [value?_zero, high, low]) h
  · rw [eq]
    exact .plain quote backslash control h

/-- What is written for a text may stand within quotes. -/
lemma isQuoted_encode (cs : List Char) : Token.IsQuoted (encode cs) := by
  induction cs with
  | nil => exact .nil
  | cons c cs ih => exact isQuoted_encodeChar c ih

/-- A letter after a backslash stands for the code point of its character. -/
lemma points?_escape {e : Char} (other : e ≠ 'u') (h : escape? e = some c) (r : List Char) :
    points? ('\\' :: e :: r) = (points? r).map (c.toNat :: ·) := by
  rw [points?.eq_3 e r fun _ _ _ _ _ eq _ => other eq, h]
  cases points? r <;> rfl

/-- Four digits after a backslash and the letter u stand for a small code point. -/
lemma points?_unit {n : Nat} (small : n < 0x20) (r : List Char) :
    points? ('\\' :: 'u' :: '0' :: '0' :: Nat.digitChar (n / 16) :: Nat.digitChar (n % 16) :: r)
      = (points? r).map (n :: ·) := by
  have high := Hex.value?_digitChar (show n / 16 < 16 by omega)
  have low := Hex.value?_digitChar (show n % 16 < 16 by omega)
  have value : ((0 * 16 + 0) * 16 + n / 16) * 16 + n % 16 = n := by omega
  have point : unit? '0' '0' (Nat.digitChar (n / 16)) (Nat.digitChar (n % 16)) = some n := by
    simp only [unit?, value?_zero, high, low, Option.bind_eq_bind, Option.bind_some, value]
    rfl
  rw [points?, point]
  cases points? r <;> rfl

/-- What is written for a character stands for its code point. -/
lemma points?_encodeChar (c : Char) (r : List Char) :
    points? (encodeChar c ++ r) = (points? r).map (c.toNat :: ·) := by
  rcases encodeChar_cases c with ⟨e, letter, eq, back⟩ | ⟨control, eq⟩ | ⟨_, backslash, _, eq⟩
  · have other : e ≠ 'u' := by
      rintro rfl
      cases back
    rw [eq]
    exact points?_escape other back r
  · rw [eq]
    exact points?_unit control r
  · rw [eq]
    exact points?.eq_5 c r (fun _ _ _ _ _ eq _ => backslash eq) (fun _ _ eq _ => backslash eq)
      fun eq _ => backslash eq

/-- What is written for a text stands for its code points. -/
lemma points?_encode (cs : List Char) : points? (encode cs) = some (cs.map Char.toNat) := by
  induction cs with
  | nil => rfl
  | cons c cs ih =>
    show points? (encodeChar c ++ encode cs) = _
    rw [points?_encodeChar, ih]
    rfl

/-- Code points of characters stand for themselves. -/
lemma pair?_map_toNat (cs : List Char) : pair? (cs.map Char.toNat) = some cs := by
  induction cs with
  | nil => rfl
  | cons c cs ih =>
    have valid : c.toNat.isValidChar := c.valid
    cases cs with
    | nil => exact dif_pos valid
    | cons d cs =>
      rw [List.map_cons] at ih
      refine (dif_pos valid).trans ?_
      rw [ih]
      rfl

/-- What is written for a text reads back. -/
lemma decode?_encode (cs : List Char) : decode? (encode cs) = some cs := by
  rw [decode?, points?_encode]
  exact pair?_map_toNat cs

end Quoted

namespace Token

/-- Further digits of a whole number keep it a whole number. -/
lemma after?_whole {cs : List Char} (digits : ∀ c ∈ cs, c.isDigit) :
    Phase.whole.after? cs = some .whole := by
  induction cs with
  | nil => rfl
  | cons c cs ih =>
    obtain ⟨digit, digits⟩ := List.forall_mem_cons.1 digits
    have step : Phase.whole.next? c = some .whole := if_pos digit
    exact Phase.after?_cons_eq_some_iff.2 ⟨_, step, ih digits⟩

end Token

/-- Only zero starts with the digit zero. -/
lemma exists_digits_of_pos {n : Nat} (pos : 0 < n) :
    ∃ c cs, Decimal.digits n = c :: cs ∧ c ≠ '0' := by
  induction n using Nat.strongRecOn with
  | _ n ih =>
    by_cases small : n < 10
    · refine ⟨Nat.digitChar n, [], Nat.toDigits_of_lt_base small, ?_⟩
      have check : ∀ n < 10, 0 < n → Nat.digitChar n ≠ '0' := by decide
      exact check n small pos
    · obtain ⟨c, cs, eq, ne⟩ := ih (n / 10) (by omega) (by omega)
      have split := Nat.toDigits_append_toDigits (b := 10) (n := n / 10) (d := n % 10) (by decide)
        (by omega) (by omega)
      rw [Nat.div_add_mod] at split
      refine ⟨c, cs ++ Nat.toDigits 10 (n % 10), ?_, ne⟩
      rw [Decimal.digits, ← split, ← List.cons_append, ← eq]
      rfl

/-- The digits of a number are spelt as the format has it. -/
lemma isNumber_digits (n : Nat) : Token.IsNumber (Decimal.digits n) := by
  rcases Nat.eq_zero_or_pos n with rfl | pos
  · exact ⟨.zero, rfl, .inl rfl⟩
  · obtain ⟨c, cs, eq, ne⟩ := exists_digits_of_pos pos
    have digits : ∀ d ∈ c :: cs, d.isDigit := fun d mem =>
      Decimal.isDigit_of_mem_digits (eq ▸ mem)
    obtain ⟨digit, digits⟩ := List.forall_mem_cons.1 digits
    have first : Token.Phase.minus.next? c = some .whole := (if_neg ne).trans (if_pos digit)
    refine ⟨.whole, rfl, .inl ?_⟩
    rw [eq]
    exact Token.Phase.after?_cons_eq_some_iff.2 ⟨_, first, Token.after?_whole digits⟩

/-- What is written for any value is spelt as the format has it and reads back. -/
structure Stores {α : Type} (write : α → Json) (read : Json → Option α) : Prop where
  wellSpelt : ∀ a, (write a).WellSpelt
  back : ∀ a, read (write a) = some a

variable {α β : Type}

/-- Texts read back. -/
lemma stores_text : Stores ofText text? where
  wellSpelt s := .string (Quoted.isQuoted_encode s.toList)
  back s := by
    rw [ofText, text?, Quoted.decode?_encode, Option.map_some, String.ofList_toList]

/-- A number below the bound reads back. -/
lemma below?_ofNat {bound n : Nat} (h : n < bound) : (ofNat n).below? bound = some n := by
  rw [ofNat, below?, Decimal.value?_digits]
  simp [h]

/-- Numbers are spelt as the format has it. -/
lemma wellSpelt_ofNat (n : Nat) : (ofNat n).WellSpelt :=
  .number (isNumber_digits n)

/-- Bytes read back as numbers. -/
lemma stores_uint8 : Stores (fun x => ofNat x.toNat) uint8? where
  wellSpelt x := wellSpelt_ofNat x.toNat
  back x := by
    rw [uint8?, below?_ofNat x.toNat_lt_size, Option.map_some, UInt8.ofNat_toNat]

/-- Numbers of 64 bits read back. -/
lemma stores_uint64 : Stores (fun x => ofNat x.toNat) uint64? where
  wellSpelt x := wellSpelt_ofNat x.toNat
  back x := by
    rw [uint64?, below?_ofNat x.toNat_lt_size, Option.map_some, UInt64.ofNat_toNat]

/-- Images that are read one by one are read together. -/
lemma mapM_map_eq_some {γ : Type} {write : γ → α} {read : α → Option β} {meant : γ → β}
    (as : List γ) (h : ∀ a ∈ as, read (write a) = some (meant a)) :
    (as.map write).mapM read = some (as.map meant) := by
  induction as with
  | nil => rfl
  | cons a as ih =>
    obtain ⟨here, later⟩ := List.forall_mem_cons.1 h
    rw [List.map_cons, List.mapM_cons, here, ih later]
    rfl

/-- Lists read back if their elements do. -/
lemma Stores.list {write : α → Json} {read : Json → Option α} (h : Stores write read) :
    Stores (fun as => .array (as.map write)) (list? read) where
  wellSpelt as := by
    refine .array fun v mem => ?_
    obtain ⟨a, _, rfl⟩ := List.mem_map.1 mem
    exact h.wellSpelt a
  back as := by
    have all : (as.map write).mapM read = some (as.map id) :=
      mapM_map_eq_some as fun a _ => h.back a
    rwa [List.map_id] at all

/-- Byte strings read back. -/
lemma stores_bytes : Stores ofBytes bytes? :=
  stores_uint8.list

/-- A record is spelt as the format has it if its fields are. -/
lemma wellSpelt_ofFields {fields : List (String × Json)} (h : ∀ f ∈ fields, f.2.WellSpelt) :
    (ofFields fields).WellSpelt := by
  refine .object (fun m mem => ?_) fun m mem => ?_
  · obtain ⟨f, _, rfl⟩ := List.mem_map.1 mem
    exact Quoted.isQuoted_encode _
  · obtain ⟨f, here, rfl⟩ := List.mem_map.1 mem
    exact h f here

/-- The members that fields are read as, with their names as these are meant. -/
def named (fields : List (String × Json)) : List (List Char × Json) :=
  fields.map fun f => (f.1.toList, f.2)

/-- Only one of the fields has the name of a given one. -/
lemma filter_named {fields : List (String × Json)} (distinct : (fields.map (·.1)).Nodup)
    {f : String × Json} (mem : f ∈ fields) :
    (named fields).filter (·.1 = f.1.toList) = [(f.1.toList, f.2)] := by
  induction fields with
  | nil => cases mem
  | cons g fields ih =>
    rw [List.map_cons, List.nodup_cons] at distinct
    obtain ⟨alone, distinct⟩ := distinct
    rw [named, List.map_cons]
    cases mem with
    | head =>
      -- No later field has the name of the first one.
      have others : (named fields).filter (·.1 = f.1.toList) = [] := by
        refine List.filter_eq_nil_iff.2 fun m mem same => alone ?_
        obtain ⟨g, here, rfl⟩ := List.mem_map.1 mem
        have same : g.1 = f.1 := String.toList_inj.1 (of_decide_eq_true same)
        exact same ▸ List.mem_map_of_mem here
      rw [List.filter_cons_of_pos (by simp)]
      exact congrArg _ others
    | tail _ mem =>
      have differ : g.1.toList ≠ f.1.toList := fun same =>
        alone (String.toList_inj.1 same ▸ List.mem_map_of_mem mem)
      rw [List.filter_cons_of_neg (by simpa using differ)]
      exact ih distinct mem

/-- Fields of a record are found again if the names of its fields differ. -/
lemma record?_ofFields (fields : List (String × Json)) (distinct : (fields.map (·.1)).Nodup)
    {asked : List (String × Json)} (among : asked ⊆ fields) :
    (ofFields fields).record? (asked.map (·.1)) = some (asked.map (·.2)) := by
  have members : (fields.map fun f => (Quoted.encode f.1.toList, f.2)).mapM
      (fun m => (Quoted.decode? m.1).map (·, m.2)) = some (named fields) := by
    refine mapM_map_eq_some fields fun f _ => ?_
    rw [Quoted.decode?_encode]
    rfl
  show ((fields.map fun f => (Quoted.encode f.1.toList, f.2)).mapM
    (fun m => (Quoted.decode? m.1).map (·, m.2))).bind
      (fun members => (asked.map (·.1)).mapM (only? members)) = _
  rw [members]
  refine mapM_map_eq_some asked fun f mem => ?_
  rw [only?, filter_named distinct (among mem)]

end StateChannel.Json
