import Mathlib.Tactic.Lemma
import StateChannel.Json.Parser

/-!
# Compact texts read back

The compact text of a value is read as that value, if its numbers and strings are spelt as the
format has them (`WellSpelt`). The tokens of a text are found again one by one. Only a number does
not show where it ends, so the scanner may have to see what follows (`Scanner.Has`): a comma or the
end of the array or object that the number is in.
-/

namespace StateChannel.Json

namespace Token

/-- The phase that further characters of a number lead on to. -/
def Phase.after? (p : Phase) (cs : List Char) : Option Phase :=
  cs.foldlM Phase.next? p

/-- A number is read on from the phase after its first character. -/
lemma Phase.after?_cons_eq_some_iff {p p' : Phase} {c : Char} {cs : List Char} :
    p.after? (c :: cs) = some p' ↔ ∃ q, p.next? c = some q ∧ q.after? cs = some p' := by
  rw [Phase.after?, List.foldlM_cons]
  exact Option.bind_eq_some_iff

/-- The spelling of a number: perhaps a minus sign, and characters that lead on to a final phase. -/
def IsNumber (cs : List Char) : Prop :=
  ∃ phase : Phase, phase.final ∧
    (Phase.minus.after? cs = some phase ∨ ∃ r, cs = '-' :: r ∧ Phase.minus.after? r = some phase)

/-- The spelling of a string between its quotes. -/
inductive IsQuoted : List Char → Prop where
  | nil :
    IsQuoted []
  | plain {c cs} :
    c ≠ '"' →
    c ≠ '\\' →
    ¬ c.toNat < 0x20 →
    IsQuoted cs →
    IsQuoted (c :: cs)
  | escape {c cs} :
    c ∈ ['"', '\\', '/', 'b', 'f', 'n', 'r', 't'] →
    IsQuoted cs →
    IsQuoted ('\\' :: c :: cs)
  | unit {c₁ c₂ c₃ c₄ cs} :
    (∀ c ∈ [c₁, c₂, c₃, c₄], (Hex.value? c).isSome) →
    IsQuoted cs →
    IsQuoted ('\\' :: 'u' :: c₁ :: c₂ :: c₃ :: c₄ :: cs)

namespace Scanner

/-- A scanner has read tokens, the latest first. The last one may be a number that could go on. -/
inductive Has : Scanner → List Token → Prop where
  | nothing {done} :
    Has ⟨done, .nothing⟩ done
  | number {done phase read} :
    phase.final →
    Has ⟨done, .number phase read⟩ (number read.reverse :: done)

variable {s : Scanner} {done ts ts' : List Token} {read cs text text' : List Char}
variable {phase phase' : Phase}

/-- A scanner finishes with the tokens that it has. -/
lemma Has.finish?_eq (has : s.Has ts) : s.finish? = some ts.reverse := by
  cases has with
  | nothing => rfl
  | number final => exact if_pos final

/-- A text makes a scanner go on until it has read tokens. -/
def Reads (s : Scanner) (text : List Char) (ts : List Token) : Prop :=
  ∃ s', text.foldlM feed s = some s' ∧ s'.Has ts

/-- Texts are read one after the other. -/
lemma Reads.append (h : s.Reads text ts) (h' : ∀ s' : Scanner, s'.Has ts → s'.Reads text' ts') :
    s.Reads (text ++ text') ts' := by
  obtain ⟨s', eq, has⟩ := h
  obtain ⟨s'', eq', has'⟩ := h' s' has
  refine ⟨s'', ?_, has'⟩
  rw [List.foldlM_append, eq]
  exact eq'

/-- A text is read on from the scanner after its first character. -/
lemma reads_cons {c : Char} {s' : Scanner} (eq : s.feed c = some s') (h : s'.Reads text ts) :
    s.Reads (c :: text) ts := by
  obtain ⟨s'', eq', has⟩ := h
  refine ⟨s'', ?_, has⟩
  rw [List.foldlM_cons, eq]
  exact eq'

/-- No number goes on with a comma or the end of an array or object. -/
lemma Has.feed_delimiter {c : Char} (has : s.Has ts) (ends : c ∈ [',', ']', '\x7d']) :
    s.feed c = start ts c := by
  cases has with
  | nothing => rfl
  | @number done phase read final =>
    have stop : phase.next? c = none := by
      simp only [List.mem_cons, List.not_mem_nil, or_false] at ends
      rcases ends with rfl | rfl | rfl <;> cases phase <;> rfl
    simp only [feed, stop, if_pos final]

/-- The characters of a number are gathered. -/
lemma foldlM_number (h : phase.after? cs = some phase') :
    cs.foldlM feed ⟨done, .number phase read⟩
      = some ⟨done, .number phase' (cs.reverse ++ read)⟩ := by
  induction cs generalizing phase read with
  | nil =>
    cases h
    rfl
  | cons c cs ih =>
    obtain ⟨next, here, later⟩ := Phase.after?_cons_eq_some_iff.1 h
    simp only [List.foldlM_cons, feed, here]
    refine (ih later).trans ?_
    simp

/-- A minus sign or a digit starts a number. -/
lemma start_number {c : Char} (h : Phase.minus.next? c = some phase) :
    start done c = some ⟨done, .number phase [c]⟩ := by
  unfold start
  -- Nothing but a digit leads on from a minus sign, and no other case of the scanner has a digit.
  split
  all_goals try cases h
  rw [h]
  rfl

/-- A scanner within a number has it as a token where it may end. -/
lemma has_number {c : Char} (final : phase.final) :
    Has ⟨done, .number phase (cs.reverse ++ [c])⟩ (number (c :: cs) :: done) := by
  have whole : c :: cs = (cs.reverse ++ [c]).reverse := by simp
  rw [whole]
  exact .number final

/-- The spelling of a number is read as one token. -/
lemma reads_number (h : IsNumber cs) : Reads ⟨done, .nothing⟩ cs (number cs :: done) := by
  obtain ⟨phase, final, plain | ⟨r, rfl, negative⟩⟩ := h
  · cases cs with
    | nil =>
      cases plain
      cases final
    | cons c cs =>
      obtain ⟨first, here, later⟩ := Phase.after?_cons_eq_some_iff.1 plain
      exact reads_cons (start_number here) ⟨_, foldlM_number later, has_number final⟩
  · exact reads_cons rfl ⟨_, foldlM_number negative, has_number final⟩

/-- Each of the four digits of a code unit is counted. -/
lemma feed_digit {c : Char} (left : Nat) (digit : (Hex.value? c).isSome) :
    feed ⟨done, .unit left read⟩ c =
      if left ≤ 1 then some ⟨done, .string (c :: read)⟩
      else some ⟨done, .unit (left - 1) (c :: read)⟩ := by
  have value : ¬ (Hex.value? c).isNone := by simpa [← Option.isSome_iff_ne_none] using digit
  simp only [feed, if_neg value]

/-- The four digits of a code unit are gathered. -/
lemma foldlM_unit {c₁ c₂ c₃ c₄ : Char} (digits : ∀ c ∈ [c₁, c₂, c₃, c₄], (Hex.value? c).isSome) :
    [c₁, c₂, c₃, c₄].foldlM feed ⟨done, .unit 4 read⟩
      = some ⟨done, .string ([c₁, c₂, c₃, c₄].reverse ++ read)⟩ := by
  simp only [List.forall_mem_cons] at digits
  obtain ⟨h₁, h₂, h₃, h₄, _⟩ := digits
  simp [feed_digit, h₁, h₂, h₃, h₄]

/-- What stands within quotes is gathered. -/
lemma foldlM_quoted (h : IsQuoted cs) :
    cs.foldlM feed ⟨done, .string read⟩ = some ⟨done, .string (cs.reverse ++ read)⟩ := by
  induction h generalizing read with
  | nil => rfl
  | @plain c cs quote backslash control _ ih =>
    have step : feed ⟨done, .string read⟩ c = some ⟨done, .string (c :: read)⟩ := by
      simp only [feed, if_neg quote, if_neg backslash, if_neg control]
    rw [List.foldlM_cons, step, List.reverse_cons, List.append_assoc]
    exact ih
  | @escape c cs letter _ ih =>
    have other : c ≠ 'u' := by
      rintro rfl
      revert letter
      decide
    have step : feed ⟨done, .escape ('\\' :: read)⟩ c
        = some ⟨done, .string (c :: '\\' :: read)⟩ := by
      simp only [feed, if_neg other, if_pos letter]
    -- The backslash alone leaves the scanner amid an escape, where `ih` does not apply yet.
    show ((feed ⟨done, .escape ('\\' :: read)⟩ c).bind fun s => cs.foldlM feed s) = _
    rw [step, List.reverse_cons, List.reverse_cons, List.append_assoc, List.append_assoc]
    exact ih
  | @unit c₁ c₂ c₃ c₄ cs digits _ ih =>
    show ([c₁, c₂, c₃, c₄] ++ cs).foldlM feed ⟨done, .unit 4 ('u' :: '\\' :: read)⟩ = _
    rw [List.foldlM_append, foldlM_unit digits]
    refine ih.trans ?_
    simp

/-- A string ends with its closing quote. -/
lemma foldlM_string (h : IsQuoted cs) :
    (Token.string cs).spelling.foldlM feed ⟨done, .nothing⟩
      = some ⟨string cs :: done, .nothing⟩ := by
  show (cs ++ ['"']).foldlM feed ⟨done, .string []⟩ = _
  rw [List.foldlM_append, foldlM_quoted h]
  simp [feed]

/-- After a key and a colon, a member is read like its value. -/
lemma reads_member (h : IsQuoted cs)
    (value : Reads ⟨colon :: string cs :: done, .nothing⟩ text ts) :
    Reads ⟨done, .nothing⟩ ((Token.string cs).spelling ++ ':' :: text) ts := by
  obtain ⟨s, eq, has⟩ := value
  refine ⟨s, ?_, has⟩
  rw [List.foldlM_append, foldlM_string h]
  exact eq

end Scanner

end Token

open Token

/-- The numbers and strings of a value are spelt as the format has them. -/
inductive WellSpelt : Json → Prop where
  | null :
    WellSpelt .null
  | bool (b) :
    WellSpelt (.bool b)
  | number {cs} :
    IsNumber cs →
    WellSpelt (.number cs)
  | string {cs} :
    IsQuoted cs →
    WellSpelt (.string cs)
  | array {vs} :
    (∀ v ∈ vs, WellSpelt v) →
    WellSpelt (.array vs)
  | object {ms} :
    (∀ m ∈ ms, IsQuoted m.1) →
    (∀ m ∈ ms, WellSpelt m.2) →
    WellSpelt (.object ms)

-- The recursion follows `tokens`. Each part is read with what was read before it, and a closing
-- bracket is read with the last part, since a number there ends with it.
mutual

/-- The text of a value makes a scanner read its tokens. -/
theorem reads_tokens (v : Json) (h : v.WellSpelt) (done : List Token) :
    Scanner.Reads ⟨done, .nothing⟩ (v.tokens.flatMap Token.spelling)
      (v.tokens.reverse ++ done) := by
  match v, h with
  | .null, _ | .bool true, _ | .bool false, _ | .array [], _ | .object [], _ =>
    exact ⟨_, rfl, .nothing⟩
  | .number cs, .number spelt =>
    have read : Scanner.Reads ⟨done, .nothing⟩ cs _ := Scanner.reads_number spelt
    simpa [tokens, Token.spelling] using read
  | .string cs, .string spelt =>
    have read : Scanner.Reads ⟨done, .nothing⟩ _ _ := ⟨_, Scanner.foldlM_string spelt, .nothing⟩
    simpa [tokens] using read
  | .array (v :: vs), .array spelt =>
    have first := reads_tokens v (spelt v (.head _)) (openArray :: done)
    have read := first.append fun _ has =>
      reads_moreItemTokens vs (fun w mem => spelt w (.tail _ mem)) has
    have opened : Scanner.feed ⟨done, .nothing⟩ '[' = some ⟨openArray :: done, .nothing⟩ := rfl
    simpa [tokens, itemTokens, Token.spelling] using Scanner.reads_cons opened read
  | .object ((key, v) :: ms), .object keys spelt =>
    have first := reads_tokens v (spelt _ (.head _)) (colon :: .string key :: openObject :: done)
    have read := first.append fun _ has =>
      reads_moreMemberTokens ms (fun m mem => keys m (.tail _ mem))
        (fun m mem => spelt m (.tail _ mem)) has
    have opened : Scanner.feed ⟨done, .nothing⟩ '\x7b' = some ⟨openObject :: done, .nothing⟩ := rfl
    have whole := Scanner.reads_cons opened (Scanner.reads_member (keys _ (.head _)) read)
    simpa [tokens, memberTokens, Token.spelling] using whole

/-- The items that follow others make it read their tokens, and those of the end of the array. -/
theorem reads_moreItemTokens (vs : List Json) (h : ∀ v ∈ vs, v.WellSpelt) {s : Scanner}
    {ts : List Token} (has : s.Has ts) :
    s.Reads ((moreItemTokens vs).flatMap Token.spelling)
      ((moreItemTokens vs).reverse ++ ts) := by
  match vs with
  | [] =>
    have closed : s.feed ']' = some ⟨closeArray :: ts, .nothing⟩ := has.feed_delimiter (by decide)
    exact Scanner.reads_cons closed ⟨_, rfl, .nothing⟩
  | v :: vs =>
    have next : s.feed ',' = some ⟨comma :: ts, .nothing⟩ := has.feed_delimiter (by decide)
    have first := reads_tokens v (h v (.head _)) (comma :: ts)
    have read := first.append fun _ has =>
      reads_moreItemTokens vs (fun w mem => h w (.tail _ mem)) has
    simpa [moreItemTokens, Token.spelling] using Scanner.reads_cons next read

/-- The members that follow others make it read their tokens, and those of the end of the object. -/
theorem reads_moreMemberTokens (ms : List (List Char × Json)) (keys : ∀ m ∈ ms, IsQuoted m.1)
    (h : ∀ m ∈ ms, m.2.WellSpelt) {s : Scanner} {ts : List Token} (has : s.Has ts) :
    s.Reads ((moreMemberTokens ms).flatMap Token.spelling)
      ((moreMemberTokens ms).reverse ++ ts) := by
  match ms with
  | [] =>
    have closed : s.feed '\x7d' = some ⟨closeObject :: ts, .nothing⟩ :=
      has.feed_delimiter (by decide)
    exact Scanner.reads_cons closed ⟨_, rfl, .nothing⟩
  | (key, v) :: ms =>
    have next : s.feed ',' = some ⟨comma :: ts, .nothing⟩ := has.feed_delimiter (by decide)
    have first := reads_tokens v (h _ (.head _)) (colon :: .string key :: comma :: ts)
    have read := first.append fun _ has =>
      reads_moreMemberTokens ms (fun m mem => keys m (.tail _ mem))
        (fun m mem => h m (.tail _ mem)) has
    have whole := Scanner.reads_cons next (Scanner.reads_member (keys _ (.head _)) read)
    simpa [moreMemberTokens, Token.spelling] using whole

end

/-- A value reads back from its compact text. -/
theorem parse?_render {v : Json} (h : v.WellSpelt) : parse? v.render = some v := by
  obtain ⟨s, eq, has⟩ := reads_tokens v h []
  have scanned : Token.scan? v.render.toList = some v.tokens := by
    rw [render, String.toList_ofList, Token.scan?, eq]
    simpa using has.finish?_eq
  rw [parse?, scanned]
  exact ofTokens?_tokens v

end StateChannel.Json
