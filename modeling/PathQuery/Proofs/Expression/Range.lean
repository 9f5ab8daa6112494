import PathQuery.Proofs.Expression.Grammar
import PathQuery.Proofs.Expression.Spelling
import PathQuery.Proofs.Expression.Written

/-!
# The selectors that are read from some expression

What the reader makes of an expression is well formed (`wellFormed_of_readExpression`), but not all
that is well formed is read from an expression: the text of a script has to be balanced to stand in
parentheses, and no text of a number is read as a double that is none. Nothing else is missing.
Every decimal fraction has a text that is read as a double, with a power of ten behind it even where
that is one, so that no integer is read instead (`NumberForm.ofDecimal`); every double that is a
number is the one nearest to some decimal fraction; and a blank behind each selector keeps its text
from going on in the next one. So `exists_readExpression_iff` tells exactly which selectors can come
from the reader.
-/

namespace PathQuery

open Text Text.Quoted Expression

/-! ## Readable selectors -/

/-- A literal that has a text: only a double that is no number has none. -/
def Scalar.Readable : Scalar → Prop
  | .number n => n.isNaN = false
  | _ => True

/-- A condition that has a text. -/
def Condition.Readable : Condition → Prop
  | .present _ => True
  | .compares _ _ literal => literal.Readable

/-- A selector that has a text if it is well formed. -/
def Selector.Readable : Selector → Prop
  | .filter condition => condition.Readable
  | s => s.Balanced

namespace Expression

/-! ## What is read is readable -/

/-- What a number is read as is one. -/
theorem NumberForm.isNaN_value (f : NumberForm) : f.value.isNaN = false := by
  unfold value
  split
  · rfl
  · exact Decimal.isNaN_toBinary64 _

/-- A literal is read from the text of a readable one. -/
theorem LiteralForm.readable_value {l : LiteralForm} (h : l.WellFormed) : l.value.Readable := by
  cases l with
  | quoted form => trivial
  | number form => exact form.isNaN_value
  | word text value =>
      cases hvalue : value with
      | number n => exact absurd hvalue ((value_of_mem_words h).2 n)
      | null | bool | string => trivial

/-- A condition is read from the text of a readable one. -/
theorem readable_of_readCondition {text : List Char} {condition : Condition}
    (h : readCondition text = .ok condition) : condition.Readable := by
  obtain ⟨f, hf, -, rfl⟩ := ConditionForm.exists_of_readCondition h
  unfold ConditionForm.condition
  split
  · trivial
  · rename_i comparing hcomparing
    exact LiteralForm.readable_value (hf.comparing comparing hcomparing).literal

/-- Contents that make a filter have a readable condition. -/
theorem Contents.readable_condition {text : List Char} {condition : Condition}
    (h : Contents text (.filter condition)) : condition.Readable := by
  generalize hs : Selector.filter condition = s at h
  cases h with
  | star | slice | script => cases hs
  | keys =>
      unfold ofKeys at hs
      split at hs <;> cases hs
  | filter _ hread =>
      cases hs
      exact readable_of_readCondition hread

/-- Every segment is the text of a readable selector. -/
theorem Segment.readable {seg rest : List Char} {s : Selector} (h : Segment seg s rest) :
    s.Readable := by
  have hbalanced := h.balanced
  cases s with
  | filter condition =>
      cases h with
      | group _ hgroup => exact (contents_of_readGroup hgroup).readable_condition
  | root | member | keys | positions | slice | children | descent | script => exact hbalanced

/-- The selectors of an expression are readable. -/
theorem readable_of_readExpression {text : List Char} {ss : List Selector}
    (h : readExpression text = .ok ss) : ∀ s ∈ ss, s.Readable := by
  obtain ⟨-, more, start, others, -, -, hread, rfl, hstart⟩ := exists_start h
  have hothers := forall_of_readSelectors Segment.readable hread
  rcases hstart with rfl | rfl | ⟨name, -, rfl⟩
  · exact hothers
  · exact List.forall_mem_cons.2 ⟨trivial, hothers⟩
  · exact List.forall_mem_cons.2 ⟨trivial, hothers⟩

/-! ## Doubles have texts -/

/-- The digits of a natural number are digits, and write it. -/
theorem digits_toDigits (n : Nat) :
    Digits (Nat.toDigits 10 n) ∧ numberOfDigits (Nat.toDigits 10 n) = n :=
  readNat?_eq_some_iff.1 (readNat?_toDigits n)

/-- A power of ten with the given exponent. -/
def PowerForm.ofInt (n : Int) : PowerForm :=
  ⟨'e', if n < 0 then some '-' else none, Nat.toDigits 10 n.natAbs⟩

/-- A power of ten with a given exponent is well formed. -/
theorem PowerForm.wellFormed_ofInt (n : Int) : (ofInt n).WellFormed where
  letter := .inl rfl
  sign := by
    unfold ofInt
    dsimp only
    split
    · exact .inr (.inr rfl)
    · exact .inl rfl
  digits := (digits_toDigits n.natAbs).1

/-- A power of ten with a given exponent has that exponent. -/
theorem PowerForm.value_ofInt (n : Int) : (ofInt n).value = n := by
  unfold ofInt value
  dsimp only
  rw [(digits_toDigits n.natAbs).2]
  by_cases hn : n < 0
  · rw [if_pos hn, if_pos rfl]
    omega
  · rw [if_neg hn, if_neg (by decide)]
    omega

namespace NumberForm

/-- A decimal fraction as digits and a power of ten. -/
def ofDecimal (d : Decimal) : NumberForm :=
  ⟨d.negative, Nat.toDigits 10 d.digits, none, some (.ofInt d.exponent)⟩

/-- A decimal fraction has a well-formed number. -/
theorem wellFormed_ofDecimal (d : Decimal) : (ofDecimal d).WellFormed where
  whole := (digits_toDigits d.digits).1.all
  fraction := by
    rintro digits ⟨⟩
  ne_nil := .inl (digits_toDigits d.digits).1.ne_nil
  power := by
    rintro p ⟨⟩
    exact PowerForm.wellFormed_ofInt d.exponent

/-- The number of a decimal fraction is that decimal fraction. -/
theorem decimal_ofDecimal (d : Decimal) : (ofDecimal d).decimal = d := by
  obtain ⟨negative, digits, exponent⟩ := d
  have hdigits : Nat.ofDigitChars 10 (Nat.toDigits 10 digits) 0 = digits :=
    Nat.ofDigitChars_ten_toDigits
  unfold ofDecimal decimal Decimal.ofParts
  simp [hdigits, PowerForm.value_ofInt]

/-- The number of a decimal fraction is read as a double. -/
theorem value_ofDecimal (d : Decimal) : (ofDecimal d).value = .float d.toBinary64 := by
  have hint : (ofDecimal d).int64? = none := rfl
  rw [value, hint, decimal_ofDecimal]

/-- With a sign or a digit in front, the text of a number stands for it as a literal. -/
theorem literalText {f : NumberForm} (h : f.WellFormed)
    (hstart : f.negative = true ∨ f.whole ≠ []) : LiteralText f.text (.number f.value) := by
  have hall := isNumberChar_of_mem h
  have hread := readNumber?_text h
  obtain ⟨c, more, htext, hc⟩ := exists_cons h hstart
  rw [htext] at hall hread ⊢
  exact .number hc hall hread

end NumberForm

/-- Every double that is a number is the nearest one to some decimal fraction. -/
theorem exists_toBinary64 {x : Binary64} (h : x.isNaN = false) :
    ∃ d : Decimal, d.toBinary64 = x := by
  have hback := x.ofMagnitude_magnitude
  by_cases hzero : x.isZero = true
  · rw [eq_of_beq hzero] at hback
    exact ⟨⟨x.isNegative, 0, 0⟩, hback⟩
  by_cases hfinite : x.isFinite = true
  · exact ⟨_, (Binary64.toBinary64_shortest .even hfinite (Bool.eq_false_iff.2 hzero)).2.2⟩
  · have hmagnitude : x.magnitude = Binary64.infiniteMagnitude := by
      rw [Binary64.isNaN, decide_eq_false_iff_not, Nat.not_lt] at h
      rw [Binary64.isFinite, decide_eq_true_eq, Nat.not_lt] at hfinite
      exact Nat.le_antisymm h hfinite
    rw [hmagnitude] at hback
    exact ⟨⟨x.isNegative, 1, 309⟩, hback⟩

/-! ## Readable selectors have texts -/

/-- A readable literal has a text. -/
theorem exists_literalText {s : Scalar} (h : s.Readable) : ∃ text, LiteralText text s := by
  cases s with
  | number n =>
      cases n with
      | int n => exact ⟨_, literalText_writeInt64 n⟩
      | float x =>
          obtain ⟨d, rfl⟩ := exists_toBinary64 h
          have htext := NumberForm.literalText (NumberForm.wellFormed_ofDecimal d)
            (.inr (digits_toDigits d.digits).1.ne_nil)
          rw [NumberForm.value_ofDecimal] at htext
          exact ⟨_, htext⟩
  | null => exact ⟨_, Scalar.Spelling.null.literalText⟩
  | bool b =>
      cases b with
      | false => exact ⟨_, Scalar.Spelling.false.literalText⟩
      | true => exact ⟨_, Scalar.Spelling.true.literalText⟩
  | string s => exact ⟨_, (Scalar.Spelling.string isQuote_double s).literalText⟩

/-- A readable condition has a text. -/
theorem exists_conditionText {condition : Condition} (h : condition.Readable) :
    ∃ text, ConditionText text condition := by
  cases condition with
  | present path =>
      obtain ⟨text, hpath⟩ := exists_pathSpelling path
      exact ⟨_, .present hpath.pathText⟩
  | compares path op literal =>
      obtain ⟨text, hpath⟩ := exists_pathSpelling path
      obtain ⟨more, hliteral⟩ := exists_literalText h
      exact ⟨_, .compares hpath.pathText op hliteral⟩

/-- A well-formed and readable selector has a text that is a segment where neither a name nor a dot
follows. -/
theorem exists_segment {s : Selector} (hwell : s.WellFormed) (hread : s.Readable) :
    ∃ seg, ∀ rest, EndsName rest → rest.head? ≠ some '.' → Segment seg s rest := by
  have hspellable : s.Spellable → s ≠ .root →
      ∃ seg, ∀ rest, EndsName rest → rest.head? ≠ some '.' → Segment seg s rest := by
    intro hs hroot
    obtain ⟨text, htext⟩ := Selector.exists_spelling hs
    exact ⟨text, fun rest => htext.segment hs hroot⟩
  cases s with
  | root => exact absurd hwell id
  | filter condition =>
      obtain ⟨text, htext⟩ := exists_conditionText hread
      exact ⟨_, fun rest _ _ => (GroupText.filter htext).segment rest⟩
  | script text =>
      have hgroup := GroupText.script hwell.1 hwell.2 hread
      rw [String.ofList_toList] at hgroup
      exact ⟨_, fun rest _ _ => hgroup.segment rest⟩
  | member | keys | positions | slice | children | descent => exact hspellable hwell (by simp)

/-- The text of a selector begins with a dot, a bracket or a star. -/
theorem Segment.exists_start {seg rest : List Char} {s : Selector} (h : Segment seg s rest) :
    ∃ c more, seg = c :: more ∧ (c = '.' ∨ c = '[' ∨ c = '*') := by
  cases h with
  | dotStar | member | descent | descentTo => exact ⟨_, _, rfl, .inl rfl⟩
  | group => exact ⟨_, _, rfl, .inr (.inl rfl)⟩
  | star => exact ⟨_, _, rfl, .inr (.inr rfl)⟩

/-- Well-formed and readable selectors are read from some text, behind the sign of the root and
without it. -/
theorem exists_readSelectors {ss : List Selector} (h : ∀ s ∈ ss, s.WellFormed ∧ s.Readable) :
    ∃ text, readSelectors text = .ok ss ∧ readExpression text = .ok ss := by
  induction ss with
  | nil => exact ⟨[], by rw [readSelectors], rfl⟩
  | cons s ss ih =>
      obtain ⟨⟨hwell, hreadable⟩, hothers⟩ := List.forall_mem_cons.1 h
      obtain ⟨seg, hseg⟩ := exists_segment hwell hreadable
      obtain ⟨more, hmore, -⟩ := ih hothers
      have hends : EndsName (' ' :: more) := fun c hc => by cases hc; decide
      have hsegment : Segment seg s (' ' :: more) := hseg _ hends (by simp)
      have hread : readSelectors (seg ++ ' ' :: more) = .ok (s :: ss) := by
        rw [readSelectors_segment hsegment, readSelectors_blank (by decide), hmore]
        rfl
      refine ⟨_, hread, ?_⟩
      obtain ⟨c, rest, rfl, hc⟩ := hsegment.exists_start
      rwa [List.cons_append, readExpression_eq_readSelectors hc, ← List.cons_append]

/-- Selectors are read from some expression exactly if the root selector stands at most in the first
place, the others are well formed, and all of them are readable. -/
theorem exists_readExpression_iff {ss : List Selector} :
    (∃ text, readExpression text = .ok ss) ↔ WellFormed ss ∧ ∀ s ∈ ss, s.Readable := by
  constructor
  · rintro ⟨text, h⟩
    exact ⟨wellFormed_of_readExpression h, readable_of_readExpression h⟩
  · rintro ⟨hwell, hreadable⟩
    cases hwell with
    | root hothers =>
        have hreadable' := (List.forall_mem_cons.1 hreadable).2
        obtain ⟨text, hread, -⟩ :=
          exists_readSelectors fun s hs => ⟨hothers s hs, hreadable' s hs⟩
        exact ⟨'$' :: text, by rw [readExpression_root, hread]; rfl⟩
    | other hall =>
        obtain ⟨text, -, hread⟩ := exists_readSelectors fun s hs => ⟨hall s hs, hreadable s hs⟩
        exact ⟨text, hread⟩

end Expression

end PathQuery
