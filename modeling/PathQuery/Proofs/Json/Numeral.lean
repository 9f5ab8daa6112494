import PathQuery.Json.Form
import PathQuery.Proofs.Expression.Numeral

/-!
# Numbers in JSON

JSON writes numbers as filters do, but leaves less out: there are digits before the point and behind
it, and no zero stands in front of other digits (`NumberForm.Strict`). Exactly such texts are read
as numbers (`readNumeral_eq_some_iff`), and one is cut off as a lexeme in front of everything that
is no character of a number (`lexemes_text`). So it is JSON alone (`read?_numeral`) and between
brackets (`read?_brackets`).
-/

namespace PathQuery

open Text

namespace Expression

/-- A text in front of which a number ends. -/
def EndsNumber (rest : List Char) : Prop := ∀ c, rest.head? = some c → isNumberChar c = false

/-- Where a number ends digits end. -/
theorem EndsNumber.endsDigits {rest : List Char} (h : EndsNumber rest) : EndsDigits rest := by
  intro c hc
  have hnumber := h c hc
  rw [Bool.eq_false_iff]
  intro hdigit
  rw [isNumberChar, hdigit] at hnumber
  cases hnumber

/-- Where a number ends no point follows. -/
theorem EndsNumber.ne_point {rest : List Char} (h : EndsNumber rest) :
    ∀ c, rest.head? = some c → c ≠ '.' := by
  rintro c hc rfl
  cases h '.' hc

namespace NumberForm

/-- A number that JSON admits: there are digits before the point, beginning with a zero only if
there is no other, and digits behind the point if there is one. -/
structure Strict (f : NumberForm) : Prop where
  whole : Digits f.whole
  zero : f.whole.head? = some '0' → f.whole = ['0']
  fraction : ∀ digits, f.fraction = some digits → Digits digits
  power : ∀ p, f.power = some p → p.WellFormed

/-- The number of JSON that is written. -/
def numeral (f : NumberForm) : Json.Numeral := ⟨f.decimal, f.fraction.isNone && f.power.isNone⟩

variable {f : NumberForm}

/-- What JSON admits is a number. -/
theorem Strict.wellFormed (h : f.Strict) : f.WellFormed where
  whole := h.whole.all
  fraction digits hdigits := (h.fraction digits hdigits).all
  ne_nil := .inl h.whole.ne_nil
  power := h.power

end NumberForm

end Expression

namespace Json

open Expression

/-! ## Cutting off a number -/

namespace Lexeme

variable {f : NumberForm} {word rest : List Char}

/-- Digits are read up to where they end. -/
theorem readDigits_append (hword : Digits word) (hrest : EndsDigits rest) :
    readDigits (word ++ rest) = some (word, rest) := by
  rw [readDigits, takeWhile_word hword.all hrest, dropWhile_word hword.all hrest]
  exact if_neg hword.ne_nil

/-- Digits with no zero in front are read up to where they end. -/
theorem readWhole_append (hword : Digits word) (hzero : word.head? = some '0' → word = ['0'])
    (hrest : EndsDigits rest) : readWhole (word ++ rest) = some (word, rest) := by
  rw [readWhole, readDigits_append hword hrest, Option.bind_some]
  exact if_neg fun h => h.2 (hzero h.1)

/-- Where a number ends no power of ten is read. -/
theorem readExponent_of_endsNumber (hrest : EndsNumber rest) :
    readExponent rest = some (none, rest) := by
  cases rest with
  | nil => rfl
  | cons c rest =>
      have hc : ¬(c = 'e' ∨ c = 'E') := by
        have hnumber := hrest c rfl
        rintro (rfl | rfl) <;> cases hnumber
      exact if_neg hc

/-- A power of ten is read up to where the number ends. -/
theorem readExponent_text {p : PowerForm} (hp : p.WellFormed) (hrest : EndsDigits rest) :
    readExponent (p.text ++ rest) = some (some p.value, rest) := by
  have hdigits := readDigits_append hp.digits hrest
  have hletter := hp.letter
  rw [PowerForm.text, List.cons_append, List.append_assoc, PowerForm.value]
  rcases hp.sign with hsign | hsign | hsign <;> rw [hsign]
  · obtain ⟨c, more, hcons, hc⟩ := hp.digits.exists_cons
    rw [if_neg (by simp), Option.toList_none, List.nil_append]
    rw [hcons] at hdigits ⊢
    rw [List.cons_append] at hdigits ⊢
    unfold readExponent
    dsimp only
    rw [if_pos hletter]
    split
    · rename_i heq
      cases heq
      cases hc
    · rename_i heq
      cases heq
      cases hc
    · rw [readSigned, hdigits]
      rfl
  · rw [if_neg (by decide), Option.toList_some, List.singleton_append, readExponent,
      if_pos hletter, readSigned, hdigits]
    rfl
  · rw [if_pos rfl, Option.toList_some, List.singleton_append, readExponent, if_pos hletter,
      readSigned, hdigits]
    rfl

/-- A power of ten, or nothing, is read up to where the number ends. -/
theorem readExponent_powerText (h : f.Strict) (hrest : EndsNumber rest) :
    readExponent (f.powerText ++ rest) = some (f.power.map PowerForm.value, rest) := by
  unfold NumberForm.powerText
  cases hpower : f.power with
  | none => exact readExponent_of_endsNumber hrest
  | some p => exact readExponent_text (h.power p hpower) hrest.endsDigits

/-- Behind the digits of a number neither a digit nor a point follows. -/
theorem ends_powerText (h : f.Strict) (hrest : EndsNumber rest) :
    ∀ c, (f.powerText ++ rest).head? = some c → c.isDigit = false ∧ c ≠ '.' := by
  intro c hc
  rw [List.head?_append, Option.or_eq_some_iff] at hc
  rcases hc with hpower | ⟨-, hend⟩
  · exact h.wellFormed.head_powerText c hpower
  · exact ⟨hrest.endsDigits c hend, hrest.ne_point c hend⟩

/-- The digits behind the point are read, if there is one. -/
theorem readFraction_text (h : f.Strict) (hrest : EndsNumber rest) :
    readFraction (f.fractionText ++ rest) = some (f.fraction, f.powerText ++ rest) := by
  have hends := ends_powerText h hrest
  unfold NumberForm.fractionText
  cases hfraction : f.fraction with
  | none =>
      unfold readFraction
      split
      · rename_i heq
        exact absurd rfl (hends '.' (congrArg List.head? heq)).2
      · rfl
  | some digits =>
      have hread := readDigits_append (h.fraction digits hfraction) fun c hc => (hends c hc).1
      rw [List.cons_append, List.append_assoc, readFraction, hread]
      rfl

/-- Behind its sign a number is read. -/
theorem readMagnitude_text (h : f.Strict) (hrest : EndsNumber rest) :
    readMagnitude f.negative (f.unsignedText ++ rest) = some (f.numeral, rest) := by
  have hends : EndsDigits (f.fractionText ++ rest) := by
    intro c hc
    rw [List.head?_append, Option.or_eq_some_iff] at hc
    rcases hc with hfraction | ⟨-, hend⟩
    · exact h.wellFormed.endsDigits_fractionText c hfraction
    · exact hrest.endsDigits c hend
  rw [NumberForm.unsignedText, List.append_assoc, readMagnitude,
    readWhole_append h.whole h.zero hends, Option.bind_some]
  dsimp only
  rw [readFraction_text h hrest, Option.bind_some]
  dsimp only
  rw [readExponent_powerText h hrest, Option.map_some, NumberForm.numeral, NumberForm.decimal]
  cases f.power <;> rfl

/-- A number is read from its text, up to where it ends. -/
theorem readNumeral_text (h : f.Strict) (hrest : EndsNumber rest) :
    readNumeral (f.text ++ rest) = some (f.numeral, rest) := by
  have hread := readMagnitude_text h hrest
  have hminus := h.wellFormed.head_unsignedText.1
  obtain ⟨c, more, hcons, -⟩ := h.wellFormed.exists_cons
  rw [NumberForm.text]
  cases hnegative : f.negative with
  | true =>
      rw [hnegative] at hread
      exact hread
  | false =>
      rw [hnegative, hcons] at hread
      rw [hcons] at hminus
      rw [signed, hcons]
      unfold readNumeral
      split
      · rename_i heq
        cases heq
        exact absurd rfl hminus
      · exact hread

/-! ## What is cut off is a number -/

/-- What is read as digits are digits at the front of the text. -/
theorem digits_of_readDigits {text : List Char} (h : readDigits text = some (word, rest)) :
    Digits word ∧ text = word ++ rest := by
  unfold readDigits at h
  dsimp only at h
  split at h
  · cases h
  · rename_i hne
    cases h
    exact ⟨⟨hne, List.all_eq_true.1 List.all_takeWhile⟩, List.takeWhile_append_dropWhile.symm⟩

/-- What is read as digits with no zero in front are such digits. -/
theorem digits_of_readWhole {text : List Char} (h : readWhole text = some (word, rest)) :
    Digits word ∧ (word.head? = some '0' → word = ['0']) ∧ text = word ++ rest := by
  obtain ⟨⟨digits, left⟩, hread, hkept⟩ := Option.bind_eq_some_iff.1 h
  obtain ⟨hdigits, htext⟩ := digits_of_readDigits hread
  dsimp only at hkept
  split at hkept
  · cases hkept
  · rename_i hzero
    cases hkept
    exact ⟨hdigits, fun hhead => Decidable.byContradiction fun hne => hzero ⟨hhead, hne⟩, htext⟩

/-- What is read behind a sign as an exponent are its digits. -/
theorem digits_of_readSigned {negative : Bool} {text : List Char} {exponent : Option Int}
    (h : readSigned negative text = some (exponent, rest)) :
    ∃ digits, Digits digits ∧ text = digits ++ rest ∧ exponent =
      some (if negative then -(numberOfDigits digits : Int) else numberOfDigits digits) := by
  obtain ⟨⟨digits, left⟩, hread, hkept⟩ := Option.map_eq_some_iff.1 h
  obtain ⟨hdigits, htext⟩ := digits_of_readDigits hread
  cases hkept
  exact ⟨digits, hdigits, htext, rfl⟩

/-- What is read as an exponent is a power of ten, or nothing. -/
theorem exists_of_readExponent {text : List Char} {exponent : Option Int}
    (h : readExponent text = some (exponent, rest)) :
    ∃ power : Option PowerForm, (∀ p, power = some p → p.WellFormed) ∧
      exponent = power.map PowerForm.value ∧ text = power.elim [] PowerForm.text ++ rest := by
  unfold readExponent at h
  split at h
  · cases h
    exact ⟨none, by simp, rfl, rfl⟩
  rename_i letter text
  split at h
  · rename_i hletter
    split at h
    all_goals
      obtain ⟨digits, hdigits, rfl, rfl⟩ := digits_of_readSigned h
    · refine ⟨some ⟨letter, some '-', digits⟩, ?_, rfl, rfl⟩
      rintro p ⟨⟩
      exact ⟨hletter, .inr (.inr rfl), hdigits⟩
    · refine ⟨some ⟨letter, some '+', digits⟩, ?_, rfl, rfl⟩
      rintro p ⟨⟩
      exact ⟨hletter, .inr (.inl rfl), hdigits⟩
    · refine ⟨some ⟨letter, none, digits⟩, ?_, rfl, rfl⟩
      rintro p ⟨⟩
      exact ⟨hletter, .inl rfl, hdigits⟩
  · cases h
    exact ⟨none, by simp, rfl, rfl⟩

/-- What is read behind a point are its digits, or there is no point. -/
theorem exists_of_readFraction {text : List Char} {fraction : Option (List Char)}
    (h : readFraction text = some (fraction, rest)) :
    (∀ digits, fraction = some digits → Digits digits) ∧
      text = fraction.elim [] ('.' :: ·) ++ rest := by
  unfold readFraction at h
  split at h
  · obtain ⟨⟨digits, left⟩, hread, hkept⟩ := Option.map_eq_some_iff.1 h
    obtain ⟨hdigits, rfl⟩ := digits_of_readDigits hread
    cases hkept
    exact ⟨by simpa using hdigits, rfl⟩
  · cases h
    exact ⟨by simp, rfl⟩

/-- What is read behind its sign as a number is one. -/
theorem exists_of_readMagnitude {negative : Bool} {text : List Char} {n : Numeral}
    (h : readMagnitude negative text = some (n, rest)) :
    ∃ f : NumberForm, f.Strict ∧ f.negative = negative ∧ text = f.unsignedText ++ rest ∧
      f.numeral = n := by
  obtain ⟨⟨whole, behind⟩, hwhole, h⟩ := Option.bind_eq_some_iff.1 h
  obtain ⟨⟨fraction, left⟩, hfraction, h⟩ := Option.bind_eq_some_iff.1 h
  obtain ⟨⟨exponent, last⟩, hexponent, hkept⟩ := Option.map_eq_some_iff.1 h
  obtain ⟨hdigits, hzero, rfl⟩ := digits_of_readWhole hwhole
  obtain ⟨hbehind, rfl⟩ := exists_of_readFraction hfraction
  obtain ⟨power, hpower, rfl, rfl⟩ := exists_of_readExponent hexponent
  cases hkept
  refine ⟨⟨negative, whole, fraction, power⟩, ⟨hdigits, hzero, hbehind, hpower⟩, rfl, ?_, ?_⟩
  · cases fraction <;> cases power <;>
      simp [NumberForm.unsignedText, NumberForm.fractionText, NumberForm.powerText]
  · cases power <;> rfl

/-- A text is read as a number of JSON exactly if it is the text of one. -/
theorem readNumeral_eq_some_iff {text : List Char} {n : Numeral} :
    readNumeral text = some (n, []) ↔ ∃ f : NumberForm, f.Strict ∧ f.text = text ∧
      f.numeral = n := by
  constructor
  · intro h
    unfold readNumeral at h
    split at h
    · obtain ⟨f, hf, hnegative, rfl, rfl⟩ := exists_of_readMagnitude h
      exact ⟨f, hf, by rw [NumberForm.text, hnegative, signed, List.append_nil], rfl⟩
    · obtain ⟨f, hf, hnegative, rfl, rfl⟩ := exists_of_readMagnitude h
      exact ⟨f, hf, by rw [NumberForm.text, hnegative, signed, List.append_nil], rfl⟩
  · rintro ⟨f, hf, rfl, rfl⟩
    have hends : EndsNumber [] := by simp [EndsNumber]
    have hread := readNumeral_text hf hends
    rwa [List.append_nil] at hread

/-- What begins as a number does is read as one. -/
theorem read_of_startsNumber {c : Char} (hc : startsNumber c = true) (text : List Char) :
    read c text = (readNumeral (c :: text)).map fun (n, rest) => (.number n, rest) := by
  unfold read
  split
  case h_11 => rfl
  all_goals cases hc

end Lexeme

/-- A lexeme is cut off where it begins with no blank. -/
theorem lexemes_cons {c : Char} {text rest : List Char} {l : Lexeme}
    (hc : Lexeme.isBlank c = false) (hread : Lexeme.read c text = some (l, rest)) :
    lexemes (c :: text) = (lexemes rest).map (l :: ·) := by
  rw [lexemes, hc, if_neg Bool.false_ne_true]
  split
  · rename_i hnone
    rw [hread] at hnone
    cases hnone
  · rename_i hsome
    rw [hread] at hsome
    cases hsome
    rfl

/-- A number is cut off in front of what is no character of a number. -/
theorem lexemes_text {f : NumberForm} {rest : List Char} (h : f.Strict) (hrest : EndsNumber rest) :
    lexemes (f.text ++ rest) = (lexemes rest).map (.number f.numeral :: ·) := by
  have hread := Lexeme.readNumeral_text h hrest
  obtain ⟨c, more, hcons, hc⟩ := NumberForm.exists_cons h.wellFormed (.inr h.whole.ne_nil)
  have hblank : Lexeme.isBlank c = false := by
    rw [Bool.eq_false_iff]
    intro hblank
    simp only [Lexeme.isBlank, Bool.or_eq_true, beq_iff_eq] at hblank
    rcases hblank with ((rfl | rfl) | rfl) | rfl <;> cases hc
  rw [hcons, List.cons_append] at hread ⊢
  refine lexemes_cons hblank ?_
  rw [Lexeme.read_of_startsNumber hc, hread]
  rfl

/-! ## Numbers as JSON texts -/

section
variable {t : NumberForm} (ht : t.Strict)

include ht

/-- A number alone is JSON. -/
theorem read?_numeral : read? t.text = t.numeral.toJson? := by
  have hends : EndsNumber [] := by simp [EndsNumber]
  have hcut := lexemes_text ht hends
  rw [List.append_nil] at hcut
  rw [read?, Form.read?, hcut, lexemes]
  simp [Progress.next, Progress.nextValue, Progress.form?, Form.toJson?]

/-- A number between brackets is JSON. -/
theorem read?_brackets :
    read? ('[' :: t.text ++ [']']) = t.numeral.toJson?.map fun j => .array [j] := by
  have hends : EndsNumber [']'] := by
    intro c hc
    cases hc
    rfl
  have hopen : lexemes ('[' :: t.text ++ [']']) =
      (lexemes (t.text ++ [']'])).map (.openArray :: ·) :=
    lexemes_cons rfl rfl
  have hclose : lexemes [']'] = (lexemes []).map (.closeArray :: ·) :=
    lexemes_cons rfl rfl
  rw [read?, Form.read?, hopen, lexemes_text ht hends, hclose, lexemes]
  cases hvalue : t.numeral.toJson? <;>
    simp [Progress.next, Progress.nextValue, Progress.nextAfter, Progress.form?, Form.toJson?,
      elementsJson?, maxDepth, hvalue]

end

end Json

end PathQuery
