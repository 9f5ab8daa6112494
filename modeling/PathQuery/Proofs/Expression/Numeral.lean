import PathQuery.Proofs.Expression.Number

/-!
# The grammar of numbers

A number is a sign or none, digits with a point before, among or behind them or without one, and a
power of ten or none. `NumberForm` has these parts, and a text is one of a number in one way at most
(`NumberForm.eq_of_text`). `readNumber?_eq_some_iff` says that the reader takes exactly these texts
and reads an integer of 64 bits as itself and every other number as a double.
-/

namespace PathQuery.Expression

open Text

/-! ## Digits -/

/-- Digits, one at least. -/
structure Digits (text : List Char) : Prop where
  ne_nil : text ≠ []
  all : AllDigits text

/-- The number that digits write. -/
abbrev numberOfDigits (text : List Char) : Nat := Nat.ofDigitChars 10 text 0

/-- A natural number is read from digits and from nothing else. -/
theorem readNat?_eq_some_iff {text : List Char} {n : Nat} :
    readNat? text = some n ↔ Digits text ∧ numberOfDigits text = n := by
  unfold readNat?
  constructor
  · intro h
    split at h
    · rename_i hdigits
      exact ⟨⟨hdigits.1, List.all_eq_true.1 hdigits.2⟩, Option.some.inj h⟩
    · cases h
  · rintro ⟨hdigits, rfl⟩
    rw [if_pos ⟨hdigits.ne_nil, List.all_eq_true.2 hdigits.all⟩]

/-- A text that begins with no digit ends the digits before it. -/
def EndsDigits (rest : List Char) : Prop := ∀ c, rest.head? = some c → c.isDigit = false

/-- Digits begin with a digit. -/
theorem Digits.exists_cons {text : List Char} (h : Digits text) :
    ∃ c more, text = c :: more ∧ c.isDigit = true := by
  obtain ⟨c, more, rfl⟩ := List.exists_cons_of_ne_nil h.ne_nil
  exact ⟨c, more, rfl, h.all c List.mem_cons_self⟩

/-- A text begins with digits, maybe none, and goes on with something else. -/
theorem exists_digits (text : List Char) :
    ∃ word rest, text = word ++ rest ∧ AllDigits word ∧ EndsDigits rest := by
  refine ⟨text.takeWhile Char.isDigit, text.dropWhile Char.isDigit,
    List.takeWhile_append_dropWhile.symm, List.all_eq_true.1 List.all_takeWhile, fun c hc => ?_⟩
  have hhead := List.head?_dropWhile_not Char.isDigit text
  rw [hc] at hhead
  simpa using hhead

/-- Digits begin with no sign. -/
theorem Digits.head?_ne {text : List Char} (h : Digits text) : text.head? ≠ some '-' := by
  obtain ⟨c, more, rfl, hc⟩ := h.exists_cons
  rintro ⟨⟩
  cases hc

/-! ## Integers -/

/-- A text behind a minus sign, or alone. -/
def signed : Bool → List Char → List Char
  | true, text => '-' :: text
  | false, text => text

/-- A sign is told from a text that begins with none. -/
theorem signed_inj {m n : Bool} {a b : List Char} (ha : a.head? ≠ some '-')
    (hb : b.head? ≠ some '-') (h : signed m a = signed n b) : m = n ∧ a = b := by
  cases m with
  | true =>
      cases n with
      | true => exact ⟨rfl, (List.cons.inj h).2⟩
      | false => exact absurd (congrArg List.head? h.symm) hb
  | false =>
      cases n with
      | true => exact absurd (congrArg List.head? h) ha
      | false => exact ⟨rfl, h⟩

/-- An integer as it is written: whether there is a minus sign, and the digits. -/
@[ext]
structure IntegerForm where
  negative : Bool
  digits : List Char

namespace IntegerForm

/-- The text of an integer. -/
def text (f : IntegerForm) : List Char := signed f.negative f.digits

/-- The integer that is written. -/
def value (f : IntegerForm) : Int :=
  if f.negative then -(numberOfDigits f.digits : Int) else numberOfDigits f.digits

/-- An integer is read from its text if it fits. -/
theorem readInt64?_text {f : IntegerForm} (h : Digits f.digits) :
    readInt64? f.text = int64? f.value := by
  have hread := readNat?_eq_some_iff.2 ⟨h, rfl⟩
  rw [text, value]
  cases f.negative with
  | true => rw [signed, if_pos rfl, readInt64?, hread, Option.bind_some]
  | false =>
      obtain ⟨c, more, hdigits, hc⟩ := h.exists_cons
      rw [hdigits] at hread ⊢
      rw [signed, if_neg Bool.false_ne_true, readInt64?_of_isDigit hc, hread, Option.bind_some]

/-- A text is one of an integer in one way at most. -/
theorem eq_of_text {f g : IntegerForm} (hf : Digits f.digits) (hg : Digits g.digits)
    (h : f.text = g.text) : f = g := by
  obtain ⟨hnegative, hdigits⟩ := signed_inj hf.head?_ne hg.head?_ne h
  exact IntegerForm.ext hnegative hdigits

/-- What is read as an integer is the text of one, unless it begins with a plus sign. -/
theorem exists_of_readInt64? {text : List Char} {i : Int64} (h : readInt64? text = some i)
    (hplus : text.head? ≠ some '+') : ∃ f : IntegerForm, Digits f.digits ∧ f.text = text := by
  unfold readInt64? at h
  split at h
  · obtain ⟨n, hread, -⟩ := Option.bind_eq_some_iff.1 h
    exact ⟨⟨true, _⟩, (readNat?_eq_some_iff.1 hread).1, rfl⟩
  · exact absurd rfl hplus
  · obtain ⟨n, hread, -⟩ := Option.bind_eq_some_iff.1 h
    exact ⟨⟨false, _⟩, (readNat?_eq_some_iff.1 hread).1, rfl⟩

/-- An integer is written with digits and a minus sign. -/
theorem isPositionChar_of_mem {f : IntegerForm} (h : Digits f.digits) :
    ∀ c ∈ f.text, isPositionChar c = true := by
  have hall : ∀ c ∈ f.digits, isPositionChar c = true := fun c hc => by
    rw [isPositionChar, h.all c hc, Bool.true_or]
  unfold text signed
  split
  · exact List.forall_mem_cons.2 ⟨rfl, hall⟩
  · exact hall

/-- The text of an integer begins as a number does. -/
theorem exists_cons {f : IntegerForm} (h : Digits f.digits) :
    ∃ c more, f.text = c :: more ∧ startsNumber c = true := by
  unfold text signed
  split
  · exact ⟨'-', f.digits, rfl, rfl⟩
  · obtain ⟨c, more, hdigits, hc⟩ := h.exists_cons
    exact ⟨c, more, hdigits, by rw [startsNumber, hc, Bool.or_true]⟩

end IntegerForm

/-! ## Powers of ten -/

/-- A power of ten as it is written: its letter, its sign if there is one, and its digits. -/
structure PowerForm where
  letter : Char
  sign : Option Char
  digits : List Char

namespace PowerForm

/-- The text of a power of ten. -/
def text (p : PowerForm) : List Char := p.letter :: (p.sign.toList ++ p.digits)

/-- The exponent that is written. -/
def value (p : PowerForm) : Int :=
  if p.sign = some '-' then -(numberOfDigits p.digits : Int) else numberOfDigits p.digits

/-- The letter is an e, the sign is one of the two, and there are digits. -/
structure WellFormed (p : PowerForm) : Prop where
  letter : p.letter = 'e' ∨ p.letter = 'E'
  sign : p.sign = none ∨ p.sign = some '+' ∨ p.sign = some '-'
  digits : Digits p.digits

variable {p q : PowerForm}

/-- The letter is no digit and no point. -/
theorem WellFormed.letter_ne (h : p.WellFormed) : p.letter.isDigit = false ∧ p.letter ≠ '.' := by
  rcases h.letter with hletter | hletter <;> rw [hletter] <;> decide

/-- A sign is no digit. -/
theorem WellFormed.isDigit_sign (h : p.WellFormed) :
    ∀ c, p.sign = some c → c.isDigit = false := by
  intro c hc
  rcases h.sign with hsign | hsign | hsign <;> rw [hsign] at hc <;> cases hc <;> rfl

/-- A power of ten consists of the characters of numbers. -/
theorem WellFormed.isNumberChar_of_mem (h : p.WellFormed) :
    ∀ c ∈ p.text, isNumberChar c = true := by
  have hdigits : ∀ c ∈ p.digits, isNumberChar c = true := fun c hc => by
    simp [isNumberChar, h.digits.all c hc]
  unfold text
  refine List.forall_mem_cons.2 ⟨?_, List.forall_mem_append.2 ⟨?_, hdigits⟩⟩
  · rcases h.letter with hletter | hletter <;> rw [hletter] <;> rfl
  · rcases h.sign with hsign | hsign | hsign <;> rw [hsign] <;> exact forall_mem_of_all rfl

/-- A text is one of a power of ten in one way at most. -/
theorem eq_of_text (hp : p.WellFormed) (hq : q.WellFormed) (h : p.text = q.text) : p = q := by
  have hsignp := hp.isDigit_sign
  have hsignq := hq.isDigit_sign
  obtain ⟨c, more, hdigitsp, hc⟩ := hp.digits.exists_cons
  obtain ⟨d, others, hdigitsq, hd⟩ := hq.digits.exists_cons
  obtain ⟨letter, sign, digits⟩ := p
  obtain ⟨letter', sign', digits'⟩ := q
  dsimp only at hdigitsp hdigitsq hsignp hsignq
  subst hdigitsp hdigitsq
  obtain ⟨rfl, hrest⟩ := List.cons.inj h
  dsimp only at hrest
  cases sign with
  | none =>
      cases sign' with
      | none => rw [show c :: more = d :: others from hrest]
      | some s =>
          obtain ⟨rfl, -⟩ := List.cons.inj hrest
          exact absurd (hsignq c rfl) (by simp [hc])
  | some s =>
      cases sign' with
      | none =>
          obtain ⟨rfl, -⟩ := List.cons.inj hrest
          exact absurd (hsignp s rfl) (by simp [hd])
      | some s' =>
          obtain ⟨rfl, hdigits⟩ := List.cons.inj hrest
          rw [show c :: more = d :: others from hdigits]

/-- A power of ten is read from its text. -/
theorem readExponent?_text (h : p.WellFormed) : readExponent? p.text = some p.value := by
  have hread := readNat?_eq_some_iff.2 ⟨h.digits, rfl⟩
  have hletter := h.letter
  rw [text, value]
  rcases h.sign with hsign | hsign | hsign
  · obtain ⟨c, more, hdigits, hc⟩ := h.digits.exists_cons
    rw [hdigits] at hread ⊢
    rw [hsign, if_neg nofun, Option.toList_none, List.nil_append]
    unfold readExponent?
    dsimp only
    rw [if_pos hletter]
    split
    · rename_i heq
      cases heq
      cases hc
    · rename_i heq
      cases heq
      cases hc
    · rw [hread, Option.map_some]
      rfl
  · rw [hsign, if_neg (by decide), Option.toList_some, List.singleton_append, readExponent?,
      if_pos hletter, hread, Option.map_some]
    rfl
  · rw [hsign, if_pos rfl, Option.toList_some, List.singleton_append, readExponent?,
      if_pos hletter, hread]
    rfl

/-- What is read as a power of ten is the text of one, or nothing. -/
theorem exists_of_readExponent? {text : List Char} {n : Int} (h : readExponent? text = some n) :
    text = [] ∨ ∃ p : PowerForm, p.WellFormed ∧ p.text = text := by
  have hdigits : ∀ {text : List Char}, readNat? text ≠ none → Digits text := by
    intro text hread
    obtain ⟨m, hm⟩ := Option.ne_none_iff_exists'.1 hread
    exact (readNat?_eq_some_iff.1 hm).1
  unfold readExponent? at h
  split at h
  · exact .inl rfl
  split at h
  · rename_i hletter
    refine .inr ?_
    split at h
    · refine ⟨⟨_, some '-', _⟩, ⟨hletter, .inr (.inr rfl), hdigits fun hnone => ?_⟩, rfl⟩
      rw [hnone] at h
      cases h
    · refine ⟨⟨_, some '+', _⟩, ⟨hletter, .inr (.inl rfl), hdigits fun hnone => ?_⟩, rfl⟩
      rw [hnone] at h
      cases h
    · refine ⟨⟨_, none, _⟩, ⟨hletter, .inl rfl, hdigits fun hnone => ?_⟩, rfl⟩
      rw [hnone] at h
      cases h
  · cases h

end PowerForm

/-! ## Numbers -/

/-- A number as it is written: whether there is a minus sign, the digits before the point, those
behind it if there is a point, and the power of ten if there is one. -/
@[ext]
structure NumberForm where
  negative : Bool
  whole : List Char
  fraction : Option (List Char)
  power : Option PowerForm

namespace NumberForm

/-- The text of a power of ten, or nothing. -/
def powerText (f : NumberForm) : List Char :=
  match f.power with
  | none => []
  | some p => p.text

/-- The text from the point on. -/
def fractionText (f : NumberForm) : List Char :=
  match f.fraction with
  | none => f.powerText
  | some digits => '.' :: (digits ++ f.powerText)

/-- The text behind the sign. -/
def unsignedText (f : NumberForm) : List Char := f.whole ++ f.fractionText

/-- The text of a number. -/
def text (f : NumberForm) : List Char := signed f.negative f.unsignedText

/-- There are digits on one side of the point at least, or digits without a point. -/
structure WellFormed (f : NumberForm) : Prop where
  whole : AllDigits f.whole
  fraction : ∀ digits, f.fraction = some digits → AllDigits digits
  ne_nil : f.whole ≠ [] ∨ ∃ digits, f.fraction = some digits ∧ digits ≠ []
  power : ∀ p, f.power = some p → p.WellFormed

/-- The decimal fraction that is written. -/
def decimal (f : NumberForm) : Decimal :=
  .ofParts f.negative f.whole (f.fraction.getD []) (f.power.elim 0 PowerForm.value)

/-- The integer of 64 bits that is written, if there is neither a point nor a power of ten. -/
def int64? (f : NumberForm) : Option Int64 :=
  match f.fraction, f.power with
  | none, none => Text.int64? (IntegerForm.value ⟨f.negative, f.whole⟩)
  | _, _ => none

/-- The number that is written: an integer if it is one of 64 bits, and a double otherwise. -/
def value (f : NumberForm) : Number :=
  match f.int64? with
  | some i => .int i
  | none => .float f.decimal.toBinary64

variable {f g : NumberForm}

/-- A power of ten begins with no digit and no point. -/
theorem WellFormed.head_powerText (h : f.WellFormed) :
    ∀ c, f.powerText.head? = some c → c.isDigit = false ∧ c ≠ '.' := by
  intro c hc
  unfold powerText at hc
  split at hc
  · cases hc
  · rename_i p hp
    cases hc
    exact (h.power p hp).letter_ne

/-- What is behind the digits before the point begins with no digit. -/
theorem WellFormed.endsDigits_fractionText (h : f.WellFormed) : EndsDigits f.fractionText := by
  intro c hc
  unfold fractionText at hc
  split at hc
  · exact (h.head_powerText c hc).1
  · cases hc
    rfl

/-- Behind the sign stands a digit or a point. -/
theorem WellFormed.exists_cons (h : f.WellFormed) :
    ∃ c more, f.unsignedText = c :: more ∧ (c.isDigit = true ∨ c = '.') := by
  unfold unsignedText
  cases hwhole : f.whole with
  | cons c more => exact ⟨c, _, rfl, .inl (h.whole c (hwhole ▸ List.mem_cons_self))⟩
  | nil =>
      obtain ⟨digits, hdigits, -⟩ := h.ne_nil.resolve_left (fun hne => hne hwhole)
      unfold fractionText
      rw [hdigits]
      exact ⟨'.', _, rfl, .inr rfl⟩

/-- Behind the sign there is no sign. -/
theorem WellFormed.head_unsignedText (h : f.WellFormed) :
    f.unsignedText.head? ≠ some '-' ∧ f.unsignedText.head? ≠ some '+' := by
  obtain ⟨c, more, htext, hc⟩ := h.exists_cons
  rw [htext]
  constructor <;> rintro hhead <;> cases hhead <;> rcases hc with hc | hc <;> cases hc

/-- With a sign or a digit in front, a number begins as numbers do. -/
theorem exists_cons (h : f.WellFormed) (hstart : f.negative = true ∨ f.whole ≠ []) :
    ∃ c more, f.text = c :: more ∧ startsNumber c = true := by
  unfold text
  cases hnegative : f.negative with
  | true => exact ⟨'-', f.unsignedText, rfl, rfl⟩
  | false =>
      have hne : f.whole ≠ [] := hstart.resolve_left (by rw [hnegative]; exact nofun)
      obtain ⟨c, more, hwhole, hc⟩ := Digits.exists_cons ⟨hne, h.whole⟩
      refine ⟨c, more ++ f.fractionText, ?_, by rw [startsNumber, hc, Bool.or_true]⟩
      rw [signed, unsignedText, hwhole, List.cons_append]

/-- A number that begins as numbers do in a filter has a sign or a digit in front. -/
theorem WellFormed.negative_or_whole (h : f.WellFormed) {c : Char} {more : List Char}
    (htext : f.text = c :: more) (hc : startsNumber c = true) :
    f.negative = true ∨ f.whole ≠ [] := by
  refine Decidable.byContradiction fun hnone => ?_
  obtain ⟨hnegative, hwhole⟩ := not_or.1 hnone
  obtain ⟨digits, hfraction, -⟩ := h.ne_nil.resolve_left fun hne => hwhole hne
  rw [text, Bool.eq_false_iff.2 hnegative, signed, unsignedText, Decidable.not_not.1 hwhole,
    fractionText, hfraction] at htext
  cases htext
  cases hc

/-- A number consists of the characters of numbers. -/
theorem isNumberChar_of_mem (h : f.WellFormed) : ∀ c ∈ f.text, isNumberChar c = true := by
  have hdigits : ∀ {word : List Char}, AllDigits word → ∀ c ∈ word, isNumberChar c = true :=
    fun hword c hc => by simp [isNumberChar, hword c hc]
  have hpower : ∀ c ∈ f.powerText, isNumberChar c = true := by
    unfold powerText
    split
    · exact fun c hc => absurd hc List.not_mem_nil
    · rename_i p hp
      exact (h.power p hp).isNumberChar_of_mem
  have hfraction : ∀ c ∈ f.fractionText, isNumberChar c = true := by
    unfold fractionText
    split
    · exact hpower
    · rename_i digits hdigits'
      exact List.forall_mem_cons.2
        ⟨rfl, List.forall_mem_append.2 ⟨hdigits (h.fraction _ hdigits'), hpower⟩⟩
  have hunsigned : ∀ c ∈ f.unsignedText, isNumberChar c = true :=
    List.forall_mem_append.2 ⟨hdigits h.whole, hfraction⟩
  unfold text signed
  split
  · exact List.forall_mem_cons.2 ⟨rfl, hunsigned⟩
  · exact hunsigned

/-- A power of ten, or nothing, is the text of one in one way at most. -/
theorem power_eq_of_text (hf : f.WellFormed) (hg : g.WellFormed)
    (h : f.powerText = g.powerText) : f.power = g.power := by
  unfold powerText at h
  cases hp : f.power with
  | none =>
      cases hq : g.power with
      | none => rfl
      | some q =>
          rw [hp, hq] at h
          cases h
  | some p =>
      cases hq : g.power with
      | none =>
          rw [hp, hq] at h
          cases h
      | some q =>
          rw [hp, hq] at h
          rw [PowerForm.eq_of_text (hf.power p hp) (hg.power q hq) h]

/-- The digits behind the point, and the power of ten behind them, are told by the text. -/
theorem fraction_eq_of_text (hf : f.WellFormed) (hg : g.WellFormed)
    (h : f.fractionText = g.fractionText) :
    f.fraction = g.fraction ∧ f.powerText = g.powerText := by
  have hendsf : EndsDigits f.powerText := fun c hc => (hf.head_powerText c hc).1
  have hendsg : EndsDigits g.powerText := fun c hc => (hg.head_powerText c hc).1
  unfold fractionText at h
  cases hdf : f.fraction with
  | none =>
      cases hdg : g.fraction with
      | none =>
          rw [hdf, hdg] at h
          exact ⟨rfl, h⟩
      | some digits =>
          rw [hdf, hdg] at h
          exact absurd rfl (hf.head_powerText '.' (congrArg List.head? h)).2
  | some digits =>
      cases hdg : g.fraction with
      | none =>
          rw [hdf, hdg] at h
          exact absurd rfl (hg.head_powerText '.' (congrArg List.head? h.symm)).2
      | some digits' =>
          rw [hdf, hdg] at h
          obtain ⟨hdigits, hpower⟩ := word_append_inj (hf.fraction _ hdf) hendsf
            (hg.fraction _ hdg) hendsg (List.cons.inj h).2
          exact ⟨congrArg some hdigits, hpower⟩

/-- A text is one of a number in one way at most. -/
theorem eq_of_text (hf : f.WellFormed) (hg : g.WellFormed) (h : f.text = g.text) : f = g := by
  obtain ⟨hnegative, hunsigned⟩ :=
    signed_inj hf.head_unsignedText.1 hg.head_unsignedText.1 h
  obtain ⟨hwhole, hrest⟩ := word_append_inj hf.whole hf.endsDigits_fractionText hg.whole
    hg.endsDigits_fractionText hunsigned
  obtain ⟨hfraction, hpowerText⟩ := fraction_eq_of_text hf hg hrest
  exact NumberForm.ext hnegative hwhole hfraction (power_eq_of_text hf hg hpowerText)

/-! ## Reading numbers -/

/-- A power of ten, or nothing, is read as an exponent. -/
theorem readExponent?_powerText (h : f.WellFormed) :
    readExponent? f.powerText = some (f.power.elim 0 PowerForm.value) := by
  unfold powerText
  cases hp : f.power with
  | none => rfl
  | some p => exact PowerForm.readExponent?_text (h.power p hp)

/-- What is read as an exponent is the text of a power of ten, or nothing. -/
theorem exists_of_readExponent? {text : List Char} {n : Int} (h : readExponent? text = some n) :
    ∃ power : Option PowerForm, (∀ p, power = some p → p.WellFormed) ∧
      ∀ f : NumberForm, f.power = power → f.powerText = text := by
  rcases PowerForm.exists_of_readExponent? h with rfl | ⟨p, hp, rfl⟩
  · exact ⟨none, nofun, fun f hf => by rw [powerText, hf]⟩
  · exact ⟨some p, fun q hq => Option.some.inj hq ▸ hp, fun f hf => by rw [powerText, hf]⟩

/-- The digits behind the point that a text begins with, and what is behind them. Without a point
there are no digits. -/
def splitFraction : List Char → List Char × List Char
  | '.' :: rest => (rest.takeWhile Char.isDigit, rest.dropWhile Char.isDigit)
  | rest => ([], rest)

/-- A text that begins with no point has no digits behind it. -/
theorem splitFraction_of_ne {rest : List Char} (h : rest.head? ≠ some '.') :
    splitFraction rest = ([], rest) := by
  unfold splitFraction
  split
  · exact absurd rfl h
  · rfl

/-- A decimal fraction is read in three parts: digits, digits behind a point, and a power of ten. -/
theorem readUnsigned?_eq {whole rest : List Char} (hwhole : AllDigits whole)
    (hrest : EndsDigits rest) (negative : Bool) :
    readUnsigned? negative (whole ++ rest) =
      if whole = [] ∧ (splitFraction rest).1 = [] then none
      else (readExponent? (splitFraction rest).2).map
        (Decimal.ofParts negative whole (splitFraction rest).1) := by
  simp only [readUnsigned?, takeWhile_word hwhole hrest, dropWhile_word hwhole hrest]
  rfl

/-- Behind the sign the decimal fraction is read. -/
theorem readUnsigned?_unsignedText (h : f.WellFormed) :
    readUnsigned? f.negative f.unsignedText = some f.decimal := by
  have hpower := readExponent?_powerText h
  have hends : EndsDigits f.powerText := fun c hc => (h.head_powerText c hc).1
  rw [unsignedText, readUnsigned?_eq h.whole h.endsDigits_fractionText, fractionText, decimal]
  cases hfraction : f.fraction with
  | none =>
      have hwhole : f.whole ≠ [] := h.ne_nil.resolve_right fun ⟨digits, hdigits, _⟩ => by
        rw [hfraction] at hdigits
        cases hdigits
      have hsplit : splitFraction f.powerText = ([], f.powerText) :=
        splitFraction_of_ne fun hhead => (h.head_powerText '.' hhead).2 rfl
      dsimp only
      rw [hsplit, if_neg fun hnil => hwhole hnil.1, hpower]
      rfl
  | some digits =>
      have hne : ¬(f.whole = [] ∧ digits = []) := by
        rintro ⟨hwhole, hnil⟩
        rcases h.ne_nil with hne | ⟨digits', hdigits', hne⟩
        · exact hne hwhole
        · rw [hfraction] at hdigits'
          cases hdigits'
          exact hne hnil
      have hdigits := h.fraction digits hfraction
      have hsplit : splitFraction ('.' :: (digits ++ f.powerText)) = (digits, f.powerText) := by
        rw [splitFraction, takeWhile_word hdigits hends, dropWhile_word hdigits hends]
      dsimp only
      rw [hsplit, if_neg hne, hpower]
      rfl

/-- What is read as a decimal fraction is the text of a number behind its sign. -/
theorem exists_of_readUnsigned? {negative : Bool} {text : List Char} {d : Decimal}
    (h : readUnsigned? negative text = some d) :
    ∃ f : NumberForm, f.WellFormed ∧ f.negative = negative ∧ f.unsignedText = text := by
  obtain ⟨whole, rest, rfl, hwhole, hends⟩ := exists_digits text
  rw [readUnsigned?_eq hwhole hends] at h
  split at h
  · cases h
  rename_i hne
  obtain ⟨n, hexponent, -⟩ := Option.map_eq_some_iff.1 h
  obtain ⟨power, hpower, htext⟩ := exists_of_readExponent? hexponent
  by_cases hpoint : rest.head? = some '.'
  · obtain ⟨more, rfl⟩ : ∃ more, rest = '.' :: more := by
      obtain ⟨more, hmore⟩ := List.head?_eq_some_iff.1 hpoint
      exact ⟨more, hmore⟩
    refine ⟨⟨negative, whole, some (more.takeWhile Char.isDigit), power⟩,
      ⟨hwhole, fun digits hdigits => ?_, ?_, hpower⟩, rfl, ?_⟩
    · cases hdigits
      exact List.all_eq_true.1 List.all_takeWhile
    · by_cases hnil : whole = []
      · exact .inr ⟨_, rfl, fun hfraction => hne ⟨hnil, hfraction⟩⟩
      · exact .inl hnil
    · have hdrop := htext ⟨negative, whole, some (more.takeWhile Char.isDigit), power⟩ rfl
      rw [splitFraction] at hdrop
      rw [unsignedText, fractionText, hdrop]
      dsimp only
      rw [List.takeWhile_append_dropWhile]
  · rw [splitFraction_of_ne hpoint] at hne htext
    refine ⟨⟨negative, whole, none, power⟩, ⟨hwhole, nofun, ?_, hpower⟩, rfl, ?_⟩
    · exact .inl fun hnil => hne ⟨hnil, rfl⟩
    · rw [unsignedText, fractionText, htext ⟨negative, whole, none, power⟩ rfl]

/-- An integer is a number without a point and without a power of ten. -/
def ofInteger (e : IntegerForm) : NumberForm := ⟨e.negative, e.digits, none, none⟩

/-- As a number an integer has the same text. -/
theorem text_ofInteger (e : IntegerForm) : (ofInteger e).text = e.text := by
  simp only [ofInteger, text, unsignedText, fractionText, powerText, List.append_nil,
    IntegerForm.text]

/-- An integer with digits is a well-formed number. -/
theorem wellFormed_ofInteger {e : IntegerForm} (h : Digits e.digits) : (ofInteger e).WellFormed :=
  ⟨h.all, nofun, .inl h.ne_nil, nofun⟩

/-- A number without a point and without a power of ten is an integer. -/
theorem WellFormed.exists_integer (h : f.WellFormed) (hfraction : f.fraction = none)
    (hpower : f.power = none) : ∃ e : IntegerForm, Digits e.digits ∧ f = ofInteger e := by
  have hne : f.whole ≠ [] := h.ne_nil.resolve_right fun ⟨digits, hdigits, _⟩ => by
    rw [hfraction] at hdigits
    cases hdigits
  refine ⟨⟨f.negative, f.whole⟩, ⟨hne, h.whole⟩, ?_⟩
  rw [ofInteger, ← hfraction, ← hpower]

/-- As an integer a number is read if it is one, and then as that one. -/
theorem readInt64?_text (h : f.WellFormed) : readInt64? f.text = f.int64? := by
  cases hread : readInt64? f.text with
  | none =>
      unfold NumberForm.int64?
      split
      · rename_i hfraction hpower
        obtain ⟨e, hdigits, rfl⟩ := h.exists_integer hfraction hpower
        rw [text_ofInteger, IntegerForm.readInt64?_text hdigits] at hread
        exact hread.symm
      · rfl
  | some i =>
      have hplus : f.text.head? ≠ some '+' := by
        unfold text signed
        split
        · exact nofun
        · exact h.head_unsignedText.2
      obtain ⟨e, hdigits, htext⟩ := IntegerForm.exists_of_readInt64? hread hplus
      obtain rfl : ofInteger e = f :=
        eq_of_text (wellFormed_ofInteger hdigits) h ((text_ofInteger e).trans htext)
      rw [← htext, IntegerForm.readInt64?_text hdigits] at hread
      exact hread.symm

/-- A number is read from its text. -/
theorem readNumber?_text (h : f.WellFormed) : readNumber? f.text = some f.value := by
  have hunsigned := readUnsigned?_unsignedText h
  have hminus := h.head_unsignedText.1
  have hint := readInt64?_text h
  unfold readNumber? value
  rw [hint]
  cases f.int64? with
  | some i => rfl
  | none =>
      dsimp only
      rw [text]
      cases hnegative : f.negative with
      | true =>
          rw [hnegative] at hunsigned
          show (readUnsigned? true f.unsignedText).map _ = _
          rw [hunsigned, Option.map_some]
      | false =>
          rw [hnegative] at hunsigned
          rw [signed]
          split
          · rename_i htext
            exact absurd (congrArg List.head? htext) hminus
          · rw [hunsigned, Option.map_some]

/-- What is read as a number is the text of one, unless it begins with a plus sign. -/
theorem exists_of_readNumber? {text : List Char} {n : Number} (h : readNumber? text = some n)
    (hplus : text.head? ≠ some '+') : ∃ f : NumberForm, f.WellFormed ∧ f.text = text := by
  unfold readNumber? at h
  split at h
  · rename_i i hread
    obtain ⟨e, hdigits, rfl⟩ := IntegerForm.exists_of_readInt64? hread hplus
    exact ⟨ofInteger e, wellFormed_ofInteger hdigits, text_ofInteger e⟩
  · obtain ⟨d, hread, -⟩ := Option.map_eq_some_iff.1 h
    split at hread
    · obtain ⟨f, hf, hnegative, rfl⟩ := exists_of_readUnsigned? hread
      exact ⟨f, hf, by rw [NumberForm.text, hnegative, signed]⟩
    · obtain ⟨f, hf, hnegative, rfl⟩ := exists_of_readUnsigned? hread
      exact ⟨f, hf, by rw [NumberForm.text, hnegative, signed]⟩

/-- Numbers are read exactly from their texts, unless a plus sign stands in front. -/
theorem readNumber?_eq_some_iff {text : List Char} {n : Number} (hplus : text.head? ≠ some '+') :
    readNumber? text = some n ↔ ∃ f : NumberForm, f.WellFormed ∧ f.text = text ∧ f.value = n := by
  constructor
  · intro h
    obtain ⟨f, hf, rfl⟩ := exists_of_readNumber? h hplus
    rw [readNumber?_text hf] at h
    exact ⟨f, hf, rfl, Option.some.inj h⟩
  · rintro ⟨f, hf, rfl, rfl⟩
    exact readNumber?_text hf

end NumberForm

end PathQuery.Expression
