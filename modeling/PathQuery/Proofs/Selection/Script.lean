import PathQuery.Proofs.Expression.Numeral
import PathQuery.Proofs.Expression.Path
import PathQuery.Proofs.Selection.Position

/-!
# Which scripts there are

A script is the length of an array, alone or with an amount behind a sign, and blanks may stand
around it and around the sign. `LengthForm` has these parts. `scriptOffset?_iff_form` says that the
texts of well-formed ones are the scripts that there are, and what each adds to the length. An
amount has to fit 64 bits before its sign is looked at, so that nothing overflows where it is taken
off.
-/

namespace PathQuery

open Text Expression

/-! ## Amounts -/

/-- An amount is read from digits that write a number of 64 bits, and from nothing else. -/
theorem readAmount?_eq_some_iff {text : List Char} {n : Int64} :
    readAmount? text = some n ↔ Digits text ∧ n.toInt = numberOfDigits text := by
  rw [readAmount?, Option.bind_eq_some_iff]
  constructor
  · rintro ⟨m, hread, hfits⟩
    obtain ⟨hdigits, rfl⟩ := readNat?_eq_some_iff.1 hread
    exact ⟨hdigits, int64?_eq_some_iff.1 hfits⟩
  · rintro ⟨hdigits, hvalue⟩
    exact ⟨_, readNat?_eq_some_iff.2 ⟨hdigits, rfl⟩, int64?_eq_some_iff.2 hvalue⟩

/-- An amount is not negative. -/
theorem nonneg_of_readAmount? {text : List Char} {n : Int64} (h : readAmount? text = some n) :
    0 ≤ n := by
  rw [nonneg_iff_toInt_nonneg, (readAmount?_eq_some_iff.1 h).2]
  exact Int.natCast_nonneg _

/-- Digits have no blanks at their ends. -/
theorem tidy_of_digits {text : List Char} (h : Digits text) : Tidy text :=
  tidy_signAndDigits fun c hc => List.mem_cons_of_mem _ (mem_digits (h.all c hc))

/-- An amount as it is written behind a length: blanks, a sign, blanks again, and digits. -/
structure AmountForm where
  before : List Char
  negative : Bool
  behind : List Char
  digits : List Char

namespace AmountForm

variable {f : AmountForm}

/-- The text of an amount with its sign. -/
def text (f : AmountForm) : List Char :=
  f.before ++ (if f.negative then '-' else '+') :: (f.behind ++ f.digits)

/-- What the amount adds to a length. -/
def value (f : AmountForm) : Int :=
  if f.negative then -(numberOfDigits f.digits : Int) else numberOfDigits f.digits

/-- There is a digit at least, what the digits write fits 64 bits, and blanks stand around the
sign. -/
structure WellFormed (f : AmountForm) : Prop where
  before : Blank f.before
  behind : Blank f.behind
  digits : Digits f.digits
  fits : (numberOfDigits f.digits : Int) < int64Limit

/-- What is behind the sign reads as the amount. -/
theorem WellFormed.exists_readAmount? (h : f.WellFormed) :
    ∃ n, readAmount? (skipBlanks (f.behind ++ f.digits)) = some n ∧
      n.toInt = numberOfDigits f.digits := by
  have hfits := h.fits
  rw [skipBlanks_append h.behind, skipBlanks_eq_self (tidy_of_digits h.digits).head]
  have hvalue : (Int64.ofInt (numberOfDigits f.digits)).toInt = numberOfDigits f.digits :=
    Int64.toInt_ofInt_of_le (by rw [int64Limit] at hfits; omega) hfits
  exact ⟨_, readAmount?_eq_some_iff.2 ⟨h.digits, hvalue⟩, hvalue⟩

/-- Behind a length the text of an amount reads as what the amount adds. -/
theorem WellFormed.exists_readOffset? (h : f.WellFormed) :
    ∃ k, readOffset? f.text = some k ∧ k.toInt = f.value := by
  obtain ⟨n, hread, hvalue⟩ := h.exists_readAmount?
  have hskip : ∀ sign : Char, isBlank sign = false →
      skipBlanks (f.before ++ sign :: (f.behind ++ f.digits)) =
        sign :: (f.behind ++ f.digits) := by
    intro sign hsign
    rw [skipBlanks_append h.before, skipBlanks_eq_self]
    rintro _ ⟨⟩
    exact hsign
  rw [text, value]
  cases f.negative with
  | true =>
      refine ⟨-n, ?_, ?_⟩
      · rw [if_pos rfl, readOffset?, hskip '-' (by decide)]
        simp only [hread, Option.map_some]
      · rw [if_pos rfl, ← hvalue, toInt_neg_of_nonneg (nonneg_of_readAmount? hread)]
  | false =>
      refine ⟨n, ?_, ?_⟩
      · rw [if_neg Bool.false_ne_true, readOffset?, hskip '+' (by decide)]
        exact hread
      · rw [if_neg Bool.false_ne_true, hvalue]

/-- What reads as an amount behind a sign is written as one, with the blanks before the sign. -/
theorem exists_of_readAmount? {before rest : List Char} {n : Int64} (hbefore : Blank before)
    (h : readAmount? (skipBlanks rest) = some n) (negative : Bool) :
    ∃ f : AmountForm, f.WellFormed ∧
      f.text = before ++ (if negative then '-' else '+') :: rest ∧
      f.value = if negative then -n.toInt else n.toInt := by
  obtain ⟨behind, hbehind, hrest, -⟩ := exists_skipBlanks rest
  obtain ⟨hdigits, hvalue⟩ := readAmount?_eq_some_iff.1 h
  refine ⟨⟨before, negative, behind, skipBlanks rest⟩,
    ⟨hbefore, hbehind, hdigits, hvalue ▸ n.toInt_lt⟩, ?_, ?_⟩
  · rw [text, ← hrest]
  · rw [value, hvalue]

/-- What is read behind a length is nothing but blanks, or the text of an amount. -/
theorem exists_of_readOffset? {text : List Char} {k : Int64} (h : readOffset? text = some k) :
    (Blank text ∧ k = 0) ∨ ∃ f : AmountForm, f.WellFormed ∧ f.text = text ∧ f.value = k.toInt := by
  obtain ⟨before, hbefore, htext, -⟩ := exists_skipBlanks text
  unfold readOffset? at h
  split at h
  · rename_i hnil
    cases h
    rw [hnil, List.append_nil] at htext
    exact .inl ⟨htext ▸ hbefore, rfl⟩
  · rename_i rest hsign
    obtain ⟨f, hf, hftext, hvalue⟩ := exists_of_readAmount? hbefore h false
    rw [hsign] at htext
    exact .inr ⟨f, hf, hftext.trans htext.symm, hvalue⟩
  · rename_i rest hsign
    obtain ⟨n, hread, rfl⟩ := Option.map_eq_some_iff.1 h
    obtain ⟨f, hf, hftext, hvalue⟩ := exists_of_readAmount? hbefore hread true
    rw [hsign] at htext
    refine .inr ⟨f, hf, hftext.trans htext.symm, hvalue.trans ?_⟩
    exact (toInt_neg_of_nonneg (nonneg_of_readAmount? hread)).symm
  · cases h

end AmountForm

/-! ## Lengths -/

/-- The name of the length in a script. -/
def lengthName : List Char := "@.length".toList

/-- The name of the length has no blanks at its ends. -/
theorem tidy_lengthName : Tidy lengthName := .of_forall (forall_mem_of_all rfl)

/-- A script as it is written: blanks, the name of the length, an amount if there is one, and blanks
again. -/
structure LengthForm where
  front : List Char
  amount : Option AmountForm
  back : List Char

namespace LengthForm

variable {f : LengthForm}

/-- The text of an amount, or nothing. -/
def amountText (f : LengthForm) : List Char := f.amount.elim [] AmountForm.text

/-- The text of a script. -/
def text (f : LengthForm) : List Char := f.front ++ (lengthName ++ f.amountText ++ f.back)

/-- What the script adds to the length. -/
def offset (f : LengthForm) : Int := f.amount.elim 0 AmountForm.value

/-- Blanks stand around the script, and an amount is well-formed. -/
structure WellFormed (f : LengthForm) : Prop where
  front : Blank f.front
  back : Blank f.back
  amount : ∀ amount, f.amount = some amount → amount.WellFormed

/-- Between the blanks around it a script has none at its ends. -/
theorem WellFormed.tidy (h : f.WellFormed) : Tidy (lengthName ++ f.amountText) := by
  rw [amountText]
  cases hcase : f.amount with
  | none => exact (List.append_nil lengthName).symm ▸ tidy_lengthName
  | some amount =>
      have hdigits := (h.amount amount hcase).digits
      have htidy := tidy_lengthName.append (tidy_of_digits hdigits) (by decide) hdigits.ne_nil
        (amount.before ++ (if amount.negative then '-' else '+') :: amount.behind)
      simpa [AmountForm.text] using htidy

/-- The text of a script is one, and adds to the length what is written. -/
theorem WellFormed.exists_scriptOffset? (h : f.WellFormed) :
    ∃ k, scriptOffset? f.text = some k ∧ k.toInt = f.offset := by
  have hname : scriptOffset? f.text = readOffset? f.amountText := by
    rw [scriptOffset?, text, trim_append h.front h.back h.tidy]
    rfl
  rw [hname, amountText, offset]
  cases hcase : f.amount with
  | none => exact ⟨0, rfl, rfl⟩
  | some amount => exact (h.amount amount hcase).exists_readOffset?

/-- Every script is the text of a well-formed one. -/
theorem exists_of_scriptOffset? {script : List Char} {k : Int64}
    (h : scriptOffset? script = some k) :
    ∃ f : LengthForm, f.WellFormed ∧ f.text = script ∧ f.offset = k.toInt := by
  obtain ⟨front, back, hfront, hback, hscript, -⟩ := exists_trim script
  unfold scriptOffset? at h
  split at h
  · rename_i text htrim
    replace htrim : trim script = lengthName ++ text := htrim
    rw [htrim] at hscript
    rcases AmountForm.exists_of_readOffset? h with ⟨htext, rfl⟩ | ⟨amount, hamount, rfl, hvalue⟩
    · refine ⟨⟨front, none, text ++ back⟩,
        ⟨hfront, fun c hc => (List.mem_append.1 hc).elim (htext c) (hback c), nofun⟩, ?_, rfl⟩
      rw [hscript]
      simp [LengthForm.text, amountText]
    · refine ⟨⟨front, some amount, back⟩, ⟨hfront, hback, ?_⟩, hscript.symm, hvalue⟩
      rintro _ ⟨⟩
      exact hamount
  · cases h

end LengthForm

/-- A text is a script exactly if it is the text of a well-formed one, and then adds to the length
what is written there. Any other text is none. What is taken off a length is the opposite of an
amount that is not negative, and fits 64 bits as the amount does. -/
theorem scriptOffset?_iff_form (script : List Char) :
    (∀ k, scriptOffset? script = some k ↔
        ∃ f : LengthForm, f.WellFormed ∧ f.text = script ∧ f.offset = k.toInt) ∧
      (scriptOffset? script = none ↔ ¬∃ f : LengthForm, f.WellFormed ∧ f.text = script) ∧
      ∀ digits n, readAmount? digits = some n → 0 ≤ n ∧ (-n).toInt = -n.toInt := by
  refine ⟨fun k => ⟨LengthForm.exists_of_scriptOffset?, ?_⟩, ⟨?_, fun h => ?_⟩, ?_⟩
  · rintro ⟨f, hf, rfl, hoffset⟩
    obtain ⟨found, hfound, hvalue⟩ := hf.exists_scriptOffset?
    rw [hfound, Int64.toInt_inj.1 (hvalue.trans hoffset)]
  · rintro hnone ⟨f, hf, rfl⟩
    obtain ⟨found, hfound, -⟩ := hf.exists_scriptOffset?
    rw [hnone] at hfound
    cases hfound
  · refine Option.eq_none_iff_forall_ne_some.2 fun k hk => h ?_
    obtain ⟨f, hf, htext, -⟩ := LengthForm.exists_of_scriptOffset? hk
    exact ⟨f, hf, htext⟩
  · intro digits n hread
    have hnonneg := nonneg_of_readAmount? hread
    exact ⟨hnonneg, toInt_neg_of_nonneg hnonneg⟩

/-- Seven is taken off a length, with blanks of several kinds around the sign and zeros in front. -/
theorem scriptOffset?_iff_form_blanks :
    (∃ f : LengthForm, f.WellFormed ∧ f.text = "\t@.length\u3000-\u00a0007\n".toList ∧
        f.offset = (-7 : Int64).toInt) ∧
      scriptOffset? "\t@.length\u3000-\u00a0007\n".toList = some (-7) ∧
      readAmount? "007".toList = some 7 ∧ (-7 : Int64).toInt = -(7 : Int64).toInt := by
  obtain ⟨hscript, -, hfits⟩ := scriptOffset?_iff_form "\t@.length\u3000-\u00a0007\n".toList
  have hform : ∃ f : LengthForm, f.WellFormed ∧ f.text = "\t@.length\u3000-\u00a0007\n".toList ∧
      f.offset = (-7 : Int64).toInt := by
    refine ⟨⟨['\t'], some ⟨['\u3000'], true, ['\u00a0'], ['0', '0', '7']⟩, ['\n']⟩,
      ⟨forall_mem_of_all rfl, forall_mem_of_all rfl, ?_⟩, rfl, rfl⟩
    rintro _ ⟨⟩
    exact ⟨forall_mem_of_all rfl, forall_mem_of_all rfl, ⟨by decide, by decide⟩, by decide⟩
  have hamount : readAmount? "007".toList = some 7 := by decide
  exact ⟨hform, (hscript (-7)).2 hform, hamount, (hfits _ 7 hamount).2⟩

/-- A digit outside ASCII is no digit of an amount, and the least number beyond 64 bits is none. -/
example : scriptOffset? "@.length-\u0663".toList = none ∧
    scriptOffset? "@.length-9223372036854775808".toList = none := by decide

end PathQuery
