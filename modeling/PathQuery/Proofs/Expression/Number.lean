import Mathlib.Data.List.TakeWhile
import PathQuery.Expression.Filter
import PathQuery.Proofs.Binary64.Shortest
import PathQuery.Proofs.Text.Integer
import PathQuery.Proofs.Text.Word

/-!
# Numbers of a path read back

A finite double in a path is the digits of its shortest decimal fraction with a point, or with zeros
up to where the point would stand. In the first case it is read as that decimal fraction, whichever
zeros were left out or put in, and so as the double; in the second it may be read as an integer
before it comes to that. `readNumber?_writeFloat` says exactly that.
-/

namespace PathQuery.Expression

open Text Decimal Binary64

/-! ## Digits and a point -/

/-- A text of digits, which may be empty. -/
def AllDigits (text : List Char) : Prop := ∀ c ∈ text, c.isDigit = true

instance (text : List Char) : Decidable (AllDigits text) :=
  decidable_of_iff (text.all Char.isDigit = true) List.all_eq_true

/-- A text of digits is its own longest run of digits. -/
theorem takeWhile_allDigits {text : List Char} (h : AllDigits text) :
    text.takeWhile Char.isDigit = text ∧ text.dropWhile Char.isDigit = [] := by
  exact ⟨List.takeWhile_eq_self_iff.2 h, List.dropWhile_eq_nil_iff.2 h⟩

/-- Digits without a point are a decimal fraction. -/
theorem readUnsigned?_whole {whole : List Char} (hwhole : AllDigits whole) (hne : whole ≠ [])
    (negative : Bool) :
    readUnsigned? negative whole = some (Decimal.ofParts negative whole [] 0) := by
  obtain ⟨htake, hdrop⟩ := takeWhile_allDigits hwhole
  simp only [readUnsigned?, htake, hdrop]
  rw [if_neg fun h => hne h.1]
  rfl

/-- Digits with a point among them are a decimal fraction. -/
theorem readUnsigned?_point {whole fraction : List Char} (hwhole : AllDigits whole)
    (hfraction : AllDigits fraction) (hne : whole ≠ []) (negative : Bool) :
    readUnsigned? negative (whole ++ '.' :: fraction) =
      some (Decimal.ofParts negative whole fraction 0) := by
  have hends : ∀ c, ('.' :: fraction).head? = some c → c.isDigit = false := by
    intro c hc
    cases hc
    rfl
  obtain ⟨htake, hdrop⟩ := takeWhile_allDigits hfraction
  simp only [readUnsigned?, takeWhile_word hwhole hends, dropWhile_word hwhole hends, htake, hdrop]
  rw [if_neg fun h => hne h.1]
  rfl

/-! ## Digits set out with a point -/

/-- Zeros are digits. -/
theorem allDigits_replicate (n : Nat) : AllDigits (List.replicate n '0') := by
  intro c hc
  rw [List.eq_of_mem_replicate hc]
  rfl

/-- Two texts of digits make one. -/
theorem AllDigits.append {a b : List Char} (ha : AllDigits a) (hb : AllDigits b) :
    AllDigits (a ++ b) := by
  intro c hc
  rcases List.mem_append.1 hc with hc | hc
  · exact ha c hc
  · exact hb c hc

/-- Zeros before digits do not count. -/
theorem ofDigitChars_zeros (n : Nat) (digits : List Char) :
    Nat.ofDigitChars 10 (List.replicate n '0' ++ digits) 0 = Nat.ofDigitChars 10 digits 0 := by
  rw [Nat.ofDigitChars_append, Nat.ofDigitChars_replicate_zero, Nat.mul_zero]

/-- Digits set out with a point among them or with zeros around them are read as the decimal
fraction that the point makes of them. -/
theorem readUnsigned?_positional {digits : List Char} (hdigits : AllDigits digits)
    (hne : digits ≠ []) (negative : Bool) (point : Int) :
    ∃ d, readUnsigned? negative (Number.layout.positional digits point) = some d ∧
      d.toBinary64 = (Decimal.mk negative (Nat.ofDigitChars 10 digits 0)
        (point - digits.length)).toBinary64 := by
  unfold Layout.positional
  split
  · have hwhole : AllDigits ['0'] := by decide
    refine ⟨_, readUnsigned?_point hwhole ((allDigits_replicate _).append hdigits) (by decide)
      negative, ?_⟩
    have hvalue : Nat.ofDigitChars 10 (['0'] ++ (List.replicate (-point).toNat '0' ++ digits)) 0 =
        Nat.ofDigitChars 10 digits 0 := by
      rw [Nat.ofDigitChars_append]
      exact ofDigitChars_zeros _ digits
    have hexp : (0 : Int) - (List.replicate (-point).toNat '0' ++ digits).length =
        point - digits.length := by
      rw [List.length_append, List.length_replicate]
      omega
    rw [Decimal.ofParts, hvalue, hexp]
  split
  · have hending : Number.layout.wholeEnding = [] := rfl
    have hwhole : AllDigits (digits ++ List.replicate (point - digits.length).toNat '0' ++
        Number.layout.wholeEnding) := by
      rw [hending, List.append_nil]
      exact hdigits.append (allDigits_replicate _)
    refine ⟨_, readUnsigned?_whole hwhole (by simp [hne]) negative, ?_⟩
    · -- The zeros count as a power of ten.
      have hshift := toBinary64_shift negative (Nat.ofDigitChars 10 digits 0)
        (point - digits.length).toNat 0
      have hexp : (0 : Int) + (point - digits.length).toNat = point - digits.length := by omega
      rw [hexp, Nat.mul_comm] at hshift
      rw [Decimal.ofParts, hending, List.append_nil, List.append_nil, Nat.ofDigitChars_append,
        Nat.ofDigitChars_replicate_zero]
      exact hshift
  · have hsplit := List.take_append_drop point.toNat digits
    have hwhole : AllDigits (digits.take point.toNat) := fun c hc =>
      hdigits c (List.mem_of_mem_take hc)
    have hfraction : AllDigits (digits.drop point.toNat) := fun c hc =>
      hdigits c (List.mem_of_mem_drop hc)
    refine ⟨_, readUnsigned?_point hwhole hfraction (fun hnil => ?_) negative, ?_⟩
    · rcases List.take_eq_nil_iff.1 hnil with h | h
      · omega
      · exact hne h
    · have hexp : (0 : Int) - (digits.drop point.toNat).length = point - digits.length := by
        rw [List.length_drop]
        omega
      rw [Decimal.ofParts, hsplit, hexp]

/-- Digits set out with a point consist of digits and the point, and begin with a digit. -/
theorem positional_chars {digits : List Char} (hdigits : AllDigits digits) (hne : digits ≠ [])
    (point : Int) :
    (∀ c ∈ Number.layout.positional digits point, c.isDigit = true ∨ c = '.') ∧
      ∃ c more, Number.layout.positional digits point = c :: more ∧ c.isDigit = true := by
  have hall : ∀ {a b : List Char}, AllDigits a → AllDigits b →
      ∀ c ∈ a ++ '.' :: b, c.isDigit = true ∨ c = '.' := by
    intro a b ha hb c hc
    rcases List.mem_append.1 hc with hc | hc
    · exact .inl (ha c hc)
    · rcases List.mem_cons.1 hc with rfl | hc
      · exact .inr rfl
      · exact .inl (hb c hc)
  have hhead : ∀ {a : List Char}, AllDigits a → a ≠ [] →
      ∀ b, ∃ c more, a ++ b = c :: more ∧ c.isDigit = true := by
    intro a ha hne b
    obtain ⟨c, rest, rfl⟩ := List.exists_cons_of_ne_nil hne
    exact ⟨c, rest ++ b, rfl, ha c List.mem_cons_self⟩
  unfold Layout.positional
  split
  · exact ⟨hall (a := ['0']) (by decide) ((allDigits_replicate _).append hdigits),
      hhead (a := ['0']) (by decide) (by decide) _⟩
  split
  · have hending : Number.layout.wholeEnding = [] := rfl
    rw [hending, List.append_nil]
    exact ⟨fun c hc => .inl (hdigits.append (allDigits_replicate _) c hc), hhead hdigits hne _⟩
  · have hwhole : AllDigits (digits.take point.toNat) := fun c hc =>
      hdigits c (List.mem_of_mem_take hc)
    have hfraction : AllDigits (digits.drop point.toNat) := fun c hc =>
      hdigits c (List.mem_of_mem_drop hc)
    refine ⟨hall hwhole hfraction, hhead hwhole (fun hnil => ?_) _⟩
    rcases List.take_eq_nil_iff.1 hnil with h | h
    · omega
    · exact hne h

/-! ## Doubles -/

/-- A text without the zeros at its end, and those zeros. -/
theorem exists_zeros (text : List Char) :
    ∃ n, text = (text.reverse.dropWhile (· == '0')).reverse ++ List.replicate n '0' := by
  have hzeros : text.reverse.takeWhile (· == '0') =
      List.replicate (text.reverse.takeWhile (· == '0')).length '0' :=
    List.eq_replicate_of_mem fun c hc => eq_of_beq (List.all_eq_true.1 List.all_takeWhile c hc)
  refine ⟨(text.reverse.takeWhile (· == '0')).length, ?_⟩
  have hsplit := List.takeWhile_append_dropWhile (p := (· == '0')) (l := text.reverse)
  rw [hzeros] at hsplit
  rw [← List.reverse_inj, List.reverse_append, List.reverse_reverse, List.reverse_replicate]
  exact hsplit.symm

/-- The text of a finite double is a sign and digits that, set out with a point, are read as the
double. -/
theorem writeFloat_eq {x : Binary64} (hfinite : x.isFinite = true) (hzero : x.isZero = false) :
    ∃ text, Number.writeFloat x = (if x.isNegative then ['-'] else []) ++ text ∧
      (∀ c ∈ text, c.isDigit = true ∨ c = '.') ∧
      (∃ c more, text = c :: more ∧ c.isDigit = true) ∧
      ∃ d, readUnsigned? x.isNegative text = some d ∧ d.toBinary64 = x := by
  have hnan := isNaN_of_isFinite hfinite
  obtain ⟨hnegative, hpos, hback⟩ := toBinary64_shortest Number.layout.tie hfinite hzero
  have hwrite : Number.writeFloat x = Number.layout.write x := by
    simp only [Number.writeFloat, hnan, hfinite, if_true, if_false, Bool.false_eq_true]
  rw [hwrite, Layout.write]
  simp only [hzero, Bool.false_eq_true, if_false]
  generalize x.shortest Number.layout.tie = d at hnegative hpos hback
  obtain ⟨n, hshown⟩ := exists_zeros (Nat.toDigits 10 d.digits)
  generalize ((Nat.toDigits 10 d.digits).reverse.dropWhile (· == '0')).reverse = digits at hshown
  have hvalue : d.digits = Nat.ofDigitChars 10 digits 0 * tenPow n := by
    have hread : Nat.ofDigitChars 10 (Nat.toDigits 10 d.digits) 0 = d.digits :=
      Nat.ofDigitChars_ten_toDigits
    rw [hshown, Nat.ofDigitChars_append, Nat.ofDigitChars_replicate_zero, Nat.mul_comm] at hread
    exact hread.symm
  have hall : AllDigits digits := by
    intro c hc
    refine Nat.isDigit_of_mem_toDigits (n := d.digits) (b := 10) (by decide) (by decide) ?_
    rw [hshown]
    exact List.mem_append_left _ hc
  have hne : digits ≠ [] := by
    rintro rfl
    rw [Nat.ofDigitChars_nil, Nat.zero_mul] at hvalue
    omega
  have hlength : (Nat.toDigits 10 d.digits).length = digits.length + n := by
    rw [hshown, List.length_append, List.length_replicate]
  have hpositional : ∀ n, Number.layout.isPositional n = true := fun _ => rfl
  rw [if_pos (hpositional _)]
  obtain ⟨hchars, hhead⟩ := positional_chars hall hne
    (d.exponent + (Nat.toDigits 10 d.digits).length)
  obtain ⟨e, hread, he⟩ := readUnsigned?_positional hall hne x.isNegative
    (d.exponent + (Nat.toDigits 10 d.digits).length)
  refine ⟨_, rfl, hchars, hhead, e, hread, ?_⟩
  have hexp : d.exponent + ((Nat.toDigits 10 d.digits).length : Int) - digits.length =
      d.exponent + n := by
    rw [hlength]
    omega
  have hd : Decimal.mk x.isNegative (Nat.ofDigitChars 10 digits 0 * tenPow n) d.exponent = d := by
    cases d with
    | mk negative number exponent =>
        rw [Decimal.mk.injEq]
        exact ⟨hnegative.symm, hvalue.symm, rfl⟩
  rw [he, hexp, ← toBinary64_shift, hd, hback]

/-- The text of a zero is a zero, with a sign if it has one. -/
theorem writeFloat_zero {x : Binary64} (hzero : x.isZero = true) :
    Number.writeFloat x = (if x.isNegative then ['-'] else []) ++ ['0'] := by
  have hmagnitude : x.magnitude = 0 := eq_of_beq hzero
  have hfinite : x.isFinite = true := by
    rw [isFinite, hmagnitude]
    decide
  have hnan := isNaN_of_isFinite hfinite
  simp only [Number.writeFloat, hnan, hfinite, if_true, if_false, Bool.false_eq_true,
    Layout.write, hzero]
  rfl

/-- The text of a finite double consists of the characters of numbers and begins as one. -/
theorem writeFloat_chars {x : Binary64} (hfinite : x.isFinite = true) :
    (∀ c ∈ Number.writeFloat x, isNumberChar c = true) ∧
      ∃ c more, Number.writeFloat x = c :: more ∧ startsNumber c = true := by
  obtain ⟨text, hwrite, hchars, d, more, rfl, hd⟩ :
      ∃ text, Number.writeFloat x = (if x.isNegative then ['-'] else []) ++ text ∧
        (∀ c ∈ text, c.isDigit = true ∨ c = '.') ∧
          ∃ c more, text = c :: more ∧ c.isDigit = true := by
    cases hzero : x.isZero with
    | true => exact ⟨['0'], writeFloat_zero hzero, forall_mem_of_all rfl, '0', [], rfl, rfl⟩
    | false =>
        obtain ⟨text, hwrite, hchars, hhead, -⟩ := writeFloat_eq hfinite hzero
        exact ⟨text, hwrite, hchars, hhead⟩
  have hnumber : ∀ c ∈ d :: more, isNumberChar c = true := by
    intro c hc
    rcases hchars c hc with h | rfl
    · simp [isNumberChar, h]
    · rfl
  rw [hwrite]
  cases x.isNegative with
  | true =>
      refine ⟨?_, '-', d :: more, rfl, rfl⟩
      exact List.forall_mem_cons.2 ⟨rfl, hnumber⟩
  | false => exact ⟨hnumber, d, more, rfl, by simp [startsNumber, hd]⟩

/-- The text of a finite double is read as an integer if it is one of 64 bits, and otherwise as the
double. -/
theorem readNumber?_writeFloat {x : Binary64} (hfinite : x.isFinite = true) :
    readNumber? (Number.writeFloat x) =
      some (match readInt64? (Number.writeFloat x) with
        | some n => .int n
        | none => .float x) := by
  by_cases hzero : x.isZero = true
  · rw [writeFloat_zero hzero]
    cases x.isNegative <;> rfl
  · rw [Bool.not_eq_true] at hzero
    obtain ⟨text, hwrite, -, ⟨c, more, rfl, hc⟩, d, hread, hback⟩ := writeFloat_eq hfinite hzero
    have hsign : c ≠ '-' := by
      rintro rfl
      cases hc
    rw [hwrite]
    cases hnegative : x.isNegative with
    | true =>
        rw [hnegative] at hread
        simp only [if_true, List.singleton_append, readNumber?, hread, Option.map_some, hback]
        cases readInt64? ('-' :: c :: more) <;> rfl
    | false =>
        rw [hnegative] at hread
        simp only [Bool.false_eq_true, if_false, List.nil_append]
        unfold readNumber?
        cases readInt64? (c :: more) with
        | some n => rfl
        | none =>
            dsimp only
            split
            · rename_i he
              exact absurd (List.cons.inj he).1 hsign
            · rw [hread, Option.map_some, hback]

end PathQuery.Expression
