import PathQuery.Proofs.Binary64.Nearest
import PathQuery.Proofs.Json.Numeral
import PathQuery.Proofs.Scalar
import PathQuery.Value.Json

/-!
# What is relied on of a reader of JSON

A document is made of what a reader of JSON makes of a text. Of numbers no more is relied on than
`Json.ReadsNumbers` says: an integer of 64 bits with a sign stays one, every other number is read as
a double that is nearest to it or as the integer that it is, and a number between brackets is an
array of it. Then a document keeps a number that equals what a filter reads from the same text
(`Json.ReadsNumbers.exists_equal`), whichever zero a zero with a minus sign becomes, and whether an
integer beyond 64 bits is rounded by the reader or behind it. `Json.read?` reads numbers in this way
(`Json.readsNumbers_read?`).
-/

namespace PathQuery

open Text Expression

/-- An integer of 64 bits with a sign that is no zero with a minus sign. -/
structure Expression.IntegerForm.Kept (e : IntegerForm) : Prop where
  low : -int64Limit ≤ e.value
  high : e.value < int64Limit
  unsigned : ¬(e.negative = true ∧ e.value = 0)

namespace Json

/-- A reader makes of numbers what documents rely on. -/
structure ReadsNumbers (reader : Reader) : Prop where
  /-- An integer of 64 bits with a sign is read as itself, unless it is a zero with a minus sign. -/
  integer {e : IntegerForm} (he : (NumberForm.ofInteger e).Strict) (hkept : e.Kept) :
    reader e.text = some (.int e.value)
  /-- What is finite as a double is read as a double that is nearest to it, or as the integer that
  it is. -/
  rounded {t : NumberForm} (ht : t.Strict) (hfinite : t.decimal.toBinary64.isFinite = true) :
    (∃ x : Binary64, x.Nearest t.decimal.rational ∧ reader t.text = some (.float x)) ∨
      ∃ e, t = .ofInteger e ∧ reader t.text = some (.int e.value)
  /-- Between brackets a number is read as an array of what it is read as. -/
  brackets {t : NumberForm} {j : Json} (ht : t.Strict) (hread : reader t.text = some j) :
    reader ('[' :: t.text ++ [']']) = some (.array [j])

end Json

/-! ## Numbers of one value -/

/-- Doubles that denote the same have the same units. -/
theorem Binary64.units_eq_of_rational {x y : Binary64} (h : x.rational = y.rational) :
    x.units = y.units := by
  have hone : (Binary64.one : ℚ) ≠ 0 := Nat.cast_ne_zero.2 (Nat.ne_of_gt Binary64.one_pos)
  rw [Binary64.rational_eq, Binary64.rational_eq, div_left_inj' hone] at h
  exact_mod_cast h

/-- A number equals itself. -/
theorem Number.equal_self {n : Number} (h : n.isNaN = false) : n.equal n = true :=
  Number.equal_iff.2 ⟨⟨h, h⟩, rfl⟩

/-- What becomes of an integer is a number. -/
theorem Value.isNaN_numberOfInt (n : Int) : (numberOfInt n).isNaN = false := by
  unfold numberOfInt
  split
  · rfl
  · exact Binary64.isNaN_ofRatio _ _ _

namespace Expression.NumberForm

/-- An integer as a decimal fraction. -/
theorem decimal_ofInteger (e : IntegerForm) :
    (ofInteger e).decimal = ⟨e.negative, numberOfDigits e.digits, 0⟩ := by
  simp [ofInteger, decimal, Decimal.ofParts]

/-- An integer is rounded to the same double whether it is written or kept as an integer before,
unless it is zero. -/
theorem ofInt_value {e : IntegerForm} (h : e.value ≠ 0) :
    Binary64.ofInt e.value = (ofInteger e).decimal.toBinary64 := by
  obtain ⟨negative, digits⟩ := e
  rw [decimal_ofInteger]
  have hpos : 0 < numberOfDigits digits := by
    refine Nat.pos_of_ne_zero fun hzero => h ?_
    rw [IntegerForm.value]
    dsimp only
    rw [hzero]
    split <;> rfl
  have hsign : decide ((IntegerForm.mk negative digits).value < 0) = negative := by
    cases negative with
    | true =>
        rw [decide_eq_true_eq, IntegerForm.value, if_pos rfl]
        dsimp only
        omega
    | false =>
        rw [decide_eq_false_iff_not, IntegerForm.value, if_neg Bool.false_ne_true]
        dsimp only
        omega
  have hsize : (IntegerForm.mk negative digits).value.natAbs = numberOfDigits digits := by
    rw [IntegerForm.value]
    dsimp only
    split <;> omega
  rw [Decimal.toBinary64_eq hpos (by decide) (by omega), Binary64.ofInt, hsign, hsize]
  simp

/-- A filter reads an integer as the number that a document keeps of it. -/
theorem value_ofInteger (e : IntegerForm) : (ofInteger e).value = Value.numberOfInt e.value := by
  have hint : (ofInteger e).int64? = Text.int64? e.value := rfl
  rw [value, hint, Value.numberOfInt]
  cases hkept : Text.int64? e.value with
  | some i => rfl
  | none =>
      have hne : e.value ≠ 0 := by
        intro hzero
        rw [hzero] at hkept
        cases hkept
      dsimp only
      rw [ofInt_value hne]

/-- What is an integer of 64 bits is written as one. -/
theorem exists_of_int64? {t : NumberForm} {i : Int64} (h : t.int64? = some i) :
    ∃ e, t = ofInteger e ∧ i.toInt = e.value := by
  unfold int64? at h
  split at h
  · rename_i hfraction hpower
    refine ⟨⟨t.negative, t.whole⟩, ?_, int64?_eq_some_iff.1 h⟩
    rw [ofInteger, ← hfraction, ← hpower]
  · cases h

/-- A zero with a minus sign has no units as a double. -/
theorem units_of_zero {e : IntegerForm} (h : e.value = 0) :
    (ofInteger e).decimal.toBinary64.units = 0 := by
  have hdigits : numberOfDigits e.digits = 0 := by
    rw [IntegerForm.value] at h
    split at h <;> omega
  rw [decimal_ofInteger, hdigits, ← Binary64.isZero_iff, Decimal.toBinary64, if_pos rfl]
  cases e.negative <;> rfl

/-- A number that is no such integer is read in a filter as one that equals every double nearest to
it. -/
theorem value_equal_of_nearest {t : NumberForm} (hkept : ∀ e, t = ofInteger e → ¬e.Kept)
    (hfinite : t.decimal.toBinary64.isFinite = true) {x : Binary64}
    (hx : x.Nearest t.decimal.rational) : t.value.equal (.float x) = true := by
  have hnan : (Number.float x).isNaN = false := Binary64.isNaN_of_isFinite hx.finite
  have hunits : x.units = t.decimal.toBinary64.units :=
    Binary64.units_eq_of_rational (Decimal.rational_eq_of_nearest hfinite hx)
  rw [value]
  cases hint : t.int64? with
  | none => exact Number.equal_iff.2 ⟨⟨Decimal.isNaN_toBinary64 _, hnan⟩, hunits.symm⟩
  | some i =>
      obtain ⟨e, rfl, hi⟩ := exists_of_int64? hint
      have hlow : -int64Limit ≤ i.toInt := Int64.le_toInt i
      have hhigh : i.toInt < int64Limit := Int64.toInt_lt i
      have hzero : e.value = 0 := by
        by_contra hne
        exact hkept e rfl ⟨hi ▸ hlow, hi ▸ hhigh, fun h => hne h.2⟩
      refine Number.equal_iff.2 ⟨⟨rfl, hnan⟩, ?_⟩
      rw [Number.value, Number.value, hunits, units_of_zero hzero, hi, hzero, Int.zero_mul]

end Expression.NumberForm

namespace Json

variable {reader : Reader} {t : NumberForm}

/-- A document keeps a number that equals what a filter reads from the same text. -/
theorem ReadsNumbers.exists_equal (h : ReadsNumbers reader) (ht : t.Strict)
    (hfinite : t.decimal.toBinary64.isFinite = true) :
    ∃ j m, reader t.text = some j ∧ Value.ofJson j = .scalar (.number m) ∧
      t.value.equal m = true := by
  have hinteger : ∀ e, t = .ofInteger e → reader t.text = some (.int e.value) →
      ∃ j m, reader t.text = some j ∧ Value.ofJson j = .scalar (.number m) ∧
        t.value.equal m = true := by
    rintro e rfl hread
    refine ⟨_, _, hread, rfl, ?_⟩
    rw [NumberForm.value_ofInteger]
    exact Number.equal_self (Value.isNaN_numberOfInt _)
  by_cases hkept : ∃ e, t = .ofInteger e ∧ e.Kept
  · obtain ⟨e, rfl, hkept⟩ := hkept
    refine hinteger e rfl ?_
    rw [NumberForm.text_ofInteger]
    exact h.integer ht hkept
  · rcases h.rounded ht hfinite with ⟨x, hx, hread⟩ | ⟨e, htext, hread⟩
    · refine ⟨_, _, hread, rfl, NumberForm.value_equal_of_nearest ?_ hfinite hx⟩
      exact fun e he hkept' => hkept ⟨e, he, hkept'⟩
    · exact hinteger e htext hread

/-! ## A reader -/

/-- What is made of an integer. -/
theorem toJson?_integer (e : IntegerForm) : (NumberForm.ofInteger e).numeral.toJson? =
    if ¬(e.negative = true ∧ numberOfDigits e.digits = 0) ∧ -int64Limit ≤ e.value ∧
      e.value < 2 * int64Limit then some (.int e.value)
    else if (NumberForm.ofInteger e).decimal.toBinary64.isFinite then
      some (.float (NumberForm.ofInteger e).decimal.toBinary64) else none := by
  have hnumeral : (NumberForm.ofInteger e).numeral = ⟨(NumberForm.ofInteger e).decimal, true⟩ := rfl
  rw [hnumeral, Numeral.toJson?, NumberForm.decimal_ofInteger]
  simp only [true_and]
  rfl

/-- Numbers are read as documents rely on. -/
theorem readsNumbers_read? : ReadsNumbers read? where
  integer {e} he hkept := by
    have hsigned : ¬(e.negative = true ∧ numberOfDigits e.digits = 0) := by
      rintro ⟨hnegative, hzero⟩
      exact hkept.unsigned ⟨hnegative, by rw [IntegerForm.value, if_pos hnegative, hzero]; rfl⟩
    have hlimit : 0 < int64Limit := by decide
    have hhigh := hkept.high
    rw [← NumberForm.text_ofInteger, read?_numeral he, toJson?_integer,
      if_pos ⟨hsigned, hkept.low, by omega⟩]
  rounded {t} ht hfinite := by
    have hnearest := Decimal.nearest_toBinary64 hfinite
    rw [read?_numeral ht]
    by_cases hinteger : t.fraction = none ∧ t.power = none
    · obtain ⟨e, -, rfl⟩ := ht.wellFormed.exists_integer hinteger.1 hinteger.2
      rw [toJson?_integer, if_pos hfinite]
      split
      · exact .inr ⟨e, rfl, rfl⟩
      · exact .inl ⟨_, hnearest, rfl⟩
    · have hnumeral : t.numeral = ⟨t.decimal, false⟩ := by
        rw [NumberForm.numeral, Numeral.mk.injEq, Bool.eq_false_iff, Ne, Bool.and_eq_true,
          Option.isNone_iff_eq_none, Option.isNone_iff_eq_none]
        exact ⟨rfl, hinteger⟩
      rw [hnumeral, Numeral.toJson?]
      dsimp only
      rw [if_neg (fun h => Bool.false_ne_true h.1), if_pos hfinite]
      exact .inl ⟨_, hnearest, rfl⟩
  brackets {t j} ht hread := by
    rw [read?_numeral ht] at hread
    rw [read?_brackets ht, hread, Option.map_some]

end Json

end PathQuery
