import PathQuery.Proofs.Binary64.Denotation
import PathQuery.Proofs.Scalar

/-!
# Numbers are compared by what they denote

An integer denotes itself and a double what its bits say (`Number.denoted?`). Two numbers are in the
order of what they denote, and none of them is rounded for it (`Number.compare?_denoted`); what is
no number is in no order. Where an integer and a double are compared by the whole part of the
double, that part is an integer of 64 bits.
-/

namespace PathQuery.Number

open Binary64

/-- What a number denotes. -/
def denoted? : Number → Option Extended
  | .int n => some (((n.toInt : ℚ) : WithTop ℚ) : Extended)
  | .float x => x.denoted?

/-! ## What a number denotes by its value -/

/-- There are fewer units in 2 ^ 63 than in 2 ^ 1024. -/
theorem intLimit_lt_unitsLimit : intLimit < unitsLimit := by
  have hpow : (18446744073709551616 : ℤ) ≤ (twoPow 1024 : Nat) :=
    Int.ofNat_le.2 (twoPow_le (show 64 ≤ 1024 by decide))
  have hlimit : unitsLimit = (twoPow 1024 : Nat) * one := Int.natCast_mul _ _
  rw [hlimit, intLimit]
  refine Int.mul_lt_mul_of_pos_right ?_ zero_lt_one
  exact Int.lt_of_lt_of_le (by decide) hpow

/-- The units in an integer of 64 bits are within those in 2 ^ 63. -/
theorem int_mem_limits (n : Int64) : -intLimit ≤ n.toInt * one ∧ n.toInt * one < intLimit := by
  have hlow : -Text.int64Limit ≤ n.toInt := Int64.le_toInt n
  have hhigh : n.toInt < Text.int64Limit := Int64.toInt_lt n
  rw [intLimit, ← Int.neg_mul]
  constructor
  · exact Int.mul_le_mul_of_nonneg_right hlow zero_lt_one.le
  · exact Int.mul_lt_mul_of_pos_right hhigh zero_lt_one

/-- Units within those in 2 ^ 63 make a rational. -/
theorem ofUnits_of_limits {u : ℤ} (hhigh : ¬intLimit ≤ u) (hlow : ¬u < -intLimit) :
    ofUnits u = ((u / one : ℚ) : WithTop ℚ) := by
  have hlimit := intLimit_lt_unitsLimit
  exact ofUnits_of_lt (by omega) (by omega)

/-- The value of a number is within the units in 2 ^ 1024. -/
theorem value_mem {a : Number} (h : a.isNaN = false) :
    a.value ∈ Set.Icc (-unitsLimit) unitsLimit := by
  cases a with
  | int n =>
      have hlimit := intLimit_lt_unitsLimit
      obtain ⟨hlow, hhigh⟩ := int_mem_limits n
      rw [value, Set.mem_Icc]
      omega
  | float x => exact units_mem h

/-- The units in an integer make that integer. -/
theorem mul_div_units (n : ℤ) {d : ℕ} (hd : 0 < d) : ((n * d : ℤ) : ℚ) / d = n := by
  have hne : (d : ℚ) ≠ 0 := Nat.cast_ne_zero.2 (Nat.ne_of_gt hd)
  rw [Int.cast_mul, Int.cast_natCast, mul_div_cancel_right₀ _ hne]

/-- A number denotes what the units of its value make. -/
theorem denoted?_eq (a : Number) :
    a.denoted? = if a.isNaN then none else some (ofUnits a.value) := by
  cases a with
  | int n =>
      obtain ⟨hlow, hhigh⟩ := int_mem_limits n
      rw [denoted?, value, ofUnits_of_limits (Int.not_le.2 hhigh) (Int.not_lt.2 hlow),
        mul_div_units n.toInt Binary64.one_pos]
      rfl
  | float x => exact x.denoted?_eq

/-- A number denotes something unless it is none. -/
theorem denoted?_eq_none_iff (a : Number) : a.denoted? = none ↔ a.isNaN = true := by
  rw [denoted?_eq]
  cases a.isNaN <;> simp

/-! ## Whole parts -/

/-- A rational without what it has behind its point. -/
def towardsZero (q : ℚ) : ℤ := if 0 ≤ q then ⌊q⌋ else ⌈q⌉

/-- The division of integers that rounds towards zero gives the whole part of the quotient. -/
theorem towardsZero_div (u : ℤ) {d : ℕ} (hd : 0 < d) : towardsZero (u / d) = u.tdiv d := by
  have hsign : (0 : ℚ) ≤ u / d ↔ 0 ≤ u := by
    rw [le_div_iff₀ (Nat.cast_pos.2 hd), zero_mul, Int.cast_nonneg_iff]
  unfold towardsZero
  split
  · rename_i h
    rw [Rat.floor_intCast_div_natCast, Int.tdiv_eq_ediv_of_nonneg (hsign.1 h)]
  · rename_i h
    have hneg : 0 ≤ -u := by
      have := mt hsign.2 h
      omega
    rw [Rat.ceil_intCast_div_natCast, ← Int.tdiv_eq_ediv_of_nonneg hneg, Int.neg_tdiv, Int.neg_neg]

/-- A double within the limits of the integers denotes a rational, and its whole part is that of the
rational. -/
theorem denoted?_of_limits {x : Binary64} (hnan : x.isNaN = false) (hhigh : ¬intLimit ≤ x.units)
    (hlow : ¬x.units < -intLimit) : ∃ q : ℚ, x.denoted? = some ((q : WithTop ℚ) : Extended) ∧
      (wholePart x).toInt = towardsZero q := by
  refine ⟨x.units / one, ?_, ?_⟩
  · rw [x.denoted?_eq, hnan, if_neg Bool.false_ne_true, ofUnits_of_limits hhigh hlow]
  · rw [towardsZero_div _ Binary64.one_pos, toInt_wholePart hhigh hlow]

/-! ## The order -/

/-- Numbers that denote something are in the order of what they denote. -/
theorem compare?_of_denoted? {a b : Number} {x y : Extended} (hx : a.denoted? = some x)
    (hy : b.denoted? = some y) : a.compare? b = some (compare x y) := by
  rw [denoted?_eq] at hx hy
  rw [compare?_eq]
  cases ha : a.isNaN <;> rw [ha] at hx <;> cases hx
  cases hb : b.isNaN <;> rw [hb] at hy <;> cases hy
  have hcmp := strictMonoOn_ofUnits.cmp_map_eq (value_mem ha) (value_mem hb)
  rw [cmp_eq_compare, cmp_eq_compare] at hcmp
  rw [hcmp]
  rfl

/-- Numbers are in no order exactly if one of them is none. -/
theorem compare?_eq_none_iff (a b : Number) :
    a.compare? b = none ↔ a.denoted? = none ∨ b.denoted? = none := by
  rw [compare?_eq, denoted?_eq_none_iff, denoted?_eq_none_iff]
  cases a.isNaN <;> cases b.isNaN <;> simp

/-- Numbers are equal exactly if they denote the same. -/
theorem equal_iff_denoted? (a b : Number) :
    a.equal b = true ↔ ∃ x, a.denoted? = some x ∧ b.denoted? = some x := by
  rw [equal, beq_iff_eq]
  constructor
  · intro h
    cases hx : a.denoted? with
    | none =>
        rw [(compare?_eq_none_iff a b).2 (.inl hx)] at h
        cases h
    | some x =>
        cases hy : b.denoted? with
        | none =>
            rw [(compare?_eq_none_iff a b).2 (.inr hy)] at h
            cases h
        | some y =>
            rw [compare?_of_denoted? hx hy, Option.some.injEq, compare_eq_iff_eq] at h
            exact ⟨x, rfl, congrArg some h.symm⟩
  · rintro ⟨x, hx, hy⟩
    rw [compare?_of_denoted? hx hy, compare_eq_iff_eq.2 rfl]

/-- Numbers are compared by what they denote: they are in no order exactly if one of them is no
number, else in the order of what they denote, and they are equal exactly if they denote the same,
as the two zeros do. A double that gets as far as the comparison of its whole part denotes a
rational whose whole part is an integer of 64 bits, and it is this integer that is compared. -/
theorem compare?_denoted :
    (∀ a b : Number,
      (a.compare? b = none ↔ a.denoted? = none ∨ b.denoted? = none) ∧
        (∀ x y, a.denoted? = some x → b.denoted? = some y → a.compare? b = some (compare x y)) ∧
        (a.equal b = true ↔ ∃ x, a.denoted? = some x ∧ b.denoted? = some x)) ∧
      (Number.float ⟨0⟩).equal (.float ⟨0x8000000000000000⟩) = true ∧
      ∀ x : Binary64, x.isNaN = false → ¬intLimit ≤ x.units → ¬x.units < -intLimit →
        ∃ q : ℚ, x.denoted? = some ((q : WithTop ℚ) : Extended) ∧
          -Text.int64Limit ≤ towardsZero q ∧ towardsZero q < Text.int64Limit ∧
          (wholePart x).toInt = towardsZero q := by
  refine ⟨fun a b => ?_, ?_, ?_⟩
  · refine ⟨compare?_eq_none_iff a b, ?_, equal_iff_denoted? a b⟩
    intro x y hx hy
    exact compare?_of_denoted? hx hy
  · rw [equal_iff]
    exact ⟨⟨by decide, by decide⟩, by decide⟩
  · intro x hnan hhigh hlow
    obtain ⟨q, hq, hwhole⟩ := denoted?_of_limits hnan hhigh hlow
    refine ⟨q, hq, ?_, ?_, hwhole⟩
    · exact hwhole ▸ Int64.le_toInt (wholePart x)
    · exact hwhole ▸ Int64.toInt_lt (wholePart x)

/-- An integer next to a double that it would be rounded to, and a negative double with a fraction,
whose whole part is towards zero. -/
theorem compare?_denoted_neighbours :
    (Number.int 9007199254740993).denoted? =
        some (((9007199254740993 : ℚ) : WithTop ℚ) : Extended) ∧
      (Number.float ⟨0x4340000000000000⟩).denoted? =
        some (((9007199254740992 : ℚ) : WithTop ℚ) : Extended) ∧
      (Number.int 9007199254740993).compare? (.float ⟨0x4340000000000000⟩) = some .gt ∧
      ∃ q : ℚ, Binary64.denoted? ⟨0xC004000000000000⟩ = some ((q : WithTop ℚ) : Extended) ∧
        -Text.int64Limit ≤ towardsZero q ∧ towardsZero q < Text.int64Limit ∧
        (-2 : Int64).toInt = towardsZero q := by
  have hint : (Number.int 9007199254740993).denoted? =
      some (((9007199254740993 : ℚ) : WithTop ℚ) : Extended) := rfl
  have hexponent : exponentBits ⟨0x4340000000000000⟩ = 1076 := by decide
  have hfraction : fractionBits ⟨0x4340000000000000⟩ = 0 := by decide
  have hsign : isNegative ⟨0x4340000000000000⟩ = false := by decide
  have hfloat : (Number.float ⟨0x4340000000000000⟩).denoted? =
      some (((9007199254740992 : ℚ) : WithTop ℚ) : Extended) := by
    rw [denoted?, Binary64.denoted?, rational, hexponent, hfraction, hsign, rationalSize]
    norm_num
  have hcompare := (compare?_denoted.1 _ _).2.1 _ _ hint hfloat
  have hgt : compare (((9007199254740993 : ℚ) : WithTop ℚ) : Extended)
      (((9007199254740992 : ℚ) : WithTop ℚ) : Extended) = .gt := by
    refine compare_gt_iff_gt.2 (WithBot.coe_lt_coe.2 (WithTop.coe_lt_coe.2 ?_))
    norm_num
  have hwhole := compare?_denoted.2.2 ⟨0xC004000000000000⟩ (by decide) (by decide +kernel)
    (by decide +kernel)
  have hpart : wholePart ⟨0xC004000000000000⟩ = -2 := by decide +kernel
  rw [hpart] at hwhole
  exact ⟨hint, hfloat, hgt ▸ hcompare, hwhole⟩

end PathQuery.Number
