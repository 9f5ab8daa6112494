import Mathlib.Algebra.Order.Field.Power
import Mathlib.Data.Int.ConditionallyCompleteOrder
import Mathlib.Data.Rat.Floor
import Mathlib.Order.WithBot
import PathQuery.Proofs.Binary64.Shortest

/-!
# The numbers that doubles denote

The bits of a double are a sign, eleven bits of exponent and fifty-two of fraction. What they denote
is a rational, one of the two infinities, or no number (`denoted?`); this is said from the bits
alone and not by way of units. Units count the same: a finite double denotes the rational that has
its units (`rational_eq`), and an infinity has as many as would make 2 ^ 1024, which is more than
every finite double has (`units_lt_unitsLimit`). Up to there numbers of units are in the order of
what they make (`strictMonoOn_ofUnits`), so that comparing units compares what doubles denote.
-/

namespace PathQuery

/-- The rational numbers and the two infinities. -/
abbrev Extended := WithBot (WithTop ℚ)

namespace Binary64

/-! ## The bits and what they denote -/

/-- The eleven bits of the exponent. -/
def exponentBits (x : Binary64) : Nat := x.bits.toNat / twoPow 52 % twoPow 11

/-- The fifty-two bits of the fraction. -/
def fractionBits (x : Binary64) : Nat := x.bits.toNat % twoPow 52

/-- The size that bits of an exponent and of a fraction denote: the fraction behind a point, with a
one before the point unless the exponent is zero, times a power of two. -/
def rationalSize (exponent fraction : Nat) : ℚ :=
  if exponent = 0 then fraction / 2 ^ 52 * 2 ^ (-1022 : ℤ)
  else (1 + fraction / 2 ^ 52) * 2 ^ ((exponent : ℤ) - 1023)

/-- The rational that the bits of a finite double denote. -/
def rational (x : Binary64) : ℚ :=
  if x.isNegative then -rationalSize x.exponentBits x.fractionBits
  else rationalSize x.exponentBits x.fractionBits

/-- What the bits of a double denote. With all bits of the exponent set that is an infinity, or no
number if a bit of the fraction is set too. -/
def denoted? (x : Binary64) : Option Extended :=
  if x.exponentBits = 2047 then
    if x.fractionBits = 0 then some (if x.isNegative then ⊥ else ⊤) else none
  else some ((x.rational : WithTop ℚ) : Extended)

/-! ## The bits and the magnitude -/

/-- There are eleven bits of exponent. -/
theorem exponentBits_lt (x : Binary64) : x.exponentBits < 2048 := Nat.mod_lt _ (by decide)

/-- There are fifty-two bits of fraction. -/
theorem fractionBits_lt (x : Binary64) : x.fractionBits < twoPow 52 := Nat.mod_lt _ (by decide)

/-- The magnitude is the bits of the exponent and behind them those of the fraction. -/
theorem magnitude_eq (x : Binary64) :
    x.magnitude = x.exponentBits * twoPow 52 + x.fractionBits := by
  have hbits : x.bits.toNat < 18446744073709551616 := x.bits.toNat_lt
  have h11 : twoPow 11 = 2048 := rfl
  have h52 : twoPow 52 = 4503599627370496 := rfl
  have h63 : twoPow 63 = 9223372036854775808 := rfl
  rw [magnitude, exponentBits, fractionBits, h63, h52, h11]
  omega

/-- What is no number has all bits of the exponent set and one of the fraction at least. -/
theorem isNaN_iff (x : Binary64) :
    x.isNaN = true ↔ x.exponentBits = 2047 ∧ x.fractionBits ≠ 0 := by
  have h52 : twoPow 52 = 4503599627370496 := rfl
  have hexponent := x.exponentBits_lt
  have hfraction := x.fractionBits_lt
  rw [isNaN, decide_eq_true_eq, infiniteMagnitude, x.magnitude_eq, h52]
  omega

/-- What is finite has a bit of the exponent that is not set. -/
theorem isFinite_iff (x : Binary64) : x.isFinite = true ↔ x.exponentBits ≠ 2047 := by
  have h52 : twoPow 52 = 4503599627370496 := rfl
  have hexponent := x.exponentBits_lt
  have hfraction := x.fractionBits_lt
  rw [isFinite, decide_eq_true_eq, infiniteMagnitude, x.magnitude_eq, h52]
  omega

/-- The units of a double by the bits of its exponent and its fraction. -/
theorem unitsOfMagnitude_magnitude (x : Binary64) : unitsOfMagnitude x.magnitude =
    if x.exponentBits = 0 then x.fractionBits
    else (twoPow 52 + x.fractionBits) * twoPow (x.exponentBits - 1) := by
  have hfraction := x.fractionBits_lt
  have hdiv : x.magnitude / twoPow 52 = x.exponentBits := by
    rw [x.magnitude_eq, Nat.mul_comm, Nat.mul_add_div (twoPow_pos 52), Nat.div_eq_of_lt hfraction,
      Nat.add_zero]
  have hmod : x.magnitude % twoPow 52 = x.fractionBits := by
    rw [x.magnitude_eq, Nat.mul_comm, Nat.mul_add_mod, Nat.mod_eq_of_lt hfraction]
  have hsmall : x.magnitude < twoPow 52 ↔ x.exponentBits = 0 := by
    rw [← hdiv, Nat.div_eq_zero_iff_lt (twoPow_pos 52)]
  rw [unitsOfMagnitude, hdiv, hmod]
  by_cases hexponent : x.exponentBits = 0
  · rw [if_pos (hsmall.2 hexponent), if_pos hexponent, x.magnitude_eq, hexponent, Nat.zero_mul,
      Nat.zero_add]
  · rw [if_neg (mt hsmall.1 hexponent), if_neg hexponent]

/-! ## Units make what the bits denote -/

/-- A power of two as a rational. -/
theorem cast_twoPow (k : Nat) : ((twoPow k : Nat) : ℚ) = 2 ^ (k : ℤ) := by
  rw [zpow_natCast]
  exact Nat.cast_pow 2 k

/-- The units in a power of two are a power of two. -/
theorem zpow_mul_one (k : ℤ) : (2 : ℚ) ^ k * one = 2 ^ (k + 1074) := by
  obtain ⟨l, hl⟩ : ∃ l, l = 1074 := ⟨_, rfl⟩
  have hexp : k + 1074 = k + (l : ℤ) := by omega
  rw [one_eq hl, cast_twoPow, hexp, zpow_add₀ two_ne_zero]

/-- The units in the size that bits denote. -/
theorem rationalSize_mul_one (exponent fraction : Nat) : rationalSize exponent fraction * one =
    if exponent = 0 then (fraction : ℚ)
    else (twoPow 52 + fraction) * twoPow (exponent - 1) := by
  have h52 : (2 : ℚ) ^ 52 ≠ 0 := pow_ne_zero 52 two_ne_zero
  unfold rationalSize
  split
  · rw [mul_assoc, zpow_mul_one]
    exact div_mul_cancel₀ _ h52
  · rename_i hexponent
    have hexp : (exponent : ℤ) - 1023 + 1074 = (52 : ℕ) + (exponent - 1 : ℕ) := by omega
    rw [mul_assoc, zpow_mul_one, hexp, zpow_add₀ two_ne_zero, ← cast_twoPow, ← cast_twoPow,
      ← mul_assoc, one_add_mul]
    congr 2
    exact div_mul_cancel₀ _ h52

/-- A finite double denotes its units, each of which is one over the units in one. -/
theorem rational_eq (x : Binary64) : x.rational = x.units / one := by
  have hone : (one : ℚ) ≠ 0 := Nat.cast_ne_zero.2 (Nat.ne_of_gt Binary64.one_pos)
  have hsize : rationalSize x.exponentBits x.fractionBits * one =
      unitsOfMagnitude x.magnitude := by
    rw [rationalSize_mul_one, unitsOfMagnitude_magnitude]
    split <;> push_cast <;> rfl
  rw [eq_div_iff hone, rational, units]
  split
  · rw [neg_mul, hsize, Int.cast_neg, Int.cast_natCast]
  · rw [hsize, Int.cast_natCast]

/-! ## The order of units -/

/-- The units in 2 ^ 1024. -/
def unitsLimit : ℤ := (twoPow 1024 * one : Nat)

/-- There are units in 2 ^ 1024. -/
theorem zero_lt_unitsLimit : 0 < unitsLimit :=
  Int.natCast_pos.2 (Nat.mul_pos (twoPow_pos _) Binary64.one_pos)

/-- What a number of units makes: from 2 ^ 1024 on an infinity. -/
def ofUnits (units : ℤ) : Extended :=
  if unitsLimit ≤ units then ⊤
  else if units ≤ -unitsLimit then ⊥
  else ((units / one : ℚ) : WithTop ℚ)

/-- Fewer units than in 2 ^ 1024 make a rational. -/
theorem ofUnits_of_lt {u : ℤ} (hlow : -unitsLimit < u) (hhigh : u < unitsLimit) :
    ofUnits u = ((u / one : ℚ) : WithTop ℚ) := by
  rw [ofUnits, if_neg (Int.not_le.2 hhigh), if_neg (Int.not_le.2 hlow)]

/-- The units in 2 ^ 1024 make an infinity. -/
theorem ofUnits_unitsLimit : ofUnits unitsLimit = ⊤ := if_pos (Int.le_refl _)

/-- With a minus sign they make the other one. -/
theorem ofUnits_neg_unitsLimit : ofUnits (-unitsLimit) = ⊥ := by
  have hlimit := zero_lt_unitsLimit
  have hlow : ¬unitsLimit ≤ -unitsLimit := by omega
  rw [ofUnits, if_neg hlow, if_pos (Int.le_refl _)]

/-- More units make more, up to the infinities. -/
theorem strictMonoOn_ofUnits : StrictMonoOn ofUnits (Set.Icc (-unitsLimit) unitsLimit) := by
  have hone : (0 : ℚ) < one := Nat.cast_pos.2 Binary64.one_pos
  rintro u ⟨hu, -⟩ v ⟨-, hv⟩ huv
  rcases hu.eq_or_lt with rfl | hu
  · rw [ofUnits_neg_unitsLimit]
    rcases hv.eq_or_lt with rfl | hv
    · rw [ofUnits_unitsLimit]
      exact bot_lt_top
    · rw [ofUnits_of_lt huv hv]
      exact WithBot.bot_lt_coe _
  · rw [ofUnits_of_lt hu (huv.trans_le hv)]
    rcases hv.eq_or_lt with rfl | hv
    · rw [ofUnits_unitsLimit]
      exact WithBot.coe_lt_coe.2 (WithTop.coe_lt_top _)
    · rw [ofUnits_of_lt (hu.trans huv) hv]
      refine WithBot.coe_lt_coe.2 (WithTop.coe_lt_coe.2 ?_)
      exact div_lt_div_of_pos_right (Int.cast_lt.2 huv) hone

/-- A finite double has fewer units than 2 ^ 1024. -/
theorem units_lt_unitsLimit {x : Binary64} (h : x.isFinite = true) :
    -unitsLimit < x.units ∧ x.units < unitsLimit := by
  have hlt := unitsOfMagnitude_lt (m := x.magnitude) (by simpa [isFinite] using h)
  have hlimit : unitsLimit = (twoPow 1024 * one : Nat) := rfl
  rw [units]
  split <;> omega

/-- An infinity has as many. -/
theorem units_of_infinite {x : Binary64} (hexponent : x.exponentBits = 2047)
    (hfraction : x.fractionBits = 0) :
    x.units = if x.isNegative then -unitsLimit else unitsLimit := by
  have hunits : unitsOfMagnitude x.magnitude = twoPow 1024 * one := by
    obtain ⟨l, hl⟩ : ∃ l, l = 1074 := ⟨_, rfl⟩
    have hsum : 52 + (2047 - 1) = 1024 + l := by omega
    rw [unitsOfMagnitude_magnitude, hexponent, hfraction, if_neg (by decide), Nat.add_zero,
      one_eq hl, ← twoPow_add, ← twoPow_add, hsum]
  rw [units, hunits]
  rfl

/-- No number has more. -/
theorem units_mem {x : Binary64} (h : x.isNaN = false) :
    x.units ∈ Set.Icc (-unitsLimit) unitsLimit := by
  have hlimit := zero_lt_unitsLimit
  by_cases hexponent : x.exponentBits = 2047
  · have hfraction : x.fractionBits = 0 := by
      by_contra hne
      rw [x.isNaN_iff.2 ⟨hexponent, hne⟩] at h
      cases h
    rw [units_of_infinite hexponent hfraction, Set.mem_Icc]
    split <;> omega
  · obtain ⟨hlow, hhigh⟩ := units_lt_unitsLimit (x.isFinite_iff.2 hexponent)
    exact ⟨hlow.le, hhigh.le⟩

/-- A double denotes what its units make, if it is a number. -/
theorem denoted?_eq (x : Binary64) :
    x.denoted? = if x.isNaN then none else some (ofUnits x.units) := by
  unfold denoted?
  by_cases hexponent : x.exponentBits = 2047
  · rw [if_pos hexponent]
    by_cases hfraction : x.fractionBits = 0
    · have hnan : ¬x.isNaN = true := fun h => (x.isNaN_iff.1 h).2 hfraction
      rw [if_pos hfraction, if_neg hnan, units_of_infinite hexponent hfraction]
      cases x.isNegative with
      | false => exact congrArg some ofUnits_unitsLimit.symm
      | true => exact congrArg some ofUnits_neg_unitsLimit.symm
    · rw [if_neg hfraction, if_pos (x.isNaN_iff.2 ⟨hexponent, hfraction⟩)]
  · have hfinite := x.isFinite_iff.2 hexponent
    obtain ⟨hlow, hhigh⟩ := units_lt_unitsLimit hfinite
    rw [if_neg hexponent, isNaN_of_isFinite hfinite, rational_eq, ofUnits_of_lt hlow hhigh,
      if_neg Bool.false_ne_true]

end Binary64

end PathQuery
