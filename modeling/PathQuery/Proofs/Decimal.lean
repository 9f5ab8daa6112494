import PathQuery.Decimal
import PathQuery.Proofs.Binary64.Basic

/-!
# Decimal fractions by value

The digits of a decimal fraction may end in zeros or have them in its exponent: `toBinary64_shift`
says that it is read as the same double either way, on both sides of the guards as well.
-/

namespace PathQuery.Decimal

open Binary64

/-! ## Digits -/

/-- Powers of ten multiply by adding their exponents. -/
theorem tenPow_add (a b : Nat) : tenPow (a + b) = tenPow a * tenPow b := Nat.pow_add 10 a b

/-- Powers of ten are positive. -/
theorem tenPow_pos (k : Nat) : 0 < tenPow k := Nat.pow_pos (by decide)

/-- A number times a power of ten has the digits of the number and zeros behind them. -/
theorem toDigits_mul_tenPow {n : Nat} (hn : 0 < n) (j : Nat) :
    Nat.toDigits 10 (n * tenPow j) = Nat.toDigits 10 n ++ List.replicate j '0' := by
  induction j with
  | zero => simp
  | succ j ih =>
      have hpos : 0 < n * tenPow j := Nat.mul_pos hn (tenPow_pos j)
      have hsucc : n * tenPow (j + 1) = 10 * (n * tenPow j) + 0 := by
        rw [tenPow_add, ← Nat.mul_assoc, Nat.mul_comm, Nat.add_zero]
      rw [hsucc, ← Nat.toDigits_append_toDigits (by decide) hpos (by decide), ih,
        Nat.toDigits_zero, List.append_assoc, List.replicate_succ']

/-- A number times a power of ten has that many digits more. -/
theorem digitCount_mul_tenPow {n : Nat} (hn : 0 < n) (j : Nat) :
    digitCount (n * tenPow j) = digitCount n + j := by
  rw [digitCount, toDigits_mul_tenPow hn, List.length_append, List.length_replicate]
  rfl

/-- A number has a digit at least. -/
theorem digitCount_pos (n : Nat) : 0 < digitCount n := Nat.length_toDigits_pos

/-- A positive number is no smaller than the power of ten of its first digit. -/
theorem tenPow_le_of_pos {n : Nat} (hn : 0 < n) : tenPow (digitCount n - 1) ≤ n := by
  rcases Nat.eq_zero_or_pos (digitCount n - 1) with h | h
  · rw [h]
    exact hn
  · refine Nat.le_of_not_lt fun hlt => ?_
    have := (Nat.length_toDigits_le_iff (by decide) h).2 hlt
    have := digitCount_pos n
    unfold digitCount at *
    omega

/-! ## Reading -/

/-- A positive decimal fraction between the guards is rounded from its value. -/
theorem toBinary64_eq {negative : Bool} {digits : Nat} {exponent : Int} (hdigits : 0 < digits)
    (hmax : exponent < 309) (hmin : -324 < digitCount digits + exponent) :
    (Decimal.mk negative digits exponent).toBinary64 =
      ofRatio negative (digits * tenPow exponent.toNat) (tenPow (-exponent).toNat) := by
  simp only [toBinary64]
  rw [if_neg (by omega), if_neg (by omega), if_neg (by omega)]
  split
  · rw [show (-exponent).toNat = 0 by omega]
  · rw [show exponent.toNat = 0 by omega]
    simp

/-- Zeros at the end of the digits or in the exponent are the same to the double. -/
theorem toBinary64_shift (negative : Bool) (digits j : Nat) (exponent : Int) :
    (Decimal.mk negative (digits * tenPow j) exponent).toBinary64 =
      (Decimal.mk negative digits (exponent + j)).toBinary64 := by
  rcases Nat.eq_zero_or_pos digits with rfl | hdigits
  · simp [toBinary64]
  have hpos : 0 < digits * tenPow j := Nat.mul_pos hdigits (tenPow_pos j)
  have hcount := digitCount_mul_tenPow hdigits j
  have hcount₁ := digitCount_pos digits
  by_cases hmin : digitCount digits + (exponent + j) ≤ -324
  · simp only [toBinary64]
    rw [if_neg (by omega), if_neg (by omega), if_pos (by omega), if_neg (by omega),
      if_neg (by omega), if_pos (by omega)]
  by_cases hmax : exponent + j < 309
  · rw [toBinary64_eq hpos (by omega) (by omega), toBinary64_eq hdigits hmax (by omega)]
    -- Both are the same fraction but for a power of ten.
    generalize hshift : (-exponent).toNat - (-(exponent + j)).toNat = t
    have hnum : digits * tenPow j * tenPow exponent.toNat =
        digits * tenPow (exponent + j).toNat * tenPow t := by
      rw [Nat.mul_assoc, Nat.mul_assoc, ← tenPow_add, ← tenPow_add,
        show j + exponent.toNat = (exponent + j).toNat + t by omega]
    have hden : tenPow (-exponent).toNat = tenPow (-(exponent + j)).toNat * tenPow t := by
      rw [← tenPow_add, show (-exponent).toNat = (-(exponent + j)).toNat + t by omega]
    rw [hnum, hden, ofRatio_mul negative (tenPow_pos t)]
  · have hright : (Decimal.mk negative digits (exponent + j)).toBinary64 =
        .ofMagnitude negative infiniteMagnitude := by
      simp only [toBinary64]
      rw [if_neg (by omega), if_pos (by omega)]
    rw [hright]
    by_cases hmax' : exponent < 309
    · rw [toBinary64_eq hpos hmax' (by omega)]
      refine ofRatio_of_le negative (tenPow_pos _) ?_
      have h1024 : twoPow 1024 ≤ tenPow 309 := by decide +kernel
      have hexp : tenPow 309 * tenPow (-exponent).toNat ≤ tenPow j * tenPow exponent.toNat := by
        rw [← tenPow_add, ← tenPow_add]
        exact Nat.pow_le_pow_right (by decide) (by omega)
      calc twoPow 1024 * tenPow (-exponent).toNat
          ≤ tenPow 309 * tenPow (-exponent).toNat := Nat.mul_le_mul_right _ h1024
        _ ≤ tenPow j * tenPow exponent.toNat := hexp
        _ ≤ digits * tenPow j * tenPow exponent.toNat := by
            rw [Nat.mul_assoc]
            exact Nat.le_mul_of_pos_left _ hdigits
    · simp only [toBinary64]
      rw [if_neg (by omega), if_pos (by omega)]

/-- What a decimal fraction is read as is a number. -/
theorem isNaN_toBinary64 (d : Decimal) : d.toBinary64.isNaN = false := by
  unfold toBinary64
  split
  · exact isNaN_ofMagnitude _ (Nat.zero_le _)
  split
  · exact isNaN_ofMagnitude _ (Nat.le_refl _)
  split
  · exact isNaN_ofMagnitude _ (Nat.zero_le _)
  split <;> exact isNaN_ofRatio _ _ _

end PathQuery.Decimal
