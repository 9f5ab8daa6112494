import PathQuery.Proofs.Binary64.Rounding

/-!
# The bits of a double

A double is its sign and its magnitude (`ofMagnitude_magnitude`), and every sign and magnitude up to
the infinite one are those of a double.
-/

namespace PathQuery.Binary64

/-- A double is put together from its sign and its magnitude. -/
theorem ofMagnitude_magnitude (x : Binary64) : ofMagnitude x.isNegative x.magnitude = x := by
  obtain ⟨bits⟩ := x
  have hlt : bits.toNat < 18446744073709551616 := bits.toNat_lt
  have h63 : twoPow 63 = 9223372036854775808 := rfl
  simp only [ofMagnitude, isNegative, magnitude, h63, decide_eq_true_eq, Binary64.mk.injEq]
  have hbits : (if 9223372036854775808 ≤ bits.toNat
      then 9223372036854775808 + bits.toNat % 9223372036854775808
      else bits.toNat % 9223372036854775808) = bits.toNat := by
    split <;> omega
  rw [hbits, UInt64.ofNat_toNat]

/-- The bits of a sign and a magnitude. -/
theorem toNat_bits_ofMagnitude (negative : Bool) {m : Nat} (hm : m ≤ infiniteMagnitude) :
    (ofMagnitude negative m).bits.toNat = if negative then twoPow 63 + m else m := by
  have hlt : m < 9223372036854775808 := Nat.lt_of_le_of_lt hm (by decide)
  have h63 : twoPow 63 = 9223372036854775808 := rfl
  simp only [ofMagnitude, h63]
  refine UInt64.toNat_ofNat_of_lt' ?_
  have hsize : UInt64.size = 18446744073709551616 := rfl
  split <;> omega

/-- The magnitude that a double is put together from is its magnitude. -/
theorem magnitude_ofMagnitude (negative : Bool) {m : Nat} (hm : m ≤ infiniteMagnitude) :
    (ofMagnitude negative m).magnitude = m := by
  have hlt : m < 9223372036854775808 := Nat.lt_of_le_of_lt hm (by decide)
  have h63 : twoPow 63 = 9223372036854775808 := rfl
  rw [magnitude, toNat_bits_ofMagnitude negative hm, h63]
  split <;> omega

/-- A double of a magnitude up to the infinite one is a number. -/
theorem isNaN_ofMagnitude (negative : Bool) {m : Nat} (hm : m ≤ infiniteMagnitude) :
    (ofMagnitude negative m).isNaN = false := by
  rw [isNaN, magnitude_ofMagnitude negative hm]
  simpa using hm

/-- A finite double is a number. -/
theorem isNaN_of_isFinite {x : Binary64} (h : x.isFinite = true) : x.isNaN = false := by
  rw [isFinite, decide_eq_true_eq] at h
  rw [isNaN, decide_eq_false_iff_not]
  exact Nat.not_lt.2 (Nat.le_of_lt h)

/-- The nearest magnitude is infinite at most. -/
theorem nearestMagnitude_le (num den : Nat) : nearestMagnitude num den ≤ infiniteMagnitude :=
  Nat.min_le_right _ _

/-- The double nearest to a fraction is a number. -/
theorem isNaN_ofRatio (negative : Bool) (num den : Nat) :
    (ofRatio negative num den).isNaN = false :=
  isNaN_ofMagnitude negative (nearestMagnitude_le _ _)

/-- The units in one, with an exponent that nothing evaluates. -/
theorem one_eq {k : Nat} (hk : k = 1074) : one = twoPow k := by
  unfold one
  simp only [hk]

/-- There are units in one. -/
theorem one_pos : 0 < one := by
  unfold one
  exact twoPow_pos 1074

/-- A common factor does not matter to the nearest double. -/
theorem ofRatio_mul (negative : Bool) {c : Nat} (hc : 0 < c) (num den : Nat) :
    ofRatio negative (num * c) (den * c) = ofRatio negative num den := by
  rw [ofRatio, Nat.mul_right_comm, nearestMagnitude_mul hc]
  rfl

/-- From 2 ^ 1024 up the nearest double is an infinity. -/
theorem ofRatio_of_le (negative : Bool) {num den : Nat} (hden : 0 < den)
    (h : twoPow 1024 * den ≤ num) :
    ofRatio negative num den = ofMagnitude negative infiniteMagnitude := by
  obtain ⟨k, hk⟩ : ∃ k, k = 1074 := ⟨_, rfl⟩
  have hnum : twoPow (1024 + k) * den ≤ num * twoPow k := by
    rw [twoPow_add, Nat.mul_right_comm]
    exact Nat.mul_le_mul_right (twoPow k) h
  rw [ofRatio, one_eq hk, nearestMagnitude_of_le hden (by omega) hnum]

end PathQuery.Binary64
