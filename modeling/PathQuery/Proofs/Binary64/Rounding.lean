import PathQuery.Binary64.Rounding

/-!
# What rounds to a double

The magnitude nearest to a fraction depends on its value only (`nearestMagnitude_mul`). Every
fraction that is as near to a double as half the way to the next one rounds to it
(`nearestMagnitude_of_near`), and from 2 ^ 1024 up every fraction rounds to an infinity
(`nearestMagnitude_of_le`).
-/

namespace PathQuery.Binary64

/-! ## Powers of two -/

/-- Powers of two multiply by adding their exponents. -/
theorem twoPow_add (a b : Nat) : twoPow (a + b) = twoPow a * twoPow b := Nat.pow_add 2 a b

/-- Powers of two are positive. -/
theorem twoPow_pos (k : Nat) : 0 < twoPow k := Nat.pow_pos (by decide)

/-- Larger exponents make larger powers of two. -/
theorem twoPow_le {a b : Nat} (h : a ≤ b) : twoPow a ≤ twoPow b :=
  Nat.pow_le_pow_right (by decide) h

/-! ## Rounding to a natural number -/

/-- What is nearer to a natural number than one half is rounded to it. -/
theorem roundHalfEven_of_near {num den c : Nat} (hlow : 2 * (c * den) < 2 * num + den)
    (hhigh : 2 * num < 2 * (c * den) + den) : roundHalfEven num den = c := by
  have hden : 0 < den := by
    rcases Nat.eq_zero_or_pos den with rfl | h
    · simp only [Nat.mul_zero] at hhigh
      omega
    · exact h
  have hsplit : num = num / den * den + num % den := by
    rw [Nat.mul_comm]
    exact (Nat.div_add_mod num den).symm
  have hmod := Nat.mod_lt num hden
  generalize hq : num / den = q at hsplit
  generalize hr : num % den = r at hsplit hmod
  have hcases : c = q ∨ c = q + 1 := by
    rcases Nat.lt_or_ge c q with hc | hc
    · have := Nat.mul_le_mul_right den (Nat.succ_le_of_lt hc)
      rw [Nat.succ_mul] at this
      omega
    · rcases Nat.lt_or_ge (q + 1) c with hc' | hc'
      · have := Nat.mul_le_mul_right den (Nat.succ_le_of_lt hc')
        rw [Nat.succ_mul, Nat.succ_mul] at this
        omega
      · omega
  simp only [roundHalfEven, hq, hr]
  rcases hcases with rfl | rfl
  · rw [if_pos (by omega)]
  · rw [Nat.add_one_mul q den] at hlow hhigh
    rw [if_neg (by omega), if_pos (by omega)]

/-- Rounding takes nothing off the whole part. -/
theorem div_le_roundHalfEven (num den : Nat) : num / den ≤ roundHalfEven num den := by
  simp only [roundHalfEven]
  split
  · exact Nat.le_refl _
  split <;> omega

/-- A common factor does not matter to rounding. -/
theorem roundHalfEven_mul {c : Nat} (hc : 0 < c) (num den : Nat) :
    roundHalfEven (num * c) (den * c) = roundHalfEven num den := by
  have hlt : ∀ a b : Nat, a * c < b * c ↔ a < b := fun a b => Nat.mul_lt_mul_right hc
  simp only [roundHalfEven, Nat.mul_div_mul_right _ _ hc, Nat.mul_mod_mul_right, ← Nat.mul_assoc,
    hlt]

/-- A common factor does not matter to the nearest magnitude. -/
theorem nearestMagnitude_mul {c : Nat} (hc : 0 < c) (num den : Nat) :
    nearestMagnitude (num * c) (den * c) = nearestMagnitude num den := by
  have hround : ∀ k, roundHalfEven (num * c) (den * c * twoPow k) =
      roundHalfEven num (den * twoPow k) := by
    intro k
    rw [Nat.mul_right_comm, roundHalfEven_mul hc]
  simp only [nearestMagnitude, Nat.mul_div_mul_right _ _ hc, hround]

/-! ## The nearest magnitude -/

/-- A magnitude is a number of steps of a power of two, at least 2 ^ 52 of them unless the step is
one unit. -/
theorem exists_steps (m : Nat) : ∃ k c, m = k * twoPow 52 + c ∧
    unitsOfMagnitude m = c * twoPow k ∧ c < twoPow 53 ∧ (k = 0 ∨ twoPow 52 ≤ c) := by
  have h52 : twoPow 52 = 4503599627370496 := rfl
  have h53 : twoPow 53 = 9007199254740992 := rfl
  unfold unitsOfMagnitude
  by_cases hm : m < twoPow 52
  · rw [if_pos hm]
    exact ⟨0, m, by omega, (Nat.mul_one m).symm, by omega, .inl rfl⟩
  · rw [if_neg hm]
    have hsplit := Nat.div_add_mod m (twoPow 52)
    have hmod := Nat.mod_lt m (twoPow_pos 52)
    have hdiv : 1 ≤ m / twoPow 52 := (Nat.one_le_div_iff (twoPow_pos 52)).2 (by omega)
    refine ⟨m / twoPow 52 - 1, twoPow 52 + m % twoPow 52, ?_, rfl, by omega, .inr (by omega)⟩
    rw [Nat.sub_mul, Nat.mul_comm]
    rw [h52] at hsplit hmod ⊢
    omega

/-- A power of two is no larger than a number that has at least as large a logarithm. -/
theorem le_log2 {k q : Nat} (h : twoPow k ≤ q) : k ≤ q.log2 :=
  (Nat.le_log2 (Nat.ne_of_gt (Nat.lt_of_lt_of_le (twoPow_pos k) h))).2 h

/-- The power of two that a number of at least 53 binary digits is divided by. -/
theorem lt_of_log2 (q : Nat) : q < twoPow (q.log2 - 52 + 53) ∧
    (q.log2 - 52 = 0 ∨ twoPow (q.log2 - 52 + 52) ≤ q) := by
  refine ⟨?_, ?_⟩
  · have hlt : q < twoPow (q.log2 + 1) := Nat.lt_log2_self
    exact Nat.lt_of_lt_of_le hlt (twoPow_le (by omega))
  · rcases Nat.lt_or_ge q.log2 53 with h | h
    · exact .inl (by omega)
    · have hne : q ≠ 0 := by
        rintro rfl
        rw [Nat.log2_zero] at h
        omega
      rw [Nat.sub_add_cancel (by omega)]
      exact .inr (Nat.log2_self_le hne)

/-- What is nearer to a number of steps than half a step is that number of steps as a magnitude,
even if it is below the power of two where the steps become shorter. -/
theorem nearestMagnitude_of_steps {num den k c : Nat} (hc : c < twoPow 53)
    (hk : k = 0 ∨ twoPow 52 ≤ c) (hinf : k * twoPow 52 + c < infiniteMagnitude)
    (hlow : c * twoPow k * den * twoPow 54 < num * twoPow 54 + c * twoPow k * den)
    (hhigh : num * twoPow 54 < c * twoPow k * den * twoPow 54 + c * twoPow k * den) :
    nearestMagnitude num den = k * twoPow 52 + c := by
  have h52 : twoPow 52 = 4503599627370496 := rfl
  have h53 : twoPow 53 = 9007199254740992 := rfl
  have h54 : twoPow 54 = 18014398509481984 := rfl
  have hden : 0 < den := by
    rcases Nat.eq_zero_or_pos den with rfl | h
    · simp only [Nat.mul_zero, Nat.zero_mul] at hhigh
      exact absurd hhigh (Nat.not_lt_zero _)
    · exact h
  obtain ⟨hlt, hle⟩ := lt_of_log2 (num / den)
  simp only [nearestMagnitude]
  generalize (num / den).log2 - 52 = l at hlt hle ⊢
  rw [Nat.div_lt_iff_lt_mul hden] at hlt
  rw [Nat.le_div_iff_mul_le hden] at hle
  have hmin : ∀ m, m = k * twoPow 52 + c → min m infiniteMagnitude = k * twoPow 52 + c := by
    rintro m rfl
    exact Nat.min_eq_left (Nat.le_of_lt hinf)
  -- A step of the double is `step` in the numerator.
  have hstep : c * twoPow k * den = c * (den * twoPow k) := by
    rw [Nat.mul_assoc, Nat.mul_comm (twoPow k)]
  rw [hstep] at hlow hhigh
  generalize hD : den * twoPow k = step at hlow hhigh
  have hpos : 0 < step := hD ▸ Nat.mul_pos hden (twoPow_pos k)
  have hsize : c * step + step ≤ twoPow 53 * step := by
    have := Nat.mul_le_mul_right step (Nat.succ_le_of_lt hc)
    rwa [Nat.succ_mul] at this
  rw [h53] at hsize
  rw [h54] at hlow hhigh
  rcases Nat.lt_trichotomy l k with hl | rfl | hl
  · -- A shorter step is half as long, just below a power of two.
    have hc' : twoPow 52 ≤ c := hk.resolve_left (by omega)
    rw [h52] at hc'
    have hsmall := Nat.mul_le_mul_right step hc'
    have hl' : k = l + 1 := by
      refine Decidable.byContradiction fun hne => ?_
      have hshort : num < twoPow (51 + k) * den :=
        Nat.lt_of_lt_of_le hlt (Nat.mul_le_mul_right den (twoPow_le (by omega)))
      rw [twoPow_add, Nat.mul_assoc, Nat.mul_comm (twoPow k), hD,
        show twoPow 51 = 2251799813685248 from rfl] at hshort
      omega
    subst hl'
    rw [Nat.add_comm l 53, twoPow_add, Nat.mul_assoc, Nat.mul_comm (twoPow l), h53] at hlt
    rw [twoPow_add, ← Nat.mul_assoc, show twoPow 1 = 2 from rfl] at hD
    generalize den * twoPow l = half at hlt hD ⊢
    have hpower : c = 4503599627370496 := by
      refine Decidable.byContradiction fun hne => ?_
      have := Nat.mul_le_mul_right step (show 4503599627370497 ≤ c by omega)
      omega
    subst hpower
    refine hmin _ ?_
    rw [roundHalfEven_of_near (c := 9007199254740992) (by omega) (by omega), h52]
    omega
  · rw [hD]
    refine hmin _ (congrArg _ (roundHalfEven_of_near ?_ ?_)) <;> omega
  · -- A longer step is too long for what is so near.
    exfalso
    have hle' : twoPow (l + 52) * den ≤ num := hle.resolve_left (by omega)
    have hlong : twoPow (k + 53) * den ≤ num :=
      Nat.le_trans (Nat.mul_le_mul_right den (twoPow_le (by omega))) hle'
    rw [Nat.add_comm, twoPow_add, Nat.mul_assoc, Nat.mul_comm (twoPow k), hD, h53] at hlong
    omega

/-- What is nearer to the units of a magnitude than a part in 2 ^ 54 has that magnitude. -/
theorem nearestMagnitude_of_near {num den m : Nat} (hm : m < infiniteMagnitude)
    (hlow : unitsOfMagnitude m * den * twoPow 54 < num * twoPow 54 + unitsOfMagnitude m * den)
    (hhigh : num * twoPow 54 < unitsOfMagnitude m * den * twoPow 54 + unitsOfMagnitude m * den) :
    nearestMagnitude num den = m := by
  obtain ⟨k, c, rfl, hunits, hc, hk⟩ := exists_steps m
  rw [hunits] at hlow hhigh
  exact nearestMagnitude_of_steps hc hk hm hlow hhigh

/-- From 2 ^ 1024 up the nearest magnitude is infinite. -/
theorem nearestMagnitude_of_le {num den k : Nat} (hden : 0 < den) (hk : 1024 + 1074 ≤ k)
    (h : twoPow k * den ≤ num) : nearestMagnitude num den = infiniteMagnitude := by
  have hlog : k ≤ (num / den).log2 := le_log2 ((Nat.le_div_iff_mul_le hden).2 h)
  obtain ⟨-, hle⟩ := lt_of_log2 (num / den)
  simp only [nearestMagnitude]
  refine Nat.min_eq_right ?_
  generalize (num / den).log2 = l at hlog hle ⊢
  have hround : twoPow 52 ≤ roundHalfEven num (den * twoPow (l - 52)) := by
    refine Nat.le_trans ?_ (div_le_roundHalfEven _ _)
    rw [← Nat.div_div_eq_div_mul, Nat.le_div_iff_mul_le (twoPow_pos _), ← twoPow_add, Nat.add_comm]
    exact hle.resolve_left (by omega)
  have hsteps := Nat.mul_le_mul_right (twoPow 52) (show 2046 ≤ l - 52 by omega)
  rw [infiniteMagnitude]
  generalize twoPow 52 = p at hround hsteps ⊢
  omega

end PathQuery.Binary64
