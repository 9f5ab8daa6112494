import PathQuery.Binary64.Shortest
import PathQuery.Proofs.Decimal

/-!
# The shortest digits read back

A finite double that is no zero has more than 10 ^ 16 steps of the grid with seventeen digits in it,
so that a neighbour of it on that grid is nearer than every other double. `toBinary64_shortest` says
that the search therefore finds digits and that they are read as the double.
-/

namespace PathQuery.Binary64

open Decimal

variable {x : Binary64}

/-! ## Sizes -/

/-- A double that is no zero has a unit at least. -/
theorem unitsOfMagnitude_pos {m : Nat} (h : 0 < m) : 0 < unitsOfMagnitude m := by
  unfold unitsOfMagnitude
  split
  · exact h
  · exact Nat.mul_pos (Nat.add_pos_left (twoPow_pos 52) _) (twoPow_pos _)

/-- A finite double is below 2 ^ 1024. -/
theorem unitsOfMagnitude_lt {m : Nat} (h : m < infiniteMagnitude) :
    unitsOfMagnitude m < twoPow 1024 * one := by
  obtain ⟨k, c, hm, hunits, hc, hk⟩ := exists_steps m
  obtain ⟨l, hl⟩ : ∃ l, l = 1074 := ⟨_, rfl⟩
  have h52 : twoPow 52 = 4503599627370496 := rfl
  have hinf : infiniteMagnitude = 2047 * 4503599627370496 := rfl
  rw [h52] at hm hk
  have hle : k ≤ 2045 := by omega
  rw [one_eq hl]
  calc unitsOfMagnitude m = c * twoPow k := hunits
    _ < twoPow 53 * twoPow k := Nat.mul_lt_mul_of_pos_right hc (twoPow_pos k)
    _ = twoPow (53 + k) := (twoPow_add 53 k).symm
    _ ≤ twoPow (1024 + l) := twoPow_le (by omega)
    _ = twoPow 1024 * twoPow l := twoPow_add 1024 l

/-- The size of a double on a grid, as a fraction of powers of ten of either sign. -/
theorem scaled_eq (x : Binary64) (exponent : Int) :
    x.scaled exponent = (unitsOfMagnitude x.magnitude * tenPow (-exponent).toNat,
      one * tenPow exponent.toNat) := by
  have hzero : tenPow 0 = 1 := rfl
  simp only [scaled]
  split
  · rw [show (-exponent).toNat = 0 by omega, hzero, Nat.mul_one]
  · rw [show exponent.toNat = 0 by omega, hzero, Nat.mul_one]

/-- The leading power of ten of a double, by the number of digits that it is counted with. -/
theorem leadingExponent_eq (hfinite : x.isFinite = true) (hzero : x.isZero = false) {k : Nat}
    (hk : k = 324) :
    ∃ count : Nat, x.leadingExponent = (count : Int) - 325 ∧ 1 ≤ count ∧ count ≤ 309 + k ∧
      tenPow (count - 1) * one ≤ unitsOfMagnitude x.magnitude * tenPow k := by
  have hunits : 0 < unitsOfMagnitude x.magnitude :=
    unitsOfMagnitude_pos (Nat.pos_of_ne_zero (by simpa [isZero] using hzero))
  have hlt := unitsOfMagnitude_lt (m := x.magnitude) (by simpa [isFinite] using hfinite)
  have hscaled : x.scaled (-324) = (unitsOfMagnitude x.magnitude * tenPow k, one) := by
    have hexp : (-(-324 : Int)).toNat = k := by omega
    have hzero : (-324 : Int).toNat = 0 := by omega
    rw [scaled_eq, hexp, hzero, show tenPow 0 = 1 from rfl, Nat.mul_one]
  rw [leadingExponent, hscaled]
  generalize unitsOfMagnitude x.magnitude = units at hunits hlt
  have hone := one_pos
  have hsmall : one ≤ tenPow k := by
    rw [hk]
    decide +kernel
  have hlarge : twoPow 1024 ≤ tenPow 309 := by decide +kernel
  have hpos : 0 < units * tenPow k / one :=
    Nat.div_pos (Nat.le_trans hsmall (Nat.le_mul_of_pos_left _ hunits)) hone
  refine ⟨digitCount (units * tenPow k / one), rfl, digitCount_pos _, ?_, ?_⟩
  · refine (Nat.length_toDigits_le_iff (by decide) (by omega)).2 ?_
    rw [Nat.div_lt_iff_lt_mul hone]
    calc units * tenPow k
        < twoPow 1024 * one * tenPow k := Nat.mul_lt_mul_of_pos_right hlt (tenPow_pos k)
      _ ≤ tenPow 309 * one * tenPow k :=
          Nat.mul_le_mul_right _ (Nat.mul_le_mul_right _ hlarge)
      _ = tenPow (309 + k) * one := by rw [tenPow_add, Nat.mul_right_comm]
  · exact (Nat.le_div_iff_mul_le hone).1 (tenPow_le_of_pos hpos)

/-! ## Seventeen digits -/

/-- On the grid of seventeen digits a double has 10 ^ 16 steps at least. -/
theorem tenPow_mul_le_scaled (hfinite : x.isFinite = true) (hzero : x.isZero = false) :
    tenPow 16 * (x.scaled (x.leadingExponent - 16)).2 ≤ (x.scaled (x.leadingExponent - 16)).1 := by
  obtain ⟨k, hk⟩ : ∃ k, k = 324 := ⟨_, rfl⟩
  obtain ⟨count, hcount, hmin, -, hle⟩ := leadingExponent_eq hfinite hzero hk
  rw [hcount, scaled_eq]
  generalize unitsOfMagnitude x.magnitude = units at hle
  generalize hexp : (count : Int) - 325 - 16 = exponent
  refine Nat.le_of_mul_le_mul_right ?_ (tenPow_pos k)
  calc tenPow 16 * (one * tenPow exponent.toNat) * tenPow k
      = tenPow (16 + exponent.toNat + k) * one := by
        rw [tenPow_add, tenPow_add, Nat.mul_comm one, ← Nat.mul_assoc, Nat.mul_right_comm]
    _ = tenPow (count - 1) * one * tenPow (-exponent).toNat := by
        rw [show 16 + exponent.toNat + k = count - 1 + (-exponent).toNat by omega, tenPow_add,
          Nat.mul_right_comm]
    _ ≤ units * tenPow k * tenPow (-exponent).toNat := Nat.mul_le_mul_right _ hle
    _ = units * tenPow (-exponent).toNat * tenPow k := Nat.mul_right_comm _ _ _

/-- A multiple that is no further from a double than half a step of the grid of seventeen digits
reads back. -/
theorem toBinary64_of_near (hfinite : x.isFinite = true) (hzero : x.isZero = false) {n : Nat}
    (hlow : 2 * (x.scaled (x.leadingExponent - 16)).1 ≤
      2 * (n * (x.scaled (x.leadingExponent - 16)).2) + (x.scaled (x.leadingExponent - 16)).2)
    (hhigh : 2 * (n * (x.scaled (x.leadingExponent - 16)).2) ≤
      2 * (x.scaled (x.leadingExponent - 16)).1 + (x.scaled (x.leadingExponent - 16)).2) :
    (Decimal.mk x.isNegative n (x.leadingExponent - 16)).toBinary64 = x := by
  have hsteps := tenPow_mul_le_scaled hfinite hzero
  obtain ⟨count, hcount, hmin, hmax, -⟩ := leadingExponent_eq hfinite hzero rfl
  rw [hcount] at hlow hhigh hsteps ⊢
  generalize hexp : (count : Int) - 325 - 16 = exponent at hlow hhigh hsteps ⊢
  rw [scaled_eq] at hlow hhigh hsteps
  dsimp only at hlow hhigh hsteps
  have hden : 0 < one * tenPow exponent.toNat := Nat.mul_pos one_pos (tenPow_pos _)
  have h16 : tenPow 16 = 10000000000000000 := rfl
  have h54 : twoPow 54 = 18014398509481984 := rfl
  have hn : tenPow 16 ≤ n := by
    refine Nat.le_of_not_lt fun hlt => ?_
    have := Nat.mul_le_mul_right (one * tenPow exponent.toNat) (Nat.succ_le_of_lt hlt)
    rw [Nat.succ_mul] at this
    omega
  have hdigits : 16 < digitCount n := by
    refine Nat.lt_of_not_le fun hle => ?_
    have := (Nat.length_toDigits_le_iff (by decide) (by decide)).1 hle
    exact absurd hn (Nat.not_le_of_lt this)
  have hnum : n * tenPow exponent.toNat * one = n * (one * tenPow exponent.toNat) := by
    rw [Nat.mul_assoc, Nat.mul_comm one]
  have hnearest : nearestMagnitude (n * tenPow exponent.toNat * one) (tenPow (-exponent).toNat) =
      x.magnitude := by
    rw [h16] at hsteps
    refine nearestMagnitude_of_near (by simpa [isFinite] using hfinite) ?_ ?_ <;>
      rw [hnum, h54] <;> omega
  rw [toBinary64_eq (by omega) (by omega) (by omega), ofRatio, hnearest, ofMagnitude_magnitude]

/-! ## The search -/

/-- What is found on a grid reads back. -/
theorem toBinary64_of_onGrid? {tie : Tie} {exponent : Int} {digits : Nat}
    (h : x.onGrid? tie exponent = some digits) :
    (Decimal.mk x.isNegative digits exponent).toBinary64 = x := by
  unfold onGrid? at h
  dsimp only at h
  split at h
  · cases h
  · rename_i hlow _
    cases h
    exact eq_of_beq hlow
  · rename_i _ hhigh
    cases h
    exact eq_of_beq hhigh
  · rename_i hlow hhigh
    split at h
    · cases h
      exact eq_of_beq hlow
    · cases h
      exact eq_of_beq hhigh
    · cases h
      exact eq_of_beq hhigh
    · cases h
      rcases Nat.mod_two_eq_zero_or_one ((x.scaled exponent).1 / (x.scaled exponent).2) with he | he
      · rw [he]
        exact eq_of_beq hlow
      · rw [he]
        exact eq_of_beq hhigh

/-- A grid on which a neighbour of a double reads back has digits for it. -/
theorem onGrid?_isSome (tie : Tie) {exponent : Int} {digits : Nat}
    (hdigits : digits = (x.scaled exponent).1 / (x.scaled exponent).2 ∨
      digits = (x.scaled exponent).1 / (x.scaled exponent).2 + 1)
    (h : (Decimal.mk x.isNegative digits exponent).toBinary64 = x) :
    (x.onGrid? tie exponent).isSome = true := by
  have hback := beq_iff_eq.2 h
  unfold onGrid?
  dsimp only
  split
  · rename_i hlow hhigh
    rcases hdigits with rfl | rfl
    · rw [hlow] at hback
      cases hback
    · rw [hhigh] at hback
      cases hback
  · rfl
  · rfl
  · split <;> rfl

/-- The grid of seventeen digits has digits for every finite double but the zeros. -/
theorem onGrid?_seventeen (tie : Tie) (hfinite : x.isFinite = true) (hzero : x.isZero = false) :
    (x.onGrid? tie (x.leadingExponent - 16)).isSome = true := by
  have hden : 0 < (x.scaled (x.leadingExponent - 16)).2 := by
    rw [scaled_eq]
    exact Nat.mul_pos one_pos (tenPow_pos _)
  have hsplit := Nat.div_add_mod (x.scaled (x.leadingExponent - 16)).1
    (x.scaled (x.leadingExponent - 16)).2
  have hmod := Nat.mod_lt (x.scaled (x.leadingExponent - 16)).1 hden
  rw [Nat.mul_comm] at hsplit
  -- The nearer one of the two neighbours is within half a step.
  by_cases hhalf : 2 * ((x.scaled (x.leadingExponent - 16)).1 %
      (x.scaled (x.leadingExponent - 16)).2) ≤ (x.scaled (x.leadingExponent - 16)).2
  · exact onGrid?_isSome tie (.inl rfl)
      (toBinary64_of_near hfinite hzero (by omega) (by omega))
  · have hnext := Nat.add_one_mul ((x.scaled (x.leadingExponent - 16)).1 /
      (x.scaled (x.leadingExponent - 16)).2) (x.scaled (x.leadingExponent - 16)).2
    exact onGrid?_isSome tie (.inr rfl)
      (toBinary64_of_near hfinite hzero (by omega) (by omega))

/-- The shortest digits of a finite double that is no zero are read as the double. -/
theorem toBinary64_shortest (tie : Tie) (hfinite : x.isFinite = true) (hzero : x.isZero = false) :
    (x.shortest tie).negative = x.isNegative ∧ 0 < (x.shortest tie).digits ∧
      (x.shortest tie).toBinary64 = x := by
  have hfound : ((List.range 17).findSome? fun (n : Nat) =>
      (x.onGrid? tie (x.leadingExponent - (n : Int))).map fun digits =>
        Decimal.mk x.isNegative digits (x.leadingExponent - (n : Int))).isSome = true := by
    rw [List.findSome?_isSome_iff]
    refine ⟨16, by decide, ?_⟩
    rw [Option.isSome_map]
    exact onGrid?_seventeen tie hfinite hzero
  obtain ⟨d, hd⟩ := Option.isSome_iff_exists.1 hfound
  have hshortest : x.shortest tie = d := by
    unfold shortest
    dsimp only
    rw [hd]
    rfl
  obtain ⟨n, -, hn⟩ := List.exists_of_findSome?_eq_some hd
  obtain ⟨digits, hgrid, rfl⟩ := Option.map_eq_some_iff.1 hn
  have hback := toBinary64_of_onGrid? hgrid
  rw [hshortest]
  refine ⟨rfl, Nat.pos_of_ne_zero fun hdigits => ?_, hback⟩
  have hdigits : digits = 0 := hdigits
  subst hdigits
  have hmagnitude := magnitude_ofMagnitude x.isNegative (Nat.zero_le infiniteMagnitude)
  rw [show ofMagnitude x.isNegative 0 = x from hback] at hmagnitude
  simp [isZero, hmagnitude] at hzero

end PathQuery.Binary64
