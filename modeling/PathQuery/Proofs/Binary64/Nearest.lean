import Mathlib.Algebra.Order.Field.Basic
import Mathlib.Algebra.Group.Nat.Even
import PathQuery.Proofs.Binary64.Denotation

/-!
# The nearest double

To round a number correctly means to take the finite double that is nearest to it, of two equally
near ones the one with an even fraction; `Nearest` says this by what doubles denote. What a decimal
fraction is read as is nearest to it, if it is finite (`Decimal.nearest_toBinary64`), and every
other double that is nearest to it denotes the same (`Decimal.rational_eq_of_nearest`), so that two
readers that round correctly read the same number.

Both come down to magnitudes, whose units grow with them (`strictMono_unitsOfMagnitude`): all other
magnitudes are farther from a number than the one that it is rounded to, except for a neighbour of
it that is as far, of which only one is even (`NearestUnits`).
-/

namespace PathQuery

namespace Binary64

/-- A finite double is nearest to a rational: no other is nearer, and if another one is as near, it
has an even fraction. -/
structure Nearest (x : Binary64) (q : ℚ) : Prop where
  finite : x.isFinite = true
  near (y : Binary64) (hy : y.isFinite = true) : |x.rational - q| ≤ |y.rational - q|
  even (y : Binary64) (hy : y.isFinite = true) (hne : y.rational ≠ x.rational)
    (htie : |x.rational - q| = |y.rational - q|) : Even x.fractionBits

/-! ## Units grow with magnitudes -/

/-- The units of a number of steps, up to the beginning of the next larger steps. -/
theorem unitsOfMagnitude_steps {k c : Nat} (hc : c ≤ twoPow 53) (hk : k = 0 ∨ twoPow 52 ≤ c) :
    unitsOfMagnitude (k * twoPow 52 + c) = c * twoPow k := by
  have h52 : twoPow 52 = 4503599627370496 := rfl
  have h53 : twoPow 53 = 9007199254740992 := rfl
  unfold unitsOfMagnitude
  rcases Nat.lt_or_ge c (twoPow 52) with hsmall | hlarge
  · obtain rfl : k = 0 := hk.resolve_right (Nat.not_le.2 hsmall)
    rw [Nat.zero_mul, Nat.zero_add, if_pos hsmall]
    exact (Nat.mul_one c).symm
  rw [if_neg (Nat.not_lt.2 (Nat.le_add_left_of_le hlarge))]
  rcases Nat.lt_or_ge c (twoPow 53) with hlt | hge
  · have hdiv : (k * twoPow 52 + c) / twoPow 52 = k + 1 := by
      rw [h52] at hlarge ⊢
      omega
    have hmod : (k * twoPow 52 + c) % twoPow 52 = c - twoPow 52 := by
      rw [h52] at hlarge ⊢
      omega
    rw [hdiv, hmod, Nat.add_sub_cancel, Nat.add_sub_of_le hlarge]
  · obtain rfl : c = twoPow 53 := Nat.le_antisymm hc hge
    have hdiv : (k * twoPow 52 + twoPow 53) / twoPow 52 = k + 1 + 1 := by
      rw [h52, h53]
      omega
    have hmod : (k * twoPow 52 + twoPow 53) % twoPow 52 = 0 := by
      rw [h52, h53]
      omega
    have hexp : 52 + (k + 1) = 53 + k := by omega
    rw [hdiv, hmod, Nat.add_sub_cancel, Nat.add_zero, ← twoPow_add, ← twoPow_add, hexp]

/-- Larger magnitudes have more units. -/
theorem strictMono_unitsOfMagnitude : StrictMono unitsOfMagnitude := by
  refine strictMono_nat_of_lt_succ fun m => ?_
  obtain ⟨k, c, rfl, hunits, hc, hk⟩ := exists_steps m
  rw [hunits, Nat.add_assoc, unitsOfMagnitude_steps hc (hk.imp_right Nat.le_succ_of_le)]
  exact Nat.mul_lt_mul_of_pos_right (Nat.lt_succ_self c) (twoPow_pos k)

/-! ## The nearest magnitude -/

/-- How far a magnitude is from a number of units. -/
def distance (m : Nat) (t : ℚ) : ℚ := |(unitsOfMagnitude m : ℚ) - t|

/-- All other magnitudes are farther from a number of units, or as far and odd while this one is
even. -/
def NearestUnits (m : Nat) (t : ℚ) : Prop :=
  ∀ n, n ≠ m → distance m t < distance n t ∨ distance m t = distance n t ∧ Even m ∧ ¬Even n

section
variable {m n : Nat} {t : ℚ}

/-- The distance of a magnitude below a number of units. -/
theorem distance_of_le (h : unitsOfMagnitude m ≤ t) : distance m t = t - unitsOfMagnitude m := by
  rw [distance, abs_of_nonpos (sub_nonpos.2 h), neg_sub]

/-- The distance of a magnitude above a number of units. -/
theorem distance_of_ge (h : t ≤ unitsOfMagnitude m) : distance m t = unitsOfMagnitude m - t :=
  abs_of_nonneg (sub_nonneg.2 h)

/-- A smaller magnitude is farther from what is above. -/
theorem distance_lt_of_lt (h : n < m) (hlow : unitsOfMagnitude m ≤ t) :
    distance m t < distance n t := by
  have hunits : (unitsOfMagnitude n : ℚ) < unitsOfMagnitude m :=
    Nat.cast_lt.2 (strictMono_unitsOfMagnitude h)
  rw [distance_of_le hlow, distance_of_le (hunits.le.trans hlow)]
  exact sub_lt_sub_left hunits t

/-- A larger magnitude is farther from what is below. -/
theorem distance_lt_of_gt (h : m < n) (hhigh : t ≤ unitsOfMagnitude m) :
    distance m t < distance n t := by
  have hunits : (unitsOfMagnitude m : ℚ) < unitsOfMagnitude n :=
    Nat.cast_lt.2 (strictMono_unitsOfMagnitude h)
  rw [distance_of_ge hhigh, distance_of_ge (hhigh.trans hunits.le)]
  exact sub_lt_sub_right hunits t

/-- One of two neighbours around a number of units is nearest to it if it is nearer than the other
one, or as near and even. -/
theorem nearestUnits_of_neighbours {near far : Nat} (hlow : unitsOfMagnitude m ≤ t)
    (hhigh : t ≤ unitsOfMagnitude (m + 1))
    (hpair : near = m ∧ far = m + 1 ∨ near = m + 1 ∧ far = m)
    (hnear : distance near t < distance far t ∨ distance near t = distance far t ∧ Even near) :
    NearestUnits near t := by
  intro n hn
  by_cases hfar : n = far
  · subst hfar
    refine hnear.imp_right fun ⟨hequal, heven⟩ => ⟨hequal, heven, ?_⟩
    rcases hpair with ⟨rfl, rfl⟩ | ⟨rfl, rfl⟩
    · exact fun h => (Nat.even_add_one.1 h) heven
    · exact Nat.even_add_one.1 heven
  have hle : distance near t ≤ distance far t := hnear.elim le_of_lt fun h => h.1.le
  have hboth : distance near t ≤ distance m t ∧ distance near t ≤ distance (m + 1) t := by
    rcases hpair with ⟨rfl, rfl⟩ | ⟨rfl, rfl⟩
    · exact ⟨le_rfl, hle⟩
    · exact ⟨hle, le_rfl⟩
  rcases Nat.lt_or_ge n m with hlt | hge
  · exact .inl (hboth.1.trans_lt (distance_lt_of_lt hlt hlow))
  · exact .inl (hboth.2.trans_lt (distance_lt_of_gt (by omega) hhigh))

/-- Nothing but zero is nearest to no units. -/
theorem NearestUnits.eq_zero (h : NearestUnits m 0) : m = 0 := by
  have hdistance : ∀ n, distance n 0 = unitsOfMagnitude n := fun n => by
    rw [distance, sub_zero, Nat.abs_cast]
  have hnone : unitsOfMagnitude 0 = 0 := rfl
  by_contra hm
  have hpos : (0 : ℚ) < unitsOfMagnitude m :=
    Nat.cast_pos.2 (unitsOfMagnitude_pos (Nat.pos_of_ne_zero hm))
  rcases h 0 (Ne.symm hm) with hlt | ⟨hequal, -⟩
  · rw [hdistance, hdistance, hnone, Nat.cast_zero] at hlt
    exact absurd hlt hpos.le.not_gt
  · rw [hdistance, hdistance, hnone, Nat.cast_zero] at hequal
    exact absurd hequal hpos.ne'

/-- With the other sign a magnitude is no nearer. -/
theorem distance_le_add (m : Nat) (ht : 0 ≤ t) : distance m t ≤ unitsOfMagnitude m + t := by
  have hunits : (0 : ℚ) ≤ unitsOfMagnitude m := Nat.cast_nonneg _
  rw [distance, abs_le]
  constructor <;> linarith

/-- A nearest magnitude that is as near with the other sign has no units. -/
theorem NearestUnits.units_eq_zero (h : NearestUnits m t)
    (hother : distance m t = unitsOfMagnitude m + t) : (unitsOfMagnitude m : ℚ) = 0 := by
  rcases (abs_eq (hother ▸ abs_nonneg _)).1 hother with hplus | hminus
  · obtain rfl : t = 0 := by linarith
    rw [h.eq_zero]
    exact Nat.cast_zero
  · linarith

/-- Zero is nearest to less than half a unit. -/
theorem nearestUnits_zero (hnonneg : 0 ≤ t) (hhalf : 2 * t < 1) : NearestUnits 0 t := by
  have hnone : ((unitsOfMagnitude 0 : Nat) : ℚ) = 0 := Nat.cast_zero
  have hone : ((unitsOfMagnitude (0 + 1) : Nat) : ℚ) = 1 := Nat.cast_one
  have hhigh : t ≤ unitsOfMagnitude (0 + 1) := by
    rw [hone]
    linarith
  refine nearestUnits_of_neighbours (by rwa [hnone]) hhigh (.inl ⟨rfl, rfl⟩) (.inl ?_)
  rw [distance_of_le (by rwa [hnone]), distance_of_ge hhigh, hnone, hone]
  linarith

end

/-- A fraction is rounded between two neighbours, which are as many units apart as are in a step, to
the one that it is nearer to, and from the middle to the even one. -/
theorem exists_neighbours {num den : Nat} (hden : 0 < den)
    (hfinite : nearestMagnitude num den < infiniteMagnitude) :
    ∃ m step rest : Nat, (unitsOfMagnitude (m + 1) = unitsOfMagnitude m + step) ∧
      num = den * unitsOfMagnitude m + rest ∧ rest < den * step ∧
      nearestMagnitude num den = if 2 * rest < den * step then m
        else if den * step < 2 * rest then m + 1 else m + m % 2 := by
  obtain ⟨hlt, hle⟩ := lt_of_log2 (num / den)
  have hmin : ∀ a b : Nat, min a b < b → min a b = a := fun a b h => by omega
  simp only [nearestMagnitude] at hfinite ⊢
  rw [hmin _ _ hfinite]
  generalize (num / den).log2 - 52 = k at hlt hle ⊢
  have hsteps : num / (den * twoPow k) ≤ twoPow 53 ∧
      (k = 0 ∨ twoPow 52 ≤ num / (den * twoPow k)) ∧ num / (den * twoPow k) < twoPow 53 := by
    rw [← Nat.div_div_eq_div_mul]
    have hbound : num / den / twoPow k < twoPow 53 := by
      rw [Nat.div_lt_iff_lt_mul (twoPow_pos k), ← twoPow_add, Nat.add_comm]
      exact hlt
    refine ⟨hbound.le, hle.imp_right fun h => ?_, hbound⟩
    rw [Nat.le_div_iff_mul_le (twoPow_pos k), ← twoPow_add, Nat.add_comm]
    exact h
  obtain ⟨hc, hk, hbound⟩ := hsteps
  refine ⟨k * twoPow 52 + num / (den * twoPow k), twoPow k, num % (den * twoPow k), ?_, ?_, ?_, ?_⟩
  · rw [unitsOfMagnitude_steps hc hk, Nat.add_assoc,
      unitsOfMagnitude_steps hbound (hk.imp_right Nat.le_succ_of_le), Nat.succ_mul]
  · rw [unitsOfMagnitude_steps hc hk, Nat.mul_left_comm, Nat.mul_comm (num / _), Nat.div_add_mod]
  · exact Nat.mod_lt _ (Nat.mul_pos hden (twoPow_pos k))
  · have hparity : (k * twoPow 52 + num / (den * twoPow k)) % 2 = num / (den * twoPow k) % 2 := by
      rw [show twoPow 52 = 4503599627370496 from rfl]
      omega
    rw [hparity]
    simp only [roundHalfEven]
    split
    · rfl
    split <;> rw [Nat.add_assoc]

/-- The same by values: how much a fraction is above the smaller neighbour decides where it is
rounded to. -/
theorem exists_part {num den : Nat} (hden : 0 < den)
    (hfinite : nearestMagnitude num den < infiniteMagnitude) :
    ∃ (m step : Nat) (part : ℚ), (unitsOfMagnitude (m + 1) : ℚ) = unitsOfMagnitude m + step ∧
      (num / den : ℚ) = unitsOfMagnitude m + part ∧ 0 ≤ part ∧ part < step ∧
      nearestMagnitude num den = if 2 * part < step then m
        else if step < 2 * part then m + 1 else m + m % 2 := by
  obtain ⟨m, step, rest, hstep, hnum, hrest, hround⟩ := exists_neighbours hden hfinite
  have hpos : (0 : ℚ) < den := Nat.cast_pos.2 hden
  refine ⟨m, step, rest / den, ?_, ?_, by positivity, ?_, ?_⟩
  · rw [hstep, Nat.cast_add]
  · rw [hnum, Nat.cast_add, Nat.cast_mul, add_div, mul_div_cancel_left₀ _ hpos.ne']
  · rw [div_lt_iff₀ hpos, mul_comm]
    exact_mod_cast hrest
  · have hfirst : 2 * (rest / den : ℚ) < step ↔ 2 * rest < den * step := by
      rw [← mul_div_assoc, div_lt_iff₀ hpos, mul_comm (step : ℚ)]
      exact_mod_cast Iff.rfl
    have hsecond : (step : ℚ) < 2 * (rest / den) ↔ den * step < 2 * rest := by
      rw [← mul_div_assoc, lt_div_iff₀ hpos, mul_comm (step : ℚ)]
      exact_mod_cast Iff.rfl
    simp only [hround, hfirst, hsecond]

/-- The magnitude that a fraction is rounded to is nearest to it, unless it is infinite. -/
theorem nearestUnits_nearestMagnitude {num den : Nat} (hden : 0 < den)
    (hfinite : nearestMagnitude num den < infiniteMagnitude) :
    NearestUnits (nearestMagnitude num den) (num / den) := by
  obtain ⟨m, step, part, hnext, ht, hnonneg, hless, hround⟩ := exists_part hden hfinite
  have hlow : (unitsOfMagnitude m : ℚ) ≤ num / den := by linarith
  have hhigh : (num / den : ℚ) ≤ unitsOfMagnitude (m + 1) := by linarith
  have hbelow : distance m (num / den) = part := by
    rw [distance_of_le hlow, ht, add_sub_cancel_left]
  have habove : distance (m + 1) (num / den) = step - part := by
    rw [distance_of_ge hhigh, ht, hnext, add_sub_add_left_eq_sub]
  rw [hround]
  split
  · refine nearestUnits_of_neighbours hlow hhigh (.inl ⟨rfl, rfl⟩) (.inl ?_)
    linarith
  rename_i hfirst
  split
  · refine nearestUnits_of_neighbours hlow hhigh (.inr ⟨rfl, rfl⟩) (.inl ?_)
    linarith
  · rename_i hsecond
    have hhalf : 2 * part = step := le_antisymm (not_lt.1 hsecond) (not_lt.1 hfirst)
    rcases Nat.mod_two_eq_zero_or_one m with heven | hodd
    · rw [heven, Nat.add_zero]
      refine nearestUnits_of_neighbours hlow hhigh (.inl ⟨rfl, rfl⟩)
        (.inr ⟨?_, Nat.even_iff.2 heven⟩)
      linarith
    · rw [hodd]
      refine nearestUnits_of_neighbours hlow hhigh (.inr ⟨rfl, rfl⟩)
        (.inr ⟨?_, (Nat.odd_iff.2 hodd).add_one⟩)
      linarith

/-! ## From magnitudes to doubles -/

/-- The sign that a double is put together from is its sign. -/
theorem isNegative_ofMagnitude (negative : Bool) {m : Nat} (hm : m ≤ infiniteMagnitude) :
    (ofMagnitude negative m).isNegative = negative := by
  have hlt : m < 9223372036854775808 := Nat.lt_of_le_of_lt hm (by decide)
  have h63 : twoPow 63 = 9223372036854775808 := rfl
  rw [isNegative, toNat_bits_ofMagnitude negative hm, h63]
  cases negative with
  | false => exact decide_eq_false (Nat.not_le.2 hlt)
  | true => exact decide_eq_true (Nat.le_add_right _ _)

/-- A fraction is even if the magnitude is. -/
theorem even_fractionBits (x : Binary64) : Even x.fractionBits ↔ Even x.magnitude := by
  rw [x.magnitude_eq, Nat.even_add, Nat.even_mul]
  have h52 : Even (twoPow 52) := by decide
  simp [h52]

/-- A number of units with a sign, as a rational. -/
def signed (negative : Bool) (t : ℚ) : ℚ := (if negative then -t else t) / one

/-- No units are zero with either sign. -/
theorem signed_zero (negative : Bool) : signed negative 0 = 0 := by
  rw [signed, neg_zero, ite_self, zero_div]

/-- A double denotes the units of its magnitude with its sign. -/
theorem rational_eq_signed (x : Binary64) :
    x.rational = signed x.isNegative (unitsOfMagnitude x.magnitude) := by
  rw [rational_eq, units, signed]
  split <;> push_cast <;> rfl

/-- How far two numbers with signs are from each other. -/
theorem abs_sub_of_signs {u t : ℚ} (hu : 0 ≤ u) (ht : 0 ≤ t) (minus negative : Bool) :
    |(if minus then -u else u) - (if negative then -t else t)| =
      if minus = negative then |u - t| else u + t := by
  have hsum := abs_of_nonneg (add_nonneg hu ht)
  cases minus <;> cases negative <;> simp only [if_true, if_false, reduceCtorEq, Bool.false_eq_true]
  · rw [sub_neg_eq_add, hsum]
  · rw [← neg_add', abs_neg, hsum]
  · rw [neg_sub_neg, abs_sub_comm]

section
variable {x y : Binary64} {t : ℚ}

/-- How far a double is from a number of units with a sign. -/
theorem abs_rational_sub (y : Binary64) (negative : Bool) (ht : 0 ≤ t) :
    |y.rational - signed negative t| = (if y.isNegative = negative then distance y.magnitude t
      else unitsOfMagnitude y.magnitude + t) / one := by
  have hone : (0 : ℚ) < one := Nat.cast_pos.2 Binary64.one_pos
  rw [rational_eq_signed, signed, signed, ← sub_div, abs_div, abs_of_pos hone,
    abs_sub_of_signs (Nat.cast_nonneg _) ht, distance]

/-- Every double is farther from a number than one whose magnitude is nearest to it, or denotes the
same, or is as far with an odd fraction while that one has an even one. -/
theorem farther_or_same_or_tied (hx : NearestUnits x.magnitude t) (ht : 0 ≤ t) (y : Binary64) :
    |x.rational - signed x.isNegative t| < |y.rational - signed x.isNegative t| ∨
      y.rational = x.rational ∨
      |x.rational - signed x.isNegative t| = |y.rational - signed x.isNegative t| ∧
        Even x.fractionBits ∧ ¬Even y.fractionBits := by
  have hone : (0 : ℚ) < one := Nat.cast_pos.2 Binary64.one_pos
  rw [abs_rational_sub x _ ht, abs_rational_sub y _ ht, if_pos rfl,
    div_lt_div_iff_of_pos_right hone, div_left_inj' hone.ne', even_fractionBits, even_fractionBits]
  by_cases hsign : y.isNegative = x.isNegative
  · rw [if_pos hsign]
    by_cases hsame : y.magnitude = x.magnitude
    · exact .inr (.inl (by rw [rational_eq_signed, rational_eq_signed, hsign, hsame]))
    · exact (hx _ hsame).imp_right .inr
  rw [if_neg hsign]
  rcases (distance_le_add y.magnitude ht).lt_or_eq with hfarther | hother
  · refine .inl (lt_of_le_of_lt ?_ hfarther)
    by_cases hsame : y.magnitude = x.magnitude
    · rw [hsame]
    · exact (hx _ hsame).elim le_of_lt fun h => h.1.le
  · rw [← hother]
    by_cases hsame : y.magnitude = x.magnitude
    · rw [hsame] at hother
      have hnone := hx.units_eq_zero hother
      refine .inr (.inl ?_)
      rw [rational_eq_signed, rational_eq_signed, hsame, hnone, signed_zero, signed_zero]
    · exact (hx _ hsame).imp_right .inr

/-- A finite double whose magnitude is nearest to a number is nearest to it. -/
theorem nearest_of_nearestUnits (hx : NearestUnits x.magnitude t) (ht : 0 ≤ t)
    (hfinite : x.isFinite = true) : x.Nearest (signed x.isNegative t) where
  finite := hfinite
  near y _ := by
    rcases farther_or_same_or_tied hx ht y with hlt | hsame | ⟨htied, -⟩
    · exact hlt.le
    · rw [hsame]
    · exact htied.le
  even y _ hne htie := by
    rcases farther_or_same_or_tied hx ht y with hlt | hsame | ⟨-, heven, -⟩
    · exact absurd htie hlt.ne
    · exact absurd hsame hne
    · exact heven

/-- Every other double that is nearest to that number denotes the same. -/
theorem Nearest.rational_eq (hx : NearestUnits x.magnitude t) (ht : 0 ≤ t)
    (hfinite : x.isFinite = true) (hy : y.Nearest (signed x.isNegative t)) :
    y.rational = x.rational := by
  rcases farther_or_same_or_tied hx ht y with hlt | hsame | ⟨htied, -, hodd⟩
  · exact absurd (hy.near x hfinite) hlt.not_ge
  · exact hsame
  · by_contra hne
    exact hodd (hy.even x hfinite (Ne.symm hne) htied.symm)

end

end Binary64

namespace Decimal

open Binary64

/-- The rational that a decimal fraction is. -/
def rational (d : Decimal) : ℚ :=
  (if d.negative then -(d.digits : ℚ) else d.digits) * 10 ^ d.exponent

/-- The number of units in a decimal fraction without its sign. -/
def unsignedUnits (d : Decimal) : ℚ := d.digits * 10 ^ d.exponent * one

/-- There are no fewer than none. -/
theorem unsignedUnits_nonneg (d : Decimal) : 0 ≤ d.unsignedUnits := by
  unfold unsignedUnits
  positivity

/-- A decimal fraction is its units with its sign. -/
theorem rational_eq_signed (d : Decimal) : d.rational = signed d.negative d.unsignedUnits := by
  have hone : (one : ℚ) ≠ 0 := Nat.cast_ne_zero.2 (Nat.ne_of_gt Binary64.one_pos)
  rw [rational, signed, unsignedUnits]
  split
  · rw [neg_mul, neg_div, mul_div_cancel_right₀ _ hone]
  · rw [mul_div_cancel_right₀ _ hone]

/-- A power of ten as a rational. -/
theorem cast_tenPow (k : ℕ) : ((tenPow k : ℕ) : ℚ) = 10 ^ k := Nat.cast_pow 10 k

/-- A power of ten as a fraction of powers of ten with natural exponents. -/
theorem zpow_eq_div (e : ℤ) : (10 : ℚ) ^ e = (tenPow e.toNat : ℕ) / (tenPow (-e).toNat : ℕ) := by
  rw [cast_tenPow, cast_tenPow]
  obtain ⟨n, rfl | rfl⟩ := e.eq_nat_or_neg
  · rw [Int.toNat_natCast, Int.toNat_neg_natCast, zpow_natCast, pow_zero, div_one]
  · rw [neg_neg, Int.toNat_natCast, Int.toNat_neg_natCast, zpow_neg, zpow_natCast, pow_zero,
      one_div]

/-- What is below the guard is less than half a unit. -/
theorem two_mul_unsignedUnits_lt {d : Decimal}
    (hmin : digitCount d.digits + d.exponent ≤ -324) : 2 * d.unsignedUnits < 1 := by
  obtain ⟨k, hk⟩ : ∃ k : ℕ, k = 324 := ⟨_, rfl⟩
  have hlimit : 2 * one ≤ tenPow k := by
    rw [hk]
    decide +kernel
  have hdigits : d.digits < tenPow (digitCount d.digits) :=
    (Nat.length_toDigits_le_iff (by decide) (digitCount_pos _)).1 le_rfl
  have hten : (0 : ℚ) < 10 := by norm_num
  have hone : (0 : ℚ) < 2 * one := mul_pos two_pos (Nat.cast_pos.2 Binary64.one_pos)
  have hexp : (digitCount d.digits : ℤ) + d.exponent ≤ -(k : ℤ) := by omega
  calc 2 * d.unsignedUnits
      = 2 * one * (d.digits * 10 ^ d.exponent) := by
        rw [unsignedUnits, mul_comm _ (one : ℚ), mul_assoc]
    _ < 2 * one * (10 ^ (digitCount d.digits : ℤ) * 10 ^ d.exponent) := by
        refine mul_lt_mul_of_pos_left ?_ hone
        refine mul_lt_mul_of_pos_right ?_ (zpow_pos hten _)
        rw [zpow_natCast, ← cast_tenPow]
        exact Nat.cast_lt.2 hdigits
    _ = 2 * one * 10 ^ ((digitCount d.digits : ℤ) + d.exponent) := by rw [zpow_add₀ hten.ne']
    _ ≤ 2 * one * 10 ^ (-(k : ℤ)) :=
        mul_le_mul_of_nonneg_left (zpow_le_zpow_right₀ (by norm_num) hexp) hone.le
    _ ≤ 10 ^ k * 10 ^ (-(k : ℤ)) := by
        refine mul_le_mul_of_nonneg_right ?_ (zpow_pos hten _).le
        rw [← cast_tenPow]
        exact_mod_cast hlimit
    _ = 1 := by rw [← zpow_natCast, ← zpow_add₀ hten.ne', add_neg_cancel, zpow_zero]

/-- A decimal fraction is read as a double of its sign, whose magnitude is nearest to it unless it
is infinite. -/
theorem exists_magnitude (d : Decimal) : ∃ m, m ≤ infiniteMagnitude ∧
    d.toBinary64 = ofMagnitude d.negative m ∧
      (m < infiniteMagnitude → NearestUnits m d.unsignedUnits) := by
  rcases Nat.eq_zero_or_pos d.digits with hzero | hdigits
  · have hnone : d.unsignedUnits = 0 := by
      rw [unsignedUnits, hzero, Nat.cast_zero, zero_mul, zero_mul]
    refine ⟨0, Nat.zero_le _, if_pos hzero, fun _ => ?_⟩
    exact nearestUnits_zero hnone.ge (by rw [hnone, mul_zero]; exact zero_lt_one)
  by_cases hmax : d.exponent < 309
  · by_cases hmin : -324 < digitCount d.digits + d.exponent
    · refine ⟨_, nearestMagnitude_le _ _, toBinary64_eq hdigits hmax hmin, fun hfinite => ?_⟩
      have hnearest := nearestUnits_nearestMagnitude (tenPow_pos _) hfinite
      rw [Nat.cast_mul, Nat.cast_mul] at hnearest
      rwa [unsignedUnits, zpow_eq_div, ← mul_div_assoc, div_mul_eq_mul_div]
    · have hsmall := two_mul_unsignedUnits_lt (Int.not_lt.1 hmin)
      refine ⟨0, Nat.zero_le _, ?_, fun _ => nearestUnits_zero d.unsignedUnits_nonneg hsmall⟩
      rw [toBinary64, if_neg hdigits.ne', if_neg (by omega), if_pos (Int.not_lt.1 hmin)]
  · refine ⟨infiniteMagnitude, le_rfl, ?_, fun h => absurd h (lt_irrefl _)⟩
    rw [toBinary64, if_neg hdigits.ne', if_pos (by omega)]

section
variable {d : Decimal} (hfinite : d.toBinary64.isFinite = true)

include hfinite

/-- What a decimal fraction is read as is nearest to it by its magnitude, with its sign. -/
theorem nearestUnits_toBinary64 : d.toBinary64.isNegative = d.negative ∧
    NearestUnits d.toBinary64.magnitude d.unsignedUnits := by
  obtain ⟨m, hm, hread, hnearest⟩ := d.exists_magnitude
  rw [hread, isFinite, magnitude_ofMagnitude _ hm, decide_eq_true_eq] at hfinite
  rw [hread, isNegative_ofMagnitude _ hm, magnitude_ofMagnitude _ hm]
  exact ⟨rfl, hnearest hfinite⟩

/-- What a decimal fraction is read as is nearest to it, if it is finite. -/
theorem nearest_toBinary64 : d.toBinary64.Nearest d.rational := by
  obtain ⟨hsign, hnearest⟩ := nearestUnits_toBinary64 hfinite
  rw [rational_eq_signed, ← hsign]
  exact nearest_of_nearestUnits hnearest d.unsignedUnits_nonneg hfinite

/-- Whatever is nearest to a decimal fraction denotes the same as what it is read as. -/
theorem rational_eq_of_nearest {x : Binary64} (hx : x.Nearest d.rational) :
    x.rational = d.toBinary64.rational := by
  obtain ⟨hsign, hnearest⟩ := nearestUnits_toBinary64 hfinite
  rw [rational_eq_signed, ← hsign] at hx
  exact hx.rational_eq hnearest d.unsignedUnits_nonneg hfinite

end

end Decimal

end PathQuery
