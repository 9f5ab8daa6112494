import PathQuery.Number
import PathQuery.Proofs.Binary64.Basic

/-!
# Numbers are compared by value

Every number that is one has a value, counted in units of the smallest double (`Number.value`).
`compare?_eq` says that numbers of either kind are ordered by these values and by nothing else: no
integer is rounded, and the whole part that a double is cut to does not lose what decides.
-/

namespace PathQuery.Number

open Binary64

/-- Whether a number is none. -/
def isNaN : Number → Bool
  | .int _ => false
  | .float x => x.isNaN

/-- The value of a number, counted in units of the smallest double. -/
def value : Number → Int
  | .int n => n.toInt * one
  | .float x => x.units

/-! ## Whole parts -/

section
variable {unit : Int} (hunit : 0 < unit)

include hunit

/-- A smaller number of units is smaller by a unit at least. -/
theorem mul_add_le_of_lt {a b : Int} (h : a < b) : a * unit + unit ≤ b * unit := by
  have := Int.mul_le_mul_of_nonneg_right (Int.add_one_le_of_lt h) (Int.le_of_lt hunit)
  rwa [Int.add_mul, Int.one_mul] at this

/-- The whole part of a number within limits is within these limits. -/
theorem tdiv_mem {limit u : Int} (hlimit : 0 < limit) (hlow : -(limit * unit) ≤ u)
    (hhigh : u < limit * unit) : -limit ≤ u.tdiv unit ∧ u.tdiv unit < limit := by
  have hsplit := Int.tdiv_mul_add_tmod u unit
  have hmax := Int.tmod_lt_of_pos u hunit
  have hnonneg : 0 ≤ u → 0 ≤ u.tmod unit := Int.tmod_nonneg unit
  generalize u.tdiv unit = t at *
  refine ⟨?_, ?_⟩
  · rcases Int.lt_or_le t (-limit) with hlt | hle
    · have := mul_add_le_of_lt hunit hlt
      rw [Int.neg_mul] at this
      omega
    · exact hle
  · rcases Int.lt_or_le t limit with hlt | hle
    · exact hlt
    · have hmul := Int.mul_le_mul_of_nonneg_right hle (Int.le_of_lt hunit)
      have hpos := Int.mul_pos hlimit hunit
      have hstep := mul_add_le_of_lt hunit (show 0 < t by omega)
      have hmin := Int.lt_tmod_of_pos u hunit
      omega

/-- An integer and a number are in the order of the integer and the whole part of the number, or
else of zero and what the number has beyond that. -/
theorem compare_whole (m u : Int) :
    (match compare m (u.tdiv unit) with
      | .eq => compare 0 (u - u.tdiv unit * unit)
      | unequal => unequal) = compare (m * unit) u := by
  have hsplit := Int.tdiv_mul_add_tmod u unit
  have hmin := Int.lt_tmod_of_pos u hunit
  have hmax := Int.tmod_lt_of_pos u hunit
  generalize u.tdiv unit = t at *
  rcases Int.lt_trichotomy m t with hlt | rfl | hgt
  · have := mul_add_le_of_lt hunit hlt
    rw [Int.compare_eq_lt.2 hlt, Int.compare_eq_lt.2 (show m * unit < u by omega)]
  · simp only [Int.compare_eq_ite_lt, Int.lt_irrefl, if_false]
    have hlow : 0 < u - m * unit ↔ m * unit < u := by omega
    have hhigh : u - m * unit < 0 ↔ u < m * unit := by omega
    simp only [hlow, hhigh]
  · have := mul_add_le_of_lt hunit hgt
    rw [Int.compare_eq_gt.2 hgt, Int.compare_eq_gt.2 (show u < m * unit by omega)]

end

/-! ## The order -/

/-- There are units in one. -/
theorem zero_lt_one : (0 : Int) < one := by
  have h := one_pos
  omega

/-- Of a double within the limits of the integers the whole part is an integer of 64 bits. -/
theorem toInt_wholePart {x : Binary64} (hhigh : ¬intLimit ≤ x.units)
    (hlow : ¬x.units < -intLimit) : (wholePart x).toInt = x.units.tdiv one := by
  rw [intLimit] at hhigh hlow
  have hlimit : 0 < Text.int64Limit := by decide
  obtain ⟨hmin, hmax⟩ := tdiv_mem zero_lt_one hlimit (Int.not_lt.1 hlow) (Int.not_le.1 hhigh)
  exact Int64.toInt_ofInt_of_le hmin hmax

/-- An integer and a double are ordered by value. -/
theorem compareIntFloat?_eq (n : Int64) {x : Binary64} (hnan : x.isNaN = false) :
    compareIntFloat? n x = some (compare (n.toInt * one) x.units) := by
  have hone := zero_lt_one
  have hlow : -Text.int64Limit ≤ n.toInt := Int64.le_toInt n
  have hhigh : n.toInt < Text.int64Limit := Int64.toInt_lt n
  have hwhole := compare_whole hone n.toInt x.units
  unfold compareIntFloat?
  rw [hnan, if_neg (by decide)]
  split
  · rename_i hle
    have := mul_add_le_of_lt hone hhigh
    rw [intLimit] at hle
    rw [Int.compare_eq_lt.2 (show n.toInt * one < x.units by omega)]
  split
  · rename_i hlt
    have := Int.mul_le_mul_of_nonneg_right hlow (Int.le_of_lt hone)
    rw [Int.neg_mul] at this
    rw [intLimit] at hlt
    rw [Int.compare_eq_gt.2 (show x.units < n.toInt * one by omega)]
  · rename_i hle hlt
    rw [toInt_wholePart hle hlt, ← hwhole, fraction]
    cases compare n.toInt (x.units.tdiv one) <;> rfl

/-- Integers are ordered as their values are. -/
theorem compare_mul (m n : Int) : compare (m * one) (n * one) = compare m n := by
  simp only [Int.compare_eq_ite_lt, Int.mul_lt_mul_right zero_lt_one]

/-- Numbers are ordered by value, where both are numbers. -/
theorem compare?_eq (a b : Number) :
    a.compare? b = if a.isNaN || b.isNaN then none else some (compare a.value b.value) := by
  cases a with
  | int m =>
      cases b with
      | int n =>
          show some (compare m.toInt n.toInt) = some (compare (m.toInt * one) (n.toInt * one))
          rw [compare_mul]
      | float y =>
          show compareIntFloat? m y = if y.isNaN then none else _
          split
          · rename_i hnan
            rw [compareIntFloat?, if_pos hnan]
          · rename_i hnan
            exact compareIntFloat?_eq m (by simpa using hnan)
  | float x =>
      cases b with
      | int n =>
          show (compareIntFloat? n x).map Ordering.swap = _
          rw [isNaN, isNaN, Bool.or_false]
          split
          · rename_i hnan
            rw [compareIntFloat?, if_pos hnan]
            rfl
          · rename_i hnan
            rw [compareIntFloat?_eq n (by simpa using hnan), Option.map_some, Int.compare_swap]
            rfl
      | float y => rfl

/-- A number compares alike with numbers of one value. -/
theorem compare?_congr {b c : Number} (hb : b.isNaN = false) (hc : c.isNaN = false)
    (h : b.value = c.value) (a : Number) : a.compare? b = a.compare? c := by
  rw [compare?_eq, compare?_eq, hb, hc, h]

end PathQuery.Number
