import PathQuery.Proofs.Text.Integer
import PathQuery.Selection.Basic

/-!
# Positions in an array

A position that counts from the end is added to the length of the array in 64 bits. The length is
not negative, so that the sum fits 64 bits if the length does (`toInt_add_of_neg`), and a position
stands for the place that it has among the integers (`resolvePosition?_eq_some_iff`). In an array
whose length does not fit it stands for none.
-/

namespace PathQuery

open Text

/-! ## Sums -/

/-- An integer of 64 bits is negative as the integer it stands for is. -/
theorem neg_iff_toInt_neg {i : Int64} : i < 0 ↔ i.toInt < 0 := by
  rw [Int64.lt_iff_toInt_lt, Int64.toInt_zero]

/-- An integer of 64 bits is positive as the integer it stands for is. -/
theorem pos_iff_toInt_pos {i : Int64} : 0 < i ↔ 0 < i.toInt := by
  rw [Int64.lt_iff_toInt_lt, Int64.toInt_zero]

/-- An integer of 64 bits is not negative as the integer it stands for is not. -/
theorem nonneg_iff_toInt_nonneg {i : Int64} : 0 ≤ i ↔ 0 ≤ i.toInt := by
  rw [Int64.le_iff_toInt_le, Int64.toInt_zero]

/-- A sum that fits 64 bits is the sum of the integers. -/
theorem toInt_add_of_fits {a b : Int64} (hmin : -int64Limit ≤ a.toInt + b.toInt)
    (hmax : a.toInt + b.toInt < int64Limit) : (a + b).toInt = a.toInt + b.toInt := by
  have hsum : a + b = Int64.ofInt (a.toInt + b.toInt) := by
    rw [Int64.ofInt_add, Int64.ofInt_toInt, Int64.ofInt_toInt]
  rw [hsum, Int64.toInt_ofInt_of_le hmin hmax]

/-- The opposite of an integer that is not negative fits 64 bits if the integer does. -/
theorem toInt_neg_of_nonneg {n : Int64} (h : 0 ≤ n) : (-n).toInt = -n.toInt := by
  have hnonneg := nonneg_iff_toInt_nonneg.1 h
  have hmax := n.toInt_lt
  have hneg : -n = Int64.ofInt (-n.toInt) := by rw [Int64.ofInt_neg, Int64.ofInt_toInt]
  rw [hneg, Int64.toInt_ofInt_of_le (by omega) (by omega)]

/-- The opposite of a positive integer fits 64 bits if the integer does. -/
theorem toInt_neg_of_pos {n : Int64} (h : 0 < n) : (-n).toInt = -n.toInt :=
  toInt_neg_of_nonneg (Int64.le_of_lt h)

/-- A negative integer added to one that is not negative overflows nothing. -/
theorem toInt_add_of_neg {n i : Int64} (hn : 0 ≤ n) (hi : i < 0) :
    (n + i).toInt = n.toInt + i.toInt := by
  have hn := nonneg_iff_toInt_nonneg.1 hn
  have hi := neg_iff_toInt_neg.1 hi
  have hmax := n.toInt_lt
  have hmin := i.le_toInt
  exact toInt_add_of_fits (by rw [int64Limit]; omega) (by rw [int64Limit]; omega)

/-! ## Lengths -/

/-- A length that fits 64 bits is kept as it is, and no other is. -/
theorem lengthInt64?_eq_some_iff {length : Nat} {n : Int64} :
    lengthInt64? length = some n ↔ n.toInt = length := by
  rw [lengthInt64?]
  constructor
  · intro h
    split at h
    · rename_i hfits
      cases h
      exact Int64.toInt_ofNat_of_lt hfits
    · cases h
  · intro h
    have hmax := n.toInt_lt
    rw [if_pos (by omega), ← Int64.toInt_inj.1 (h.trans (Int64.toInt_ofNat_of_lt (by omega)).symm)]

/-- A length that is kept is not negative. -/
theorem nonneg_of_lengthInt64? {length : Nat} {n : Int64} (h : lengthInt64? length = some n) :
    0 ≤ n := by
  rw [nonneg_iff_toInt_nonneg, lengthInt64?_eq_some_iff.1 h]
  exact Int.natCast_nonneg length

/-- Every length that fits 64 bits is kept. -/
theorem exists_lengthInt64? {length : Nat} (h : (length : Int) < int64Limit) :
    ∃ n, lengthInt64? length = some n := by
  rw [int64Limit] at h
  exact ⟨_, if_pos (by omega)⟩

/-! ## Places -/

/-- The place that a position has among the integers, in an array of the given length. -/
def placeOf (length : Nat) (i : Int64) : Int := if i.toInt < 0 then length + i.toInt else i.toInt

/-- A position is computed without overflow. -/
theorem toInt_place {length : Nat} {n : Int64} (h : lengthInt64? length = some n) (i : Int64) :
    (if i < 0 then n + i else i).toInt = placeOf length i := by
  rw [placeOf]
  split
  · rename_i hi
    rw [if_pos (neg_iff_toInt_neg.1 hi), toInt_add_of_neg (nonneg_of_lengthInt64? h) hi,
      lengthInt64?_eq_some_iff.1 h]
  · rename_i hi
    rw [if_neg fun hlt => hi (neg_iff_toInt_neg.2 hlt)]

/-- In an array of a length that is kept, a position is resolved among the integers. -/
theorem resolvePosition?_eq {length : Nat} {n : Int64} (h : lengthInt64? length = some n)
    (i : Int64) : resolvePosition? length i =
      if 0 ≤ placeOf length i ∧ placeOf length i < length then some (placeOf length i).toNat
      else none := by
  have hplace := toInt_place h i
  rw [resolvePosition?, h, Option.bind_some]
  generalize (if i < 0 then n + i else i) = place at hplace
  simp only [nonneg_iff_toInt_nonneg, Int64.lt_iff_toInt_lt, hplace, lengthInt64?_eq_some_iff.1 h]

/-- A position stands for its place, if that is one within the array. -/
theorem resolvePosition?_eq_some_iff {length p : Nat} {i : Int64} :
    resolvePosition? length i = some p ↔
      (length : Int) < int64Limit ∧ placeOf length i = p ∧ p < length := by
  by_cases hfits : (length : Int) < int64Limit
  · obtain ⟨n, hn⟩ := exists_lengthInt64? hfits
    rw [resolvePosition?_eq hn, Option.ite_none_right_eq_some, Option.some.injEq]
    omega
  · have hnone : lengthInt64? length = none := if_neg (by rw [int64Limit] at hfits; omega)
    rw [resolvePosition?, hnone]
    exact iff_of_false nofun fun h => hfits h.1

end PathQuery
