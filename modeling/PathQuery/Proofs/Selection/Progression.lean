import PathQuery.Proofs.Selection.Position
import PathQuery.Proofs.Selection.Slice

/-!
# A slice is an arithmetic progression

Among the integers a slice has a first place, a place behind its last one and a distance
(`Slice.first`, `Slice.last`, `Slice.distance`): a bound that counts from the end is taken off the
length, and one beyond either end of the array is moved there. `Slice.mem_places_iff` says that the
places of a slice are the numbers between the two at multiples of the distance, so that bounds of
64 bits and what is computed from them stand for these integers (`Slice.places_progression`).
-/

namespace PathQuery

open Text

/-- A progression consists of the numbers from its start up to its end that are multiples of its
step away from the start. -/
theorem mem_progression_iff {start stop step p : Nat} (h : 0 < step) :
    p ∈ progression start stop step ↔ start ≤ p ∧ p < stop ∧ step ∣ p - start := by
  have hcount : ∀ k, k < (stop - start + (step - 1)) / step ↔ start + step * k < stop := by
    intro k
    rw [← Nat.succ_le_iff, Nat.le_div_iff_mul_le h, Nat.succ_mul, Nat.mul_comm k step]
    omega
  simp only [progression, List.mem_map, List.mem_range, hcount]
  constructor
  · rintro ⟨k, hk, rfl⟩
    exact ⟨Nat.le_add_right _ _, hk, by rw [Nat.add_sub_cancel_left]; exact Nat.dvd_mul_right _ _⟩
  · rintro ⟨hstart, hstop, k, hk⟩
    have hp : start + step * k = p := by omega
    exact ⟨k, hp ▸ hstop, hp⟩

/-- The same among the integers. -/
theorem mem_progression_toNat_iff {start stop step : Int} {p : Nat} (hstart : 0 ≤ start)
    (hstep : 0 < step) : p ∈ progression start.toNat stop.toNat step.toNat ↔
      start ≤ p ∧ (p : Int) < stop ∧ step ∣ p - start := by
  obtain ⟨a, rfl⟩ := Int.eq_ofNat_of_zero_le hstart
  obtain ⟨d, rfl⟩ := Int.eq_ofNat_of_zero_le (Int.le_of_lt hstep)
  rw [mem_progression_iff (by omega), Int.toNat_natCast, Int.toNat_natCast, Int.ofNat_le]
  refine and_congr_right fun ha => and_congr (by omega) ?_
  rw [← Int.ofNat_sub ha, Int.natCast_dvd_natCast]

namespace Slice

/-- The place of a bound, moved into the array of the given length. -/
def within (length : Nat) (bound : Int64) : Int := max 0 (min (placeOf length bound) length)

/-- The first place of a slice in an array of the given length. -/
def first (s : Slice) (length : Nat) : Int := (s.start.map (within length)).getD 0

/-- The place behind a slice in an array of the given length. -/
def last (s : Slice) (length : Nat) : Int := (s.stop.map (within length)).getD length

/-- The distance from one place of a slice to the next. -/
def distance (s : Slice) : Int := (s.step.map Int64.toInt).getD 1

/-- The larger of two integers of 64 bits is the larger one. -/
theorem toInt_max (a b : Int64) : (max a b).toInt = max a.toInt b.toInt := by
  have hmax : max a b = if a ≤ b then b else a := rfl
  rw [hmax, Int.max_def, apply_ite Int64.toInt]
  simp only [Int64.le_iff_toInt_le]

/-- The smaller of two integers of 64 bits is the smaller one. -/
theorem toInt_min (a b : Int64) : (min a b).toInt = min a.toInt b.toInt := by
  have hmin : min a b = if a ≤ b then a else b := rfl
  rw [hmin, Int.min_def, apply_ite Int64.toInt]
  simp only [Int64.le_iff_toInt_le]

/-- A bound is moved into the array to where its place is among the integers. -/
theorem clampBound_eq {length : Nat} {n : Int64} (h : lengthInt64? length = some n)
    (bound : Int64) : (clampBound n bound : Int) = within length bound := by
  have hlength := lengthInt64?_eq_some_iff.1 h
  rw [clampBound, within, placeOf]
  by_cases hbound : bound < 0
  · have hsum := toInt_add_of_neg (nonneg_of_lengthInt64? h) hbound
    have hbelow := neg_iff_toInt_neg.1 hbound
    rw [if_pos hbound, if_pos hbelow]
    rw [toInt_max, hsum, Int64.toInt_zero, hlength]
    omega
  · have habove : ¬bound.toInt < 0 := fun hlt => hbound (neg_iff_toInt_neg.2 hlt)
    rw [if_neg hbound, if_neg habove]
    rw [toInt_min, hlength]
    omega

variable {s : Slice} {length : Nat}

/-- The first place of a slice is within the array. -/
theorem first_mem (s : Slice) (length : Nat) : 0 ≤ s.first length ∧ s.first length ≤ length := by
  rw [first]
  cases s.start with
  | none => exact ⟨Int.le_refl 0, Int.natCast_nonneg length⟩
  | some bound =>
      rw [Option.map_some, Option.getD_some, within]
      omega

/-- No place of a slice is behind the array. -/
theorem last_le (s : Slice) (length : Nat) : s.last length ≤ length := by
  rw [last]
  cases s.stop with
  | none => exact Int.le_refl _
  | some bound =>
      rw [Option.map_some, Option.getD_some, within]
      omega

/-- The distance of a slice is its step. -/
theorem toInt_step (s : Slice) : (s.step.getD 1).toInt = s.distance := by
  rw [distance]
  cases s.step with
  | none => rfl
  | some step => rfl

/-- A distance leads nowhere as the step does. -/
theorem step_nonpos_iff (s : Slice) : s.step.getD 1 ≤ 0 ↔ s.distance ≤ 0 := by
  rw [Int64.le_iff_toInt_le, toInt_step, Int64.toInt_zero]

/-- In an array of a length that is kept, the places of a slice whose distance leads onwards are the
progression from its first place to the one behind its last. -/
theorem places_eq {n : Int64} (h : lengthInt64? length = some n) (hstep : 0 < s.distance) :
    s.places length =
      progression (s.first length).toNat (s.last length).toNat s.distance.toNat := by
  have hbound : ∀ bound, clampBound n bound = (within length bound).toNat := fun bound => by
    rw [← clampBound_eq h, Int.toNat_natCast]
  have hfirst : (s.start.map (clampBound n)).getD 0 = (s.first length).toNat := by
    rw [first]
    cases s.start with
    | none => rfl
    | some bound => exact hbound bound
  have hlast : (s.stop.map (clampBound n)).getD length = (s.last length).toNat := by
    rw [last]
    cases s.stop with
    | none => exact (Int.toNat_natCast length).symm
    | some bound => exact hbound bound
  have honwards : ¬s.step.getD 1 ≤ 0 := fun hle => absurd (s.step_nonpos_iff.1 hle) (by omega)
  rw [places, h]
  dsimp only
  rw [if_neg honwards, hfirst, hlast, toInt_step]

/-- A slice whose distance does not lead onwards has no places. -/
theorem places_eq_nil (hstep : s.distance ≤ 0) (length : Nat) : s.places length = [] := by
  rw [places]
  split
  · rfl
  · exact if_pos (s.step_nonpos_iff.2 hstep)

/-- In an array whose length does not fit 64 bits a slice has no places. -/
theorem places_of_length (s : Slice) (hlength : int64Limit ≤ length) : s.places length = [] := by
  have hnone : lengthInt64? length = none := if_neg (by rw [int64Limit] at hlength; omega)
  rw [places, hnone]

/-- A slice has the places of its progression if its distance leads onwards, and otherwise none. -/
theorem mem_places_iff {p : Nat} : p ∈ s.places length ↔
    (length : Int) < int64Limit ∧ 0 < s.distance ∧
      s.first length ≤ p ∧ (p : Int) < s.last length ∧ s.distance ∣ p - s.first length := by
  by_cases hfits : (length : Int) < int64Limit
  · obtain ⟨n, hn⟩ := exists_lengthInt64? hfits
    by_cases hstep : 0 < s.distance
    · rw [places_eq hn hstep, mem_progression_toNat_iff (s.first_mem length).1 hstep]
      exact ⟨fun h => ⟨hfits, hstep, h⟩, fun h => h.2.2⟩
    · rw [places_eq_nil (Int.not_lt.1 hstep)]
      exact iff_of_false List.not_mem_nil fun h => hstep h.2.1
  · rw [s.places_of_length (Int.not_lt.1 hfits)]
    exact iff_of_false List.not_mem_nil fun h => hfits h.1

/-- Every place of a slice is one within the array. -/
theorem lt_of_mem_places {p : Nat} (h : p ∈ s.places length) : p < length := by
  have hlast := (mem_places_iff.1 h).2.2.2.1
  have hlength := s.last_le length
  omega

/-- A slice picks from an array the element at each of its places, in the order of the places. -/
theorem map_some_elements (s : Slice) (xs : List Value) :
    (s.elements (.array xs)).map some = (s.places xs.length).map (xs[·]?) := by
  rw [elements, List.map_filterMap_some_eq_filter_map_isSome, List.filter_eq_self]
  intro x hx
  obtain ⟨p, hp, rfl⟩ := List.mem_map.1 hx
  rw [List.getElem?_eq_getElem (lt_of_mem_places hp), Option.isSome_some]

/-- In an array whose length fits 64 bits a slice has no places if its distance does not lead
onwards. Otherwise its places increase and are the numbers from its first place up to its end that
are multiples of its distance away from the first one. They are all within the array, no bound
overflows on the way, and the elements there are what the slice picks, in this order. -/
theorem places_progression (s : Slice) {length : Nat} (hlength : (length : Int) < int64Limit) :
    (s.distance ≤ 0 → s.places length = []) ∧
      (0 < s.distance → (s.places length).Pairwise (· < ·) ∧
        ∀ p : Nat, p ∈ s.places length ↔
          s.first length ≤ p ∧ (p : Int) < s.last length ∧ s.distance ∣ p - s.first length) ∧
      (∀ p ∈ s.places length, p < length) ∧
      (∃ n, lengthInt64? length = some n ∧ n.toInt = length ∧
        ∀ bound : Int64, (bound < 0 → (n + bound).toInt = n.toInt + bound.toInt) ∧
          (clampBound n bound : Int) = within length bound) ∧
      ∀ (root : Value) (config : Config) (xs : List Value), xs.length = length →
        ∃ found, Selector.apply root config [.array xs] (.slice s) = .ok found ∧
          found.map some = (s.places length).map (xs[·]?) := by
  obtain ⟨n, hn⟩ := exists_lengthInt64? hlength
  refine ⟨fun hstep => places_eq_nil hstep length, fun hstep => ⟨s.pairwise_places length, ?_⟩,
    fun p => lt_of_mem_places, ⟨n, hn, lengthInt64?_eq_some_iff.1 hn, fun bound => ?_⟩, ?_⟩
  · intro p
    rw [mem_places_iff]
    exact ⟨fun h => h.2.2, fun h => ⟨hlength, hstep, h⟩⟩
  · exact ⟨toInt_add_of_neg (nonneg_of_lengthInt64? hn), clampBound_eq hn bound⟩
  · rintro root config xs rfl
    exact ⟨_, rfl, by rw [List.flatMap_singleton, map_some_elements]⟩

/-- The last place but one, at the greatest length and the greatest distance that there are. -/
theorem places_progression_limits :
    ((9223372036854775807 : Nat) : Int) < int64Limit ∧
      0 < (Slice.mk (some (-2)) none (some Int64.maxValue)).distance ∧
      ∀ p : Nat, p ∈ (Slice.mk (some (-2)) none (some Int64.maxValue)).places 9223372036854775807 ↔
        9223372036854775805 ≤ (p : Int) ∧ (p : Int) < 9223372036854775807 ∧
          9223372036854775807 ∣ (p : Int) - 9223372036854775805 := by
  have hlength : ((9223372036854775807 : Nat) : Int) < int64Limit := by decide
  have hstep : 0 < (Slice.mk (some (-2)) none (some Int64.maxValue)).distance := by decide
  exact ⟨hlength, hstep, ((places_progression _ hlength).2.1 hstep).2⟩

end Slice

end PathQuery
