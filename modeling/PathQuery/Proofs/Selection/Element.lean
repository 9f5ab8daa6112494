import Mathlib.Data.List.Sort
import PathQuery.Proofs.Selection.Basic
import PathQuery.Proofs.Selection.Progression
import PathQuery.Proofs.Selection.Script

/-!
# One element in three ways

An element is picked by its position, by a slice from that position up to the next one, and, if the
position counts from the end, by a script that takes as much off the length. The three compute its
place each in its own way: a position that is out of range picks nothing, a bound that is out of
range is moved into the array, and a sum that is out of range stays at the limits of 64 bits.
`apply_element` says that they come to the same for every array and every distance.
-/

namespace PathQuery

open Text Expression

/-! ## Slices -/

namespace Slice

variable {s : Slice} {i : Int64}

/-- A slice that has the place of a position and no other picks what the position does. -/
theorem elements_eq_pickElements
    (h : ∀ length p, p ∈ s.places length ↔ resolvePosition? length i = some p) (config : Config)
    (v : Value) : s.elements v = v.pickElements config [i] := by
  cases v with
  | object | scalar | host => rfl
  | array xs =>
      have hplaces : s.places xs.length = (resolvePosition? xs.length i).toList := by
        refine (s.pairwise_places xs.length).eq_of_mem_iff ?_ fun p => ?_
        · cases resolvePosition? xs.length i <;> simp
        · rw [h, Option.mem_toList]
      show _ = (Value.array xs).pick config [.position i]
      rw [elements, hplaces, Value.pick_singleton, Value.get?]
      cases resolvePosition? xs.length i with
      | none => rfl
      | some p => cases hx : xs[p]? <;> simp [hx]

/-- From a position up to the next one a slice has the place of that position. The position behind
the last one has no number that counts from the end. -/
theorem mem_places_next {j : Int64} (hj : j.toInt = i.toInt + 1) (hi : i.toInt ≠ -1)
    (length p : Nat) :
    p ∈ (Slice.mk (some i) (some j) none).places length ↔ resolvePosition? length i = some p := by
  rw [mem_places_iff, resolvePosition?_eq_some_iff]
  simp only [distance, first, last, within, placeOf, hj, Option.map_some, Option.map_none,
    Option.getD_some, Option.getD_none]
  omega

/-- From the last position on a slice has the place of that position. -/
theorem mem_places_last (hi : i.toInt = -1) (length p : Nat) :
    p ∈ (Slice.mk (some i) none none).places length ↔ resolvePosition? length i = some p := by
  rw [mem_places_iff, resolvePosition?_eq_some_iff]
  simp only [distance, first, last, within, placeOf, hi, Option.map_some, Option.map_none,
    Option.getD_some, Option.getD_none]
  omega

end Slice

/-! ## Scripts -/

/-- A sum that stays at the limits of 64 bits is the sum of the integers, moved to the limits. -/
theorem toInt_saturatingAdd (a b : Int64) : (saturatingAdd a b).toInt =
    max (-int64Limit) (min (int64Limit - 1) (a.toInt + b.toInt)) := by
  simp only [saturatingAdd, int64Limit]
  split
  · have hmin : Int64.minValue.toInt = -9223372036854775808 := rfl
    omega
  split
  · have hmax : Int64.maxValue.toInt = 9223372036854775807 := rfl
    omega
  · rw [Int64.toInt_ofInt_of_le (by omega) (by omega)]
    omega

/-- A length and what is taken off it make a sum that does not reach the limits. -/
theorem saturatingAdd_of_neg {n offset : Int64} (hn : 0 ≤ n) (h : offset < 0) :
    saturatingAdd n offset = n + offset := by
  have hsum := toInt_add_of_neg hn h
  have hmin := (n + offset).le_toInt
  have hmax := (n + offset).toInt_lt
  rw [← Int64.toInt_inj, toInt_saturatingAdd, int64Limit]
  omega

namespace Value

variable {offset : Int64}

/-- What is taken off the length is a position that counts from the end. -/
theorem elementFromLength_of_neg (h : offset < 0) (config : Config) (v : Value) :
    v.elementFromLength config offset = v.pickElements config [offset] := by
  cases v with
  | object | scalar | host => rfl
  | array xs =>
      show _ = (Value.array xs).pick config [.position offset]
      rw [pick_singleton, elementFromLength]
      cases hn : lengthInt64? xs.length with
      | none =>
          rw [get?, resolvePosition?, hn]
          rfl
      | some n =>
          have hplace : (n + offset).toInt = placeOf xs.length offset := by
            rw [← toInt_place hn, if_pos h]
          have hneg : n + offset < 0 ↔ placeOf xs.length offset < 0 := by
            rw [neg_iff_toInt_neg, hplace]
          dsimp only
          rw [saturatingAdd_of_neg (nonneg_of_lengthInt64? hn) h, get?, get?,
            resolvePosition?_eq hn, resolvePosition?_eq hn]
          by_cases hbefore : placeOf xs.length offset < 0
          · rw [if_pos (hneg.2 hbefore), if_neg (by omega)]
            rfl
          · have hsame : placeOf xs.length (n + offset) = placeOf xs.length offset := by
              rw [placeOf, if_neg (hplace ▸ hbefore), hplace]
            rw [if_neg fun hlt => hbefore (hneg.1 hlt), hsame]

/-- The length, and what is beyond it, is no position. -/
theorem elementFromLength_of_nonneg (h : 0 ≤ offset) (config : Config) (v : Value) :
    v.elementFromLength config offset = [] := by
  cases v with
  | object | scalar | host => rfl
  | array xs =>
      rw [elementFromLength]
      cases hn : lengthInt64? xs.length with
      | none => rfl
      | some n =>
          have hoffset := nonneg_iff_toInt_nonneg.1 h
          have hlength := lengthInt64?_eq_some_iff.1 hn
          have hmax := n.toInt_lt
          have hsum := toInt_saturatingAdd n offset
          rw [int64Limit] at hsum
          have hbehind : (xs.length : Int) ≤ (saturatingAdd n offset).toInt := by omega
          have hplace : placeOf xs.length (saturatingAdd n offset) =
              (saturatingAdd n offset).toInt := if_neg (by omega)
          have hnone : resolvePosition? xs.length (saturatingAdd n offset) = none := by
            rw [resolvePosition?_eq hn, hplace, if_neg (by omega)]
          dsimp only
          rw [get?, hnone]
          exact ite_self _

end Value

/-- An amount that is not negative is read from its digits. -/
theorem readAmount?_writeInt64 {n : Int64} (h : 0 ≤ n) : readAmount? (writeInt64 n) = some n := by
  have hpos := nonneg_iff_toInt_nonneg.1 h
  rw [writeInt64, writeInt, if_neg (by omega), readAmount?, readNat?_toDigits, Option.bind_some,
    int64?_eq_some_iff]
  omega

/-- A script with a sign and the digits of an amount that is not negative adds the amount to the
length or takes it off. -/
theorem scriptOffset?_amount {n : Int64} (h : 0 ≤ n) :
    scriptOffset? ("@.length-" ++ String.ofList (writeInt64 n)).toList = some (-n) ∧
      scriptOffset? ("@.length+" ++ String.ofList (writeInt64 n)).toList = some n := by
  obtain ⟨hdigits, hvalue⟩ := readAmount?_eq_some_iff.1 (readAmount?_writeInt64 h)
  have hform : ∀ negative : Bool, ∃ k : Int64,
      scriptOffset? (lengthName ++ (if negative then '-' else '+') :: writeInt64 n) = some k ∧
        k.toInt = if negative then -n.toInt else n.toInt := by
    intro negative
    have hwritten : AmountForm.WellFormed ⟨[], negative, [], writeInt64 n⟩ :=
      ⟨.nil, .nil, hdigits, hvalue ▸ n.toInt_lt⟩
    have hscript : LengthForm.WellFormed ⟨[], some ⟨[], negative, [], writeInt64 n⟩, []⟩ := by
      refine ⟨.nil, .nil, ?_⟩
      rintro _ ⟨⟩
      exact hwritten
    obtain ⟨k, hk, hoffset⟩ := hscript.exists_scriptOffset?
    refine ⟨k, by simpa [LengthForm.text, LengthForm.amountText, AmountForm.text] using hk, ?_⟩
    rw [hoffset, hvalue]
    rfl
  have htext : ∀ front : String, (front ++ String.ofList (writeInt64 n)).toList =
      front.toList ++ writeInt64 n := by
    intro front
    rw [String.toList_append, String.toList_ofList]
  rw [htext, htext]
  constructor
  · obtain ⟨k, hk, hneg⟩ := hform true
    obtain rfl : k = -n := Int64.toInt_inj.1 (hneg.trans (toInt_neg_of_nonneg h).symm)
    exact hk
  · obtain ⟨k, hk, hpos⟩ := hform false
    obtain rfl : k = n := Int64.toInt_inj.1 hpos
    exact hk

/-! ## The three ways -/

variable (root : Value) (config : Config) (nodes : List Value)

/-- A script that can be applied picks from each node what its place does. -/
theorem apply_script {text : String} {offset : Int64} (h : scriptOffset? text.toList = some offset) :
    Selector.apply root config nodes (.script text) =
      .ok (nodes.flatMap (Value.elementFromLength config offset)) := by
  rw [Selector.apply, h]

/-- A script that takes an amount off the length selects what the position does. -/
theorem apply_script_of_neg {text : String} {offset : Int64}
    (h : scriptOffset? text.toList = some offset) (hneg : offset < 0) :
    Selector.apply root config nodes (.script text) =
      Selector.apply root config nodes (.positions [offset]) := by
  rw [apply_script root config nodes h, Selector.apply]
  exact congrArg Except.ok (List.flatMap_congr fun v _ =>
    Value.elementFromLength_of_neg hneg config v)

/-- A script that takes nothing off the length selects nothing. -/
theorem apply_script_of_nonneg {text : String} {offset : Int64}
    (h : scriptOffset? text.toList = some offset) (hnonneg : 0 ≤ offset) :
    Selector.apply root config nodes (.script text) = .ok [] := by
  rw [apply_script root config nodes h]
  exact congrArg Except.ok (List.flatMap_eq_nil_iff.2 fun v _ =>
    Value.elementFromLength_of_nonneg hnonneg config v)

/-- A slice with the place of a position and no other selects what the position does. -/
theorem apply_slice_of_places {s : Slice} {i : Int64}
    (h : ∀ length p, p ∈ s.places length ↔ resolvePosition? length i = some p) :
    Selector.apply root config nodes (.slice s) =
      Selector.apply root config nodes (.positions [i]) := by
  rw [Selector.apply, Selector.apply]
  exact congrArg Except.ok (List.flatMap_congr fun v _ => Slice.elements_eq_pickElements h config v)

/-- The integer behind one that is not the greatest fits 64 bits. -/
theorem toInt_add_one {i : Int64} (h : i < Int64.maxValue) : (i + 1).toInt = i.toInt + 1 := by
  have hlt := Int64.lt_iff_toInt_lt.1 h
  have hmin := i.le_toInt
  have hmax : Int64.maxValue.toInt = 9223372036854775807 := rfl
  exact toInt_add_of_fits (by rw [Int64.toInt_one, int64Limit]; omega)
    (by rw [Int64.toInt_one, int64Limit]; omega)

/-- From the position that counts `n` from the end up to the next one a slice selects what the
position does. -/
theorem apply_slice_from_end {n : Int64} (h : 0 < n) :
    Selector.apply root config nodes
        (.slice ⟨some (-n), if n = 1 then none else some (-n + 1), none⟩) =
      Selector.apply root config nodes (.positions [-n]) := by
  have hneg := toInt_neg_of_pos h
  split
  · rename_i hone
    exact apply_slice_of_places root config nodes (Slice.mem_places_last (by rw [hneg, hone]; rfl))
  · rename_i hone
    have hne : n.toInt ≠ 1 := fun he => hone (Int64.toInt_inj.1 he)
    have hpos := pos_iff_toInt_pos.1 h
    have hmax : Int64.maxValue.toInt = 9223372036854775807 := rfl
    have hnext : (-n + 1).toInt = (-n).toInt + 1 :=
      toInt_add_one (Int64.lt_iff_toInt_lt.2 (by omega))
    exact apply_slice_of_places root config nodes (Slice.mem_places_next hnext (by omega))

/-- An element that is counted from the end is selected alike by a script, by a position and by a
slice, and one that is counted from the front by a position and by a slice; what lies behind the
last element is selected by no script. No length and no distance makes anything overflow: only a
script that adds to the length meets the limits of 64 bits, and it stays there. -/
theorem apply_element :
    (∀ n : Int64, 0 < n →
      Selector.apply root config nodes (.script ("@.length-" ++ String.ofList (writeInt64 n))) =
          Selector.apply root config nodes (.positions [-n]) ∧
        Selector.apply root config nodes
            (.slice ⟨some (-n), if n = 1 then none else some (-n + 1), none⟩) =
          Selector.apply root config nodes (.positions [-n]) ∧
        Selector.apply root config nodes (.script ("@.length+" ++ String.ofList (writeInt64 n))) =
          .ok []) ∧
      (∀ i : Int64, 0 ≤ i → i < Int64.maxValue →
        Selector.apply root config nodes (.slice ⟨some i, some (i + 1), none⟩) =
          Selector.apply root config nodes (.positions [i])) ∧
      Selector.apply root config nodes (.script "@.length") = .ok [] ∧
      (∀ n : Int64, 0 < n → (-n).toInt = -n.toInt) ∧
      (∀ i : Int64, i < Int64.maxValue → (i + 1).toInt = i.toInt + 1) ∧
      ∀ (length : Nat) (m : Int64), lengthInt64? length = some m → ∀ i : Int64,
        (i < 0 → (m + i).toInt = length + i.toInt) ∧
          (saturatingAdd m i).toInt = min (int64Limit - 1) (length + i.toInt) := by
  refine ⟨fun n hn => ⟨?_, apply_slice_from_end root config nodes hn, ?_⟩, fun i hi hmax => ?_, ?_,
    fun n => toInt_neg_of_pos, fun i => toInt_add_one, fun length m hm i => ⟨fun hi => ?_, ?_⟩⟩
  · have hneg : -n < 0 := by
      rw [neg_iff_toInt_neg, toInt_neg_of_pos hn]
      exact Int.neg_neg_of_pos (pos_iff_toInt_pos.1 hn)
    exact apply_script_of_neg root config nodes (scriptOffset?_amount (Int64.le_of_lt hn)).1 hneg
  · have hnonneg := Int64.le_of_lt hn
    exact apply_script_of_nonneg root config nodes (scriptOffset?_amount hnonneg).2 hnonneg
  · have hnonneg := nonneg_iff_toInt_nonneg.1 hi
    exact apply_slice_of_places root config nodes
      (Slice.mem_places_next (toInt_add_one hmax) (by omega))
  · have hlength : scriptOffset? "@.length".toList = some 0 := by decide
    exact apply_script_of_nonneg root config nodes hlength (by decide)
  · rw [toInt_add_of_neg (nonneg_of_lengthInt64? hm) hi, lengthInt64?_eq_some_iff.1 hm]
  · have hlength := lengthInt64?_eq_some_iff.1 hm
    have hmin := i.le_toInt
    rw [toInt_saturatingAdd, int64Limit, hlength]
    omega

/-- The last element but one, in an array of three elements, in one of a single element and in what
is no array, and the element at position 2. -/
theorem apply_element_short :
    0 < (2 : Int64) ∧
      Selector.apply .null {} [.array [.null, .array [], .object []], .array [.null], .null]
          (.script ("@.length-" ++ String.ofList (writeInt64 2))) = .ok [.array []] ∧
      Selector.apply .null {} [.array [.null, .array [], .object []], .array [.null], .null]
          (.slice ⟨some (-2), some (-1), none⟩) = .ok [.array []] ∧
      0 ≤ (2 : Int64) ∧ 2 < Int64.maxValue ∧
      Selector.apply .null {} [.array [.null, .array [], .object []], .array [.null], .null]
          (.slice ⟨some 2, some 3, none⟩) = .ok [.object []] := by
  obtain ⟨hend, hfront, -⟩ :=
    apply_element .null {} [.array [.null, .array [], .object []], .array [.null], .null]
  have hpositive : 0 < (2 : Int64) := by decide
  have hnonneg : 0 ≤ (2 : Int64) := by decide
  have hmax : 2 < Int64.maxValue := by decide
  obtain ⟨hscript, hslice, -⟩ := hend 2 hpositive
  exact ⟨hpositive, hscript.trans rfl, hslice.trans rfl, hnonneg, hmax,
    (hfront 2 hnonneg hmax).trans rfl⟩

end PathQuery
