import PathQuery.Selection.Slice

/-!
# The elements of a slice stand in the order of the array

A slice picks strictly increasing positions (`Slice.pairwise_places`), so that the elements it picks
are a subsequence of the array (`Slice.elements_sublist`).
-/

namespace PathQuery

/-- The elements at strictly increasing positions from `k` on are a subsequence of those from `k`
on. -/
theorem filterMap_getElem?_sublist {α : Type} (xs : List α) {ps : List Nat} {k : Nat}
    (hps : ps.Pairwise (· < ·)) (hk : ∀ p ∈ ps, k ≤ p) :
    (ps.filterMap (xs[·]?)).Sublist (xs.drop k) := by
  induction ps generalizing k with
  | nil => exact List.nil_sublist _
  | cons p rest ih =>
      obtain ⟨hp, hrest⟩ := List.pairwise_cons.1 hps
      cases hx : xs[p]? with
      | none =>
          rw [List.filterMap_cons_none hx]
          exact ih hrest fun q hq => hk q (List.mem_cons_of_mem _ hq)
      | some x =>
          obtain ⟨hlt, rfl⟩ := List.getElem?_eq_some_iff.1 hx
          rw [List.filterMap_cons_some hx]
          have htail : (rest.filterMap (xs[·]?)).Sublist (xs.drop (p + 1)) := ih hrest hp
          have hdrop : (xs.drop p).Sublist (xs.drop k) :=
            List.drop_sublist_drop_left xs (hk p List.mem_cons_self)
          rw [List.drop_eq_getElem_cons hlt] at hdrop
          exact (htail.cons_cons _).trans hdrop

/-- The numbers of a progression increase if its step leads onwards. -/
theorem pairwise_progression {step : Nat} (h : 0 < step) (start stop : Nat) :
    (progression start stop step).Pairwise (· < ·) := by
  refine List.Pairwise.map _ (fun i j hij => ?_) List.pairwise_lt_range
  exact Nat.add_lt_add_left (Nat.mul_lt_mul_of_pos_left hij h) start

/-- A step that leads onwards is a positive number. -/
theorem toNat_toInt_pos {n : Int64} (h : ¬n ≤ 0) : 0 < n.toInt.toNat := by
  have hlt := Int64.lt_iff_toInt_lt.1 (Int64.not_le.1 h)
  rw [Int64.toInt_zero] at hlt
  omega

namespace Slice

/-- A slice picks positions from the front to the back. -/
theorem pairwise_places (s : Slice) (length : Nat) : (s.places length).Pairwise (· < ·) := by
  rw [places]
  cases lengthInt64? length with
  | none => exact .nil
  | some n =>
      dsimp only
      split
      · exact .nil
      · rename_i hstep
        exact pairwise_progression (toNat_toInt_pos hstep) _ _

/-- What a slice picks from a value is a subsequence of its children. -/
theorem elements_sublist (s : Slice) (v : Value) : (s.elements v).Sublist v.children := by
  cases v with
  | array xs =>
      exact filterMap_getElem?_sublist xs (k := 0) (s.pairwise_places xs.length)
        fun p _ => Nat.zero_le p
  | object | scalar | host => exact List.nil_sublist _

end Slice

end PathQuery
