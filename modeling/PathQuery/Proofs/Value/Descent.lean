import PathQuery.Value.Descent

/-!
# The walk is the listing by recursion

`Value.descendants` keeps what is still to visit in a list. `descendants_eq` says what it lists: a
value, and behind it the listings of its children, one after the other. Everything about the order
of a document rests on this equation. `children_induction` is the induction over what is below a
value.
-/

namespace PathQuery.Value

/-- Two lists of trees are walked one after the other. -/
theorem walk_append (xs ys : List Value) : walk (xs ++ ys) = walk xs ++ walk ys := by
  fun_induction walk xs with
  | case1 => rfl
  | case2 v pending ih =>
      rw [List.cons_append, walk, ← List.append_assoc, ih]
      rfl

/-- A list of trees is walked tree by tree. -/
theorem walk_eq_flatMap (vs : List Value) : walk vs = vs.flatMap descendants := by
  induction vs with
  | nil => simp [walk]
  | cons v rest ih =>
      rw [List.flatMap_cons, ← ih, ← List.singleton_append, walk_append]
      rfl

/-- A value is listed before what is below it, and its children are listed in turn. -/
theorem descendants_eq (v : Value) :
    v.descendants = v :: v.children.flatMap descendants := by
  rw [descendants, walk, List.append_nil, walk_eq_flatMap]

/-- Every value is listed among its own descendants, in the first place. -/
theorem singleton_sublist_descendants (v : Value) : [v].Sublist v.descendants := by
  rw [descendants_eq]
  exact (List.nil_sublist _).cons_cons v

/-- The listings of all children, in turn, are part of the listing of a value. -/
theorem flatMap_children_sublist (v : Value) :
    (v.children.flatMap descendants).Sublist v.descendants := by
  rw [descendants_eq]
  exact List.sublist_cons_self _ _

/-- Every value is at or below itself. -/
theorem mem_descendants_self (v : Value) : v ∈ v.descendants := by
  rw [descendants_eq]
  exact List.mem_cons_self

/-- What is at or below a child is below the value. -/
theorem mem_descendants_of_mem_children {v w x : Value} (hw : w ∈ v.children)
    (hx : x ∈ w.descendants) : x ∈ v.descendants :=
  (flatMap_children_sublist v).subset (List.mem_flatMap.2 ⟨w, hw, hx⟩)

/-- The children of a value are listed with it. -/
theorem children_subset_descendants (v : Value) : v.children ⊆ v.descendants := by
  intro w hw
  exact mem_descendants_of_mem_children hw w.mem_descendants_self

/-- Something holds of all that is at or below a value if it holds of the value and of all that is
at or below its children. -/
theorem forall_mem_descendants_iff {P : Value → Prop} {v : Value} :
    (∀ x ∈ v.descendants, P x) ↔ P v ∧ ∀ w ∈ v.children, ∀ x ∈ w.descendants, P x := by
  rw [descendants_eq, List.forall_mem_cons, List.forall_mem_flatMap]

/-- A tree in a list is no larger than the list. -/
theorem size_le_sizeElements {v : Value} {vs : List Value} (h : v ∈ vs) :
    v.size ≤ sizeElements vs := by
  induction vs with
  | nil => cases h
  | cons w rest ih =>
      rw [sizeElements]
      rcases List.mem_cons.1 h with rfl | hrest
      · exact Nat.le_add_right _ _
      · exact Nat.le_add_left_of_le (ih hrest)

/-- What holds of a value whenever it holds of all its children holds of every value. -/
theorem children_induction {P : Value → Prop} (h : ∀ v, (∀ w ∈ v.children, P w) → P v)
    (v : Value) : P v :=
  h v fun w _ => children_induction h w
termination_by v.size
decreasing_by
  rw [size_eq v, Nat.add_comm]
  exact Nat.lt_succ_of_le (size_le_sizeElements ‹_›)

/-- What is at or below a value that is itself at or below another one is at or below that one. -/
theorem mem_descendants_trans {v w x : Value} (hw : w ∈ v.descendants) (hx : x ∈ w.descendants) :
    x ∈ v.descendants := by
  induction v using children_induction with
  | h v ih =>
      rw [descendants_eq] at hw
      rcases List.mem_cons.1 hw with rfl | hbelow
      · exact hx
      · obtain ⟨child, hchild, hw⟩ := List.mem_flatMap.1 hbelow
        exact mem_descendants_of_mem_children hchild (ih child hchild hw)

end PathQuery.Value
