import Mathlib.Data.List.Flatten
import PathQuery.Proofs.Selection.Basic
import PathQuery.Proofs.Selection.Slice
import PathQuery.Proofs.Value.Descent

/-!
# Matches stand in document order

A selector that leads one level down picks from a node some of its children, each at most once and
in their order (`Selector.picks_sublist`). The nodes of a list then lie in disjoint subtrees, and
what holds of a list at every step is that the listings of these subtrees, one after the other, are
a subsequence of the listing of the document (`InOrder`).
-/

namespace PathQuery

namespace Selector

/-- A selector that leads from a node to its children: one key or position, a slice, all children,
a filter or a script. -/
def IsStep : Selector → Prop
  | .member _ | .slice _ | .children | .filter _ | .script _ => True
  | .keys ks => ks.length = 1
  | .positions places => places.length = 1
  | .root | .descent _ => False

end Selector

/-- What lies at and below the nodes is a subsequence of what lies at and below the root. -/
def InOrder (root : Value) (nodes : List Value) : Prop :=
  (nodes.flatMap Value.descendants).Sublist root.descendants

namespace Value

/-- Without host objects a key leads to a child. -/
theorem mem_children_of_get? {config : Config} (hconfig : config.allowDynamic = false)
    {v w : Value} {key : Key} (h : v.get? config key = some w) : w ∈ v.children := by
  cases v with
  | array elements =>
      cases key with
      | name => cases h
      | position i =>
          obtain ⟨place, -, hw⟩ := Option.bind_eq_some_iff.1 h
          exact List.mem_of_getElem? hw
  | object members =>
      cases key with
      | position => cases h
      | name n =>
          obtain ⟨m, hm, rfl⟩ := Option.map_eq_some_iff.1 h
          exact List.mem_map_of_mem (List.mem_of_find?_eq_some hm)
  | scalar => cases h
  | host identity answer =>
      cases key with
      | position => cases h
      | name n => simp [get?, hconfig] at h

/-- One key picks at most one child. -/
theorem get?_toList_sublist {config : Config} (hconfig : config.allowDynamic = false)
    (v : Value) (key : Key) : (v.get? config key).toList.Sublist v.children := by
  cases h : v.get? config key with
  | none => exact List.nil_sublist _
  | some w => exact List.singleton_sublist.2 (mem_children_of_get? hconfig h)

end Value

namespace Selector

/-- A step picks a subsequence of the children of a node. -/
theorem picks_sublist {config : Config} (hconfig : config.allowDynamic = false) {s : Selector}
    (hs : s.IsStep) (v : Value) : (s.picks config v).Sublist v.children := by
  cases s with
  | root | descent => exact hs.elim
  | member name =>
      rw [picks, Value.pick_singleton]
      exact v.get?_toList_sublist hconfig _
  | keys ks =>
      obtain ⟨key, rfl⟩ := List.length_eq_one_iff.1 hs
      rw [picks, Value.pick_singleton]
      exact v.get?_toList_sublist hconfig key
  | positions places =>
      obtain ⟨place, rfl⟩ := List.length_eq_one_iff.1 hs
      rw [picks, Value.pickElements_eq, List.map_singleton, Value.pick_singleton]
      exact v.get?_toList_sublist hconfig (.position place)
  | slice bounds => exact bounds.elements_sublist v
  | children => exact List.Sublist.refl _
  | filter condition => exact List.filter_sublist
  | script text =>
      rw [picks]
      split
      · exact List.nil_sublist _
      · unfold Value.elementFromLength
        split
        · split
          · exact List.nil_sublist _
          · dsimp only
            split
            · exact List.nil_sublist _
            · exact Value.get?_toList_sublist hconfig _ _
        · exact List.nil_sublist _

end Selector

/-- The root alone is in order. -/
theorem inOrder_root (root : Value) : InOrder root [root] := by
  simp [InOrder]

/-- Nodes in order are themselves a subsequence of the document. -/
theorem InOrder.sublist {root : Value} {nodes : List Value} (h : InOrder root nodes) :
    nodes.Sublist root.descendants := by
  have hself : (nodes.flatMap fun v => [v]).Sublist (nodes.flatMap Value.descendants) :=
    List.Sublist.flatMap_right nodes fun v _ => v.singleton_sublist_descendants
  rw [List.flatMap_singleton'] at hself
  exact hself.trans h

/-- What is below picked children is a subsequence of what is at and below their node. -/
theorem flatMap_descendants_sublist {v : Value} {picked : List Value}
    (h : picked.Sublist v.children) :
    (picked.flatMap Value.descendants).Sublist v.descendants :=
  (h.flatMap Value.descendants).trans v.flatMap_children_sublist

/-- A step keeps the order. -/
theorem InOrder.pickFrom {config : Config} (hconfig : config.allowDynamic = false)
    {root : Value} {nodes : List Value} (h : InOrder root nodes) {s : Selector} (hs : s.IsStep) :
    InOrder root (s.pickFrom root config nodes) := by
  have hne : s ≠ .root := by rintro rfl; exact hs
  rw [Selector.pickFrom_of_ne_root hne, InOrder, List.flatMap_assoc]
  refine List.Sublist.trans (List.Sublist.flatMap_right nodes fun v _ => ?_) h
  exact flatMap_descendants_sublist (s.picks_sublist hconfig hs v)

/-- Any number of steps keep the order. -/
theorem InOrder.pickAll {config : Config} (hconfig : config.allowDynamic = false)
    {root : Value} {nodes : List Value} (h : InOrder root nodes) {steps : List Selector}
    (hsteps : ∀ s ∈ steps, s.IsStep) : InOrder root (pickAll root config nodes steps) := by
  induction steps generalizing nodes with
  | nil => exact h
  | cons s rest ih =>
      rw [PathQuery.pickAll, List.foldl_cons]
      exact ih (h.pickFrom hconfig (hsteps s List.mem_cons_self))
        fun t ht => hsteps t (List.mem_cons_of_mem _ ht)

/-- The matches of steps from the root, and of a last descent from where they lead, are a
subsequence of the listing of the document: they stand in its order, and none stands twice. -/
theorem select_sublist_descendants {root : Value} {config : Config}
    (hconfig : config.allowDynamic = false) {lead steps tail : List Selector}
    (hlead : lead = [] ∨ lead = [.root]) (hsteps : ∀ s ∈ steps, s.IsStep)
    (htail : tail = [] ∨ tail = [.descent none]) {found : List Value}
    (h : select root config (lead ++ steps ++ tail) = .ok found) :
    found.Sublist root.descendants := by
  have hstart : PathQuery.pickAll root config [root] lead = [root] := by
    rcases hlead with rfl | rfl <;> rfl
  have hsplit : found = PathQuery.pickAll root config
      (PathQuery.pickAll root config [root] steps) tail := by
    rw [eq_pickAll_of_applyAll h, PathQuery.pickAll, List.foldl_append, List.foldl_append]
    change List.foldl _ (List.foldl _ (PathQuery.pickAll root config [root] lead) _) _ = _
    rw [hstart]
    rfl
  have hinner : InOrder root (PathQuery.pickAll root config [root] steps) :=
    (inOrder_root root).pickAll hconfig hsteps
  rw [hsplit]
  rcases htail with rfl | rfl
  · exact hinner.sublist
  · exact hinner

/-- The members `a` of all elements stand in the order of their objects. -/
theorem select_sublist_descendants_members :
    select (.array [.object [("a", .array [.null])], .object [("b", .null), ("a", .null)]]) {}
        ([.root] ++ [.children, .member "a"] ++ []) = .ok [.array [.null], .null] ∧
      [.array [.null], .null].Sublist (Value.descendants
        (.array [.object [("a", .array [.null])], .object [("b", .null), ("a", .null)]])) := by
  have hselect : select
      (.array [.object [("a", .array [.null])], .object [("b", .null), ("a", .null)]]) {}
      ([.root] ++ [.children, .member "a"] ++ []) = .ok [.array [.null], .null] := rfl
  have hsteps : ∀ s ∈ [Selector.children, .member "a"], s.IsStep := by simp [Selector.IsStep]
  exact ⟨hselect, select_sublist_descendants rfl (.inr rfl) hsteps (.inl rfl) hselect⟩

end PathQuery
