import PathQuery.Proofs.Selection.Order

/-!
# Matches come from the document

A selector that asks no host objects makes no values of its own: what it picks from a node stands at
or below that node (`Selector.picks_subset_descendants`). So nodes of a document lead to nodes of it
again, step by step, and with the root selector back to its root. `select_subset_descendants` says
so of whole searches, and that a descent from the root leaves out nothing that could be found.
-/

namespace PathQuery

variable {config : Config}

namespace Value

/-- Several keys pick from a value what stands below it. -/
theorem pick_subset_descendants (hconfig : config.allowDynamic = false) (ks : List Key)
    (v : Value) : v.pick config ks ⊆ v.descendants := by
  intro w hw
  obtain ⟨key, -, hkey⟩ := List.mem_filterMap.1 hw
  exact v.children_subset_descendants (mem_children_of_get? hconfig hkey)

/-- A descent leads from a value to what is at or below it. -/
theorem descend_subset_descendants (hconfig : config.allowDynamic = false) (name : Option String)
    (v : Value) : v.descend config name ⊆ v.descendants := by
  cases name with
  | none => exact List.Subset.refl _
  | some n =>
      intro w hw
      obtain ⟨u, hu, hget⟩ := List.mem_filterMap.1 hw
      have hchild : w ∈ u.children := mem_children_of_get? hconfig hget
      exact mem_descendants_trans hu (u.children_subset_descendants hchild)

end Value

namespace Selector

/-- A selector picks from a node what stands at or below it. -/
theorem picks_subset_descendants (hconfig : config.allowDynamic = false) (s : Selector)
    (v : Value) : s.picks config v ⊆ v.descendants := by
  cases s with
  | root => exact List.nil_subset _
  | keys ks => exact Value.pick_subset_descendants hconfig ks v
  | positions places =>
      rw [picks, Value.pickElements_eq]
      exact Value.pick_subset_descendants hconfig _ v
  | descent name => exact Value.descend_subset_descendants hconfig name v
  | member | slice | children | filter | script =>
      refine List.Subset.trans (picks_sublist hconfig ?_ v).subset v.children_subset_descendants
      trivial

/-- A selector leads from nodes of a document to nodes of it. -/
theorem pickFrom_subset_descendants (hconfig : config.allowDynamic = false) {root : Value}
    {nodes : List Value} (h : nodes ⊆ root.descendants) (s : Selector) :
    s.pickFrom root config nodes ⊆ root.descendants := by
  by_cases hs : s = .root
  · subst hs
    exact root.singleton_sublist_descendants.subset
  · rw [pickFrom_of_ne_root hs]
    intro w hw
    obtain ⟨v, hv, hw⟩ := List.mem_flatMap.1 hw
    exact Value.mem_descendants_trans (h hv) (s.picks_subset_descendants hconfig v hw)

end Selector

/-- Selectors, one after another, lead from nodes of a document to nodes of it. -/
theorem pickAll_subset_descendants (hconfig : config.allowDynamic = false) {root : Value}
    {nodes : List Value} (h : nodes ⊆ root.descendants) (selectors : List Selector) :
    pickAll root config nodes selectors ⊆ root.descendants := by
  induction selectors generalizing nodes with
  | nil => exact h
  | cons s rest ih =>
      rw [pickAll, List.foldl_cons]
      exact ih (s.pickFrom_subset_descendants hconfig h)

/-- Whatever a search without host objects finds stands at or below the root of the document, and
everything that stands there is found by a descent. -/
theorem select_subset_descendants (hconfig : config.allowDynamic = false) (root : Value) :
    (∀ selectors found, select root config selectors = .ok found → found ⊆ root.descendants) ∧
      select root config [.descent none] = .ok root.descendants := by
  refine ⟨fun selectors found h => ?_, ?_⟩
  · rw [eq_pickAll_of_applyAll h]
    exact pickAll_subset_descendants hconfig root.singleton_sublist_descendants.subset selectors
  · rw [select, applyAll_eq]
    show Except.ok ([root].flatMap Value.descendants) = _
    rw [List.flatMap_singleton]

/-- A descent from everywhere to the members of one name, begun anew after another descent. -/
theorem select_subset_descendants_members :
    ({} : Config).allowDynamic = false ∧
      select (.object [("a", .array [.object [("a", .null)]])]) {}
        [.descent none, .root, .descent (some "a")] =
          .ok [.array [.object [("a", .null)]], .null] ∧
      [.array [.object [("a", .null)]], .null] ⊆
        (Value.object [("a", .array [.object [("a", .null)]])]).descendants := by
  have hselect : select (.object [("a", .array [.object [("a", .null)]])]) {}
      [.descent none, .root, .descent (some "a")] =
        .ok [.array [.object [("a", .null)]], .null] := by
    rw [select, applyAll_eq]
    show Except.ok (pickAll _ _ _ _) = _
    simp [pickAll, Selector.pickFrom, Selector.picks, Value.descend,
      Value.descendants_eq, Value.children, Value.null, Value.get?, Value.member?]
  exact ⟨rfl, hselect, (select_subset_descendants rfl _).1 _ _ hselect⟩

end PathQuery
