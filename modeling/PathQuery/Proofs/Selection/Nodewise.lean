import PathQuery.Proofs.Selection.Basic

/-!
# Nodes are searched one by one

Without a root selector among them, selectors lead from a node to certain nodes, whatever else there
is (`leadTo`), and from a list of nodes to what they lead to from each, in turn
(`pickAll_eq_flatMap`). So a search that goes on from some nodes does not look at the root
(`applyAll_congr_root`), and a search from two lists of nodes is the searches from both
(`applyAll_nodes_append`).
-/

namespace PathQuery

/-- What selectors, one after another, lead to from a node. The root selector leads nowhere. -/
def leadTo (config : Config) : List Selector → Value → List Value
  | [], v => [v]
  | s :: rest, v => (s.picks config v).flatMap (leadTo config rest)

variable {selectors : List Selector}

/-- From a list of nodes selectors pick what they lead to from each of them. -/
theorem pickAll_eq_flatMap (h : .root ∉ selectors) (root : Value) (config : Config)
    (nodes : List Value) :
    pickAll root config nodes selectors = nodes.flatMap (leadTo config selectors) := by
  induction selectors generalizing nodes with
  | nil => exact (List.flatMap_singleton' nodes).symm
  | cons s rest ih =>
      obtain ⟨hs, hrest⟩ := List.ne_and_not_mem_of_not_mem_cons h
      rw [pickAll, List.foldl_cons, Selector.pickFrom_of_ne_root hs.symm, ← pickAll, ih hrest,
        List.flatMap_assoc]
      rfl

/-- Of no nodes nothing is selected. -/
theorem pickAll_nil (h : .root ∉ selectors) (root : Value) (config : Config) :
    pickAll root config [] selectors = [] := by
  rw [pickAll_eq_flatMap h, List.flatMap_nil]

/-- Without a root selector among them, selectors do not look at the root. -/
theorem applyAll_congr_root (h : .root ∉ selectors) (root other : Value) (config : Config)
    (nodes : List Value) :
    applyAll root config nodes selectors = applyAll other config nodes selectors := by
  rw [applyAll_eq, applyAll_eq, pickAll_eq_flatMap h, pickAll_eq_flatMap h]

/-- On two lists of nodes, one behind the other, selectors fail exactly if they fail on the first,
and with the same error; if they do not, they find what they find from the first list and behind it
what they find from the second. -/
theorem applyAll_nodes_append (h : .root ∉ selectors) (root : Value) (config : Config)
    (vs ws : List Value) :
    (∀ e, applyAll root config (vs ++ ws) selectors = .error e ↔
        applyAll root config vs selectors = .error e) ∧
      ∀ found, applyAll root config vs selectors = .ok found →
        ∃ others, applyAll root config ws selectors = .ok others ∧
          applyAll root config (vs ++ ws) selectors = .ok (found ++ others) := by
  have happend : pickAll root config (vs ++ ws) selectors =
      pickAll root config vs selectors ++ pickAll root config ws selectors := by
    rw [pickAll_eq_flatMap h, pickAll_eq_flatMap h, pickAll_eq_flatMap h, List.flatMap_append]
  rw [applyAll_eq, applyAll_eq, applyAll_eq, happend]
  -- Whether there is a refusal is a matter of the selectors, and so the same for all three lists.
  cases selectors.findSome? Selector.refusal? with
  | some e => simp
  | none => simp

/-- The root selector forgets which nodes there were: from two roots it leads to one. -/
example : applyAll .null {} ([.null] ++ [.null]) [.root] = .ok [.null] := rfl

/-- The last elements of arrays, in two lists of nodes with one among them that is no array. -/
theorem applyAll_nodes_append_last :
    .root ∉ [Selector.children, .script "@.length-1"] ∧
      applyAll .null {} [.array [.array [.null, .array []]]]
        [.children, .script "@.length-1"] = .ok [.array []] ∧
      ∃ others, applyAll .null {} [.null, .array [.array [.null]]]
          [.children, .script "@.length-1"] = .ok others ∧
        applyAll .null {} ([.array [.array [.null, .array []]]] ++ [.null, .array [.array [.null]]])
          [.children, .script "@.length-1"] = .ok ([.array []] ++ others) := by
  have hroot : .root ∉ [Selector.children, .script "@.length-1"] := by simp
  have hfirst : applyAll .null {} [.array [.array [.null, .array []]]]
      [.children, .script "@.length-1"] = .ok [.array []] := rfl
  exact ⟨hroot, hfirst, (applyAll_nodes_append hroot .null {} _ _).2 _ hfirst⟩

end PathQuery
