import Mathlib.Data.List.Perm.Basic
import PathQuery.Proofs.Query.Find
import PathQuery.Proofs.Value.Descent

/-!
# All values below the root

The expression `$..*` asks for the children of the root and of all values below it. They come in
another order than `Value.descendants` lists them, since a value gives all its children at once and
only then the children of the first of these. `Value.flatMap_children_perm` says that this is the
only difference: every value of the tree but its root is the child of exactly one of them.
-/

namespace PathQuery

open Expression

namespace Value

/-- All values of the listings of several trees, first the roots and then what is below them. -/
theorem append_flatMap_tail_perm (vs : List Value) :
    (vs ++ vs.flatMap fun v => v.descendants.tail).Perm (vs.flatMap descendants) := by
  have hroots := List.map_append_flatMap_perm vs id fun v => v.descendants.tail
  rw [List.map_id] at hroots
  have hwhole : (vs.flatMap fun v => id v :: v.descendants.tail) = vs.flatMap descendants := by
    refine List.flatMap_congr fun v _ => ?_
    rw [descendants_eq v, List.tail_cons, id]
  rwa [hwhole] at hroots

/-- The children of all values of a tree are, up to their order, all values of the tree but its
root. -/
theorem flatMap_children_perm (v : Value) :
    (v.descendants.flatMap children).Perm v.descendants.tail := by
  induction v using children_induction with
  | h v ih =>
      have hbelow : (v.children.flatMap fun w => w.descendants.flatMap children).Perm
          (v.children.flatMap fun w => w.descendants.tail) :=
        List.Perm.flatMap_left v.children ih
      calc v.descendants.flatMap children
        _ = v.children ++ v.children.flatMap fun w => w.descendants.flatMap children := by
            rw [descendants_eq, List.flatMap_cons, List.flatMap_assoc]
        List.Perm _ (v.children ++ v.children.flatMap fun w => w.descendants.tail) :=
            hbelow.append_left v.children
        List.Perm _ (v.children.flatMap descendants) := append_flatMap_tail_perm v.children
        _ = v.descendants.tail := by rw [descendants_eq v, List.tail_cons]

end Value

/-- From the root, a descent and then all children select the children of every value. -/
theorem select_descent_children (root : Value) (config : Config) :
    select root config [.descent none, .children] =
      .ok (root.descendants.flatMap Value.children) := by
  show Except.ok (([root].flatMap Value.descendants).flatMap Value.children) = _
  rw [List.flatMap_singleton]

/-- In every document a descent followed by all children, which is what `$..*` reads as, selects
every value below the root exactly as often as it is listed there, and not the root. -/
theorem find_below (d : Document) : ∃ found : Matches,
    select d.root d.config [.descent none, .children] = .ok found.values ∧
      d.find "$..*" = .ok found ∧ found.values.Perm d.root.descendants.tail := by
  have hselect := select_descent_children d.root d.config
  have hread : readExpression "$..*".toList = .ok [.root, .descent none, .children] := by
    decide +kernel
  have hroot : select d.root d.config [.root, .descent none, .children] =
      select d.root d.config [.descent none, .children] := rfl
  refine ⟨⟨d.root.descendants.flatMap Value.children, d.config⟩, hselect, ?_,
    d.root.flatMap_children_perm⟩
  rw [Document.find, findIn_eq, hread]
  dsimp only
  rw [hroot, hselect]
  rfl

end PathQuery
