import PathQuery.Proofs.Comparison
import PathQuery.Proofs.Selection.Basic

/-!
# A comparison divides the children

A filter that compares looks at the children of its nodes one by one, in order, and keeps some of
them. Which ones the six comparisons keep for one path and one literal is not independent: a child
without the path is kept by none of them, a child that has it by exactly one of equality and
inequality, and if the literal has an order with its likes the strict comparisons exclude one
another and decide the others (`filter_compares`).
-/

namespace PathQuery

namespace Condition

variable {literal : Scalar} {w : Value}

/-- Inequality holds of a value exactly if equality does not. -/
theorem comparesValue_ne (literal : Scalar) (w : Value) :
    comparesValue .ne literal w = !comparesValue .eq literal w := by
  cases w with
  | scalar s =>
      obtain ⟨heq, hne⟩ := s.compares_equality literal
      rw [comparesValue, comparesValue, heq, hne]
  | object | array | host => rfl

/-- Of what is no scalar inequality holds and nothing else. -/
theorem comparesValue_of_ne_scalar (hw : ∀ s, w ≠ .scalar s) (op : Comparison) :
    comparesValue op literal w = (op == .ne) := by
  cases w with
  | scalar s => exact absurd rfl (hw s)
  | object | array | host => rfl

/-- With a literal that has an order with its likes the strict comparisons of a value exclude one
another, whatever the value is. -/
theorem comparesValue_exclusive (hliteral : literal.Orderable) (w : Value) :
    Comparison.Exclusive fun op => comparesValue op literal w := by
  cases w with
  | scalar s => exact Scalar.exclusive_of_orderable hliteral s
  | object | array | host => exact .of_false fun op hop => beq_false_of_ne hop

variable {config : Config} {path : List Key} {v : Value}

/-- A comparison does not hold of a value without the path. -/
theorem holds_of_resolve?_none (h : v.resolve? config path = none) (op : Comparison) :
    (compares path op literal).holds config v = false := by
  rw [holds, h]
  rfl

/-- A comparison holds of a value if it does of what the path leads to. -/
theorem holds_of_resolve?_some (h : v.resolve? config path = some w) (op : Comparison) :
    (compares path op literal).holds config v = comparesValue op literal w := by
  rw [holds, h]
  rfl

/-- With a literal that has an order with its likes the strict comparisons exclude one another,
whether or not the value has the path. -/
theorem holds_exclusive (hliteral : literal.Orderable) (v : Value) :
    Comparison.Exclusive fun op => (compares path op literal).holds config v := by
  cases h : v.resolve? config path with
  | none => exact .of_false fun op _ => holds_of_resolve?_none h op
  | some w =>
      simp only [holds_of_resolve?_some h]
      exact comparesValue_exclusive hliteral w

end Condition

/-- Filters that compare what a path leads to with a literal keep, each of them, those of the
children in their order of which the comparison holds. Of a value without the path no comparison
holds. Of a value with the path exactly one of equality and inequality holds, and that is inequality
if the path leads to no scalar. With a literal that is a string, or a number that is one, the strict
comparisons exclude one another, and each of the other two holds if one of its parts does. -/
theorem filter_compares (root : Value) (config : Config) (nodes : List Value) (path : List Key)
    (literal : Scalar) :
    ∃ candidates, Selector.apply root config nodes .children = .ok candidates ∧
      (∀ op, Selector.apply root config nodes (.filter (.compares path op literal)) =
          .ok (candidates.filter ((Condition.compares path op literal).holds config)) ∧
        (candidates.filter ((Condition.compares path op literal).holds config)).Sublist
          candidates) ∧
      ∀ v : Value,
        (v.resolve? config path = none →
          ∀ op, (Condition.compares path op literal).holds config v = false) ∧
        (∀ w, v.resolve? config path = some w →
          (Condition.compares path .ne literal).holds config v =
              !(Condition.compares path .eq literal).holds config v ∧
            ((∀ s, w ≠ .scalar s) →
              (Condition.compares path .ne literal).holds config v = true)) ∧
        (literal.Orderable →
          Comparison.Exclusive fun op => (Condition.compares path op literal).holds config v) := by
  refine ⟨nodes.flatMap Value.children, rfl, fun op => ⟨rfl, List.filter_sublist⟩, ?_⟩
  intro v
  refine ⟨Condition.holds_of_resolve?_none, ?_, fun hliteral => ?_⟩
  · intro w hw
    rw [Condition.holds_of_resolve?_some hw, Condition.holds_of_resolve?_some hw]
    refine ⟨Condition.comparesValue_ne literal w, fun hscalar => ?_⟩
    rw [Condition.comparesValue_of_ne_scalar hscalar]
    rfl
  · exact Condition.holds_exclusive hliteral v

/-- A number against three elements: one without the member that is asked for, one with an array in
its place, and one with a double. -/
theorem filter_compares_elements :
    (Value.object []).resolve? {} [.name "a"] = none ∧
      (∀ op, (Condition.compares [.name "a"] op (.number (.int 1))).holds {} (.object []) =
        false) ∧
      (Value.object [("a", .array [])]).resolve? {} [.name "a"] = some (.array []) ∧
      (Condition.compares [.name "a"] .ne (.number (.int 1))).holds {}
        (.object [("a", .array [])]) = true ∧
      (Scalar.number (.int 1)).Orderable ∧
      Comparison.Exclusive fun op => (Condition.compares [.name "a"] op (.number (.int 1))).holds {}
        (.object [("a", .scalar (.number (.float ⟨0x3FE0000000000000⟩)))]) := by
  obtain ⟨_, -, -, hall⟩ := filter_compares .null {}
    [.array [.object [], .object [("a", .array [])],
      .object [("a", .scalar (.number (.float ⟨0x3FE0000000000000⟩)))]]]
    [.name "a"] (.number (.int 1))
  have hnone : (Value.object []).resolve? {} [.name "a"] = none := rfl
  have hsome : (Value.object [("a", .array [])]).resolve? {} [.name "a"] = some (.array []) := rfl
  have hliteral : (Scalar.number (.int 1)).Orderable := .number rfl
  refine ⟨hnone, (hall _).1 hnone, hsome, ?_, hliteral, (hall _).2.2 hliteral⟩
  exact ((hall _).2.1 _ hsome).2 fun s hs => by cases hs

end PathQuery
