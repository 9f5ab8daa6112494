import PathQuery.Proofs.Query.Find
import PathQuery.Proofs.Scalar
import PathQuery.Proofs.Selection.Simulation
import PathQuery.Proofs.Value.Equality
import PathQuery.Proofs.Value.Hosts

/-!
# Searches in equal documents

Documents are equal whatever the order of their members, and whether a number is an integer or a
double. A search that asks no host objects ends in equal documents in the same way: it fails for the
same reason, or what it finds in one are the equals of what it finds in the other, in some order
(`find_equal`).
-/

namespace PathQuery

open Value

namespace Value

/-- A value and an equal one, with distinct names in the first. The names in the second are then
distinct as well. -/
structure Alike (v w : Value) : Prop where
  equal : v.equal w = true
  unambiguous : v.Unambiguous

namespace Alike

/-- Related as lists are that hold alike values in any order. -/
abbrev Rearranged (vs ws : List Value) : Prop :=
  Multiset.Rel Alike (vs : Multiset Value) (ws : Multiset Value)

variable {v w : Value}

/-- A name leads in equal objects to alike values, or nowhere in either. -/
theorem member? {ms ns : List (String × Value)} (h : Alike (.object ms) (.object ns))
    (n : String) : Rearranged (Value.member? ms n).toList (Value.member? ns n).toList := by
  cases hms : Value.member? ms n with
  | some v =>
      have hv := mem_of_member? hms
      obtain ⟨w, hns, hequal⟩ := (equal_object_iff.1 h.equal).2 (n, v) hv
      have hchild : v ∈ (object ms).children := List.mem_map.2 ⟨(n, v), hv, rfl⟩
      rw [hns]
      exact .cons ⟨hequal, h.unambiguous.of_mem_children hchild⟩ .zero
  | none =>
      cases hns : Value.member? ns n with
      | none => exact .zero
      | some w =>
          have hmem : n ∈ ns.map Prod.fst := List.mem_map.2 ⟨(n, w), mem_of_member? hns, rfl⟩
          rw [← (names_perm h.unambiguous.nodup h.equal).mem_iff] at hmem
          obtain ⟨m, hm, rfl⟩ := List.mem_map.1 hmem
          rw [member?_of_mem h.unambiguous.nodup hm] at hms
          cases hms

/-- The members of equal objects are alike, up to their order. -/
theorem members {ms ns : List (String × Value)} (h : Alike (.object ms) (.object ns)) :
    Rearranged (ms.map Prod.snd) (ns.map Prod.snd) := by
  have hperm := names_perm h.unambiguous.nodup h.equal
  have hnodup := hperm.nodup_iff.1 h.unambiguous.nodup
  rw [← filterMap_member? h.unambiguous.nodup, ← filterMap_member? hnodup]
  -- The names of the second object may be gone through in the order of the first.
  rw [Rearranged, ← Multiset.coe_eq_coe.2 (hperm.filterMap (Value.member? ns))]
  exact (lifting_rel Alike).filterMap _ h.member?

/-- The elements of equal arrays are alike, one by one. -/
theorem elements {xs ys : List Value} (h : Alike (.array xs) (.array ys)) :
    List.Forall₂ Alike xs ys := by
  refine forall₂_imp_of_mem (equalElements_iff.1 h.equal) fun x hx y hxy => ?_
  exact ⟨hxy, h.unambiguous.of_mem_children (v := .array xs) hx⟩

/-- Alike values are of one kind. -/
theorem cases_on (h : Alike v w) :
    (∃ ms ns, v = .object ms ∧ w = .object ns) ∨ (∃ xs ys, v = .array xs ∧ w = .array ys) ∨
      (∃ s t, v = .scalar s ∧ w = .scalar t ∧ s.equal t = true) ∨
      ∃ i answer j other, v = .host i answer ∧ w = .host j other := by
  obtain ⟨hequal, -⟩ := h
  cases v <;> cases w <;> try cases hequal
  case object.object => exact .inl ⟨_, _, rfl, rfl⟩
  case array.array => exact .inr (.inl ⟨_, _, rfl, rfl⟩)
  case scalar.scalar => exact .inr (.inr (.inl ⟨_, _, rfl, rfl, hequal⟩))
  case host.host => exact .inr (.inr (.inr ⟨_, _, _, _, rfl, rfl⟩))

/-- A condition asks the same of alike values. -/
theorem test_eq (h : Alike v w) (condition : Condition) :
    condition.test v = condition.test w := by
  rcases h.cases_on with ⟨ms, ns, rfl, rfl⟩ | ⟨xs, ys, rfl, rfl⟩ | ⟨s, t, rfl, rfl, hst⟩ |
    ⟨i, answer, j, other, rfl, rfl⟩
  · have hlength : (object ms).children.length = (object ns).children.length := by
      simpa [children] using (equal_object_iff.1 h.equal).1
    exact condition.test_eq_of_isContainer rfl rfl hlength
  · have hlength : (array xs).children.length = (array ys).children.length := h.elements.length_eq
    exact condition.test_eq_of_isContainer rfl rfl hlength
  · cases condition with
    | present path => exact Scalar.isTruthy_of_equal hst
    | compares path op literal => exact Scalar.compares_of_equal hst op literal
  · cases condition with
    | present path => rfl
    | compares path op literal => rfl

end Alike

end Value

/-- Searches that ask no host objects go the same ways in equal documents, up to the order of
members. -/
theorem simulation_alike {c c' : Config} (hc : c.allowDynamic = false)
    (hc' : c'.allowDynamic = false) : Simulation c c' Alike Alike.Rearranged where
  toLifting := lifting_rel _
  children {v w} h := by
    rcases h.cases_on with ⟨ms, ns, rfl, rfl⟩ | ⟨xs, ys, rfl, rfl⟩ | ⟨s, t, rfl, rfl, -⟩ |
      ⟨i, answer, j, other, rfl, rfl⟩
    · exact h.members
    · exact (lifting_rel Alike).of_forall₂ h.elements
    · exact .zero
    · exact .zero
  array {v w} h := by
    rcases h.cases_on with ⟨ms, ns, rfl, rfl⟩ | ⟨xs, ys, rfl, rfl⟩ | ⟨s, t, rfl, rfl, -⟩ |
      ⟨i, answer, j, other, rfl, rfl⟩
    · exact .inr ⟨by simp, by simp⟩
    · exact .inl ⟨xs, ys, rfl, rfl, h.elements⟩
    · exact .inr ⟨by simp, by simp⟩
    · exact .inr ⟨by simp, by simp⟩
  member {v w} h n := by
    rcases h.cases_on with ⟨ms, ns, rfl, rfl⟩ | ⟨xs, ys, rfl, rfl⟩ | ⟨s, t, rfl, rfl, -⟩ |
      ⟨i, answer, j, other, rfl, rfl⟩
    · exact h.member? n
    · exact .zero
    · exact .zero
    · rw [get?_host hc, get?_host hc']
      exact .zero
  test h condition := h.test_eq condition

/-- In equal documents a search that asks no host objects fails for the same reason, or finds values
that can be paired off, each one once, so that the values of each pair are equal. -/
theorem find_equal {d d' : Document} (hroot : d.root.equal d'.root = true)
    (hnames : d.root.Unambiguous) (hd : d.config.allowDynamic = false)
    (hd' : d'.config.allowDynamic = false) (expression : String) :
    SameOutcome
      (fun found found' => Multiset.Rel (fun v w => v.equal w = true)
        (found.values : Multiset Value) (found'.values : Multiset Value))
      (d.find expression) (d'.find expression) := by
  rw [Document.find, Document.find, findIn_eq, findIn_eq]
  cases Expression.readExpression expression.toList with
  | error f => exact .error _
  | ok selectors =>
      have hselect := (simulation_alike hd hd').select ⟨hroot, hnames⟩ selectors
      exact hselect.map fun vs ws h => h.mono fun v _ w _ hvw => hvw.equal

/-- The members of an object and of an equal one that has them in the other order, with a double in
the place of an integer. -/
theorem find_equal_members :
    (Value.object [("a", .scalar (.number (.int 1))), ("b", .array [.null])]).equal
        (.object [("b", .array [.null]), ("a", .scalar (.number (.float (.ofInt 1))))]) = true ∧
      SameOutcome
        (fun found found' => Multiset.Rel (fun v w => v.equal w = true)
          (found.values : Multiset Value) (found'.values : Multiset Value))
        (Document.find
          { root := .object [("a", .scalar (.number (.int 1))), ("b", .array [.null])] }
          "$.*")
        (Document.find
          { root := .object [("b", .array [.null]), ("a", .scalar (.number (.float (.ofInt 1))))] }
          "$.*") := by
  have hequal : (Value.object [("a", .scalar (.number (.int 1))), ("b", .array [.null])]).equal
      (.object [("b", .array [.null]), ("a", .scalar (.number (.float (.ofInt 1))))]) = true := by
    decide +kernel
  have hnames : (Value.object [("a", .scalar (.number (.int 1))),
      ("b", .array [.null])]).Unambiguous := by
    intro members hmem
    simp only [descendants_eq, children, Value.null, List.map_cons, List.map_nil, List.flatMap_cons,
      List.flatMap_nil, List.append_nil, List.mem_cons, List.mem_append, Value.object.injEq,
      reduceCtorEq, List.not_mem_nil, or_false] at hmem
    subst hmem
    decide
  refine ⟨hequal, find_equal ?_ ?_ ?_ ?_ "$.*"⟩
  · exact hequal
  · exact hnames
  · rfl
  · rfl

end PathQuery
