import Mathlib.Data.List.Basic
import PathQuery.Proofs.Value.Descent

/-!
# The walk round by round

`preorder` lists a value and what is below it by recursion over the tree. The walk needs no
recursion: it keeps a stack of values that are still to visit, and each round takes the last of them
and puts its children in its place, the last child first (`Round`). A round may make the stack
longer. What it makes less, by one, is the number of values at and below those on the stack
(`Round.left_eq`); and what has been visited, with the listings of what is on the stack behind it,
stays the same (`Round.outcome_eq`). So the rounds come to an end from every stack, after as many of
them as there are values, with that listing (`ends_iff`). `descendants_eq_preorder` says that
`descendants` is where they end.
-/

namespace PathQuery.Value

/-! ## The listing by recursion -/

mutual

/-- A value, and behind it the listings of its members or elements, in order. -/
def preorder : Value → List Value
  | .object members => .object members :: preorderMembers members
  | .array elements => .array elements :: preorderElements elements
  | .scalar s => [.scalar s]
  | .host identity answer => [.host identity answer]

/-- The listings of members, one behind the other. -/
def preorderMembers : List (String × Value) → List Value
  | [] => []
  | (_, v) :: rest => preorder v ++ preorderMembers rest

/-- The listings of elements, one behind the other. -/
def preorderElements : List Value → List Value
  | [] => []
  | v :: rest => preorder v ++ preorderElements rest

end

/-- The listings of elements are put together in order. -/
theorem preorderElements_eq (elements : List Value) :
    preorderElements elements = elements.flatMap preorder := by
  induction elements with
  | nil => rw [preorderElements, List.flatMap_nil]
  | cons v rest ih => rw [preorderElements, ih, List.flatMap_cons]

/-- Members are listed as elements are. -/
theorem preorderMembers_eq (members : List (String × Value)) :
    preorderMembers members = (members.map Prod.snd).flatMap preorder := by
  induction members with
  | nil => rw [preorderMembers, List.map_nil, List.flatMap_nil]
  | cons m rest ih => rw [preorderMembers, ih, List.map_cons, List.flatMap_cons]

/-- The listing of a value is the value and the listings of its children. -/
theorem preorder_eq (v : Value) : v.preorder = v :: v.children.flatMap preorder := by
  cases v with
  | object members => rw [preorder, preorderMembers_eq, children]
  | array elements => rw [preorder, preorderElements_eq, children]
  | scalar | host => rw [preorder, children, List.flatMap_nil]

/-- In the listing of several values there are as many as at and below them. -/
theorem length_flatMap_preorder {vs : List Value}
    (h : ∀ v ∈ vs, v.preorder.length = v.size) :
    (vs.flatMap preorder).length = sizeElements vs := by
  induction vs with
  | nil => rw [sizeElements, List.flatMap_nil, List.length_nil]
  | cons v rest ih =>
      obtain ⟨hv, hrest⟩ := List.forall_mem_cons.1 h
      rw [List.flatMap_cons, List.length_append, sizeElements, hv, ih hrest]

/-- In the listing of a value there are as many as in its tree. -/
theorem length_preorder (v : Value) : v.preorder.length = v.size := by
  induction v using children_induction with
  | h v ih => rw [preorder_eq, List.length_cons, length_flatMap_preorder ih, size_eq, Nat.add_comm]

/-! ## Rounds of the walk -/

/-- What the walk has visited, in order, and the stack of what it has still to visit. -/
structure Progress where
  visited : List Value
  stack : List Value

/-- One round: the last value is taken off the stack and visited, and its children are put on the
stack, the last one first. -/
inductive Round : Progress → Progress → Prop
  | visit (visited stack : List Value) (v : Value) :
    Round ⟨visited, stack ++ [v]⟩ ⟨visited ++ [v], stack ++ v.children.reverse⟩

/-- After a number of rounds nothing is left on the stack, and these values have been visited. -/
inductive Ends : Progress → Nat → List Value → Prop
  | done (visited : List Value) : Ends ⟨visited, []⟩ 0 visited
  | round {p q : Progress} {rounds : Nat} {found : List Value} (hround : Round p q)
    (hends : Ends q rounds found) : Ends p (rounds + 1) found

namespace Progress

/-- How many values are still to visit. -/
def left (p : Progress) : Nat := sizeElements p.stack

/-- What has been visited, and behind it the listings of what is on the stack, from its end. -/
def outcome (p : Progress) : List Value := p.visited ++ p.stack.reverse.flatMap preorder

end Progress

/-- The order of trees does not matter for how many values they hold. -/
theorem sizeElements_reverse (vs : List Value) : sizeElements vs.reverse = sizeElements vs := by
  induction vs with
  | nil => rfl
  | cons v rest ih =>
      rw [List.reverse_cons, sizeElements_append, ih, sizeElements, sizeElements, sizeElements,
        Nat.add_zero, Nat.add_comm]

variable {p q : Progress} {rounds : Nat} {found : List Value}

/-- A round leaves one value less to visit, however many it puts on the stack. -/
theorem Round.left_eq (h : Round p q) : p.left = q.left + 1 := by
  cases h with
  | visit visited stack v =>
      have hlast : sizeElements [v] = 1 + sizeElements v.children := by
        rw [sizeElements, sizeElements, Nat.add_zero, size_eq]
      rw [Progress.left, Progress.left, sizeElements_append, sizeElements_append, hlast,
        sizeElements_reverse]
      omega

/-- A round does not change what the walk comes to. -/
theorem Round.outcome_eq (h : Round p q) : p.outcome = q.outcome := by
  cases h with
  | visit visited stack v =>
      rw [Progress.outcome, Progress.outcome, List.reverse_append, List.reverse_append,
        List.reverse_reverse, List.reverse_singleton, List.singleton_append, List.flatMap_cons,
        List.flatMap_append, preorder_eq, List.append_assoc, List.singleton_append,
        List.cons_append]

/-- There is another round unless the stack is empty. -/
theorem exists_round (p : Progress) : p.stack = [] ∨ ∃ q, Round p q := by
  obtain ⟨visited, stack⟩ := p
  rcases List.eq_nil_or_concat' stack with rfl | ⟨stack, v, rfl⟩
  · exact .inl rfl
  · exact .inr ⟨_, .visit visited stack v⟩

/-- From every stack the rounds come to an end. -/
theorem ends (p : Progress) : Ends p p.left p.outcome := by
  induction hleft : p.left generalizing p with
  | zero =>
      rcases exists_round p with hnil | ⟨q, hround⟩
      · obtain ⟨visited, stack⟩ := p
        subst hnil
        have houtcome : (Progress.mk visited []).outcome = visited := List.append_nil visited
        rw [houtcome]
        exact .done visited
      · rw [hround.left_eq] at hleft
        cases hleft
  | succ rounds ih =>
      rcases exists_round p with hnil | ⟨q, hround⟩
      · rw [Progress.left, hnil, sizeElements] at hleft
        cases hleft
      · have hq : q.left = rounds := Nat.succ.inj (hround.left_eq.symm.trans hleft)
        rw [hround.outcome_eq]
        exact .round hround (ih q hq)

/-- The rounds end in one way only: after as many of them as there were values to visit, with the
listings of these. -/
theorem ends_iff : Ends p rounds found ↔ rounds = p.left ∧ found = p.outcome := by
  constructor
  · intro h
    induction h with
    | done visited => exact ⟨rfl, (List.append_nil visited).symm⟩
    | round hround _ ih =>
        obtain ⟨hrounds, hfound⟩ := ih
        exact ⟨by rw [hrounds, hround.left_eq], by rw [hfound, hround.outcome_eq]⟩
  · rintro ⟨rfl, rfl⟩
    exact ends p

/-! ## From one root -/

/-- What the walk lists is the listing by recursion. -/
theorem descendants_eq_preorder (v : Value) : v.descendants = v.preorder := by
  induction v using children_induction with
  | h v ih => rw [descendants_eq, preorder_eq, List.flatMap_congr ih]

/-- The descendants of a value are the value and, behind it, the listings by recursion of its
children, in order; there are as many as values in the tree. The rounds of the walk end from the
value alone on the stack, after that number of rounds, and have then visited the descendants. -/
theorem ends_descendants (v : Value) :
    v.descendants = v :: v.children.flatMap preorder ∧ v.descendants.length = v.size ∧
      ∀ rounds found,
        Ends ⟨[], [v]⟩ rounds found ↔ rounds = v.descendants.length ∧ found = v.descendants := by
  rw [descendants_eq_preorder]
  refine ⟨preorder_eq v, length_preorder v, fun rounds found => ?_⟩
  have hleft : (Progress.mk [] [v]).left = v.preorder.length := by
    rw [length_preorder, Progress.left, sizeElements, sizeElements, Nat.add_zero]
  have houtcome : (Progress.mk [] [v]).outcome = v.preorder := by
    rw [Progress.outcome, List.nil_append, List.reverse_singleton, List.flatMap_singleton]
  rw [ends_iff, hleft, houtcome]

end PathQuery.Value
