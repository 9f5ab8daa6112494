import Mathlib.Data.Multiset.Bind
import PathQuery.Proofs.Outcome
import PathQuery.Proofs.Selection.Discern

/-!
# Two searches side by side

The same selectors are applied in two documents, or under two configurations, and the nodes of one
search are to stand in a relation to those of the other. What has to be known for that is little:
how related nodes look (`Simulation`), and how a relation between nodes spreads to lists of them
(`Lifting`): one by one (`lifting_forall₂`), in any order (`lifting_rel`), or with more nodes on one
side (`lifting_sublist`). `Simulation.picks` goes through the selectors once and for all, and
`Simulation.select` concludes that both searches end alike.
-/

namespace PathQuery

/-- A relation between lists of nodes that is kept wherever lists are put together, out of nodes of
which `R` holds. -/
structure Lifting (R : Value → Value → Prop) (L : List Value → List Value → Prop) : Prop where
  nil : L [] []
  singleton {v w : Value} (h : R v w) : L [v] [w]
  append {vs ws vs' ws' : List Value} (h : L vs ws) (h' : L vs' ws') : L (vs ++ vs') (ws ++ ws')
  flatMap {vs ws : List Value} {f g : Value → List Value} (h : L vs ws)
    (hfg : ∀ v ∈ vs, ∀ w, R v w → L (f v) (g w)) : L (vs.flatMap f) (ws.flatMap g)

/-- Nodes related one by one. -/
theorem lifting_forall₂ (R : Value → Value → Prop) : Lifting R (List.Forall₂ R) where
  nil := .nil
  singleton h := .cons h .nil
  append h h' := List.rel_append h h'
  flatMap {vs ws f g} h hfg := by
    induction h with
    | nil => exact .nil
    | @cons v w vs ws hvw _ ih =>
        obtain ⟨hv, hvs⟩ := List.forall_mem_cons.1 hfg
        rw [List.flatMap_cons, List.flatMap_cons]
        exact List.rel_append (hv w hvw) (ih hvs)

/-- Nodes related in pairs, in whatever order they stand. -/
theorem lifting_rel (R : Value → Value → Prop) :
    Lifting R (fun vs ws => Multiset.Rel R (vs : Multiset Value) (ws : Multiset Value)) where
  nil := .zero
  singleton h := .cons h .zero
  append h h' := by
    rw [← Multiset.coe_add, ← Multiset.coe_add]
    exact h.add h'
  flatMap {vs ws f g} h hfg := by
    rw [← Multiset.coe_bind, ← Multiset.coe_bind]
    refine Multiset.rel_join (Multiset.rel_map.2 ?_)
    exact h.mono fun v hv w _ hvw => hfg v hv w hvw

/-- The same nodes, with others in between on the second side. -/
theorem lifting_sublist : Lifting Eq List.Sublist where
  nil := .slnil
  singleton h := h ▸ List.Sublist.refl _
  append h h' := h.append h'
  flatMap {vs ws f g} h hfg := by
    have hright : (vs.flatMap f).Sublist (vs.flatMap g) :=
      List.Sublist.flatMap_right vs fun v hv => hfg v hv v rfl
    exact hright.trans (h.flatMap g)

namespace Lifting

variable {R : Value → Value → Prop} {L : List Value → List Value → Prop}

/-- Nodes related one by one are related as lists. -/
theorem of_forall₂ (h : Lifting R L) {vs ws : List Value} (hvs : List.Forall₂ R vs ws) :
    L vs ws := by
  induction hvs with
  | nil => exact h.nil
  | cons hvw _ ih => exact h.append (h.singleton hvw) ih

/-- What is picked by related choices, one after the other, is related. -/
theorem filterMap (h : Lifting R L) {α : Type} {f g : α → Option Value} (xs : List α)
    (hfg : ∀ x, L (f x).toList (g x).toList) : L (xs.filterMap f) (xs.filterMap g) := by
  rw [List.filterMap_eq_flatMap_toList, List.filterMap_eq_flatMap_toList]
  induction xs with
  | nil => exact h.nil
  | cons x rest ih => exact h.append (hfg x) ih

/-- Elements at one place of arrays that are related one by one are related. -/
theorem getElem? (h : Lifting R L) {xs ys : List Value} (hxs : List.Forall₂ R xs ys) (i : Nat) :
    L xs[i]?.toList ys[i]?.toList := by
  induction hxs generalizing i with
  | nil => exact h.nil
  | cons hxy _ ih =>
      cases i with
      | zero => exact h.singleton hxy
      | succ i => exact ih i

end Lifting

namespace Value

/-- A position picks nothing from what is no array. -/
theorem get?_position (config : Config) {v : Value} (h : ∀ xs, v ≠ .array xs) (i : Int64) :
    v.get? config (.position i) = none := by
  cases v with
  | array xs => exact absurd rfl (h xs)
  | object | scalar | host => rfl

end Value

/-- Nodes of two searches, under a configuration each, that look alike up to the relations `R`
between nodes and `L` between lists. -/
structure Simulation (c c' : Config) (R : Value → Value → Prop)
    (L : List Value → List Value → Prop) : Prop extends Lifting R L where
  children {v w : Value} (h : R v w) : L v.children w.children
  /-- Arrays are related to arrays only, and element by element. -/
  array {v w : Value} (h : R v w) :
    (∃ xs ys, v = .array xs ∧ w = .array ys ∧ List.Forall₂ R xs ys) ∨
      (∀ xs, v ≠ .array xs) ∧ ∀ ys, w ≠ .array ys
  /-- What a name leads to is related, in the way that lists are. -/
  member {v w : Value} (h : R v w) (n : String) :
    L (v.get? c (.name n)).toList (w.get? c' (.name n)).toList
  /-- What a condition asks of a value is true of both or of neither. -/
  test {v w : Value} (h : R v w) (condition : Condition) : condition.test v = condition.test w

namespace Simulation

variable {c c' : Config} {R : Value → Value → Prop} {L : List Value → List Value → Prop}
  {v w : Value}

/-! ## Keys, paths and conditions -/

/-- A key leads to related values. -/
theorem get? (h : Simulation c c' R L) (hvw : R v w) (key : Key) :
    L (v.get? c key).toList (w.get? c' key).toList := by
  cases key with
  | name n => exact h.member hvw n
  | position i =>
      rcases h.array hvw with ⟨xs, ys, rfl, rfl, hxs⟩ | ⟨hv, hw⟩
      · show L ((resolvePosition? xs.length i).bind (xs[·]?)).toList
          ((resolvePosition? ys.length i).bind (ys[·]?)).toList
        rw [hxs.length_eq]
        cases resolvePosition? ys.length i with
        | none => exact h.nil
        | some place => exact h.getElem? hxs place
      · rw [Value.get?_position c hv, Value.get?_position c' hw]
        exact h.nil

/-- A path leads to related values. -/
theorem resolve? (h : Simulation c c' R L) (hvw : R v w) (path : List Key) :
    L (v.resolve? c path).toList (w.resolve? c' path).toList := by
  induction path generalizing v w with
  | nil => exact h.singleton hvw
  | cons key path ih =>
      have hbind : ∀ (config : Config) (u : Value), (u.resolve? config (key :: path)).toList =
          (u.get? config key).toList.flatMap fun x => (x.resolve? config path).toList := by
        intro config u
        rw [Value.resolve?]
        cases u.get? config key <;> simp
      rw [hbind, hbind]
      exact h.flatMap (h.get? hvw key) fun x _ y hxy => ih hxy

/-- A value is kept by a condition if the value that the path leads to passes the test. -/
theorem filter_holds_eq (condition : Condition) (config : Config) (v : Value) :
    [v].filter (condition.holds config ·) =
      (v.resolve? config condition.path).toList.flatMap fun leaf =>
        if condition.test leaf then [v] else [] := by
  rw [List.filter_singleton, condition.holds_eq]
  cases v.resolve? config condition.path <;> simp

/-- Related values are kept alike by a condition. -/
theorem filter_holds (h : Simulation c c' R L) (hvw : R v w) (condition : Condition) :
    L ([v].filter (condition.holds c ·)) ([w].filter (condition.holds c' ·)) := by
  rw [filter_holds_eq, filter_holds_eq]
  refine h.flatMap (h.resolve? hvw _) fun x _ y hxy => ?_
  rw [h.test hxy condition]
  split
  · exact h.singleton hvw
  · exact h.nil

/-! ## Selectors -/

/-- Several keys pick related values. -/
theorem pick (h : Simulation c c' R L) (hvw : R v w) (ks : List Key) :
    L (v.pick c ks) (w.pick c' ks) :=
  h.toLifting.filterMap ks fun key => h.get? hvw key

/-- A slice picks related values. -/
theorem slice (h : Simulation c c' R L) (hvw : R v w) (bounds : Slice) :
    L (bounds.elements v) (bounds.elements w) := by
  rcases h.array hvw with ⟨xs, ys, rfl, rfl, hxs⟩ | ⟨hv, hw⟩
  · show L ((bounds.places xs.length).filterMap (xs[·]?))
      ((bounds.places ys.length).filterMap (ys[·]?))
    rw [hxs.length_eq]
    exact h.toLifting.filterMap _ fun i => h.getElem? hxs i
  · have hnone : ∀ {u : Value}, (∀ xs, u ≠ .array xs) → bounds.elements u = [] := by
      intro u hu
      cases u with
      | array xs => exact absurd rfl (hu xs)
      | object | scalar | host => rfl
    rw [hnone hv, hnone hw]
    exact h.nil

/-- A position computed from the length leads to related values. -/
theorem elementFromLength (h : Simulation c c' R L) (hvw : R v w) (offset : Int64) :
    L (v.elementFromLength c offset) (w.elementFromLength c' offset) := by
  rcases h.array hvw with ⟨xs, ys, rfl, rfl, hxs⟩ | ⟨hv, hw⟩
  · simp only [Value.elementFromLength, hxs.length_eq]
    cases lengthInt64? ys.length with
    | none => exact h.nil
    | some n =>
        dsimp only
        split
        · exact h.nil
        · exact h.get? hvw _
  · have hnone : ∀ (config : Config) {u : Value}, (∀ xs, u ≠ .array xs) →
        u.elementFromLength config offset = [] := by
      intro config u hu
      cases u with
      | array xs => exact absurd rfl (hu xs)
      | object | scalar | host => rfl
    rw [hnone c hv, hnone c' hw]
    exact h.nil

/-- What lies at and below related values is related. -/
theorem descendants (h : Simulation c c' R L) (hvw : R v w) : L v.descendants w.descendants := by
  induction v using Value.children_induction generalizing w with
  | h v ih =>
      rw [Value.descendants_eq v, Value.descendants_eq w]
      have hbelow := h.flatMap (h.children hvw) ih
      exact h.append (h.singleton hvw) hbelow

/-- A descent leads to related values. -/
theorem descend (h : Simulation c c' R L) (hvw : R v w) (name : Option String) :
    L (v.descend c name) (w.descend c' name) := by
  cases name with
  | none => exact h.descendants hvw
  | some n =>
      rw [Value.descend, Value.descend, List.filterMap_eq_flatMap_toList,
        List.filterMap_eq_flatMap_toList]
      exact h.flatMap (h.descendants hvw) fun x _ y hxy => h.member hxy n

/-- A filter keeps related children. -/
theorem filter (h : Simulation c c' R L) (hvw : R v w) (condition : Condition) :
    L (v.children.filter (condition.holds c ·)) (w.children.filter (condition.holds c' ·)) := by
  have hfilter : ∀ (p : Value → Bool) (us : List Value),
      us.filter p = us.flatMap fun u => [u].filter p := by
    intro p us
    rw [← List.filter_flatMap, List.flatMap_singleton']
  rw [hfilter, hfilter]
  exact h.flatMap (h.children hvw) fun x _ y hxy => h.filter_holds hxy condition

/-- Every selector picks related values from related nodes. -/
theorem picks (h : Simulation c c' R L) (hvw : R v w) (s : Selector) :
    L (s.picks c v) (s.picks c' w) := by
  cases s with
  | root => exact h.nil
  | member name => exact h.pick hvw [.name name]
  | keys ks => exact h.pick hvw ks
  | positions places =>
      rw [Selector.picks, Selector.picks, Value.pickElements_eq, Value.pickElements_eq]
      exact h.pick hvw _
  | slice bounds => exact h.slice hvw bounds
  | children => exact h.children hvw
  | descent name => exact h.descend hvw name
  | filter condition => exact h.filter hvw condition
  | script text =>
      rw [Selector.picks, Selector.picks]
      cases scriptOffset? text.toList with
      | none => exact h.nil
      | some offset => exact h.elementFromLength hvw offset

/-! ## Searches -/

variable {root root' : Value} {nodes nodes' : List Value}

/-- A selector makes related lists of related lists. -/
theorem pickFrom (h : Simulation c c' R L) (hroot : R root root') (hnodes : L nodes nodes')
    (s : Selector) : L (s.pickFrom root c nodes) (s.pickFrom root' c' nodes') := by
  by_cases hs : s = .root
  · subst hs
    exact h.singleton hroot
  · rw [Selector.pickFrom_of_ne_root hs, Selector.pickFrom_of_ne_root hs]
    exact h.flatMap hnodes fun v _ w hvw => h.picks hvw s

/-- Selectors, one after another, make related lists of related lists. -/
theorem pickAll (h : Simulation c c' R L) (hroot : R root root') (hnodes : L nodes nodes')
    (selectors : List Selector) :
    L (pickAll root c nodes selectors) (pickAll root' c' nodes' selectors) := by
  induction selectors generalizing nodes nodes' with
  | nil => exact hnodes
  | cons s rest ih => exact ih (h.pickFrom hroot hnodes s)

/-- From related roots, a search is refused in both documents or finds related nodes in both. -/
theorem select (h : Simulation c c' R L) (hroot : R root root') (selectors : List Selector) :
    SameOutcome L (select root c selectors) (select root' c' selectors) := by
  rw [PathQuery.select, PathQuery.select, applyAll_eq, applyAll_eq]
  cases selectors.findSome? Selector.refusal? with
  | some e => exact .error e
  | none => exact .ok (h.pickAll hroot (h.singleton hroot) selectors)

end Simulation

end PathQuery
