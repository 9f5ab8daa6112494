import PathQuery.Proofs.Selection.Order
import PathQuery.Proofs.Selection.Simulation
import PathQuery.Proofs.Value.Hosts

/-!
# What host objects have to do with a search

Where host objects are not asked, it does not matter which ones there are: in all documents that
differ in nothing else a search finds what stands at the same places (`select_places`). Where they
are asked, nothing that was found without them is lost, and in a document without any it does not
matter (`select_allowDynamic`).
-/

namespace PathQuery

open Value

/-! ## Without asking host objects -/

/-- A name leads to the same places in values that differ in their host objects. -/
theorem Value.SamePlace.get? {config : Config} (hconfig : config.allowDynamic = false)
    {root other v w : Value} (hroot : SameButHosts root other) (h : SamePlace root other v w)
    (n : String) : List.Forall₂ (SamePlace root other) (v.get? config (.name n)).toList
      (w.get? config (.name n)).toList := by
  have hchildren := h.children hroot
  cases h.sameButHosts hroot with
  | object hnames _ => exact forall₂_member? hnames hchildren n
  | array | scalar => exact .nil
  | host =>
      rw [get?_host hconfig, get?_host hconfig]
      exact .nil

/-- A condition asks nothing of a value that depends on its host objects. -/
theorem Value.SameButHosts.test_eq {v w : Value} (h : SameButHosts v w) (condition : Condition) :
    condition.test v = condition.test w := by
  have hlength := h.children.length_eq
  cases h with
  | object | array => exact condition.test_eq_of_isContainer rfl rfl hlength
  | scalar => rfl
  | host => cases condition <;> rfl

/-- Searches that ask no host object go the same ways in documents that differ in nothing else. -/
theorem simulation_samePlace {config : Config} (hconfig : config.allowDynamic = false)
    {root other : Value} (hroot : SameButHosts root other) :
    Simulation config config (SamePlace root other) (List.Forall₂ (SamePlace root other)) where
  toLifting := lifting_forall₂ _
  children h := h.children hroot
  array {v w} h := by
    have hchildren := h.children hroot
    cases h.sameButHosts hroot with
    | array => exact .inl ⟨_, _, rfl, rfl, hchildren⟩
    | object | scalar | host => exact .inr ⟨by simp, by simp⟩
  member h n := h.get? hconfig hroot n
  test h condition := (h.sameButHosts hroot).test_eq condition

/-- A search that does not ask host objects is refused, or finds what stands at certain places,
whichever host objects there are in the document. -/
theorem select_places (root : Value) {config : Config} (hconfig : config.allowDynamic = false)
    (selectors : List Selector) : ∃ found : Except Error (List (List Nat)),
      ∀ other, SameButHosts root other →
        SameOutcome (List.Forall₂ fun place v => other.atPlace? place = some v) found
          (select other config selectors) := by
  -- What is found in the document with labels tells where it is found.
  obtain ⟨placeOf, hplaceOf⟩ := exists_placeOf (root.labelled [])
  refine ⟨(select (root.labelled []) config selectors).map (List.map placeOf), ?_⟩
  intro other hother
  have hsame := (simulation_samePlace hconfig (hother.labelled [])).select ⟨[], rfl, rfl⟩ selectors
  refine hsame.map_left fun vs ws hvs => ?_
  rw [List.forall₂_map_left_iff]
  refine hvs.imp ?_
  rintro v w ⟨place, hv, hw⟩
  rw [← hw]
  exact atPlace?_eq_of_labelled hother (hplaceOf v place hv) hv

/-- The children of two arrays, one of which has the same host object twice. -/
theorem select_places_children :
    SameButHosts (.array [.host 0 fun _ => none, .host 0 fun _ => none])
        (.array [.host 1 fun n => some (entry n), .host 2 fun _ => none]) ∧
      ∃ found : Except Error (List (List Nat)),
        SameOutcome (List.Forall₂ fun place v =>
            (Value.array [.host 0 fun _ => none, .host 0 fun _ => none]).atPlace? place = some v)
          found (select (.array [.host 0 fun _ => none, .host 0 fun _ => none]) {} [.children]) ∧
        SameOutcome (List.Forall₂ fun place v =>
            (Value.array [.host 1 fun n => some (entry n), .host 2 fun _ => none]).atPlace? place =
              some v)
          found (select (.array [.host 1 fun n => some (entry n), .host 2 fun _ => none]) {}
            [.children]) := by
  have hsame : SameButHosts (.array [.host 0 fun _ => none, .host 0 fun _ => none])
      (.array [.host 1 fun n => some (entry n), .host 2 fun _ => none]) :=
    .array (.cons (.host _ _ _ _) (.cons (.host _ _ _ _) .nil))
  have hconfig : ({} : Config).allowDynamic = false := rfl
  obtain ⟨found, hfound⟩ := select_places (.array [.host 0 fun _ => none, .host 0 fun _ => none])
    hconfig [.children]
  exact ⟨hsame, found, hfound _ (.refl _), hfound _ hsame⟩

/-! ## Asking host objects -/

/-- A name leads at least where it leads without asking host objects. -/
theorem Value.get?_sublist (v : Value) (n : String) :
    (v.get? ⟨false⟩ (.name n)).toList.Sublist (v.get? ⟨true⟩ (.name n)).toList := by
  cases v with
  | host identity answer =>
      rw [get?_host rfl]
      exact List.nil_sublist _
  | object | array | scalar => exact List.Sublist.refl _

/-- A search goes every way that it goes without asking host objects. -/
theorem simulation_sublist : Simulation ⟨false⟩ ⟨true⟩ Eq List.Sublist where
  toLifting := lifting_sublist
  children h := h ▸ List.Sublist.refl _
  array {v w} h := by
    subst h
    cases v with
    | array xs => exact .inl ⟨xs, xs, rfl, rfl, List.forall₂_same.2 fun _ _ => rfl⟩
    | object | scalar | host => exact .inr ⟨by simp, by simp⟩
  member {v w} h n := h ▸ v.get?_sublist n
  test h _ := h ▸ rfl

/-- A search in a document without host objects goes the same ways whether or not they are
asked. -/
theorem simulation_hostFree : Simulation ⟨false⟩ ⟨true⟩ (fun v w => v = w ∧ v.HostFree)
    (List.Forall₂ fun v w => v = w ∧ v.HostFree) where
  toLifting := lifting_forall₂ _
  children {v w} h := by
    obtain ⟨rfl, hv⟩ := h
    exact List.forall₂_same.2 fun x hx => ⟨rfl, hv.of_mem_children hx⟩
  array {v w} h := by
    obtain ⟨rfl, hv⟩ := h
    cases v with
    | array xs =>
        exact .inl ⟨xs, xs, rfl, rfl, List.forall₂_same.2 fun x hx => ⟨rfl, hv.of_mem_children hx⟩⟩
    | object | scalar | host => exact .inr ⟨by simp, by simp⟩
  member {v w} h n := by
    obtain ⟨rfl, hv⟩ := h
    cases v with
    | object members =>
        have hconfig : (⟨false⟩ : Config).allowDynamic = false := rfl
        refine List.forall₂_same.2 fun x hx => ⟨rfl, hv.of_mem_children ?_⟩
        exact mem_children_of_get? hconfig (Option.mem_toList.1 hx)
    | array | scalar => exact .nil
    | host identity answer => exact absurd rfl (hv.ne_host identity answer)
  test h _ := h.1 ▸ rfl

/-- Asking host objects refuses no search and loses nothing that is found without asking them: what
is found then is a subsequence of what is found now. In a document without host objects both
searches end in the same way. -/
theorem select_allowDynamic (root : Value) (selectors : List Selector) :
    SameOutcome List.Sublist (select root { allowDynamic := false } selectors)
        (select root { allowDynamic := true } selectors) ∧
      (root.HostFree → select root { allowDynamic := false } selectors =
        select root { allowDynamic := true } selectors) := by
  refine ⟨simulation_sublist.select rfl selectors, fun hroot => ?_⟩
  have hsame := simulation_hostFree.select ⟨rfl, hroot⟩ selectors
  generalize select root { allowDynamic := false } selectors = r at hsame
  generalize select root { allowDynamic := true } selectors = s at hsame
  cases hsame with
  | ok h => exact congrArg Except.ok (List.forall₂_eq_eq_eq ▸ h.imp fun _ _ hvw => hvw.1)
  | error e => rfl

/-- A host object among the elements of an array answers only if it is asked; without one both
searches find the same. -/
theorem select_allowDynamic_elements :
    SameOutcome List.Sublist
        (select (.array [.null, .host 0 fun n => some (entry n)]) { allowDynamic := false }
          [.children, .member "a"])
        (select (.array [.null, .host 0 fun n => some (entry n)]) { allowDynamic := true }
          [.children, .member "a"]) ∧
      (Value.array [.null]).HostFree ∧
      select (.array [.null]) { allowDynamic := false } [.children, .member "a"] =
        select (.array [.null]) { allowDynamic := true } [.children, .member "a"] := by
  have hfree : (Value.array [.null]).HostFree := by
    intro identity answer hmem
    simp [descendants_eq, children, Value.null] at hmem
  exact ⟨(select_allowDynamic _ _).1, hfree, (select_allowDynamic _ _).2 hfree⟩

end PathQuery
