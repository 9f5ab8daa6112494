import PathQuery.Proofs.Outcome
import PathQuery.Proofs.Value.Place
import PathQuery.Value.Access

/-!
# Values and the host objects in them

Two values may differ in nothing but their host objects (`SameButHosts`). They then have the same
places, and what stands at the same place in both (`SamePlace`) differs in nothing else either. A
value without host objects (`HostFree`) has none below it. Of a document with labels a value tells
where it stands, as far as that makes a difference (`atPlace?_eq_of_labelled`).
-/

namespace PathQuery

namespace Value

/-- Two values that differ in nothing but their host objects: where one has a host object the other
has one as well, which may be any. -/
inductive SameButHosts : Value → Value → Prop
  | object {ms ns : List (String × Value)} (hnames : ms.map Prod.fst = ns.map Prod.fst)
    (hvalues : List.Forall₂ SameButHosts (ms.map Prod.snd) (ns.map Prod.snd)) :
    SameButHosts (.object ms) (.object ns)
  | array {xs ys : List Value} (helements : List.Forall₂ SameButHosts xs ys) :
    SameButHosts (.array xs) (.array ys)
  | scalar (s : Scalar) : SameButHosts (.scalar s) (.scalar s)
  | host (identity other : Nat) (answer otherAnswer : String → Option Value) :
    SameButHosts (.host identity answer) (.host other otherAnswer)

/-- What stands at the same place in two documents. -/
def SamePlace (root other v w : Value) : Prop :=
  ∃ place, root.atPlace? place = some v ∧ other.atPlace? place = some w

variable {root other v w : Value}

namespace SameButHosts

/-- The children of two values that differ in their host objects do so one by one. -/
theorem children (h : SameButHosts v w) : List.Forall₂ SameButHosts v.children w.children := by
  cases h with
  | object _ hvalues => exact hvalues
  | array helements => exact helements
  | scalar | host => exact .nil

/-- Every value differs from itself in nothing. -/
theorem refl (v : Value) : SameButHosts v v := by
  induction v using children_induction with
  | h v ih =>
      have hchildren : List.Forall₂ SameButHosts v.children v.children := List.forall₂_same.2 ih
      cases v with
      | object members => exact .object rfl hchildren
      | array elements => exact .array hchildren
      | scalar s => exact .scalar s
      | host identity answer => exact .host identity identity answer answer

/-- Documents that differ in nothing but their host objects have the same places, and what stands
there differs in nothing else either. -/
theorem exists_atPlace? (h : SameButHosts root other) {place : List Nat}
    (hv : root.atPlace? place = some v) :
    ∃ w, other.atPlace? place = some w ∧ SameButHosts v w := by
  induction place generalizing root other with
  | nil =>
      cases hv
      exact ⟨other, rfl, h⟩
  | cons i place ih =>
      obtain ⟨x, hx, hv⟩ := Option.bind_eq_some_iff.1 hv
      obtain ⟨hi, rfl⟩ := List.getElem?_eq_some_iff.1 hx
      have hj : i < other.children.length := h.children.length_eq ▸ hi
      obtain ⟨w, hw, hsame⟩ := ih (h.children.get hi hj) hv
      exact ⟨w, by rw [atPlace?, List.getElem?_eq_getElem hj, Option.bind_some]; exact hw, hsame⟩

/-- What differs from a value in its host objects still does so if these are labelled. -/
theorem labelled (h : SameButHosts v w) (place : List Nat) : SameButHosts (v.labelled place) w := by
  induction v using children_induction generalizing w place with
  | h v ih =>
      have helements : ∀ (i : Nat) {vs ws : List Value}, vs ⊆ v.children →
          List.Forall₂ SameButHosts vs ws →
          List.Forall₂ SameButHosts (labelledElements place i vs) ws := by
        intro i vs ws hvs hsame
        induction hsame generalizing i with
        | nil =>
            rw [labelledElements]
            exact .nil
        | cons hxy _ ihrest =>
            obtain ⟨hx, hrest⟩ := List.cons_subset.1 hvs
            rw [labelledElements]
            exact .cons (ih _ hx hxy _) (ihrest (i + 1) hrest)
      cases h with
      | object hnames hvalues =>
          rw [Value.labelled]
          refine .object ?_ ?_
          · rw [map_fst_labelledMembers]
            exact hnames
          · rw [map_snd_labelledMembers]
            exact helements 0 (List.Subset.refl _) hvalues
      | array hxs =>
          rw [Value.labelled]
          exact .array (helements 0 (List.Subset.refl _) hxs)
      | scalar s =>
          rw [Value.labelled]
          exact .scalar s
      | host =>
          rw [Value.labelled]
          exact .host _ _ _ _

end SameButHosts

namespace SamePlace

/-- What stands at the same place in documents that differ in their host objects differs in nothing
else. -/
theorem sameButHosts (hroot : SameButHosts root other) (h : SamePlace root other v w) :
    SameButHosts v w := by
  obtain ⟨place, hv, hw⟩ := h
  obtain ⟨x, hx, hsame⟩ := hroot.exists_atPlace? hv
  rw [hw] at hx
  cases hx
  exact hsame

/-- The children of values at the same place are at the same places, one by one. -/
theorem children (hroot : SameButHosts root other) (h : SamePlace root other v w) :
    List.Forall₂ (SamePlace root other) v.children w.children := by
  have hlength := (h.sameButHosts hroot).children.length_eq
  obtain ⟨place, hv, hw⟩ := h
  refine List.forall₂_iff_get.2 ⟨hlength, fun i hi hj => ⟨place ++ [i], ?_, ?_⟩⟩
  · rw [atPlace?_concat hv]
    exact List.getElem?_eq_getElem hi
  · rw [atPlace?_concat hw]
    exact List.getElem?_eq_getElem hj

end SamePlace

/-- Members of the same names, one by one, are looked up alike. -/
theorem forall₂_member? {R : Value → Value → Prop} {ms ns : List (String × Value)}
    (hnames : ms.map Prod.fst = ns.map Prod.fst)
    (hvalues : List.Forall₂ R (ms.map Prod.snd) (ns.map Prod.snd)) (n : String) :
    List.Forall₂ R (member? ms n).toList (member? ns n).toList := by
  induction ms generalizing ns with
  | nil =>
      obtain rfl := List.map_eq_nil_iff.1 hnames.symm
      exact .nil
  | cons m ms ih =>
      cases ns with
      | nil => cases hnames
      | cons k ns =>
          obtain ⟨hname, hnames⟩ := List.cons.inj hnames
          obtain ⟨hvalue, hvalues⟩ := List.forall₂_cons.1 hvalues
          rw [member?, member?, List.find?_cons, List.find?_cons, ← hname]
          cases m.1 == n with
          | true => exact .cons hvalue .nil
          | false => exact ih hnames hvalues

/-- A host object that is not asked answers to no name. -/
theorem get?_host {config : Config} (hconfig : config.allowDynamic = false) (identity : Nat)
    (answer : String → Option Value) (n : String) :
    get? config (.host identity answer) (.name n) = none := by
  simp [get?, hconfig]

/-! ## Without host objects -/

/-- No host object stands at or below a value. -/
def HostFree (v : Value) : Prop := ∀ identity answer, .host identity answer ∉ v.descendants

/-- What has no host object in it is none. -/
theorem HostFree.ne_host {v : Value} (h : v.HostFree) (identity : Nat)
    (answer : String → Option Value) : v ≠ .host identity answer := by
  rintro rfl
  exact h identity answer (mem_descendants_self _)

/-- Below a value without host objects is none either. -/
theorem HostFree.of_mem_children {v w : Value} (h : v.HostFree) (hw : w ∈ v.children) :
    w.HostFree :=
  fun identity answer hmem => h identity answer (mem_descendants_of_mem_children hw hmem)

/-- What differs in nothing but its host objects from a value without any is that value. -/
theorem HostFree.eq {v w : Value} (hv : v.HostFree) (h : SameButHosts v w) : v = w := by
  induction v using children_induction generalizing w with
  | h v ih =>
      have hsame := forall₂_imp_of_mem h.children fun x hx _ hxy =>
        ih x hx (hv.of_mem_children hx) hxy
      rw [List.forall₂_eq_eq_eq] at hsame
      cases h with
      | object hnames _ =>
          have hmembers := (List.zip_of_prod hnames hsame).trans (List.zip_of_prod rfl rfl).symm
          exact congrArg object hmembers
      | array => exact congrArg array hsame
      | scalar => rfl
      | host => exact absurd rfl (hv.ne_host _ _)

/-- A value that stands at two places of a document with labels stands in place of the same one in
every document that differs from it in nothing but its host objects. -/
theorem atPlace?_eq_of_labelled {root other v : Value} (hroot : SameButHosts root other)
    {p q : List Nat} (hp : (root.labelled []).atPlace? p = some v)
    (hq : (root.labelled []).atPlace? q = some v) : other.atPlace? p = other.atPlace? q := by
  by_cases hv : v.HostFree
  · have hsame := hroot.labelled []
    obtain ⟨x, hx, hvx⟩ := hsame.exists_atPlace? hp
    obtain ⟨y, hy, hvy⟩ := hsame.exists_atPlace? hq
    rw [hx, hy, ← hv.eq hvx, ← hv.eq hvy]
  · -- The number of a host object in the value tells where the value stands.
    obtain ⟨identity, answer, hmem⟩ : ∃ identity answer, host identity answer ∈ v.descendants := by
      simpa [HostFree] using hv
    obtain ⟨r, hr⟩ := exists_atPlace? hmem
    have hpr : (root.labelled []).atPlace? (p ++ r) = some (.host identity answer) := by
      rw [atPlace?_append, hp, Option.bind_some, hr]
    have hqr : (root.labelled []).atPlace? (q ++ r) = some (.host identity answer) := by
      rw [atPlace?_append, hq, Option.bind_some, hr]
    have hsame : p ++ r = q ++ r := Encodable.encode_injective
      ((encode_of_atPlace?_labelled hpr).trans (encode_of_atPlace?_labelled hqr).symm)
    rw [List.append_cancel_right hsame]

end Value

end PathQuery
