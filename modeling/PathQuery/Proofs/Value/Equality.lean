import Mathlib.Data.List.Perm.Subperm
import PathQuery.Proofs.Value.Descent
import PathQuery.Value.Equality

/-!
# Equal values have equal parts

The names in an object are distinct (`Unambiguous`), as they are in every document that is read
(`Document.unambiguous_of_ofText`). Then each member of an object has one of its name among the
members of an equal object, and these have no other names (`names_perm`), so that the members are
the same up to their order. Equal arrays are equal one by one (`equalElements_iff`).
-/

namespace PathQuery.Value

/-- In every object at or below a value the names are distinct. -/
def Unambiguous (v : Value) : Prop :=
  ∀ members, .object members ∈ v.descendants → (members.map Prod.fst).Nodup

/-- The names of an object itself are distinct. -/
theorem Unambiguous.nodup {members : List (String × Value)}
    (h : (object members).Unambiguous) : (members.map Prod.fst).Nodup :=
  h members (mem_descendants_self _)

/-- Below a child names are as distinct as below the value. -/
theorem Unambiguous.of_mem_children {v w : Value} (h : v.Unambiguous) (hw : w ∈ v.children) :
    w.Unambiguous :=
  fun members hmem => h members (mem_descendants_of_mem_children hw hmem)

/-- Names are distinct in a value if they are in the value itself and in its children. -/
theorem unambiguous_iff {v : Value} : v.Unambiguous ↔
    (∀ members, v = .object members → (members.map Prod.fst).Nodup) ∧
      ∀ w ∈ v.children, w.Unambiguous := by
  constructor
  · intro h
    refine ⟨?_, fun w hw => h.of_mem_children hw⟩
    rintro members rfl
    exact h.nodup
  · rintro ⟨hnames, hchildren⟩ members hmem
    rw [descendants_eq] at hmem
    rcases List.mem_cons.1 hmem with heq | hbelow
    · exact hnames members heq.symm
    · obtain ⟨w, hw, hmem⟩ := List.mem_flatMap.1 hbelow
      exact hchildren w hw members hmem

/-- A scalar has no names. -/
theorem unambiguous_scalar (s : Scalar) : (scalar s).Unambiguous := by
  refine unambiguous_iff.2 ⟨fun _ h => ?_, fun _ h => ?_⟩ <;> cases h

/-! ## Members by name -/

variable {members ms ns : List (String × Value)}

/-- What a name leads to is the value of a member of that name. -/
theorem mem_of_member? {n : String} {v : Value} (h : member? members n = some v) :
    (n, v) ∈ members := by
  obtain ⟨m, hm, rfl⟩ := Option.map_eq_some_iff.1 h
  have hname := List.find?_some hm
  rw [beq_iff_eq] at hname
  exact hname ▸ List.mem_of_find?_eq_some hm

/-- If names are distinct, the name of a member leads to its value. -/
theorem member?_of_mem (hnames : (members.map Prod.fst).Nodup) {n : String} {v : Value}
    (h : (n, v) ∈ members) : member? members n = some v := by
  induction members with
  | nil => cases h
  | cons m rest ih =>
      obtain ⟨hm, hrest⟩ := List.nodup_cons.1 hnames
      rw [member?, List.find?_cons]
      rcases List.mem_cons.1 h with rfl | hmem
      · simp
      · have hne : (m.1 == n) = false := by
          refine beq_false_of_ne fun he => hm ?_
          exact he ▸ List.mem_map_of_mem hmem
        rw [hne]
        exact ih hrest hmem

/-- If names are distinct, the names of all members lead to all values, in order. -/
theorem filterMap_member? (hnames : (members.map Prod.fst).Nodup) :
    (members.map Prod.fst).filterMap (member? members) = members.map Prod.snd := by
  rw [List.filterMap_map, ← List.filterMap_eq_map]
  exact List.filterMap_congr fun m hm => member?_of_mem hnames hm

/-! ## Equal objects and arrays -/

/-- Members have equals among others if each of their names leads to one there. -/
theorem equalMembers_iff : equalMembers ms ns = true ↔
    ∀ m ∈ ms, ∃ w, member? ns m.1 = some w ∧ m.2.equal w = true := by
  induction ms with
  | nil => simp [equalMembers]
  | cons m rest ih =>
      obtain ⟨name, v⟩ := m
      rw [equalMembers, Bool.and_eq_true, ih, List.forall_mem_cons]
      cases member? ns name <;> simp

/-- Elements are equal one by one. -/
theorem equalElements_iff {xs ys : List Value} :
    equalElements xs ys = true ↔ List.Forall₂ (fun x y => x.equal y = true) xs ys := by
  induction xs generalizing ys with
  | nil => cases ys <;> simp [equalElements]
  | cons x rest ih => cases ys <;> simp [equalElements, ih]

/-- Two equal objects are as long, and each member of the first has an equal of its name in the
second. -/
theorem equal_object_iff : (object ms).equal (.object ns) = true ↔ ms.length = ns.length ∧
    ∀ m ∈ ms, ∃ w, member? ns m.1 = some w ∧ m.2.equal w = true := by
  rw [equal, Bool.and_eq_true, beq_iff_eq, equalMembers_iff]

/-- Equal objects have the same names, up to their order. -/
theorem names_perm (hnames : (ms.map Prod.fst).Nodup)
    (h : (object ms).equal (.object ns) = true) : (ms.map Prod.fst).Perm (ns.map Prod.fst) := by
  obtain ⟨hlength, hmembers⟩ := equal_object_iff.1 h
  have hsubset : ms.map Prod.fst ⊆ ns.map Prod.fst := by
    intro n hn
    obtain ⟨m, hm, rfl⟩ := List.mem_map.1 hn
    obtain ⟨w, hw, -⟩ := hmembers m hm
    exact List.mem_map.2 ⟨(m.1, w), mem_of_member? hw, rfl⟩
  exact (hnames.subperm hsubset).perm_of_length_le (by simp [hlength])

end PathQuery.Value
