import Mathlib.Logic.Equiv.List
import PathQuery.Proofs.Value.Descent

/-!
# Places in a value

A place is given by the numbers of the children that lead to it from the root (`atPlace?`). What is
at or below a value stands at some place in it (`exists_atPlace?`). Values that are equal may stand
at several places; where host objects are labelled with their places (`labelled`), a value with a
host object in it stands at no more than one.
-/

namespace PathQuery.Value

/-- What stands at a place. -/
def atPlace? : Value → List Nat → Option Value
  | v, [] => some v
  | v, i :: place => v.children[i]?.bind fun w => w.atPlace? place

variable {v w x : Value}

/-- What stands at a place, from what stands at another one before it. -/
theorem atPlace?_append (v : Value) (front place : List Nat) :
    v.atPlace? (front ++ place) = (v.atPlace? front).bind fun w => w.atPlace? place := by
  induction front generalizing v with
  | nil => rfl
  | cons i front ih =>
      rw [List.cons_append, atPlace?, atPlace?, Option.bind_assoc]
      exact Option.bind_congr fun w _ => ih w

/-- The children of what stands at a place stand at the places behind it. -/
theorem atPlace?_concat {place : List Nat} (h : v.atPlace? place = some w) (i : Nat) :
    v.atPlace? (place ++ [i]) = w.children[i]? := by
  rw [atPlace?_append, h, Option.bind_some, atPlace?]
  exact Option.bind_fun_some _

/-- What is at or below a value stands at some place in it. -/
theorem exists_atPlace? (h : x ∈ v.descendants) : ∃ place, v.atPlace? place = some x := by
  induction v using children_induction with
  | h v ih =>
      rw [descendants_eq] at h
      rcases List.mem_cons.1 h with rfl | h
      · exact ⟨[], rfl⟩
      · obtain ⟨w, hw, hx⟩ := List.mem_flatMap.1 h
        obtain ⟨place, hplace⟩ := ih w hw hx
        obtain ⟨i, hi⟩ := List.mem_iff_getElem?.1 hw
        exact ⟨i :: place, by rw [atPlace?, hi, Option.bind_some, hplace]⟩

/-- Each value that stands at places of a document can be given one of them. -/
theorem exists_placeOf (root : Value) : ∃ placeOf : Value → List Nat, ∀ v place,
    root.atPlace? place = some v → root.atPlace? (placeOf v) = some v := by
  have hplace : ∀ v, ∃ given, ∀ place, root.atPlace? place = some v →
      root.atPlace? given = some v := by
    intro v
    by_cases hv : ∃ place, root.atPlace? place = some v
    · obtain ⟨place, hplace⟩ := hv
      exact ⟨place, fun _ _ => hplace⟩
    · exact ⟨[], fun place hplace => absurd ⟨place, hplace⟩ hv⟩
  choose placeOf hplaceOf using hplace
  exact ⟨placeOf, hplaceOf⟩

/-! ## Labels -/

mutual

/-- The value at a place, in which each host object is the one with the number of its place. -/
def labelled (place : List Nat) : Value → Value
  | .object members => .object (labelledMembers place 0 members)
  | .array elements => .array (labelledElements place 0 elements)
  | .scalar s => .scalar s
  | .host _ answer => .host (Encodable.encode place) answer

/-- Members at a place with their names, the first of which has the number `i` there. -/
def labelledMembers (place : List Nat) (i : Nat) : List (String × Value) → List (String × Value)
  | [] => []
  | (name, v) :: rest => (name, labelled (place ++ [i]) v) :: labelledMembers place (i + 1) rest

/-- Elements at a place, the first of which has the number `i` there. -/
def labelledElements (place : List Nat) (i : Nat) : List Value → List Value
  | [] => []
  | v :: rest => labelled (place ++ [i]) v :: labelledElements place (i + 1) rest

end

/-- Labels change no names. -/
theorem map_fst_labelledMembers (place : List Nat) (i : Nat) (members : List (String × Value)) :
    (labelledMembers place i members).map Prod.fst = members.map Prod.fst := by
  induction members generalizing i with
  | nil => rw [labelledMembers]
  | cons m rest ih => rw [labelledMembers, List.map_cons, List.map_cons, ih]

/-- Members are labelled as elements are. -/
theorem map_snd_labelledMembers (place : List Nat) (i : Nat) (members : List (String × Value)) :
    (labelledMembers place i members).map Prod.snd =
      labelledElements place i (members.map Prod.snd) := by
  induction members generalizing i with
  | nil => rw [labelledMembers, List.map_nil, labelledElements]
  | cons m rest ih => rw [labelledMembers, List.map_cons, List.map_cons, labelledElements, ih]

/-- The children of a value are labelled with it. -/
theorem children_labelled (place : List Nat) (v : Value) :
    (v.labelled place).children = labelledElements place 0 v.children := by
  cases v with
  | object members =>
      rw [labelled]
      exact map_snd_labelledMembers place 0 members
  | array elements =>
      rw [labelled]
      rfl
  | scalar | host =>
      rw [labelled]
      show [] = labelledElements place 0 []
      rw [labelledElements]

/-- Each element is labelled by its number. -/
theorem getElem?_labelledElements (place : List Nat) (i : Nat) (vs : List Value) (k : Nat) :
    (labelledElements place i vs)[k]? = vs[k]?.map (labelled (place ++ [i + k])) := by
  induction vs generalizing i k with
  | nil => rw [labelledElements]; rfl
  | cons v rest ih =>
      rw [labelledElements]
      cases k with
      | zero => rfl
      | succ k =>
          rw [List.getElem?_cons_succ, List.getElem?_cons_succ, ih, Nat.add_assoc, Nat.add_comm 1]

/-- What stands at a place is labelled with that place. -/
theorem atPlace?_labelled (front : List Nat) (v : Value) (place : List Nat) :
    (v.labelled front).atPlace? place = (v.atPlace? place).map (labelled (front ++ place)) := by
  induction place generalizing v front with
  | nil => rw [atPlace?, atPlace?, List.append_nil, Option.map_some]
  | cons i place ih =>
      rw [atPlace?, atPlace?, children_labelled, getElem?_labelledElements, Nat.zero_add]
      cases v.children[i]? with
      | none => rfl
      | some w =>
          rw [Option.map_some, Option.bind_some, Option.bind_some, ih, List.append_assoc]
          rfl

/-- Where a host object stands in a labelled value can be told from its number. -/
theorem encode_of_atPlace?_labelled {place : List Nat} {identity : Nat}
    {answer : String → Option Value}
    (h : (v.labelled []).atPlace? place = some (.host identity answer)) :
    Encodable.encode place = identity := by
  rw [atPlace?_labelled, List.nil_append] at h
  obtain ⟨w, -, hw⟩ := Option.map_eq_some_iff.1 h
  cases w with
  | host =>
      rw [labelled] at hw
      exact (host.inj hw).1
  | object | array | scalar =>
      rw [labelled] at hw
      cases hw

end PathQuery.Value
