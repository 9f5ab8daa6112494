import PathQuery.Proofs.Document
import PathQuery.Proofs.Text.Integer

/-!
# Values and JSON, there and back

JSON has nothing to write a host object as, nor a double that is not finite (`isLost`). A value that
is made JSON and then a value again has null in place of each of these, and is otherwise what it was
(`ofJson_toJson`): the same members in the same order, integers as integers, doubles with the same
bits. On the other way round, from JSON to a value and back, what may change is a number: an integer
that does not fit 64 bits becomes a double, and a double that is not finite becomes null. There is
no other loss (`toJson_ofJson_iff`); in JSON that is read from a text every double is finite
(`Json.doublesFinite_of_read?`), and in JSON that was made of a value nothing changes at all
(`forall_kept_toJson`). Both ways are followed along the tree, with one companion for members and
one for elements.
-/

namespace PathQuery

/-! ## The parts of a JSON value -/

namespace Json

mutual

/-- A JSON value and all JSON values in it. -/
def parts : Json → List Json
  | .null => [.null]
  | .bool b => [.bool b]
  | .int n => [.int n]
  | .float x => [.float x]
  | .string s => [.string s]
  | .array elements => .array elements :: partsElements elements
  | .object members => .object members :: partsMembers members

/-- All JSON values at and below elements. -/
def partsElements : List Json → List Json
  | [] => []
  | j :: rest => parts j ++ partsElements rest

/-- All JSON values at and below members. -/
def partsMembers : List (String × Json) → List Json
  | [] => []
  | (_, j) :: rest => parts j ++ partsMembers rest

end

/-- The parts of elements are those of each of them. -/
theorem partsElements_eq (elements : List Json) :
    partsElements elements = elements.flatMap parts := by
  induction elements with
  | nil => rw [partsElements, List.flatMap_nil]
  | cons j rest ih => rw [partsElements, ih, List.flatMap_cons]

/-- The parts of members are those of what they hold. -/
theorem partsMembers_eq (members : List (String × Json)) :
    partsMembers members = members.flatMap fun m => m.2.parts := by
  induction members with
  | nil => rw [partsMembers, List.flatMap_nil]
  | cons m rest ih => rw [partsMembers, ih, List.flatMap_cons]

/-- Every double in a JSON value is finite. -/
def DoublesFinite (j : Json) : Prop := ∀ x, .float x ∈ j.parts → x.isFinite = true

/-- The doubles of an array are those of its elements. -/
theorem doublesFinite_array {elements : List Json} (h : ∀ j ∈ elements, j.DoublesFinite) :
    (array elements).DoublesFinite := by
  intro x hx
  rw [parts, partsElements_eq] at hx
  rcases List.mem_cons.1 hx with hself | hbelow
  · cases hself
  · obtain ⟨j, hj, hx⟩ := List.mem_flatMap.1 hbelow
    exact h j hj x hx

/-- The doubles of an object are those of its members. -/
theorem doublesFinite_object {members : List (String × Json)}
    (h : ∀ m ∈ members, m.2.DoublesFinite) : (object members).DoublesFinite := by
  intro x hx
  rw [parts, partsMembers_eq] at hx
  rcases List.mem_cons.1 hx with hself | hbelow
  · cases hself
  · obtain ⟨m, hm, hx⟩ := List.mem_flatMap.1 hbelow
    exact h m hm x hx

/-- That every double is finite passes from what is in a JSON value to the value. -/
theorem inherited_doublesFinite : Inherited DoublesFinite where
  null _ hx := absurd (List.mem_singleton.1 hx) nofun
  bool _ _ hx := absurd (List.mem_singleton.1 hx) nofun
  numeral _ _ h x hx := by
    obtain ⟨whole, rfl⟩ | ⟨y, hy, rfl⟩ := eq_of_numeral h
    · exact absurd (List.mem_singleton.1 hx) nofun
    · cases List.mem_singleton.1 hx
      exact hy
  string _ _ hx := absurd (List.mem_singleton.1 hx) nofun
  array _ := doublesFinite_array
  object _ _ := doublesFinite_object

/-- In JSON that is read from a text every double is finite. -/
theorem doublesFinite_of_read? {text : List Char} {j : Json} (h : read? text = some j) :
    j.DoublesFinite :=
  inherited_doublesFinite.of_read? h

end Json

namespace Value

/-! ## From a value to JSON and back -/

mutual

/-- A value with null in place of each value in it, itself included, that satisfies a condition. -/
def nullWhere (lost : Value → Bool) : Value → Value
  | .object members =>
    if lost (.object members) then null else .object (nullWhereMembers lost members)
  | .array elements =>
    if lost (.array elements) then null else .array (nullWhereElements lost elements)
  | .scalar s => if lost (.scalar s) then null else .scalar s
  | .host identity answer =>
    if lost (.host identity answer) then null else .host identity answer

/-- Elements with null in place of each value in them that satisfies a condition. -/
def nullWhereElements (lost : Value → Bool) : List Value → List Value
  | [] => []
  | v :: rest => nullWhere lost v :: nullWhereElements lost rest

/-- Members with null in place of each value in them that satisfies a condition. -/
def nullWhereMembers (lost : Value → Bool) : List (String × Value) → List (String × Value)
  | [] => []
  | (name, v) :: rest => (name, nullWhere lost v) :: nullWhereMembers lost rest

end

/-- Whether JSON has nothing to write a value as: it is a host object, or a double that is not
finite. -/
def isLost : Value → Bool
  | .host _ _ => true
  | .scalar (.number (.float x)) => !x.isFinite
  | _ => false

/-- A scalar that becomes JSON and a scalar again is what it was, or null if it is lost. -/
theorem ofJson_scalarJson (s : Scalar) :
    ofJson (scalarJson s) = if isLost (.scalar s) then null else .scalar s := by
  cases s with
  | null | bool | string => rfl
  | number n =>
      cases n with
      | int n =>
          rw [scalarJson, ofJson, numberOfInt, Text.int64?_toInt]
          rfl
      | float x =>
          rw [scalarJson, isLost]
          cases x.isFinite <;> rfl

mutual

/-- A value that becomes JSON and a value again has null in place of what is lost, and is otherwise
what it was. -/
theorem ofJson_toJson (v : Value) : ofJson v.toJson = v.nullWhere isLost := by
  cases v with
  | object members =>
      rw [toJson, ofJson, ofJsonMembers_membersJson]
      rfl
  | array elements =>
      rw [toJson, ofJson, ofJsonElements_elementsJson]
      rfl
  | scalar s => rw [toJson, ofJson_scalarJson, nullWhere]
  | host identity answer => rfl

/-- The same of elements. -/
theorem ofJsonElements_elementsJson (elements : List Value) :
    ofJsonElements (elementsJson elements) = nullWhereElements isLost elements := by
  cases elements with
  | nil => rfl
  | cons v rest =>
      rw [elementsJson, ofJsonElements, ofJson_toJson v, ofJsonElements_elementsJson rest,
        nullWhereElements]

/-- The same of members. -/
theorem ofJsonMembers_membersJson (members : List (String × Value)) :
    ofJsonMembers (membersJson members) = nullWhereMembers isLost members := by
  cases members with
  | nil => rfl
  | cons m rest =>
      rw [membersJson, ofJsonMembers, ofJson_toJson m.2, ofJsonMembers_membersJson rest,
        nullWhereMembers]

end

/-- Null is put in place of elements one by one. -/
theorem nullWhereElements_eq (lost : Value → Bool) (elements : List Value) :
    nullWhereElements lost elements = elements.map (nullWhere lost) := by
  induction elements with
  | nil => rw [nullWhereElements, List.map_nil]
  | cons v rest ih => rw [nullWhereElements, ih, List.map_cons]

/-- Null is put in place of members one by one, under their names. -/
theorem nullWhereMembers_eq (lost : Value → Bool) (members : List (String × Value)) :
    nullWhereMembers lost members = members.map fun m => (m.1, m.2.nullWhere lost) := by
  induction members with
  | nil => rw [nullWhereMembers, List.map_nil]
  | cons m rest ih => rw [nullWhereMembers, ih, List.map_cons]

/-- A value in which nothing is lost stays what it is. -/
theorem nullWhere_eq_self {lost : Value → Bool} {v : Value}
    (h : ∀ w ∈ v.descendants, lost w = false) : v.nullWhere lost = v := by
  induction v using children_induction with
  | h v ih =>
      have hself : lost v = false := h v v.mem_descendants_self
      have hchildren : ∀ w ∈ v.children, w.nullWhere lost = w := fun w hw =>
        ih w hw fun x hx => h x (mem_descendants_of_mem_children hw hx)
      cases v with
      | object members =>
          have hmembers : ∀ m ∈ members, (m.1, m.2.nullWhere lost) = id m := fun m hm =>
            congrArg (Prod.mk m.1) (hchildren m.2 (List.mem_map_of_mem hm))
          rw [nullWhere, hself, nullWhereMembers_eq, List.map_congr_left hmembers, List.map_id]
          rfl
      | array elements =>
          have helements : ∀ w ∈ elements, w.nullWhere lost = id w := hchildren
          rw [nullWhere, hself, nullWhereElements_eq, List.map_congr_left helements, List.map_id]
          rfl
      | scalar s =>
          rw [nullWhere, hself]
          rfl
      | host identity answer =>
          rw [nullWhere, hself]
          rfl

/-- A value without host objects and with finite doubles only becomes JSON and itself again. -/
theorem ofJson_toJson_eq_self {v : Value} (h : ∀ w ∈ v.descendants, w.isLost = false) :
    ofJson v.toJson = v := by
  rw [ofJson_toJson, nullWhere_eq_self h]

/-- A scalar that is lost becomes null. -/
theorem scalarJson_of_isLost {s : Scalar} (h : isLost (.scalar s) = true) :
    scalarJson s = .null := by
  cases s with
  | null | bool | string => cases h
  | number n =>
      cases n with
      | int n => cases h
      | float x =>
          rw [isLost, Bool.not_eq_true'] at h
          rw [scalarJson, h]
          rfl

mutual

/-- What is lost becomes null in JSON, so that null in its place makes no difference there. -/
theorem toJson_nullWhere (v : Value) : (v.nullWhere isLost).toJson = v.toJson := by
  cases v with
  | object members =>
      rw [toJson, ← membersJson_nullWhereMembers]
      rfl
  | array elements =>
      rw [toJson, ← elementsJson_nullWhereElements]
      rfl
  | scalar s =>
      rw [nullWhere]
      split
      · rename_i hlost
        exact (scalarJson_of_isLost hlost).symm
      · rfl
  | host identity answer => rfl

/-- The same of elements. -/
theorem elementsJson_nullWhereElements (elements : List Value) :
    elementsJson (nullWhereElements isLost elements) = elementsJson elements := by
  cases elements with
  | nil => rfl
  | cons v rest =>
      rw [nullWhereElements, elementsJson, elementsJson, toJson_nullWhere v,
        elementsJson_nullWhereElements rest]

/-- The same of members. -/
theorem membersJson_nullWhereMembers (members : List (String × Value)) :
    membersJson (nullWhereMembers isLost members) = membersJson members := by
  cases members with
  | nil => rfl
  | cons m rest =>
      rw [nullWhereMembers, membersJson, membersJson, toJson_nullWhere m.2,
        membersJson_nullWhereMembers rest]

end

/-! ## From JSON to a value and back -/

/-- Whether a JSON value keeps what it is when it becomes a value: an integer has to fit 64 bits,
and a double to be finite. -/
def Kept : Json → Prop
  | .int n => -Text.int64Limit ≤ n ∧ n < Text.int64Limit
  | .float x => x.isFinite = true
  | _ => True

/-- An integer becomes a number and the same integer again if it fits 64 bits, and only then. -/
theorem scalarJson_numberOfInt_iff (n : Int) :
    scalarJson (.number (numberOfInt n)) = .int n ↔
      -Text.int64Limit ≤ n ∧ n < Text.int64Limit := by
  constructor
  · intro h
    rw [numberOfInt] at h
    split at h
    · rename_i i _
      rw [scalarJson, Json.int.injEq] at h
      exact h ▸ ⟨Int64.le_toInt i, Int64.toInt_lt i⟩
    · rw [scalarJson] at h
      split at h
      · cases h
      · cases h
  · rintro ⟨hle, hlt⟩
    have hint : Text.int64? n = some (Int64.ofInt n) := if_pos ⟨hle, hlt⟩
    rw [numberOfInt, hint, scalarJson, Text.int64?_eq_some_iff.1 hint]

mutual

/-- A JSON value that becomes a value and JSON again is what it was if each of its parts is kept,
and only then. -/
theorem toJson_ofJson_iff (j : Json) : (ofJson j).toJson = j ↔ ∀ part ∈ j.parts, Kept part := by
  cases j with
  | null | bool | string => exact ⟨fun _ => List.forall_mem_singleton.2 trivial, fun _ => rfl⟩
  | int n =>
      rw [ofJson, toJson, Json.parts, List.forall_mem_singleton, Kept, scalarJson_numberOfInt_iff]
  | float x =>
      rw [ofJson, toJson, Json.parts, List.forall_mem_singleton, Kept, scalarJson]
      cases x.isFinite with
      | true => exact iff_of_true rfl rfl
      | false => exact iff_of_false nofun nofun
  | array elements =>
      rw [ofJson, toJson, Json.parts, List.forall_mem_cons, Json.array.injEq,
        elementsJson_ofJsonElements_iff]
      exact (and_iff_right trivial).symm
  | object members =>
      rw [ofJson, toJson, Json.parts, List.forall_mem_cons, Json.object.injEq,
        membersJson_ofJsonMembers_iff]
      exact (and_iff_right trivial).symm

/-- The same of elements. -/
theorem elementsJson_ofJsonElements_iff (elements : List Json) :
    elementsJson (ofJsonElements elements) = elements ↔
      ∀ part ∈ Json.partsElements elements, Kept part := by
  cases elements with
  | nil => exact iff_of_true rfl (List.forall_mem_nil _)
  | cons j rest =>
      rw [ofJsonElements, elementsJson, Json.partsElements, List.forall_mem_append, List.cons.injEq,
        toJson_ofJson_iff j, elementsJson_ofJsonElements_iff rest]

/-- The same of members, with their names. -/
theorem membersJson_ofJsonMembers_iff (members : List (String × Json)) :
    membersJson (ofJsonMembers members) = members ↔
      ∀ part ∈ Json.partsMembers members, Kept part := by
  cases members with
  | nil => exact iff_of_true rfl (List.forall_mem_nil _)
  | cons m rest =>
      obtain ⟨name, j⟩ := m
      rw [ofJsonMembers, membersJson, Json.partsMembers, List.forall_mem_append, List.cons.injEq,
        Prod.mk.injEq, toJson_ofJson_iff j, membersJson_ofJsonMembers_iff rest]
      exact and_congr_left' (and_iff_right rfl)

end

/-- The JSON of a value is kept: nothing is lost that was not lost when it was made. -/
theorem forall_kept_toJson (v : Value) : ∀ part ∈ v.toJson.parts, Kept part := by
  rw [← toJson_ofJson_iff, ofJson_toJson, toJson_nullWhere]

/-- All parts of a JSON value are kept if its integers fit 64 bits and its doubles are finite, and
only then. -/
theorem forall_kept_iff (j : Json) : (∀ part ∈ j.parts, Kept part) ↔
    (∀ n, .int n ∈ j.parts → -Text.int64Limit ≤ n ∧ n < Text.int64Limit) ∧ j.DoublesFinite := by
  constructor
  · intro h
    exact ⟨fun n hn => h _ hn, fun x hx => h _ hx⟩
  · rintro ⟨hints, hdoubles⟩ part hpart
    cases part with
    | int n => exact hints n hpart
    | float x => exact hdoubles x hpart
    | null | bool | string | array | object => trivial

/-- A value that becomes JSON and a value again has null in place of its host objects and of its
doubles that are not finite, and is otherwise the same. JSON that becomes a value and JSON again is
the same if all of its integers fit 64 bits, doubles in JSON being finite; and only then. -/
theorem json_roundTrip :
    (∀ v : Value, ofJson v.toJson = v.nullWhere isLost) ∧
      ∀ j : Json, (ofJson j).toJson = j ↔
        (∀ n, .int n ∈ j.parts → -Text.int64Limit ≤ n ∧ n < Text.int64Limit) ∧
          ∀ x, .float x ∈ j.parts → x.isFinite = true := by
  refine ⟨ofJson_toJson, fun j => ?_⟩
  rw [toJson_ofJson_iff, forall_kept_iff]
  exact Iff.rfl

end Value

end PathQuery
