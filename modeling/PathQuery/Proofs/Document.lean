import Mathlib.Data.List.Induction
import Mathlib.Data.List.Nodup
import PathQuery.Document
import PathQuery.Proofs.Value.Equality

/-!
# Documents have distinct names

A JSON text may give the same name to several members of an object. An object that is read keeps one
of them (`Json.nodup_distinctMembers`). `Json.Inherited` says which properties of JSON that is read
follow from this: those that pass from the parts of an array, or of an object with distinct names,
to the whole. In a document from a text the names are therefore distinct at every depth
(`Document.unambiguous_of_ofText`). Encoding a value changes no names
(`Document.unambiguous_ofEncoded`).
-/

namespace PathQuery

namespace Json

variable {members : List (String × Json)} {m : String × Json} {name : String} {value : Json}

/-- Setting a member keeps the names, and adds one if it is new. -/
theorem map_fst_putMember (members : List (String × Json)) (name : String) (value : Json) :
    (putMember members name value).map Prod.fst =
      if name ∈ members.map Prod.fst then members.map Prod.fst
      else members.map Prod.fst ++ [name] := by
  induction members with
  | nil => simp [putMember]
  | cons m rest ih =>
      obtain ⟨other, old⟩ := m
      rw [putMember]
      by_cases hname : other = name
      · simp [hname]
      · rw [if_neg hname, List.map_cons, ih]
        simp only [List.map_cons, List.mem_cons, Ne.symm hname, false_or]
        split <;> rfl

/-- Setting a member keeps names distinct. -/
theorem nodup_putMember (h : (members.map Prod.fst).Nodup) (name : String) (value : Json) :
    ((putMember members name value).map Prod.fst).Nodup := by
  rw [map_fst_putMember]
  split
  · exact h
  · rename_i hnew
    exact List.nodup_append_comm.1 (List.nodup_cons.2 ⟨hnew, h⟩)

/-- When a member is set there are no others than before and the one that is set. -/
theorem mem_of_mem_putMember (h : m ∈ putMember members name value) :
    m ∈ members ∨ m = (name, value) := by
  induction members with
  | nil => exact .inr (List.mem_singleton.1 h)
  | cons k rest ih =>
      obtain ⟨other, old⟩ := k
      rw [putMember] at h
      split at h
      · rcases List.mem_cons.1 h with rfl | hrest
        · exact .inr rfl
        · exact .inl (List.mem_cons_of_mem _ hrest)
      · rcases List.mem_cons.1 h with rfl | hrest
        · exact .inl List.mem_cons_self
        · exact (ih hrest).imp_left (List.mem_cons_of_mem _)

/-- The names that are kept are distinct. -/
theorem nodup_distinctMembers (members : List (String × Json)) :
    ((distinctMembers members).map Prod.fst).Nodup := by
  rw [distinctMembers]
  induction members using List.reverseRecOn with
  | nil => exact List.nodup_nil
  | append_singleton rest m ih =>
      rw [List.foldl_append]
      exact nodup_putMember ih m.1 m.2

/-- No members are kept that were not there. -/
theorem mem_of_mem_distinctMembers (h : m ∈ distinctMembers members) : m ∈ members := by
  rw [distinctMembers] at h
  induction members using List.reverseRecOn with
  | nil => exact h
  | append_singleton rest k ih =>
      rw [List.foldl_append] at h
      rw [List.mem_append]
      rcases mem_of_mem_putMember h with hrest | rfl
      · exact .inl (ih hrest)
      · exact .inr List.mem_cons_self

end Json

namespace Value

/-- The values of JSON elements are made one by one. -/
theorem ofJsonElements_eq (elements : List Json) :
    ofJsonElements elements = elements.map ofJson := by
  induction elements with
  | nil => rw [ofJsonElements, List.map_nil]
  | cons j rest ih => rw [ofJsonElements, ih, List.map_cons]

/-- The values of JSON members are made one by one, and have their names. -/
theorem ofJsonMembers_eq (members : List (String × Json)) :
    ofJsonMembers members = members.map fun m => (m.1, ofJson m.2) := by
  induction members with
  | nil => rw [ofJsonMembers, List.map_nil]
  | cons m rest ih => rw [ofJsonMembers, ih, List.map_cons]

/-- The value of a JSON array has distinct names if those of its elements have. -/
theorem unambiguous_ofJson_array {elements : List Json}
    (h : ∀ j ∈ elements, (ofJson j).Unambiguous) : (ofJson (.array elements)).Unambiguous := by
  rw [ofJson, ofJsonElements_eq]
  refine unambiguous_iff.2 ⟨fun _ he => (nomatch he), fun w hw => ?_⟩
  obtain ⟨j, hj, rfl⟩ := List.mem_map.1 hw
  exact h j hj

/-- The value of a JSON object has distinct names if these are and those of its members have. -/
theorem unambiguous_ofJson_object {members : List (String × Json)}
    (hnames : (members.map Prod.fst).Nodup) (h : ∀ m ∈ members, (ofJson m.2).Unambiguous) :
    (ofJson (.object members)).Unambiguous := by
  rw [ofJson, ofJsonMembers_eq]
  refine unambiguous_iff.2 ⟨fun ms he => ?_, fun w hw => ?_⟩
  · cases he
    rwa [List.map_map]
  · rw [children, List.map_map] at hw
    obtain ⟨m, hm, rfl⟩ := List.mem_map.1 hw
    exact h m hm

end Value

namespace Json

open Value

/-- A property that passes from what is in a JSON value to the value: all that stands for itself has
it, so has an array if its elements have it, and so has an object with distinct names if what its
members hold has it. -/
structure Inherited (P : Json → Prop) : Prop where
  null : P .null
  bool (b : Bool) : P (.bool b)
  numeral (n : Numeral) (j : Json) (h : n.toJson? = some j) : P j
  string (s : String) : P (.string s)
  array (elements : List Json) (h : ∀ j ∈ elements, P j) : P (.array elements)
  object (members : List (String × Json)) (hnames : (members.map Prod.fst).Nodup)
    (h : ∀ m ∈ members, P m.2) : P (.object members)

namespace Inherited

variable {P : Json → Prop}

mutual

/-- What a form stands for has a property of this kind. -/
theorem of_toJson? (hP : Inherited P) {room : Nat} {form : Form} {j : Json}
    (h : form.toJson? room = some j) : P j := by
  cases form with
  | null =>
      cases h
      exact hP.null
  | bool b =>
      cases h
      exact hP.bool b
  | number n => exact hP.numeral n j h
  | string codes =>
      obtain ⟨s, -, rfl⟩ := Option.map_eq_some_iff.1 h
      exact hP.string s
  | array forms =>
      rw [Form.toJson?] at h
      split at h
      · cases h
      obtain ⟨elements, helements, rfl⟩ := Option.map_eq_some_iff.1 h
      exact hP.array elements (hP.of_elementsJson? helements)
  | object forms =>
      rw [Form.toJson?] at h
      split at h
      · cases h
      obtain ⟨members, hmembers, rfl⟩ := Option.map_eq_some_iff.1 h
      refine hP.object _ (nodup_distinctMembers members) fun m hm => ?_
      exact hP.of_membersJson? hmembers m (mem_of_mem_distinctMembers hm)

/-- Each of the elements that forms stand for has it. -/
theorem of_elementsJson? (hP : Inherited P) {room : Nat} {forms : List Form}
    {elements : List Json} (h : elementsJson? room forms = some elements) :
    ∀ j ∈ elements, P j := by
  cases forms with
  | nil =>
      cases h
      exact List.forall_mem_nil _
  | cons form rest =>
      rw [elementsJson?] at h
      obtain ⟨j, hj, h⟩ := Option.bind_eq_some_iff.1 h
      obtain ⟨others, hothers, rfl⟩ := Option.map_eq_some_iff.1 h
      exact List.forall_mem_cons.2 ⟨hP.of_toJson? hj, hP.of_elementsJson? hothers⟩

/-- What each of the members holds that forms stand for has it. -/
theorem of_membersJson? (hP : Inherited P) {room : Nat} {forms : List (Codes × Form)}
    {members : List (String × Json)} (h : membersJson? room forms = some members) :
    ∀ m ∈ members, P m.2 := by
  cases forms with
  | nil =>
      cases h
      exact List.forall_mem_nil _
  | cons k rest =>
      obtain ⟨codes, form⟩ := k
      rw [membersJson?] at h
      obtain ⟨name, -, h⟩ := Option.bind_eq_some_iff.1 h
      obtain ⟨j, hj, h⟩ := Option.bind_eq_some_iff.1 h
      obtain ⟨others, hothers, rfl⟩ := Option.map_eq_some_iff.1 h
      exact List.forall_mem_cons.2 ⟨hP.of_toJson? hj, hP.of_membersJson? hothers⟩

end

/-- JSON that is read from a text has it. -/
theorem of_read? (hP : Inherited P) {text : List Char} {j : Json} (h : read? text = some j) :
    P j := by
  obtain ⟨form, -, hform⟩ := Option.bind_eq_some_iff.1 h
  exact hP.of_toJson? hform

end Inherited

/-- A numeral stands for an integer or for a finite double, if for anything. -/
theorem eq_of_numeral {n : Numeral} {j : Json} (h : n.toJson? = some j) :
    (∃ whole, j = .int whole) ∨ ∃ x, x.isFinite = true ∧ j = .float x := by
  unfold Numeral.toJson? at h
  dsimp only at h
  generalize (if n.value.negative then -(n.value.digits : Int) else n.value.digits) = whole at h
  split at h
  · cases h
    exact .inl ⟨whole, rfl⟩
  split at h
  · rename_i hfinite
    cases h
    exact .inr ⟨_, hfinite, rfl⟩
  · cases h

/-- That the names are distinct in a value passes from what is in the JSON of the value. -/
theorem inherited_unambiguous : Inherited fun j => (ofJson j).Unambiguous where
  null := unambiguous_scalar _
  bool _ := unambiguous_scalar _
  numeral _ _ h := by
    obtain ⟨whole, rfl⟩ | ⟨x, -, rfl⟩ := eq_of_numeral h
    · exact unambiguous_scalar _
    · exact unambiguous_scalar _
  string _ := unambiguous_scalar _
  array _ := unambiguous_ofJson_array
  object _ := unambiguous_ofJson_object

end Json

/-- In the document of a text the names of each object are distinct. -/
theorem Document.unambiguous_of_ofText {text : String} {d : Document} (h : ofText text = .ok d) :
    d.root.Unambiguous := by
  unfold ofText Value.ofText? at h
  split at h
  · rename_i root hread
    cases h
    obtain ⟨j, hj, rfl⟩ := Option.map_eq_some_iff.1 hread
    exact Json.inherited_unambiguous.of_read? hj
  · cases h

/-- Elements are encoded one by one. -/
theorem Value.encodeElements_eq {α : Type} (sink : Json.Sink α) (elements : List Value) :
    encodeElements sink elements = elements.map (encode sink) := by
  induction elements with
  | nil => rw [encodeElements, List.map_nil]
  | cons v rest ih => rw [encodeElements, ih, List.map_cons]

/-- Members are encoded one by one, with their names. -/
theorem Value.encodeMembers_eq {α : Type} (sink : Json.Sink α) (members : List (String × Value)) :
    encodeMembers sink members = members.map fun m => (m.1, m.2.encode sink) := by
  induction members with
  | nil => rw [encodeMembers, List.map_nil]
  | cons m rest ih => rw [encodeMembers, ih, List.map_cons]

/-- The document of an encoded value has distinct names if the value has. -/
theorem Document.unambiguous_ofEncoded {v : Value} (h : v.Unambiguous) :
    (ofEncoded v).root.Unambiguous := by
  show (Value.ofJson (v.encode Json.tree)).Unambiguous
  induction v using Value.children_induction with
  | h v ih =>
      cases v with
      | object members =>
          rw [Value.encode, Value.encodeMembers_eq]
          refine Value.unambiguous_ofJson_object ?_ fun j hj => ?_
          · rw [List.map_map]
            exact h.nodup
          · obtain ⟨m, hm, rfl⟩ := List.mem_map.1 hj
            have hchild : m.2 ∈ (Value.object members).children := List.mem_map_of_mem hm
            exact ih _ hchild (h.of_mem_children hchild)
      | array elements =>
          rw [Value.encode, Value.encodeElements_eq]
          refine Value.unambiguous_ofJson_array fun j hj => ?_
          obtain ⟨w, hw, rfl⟩ := List.mem_map.1 hj
          exact ih w hw (h.of_mem_children hw)
      | scalar s =>
          rcases s with _ | _ | (_ | x) | _
          case number.float =>
            show (Value.ofJson (if x.isFinite then .float x else .null)).Unambiguous
            split <;> exact Value.unambiguous_scalar _
          all_goals exact Value.unambiguous_scalar _
      | host => exact Value.unambiguous_scalar _

end PathQuery
