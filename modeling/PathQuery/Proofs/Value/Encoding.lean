import PathQuery.Document
import PathQuery.Json.Compact

/-!
# Two ways to JSON

A value becomes JSON at once (`Value.toJson`), or its parts are handed to a sink one after the other
(`Value.encode`). Both come to the same (`Value.encode_eq_toJson`), whichever sink that is: if it
follows a function on JSON values (`Json.Sink.Follows`), it makes of a value what the function makes
of the JSON of the value (`Json.Sink.Follows.encode_eq`). The sink that builds a JSON value follows
the identity, and the one that writes compact text follows `Json.compact`.
-/

namespace PathQuery

namespace Json

/-- A sink makes of the parts of a value what a function makes of the JSON value that has these
parts. A double that is not finite is in no JSON value; the sink makes null of it. -/
structure Sink.Follows {α : Type} (sink : Sink α) (f : Json → α) : Prop where
  null : f .null = sink.null
  bool (b : Bool) : f (.bool b) = sink.bool b
  int (n : Int64) : f (.int n.toInt) = sink.int n
  float (x : Binary64) (hx : x.isFinite = true) : f (.float x) = sink.float x
  notFinite (x : Binary64) (hx : x.isFinite = false) : sink.float x = sink.null
  string (s : String) : f (.string s) = sink.string s
  array (elements : List Json) : f (.array elements) = sink.array (elements.map f)
  object (members : List (String × Json)) :
    f (.object members) = sink.object (members.map fun m => (m.1, f m.2))

/-- The sink that builds a JSON value makes of the parts of a JSON value this value itself. -/
theorem tree_follows : tree.Follows id where
  null := rfl
  bool _ := rfl
  int _ := rfl
  float _ hx := (if_pos hx).symm
  notFinite _ hx := if_neg (Bool.eq_false_iff.1 hx)
  string _ := rfl
  array elements := congrArg Json.array (List.map_id elements).symm
  object members := congrArg Json.object (List.map_id members).symm

/-- Elements are written one by one. -/
theorem compactElements_eq (elements : List Json) :
    compactElements elements = elements.map compact := by
  induction elements with
  | nil => rw [compactElements, List.map_nil]
  | cons j rest ih => rw [compactElements, ih, List.map_cons]

/-- Members are written one by one, with their names. -/
theorem compactMembers_eq (members : List (String × Json)) :
    compactMembers members = members.map fun m => (m.1, m.2.compact) := by
  induction members with
  | nil => rw [compactMembers, List.map_nil]
  | cons m rest ih => rw [compactMembers, ih, List.map_cons]

/-- The sink that writes compact text makes of the parts of a JSON value its compact text. -/
theorem compactText_follows : compactText.Follows compact where
  null := rfl
  bool _ := rfl
  int _ := rfl
  float _ _ := rfl
  notFinite _ hx := if_neg (Bool.eq_false_iff.1 hx)
  string _ := rfl
  array elements := congrArg writeArray (compactElements_eq elements)
  object members := congrArg writeObject (compactMembers_eq members)

namespace Sink.Follows

variable {α : Type} {sink : Sink α} {f : Json → α}

/-- A scalar is handed to a sink as its JSON is. -/
theorem encodeScalar_eq (h : sink.Follows f) (s : Scalar) :
    Value.encodeScalar sink s = f (Value.scalarJson s) := by
  cases s with
  | null => exact h.null.symm
  | bool b => exact (h.bool b).symm
  | number n =>
      cases n with
      | int n => exact (h.int n).symm
      | float x =>
          rw [Value.encodeScalar, Value.scalarJson]
          cases hx : x.isFinite with
          | true => exact (h.float x hx).symm
          | false => exact (h.notFinite x hx).trans h.null.symm
  | string s => exact (h.string s).symm

mutual

/-- What a sink makes of a value is what is made of the JSON of the value. -/
theorem encode_eq (h : sink.Follows f) (v : Value) : v.encode sink = f v.toJson := by
  cases v with
  | object members =>
      rw [Value.encode, Value.toJson, h.object, h.encodeMembers_eq members]
  | array elements =>
      rw [Value.encode, Value.toJson, h.array, h.encodeElements_eq elements]
  | scalar s => rw [Value.encode, Value.toJson, h.encodeScalar_eq]
  | host identity answer => rw [Value.encode, Value.toJson, h.null]

/-- The same of elements. -/
theorem encodeElements_eq (h : sink.Follows f) (elements : List Value) :
    Value.encodeElements sink elements = (Value.elementsJson elements).map f := by
  cases elements with
  | nil => rw [Value.encodeElements, Value.elementsJson, List.map_nil]
  | cons v rest =>
      rw [Value.encodeElements, Value.elementsJson, List.map_cons, h.encode_eq v,
        h.encodeElements_eq rest]

/-- The same of members, with their names. -/
theorem encodeMembers_eq (h : sink.Follows f) (members : List (String × Value)) :
    Value.encodeMembers sink members =
      (Value.membersJson members).map fun m => (m.1, f m.2) := by
  cases members with
  | nil => rw [Value.encodeMembers, Value.membersJson, List.map_nil]
  | cons m rest =>
      rw [Value.encodeMembers, Value.membersJson, List.map_cons, h.encode_eq m.2,
        h.encodeMembers_eq rest]

end

end Sink.Follows

end Json

/-- What a sink makes of matches is what is made of the JSON array of them. -/
theorem Json.Sink.Follows.encode_matches_eq {α : Type} {sink : Json.Sink α} {f : Json → α}
    (h : sink.Follows f) (found : Matches) : found.encode sink = f found.toJson := by
  have helements : found.values.map (Value.encode sink) =
      (found.values.map Value.toJson).map f := by
    rw [List.map_map]
    exact List.map_congr_left fun v _ => h.encode_eq v
  rw [Matches.encode, helements, Matches.toJson, h.array]

/-- What is encoded part by part is what becomes JSON at once: a sink that follows a function makes
of a value what the function makes of the JSON of the value, and the same of matches; and the
document of what a sink of JSON values builds is that of the JSON of the value. -/
theorem Value.encode_eq_toJson {α : Type} {sink : Json.Sink α} {f : Json → α}
    (h : sink.Follows f) :
    (∀ v : Value, v.encode sink = f v.toJson) ∧
      (∀ found : Matches, found.encode sink = f found.toJson) ∧
      ∀ builder : Json.Sink Json, builder.Follows id →
        ∀ v : Value, (Document.ofEncoded v builder).root = .ofJson v.toJson :=
  ⟨h.encode_eq, h.encode_matches_eq, fun _ hbuilder v => congrArg ofJson (hbuilder.encode_eq v)⟩

/-- The JSON value that is built of the parts of a value, the compact text that is written of them,
also of matches, and the document of them are those of the JSON of the value. -/
theorem Value.encode_eq_toJson_compactText :
    Json.tree.Follows id ∧ Json.compactText.Follows Json.compact ∧
      (∀ v : Value, v.encode Json.tree = v.toJson) ∧
      (∀ v : Value, v.toText = v.toJson.toText) ∧
      (∀ found : Matches, found.toText = found.toJson.toText) ∧
      ∀ v : Value, (Document.ofEncoded v).root = .ofJson v.toJson := by
  obtain ⟨hvalues, hmatches, hdocuments⟩ := encode_eq_toJson Json.compactText_follows
  exact ⟨Json.tree_follows, Json.compactText_follows,
    (encode_eq_toJson Json.tree_follows).1, fun v => congrArg String.ofList (hvalues v),
    fun found => congrArg String.ofList (hmatches found), hdocuments _ Json.tree_follows⟩

end PathQuery
