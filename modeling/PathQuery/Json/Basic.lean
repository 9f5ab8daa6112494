import PathQuery.Binary64.Basic

/-!
# JSON

The values that a JSON text can stand for. Members keep their order. A number that is written as an
integer stays one as long as it fits 64 bits with or without a sign; every other number is a double.
-/

namespace PathQuery

/-- A JSON value. -/
inductive Json where
  | null
  | bool (b : Bool)
  | int (n : Int)
  | float (x : Binary64)
  | string (s : String)
  | array (elements : List Json)
  | object (members : List (String × Json))

namespace Json

instance : Inhabited Json := ⟨null⟩

/-- The members with the value of the given name set: in the place of the member that has this name,
or behind all others. -/
def putMember (members : List (String × Json)) (name : String) (value : Json) :
    List (String × Json) :=
  match members with
  | [] => [(name, value)]
  | (other, old) :: rest =>
    if other = name then (name, value) :: rest else (other, old) :: putMember rest name value

/-- The members with names that differ: a repeated name keeps its first place and its last value. -/
def distinctMembers (members : List (String × Json)) : List (String × Json) :=
  members.foldl (fun kept m => putMember kept m.1 m.2) []

/-- The member of the given name. -/
def member? (members : List (String × Json)) (name : String) : Option Json :=
  (members.find? fun m => m.1 == name).map Prod.snd

end Json

end PathQuery
