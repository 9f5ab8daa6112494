import PathQuery.Config
import PathQuery.Json.Form

/-!
# Configurations in JSON

A configuration is an object with a member for each option. Options that are missing have their
default; members that are no options may have any form as their value, even one without a value.
An array that lists the options in their order is a configuration too.
-/

namespace PathQuery.Config

/-- The name of the only option. -/
def optionName : String := "allow_dynamic"

/-- The truth value of a form. -/
def boolOf? : Json.Form → Option Bool
  | .bool b => some b
  | _ => none

/-- The values given to the option among members, all of which must have proper names. -/
def optionValues? : List (Json.Codes × Json.Form) → Option (List Bool)
  | [] => some []
  | (codes, form) :: rest =>
    (Json.decodeString? codes).bind fun name =>
      (optionValues? rest).bind fun more =>
        if name = optionName then (boolOf? form).map (· :: more) else some more

/-- The configuration with the given values for its option, of which there can be one. -/
def ofValues? : List Bool → Option Config
  | [] => some ⟨false⟩
  | [b] => some ⟨b⟩
  | _ => none

/-- The configuration that a form stands for. Reference: `JsonPathConfig.deserialize`. -/
def ofForm? : Json.Form → Option Config
  | .object members => (optionValues? members).bind ofValues?
  | .array elements => (elements.mapM boolOf?).bind ofValues?
  | _ => none

/-- The configuration that a JSON text stands for. -/
def ofText? (text : String) : Option Config := (Json.Form.read? text.toList).bind ofForm?

/-- A configuration as a JSON value. Reference: `JsonPathConfig.serialize`. -/
def toJson (c : Config) : Json := .object [(optionName, .bool c.allowDynamic)]

end PathQuery.Config
