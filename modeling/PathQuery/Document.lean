import PathQuery.Config.Json
import PathQuery.Json.Form
import PathQuery.Query

/-!
# Documents

A document is a value to be searched, with the configuration to search it with. `find` searches it;
`report` is what a search tells the log: every failure, and each success of a document that is being
debugged.
-/

namespace PathQuery

/-- A value that can be searched. Reference: `JsonPath`. -/
structure Document where
  root : Value
  config : Config := {}
  /-- Whether successful searches are reported too. -/
  debugging : Bool := false

namespace Document

/-- A document that is searched with the options that the bits ask for. Reference:
`JsonPath.with_flags`. -/
def ofFlags (root : Value) (flags : UInt32) : Document := { root, config := .ofFlags flags }

/-- The document of a JSON text, as a reader of JSON reads it. Reference:
`JsonPath.from_json_str`. -/
def ofText (text : String) (reader : Json.Reader := Json.read?) : Except Error Document :=
  match Value.ofText? text reader with
  | some root => .ok { root }
  | none => .error (.invalidJson "the text is not JSON")

/-- The document of a value that is encoded first, so that nothing but data is left of it.
Reference: `JsonPath.from_serializable`. -/
def ofEncoded (v : Value) (sink : Json.Sink Json := Json.tree) : Document :=
  { root := .ofJson (v.encode sink) }

/-- The same document, with successful searches reported. Reference: `JsonPath.debug`. -/
def debug (d : Document) : Document := { d with debugging := true }

/-- The query that an expression stands for. Reference: `JsonPath.compile`. -/
def compile (_ : Document) (expression : String) : Except Error Query := Query.compile expression

/-- What an expression finds in a document. Reference: `JsonPath.find`. -/
def find (d : Document) (expression : String) : Except Error Matches :=
  findIn d.root d.config expression

/-- What a search for an expression with the given outcome tells the log. Reference: the log of
`JsonPath.find`. -/
def report (d : Document) (expression : String) : Except Error Matches → List String
  | .ok found =>
    if d.debugging then
      ["JsonPath: '" ++ expression ++ "' matched " ++ found.size.repr ++ " values"]
    else []
  | .error e => ["JsonPath: '" ++ expression ++ "' failed: " ++ e.describe]

/-- A truth value in words. -/
def boolText (b : Bool) : String := if b then "true" else "false"

/-- A document in words, without its contents. Reference: `JsonPath.fmt`. -/
def describe (d : Document) : String :=
  "JsonPath \x7b root: \"" ++ d.root.kind ++ "\", config: JsonPathConfig \x7b allow_dynamic: "
    ++ boolText d.config.allowDynamic ++ " \x7d, debug_enabled: " ++ boolText d.debugging ++ " \x7d"

end Document

end PathQuery
