/-!
# Errors

What a query can fail with: an expression that is not well formed, a script that asks for more than
arithmetic on a length, or a document that is not JSON. `message` says what happened and shows the
expression; `describe` says of which kind it is as well.
-/

namespace PathQuery

/-- Why a query or a document is refused. Reference: `ErrorKind`, `JsonPathError`. -/
inductive Error where
  /-- An expression is not well formed, for a reason and at a position if one is known. -/
  | malformed (expression reason : String) (position : Option Nat)
  /-- A script is none that can be evaluated. -/
  | unsupportedScript (script : String)
  /-- A text is not JSON. -/
  | invalidJson (reason : String)
  deriving DecidableEq, Repr

namespace Error

/-- The kind of an error in words. Reference: `ErrorKind.fmt`. -/
def kind : Error → String
  | .malformed .. => "syntax"
  | .unsupportedScript _ => "unsupported script"
  | .invalidJson _ => "invalid json"

/-- What happened. Reference: `syntax_error`, `unsupported_script_error`, `invalid_json_error`. -/
def message : Error → String
  | .malformed expression reason none => "invalid expression '" ++ expression ++ "': " ++ reason
  | .malformed expression reason (some position) =>
    "invalid expression '" ++ expression ++ "': " ++ reason ++ " at position " ++ position.repr
  | .unsupportedScript script =>
    "script expression '(" ++ script ++ ")' is not supported; "
      ++ "only '@.length', '@.length-N' and '@.length+N' are evaluated"
  | .invalidJson reason => reason

/-- The number of characters of the expression before the place of the error. Reference: the
`position` of `JsonPathError`. -/
def position? : Error → Option Nat
  | .malformed _ _ position => position
  | _ => none

/-- Whether an expression is to blame for its form. Reference: `JsonPathError.is_syntax`. -/
def isMalformed : Error → Bool
  | .malformed .. => true
  | _ => false

/-- Whether an expression is to blame for a script in it. Reference:
`JsonPathError.is_unsupported_script`. -/
def isUnsupportedScript : Error → Bool
  | .unsupportedScript _ => true
  | _ => false

/-- The kind of an error and what happened. Reference: `JsonPathError.fmt`. -/
def describe (e : Error) : String := "JSONPath " ++ e.kind ++ " error: " ++ e.message

end Error

instance : ToString Error := ⟨Error.describe⟩

end PathQuery
