import PathQuery.Error
import PathQuery.Expression.Basic
import PathQuery.Matches
import PathQuery.Selection.Basic

/-!
# Queries

A query is an expression that has been read, so that it can be run on any number of documents. To
read it can fail for its form; to run it can fail for a script in it, and for nothing else.
-/

namespace PathQuery

/-- An expression together with the selectors it stands for. Reference: `CompiledPath`. -/
structure Query where
  expression : String
  selectors : List Selector
  deriving DecidableEq, Repr

namespace Query

/-- The error of an expression with a fault, at the place of the fault. Reference:
`syntax_error`. -/
def malformed (expression : String) (f : Expression.Fault) : Error :=
  .malformed expression f.cause.reason (some (f.position expression.toList))

/-- The selectors that an expression stands for. Reference: `tokenize`. -/
def readSelectors (expression : String) : Except Error (List Selector) :=
  (Expression.readExpression expression.toList).mapError (malformed expression)

/-- The query that an expression stands for. Reference: `CompiledPath.compile`. -/
def compile (expression : String) : Except Error Query :=
  (readSelectors expression).map fun selectors => ⟨expression, selectors⟩

/-- What a query finds in the document with the given root. Reference: `CompiledPath.evaluate`. -/
def run (q : Query) (root : Value) (config : Config) : Except Error Matches :=
  (select root config q.selectors).map fun values => ⟨values, config⟩

/-- The expression of a query, marked as one. Reference: `CompiledPath.fmt`. -/
def describe (q : Query) : String := "JSONPath('" ++ q.expression ++ "')"

end Query

instance : ToString Query := ⟨Query.describe⟩

/-- What an expression finds in the document with the given root. -/
def findIn (root : Value) (config : Config) (expression : String) : Except Error Matches :=
  (Query.compile expression).bind fun q => q.run root config

/-- What an expression finds in the array of all matches, with their configuration. Reference:
`ResultCollection.find`. -/
def Matches.find (found : Matches) (expression : String) : Except Error Matches :=
  findIn (.array found.values) found.config expression

end PathQuery
