import PathQuery.Binary64.Basic
import PathQuery.Binary64.Layout
import PathQuery.Binary64.Rounding
import PathQuery.Binary64.Shortest
import PathQuery.Config
import PathQuery.Config.Json
import PathQuery.Decimal
import PathQuery.Document
import PathQuery.Error
import PathQuery.Expression.Basic
import PathQuery.Expression.Fault
import PathQuery.Expression.Filter
import PathQuery.Expression.Group
import PathQuery.Json.Basic
import PathQuery.Json.Compact
import PathQuery.Json.Form
import PathQuery.Json.Leaf
import PathQuery.Json.Lexeme
import PathQuery.Json.Sink
import PathQuery.Key
import PathQuery.Matches
import PathQuery.Number
import PathQuery.Proofs.Binary64.Basic
import PathQuery.Proofs.Binary64.Denotation
import PathQuery.Proofs.Binary64.Nearest
import PathQuery.Proofs.Binary64.Rounding
import PathQuery.Proofs.Binary64.Shortest
import PathQuery.Proofs.Comparison
import PathQuery.Proofs.Decimal
import PathQuery.Proofs.Document
import PathQuery.Proofs.Expression.Append
import PathQuery.Proofs.Expression.Balance
import PathQuery.Proofs.Expression.Closing
import PathQuery.Proofs.Expression.Contents
import PathQuery.Proofs.Expression.Fault
import PathQuery.Proofs.Expression.Grammar
import PathQuery.Proofs.Expression.Group
import PathQuery.Proofs.Expression.Integer
import PathQuery.Proofs.Expression.Misread
import PathQuery.Proofs.Expression.Nesting
import PathQuery.Proofs.Expression.Number
import PathQuery.Proofs.Expression.Numeral
import PathQuery.Proofs.Expression.Offset
import PathQuery.Proofs.Expression.Path
import PathQuery.Proofs.Expression.PathGrammar
import PathQuery.Proofs.Expression.Position
import PathQuery.Proofs.Expression.Range
import PathQuery.Proofs.Expression.Relative
import PathQuery.Proofs.Expression.Segment
import PathQuery.Proofs.Expression.Spans
import PathQuery.Proofs.Expression.Spelling
import PathQuery.Proofs.Expression.Survival
import PathQuery.Proofs.Expression.WellFormed
import PathQuery.Proofs.Expression.Written
import PathQuery.Proofs.Json.Numeral
import PathQuery.Proofs.Json.Reader
import PathQuery.Proofs.Key
import PathQuery.Proofs.Number
import PathQuery.Proofs.Number.Denotation
import PathQuery.Proofs.Outcome
import PathQuery.Proofs.Query.Below
import PathQuery.Proofs.Query.Equality
import PathQuery.Proofs.Query.Failure
import PathQuery.Proofs.Query.Find
import PathQuery.Proofs.Query.Numeral
import PathQuery.Proofs.Query.Root
import PathQuery.Proofs.Query.Steps
import PathQuery.Proofs.Scalar
import PathQuery.Proofs.Selection.Basic
import PathQuery.Proofs.Selection.Discern
import PathQuery.Proofs.Selection.Element
import PathQuery.Proofs.Selection.Hosts
import PathQuery.Proofs.Selection.Nodewise
import PathQuery.Proofs.Selection.Order
import PathQuery.Proofs.Selection.Origin
import PathQuery.Proofs.Selection.Partition
import PathQuery.Proofs.Selection.Path
import PathQuery.Proofs.Selection.Position
import PathQuery.Proofs.Selection.Progression
import PathQuery.Proofs.Selection.Script
import PathQuery.Proofs.Selection.Simulation
import PathQuery.Proofs.Selection.Slice
import PathQuery.Proofs.Text.Blank
import PathQuery.Proofs.Text.Escaped
import PathQuery.Proofs.Text.Integer
import PathQuery.Proofs.Text.Items
import PathQuery.Proofs.Text.Pieces
import PathQuery.Proofs.Text.Quoted
import PathQuery.Proofs.Text.Word
import PathQuery.Proofs.Value.Descent
import PathQuery.Proofs.Value.Encoding
import PathQuery.Proofs.Value.Equality
import PathQuery.Proofs.Value.Equivalence
import PathQuery.Proofs.Value.Hosts
import PathQuery.Proofs.Value.Json
import PathQuery.Proofs.Value.Place
import PathQuery.Proofs.Value.Preorder
import PathQuery.Query
import PathQuery.Scalar
import PathQuery.Selection.Basic
import PathQuery.Selection.Script
import PathQuery.Selection.Slice
import PathQuery.Selector
import PathQuery.Text.Blank
import PathQuery.Text.Escaped
import PathQuery.Text.Hidden
import PathQuery.Text.Integer
import PathQuery.Text.Letter
import PathQuery.Text.Pieces
import PathQuery.Text.Quoted
import PathQuery.Text.Ranges
import PathQuery.Value.Access
import PathQuery.Value.Basic
import PathQuery.Value.Descent
import PathQuery.Value.Equality
import PathQuery.Value.Json
