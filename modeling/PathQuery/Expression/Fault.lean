import PathQuery.Text.Integer
import PathQuery.Text.Quoted

/-!
# Why an expression cannot be read

A fault is a cause and the text that was still ahead when it was met. The place of the fault in the
whole expression is the number of characters that were not ahead any more, so no function that reads
a part of an expression has to know where that part begins.

The contents of a bracket are read apart from what is around them, without the blanks and brackets
at their ends. A fault in them is counted on from behind the opening bracket by the number of
characters it was met at, whatever was taken off before. Nothing keeps that sum within the text.
-/

namespace PathQuery.Expression

/-- What is wrong with an expression. Reference: the calls of `syntax_error`. -/
inductive Cause where
  /-- The sign of the current value stands outside a filter. -/
  | currentOutsideFilter
  /-- A bracket closes that did not open. -/
  | strayBracket
  /-- A parenthesis closes that did not open. -/
  | strayParenthesis
  /-- A bracket does not close. -/
  | openBracket
  /-- Something within a bracket does not close. -/
  | openParenthesis
  /-- No selector begins with this character. -/
  | unexpected (c : Char)
  /-- Three dots in a row. -/
  | tripleDot
  /-- A dot without a name. -/
  | nameExpected
  /-- A quoted text cannot be read. -/
  | quoted (failure : Text.Quoted.Failure)
  /-- Nothing is in the brackets. -/
  | emptyBrackets
  /-- Nothing is in the parentheses. -/
  | emptyScript
  /-- A script goes on behind its parentheses. -/
  | openScript
  /-- A slice has more than two colons. -/
  | manyBounds
  /-- A slice has a step that leads nowhere. -/
  | badStep (step : Int64)
  /-- A text stands where an integer must. -/
  | integerExpected (found : List Char)
  /-- A list has a gap. -/
  | emptyKey
  /-- A list holds a wildcard. -/
  | wildcardInList
  /-- A key goes on behind its closing quote. -/
  | afterQuote
  /-- A filter does not begin at the current value. -/
  | currentExpected
  /-- A dot in a filter without a name. -/
  | pathNameExpected
  /-- A bracket in a filter without a key. -/
  | pathKeyExpected
  /-- A bracket in a filter does not close behind its key. -/
  | pathBracketExpected
  /-- Something else than a comparison follows the path of a filter. -/
  | comparisonExpected
  /-- Something else than a literal follows a comparison. -/
  | literalExpected
  /-- Nothing follows a comparison. -/
  | literalMissing
  /-- A word is no literal. -/
  | unknownWord (word : List Char)
  /-- A text stands where a number must. -/
  | numberExpected (found : List Char)
  /-- A filter goes on behind its literal. -/
  | afterLiteral (c : Char)
  deriving DecidableEq, Repr

namespace Cause

/-- A cause in words. Reference: the reasons given to `syntax_error`, and `QuoteError.reason`. -/
def reason : Cause → String
  | .currentOutsideFilter => "'@' is only valid inside a filter expression"
  | .strayBracket => "unbalanced ']' without matching '['"
  | .strayParenthesis => "unbalanced ')' without matching '('"
  | .openBracket => "unbalanced '[' without matching ']'"
  | .openParenthesis => "unbalanced '(' without matching ')'"
  | .unexpected c => "unexpected character '" ++ c.toString ++ "', expected '.', '..' or '['"
  | .tripleDot => "triple dot '...' is invalid, use '..' for recursive descent"
  | .nameExpected => "expected key or '*' after '.'"
  | .quoted .unterminated => "unterminated string literal"
  | .quoted .invalidEscape => "invalid escape sequence"
  | .emptyBrackets => "empty brackets '[]'"
  | .emptyScript => "empty script expression '()'"
  | .openScript => "script expression must be wrapped in '(' and ')'"
  | .manyBounds => "slice accepts at most three parts 'start:end:step'"
  | .badStep step =>
    "slice step must be a positive integer, found " ++ String.ofList (Text.writeInt64 step)
  | .integerExpected found => "expected integer, found '" ++ String.ofList found ++ "'"
  | .emptyKey => "empty key in bracket list"
  | .wildcardInList => "wildcard '*' cannot be combined with other keys"
  | .afterQuote => "unexpected characters after closing quote"
  | .currentExpected => "filter expression must start with '@'"
  | .pathNameExpected => "expected key after '.'"
  | .pathKeyExpected => "expected quoted key or integer inside '[]'"
  | .pathBracketExpected => "expected ']'"
  | .comparisonExpected => "expected comparison operator"
  | .literalExpected => "expected literal after operator"
  | .literalMissing => "missing literal after operator"
  | .unknownWord word => "unknown literal '" ++ String.ofList word ++ "'"
  | .numberExpected found => "invalid number '" ++ String.ofList found ++ "'"
  | .afterLiteral c => "unexpected character '" ++ c.toString ++ "' after literal"

end Cause

/-- A cause, the text that was still ahead at some place, and the number of characters that are
counted on from that place. -/
structure Fault where
  cause : Cause
  ahead : List Char
  beyond : Nat
  deriving DecidableEq, Repr

namespace Fault

/-- A fault that is met in front of the text `ahead`. -/
abbrev met (cause : Cause) (ahead : List Char) : Fault := ⟨cause, ahead, 0⟩

/-- The number of characters that are counted up to the fault from the beginning of `text`.
Reference: `QueryScanner.error` and the other sums given to `syntax_error`. -/
def position (f : Fault) (text : List Char) : Nat := text.length - f.ahead.length + f.beyond

/-- A fault in the text `inner`, counted on from the beginning of the text `outer`. Reference: the
`offset` of `lex_bracket_content` and `parse_query`. -/
def carry (inner outer : List Char) (f : Fault) : Fault := ⟨f.cause, outer, f.position inner⟩

end Fault

/-- What reading a part of an expression yields, with the text behind that part. -/
abbrev Reading (α : Type) := Except Fault (α × List Char)

/-- Reads a quoted text from behind its opening `quote`; the fault is met at that quote. -/
def readQuoted (quote : Char) (text : List Char) : Reading (List Char) :=
  match Text.Quoted.read quote text with
  | .error failure => .error (.met (.quoted failure) (quote :: text))
  | .ok r => .ok r

/-- A quoted text takes its closing quote at least. -/
theorem length_of_readQuoted {quote : Char} {text value rest : List Char}
    (h : readQuoted quote text = .ok (value, rest)) : rest.length < text.length := by
  unfold readQuoted at h
  split at h
  · cases h
  · rename_i hr
    cases h
    exact Text.Quoted.length_of_read hr

end PathQuery.Expression
