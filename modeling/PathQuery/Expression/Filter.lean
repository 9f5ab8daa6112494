import PathQuery.Decimal
import PathQuery.Expression.Fault
import PathQuery.Selector
import PathQuery.Text.Blank
import PathQuery.Text.Letter

/-!
# Conditions of a filter

A condition is a path from the current value, and after it either nothing or a comparison and a
literal. Blanks may stand around each of these and within brackets, but not between the keys of the
path. `readCondition` reads all of a text as a condition; the other functions read one part of it
from the front and return what is behind that part.
-/

namespace PathQuery.Expression

open Text

/-- The characters besides blanks that end a name behind a dot in a filter. Reference:
`is_path_char`. -/
def pathPunctuation : List Char :=
  ['.', '[', ']', '(', ')', '\'', '"', '=', '!', '<', '>', '&', '|', '@', ',']

/-- A character of a name behind a dot in a filter. Reference: `is_path_char`. -/
def isPathChar (c : Char) : Bool := !isBlank c && !pathPunctuation.contains c

/-- A character of a position in a filter, whether or not it stands in its place. Reference:
`QueryScanner.parse_integer`. -/
def isPositionChar (c : Char) : Bool := c.isDigit || c == '-'

/-- A character of a number in a filter, whether or not it stands in its place. Reference:
`QueryScanner.parse_number`. -/
def isNumberChar (c : Char) : Bool :=
  c.isDigit || c == '-' || c == '+' || c == '.' || c == 'e' || c == 'E'

/-- What a digit or a minus sign begins is read as a number. Reference:
`QueryScanner.parse_literal`, `lex_keys`. -/
def startsNumber (c : Char) : Bool := c == '-' || c.isDigit

/-- Reads the name behind a dot. Reference: the dot of `QueryScanner.parse_path`. -/
def readPathName (text : List Char) : Reading Key :=
  let name := text.takeWhile isPathChar
  if name = [] then .error (.met .pathNameExpected text)
  else .ok (.name (String.ofList name), text.dropWhile isPathChar)

/-- Reads a quoted name or a position. Reference: the key of `QueryScanner.parse_path`, with
`parse_string` and `parse_integer`. -/
def readPathKey : List Char → Reading Key
  | [] => .error (.met .pathKeyExpected [])
  | c :: rest =>
    if Quoted.isQuote c then
      (readQuoted c rest).map fun (name, rest) => (.name (String.ofList name), rest)
    else if startsNumber c then
      let found := (c :: rest).takeWhile isPositionChar
      let rest := (c :: rest).dropWhile isPositionChar
      match readInt64? found with
      | some i => .ok (.position i, rest)
      | none => .error (.met (.integerExpected found) rest)
    else .error (.met .pathKeyExpected (c :: rest))

/-- Reads a key from behind its opening bracket, and its closing bracket. Reference: the bracket of
`QueryScanner.parse_path`. -/
def readPathBracket (text : List Char) : Reading Key :=
  match readPathKey (skipBlanks text) with
  | .error f => .error f
  | .ok (key, rest) =>
    match skipBlanks rest with
    | ']' :: rest => .ok (key, rest)
    | rest => .error (.met .pathBracketExpected rest)

/-- A name takes nothing that comes after it. -/
theorem length_of_readPathName {text rest : List Char} {key : Key}
    (h : readPathName text = .ok (key, rest)) : rest.length ≤ text.length := by
  unfold readPathName at h
  dsimp only at h
  split at h
  · cases h
  · cases h
    exact (List.dropWhile_sublist isPathChar).length_le

/-- A key takes nothing that comes after it. -/
theorem length_of_readPathKey {text rest : List Char} {key : Key}
    (h : readPathKey text = .ok (key, rest)) : rest.length ≤ text.length := by
  unfold readPathKey at h
  split at h
  · cases h
  · rename_i c text
    split at h
    · cases hq : readQuoted c text with
      | error f => simp [hq, Except.map] at h
      | ok p =>
        simp only [hq, Except.map, Except.ok.injEq, Prod.mk.injEq] at h
        have := length_of_readQuoted hq
        rw [← h.2, List.length_cons]
        omega
    · split at h
      · dsimp only at h
        split at h
        · cases h
          exact (List.dropWhile_sublist isPositionChar).length_le
        · cases h
      · cases h

/-- A key in brackets takes nothing that comes after them. -/
theorem length_of_readPathBracket {text rest : List Char} {key : Key}
    (h : readPathBracket text = .ok (key, rest)) : rest.length ≤ text.length := by
  unfold readPathBracket at h
  split at h
  · cases h
  · rename_i k more hk
    split at h
    · rename_i rest hr
      cases h
      have h₁ := length_of_readPathKey hk
      have h₂ := length_skipBlanks text
      have h₃ := length_skipBlanks more
      rw [hr, List.length_cons] at h₃
      omega
    · cases h

/-- Reads the keys of a path, as many as follow one another. Reference:
`QueryScanner.parse_path`. -/
def readPath : List Char → Reading (List Key)
  | '.' :: text =>
    match _h : readPathName text with
    | .error f => .error f
    | .ok (key, rest) => (readPath rest).map fun (path, rest) => (key :: path, rest)
  | '[' :: text =>
    match _h : readPathBracket text with
    | .error f => .error f
    | .ok (key, rest) => (readPath rest).map fun (path, rest) => (key :: path, rest)
  | text => .ok ([], text)
termination_by text => text.length
decreasing_by
  · exact Nat.lt_succ_of_le (length_of_readPathName _h)
  · exact Nat.lt_succ_of_le (length_of_readPathBracket _h)

/-- Reads the sign of a comparison, as long a one as there is. Equality has three. Reference:
`QueryScanner.parse_operator`. -/
def readComparison : List Char → Reading Comparison
  | '=' :: '=' :: '=' :: rest => .ok (.eq, rest)
  | '=' :: '=' :: rest => .ok (.eq, rest)
  | '!' :: '=' :: rest => .ok (.ne, rest)
  | '<' :: '=' :: rest => .ok (.le, rest)
  | '>' :: '=' :: rest => .ok (.ge, rest)
  | '<' :: rest => .ok (.lt, rest)
  | '>' :: rest => .ok (.gt, rest)
  | '=' :: rest => .ok (.eq, rest)
  | text => .error (.met .comparisonExpected text)

/-- The power of ten that stands behind the digits of a number: nothing, or a letter and an integer
with an optional sign. Reference: the parse of a double in `QueryScanner.parse_number`. -/
def readExponent? : List Char → Option Int
  | [] => some 0
  | e :: text =>
    if e = 'e' ∨ e = 'E' then
      match text with
      | '-' :: digits => (readNat? digits).map fun n => -(n : Int)
      | '+' :: digits => (readNat? digits).map Int.ofNat
      | digits => (readNat? digits).map Int.ofNat
    else none

/-- The decimal fraction that a text without a sign writes: digits with a point before, among or
behind them, and an optional power of ten. Reference: the parse of a double in
`QueryScanner.parse_number`. -/
def readUnsigned? (negative : Bool) (text : List Char) : Option Decimal :=
  let whole := text.takeWhile Char.isDigit
  let rest := text.dropWhile Char.isDigit
  let (fraction, rest) :=
    match rest with
    | '.' :: rest => (rest.takeWhile Char.isDigit, rest.dropWhile Char.isDigit)
    | rest => ([], rest)
  if whole = [] ∧ fraction = [] then none
  else (readExponent? rest).map (Decimal.ofParts negative whole fraction)

/-- The number that a text writes: an integer if it fits 64 bits, and a double otherwise. Reference:
`QueryScanner.parse_number`. -/
def readNumber? (text : List Char) : Option Number :=
  match readInt64? text with
  | some n => some (.int n)
  | none =>
    let decimal :=
      match text with
      | '-' :: text => readUnsigned? true text
      | text => readUnsigned? false text
    decimal.map fun d => .float d.toBinary64

/-- The scalar that a word names. Reference: the words of `QueryScanner.parse_literal`. -/
def wordScalar? (word : List Char) : Option Scalar :=
  if word = ['t', 'r', 'u', 'e'] then some (.bool true)
  else if word = ['f', 'a', 'l', 's', 'e'] then some (.bool false)
  else if word = ['n', 'u', 'l', 'l'] then some .null
  else none

/-- Reads a literal: a quoted text, a number or a word. Reference: `QueryScanner.parse_literal`. -/
def readLiteral : List Char → Reading Scalar
  | [] => .error (.met .literalMissing [])
  | c :: rest =>
    if Quoted.isQuote c then
      (readQuoted c rest).map fun (value, rest) => (.string (String.ofList value), rest)
    else if startsNumber c then
      let found := (c :: rest).takeWhile isNumberChar
      let rest := (c :: rest).dropWhile isNumberChar
      match readNumber? found with
      | some n => .ok (.number n, rest)
      | none => .error (.met (.numberExpected found) rest)
    else if isLetter c then
      let word := (c :: rest).takeWhile isWordChar
      let rest := (c :: rest).dropWhile isWordChar
      match wordScalar? word with
      | some s => .ok (s, rest)
      | none => .error (.met (.unknownWord word) rest)
    else .error (.met .literalExpected (c :: rest))

/-- Reads a comparison and its literal up to the end of the text. Reference: `QueryScanner.parse`
from the operator on. -/
def readComparing (path : List Key) (text : List Char) : Except Fault Condition :=
  match readComparison text with
  | .error f => .error f
  | .ok (op, rest) =>
    match readLiteral (skipBlanks rest) with
    | .error f => .error f
    | .ok (literal, rest) =>
      match skipBlanks rest with
      | [] => .ok (.compares path op literal)
      | c :: rest => .error (.met (.afterLiteral c) (c :: rest))

/-- Reads a text as a condition. Reference: `parse_query`, `QueryScanner.parse`. -/
def readCondition (text : List Char) : Except Fault Condition :=
  match skipBlanks text with
  | '@' :: rest =>
    match readPath rest with
    | .error f => .error f
    | .ok (path, rest) =>
      match skipBlanks rest with
      | [] => .ok (.present path)
      | rest => readComparing path rest
  | rest => .error (.met .currentExpected rest)

end PathQuery.Expression
