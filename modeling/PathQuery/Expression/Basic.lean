import PathQuery.Expression.Group

/-!
# Expressions

An expression may begin with the sign of the root, or with a bare name, which then is a member of
the root. What follows are selectors that begin with a dot, an opening bracket or a star, with
blanks between them or not.

`closing` finds the bracket that closes a group. It passes over quoted texts as a whole and counts
brackets and parentheses with one number; `readGroup` then says what the contents are.
`readExpression` reads all of a text.
-/

namespace PathQuery.Expression

open Text

/-- The characters besides blanks that end a name. Reference: `is_key_char`. -/
def namePunctuation : List Char := ['.', '[', ']', '(', ')', '\'', '"', '*', ',']

/-- A character of a name that is not quoted. Reference: `is_key_char`. -/
def isNameChar (c : Char) : Bool := !isBlank c && !namePunctuation.contains c

/-- What is behind the bracket that closes a group, where the text begins within the group. So far
`depth` brackets and parentheses are open in it, and `group` is the text from its own bracket.
Reference: `Lexer.find_closing_bracket`. -/
def closing (group : List Char) (depth : Nat) : List Char → Except Fault (List Char)
  | [] => .error (.met (if depth = 0 then .openBracket else .openParenthesis) group)
  | c :: rest =>
    if Quoted.isQuote c then
      match _h : readQuoted c rest with
      | .error f => .error f
      | .ok (_, rest) => closing group depth rest
    else if c = '[' ∨ c = '(' then closing group (depth + 1) rest
    else if c = ')' then
      if depth = 0 then .error (.met .strayParenthesis (c :: rest))
      else closing group (depth - 1) rest
    else if c = ']' then
      if depth = 0 then .ok rest else closing group (depth - 1) rest
    else closing group depth rest
termination_by text => text.length
decreasing_by
  · exact Nat.lt_succ_of_lt (length_of_readQuoted _h)
  all_goals simp

/-- A closing bracket at least comes before what is behind a group. -/
theorem length_of_closing {group text rest : List Char} {depth : Nat}
    (h : closing group depth text = .ok rest) : rest.length < text.length := by
  fun_induction closing group depth text
  case case2 => cases h
  case case3 hq ih =>
    have h₁ := ih h
    have h₂ := length_of_readQuoted hq
    simp only [List.length_cons]
    omega
  case case7 => cases h; simp
  case case1 | case5 => cases h
  all_goals
    rename_i ih
    have := ih h
    simp only [List.length_cons]
    omega

/-- Reads a group from behind its opening bracket. Reference: `Lexer.lex_bracket`. -/
def readBracket (text : List Char) : Reading Selector :=
  match closing ('[' :: text) 0 text with
  | .error f => .error f
  | .ok rest =>
    let contents := trim (text.take (text.length - rest.length - 1))
    match readGroup contents with
    | .error f => .error (f.carry contents text)
    | .ok selector => .ok (selector, rest)

/-- Reads a member, a star or a descent from behind its first dot. Reference: `Lexer.lex_dot`,
`Lexer.read_key`. -/
def readDot : List Char → Reading Selector
  | '.' :: '.' :: rest => .error (.met .tripleDot ('.' :: '.' :: '.' :: rest))
  | '.' :: rest =>
    let name := rest.takeWhile isNameChar
    let key := if name = [] then none else some (String.ofList name)
    .ok (.descent key, rest.dropWhile isNameChar)
  | '*' :: rest => .ok (.children, rest)
  | text =>
    let name := text.takeWhile isNameChar
    if name = [] then .error (.met .nameExpected ('.' :: text))
    else .ok (.member (String.ofList name), text.dropWhile isNameChar)

/-- Reads the selector that begins with the character `c`, which is not blank. Reference: one round
of the loop of `Lexer.tokenize`. -/
def readSelector (c : Char) (rest : List Char) : Reading Selector :=
  if c = '.' then readDot rest
  else if c = '[' then readBracket rest
  else if c = '*' then .ok (.children, rest)
  else if c = ']' then .error (.met .strayBracket (c :: rest))
  else .error (.met (.unexpected c) (c :: rest))

/-- A group takes its closing bracket at least. -/
theorem length_of_readBracket {text rest : List Char} {s : Selector}
    (h : readBracket text = .ok (s, rest)) : rest.length ≤ text.length := by
  unfold readBracket at h
  split at h
  · cases h
  · rename_i hc
    dsimp only at h
    split at h
    · cases h
    · cases h
      exact Nat.le_of_lt (length_of_closing hc)

/-- What is behind a dot and its selector is no longer than what is behind the dot. -/
theorem length_of_readDot {text rest : List Char} {s : Selector}
    (h : readDot text = .ok (s, rest)) : rest.length ≤ text.length := by
  unfold readDot at h
  split at h
  · cases h
  · cases h
    exact Nat.le_succ_of_le (List.dropWhile_sublist isNameChar).length_le
  · cases h
    exact Nat.le_succ _
  · dsimp only at h
    split at h
    · cases h
    · cases h
      exact (List.dropWhile_sublist isNameChar).length_le

/-- A selector takes its first character at least. -/
theorem length_of_readSelector {c : Char} {text rest : List Char} {s : Selector}
    (h : readSelector c text = .ok (s, rest)) : rest.length ≤ text.length := by
  unfold readSelector at h
  split at h
  · exact length_of_readDot h
  split at h
  · exact length_of_readBracket h
  split at h
  · cases h
    exact Nat.le_refl _
  split at h <;> cases h

/-- Reads selectors up to the end of the text. Reference: the loop of `Lexer.tokenize`. -/
def readSelectors : List Char → Except Fault (List Selector)
  | [] => .ok []
  | c :: rest =>
    if isBlank c then readSelectors rest
    else
      match _h : readSelector c rest with
      | .error f => .error f
      | .ok (selector, rest) => (readSelectors rest).map (selector :: ·)
termination_by text => text.length
decreasing_by
  · simp
  · exact Nat.lt_succ_of_le (length_of_readSelector _h)

/-- Reads an expression that has no blanks at its beginning. Reference: `Lexer.tokenize` up to its
loop. -/
def readStart : List Char → Except Fault (List Selector)
  | [] => .ok []
  | c :: rest =>
    if c = '$' then (readSelectors rest).map (.root :: ·)
    else if c = '@' then .error (.met .currentOutsideFilter (c :: rest))
    else if isNameChar c then
      let name := (c :: rest).takeWhile isNameChar
      (readSelectors ((c :: rest).dropWhile isNameChar)).map (.member (String.ofList name) :: ·)
    else readSelectors (c :: rest)

/-- Reads a text as an expression. Reference: `tokenize`. -/
def readExpression (text : List Char) : Except Fault (List Selector) :=
  readStart (skipBlanks text)

end PathQuery.Expression
