import PathQuery.Expression.Filter
import PathQuery.Text.Pieces

/-!
# What stands in brackets

The contents of a bracket, without the blanks at their ends, are one of the following, tried in this
order: a filter behind a question mark, a script in parentheses, a lone star, a slice if a colon
stands outside quotes, and otherwise a list of keys. A list of positions alone is kept apart from
lists with a name in them, since it applies to arrays only.

A fault in a piece of a slice or a list is placed at the beginning of that piece, blanks included.
-/

namespace PathQuery.Expression

open Text

/-- What an opening and a closing parenthesis around a text enclose. Reference: `strip_parens`. -/
def unwrap? : List Char → Option (List Char)
  | '(' :: rest => if rest.getLast? = some ')' then some rest.dropLast else none
  | _ => none

/-- A fault at the beginning of a piece of `text`. Reference: the `position` of an item in
`lex_keys`, and of a part in `lex_slice`. -/
def pieceFault (text : List Char) (piece : Piece) (cause : Cause) : Fault :=
  ⟨cause, text, piece.start⟩

/-- Reads the integer that a piece of `text` is, with `found` what is left of it without blanks.
Reference: `parse_integer`. -/
def readPieceInt64 (text : List Char) (piece : Piece) (found : List Char) : Except Fault Int64 :=
  match readInt64? found with
  | some n => .ok n
  | none => .error (pieceFault text piece (.integerExpected found))

/-- Reads a bound of a slice; a blank piece leaves it out. Reference: the loop of `lex_slice`. -/
def readBound (text : List Char) (piece : Piece) : Except Fault (Option Int64) :=
  match trim piece.text with
  | [] => .ok none
  | found => (readPieceInt64 text piece found).map some

/-- A slice with the given bounds, if its step leads onwards. Reference: the check of the step in
`lex_slice`. -/
def checkSlice (text : List Char) (s : Slice) : Except Fault Selector :=
  match s.step with
  | none => .ok (.slice s)
  | some step => if step ≤ 0 then .error (.met (.badStep step) text) else .ok (.slice s)

/-- Reads the pieces of `text` between its colons as a slice. Reference: `lex_slice`. -/
def readSlice (text : List Char) (parts : List Piece) : Except Fault Selector :=
  if 3 < parts.length then .error (.met .manyBounds text)
  else
    match parts.mapM (readBound text) with
    | .error f => .error f
    | .ok bounds =>
      checkSlice text ⟨(bounds[0]?).join, (bounds[1]?).join, (bounds[2]?).join⟩

/-- Reads a key from the text `found` of a piece without its blanks. Reference: the loop of
`lex_keys`, with `parse_quoted_key`. -/
def readKeyText (text : List Char) (piece : Piece) : List Char → Except Fault Key
  | [] => .error (pieceFault text piece .emptyKey)
  | c :: rest =>
    if Quoted.isQuote c then
      match Quoted.read c rest with
      | .error failure => .error (pieceFault text piece (.quoted failure))
      | .ok (value, []) => .ok (.name (String.ofList value))
      | .ok (_, after) =>
        .error ⟨.afterQuote, text, piece.start + (rest.length + 1 - after.length)⟩
    else if startsNumber c then (readPieceInt64 text piece (c :: rest)).map .position
    else if c = '*' then .error (pieceFault text piece .wildcardInList)
    else .ok (.name (String.ofList (c :: rest)))

/-- Reads a piece of `text` as a key. -/
def readKey (text : List Char) (piece : Piece) : Except Fault Key :=
  readKeyText text piece (trim piece.text)

/-- The selector of a list of keys: one of positions if none of them is a name. Reference: the end
of `lex_keys`. -/
def ofKeys (ks : List Key) : Selector :=
  match ks.mapM Key.position? with
  | some places => .positions places
  | none => .keys ks

/-- Reads a list of keys between commas. Reference: `lex_keys`. -/
def readKeys (text : List Char) : Except Fault Selector :=
  ((pieces ',' text).mapM (readKey text)).map ofKeys

/-- Reads a script with its parentheses. Reference: the script of `lex_bracket_content`. -/
def readScript (text : List Char) : Except Fault Selector :=
  match unwrap? text with
  | none => .error (.met .openScript text)
  | some inner =>
    match trim inner with
    | [] => .error (.met .emptyScript text)
    | script => .ok (.script (String.ofList script))

/-- Reads a filter from behind its question mark, with parentheses around it or without. Reference:
the filter of `lex_bracket_content`. -/
def readFilter (text rest : List Char) : Except Fault Selector :=
  let inner := (unwrap? (trim rest)).getD (trim rest)
  match readCondition inner with
  | .error f => .error (f.carry inner text)
  | .ok condition => .ok (.filter condition)

/-- Reads the contents of a bracket, which have no blanks at their ends. Reference:
`lex_bracket_content`. -/
def readGroup (text : List Char) : Except Fault Selector :=
  match text with
  | [] => .error (.met .emptyBrackets [])
  | '?' :: rest => readFilter text rest
  | '(' :: _ => readScript text
  | ['*'] => .ok .children
  | _ =>
    let parts := pieces ':' text
    if 1 < parts.length then readSlice text parts else readKeys text

end PathQuery.Expression
