import PathQuery.Text.Quoted

/-!
# Cutting a text at a separator

A separator inside quotes does not separate. Whether a character is inside quotes is followed one
character at a time by `Quotation`, which knows of escapes only that the character after a
backslash neither ends nor escapes anything.
-/

namespace PathQuery.Text

/-- Where a character stands relative to quoted text. Reference: the `quote` and `escaped` of
`split_unquoted`. -/
inductive Quotation where
  /-- Between quoted texts. -/
  | outside
  /-- In a text that `quote` closes. -/
  | inside (quote : Char)
  /-- Right behind a backslash, in a text that `quote` closes. -/
  | escaped (quote : Char)
  deriving DecidableEq, Repr

/-- Where the next character stands, after `c`. Reference: one round of the loop of
`split_unquoted`. -/
def Quotation.next : Quotation → Char → Quotation
  | .outside, c => if Quoted.isQuote c then .inside c else .outside
  | .inside q, c => if c = '\\' then .escaped q else if c = q then .outside else .inside q
  | .escaped q, _ => .inside q

/-- A part of a text between separators, with the number of characters before it. -/
structure Piece where
  start : Nat
  text : List Char
  deriving DecidableEq, Repr

/-- The rest of the piece that a text begins in, and the pieces after it, where `i` characters came
before the text. Reference: the loop of `split_unquoted`. -/
def cut (separator : Char) : Quotation → Nat → List Char → List Char × List Piece
  | _, _, [] => ([], [])
  | state, i, c :: rest =>
    if state = .outside ∧ c = separator then
      let (first, more) := cut separator .outside (i + 1) rest
      ([], ⟨i + 1, first⟩ :: more)
    else
      let (first, more) := cut separator (state.next c) (i + 1) rest
      (c :: first, more)

/-- The pieces of a text, cut at each `separator` outside quotes. There is always a first one.
Reference: `split_unquoted`. -/
def pieces (separator : Char) (text : List Char) : List Piece :=
  let (first, more) := cut separator .outside 0 text
  ⟨0, first⟩ :: more

end PathQuery.Text
