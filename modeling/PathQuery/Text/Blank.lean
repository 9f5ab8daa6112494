import PathQuery.Text.Ranges

/-!
# Blanks

The characters that separate parts of an expression: those with the Unicode property White_Space,
25 of them. `skipBlanks` drops the leading ones, `trim` those at both ends.
-/

namespace PathQuery.Text

/-- The code points with the property White_Space. -/
def blankRanges : Ranges :=
  [(0x09, 0x0D), (0x20, 0x20), (0x85, 0x85), (0xA0, 0xA0), (0x1680, 0x1680), (0x2000, 0x200A),
    (0x2028, 0x2029), (0x202F, 0x202F), (0x205F, 0x205F), (0x3000, 0x3000)]

/-- A character with the property White_Space. -/
def isBlank (c : Char) : Bool := blankRanges.covers c.toNat

/-- The text from its first character that is no blank. Reference: `skip_whitespace`. -/
def skipBlanks (text : List Char) : List Char := text.dropWhile isBlank

/-- Skipping blanks leaves no more than there was. -/
theorem length_skipBlanks (text : List Char) : (skipBlanks text).length ≤ text.length :=
  (List.dropWhile_sublist isBlank).length_le

/-- The text without the blanks at its two ends. -/
def trim (text : List Char) : List Char := (skipBlanks (skipBlanks text).reverse).reverse

end PathQuery.Text
