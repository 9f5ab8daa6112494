/-!
# Ranges of characters

A class of characters given by data is a list of ranges of code points, in increasing order and
apart from each other. `covers` looks a character up; it stops at the first range that lies
beyond the character, so looking up an ASCII character reads only the head of the list.
-/

namespace PathQuery.Text

/-- A list of inclusive ranges of code points, first and last, in increasing order. -/
abbrev Ranges := List (Nat × Nat)

/-- Whether the code point `n` lies in one of the ranges. -/
def Ranges.covers : Ranges → Nat → Bool
  | [], _ => false
  | (first, last) :: rest, n => first ≤ n && (n ≤ last || Ranges.covers rest n)

end PathQuery.Text
