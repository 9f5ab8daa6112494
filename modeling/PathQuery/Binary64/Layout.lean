import PathQuery.Binary64.Shortest

/-!
# The text of a double

The digits are the shortest that read back; a `Layout` says how they are set out: which powers of
ten of the first digit are written positionally, with zeros to reach the point, and which with an
exponent, and whether a whole number ends in a point and a zero.
-/

namespace PathQuery.Binary64

/-- How the digits of a finite double are set out as text. -/
structure Layout where
  /-- Whether a number whose first digit has this power of ten is written without an exponent. -/
  isPositional : Int → Bool
  /-- What a whole number ends in when it is written without an exponent. -/
  wholeEnding : List Char
  /-- Which of two equally near shortest texts is taken. -/
  tie : Tie

namespace Layout

/-- Digits with the decimal point behind the first `point` of them, filled up with zeros on either
side. -/
def positional (l : Layout) (digits : List Char) (point : Int) : List Char :=
  if point ≤ 0 then
    '0' :: '.' :: (List.replicate (-point).toNat '0' ++ digits)
  else if digits.length ≤ point then
    digits ++ List.replicate (point - digits.length).toNat '0' ++ l.wholeEnding
  else
    digits.take point.toNat ++ '.' :: digits.drop point.toNat

/-- Digits with the point behind the first one, and the power of ten of that one with its sign. -/
def scientific (digits : List Char) (exponent : Int) : List Char :=
  let fraction := digits.drop 1
  let sign := if exponent < 0 then '-' else '+'
  digits.take 1 ++ (if fraction = [] then [] else '.' :: fraction)
    ++ 'e' :: sign :: Nat.toDigits 10 exponent.natAbs

/-- The text of a finite double. -/
def write (l : Layout) (x : Binary64) : List Char :=
  let sign := if x.isNegative then ['-'] else []
  if x.isZero then sign ++ '0' :: l.wholeEnding
  else
    let d := x.shortest l.tie
    let shown := Nat.toDigits 10 d.digits
    let point := d.exponent + shown.length
    let digits := (shown.reverse.dropWhile (· == '0')).reverse
    sign ++ if l.isPositional (point - 1) then l.positional digits point
      else scientific digits (point - 1)

end Layout

end PathQuery.Binary64
