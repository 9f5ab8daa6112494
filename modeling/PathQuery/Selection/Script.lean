import PathQuery.Text.Blank
import PathQuery.Value.Access

/-!
# Scripts

A script computes a position from the length of an array: the length itself, or the length plus or
minus an amount. `scriptOffset?` is what a script adds to the length, and says which scripts there
are. A position before the first element is none here; it does not count from the end.

Which scripts there are is said by a regular expression, `LENGTH_SCRIPT`, and the amount that it
captures is parsed after that. Here both are one reader, one part of the pattern after the other.
The pattern takes the decimal digits of every alphabet for an amount and the parser only those of
ASCII, so that an amount with another digit is refused here where it is read.
-/

namespace PathQuery

open Text

/-- The amount that ASCII digits write, if it fits a signed integer of 64 bits. Reference: the
second capture of `LENGTH_SCRIPT` and its parse in `script_offset`. -/
def readAmount? (digits : List Char) : Option Int64 := (readNat? digits).bind fun n => int64? n

/-- What is added to a length, behind the name of the length: nothing, or an amount with its sign.
Reference: `LENGTH_SCRIPT` from its first blanks on, which are `\s*(?:([+-])\s*(\d+))?$`, read by
hand. -/
def readOffset? (text : List Char) : Option Int64 :=
  match skipBlanks text with
  | [] => some 0
  | '+' :: digits => readAmount? (skipBlanks digits)
  | '-' :: digits => (readAmount? (skipBlanks digits)).map fun n => -n
  | _ => none

/-- What a script adds to the length of an array, if it is arithmetic on the length. Reference:
`script_offset`, with the pattern of `LENGTH_SCRIPT` read by hand. -/
def scriptOffset? (script : List Char) : Option Int64 :=
  match trim script with
  | '@' :: '.' :: 'l' :: 'e' :: 'n' :: 'g' :: 't' :: 'h' :: text => readOffset? text
  | _ => none

/-- A sum that stays at the limits of 64 bits instead of passing them. Reference: the sum in
`FilterEvaluator.apply_script`. -/
def saturatingAdd (a b : Int64) : Int64 :=
  let sum := a.toInt + b.toInt
  if sum < -int64Limit then Int64.minValue
  else if int64Limit ≤ sum then Int64.maxValue
  else Int64.ofInt sum

namespace Value

/-- The element of an array whose position is its length plus `offset`. Reference: the loop of
`FilterEvaluator.apply_script`. -/
def elementFromLength (config : Config) (offset : Int64) (v : Value) : List Value :=
  match v with
  | .array elements =>
    match lengthInt64? elements.length with
    | none => []
    | some n =>
      let place := saturatingAdd n offset
      if place < 0 then [] else (v.get? config (.position place)).toList
  | _ => []

end Value

end PathQuery
