import PathQuery.Json.Basic
import PathQuery.Json.Lexeme
import PathQuery.Text.Integer

/-!
# The form of a JSON text

The form of a text is the tree of its brackets, with its lexemes as leaves. It is built from the
lexemes one by one, with the brackets that are still open on a stack, so that no depth is too much
for it. `Form.toJson?` is the value of a form; it exists unless containers are nested too deeply, a
number is out of range or a string holds half of a surrogate pair.
-/

namespace PathQuery.Json

/-- A JSON text as it is bracketed. -/
inductive Form where
  | null
  | bool (b : Bool)
  | number (n : Numeral)
  | string (codes : Codes)
  | array (elements : List Form)
  | object (members : List (Codes × Form))

/-- A bracket that is still open, with what came before in it, latest first. -/
inductive Frame where
  | elements (before : List Form)
  /-- An object in which a name and a colon came last. -/
  | members (before : List (Codes × Form)) (name : Codes)

/-- What can come next in a text, with the open brackets, innermost first. -/
inductive Progress where
  /-- A value. -/
  | value (stack : List Frame)
  /-- The name of a member. -/
  | name (stack : List Frame) (before : List (Codes × Form))
  /-- The colon behind a name. -/
  | colon (stack : List Frame) (before : List (Codes × Form)) (name : Codes)
  /-- Whatever follows a complete form. -/
  | after (stack : List Frame) (form : Form)

namespace Progress

/-- The next lexeme where a value can come. Directly behind an opening bracket it can close. -/
def nextValue (stack : List Frame) : Lexeme → Option Progress
  | .null => some (.after stack .null)
  | .bool b => some (.after stack (.bool b))
  | .number n => some (.after stack (.number n))
  | .string codes => some (.after stack (.string codes))
  | .openArray => some (.value (.elements [] :: stack))
  | .openObject => some (.name stack [])
  | .closeArray =>
    match stack with
    | .elements [] :: stack => some (.after stack (.array []))
    | _ => none
  | _ => none

/-- The next lexeme where a name can come. Directly behind an opening bracket it can close. -/
def nextName (stack : List Frame) (before : List (Codes × Form)) : Lexeme → Option Progress
  | .string codes => some (.colon stack before codes)
  | .closeObject => if before.isEmpty then some (.after stack (.object [])) else none
  | _ => none

/-- The next lexeme behind a complete form. -/
def nextAfter (stack : List Frame) (form : Form) (l : Lexeme) : Option Progress :=
  match stack, l with
  | .elements before :: stack, .comma => some (.value (.elements (form :: before) :: stack))
  | .elements before :: stack, .closeArray =>
    some (.after stack (.array (form :: before).reverse))
  | .members before codes :: stack, .comma => some (.name stack ((codes, form) :: before))
  | .members before codes :: stack, .closeObject =>
    some (.after stack (.object ((codes, form) :: before).reverse))
  | _, _ => none

/-- What can come next after one more lexeme, if that lexeme is in its place. -/
def next : Progress → Lexeme → Option Progress
  | .value stack, l => nextValue stack l
  | .name stack before, l => nextName stack before l
  | .colon stack before codes, .colon => some (.value (.members before codes :: stack))
  | .colon .., _ => none
  | .after stack form, l => nextAfter stack form l

/-- The form that is complete with nothing open. -/
def form? : Progress → Option Form
  | .after [] form => some form
  | _ => none

end Progress

/-- The form of a text, if it is well formed. -/
def Form.read? (text : List Char) : Option Form :=
  (lexemes text).bind fun ls => (ls.foldlM Progress.next (.value [])).bind Progress.form?

/-- The value of a number, one way to have it. An integer stays one if it fits 64 bits with or
without a sign, except for a zero with a sign. Every other number is rounded once, from its exact
value, to the nearest double, which has to be finite; a reader that rounds twice is not this one. -/
def Numeral.toJson? (n : Numeral) : Option Json :=
  let d := n.value
  let whole : Int := if d.negative then -(d.digits : Int) else d.digits
  if n.isInteger ∧ ¬(d.negative ∧ d.digits = 0) ∧ -Text.int64Limit ≤ whole
      ∧ whole < 2 * Text.int64Limit then
    some (.int whole)
  else
    let x := d.toBinary64
    if x.isFinite then some (.float x) else none

/-- Whether a code is a first half of a surrogate pair. -/
def isHighSurrogate (code : Nat) : Bool := 0xD800 ≤ code && code ≤ 0xDBFF

/-- Whether a code is a second half of a surrogate pair. -/
def isLowSurrogate (code : Nat) : Bool := 0xDC00 ≤ code && code ≤ 0xDFFF

/-- The characters of codes, where two halves of a surrogate pair make one. -/
def decode? : Codes → Option (List Char)
  | [] => some []
  | code :: rest =>
    if isHighSurrogate code then
      match rest with
      | [] => none
      | low :: rest =>
        if isLowSurrogate low then
          let n := 0x10000 + (code - 0xD800) * 0x400 + (low - 0xDC00)
          (decode? rest).map (Char.ofNat n :: ·)
        else none
    else if isLowSurrogate code then none
    else (decode? rest).map (Char.ofNat code :: ·)

/-- The string of codes. -/
def decodeString? (codes : Codes) : Option String := (decode? codes).map String.ofList

mutual

/-- The value of a form with at most `room` containers nested in one another. -/
def Form.toJson? (room : Nat) : Form → Option Json
  | .null => some .null
  | .bool b => some (.bool b)
  | .number n => n.toJson?
  | .string codes => (decodeString? codes).map .string
  | .array elements => if room = 0 then none else (elementsJson? (room - 1) elements).map .array
  | .object members =>
    if room = 0 then none
    else (membersJson? (room - 1) members).map fun ms => .object (distinctMembers ms)

/-- The values of elements. -/
def elementsJson? (room : Nat) : List Form → Option (List Json)
  | [] => some []
  | f :: rest =>
    (f.toJson? room).bind fun value => (elementsJson? room rest).map (value :: ·)

/-- The values of members, with their names. -/
def membersJson? (room : Nat) : List (Codes × Form) → Option (List (String × Json))
  | [] => some []
  | (codes, f) :: rest =>
    (decodeString? codes).bind fun name =>
      (f.toJson? room).bind fun value => (membersJson? room rest).map ((name, value) :: ·)

end

/-- How deeply containers may be nested. -/
def maxDepth : Nat := 127

/-- A reader of JSON texts. -/
abbrev Reader := List Char → Option Json

/-- The value of a JSON text, as one reader has it. Documents may be made with another one, which a
property of the numbers in them takes as a parameter, with what it relies on as a premise. -/
def read? : Reader := fun text => (Form.read? text).bind (Form.toJson? maxDepth)

end PathQuery.Json
