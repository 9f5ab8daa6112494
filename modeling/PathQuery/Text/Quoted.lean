/-!
# Text in quotes

A quoted text stands between two single or two double quotes. A backslash begins an escape: one
of ten characters that stands for itself or for a control character, or the letter u with four
characters that give the number of a character in base sixteen. `read` takes what follows the
opening quote and returns what the text denotes together with what comes after the closing quote;
`length_of_read` says that this is less text, so that whoever reads on comes to an end.
-/

namespace PathQuery.Text.Quoted

/-- Why a quoted text cannot be read. Reference: `QuoteError`. -/
inductive Failure where
  /-- The text ends before its closing quote. -/
  | unterminated
  /-- A backslash is followed by something that is no escape. -/
  | invalidEscape
  deriving DecidableEq, Repr

/-- The two characters that open a quoted text, and close it again. -/
def isQuote (c : Char) : Bool := c == '\'' || c == '"'

/-- What a backslash and the one character after it denote. Reference: the escapes of
`read_quoted`. -/
def unescape? : Char → Option Char
  | '"' => some '"'
  | '\'' => some '\''
  | '\\' => some '\\'
  | '/' => some '/'
  | 'b' => some '\x08'
  | 'f' => some '\x0c'
  | 'n' => some '\n'
  | 'r' => some '\r'
  | 't' => some '\t'
  | _ => none

/-- The value of a digit in base sixteen, in either case. -/
def hexDigit? (c : Char) : Option Nat :=
  if '0' ≤ c ∧ c ≤ '9' then some (c.toNat - '0'.toNat)
  else if 'a' ≤ c ∧ c ≤ 'f' then some (c.toNat - 'a'.toNat + 10)
  else if 'A' ≤ c ∧ c ≤ 'F' then some (c.toNat - 'A'.toNat + 10)
  else none

/-- The number that digits in base sixteen continue from `value`. -/
def hexNumber? (value : Nat) : List Char → Option Nat
  | [] => some value
  | c :: rest => (hexDigit? c).bind fun d => hexNumber? (16 * value + d) rest

/-- The character with the number that four characters write. A plus sign may take the place of the
first digit. Surrogates are no characters. Reference: the letter u of `read_quoted`. -/
def scalar? (a b c d : Char) : Option Char :=
  let digits := if a = '+' then [b, c, d] else [a, b, c, d]
  (hexNumber? 0 digits).bind fun n => if n.isValidChar then some (Char.ofNat n) else none

/-- Reads what follows a backslash: the character that it denotes, and what is behind it. A
backslash with nothing after it escapes nothing, and then nothing closes the text. Reference: the
backslash of `read_quoted`. -/
def readEscape : List Char → Except Failure (Char × List Char)
  | [] => .error .unterminated
  | e :: rest =>
    if e = 'u' then
      match rest with
      | h₁ :: h₂ :: h₃ :: h₄ :: rest =>
        match scalar? h₁ h₂ h₃ h₄ with
        | some x => .ok (x, rest)
        | none => .error .invalidEscape
      | _ => .error .invalidEscape
    else
      match unescape? e with
      | some x => .ok (x, rest)
      | none => .error .invalidEscape

/-- An escape takes the character behind its backslash at least. -/
theorem length_of_readEscape {text rest : List Char} {x : Char}
    (h : readEscape text = .ok (x, rest)) : rest.length < text.length := by
  unfold readEscape at h
  split at h
  · cases h
  split at h
  · split at h
    · split at h
      · cases h
        simp only [List.length_cons]
        omega
      · cases h
    · cases h
  · split at h
    · cases h
      simp
    · cases h

/-- Puts the character `c` before the value of a reading. -/
def keep (c : Char) (r : Except Failure (List Char × List Char)) :
    Except Failure (List Char × List Char) :=
  r.map fun p => (c :: p.1, p.2)

/-- Reads a quoted text from behind its opening `quote`: what it denotes, and what follows the
closing quote. Reference: `read_quoted`. -/
def read (quote : Char) : List Char → Except Failure (List Char × List Char)
  | [] => .error .unterminated
  | c :: rest =>
    if c = quote then .ok ([], rest)
    else if c = '\\' then
      match _h : readEscape rest with
      | .error f => .error f
      | .ok (x, rest) => keep x (read quote rest)
    else keep c (read quote rest)
termination_by text => text.length
decreasing_by
  · exact Nat.lt_succ_of_lt (length_of_readEscape _h)
  · simp

/-- What is kept before a reading does not change what is behind it. -/
theorem keep_eq_ok {c : Char} {r : Except Failure (List Char × List Char)} {v rest : List Char}
    (h : keep c r = .ok (v, rest)) : ∃ w, v = c :: w ∧ r = .ok (w, rest) := by
  cases r with
  | error e => cases h
  | ok p => obtain ⟨w, t⟩ := p; cases h; exact ⟨w, rfl, rfl⟩

/-- A reading leaves less than it was given: the closing quote at least is gone. -/
theorem length_of_read {quote : Char} {text value rest : List Char}
    (h : read quote text = .ok (value, rest)) : rest.length < text.length := by
  fun_induction read quote text generalizing value rest
  case case2 => cases h; simp
  case case4 he _ ih =>
    obtain ⟨w, -, hr⟩ := keep_eq_ok h
    have h₁ := ih hr
    have h₂ := length_of_readEscape he
    simp only [List.length_cons]
    omega
  case case5 ih =>
    obtain ⟨w, -, hr⟩ := keep_eq_ok h
    have := ih hr
    simp only [List.length_cons]
    omega
  all_goals cases h

end PathQuery.Text.Quoted
