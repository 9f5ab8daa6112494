import PathQuery.Decimal
import PathQuery.Text.Quoted

/-!
# Lexemes of JSON

A JSON text is cut into lexemes: punctuation, words, numbers and strings, with blanks of four kinds
between them. A lexeme is well formed by its own rules here, but need not have a value: a number may
be too large, and a string may hold half of a surrogate pair. What becomes of these is decided where
the value is needed.
-/

namespace PathQuery.Json

/-- A number as it is written. -/
structure Numeral where
  value : Decimal
  /-- Whether it has neither a point nor an exponent. -/
  isInteger : Bool
  deriving DecidableEq, Repr

/-- The numbers of the characters of a string, where an escape may give half of a surrogate pair. -/
abbrev Codes := List Nat

/-- A part of a JSON text that has no parts itself. -/
inductive Lexeme where
  | openArray
  | closeArray
  | openObject
  | closeObject
  | comma
  | colon
  | null
  | bool (b : Bool)
  | number (n : Numeral)
  | string (codes : Codes)
  deriving DecidableEq, Repr

namespace Lexeme

/-- A character between lexemes. -/
def isBlank (c : Char) : Bool := c == ' ' || c == '\t' || c == '\n' || c == '\r'

/-- The code of the character that a backslash and the one character after it denote. -/
def unescape? : Char → Option Nat
  | '"' => some 0x22
  | '\\' => some 0x5C
  | '/' => some 0x2F
  | 'b' => some 0x08
  | 'f' => some 0x0C
  | 'n' => some 0x0A
  | 'r' => some 0x0D
  | 't' => some 0x09
  | _ => none

/-- Reads what follows a backslash: the code that it denotes, and what is behind it. -/
def readEscape : List Char → Option (Nat × List Char)
  | [] => none
  | e :: rest =>
    if e = 'u' then
      match rest with
      | h₁ :: h₂ :: h₃ :: h₄ :: rest =>
        (Text.Quoted.hexNumber? 0 [h₁, h₂, h₃, h₄]).map fun code => (code, rest)
      | _ => none
    else (unescape? e).map fun code => (code, rest)

/-- An escape takes the character behind its backslash at least. -/
theorem length_of_readEscape {text rest : List Char} {code : Nat}
    (h : readEscape text = some (code, rest)) : rest.length < text.length := by
  unfold readEscape at h
  split at h
  · cases h
  split at h
  · split at h
    · obtain ⟨n, -, he⟩ := Option.map_eq_some_iff.1 h
      cases he
      simp only [List.length_cons]
      omega
    · cases h
  · obtain ⟨n, -, he⟩ := Option.map_eq_some_iff.1 h
    cases he
    simp

/-- Puts a code before those of a reading. -/
def keep (code : Nat) (r : Option (Codes × List Char)) : Option (Codes × List Char) :=
  r.map fun p => (code :: p.1, p.2)

/-- Reads a string from behind its opening quote, and its closing quote. Control characters have to
be escaped. -/
def readString : List Char → Option (Codes × List Char)
  | [] => none
  | c :: rest =>
    if c = '"' then some ([], rest)
    else if c = '\\' then
      match _h : readEscape rest with
      | none => none
      | some (code, rest) => keep code (readString rest)
    else if c.toNat < 0x20 then none
    else keep c.toNat (readString rest)
termination_by text => text.length
decreasing_by
  · exact Nat.lt_succ_of_lt (length_of_readEscape _h)
  · simp

/-- Digits at the beginning of a text, of which there must be one. -/
def readDigits (text : List Char) : Option (List Char × List Char) :=
  let digits := text.takeWhile Char.isDigit
  if digits = [] then none else some (digits, text.dropWhile Char.isDigit)

/-- Digits at the beginning of a text without leading zeros. -/
def readWhole (text : List Char) : Option (List Char × List Char) :=
  (readDigits text).bind fun (digits, rest) =>
    if digits.head? = some '0' ∧ digits ≠ ['0'] then none else some (digits, rest)

/-- The digits behind a point, if the text begins with one. -/
def readFraction : List Char → Option (Option (List Char) × List Char)
  | '.' :: text => (readDigits text).map fun (digits, rest) => (some digits, rest)
  | text => some (none, text)

/-- The digits of an exponent behind its sign, as an integer. -/
def readSigned (negative : Bool) (text : List Char) : Option (Option Int × List Char) :=
  (readDigits text).map fun (digits, rest) =>
    let n : Int := Nat.ofDigitChars 10 digits 0
    (some (if negative then -n else n), rest)

/-- An exponent with an optional sign, if the text begins with its letter. -/
def readExponent : List Char → Option (Option Int × List Char)
  | [] => some (none, [])
  | c :: text =>
    if c = 'e' ∨ c = 'E' then
      match text with
      | '-' :: text => readSigned true text
      | '+' :: text => readSigned false text
      | text => readSigned false text
    else some (none, c :: text)

/-- Reads a number from behind its sign. -/
def readMagnitude (negative : Bool) (text : List Char) : Option (Numeral × List Char) :=
  (readWhole text).bind fun (whole, rest) =>
    (readFraction rest).bind fun (fraction, rest) =>
      (readExponent rest).map fun (exponent, rest) =>
        (⟨.ofParts negative whole (fraction.getD []) (exponent.getD 0),
          fraction.isNone && exponent.isNone⟩, rest)

/-- Reads a number. -/
def readNumeral : List Char → Option (Numeral × List Char)
  | '-' :: text => readMagnitude true text
  | text => readMagnitude false text

/-- Reads the lexeme that begins with the character `c`, which is not blank. -/
def read (c : Char) (rest : List Char) : Option (Lexeme × List Char) :=
  match c, rest with
  | '[', rest => some (.openArray, rest)
  | ']', rest => some (.closeArray, rest)
  | '\x7b', rest => some (.openObject, rest)
  | '\x7d', rest => some (.closeObject, rest)
  | ',', rest => some (.comma, rest)
  | ':', rest => some (.colon, rest)
  | 'n', 'u' :: 'l' :: 'l' :: rest => some (.null, rest)
  | 't', 'r' :: 'u' :: 'e' :: rest => some (.bool true, rest)
  | 'f', 'a' :: 'l' :: 's' :: 'e' :: rest => some (.bool false, rest)
  | '"', rest => (readString rest).map fun (codes, rest) => (.string codes, rest)
  | c, rest => (readNumeral (c :: rest)).map fun (n, rest) => (.number n, rest)

/-! ## What a lexeme leaves

Each reading leaves no more text than it was given, so that `lexemes` comes to an end.
-/

theorem keep_eq_some {code : Nat} {r : Option (Codes × List Char)} {codes : Codes}
    {rest : List Char} (h : keep code r = some (codes, rest)) :
    ∃ more, r = some (more, rest) := by
  obtain ⟨p, hp, he⟩ := Option.map_eq_some_iff.1 h
  cases he
  exact ⟨p.1, hp⟩

theorem length_of_readString {text rest : List Char} {codes : Codes}
    (h : readString text = some (codes, rest)) : rest.length ≤ text.length := by
  fun_induction readString text generalizing codes rest
  case case2 => cases h; simp
  case case4 he _ ih =>
    obtain ⟨more, hm⟩ := keep_eq_some h
    have h₁ := ih hm
    have h₂ := length_of_readEscape he
    simp only [List.length_cons]
    omega
  case case6 ih =>
    obtain ⟨more, hm⟩ := keep_eq_some h
    have := ih hm
    simp only [List.length_cons]
    omega
  all_goals cases h

theorem length_of_readDigits {text digits rest : List Char}
    (h : readDigits text = some (digits, rest)) : rest.length < text.length := by
  unfold readDigits at h
  dsimp only at h
  split at h
  · cases h
  · rename_i hd
    cases h
    have hs := congrArg List.length
      (List.takeWhile_append_dropWhile (p := Char.isDigit) (l := text))
    have hp := List.length_pos_iff.2 hd
    rw [List.length_append] at hs
    omega

theorem length_of_readWhole {text digits rest : List Char}
    (h : readWhole text = some (digits, rest)) : rest.length < text.length := by
  obtain ⟨⟨ds, r⟩, hr, he⟩ := Option.bind_eq_some_iff.1 h
  dsimp only at he
  split at he
  · cases he
  · cases he
    exact length_of_readDigits hr

theorem length_of_readFraction {text rest : List Char} {fraction : Option (List Char)}
    (h : readFraction text = some (fraction, rest)) : rest.length ≤ text.length := by
  unfold readFraction at h
  split at h
  · obtain ⟨⟨ds, r⟩, hr, he⟩ := Option.map_eq_some_iff.1 h
    cases he
    exact Nat.le_succ_of_le (Nat.le_of_lt (length_of_readDigits hr))
  · cases h
    exact Nat.le_refl _

theorem length_of_readSigned {negative : Bool} {text rest : List Char} {exponent : Option Int}
    (h : readSigned negative text = some (exponent, rest)) : rest.length ≤ text.length := by
  obtain ⟨⟨ds, r⟩, hr, he⟩ := Option.map_eq_some_iff.1 h
  cases he
  exact Nat.le_of_lt (length_of_readDigits hr)

theorem length_of_readExponent {text rest : List Char} {exponent : Option Int}
    (h : readExponent text = some (exponent, rest)) : rest.length ≤ text.length := by
  unfold readExponent at h
  split at h
  · cases h
    exact Nat.le_refl _
  · split at h
    · split at h
      all_goals
        have := length_of_readSigned h
        simp only [List.length_cons]
        omega
    · cases h
      exact Nat.le_refl _

theorem length_of_readMagnitude {negative : Bool} {text rest : List Char} {n : Numeral}
    (h : readMagnitude negative text = some (n, rest)) : rest.length < text.length := by
  obtain ⟨⟨whole, r₁⟩, h₁, h⟩ := Option.bind_eq_some_iff.1 h
  obtain ⟨⟨fraction, r₂⟩, h₂, h⟩ := Option.bind_eq_some_iff.1 h
  obtain ⟨⟨exponent, r₃⟩, h₃, h⟩ := Option.map_eq_some_iff.1 h
  cases h
  have := length_of_readWhole h₁
  have := length_of_readFraction h₂
  have := length_of_readExponent h₃
  omega

theorem length_of_readNumeral {text rest : List Char} {n : Numeral}
    (h : readNumeral text = some (n, rest)) : rest.length < text.length := by
  unfold readNumeral at h
  split at h
  · exact Nat.lt_succ_of_lt (length_of_readMagnitude h)
  · exact length_of_readMagnitude h

/-- A lexeme takes its first character at least. -/
theorem length_of_read {c : Char} {text rest : List Char} {l : Lexeme}
    (h : read c text = some (l, rest)) : rest.length ≤ text.length := by
  unfold read at h
  split at h
  case h_10 =>
    obtain ⟨⟨codes, r⟩, hr, he⟩ := Option.map_eq_some_iff.1 h
    cases he
    exact length_of_readString hr
  case h_11 =>
    obtain ⟨⟨n, r⟩, hr, he⟩ := Option.map_eq_some_iff.1 h
    cases he
    exact Nat.le_of_lt_succ (length_of_readNumeral hr)
  all_goals
    cases h
    grind

end Lexeme

/-- The lexemes of a text, if it is made of lexemes and blanks. -/
def lexemes : List Char → Option (List Lexeme)
  | [] => some []
  | c :: rest =>
    if Lexeme.isBlank c then lexemes rest
    else
      match _h : Lexeme.read c rest with
      | none => none
      | some (lexeme, rest) => (lexemes rest).map (lexeme :: ·)
termination_by text => text.length
decreasing_by
  · simp
  · exact Nat.lt_succ_of_le (Lexeme.length_of_read _h)

end PathQuery.Json
