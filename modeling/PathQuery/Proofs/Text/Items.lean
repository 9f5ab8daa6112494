import Mathlib.Data.List.Forall2
import PathQuery.Proofs.Text.Quoted

/-!
# The items of a quoted text

An item denotes itself, or it is a backslash with one of nine characters behind it, or with the
letter u and four digits in base sixteen (`Denotes`). The reader takes one form more: a plus sign in
place of the first digit (`Signed`). `read_items_iff` says that it takes exactly the texts that
consist of such items up to the closing quote, and refuses all others.
-/

namespace PathQuery.Text.Quoted

/-! ## Digits in base sixteen -/

/-- The digits in base sixteen in the order of their values, with small letters. -/
def smallDigits : List Char :=
  ['0', '1', '2', '3', '4', '5', '6', '7', '8', '9', 'a', 'b', 'c', 'd', 'e', 'f']

/-- The digits in base sixteen in the order of their values, with capital letters. -/
def capitalDigits : List Char :=
  ['0', '1', '2', '3', '4', '5', '6', '7', '8', '9', 'A', 'B', 'C', 'D', 'E', 'F']

/-- A digit in base sixteen and its value. -/
def IsDigit (c : Char) (d : Nat) : Prop := smallDigits[d]? = some c ∨ capitalDigits[d]? = some c

instance (c : Char) (d : Nat) : Decidable (IsDigit c d) :=
  inferInstanceAs (Decidable (_ ∨ _))

/-- A character within a range of digits is the digit of its place in the range. -/
theorem isDigit_of_mem_range {first last c : Char} {base : Nat}
    (hrange : ∀ k : Fin (last.toNat - first.toNat + 1),
      IsDigit (Char.ofNat (first.toNat + k)) (k + base)) (hc : first ≤ c ∧ c ≤ last) :
    IsDigit c (c.toNat - first.toNat + base) := by
  have hfirst : first.toNat ≤ c.toNat := hc.1
  have hlast : c.toNat ≤ last.toNat := hc.2
  have hdigit := hrange ⟨c.toNat - first.toNat, by omega⟩
  rwa [Nat.add_sub_cancel' hfirst, Char.ofNat_toNat] at hdigit

/-- The reader knows the digits of both cases, each with its value. -/
theorem hexDigit?_eq_some_iff {c : Char} {d : Nat} : hexDigit? c = some d ↔ IsDigit c d := by
  constructor
  · intro h
    unfold hexDigit? at h
    split at h
    · rename_i hc
      cases h
      exact @isDigit_of_mem_range '0' '9' c 0 (by decide) hc
    split at h
    · rename_i hc
      cases h
      exact isDigit_of_mem_range (by decide) hc
    split at h
    · rename_i hc
      cases h
      exact isDigit_of_mem_range (by decide) hc
    · cases h
  · rintro (h | h)
    · obtain ⟨hd, rfl⟩ := List.getElem?_eq_some_iff.1 h
      have hsmall : ∀ d : Fin 16, hexDigit? smallDigits[d] = some d.val := by decide
      exact hsmall ⟨d, hd⟩
    · obtain ⟨hd, rfl⟩ := List.getElem?_eq_some_iff.1 h
      have hcapital : ∀ d : Fin 16, hexDigit? capitalDigits[d] = some d.val := by decide
      exact hcapital ⟨d, hd⟩

/-- A sign is no digit. -/
theorem not_isDigit_plus (d : Nat) : ¬IsDigit '+' d := by
  rw [← hexDigit?_eq_some_iff]
  exact nofun

/-- Without digits a number is what it was. -/
theorem hexNumber?_nil_eq_some_iff {value n : Nat} : hexNumber? value [] = some n ↔ value = n :=
  Option.some_inj

/-- A number is continued by a digit and by what is behind it. -/
theorem hexNumber?_cons_eq_some_iff {value n : Nat} {c : Char} {rest : List Char} :
    hexNumber? value (c :: rest) = some n ↔
      ∃ d, IsDigit c d ∧ hexNumber? (16 * value + d) rest = some n := by
  rw [hexNumber?, Option.bind_eq_some_iff]
  simp only [hexDigit?_eq_some_iff]

/-- A number is the number of a character exactly if a character has this number. -/
theorem ofNat_eq_some_iff {n : Nat} {x : Char} :
    (if n.isValidChar then some (Char.ofNat n) else none) = some x ↔ x.toNat = n := by
  constructor
  · intro h
    split at h
    · rename_i hvalid
      cases h
      rw [Char.ofNat, dif_pos hvalid]
      rfl
    · cases h
  · rintro rfl
    have hvalid : x.toNat.isValidChar := x.valid
    rw [if_pos hvalid, Char.ofNat_toNat]

/-! ## Items -/

/-- The characters that may stand alone behind a backslash, and what they denote there. -/
def letters : List (Char × Char) :=
  [('"', '"'), ('\'', '\''), ('\\', '\\'), ('/', '/'), ('b', '\x08'), ('f', '\x0c'), ('n', '\n'),
    ('r', '\r'), ('t', '\t')]

/-- The nine letters are the ones that the reader knows. -/
theorem unescape?_eq_some_iff {e x : Char} : unescape? e = some x ↔ (e, x) ∈ letters := by
  constructor
  · intro h
    unfold unescape? at h
    split at h <;> cases h <;> decide
  · intro h
    have hall : ∀ p ∈ letters, unescape? p.1 = some p.2 := by decide
    exact hall _ h

/-- One item of a text between two quotes, and the character that it denotes. -/
inductive Denotes (quote : Char) : List Char → Char → Prop
  | plain {c : Char} (hquote : c ≠ quote) (hslash : c ≠ '\\') : Denotes quote [c] c
  | letter {e x : Char} (h : (e, x) ∈ letters) : Denotes quote ['\\', e] x
  /-- Four digits that write the number of a character; surrogates are no characters. -/
  | number {a b c d x : Char} {i j k l : Nat} (ha : IsDigit a i) (hb : IsDigit b j)
    (hc : IsDigit c k) (hd : IsDigit d l) (hx : x.toNat = 4096 * i + 256 * j + 16 * k + l) :
    Denotes quote ['\\', 'u', a, b, c, d] x

/-- A plus sign and three digits in place of four, and the character that they denote. -/
inductive Signed : List Char → Char → Prop
  | number {b c d x : Char} {j k l : Nat} (hb : IsDigit b j) (hc : IsDigit c k)
    (hd : IsDigit d l) (hx : x.toNat = 256 * j + 16 * k + l) :
    Signed ['\\', 'u', '+', b, c, d] x

variable {quote : Char}

/-- Four characters give the number of a character as four digits, or as three behind a sign. -/
theorem scalar?_eq_some_iff (quote : Char) {a b c d x : Char} : scalar? a b c d = some x ↔
    Denotes quote ['\\', 'u', a, b, c, d] x ∨ Signed ['\\', 'u', a, b, c, d] x := by
  rw [scalar?, Option.bind_eq_some_iff]
  simp only [ofNat_eq_some_iff]
  constructor
  · rintro ⟨n, hn, rfl⟩
    split at hn
    · rename_i ha
      subst ha
      simp only [hexNumber?_cons_eq_some_iff, hexNumber?_nil_eq_some_iff] at hn
      obtain ⟨j, hb, k, hc, l, hd, hx⟩ := hn
      exact .inr (.number hb hc hd (by omega))
    · simp only [hexNumber?_cons_eq_some_iff, hexNumber?_nil_eq_some_iff] at hn
      obtain ⟨i, ha, j, hb, k, hc, l, hd, hx⟩ := hn
      exact .inl (.number ha hb hc hd (by omega))
  · rintro (h | h)
    · cases h with
      | @number _ _ _ _ _ i j k l ha hb hc hd hx =>
          have hplus : a ≠ '+' := by
            rintro rfl
            exact not_isDigit_plus i ha
          refine ⟨x.toNat, ?_, rfl⟩
          rw [if_neg hplus]
          simp only [hexNumber?_cons_eq_some_iff, hexNumber?_nil_eq_some_iff]
          exact ⟨i, ha, j, hb, k, hc, l, hd, by omega⟩
    · cases h with
      | @number _ _ _ _ j k l hb hc hd hx =>
          refine ⟨x.toNat, ?_, rfl⟩
          rw [if_pos rfl]
          simp only [hexNumber?_cons_eq_some_iff, hexNumber?_nil_eq_some_iff]
          exact ⟨j, hb, k, hc, l, hd, by omega⟩

/-- The items that the reader takes are those that denote a character and those with a sign. -/
theorem item_iff {item : List Char} {x : Char} :
    Item quote item x ↔ Denotes quote item x ∨ Signed item x := by
  constructor
  · intro h
    cases h with
    | plain hquote hslash => exact .inl (.plain hquote hslash)
    | escaped he => exact .inl (.letter (unescape?_eq_some_iff.1 he))
    | numbered hs => exact (scalar?_eq_some_iff quote).1 hs
  · rintro (h | h)
    · cases h with
      | plain hquote hslash => exact .plain hquote hslash
      | letter he => exact .escaped (unescape?_eq_some_iff.2 he)
      | number ha hb hc hd hx =>
          exact .numbered ((scalar?_eq_some_iff quote).2 (.inl (.number ha hb hc hd hx)))
    · cases h with
      | number hb hc hd hx =>
          exact .numbered ((scalar?_eq_some_iff quote).2 (.inr (.number hb hc hd hx)))

/-- A text between quotes is items one behind the other, and denotes what they denote. -/
theorem body_iff {body value : List Char} : Body quote body value ↔
    ∃ items, body = items.flatten ∧ List.Forall₂ (Item quote) items value := by
  constructor
  · intro h
    induction h with
    | nil => exact ⟨[], rfl, .nil⟩
    | @cons item _ _ _ hitem _ ih =>
        obtain ⟨items, rfl, hitems⟩ := ih
        exact ⟨item :: items, rfl, .cons hitem hitems⟩
  · rintro ⟨items, rfl, h⟩
    induction h with
    | nil => exact .nil
    | cons hitem _ ih => exact .cons hitem ih

/-! ## The reader -/

/-- What follows an opening quote is read exactly if it is items up to a closing quote, where an
item may also have a sign in place of its first digit, and as what the items denote. Everything else
is refused. -/
theorem read_items_iff (hquote : isQuote quote = true) (text : List Char) :
    (∀ value rest, Quoted.read quote text = .ok (value, rest) ↔
        ∃ items, text = items.flatten ++ quote :: rest ∧
          List.Forall₂ (fun item x => Denotes quote item x ∨ Signed item x) items value) ∧
      ((∃ failure, Quoted.read quote text = .error failure) ↔
        ¬∃ items value rest, text = items.flatten ++ quote :: rest ∧
          List.Forall₂ (fun item x => Denotes quote item x ∨ Signed item x) items value) := by
  have hread : ∀ value rest, Quoted.read quote text = .ok (value, rest) ↔
      ∃ items, text = items.flatten ++ quote :: rest ∧
        List.Forall₂ (fun item x => Denotes quote item x ∨ Signed item x) items value := by
    intro value rest
    rw [read_eq_ok_iff (ne_slash_of_isQuote hquote)]
    simp only [body_iff, ← item_iff]
    constructor
    · rintro ⟨_, ⟨items, rfl, hitems⟩, htext⟩
      exact ⟨items, htext, hitems⟩
    · rintro ⟨items, htext, hitems⟩
      exact ⟨_, ⟨items, rfl, hitems⟩, htext⟩
  refine ⟨hread, ?_, ?_⟩
  · rintro ⟨failure, hfailure⟩ ⟨items, value, rest, hitems⟩
    rw [(hread value rest).2 ⟨items, hitems⟩] at hfailure
    cases hfailure
  · intro hnone
    cases hresult : Quoted.read quote text with
    | error failure => exact ⟨failure, rfl⟩
    | ok r =>
        obtain ⟨items, hitems⟩ := (hread r.1 r.2).1 hresult
        exact absurd ⟨items, r.1, r.2, hitems⟩ hnone

/-- A plus sign and three digits are read as a capital A, and are no item with four digits: no items
of that kind make up the text. -/
theorem read_items_sign :
    Quoted.read '\'' ['\\', 'u', '+', '0', '4', '1', '\''] = .ok (['A'], []) ∧
      ¬∃ items value rest, ['\\', 'u', '+', '0', '4', '1', '\''] = items.flatten ++ '\'' :: rest ∧
        List.Forall₂ (Denotes '\'') items value := by
  constructor
  · refine ((read_items_iff isQuote_single _).1 _ _).2
      ⟨[['\\', 'u', '+', '0', '4', '1']], rfl, .cons (.inr ?_) .nil⟩
    exact .number (j := 0) (k := 4) (l := 1) (.inl rfl) (.inl rfl) (.inl rfl) rfl
  · rintro ⟨items, value, rest, htext, hitems⟩
    cases hitems with
    | nil => exact absurd (List.cons.inj htext).1 (by decide)
    | cons hitem _ =>
        cases hitem with
        | plain _ hslash => exact hslash (List.cons.inj htext).1.symm
        | letter he =>
            obtain ⟨rfl, -⟩ := List.cons.inj (List.cons.inj htext).2
            exact absurd (unescape?_eq_some_iff.2 he) nofun
        | number ha _ _ _ _ =>
            obtain ⟨-, hplus⟩ := List.cons.inj (List.cons.inj htext).2
            obtain ⟨rfl, -⟩ := List.cons.inj hplus
            exact not_isDigit_plus _ ha

end PathQuery.Text.Quoted
