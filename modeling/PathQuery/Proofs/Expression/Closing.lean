import Mathlib.Data.List.Induction
import PathQuery.Expression.Basic
import PathQuery.Proofs.Text.Blank
import PathQuery.Proofs.Text.Quoted
import PathQuery.Proofs.Text.Word

/-!
# What a pair of brackets encloses

`Scans d text e` says that a text leads from `d` open brackets to `e` of them, with quoted texts
passed over as a whole and brackets and parentheses counted alike. `closing_eq_ok_iff` says that the
search for a closing bracket finds the first one to which the text leads with nothing open, and
`readBracket_eq_ok_iff` that a group is read from what stands before that bracket and from nothing
else.
-/

namespace PathQuery.Expression

open Text Text.Quoted

/-- A quoted text is read exactly if it is items up to a closing quote. -/
theorem readQuoted_eq_ok_iff {quote : Char} (hquote : isQuote quote = true)
    {text value rest : List Char} :
    readQuoted quote text = .ok (value, rest) ↔
      ∃ body, Body quote body value ∧ text = body ++ quote :: rest := by
  rw [← read_eq_ok_iff (ne_slash_of_isQuote hquote), readQuoted]
  cases Quoted.read quote text with
  | error failure => simp
  | ok r => simp

/-- A character that neither opens nor closes anything. -/
structure Inert (c : Char) : Prop where
  noQuote : isQuote c = false
  noOpening : ¬(c = '[' ∨ c = '(')
  noClosing : ¬(c = ']' ∨ c = ')')

instance (c : Char) : Decidable (Inert c) :=
  decidable_of_iff (isQuote c = false ∧ ¬(c = '[' ∨ c = '(') ∧ ¬(c = ']' ∨ c = ')'))
    ⟨fun h => ⟨h.1, h.2.1, h.2.2⟩, fun h => ⟨h.noQuote, h.noOpening, h.noClosing⟩⟩

/-- The quotes, brackets and parentheses. -/
def delimiters : List Char := ['[', ']', '(', ')', '\'', '"']

/-- A class of characters with no quotes, brackets and parentheses in it is one of inert ones. -/
theorem inert_of_class {p : Char → Bool} (hp : ∀ c ∈ delimiters, p c = false) {c : Char}
    (hc : p c = true) : Inert c := by
  have hne : ∀ d ∈ delimiters, c ≠ d := by
    rintro d hd rfl
    rw [hp c hd] at hc
    cases hc
  simp only [delimiters, List.forall_mem_cons] at hne
  obtain ⟨hopen, hclose, hopen', hclose', hsingle, hdouble, -⟩ := hne
  exact ⟨by simp [isQuote, hsingle, hdouble], by simp [hopen, hopen'], by simp [hclose, hclose']⟩

/-- A digit opens and closes nothing. -/
theorem inert_of_isDigit {c : Char} (h : c.isDigit = true) : Inert c :=
  inert_of_class (p := Char.isDigit) (forall_mem_of_all rfl) h

/-- A name character opens and closes nothing. -/
theorem inert_of_isNameChar {c : Char} (h : isNameChar c = true) : Inert c :=
  inert_of_class (p := isNameChar) (forall_mem_of_all rfl) h

/-- A blank opens and closes nothing. -/
theorem inert_of_isBlank {c : Char} (h : isBlank c = true) : Inert c :=
  inert_of_class (p := isBlank) (forall_mem_of_all rfl) h

/-- A text leads from a number of open brackets to another one. -/
inductive Scans : Nat → List Char → Nat → Prop
  | nil (d : Nat) : Scans d [] d
  /-- A quoted text opens and closes nothing, whatever is in it. -/
  | quoted {d e : Nat} {quote : Char} {body value text : List Char}
    (hquote : isQuote quote = true) (hbody : Body quote body value) (htext : Scans d text e) :
    Scans d (quote :: (body ++ quote :: text)) e
  | opening {d e : Nat} {c : Char} {text : List Char} (hc : c = '[' ∨ c = '(')
    (htext : Scans (d + 1) text e) : Scans d (c :: text) e
  | closing {d e : Nat} {c : Char} {text : List Char} (hc : c = ']' ∨ c = ')')
    (htext : Scans d text e) : Scans (d + 1) (c :: text) e
  | inert {d e : Nat} {c : Char} {text : List Char} (hc : Inert c) (htext : Scans d text e) :
    Scans d (c :: text) e

/-- Texts lead on from where the text before them led. -/
theorem Scans.append {d e f : Nat} {a b : List Char} (ha : Scans d a e) (hb : Scans e b f) :
    Scans d (a ++ b) f := by
  induction ha with
  | nil => exact hb
  | @quoted _ _ quote body value text hquote hbody _ ih =>
      have := Scans.quoted hquote hbody (ih hb)
      simpa using this
  | opening hc _ ih => exact .opening hc (ih hb)
  | closing hc _ ih => exact .closing hc (ih hb)
  | inert hc _ ih => exact .inert hc (ih hb)

/-- A text without quotes, brackets and parentheses leads nowhere else. -/
theorem Scans.of_inert {text : List Char} (h : ∀ c ∈ text, Inert c) (d : Nat) :
    Scans d text d := by
  induction text with
  | nil => exact .nil d
  | cons c rest ih =>
      exact .inert (h c List.mem_cons_self) (ih fun x hx => h x (List.mem_cons_of_mem _ hx))

/-- A quoted text alone leads nowhere else. -/
theorem Scans.of_quoted {quote : Char} (hquote : isQuote quote = true) {body value : List Char}
    (hbody : Body quote body value) (d : Nat) : Scans d (quote :: body ++ [quote]) d :=
  .quoted hquote hbody (.nil d)

/-- A text leads as far with one more that is open before it. -/
theorem Scans.succ {d e : Nat} {text : List Char} (h : Scans d text e) :
    Scans (d + 1) text (e + 1) := by
  induction h with
  | nil d => exact .nil (d + 1)
  | quoted hquote hbody _ ih => exact .quoted hquote hbody ih
  | opening hc _ ih => exact .opening hc ih
  | closing hc _ ih => exact .closing hc ih
  | inert hc _ ih => exact .inert hc ih

/-- Behind an inert character a text leads where it led with it. -/
theorem Scans.of_cons {d e : Nat} {c : Char} {text : List Char} (h : Scans d (c :: text) e)
    (hc : Inert c) : Scans d text e := by
  cases h with
  | quoted hquote _ _ =>
      rw [hc.noQuote] at hquote
      cases hquote
  | opening hopening _ => exact absurd hopening hc.noOpening
  | closing hclosing _ => exact absurd hclosing hc.noClosing
  | inert _ htext => exact htext

/-- The beginning of a filter opens one parenthesis. -/
theorem Scans.filter {d e : Nat} {text : List Char} (h : Scans (d + 1) text e) :
    Scans d ('?' :: '(' :: text) e :=
  .inert (by decide) (.opening (.inr rfl) h)

/-- The empty text leads nowhere else. -/
theorem Scans.eq_of_nil {d e : Nat} (h : Scans d [] e) : d = e := by
  cases h
  rfl

/-- Behind an opening bracket a text leads on from one more that is open. -/
theorem Scans.of_opening {d e : Nat} {c : Char} {text : List Char} (h : Scans d (c :: text) e)
    (hc : c = '[' ∨ c = '(') : Scans (d + 1) text e := by
  cases h with
  | quoted hquote _ _ => rcases hc with rfl | rfl <;> cases hquote
  | opening _ htext => exact htext
  | closing hclosing _ =>
      rcases hc with rfl | rfl <;> exact absurd hclosing (by decide)
  | inert hinert _ => exact absurd hc hinert.noOpening

/-- Behind a closing bracket a text leads on from one less that is open. -/
theorem Scans.of_closing {d e : Nat} {c : Char} {text : List Char} (h : Scans d (c :: text) e)
    (hc : c = ']' ∨ c = ')') : ∃ f, d = f + 1 ∧ Scans f text e := by
  cases h with
  | quoted hquote _ _ => rcases hc with rfl | rfl <;> cases hquote
  | opening hopening _ =>
      rcases hc with rfl | rfl <;> exact absurd hopening (by decide)
  | closing _ htext => exact ⟨_, rfl, htext⟩
  | inert hinert _ => exact absurd hc hinert.noClosing

/-- Behind a quote a text goes on with what the quote encloses. -/
theorem Scans.of_quote {d e : Nat} {c : Char} {text : List Char} (h : Scans d (c :: text) e)
    (hc : isQuote c = true) :
    ∃ body value rest, Body c body value ∧ text = body ++ c :: rest ∧ Scans d rest e := by
  cases h with
  | quoted _ hbody htext => exact ⟨_, _, _, hbody, rfl, htext⟩
  | opening hopening _ => rcases hopening with rfl | rfl <;> cases hc
  | closing hclosing _ => rcases hclosing with rfl | rfl <;> cases hc
  | inert hinert _ =>
      rw [hinert.noQuote] at hc
      cases hc

/-- A last character that is no quote stands behind the quoted text that a text begins with. -/
theorem exists_concat_of_quoted {quote c : Char} {text body rest : List Char}
    (hquote : isQuote quote = true) (hc : isQuote c = false)
    (h : text ++ [c] = quote :: (body ++ quote :: rest)) :
    ∃ init, rest = init ++ [c] ∧ text = quote :: (body ++ quote :: init) := by
  rcases List.eq_nil_or_concat rest with rfl | ⟨init, last, rfl⟩
  · have hlast := congrArg List.getLast? h
    rw [List.getLast?_concat, ← List.cons_append, List.getLast?_concat] at hlast
    cases hlast
    rw [hquote] at hc
    cases hc
  · have hsplit : text ++ [c] = (quote :: (body ++ quote :: init)) ++ [last] := by
      simpa using h
    obtain ⟨rfl, hlast⟩ := List.append_inj' hsplit rfl
    cases hlast
    exact ⟨init, List.concat_eq_append, rfl⟩

/-- A last character that is no quote is led to by the text before it. -/
theorem Scans.exists_concat {d e : Nat} {text : List Char} {c : Char}
    (h : Scans d (text ++ [c]) e) (hc : isQuote c = false) :
    ∃ f, Scans d text f ∧ Scans f [c] e := by
  generalize hwhole : text ++ [c] = whole at h
  induction h generalizing text with
  | nil => simp at hwhole
  | @quoted d e quote body value rest hquote hbody hrest ih =>
      obtain ⟨init, rfl, rfl⟩ := exists_concat_of_quoted hquote hc hwhole
      obtain ⟨f, hinit, hend⟩ := ih rfl
      exact ⟨f, .quoted hquote hbody hinit, hend⟩
  | @opening d e c' rest hopening hrest ih =>
      cases text with
      | nil =>
          cases hwhole
          exact ⟨d, .nil d, .opening hopening hrest⟩
      | cons b init =>
          obtain ⟨rfl, hinit⟩ := List.cons.inj hwhole
          obtain ⟨f, hscans, hend⟩ := ih hinit
          exact ⟨f, .opening hopening hscans, hend⟩
  | @closing d e c' rest hclosing hrest ih =>
      cases text with
      | nil =>
          cases hwhole
          exact ⟨d + 1, .nil _, .closing hclosing hrest⟩
      | cons b init =>
          obtain ⟨rfl, hinit⟩ := List.cons.inj hwhole
          obtain ⟨f, hscans, hend⟩ := ih hinit
          exact ⟨f, .closing hclosing hscans, hend⟩
  | @inert d e c' rest hinert hrest ih =>
      cases text with
      | nil =>
          cases hwhole
          exact ⟨d, .nil d, .inert hinert hrest⟩
      | cons b init =>
          obtain ⟨rfl, hinit⟩ := List.cons.inj hwhole
          obtain ⟨f, hscans, hend⟩ := ih hinit
          exact ⟨f, .inert hinert hscans, hend⟩

/-- Blanks around a text lead nowhere else. -/
theorem Scans.of_append_blank {before text after : List Char} {d e : Nat}
    (h : Scans d (before ++ (text ++ after)) e) (hb : Blank before) (ha : Blank after) :
    Scans d text e := by
  have hfront : Scans d (text ++ after) e := by
    induction before with
    | nil => exact h
    | cons c rest ih =>
        obtain ⟨hc, hrest⟩ := List.forall_mem_cons.1 hb
        exact ih (h.of_cons (inert_of_isBlank hc)) hrest
  clear h
  induction after using List.reverseRecOn with
  | nil => simpa using hfront
  | append_singleton rest c ih =>
      have hc : isBlank c = true := ha c (by simp)
      rw [← List.append_assoc] at hfront
      obtain ⟨f, hscans, hend⟩ := hfront.exists_concat (inert_of_isBlank hc).noQuote
      have hsame := hend.of_cons (inert_of_isBlank hc)
      cases hsame
      exact ih (fun x hx => ha x (List.mem_append_left _ hx)) hscans

/-! ## The closing bracket -/

/-- The search passes over a text that leads from one number of open brackets to another. -/
theorem closing_of_scans {d e : Nat} {text : List Char} (h : Scans d text e)
    (group rest : List Char) : closing group d (text ++ rest) = closing group e rest := by
  induction h with
  | nil => rfl
  | @quoted _ _ quote body value text hquote hbody _ ih =>
      have hread : readQuoted quote (body ++ quote :: (text ++ rest)) =
          .ok (value, text ++ rest) :=
        (readQuoted_eq_ok_iff hquote).2 ⟨body, hbody, rfl⟩
      rw [List.cons_append, List.append_assoc, List.cons_append, closing, if_pos hquote]
      split
      · rename_i he
        rw [hread] at he
        cases he
      · rename_i he
        rw [hread] at he
        cases he
        exact ih
  | @opening _ _ c _ hc _ ih =>
      have hq : ¬isQuote c = true := by rcases hc with rfl | rfl <;> decide
      rw [List.cons_append, closing, if_neg hq, if_pos hc, ih]
  | closing hc _ ih =>
      rcases hc with rfl | rfl
      · rw [List.cons_append, closing, if_neg (by decide), if_neg (by decide),
          if_neg (by decide), if_pos rfl, if_neg (Nat.succ_ne_zero _), Nat.add_sub_cancel, ih]
      · rw [List.cons_append, closing, if_neg (by decide), if_neg (by decide), if_pos rfl,
          if_neg (Nat.succ_ne_zero _), Nat.add_sub_cancel, ih]
  | inert hc _ ih =>
      rw [List.cons_append, closing, if_neg (by simp [hc.noQuote]), if_neg hc.noOpening,
        if_neg fun h => hc.noClosing (.inr h), if_neg fun h => hc.noClosing (.inl h), ih]

/-- What the search passed over leads to nothing open. -/
theorem scans_of_closing {group text rest : List Char} {d : Nat}
    (h : closing group d text = .ok rest) :
    ∃ inner, Scans d inner 0 ∧ text = inner ++ ']' :: rest := by
  fun_induction closing group d text with
  | case1 | case2 | case5 => cases h
  | case3 d c text hq value more hread ih =>
      obtain ⟨inner, hinner, rfl⟩ := ih h
      obtain ⟨body, hbody, rfl⟩ := (readQuoted_eq_ok_iff hq).1 hread
      exact ⟨c :: (body ++ c :: inner), .quoted hq hbody hinner, by simp⟩
  | case4 d c text hq hc ih =>
      obtain ⟨inner, hinner, rfl⟩ := ih h
      exact ⟨c :: inner, .opening hc hinner, rfl⟩
  | case6 d text hd hq hc ih =>
      obtain ⟨inner, hinner, rfl⟩ := ih h
      obtain ⟨d, rfl⟩ := Nat.exists_eq_succ_of_ne_zero hd
      exact ⟨')' :: inner, .closing (.inr rfl) hinner, rfl⟩
  | case7 =>
      cases h
      exact ⟨[], .nil 0, rfl⟩
  | case8 d text hd hq hc hp ih =>
      obtain ⟨inner, hinner, rfl⟩ := ih h
      obtain ⟨d, rfl⟩ := Nat.exists_eq_succ_of_ne_zero hd
      exact ⟨']' :: inner, .closing (.inl rfl) hinner, rfl⟩
  | case9 d c text hq hc hp hb ih =>
      obtain ⟨inner, hinner, rfl⟩ := ih h
      have hinert : Inert c := ⟨by simpa using hq, hc, fun h => h.elim hb hp⟩
      exact ⟨c :: inner, .inert hinert hinner, rfl⟩

/-- The bracket that closes a group is the first to which the text leads with nothing open. -/
theorem closing_eq_ok_iff {group text rest : List Char} {d : Nat} :
    closing group d text = .ok rest ↔ ∃ inner, Scans d inner 0 ∧ text = inner ++ ']' :: rest := by
  refine ⟨scans_of_closing, ?_⟩
  rintro ⟨inner, hinner, rfl⟩
  rw [closing_of_scans hinner, closing, if_neg (by decide), if_neg (by decide),
    if_neg (by decide), if_pos rfl, if_pos rfl]

/-- Up to its closing bracket a group is read as its contents are, without the blanks at their ends;
a fault in them is carried over to the text behind the opening bracket. -/
theorem readBracket_append {inner : List Char} (h : Scans 0 inner 0) (rest : List Char) :
    readBracket (inner ++ ']' :: rest) =
      match readGroup (trim inner) with
      | .error f => .error (f.carry (trim inner) (inner ++ ']' :: rest))
      | .ok s => .ok (s, rest) := by
  have hclosing : closing ('[' :: (inner ++ ']' :: rest)) 0 (inner ++ ']' :: rest) = .ok rest :=
    closing_eq_ok_iff.2 ⟨inner, h, rfl⟩
  have hcontents : (inner ++ ']' :: rest).take
      ((inner ++ ']' :: rest).length - rest.length - 1) = inner := by
    rw [List.length_append, List.length_cons, show inner.length + (rest.length + 1) - rest.length
      - 1 = inner.length by omega, List.take_left]
  cases hgroup : readGroup (trim inner) with
  | error f => simp only [readBracket, hclosing, hcontents, hgroup]
  | ok s => simp only [readBracket, hclosing, hcontents, hgroup]

/-- A group is read from what stands before its closing bracket, without the blanks at its ends. -/
theorem readBracket_eq_ok_iff {text rest : List Char} {s : Selector} :
    readBracket text = .ok (s, rest) ↔
      ∃ inner, Scans 0 inner 0 ∧ text = inner ++ ']' :: rest ∧ readGroup (trim inner) = .ok s := by
  constructor
  · intro h
    cases hclosing : closing ('[' :: text) 0 text with
    | error f =>
        rw [readBracket, hclosing] at h
        cases h
    | ok more =>
        obtain ⟨inner, hinner, rfl⟩ := closing_eq_ok_iff.1 hclosing
        rw [readBracket_append hinner] at h
        split at h
        · cases h
        · rename_i hgroup
          cases h
          exact ⟨inner, hinner, rfl, hgroup⟩
  · rintro ⟨inner, hinner, rfl, hgroup⟩
    rw [readBracket_append hinner, hgroup]

end PathQuery.Expression
