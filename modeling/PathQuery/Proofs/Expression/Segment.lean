import PathQuery.Proofs.Expression.Closing
import PathQuery.Proofs.Text.Word

/-!
# The text of one selector

`Segment seg s rest` says that the text `seg` is the selector `s` where `rest` follows. Only a name,
or two dots, look at what follows: a name goes on as far as it can, and three dots in a row are
none. `readSelector_eq_ok_iff` says that the reader takes exactly such texts.
-/

namespace PathQuery.Expression

open Text

/-- A name that needs no quotes. -/
structure Bare (name : List Char) : Prop where
  ne_nil : name ≠ []
  all : ∀ c ∈ name, isNameChar c = true

/-- A text behind which a name does not go on. -/
def EndsName (rest : List Char) : Prop := ∀ c, rest.head? = some c → isNameChar c = false

/-- The text of a selector, the selector, and what follows the text. -/
inductive Segment : List Char → Selector → List Char → Prop
  | star {rest : List Char} : Segment ['*'] .children rest
  | dotStar {rest : List Char} : Segment ['.', '*'] .children rest
  | member {name rest : List Char} (hname : Bare name) (hrest : EndsName rest) :
    Segment ('.' :: name) (.member (String.ofList name)) rest
  | descent {rest : List Char} (hdot : rest.head? ≠ some '.') (hrest : EndsName rest) :
    Segment ['.', '.'] (.descent none) rest
  | descentTo {name rest : List Char} (hname : Bare name) (hrest : EndsName rest) :
    Segment ('.' :: '.' :: name) (.descent (some (String.ofList name))) rest
  | group {inner rest : List Char} {s : Selector} (hinner : Scans 0 inner 0)
    (hgroup : readGroup (trim inner) = .ok s) : Segment ('[' :: inner ++ [']']) s rest

/-! ## Names -/

/-- A name character is none of the characters that end a name. -/
theorem ne_of_isNameChar {c d : Char} (hc : isNameChar c = true)
    (hd : namePunctuation.contains d = true) : c ≠ d := by
  rintro rfl
  rw [isNameChar, hd, Bool.not_true, Bool.and_false] at hc
  cases hc

/-- A blank ends a name. -/
theorem isNameChar_of_isBlank {c : Char} (h : isBlank c = true) : isNameChar c = false := by
  simp [isNameChar, h]

/-- A name character is no blank. -/
theorem isBlank_of_isNameChar {c : Char} (h : isNameChar c = true) : isBlank c = false := by
  rw [isNameChar, Bool.and_eq_true, Bool.not_eq_true'] at h
  exact h.1

/-- A name is taken up to where it ends. -/
theorem takeWhile_name {name rest : List Char} (hname : ∀ c ∈ name, isNameChar c = true)
    (hrest : EndsName rest) : (name ++ rest).takeWhile isNameChar = name :=
  takeWhile_word hname hrest

/-- What is left behind a name begins where the name ends. -/
theorem dropWhile_name {name rest : List Char} (hname : ∀ c ∈ name, isNameChar c = true)
    (hrest : EndsName rest) : (name ++ rest).dropWhile isNameChar = rest :=
  dropWhile_word hname hrest

/-- A name does not go on behind all that could be taken of it. -/
theorem endsName_dropWhile (text : List Char) : EndsName (text.dropWhile isNameChar) := by
  intro c hc
  have := List.head?_dropWhile_not isNameChar text
  rw [hc] at this
  simpa using this

/-- What is taken of a name, if it is anything, is a name. -/
theorem bare_takeWhile {text : List Char} (h : text.takeWhile isNameChar ≠ []) :
    Bare (text.takeWhile isNameChar) where
  ne_nil := h
  all c hc := List.all_eq_true.1 List.all_takeWhile c hc

/-- Where no name begins, none is taken. -/
theorem takeWhile_of_endsName {rest : List Char} (h : EndsName rest) :
    rest.takeWhile isNameChar = [] :=
  takeWhile_name (fun _ hc => absurd hc List.not_mem_nil) h

/-- Where no name begins, nothing is left out. -/
theorem dropWhile_of_endsName {rest : List Char} (h : EndsName rest) :
    rest.dropWhile isNameChar = rest :=
  dropWhile_name (fun _ hc => absurd hc List.not_mem_nil) h

/-- A name begins with a character that is neither a dot nor a star. -/
theorem Bare.exists_cons {name : List Char} (h : Bare name) :
    ∃ c more, name = c :: more ∧ isNameChar c = true ∧ c ≠ '.' ∧ c ≠ '*' := by
  cases name with
  | nil => exact absurd rfl h.ne_nil
  | cons c more =>
      have hc := h.all c List.mem_cons_self
      exact ⟨c, more, rfl, hc, ne_of_isNameChar hc rfl, ne_of_isNameChar hc rfl⟩

/-! ## Behind a dot -/

/-- A name behind a dot is read as a member. -/
theorem readDot_member {name rest : List Char} (hname : Bare name) (hrest : EndsName rest) :
    readDot (name ++ rest) = .ok (.member (String.ofList name), rest) := by
  have htake := takeWhile_name hname.all hrest
  have hdrop := dropWhile_name hname.all hrest
  obtain ⟨c, more, rfl, -, hdot, hstar⟩ := hname.exists_cons
  unfold readDot
  split
  · rename_i he
    exact absurd (List.cons.inj he).1 hdot
  · rename_i he
    exact absurd (List.cons.inj he).1 hdot
  · rename_i he
    exact absurd (List.cons.inj he).1 hstar
  · dsimp only
    rw [htake, hdrop, if_neg hname.ne_nil]

/-- Two dots are read as a descent, to the name behind them if there is one. -/
theorem readDot_descent {text : List Char} (h : text.head? ≠ some '.') :
    readDot ('.' :: text) = .ok (.descent (if text.takeWhile isNameChar = [] then none
      else some (String.ofList (text.takeWhile isNameChar))), text.dropWhile isNameChar) := by
  unfold readDot
  split
  · rename_i he
    cases he
    exact absurd rfl h
  · rename_i he
    cases he
    rfl
  · rename_i he
    cases he
  · rename_i hd _
    exact absurd rfl (hd _)

/-- What is read behind a dot is a segment with that dot. -/
theorem segment_of_readDot {text rest : List Char} {s : Selector}
    (h : readDot text = .ok (s, rest)) : ∃ seg, Segment seg s rest ∧ '.' :: text = seg ++ rest := by
  unfold readDot at h
  split at h
  · cases h
  · rename_i text hdots
    cases h
    have hsplit := List.takeWhile_append_dropWhile (p := isNameChar) (l := text)
    by_cases hname : text.takeWhile isNameChar = []
    · rw [hname, List.nil_append] at hsplit
      rw [if_pos hname, hsplit]
      have hends : EndsName text := hsplit ▸ endsName_dropWhile text
      refine ⟨['.', '.'], .descent (fun hdot => ?_) hends, rfl⟩
      obtain ⟨more, rfl⟩ := List.head?_eq_some_iff.1 hdot
      exact hdots more rfl
    · rw [if_neg hname]
      refine ⟨_, .descentTo (bare_takeWhile hname) (endsName_dropWhile text), ?_⟩
      rw [List.cons_append, List.cons_append, hsplit]
  · cases h
    exact ⟨_, .dotStar, rfl⟩
  · dsimp only at h
    split at h
    · cases h
    · rename_i hname
      cases h
      refine ⟨_, .member (bare_takeWhile hname) (endsName_dropWhile text), ?_⟩
      rw [List.cons_append, List.takeWhile_append_dropWhile]

/-! ## Selectors -/

/-- The reader takes a segment as the selector that it is the text of. -/
theorem readSelector_segment {c : Char} {text seg rest : List Char} {s : Selector}
    (h : Segment seg s rest) (htext : c :: text = seg ++ rest) :
    readSelector c text = .ok (s, rest) := by
  cases h with
  | star =>
      cases htext
      rfl
  | dotStar =>
      cases htext
      rfl
  | @member name _ hname hrest =>
      obtain ⟨rfl, rfl⟩ := List.cons.inj htext
      rw [readSelector, if_pos rfl]
      exact readDot_member hname hrest
  | descent hdot hrest =>
      obtain ⟨rfl, rfl⟩ := List.cons.inj htext
      rw [readSelector, if_pos rfl]
      refine (readDot_descent hdot).trans ?_
      rw [takeWhile_of_endsName hrest, dropWhile_of_endsName hrest, if_pos rfl]
  | @descentTo name _ hname hrest =>
      obtain ⟨rfl, rfl⟩ := List.cons.inj htext
      have hdot : (name ++ rest).head? ≠ some '.' := by
        obtain ⟨d, more, rfl, -, hd, -⟩ := hname.exists_cons
        simpa using hd
      rw [readSelector, if_pos rfl]
      refine (readDot_descent hdot).trans ?_
      rw [takeWhile_name hname.all hrest, dropWhile_name hname.all hrest, if_neg hname.ne_nil]
  | @group inner _ _ hinner hgroup =>
      rw [List.cons_append, List.cons_append, List.append_assoc] at htext
      cases htext
      have hbracket : readBracket (inner ++ ']' :: rest) = .ok (s, rest) :=
        readBracket_eq_ok_iff.2 ⟨inner, hinner, rfl, hgroup⟩
      rw [readSelector, if_neg (by decide), if_pos rfl]
      exact hbracket

/-- What the reader takes is a segment. -/
theorem segment_of_readSelector {c : Char} {text rest : List Char} {s : Selector}
    (h : readSelector c text = .ok (s, rest)) :
    ∃ seg, Segment seg s rest ∧ c :: text = seg ++ rest := by
  unfold readSelector at h
  split at h
  · rename_i hc
    subst hc
    exact segment_of_readDot h
  split at h
  · rename_i hc
    subst hc
    obtain ⟨inner, hinner, rfl, hgroup⟩ := readBracket_eq_ok_iff.1 h
    exact ⟨_, .group hinner hgroup, by simp⟩
  split at h
  · rename_i hc
    subst hc
    cases h
    exact ⟨_, .star, rfl⟩
  split at h <;> cases h

/-- A selector is read exactly if the text begins with a segment. -/
theorem readSelector_eq_ok_iff {c : Char} {text rest : List Char} {s : Selector} :
    readSelector c text = .ok (s, rest) ↔ ∃ seg, Segment seg s rest ∧ c :: text = seg ++ rest := by
  refine ⟨segment_of_readSelector, ?_⟩
  rintro ⟨seg, hseg, htext⟩
  exact readSelector_segment hseg htext

end PathQuery.Expression
