import PathQuery.Proofs.Expression.Path

/-!
# Properly nested texts

A text is properly nested (`Nested`) if outside quotes each bracket is closed by a bracket and each
parenthesis by a parenthesis, the one opened last first. This is more than leading from nothing open
to nothing open (`Nested.scans`), since the count of what is open takes brackets for parentheses.

`Passes text rest` says that in front of `rest` a text is properly nested. The readers of a
condition take a part of a text only if it is so, whatever the blanks in it: `passes_readPath`,
`passes_readLiteral`, `nested_of_readCondition`.
-/

namespace PathQuery.Expression

open Text Text.Quoted

/-- What opens a pair, and what closes it. -/
inductive Pair : Char → Char → Prop
  | brackets : Pair '[' ']'
  | parentheses : Pair '(' ')'

/-- The first of a pair opens. -/
theorem Pair.opens {c d : Char} (h : Pair c d) : c = '[' ∨ c = '(' := by
  cases h with
  | brackets => exact .inl rfl
  | parentheses => exact .inr rfl

/-- The second of a pair closes. -/
theorem Pair.closes {c d : Char} (h : Pair c d) : d = ']' ∨ d = ')' := by
  cases h with
  | brackets => exact .inl rfl
  | parentheses => exact .inr rfl

/-- A text of pairs that lie side by side or one within the other, of quoted texts, and of
characters that neither open nor close anything. -/
inductive Nested : List Char → Prop
  | nil : Nested []
  | inert {c : Char} {text : List Char} (hc : Inert c) (htext : Nested text) : Nested (c :: text)
  /-- What is in quotes need not be nested. -/
  | quoted {quote : Char} {body value text : List Char} (hquote : isQuote quote = true)
    (hbody : Body quote body value) (htext : Nested text) :
    Nested (quote :: (body ++ quote :: text))
  | pair {c d : Char} {inner text : List Char} (hpair : Pair c d) (hinner : Nested inner)
    (htext : Nested text) : Nested (c :: (inner ++ d :: text))

namespace Nested

variable {a b text : List Char}

/-- Properly nested texts one after the other are properly nested. -/
theorem append (ha : Nested a) (hb : Nested b) : Nested (a ++ b) := by
  induction ha with
  | nil => exact hb
  | inert hc _ ih => exact .inert hc ih
  | quoted hquote hbody _ ih =>
      have := Nested.quoted hquote hbody ih
      simpa using this
  | pair hpair hinner _ _ ih =>
      have := Nested.pair hpair hinner ih
      simpa using this

/-- A text without quotes, brackets and parentheses is properly nested. -/
theorem of_inert (h : ∀ c ∈ text, Inert c) : Nested text := by
  induction text with
  | nil => exact .nil
  | cons c rest ih =>
      obtain ⟨hc, hrest⟩ := List.forall_mem_cons.1 h
      exact .inert hc (ih hrest)

/-- A properly nested text opens and closes nothing. -/
theorem scans (h : Nested text) (d : Nat) : Scans d text d := by
  induction h generalizing d with
  | nil => exact .nil d
  | inert hc _ ih => exact .inert hc (ih d)
  | quoted hquote hbody _ ih => exact .quoted hquote hbody (ih d)
  | pair hpair _ _ ihinner ihtext =>
      exact .opening hpair.opens ((ihinner (d + 1)).append (.closing hpair.closes (ihtext d)))

/-- A text is properly nested if it is so without the blanks at its ends. -/
theorem of_trim (h : Nested (trim text)) : Nested text := by
  obtain ⟨before, after, hb, ha, htext, -⟩ := exists_trim text
  have hbefore : Nested before := .of_inert fun c hc => inert_of_isBlank (hb c hc)
  have hafter : Nested after := .of_inert fun c hc => inert_of_isBlank (ha c hc)
  rw [htext]
  exact hbefore.append (h.append hafter)

/-- Behind an inert character a properly nested text is properly nested. -/
theorem of_cons {c : Char} (h : Nested (c :: text)) (hc : Inert c) : Nested text := by
  cases h with
  | inert _ htext => exact htext
  | quoted hquote _ _ =>
      rw [hc.noQuote] at hquote
      cases hquote
  | pair hpair _ _ => exact absurd hpair.opens hc.noOpening

/-- What begins with one end of a pair goes on to the other. -/
theorem exists_of_pair {c d : Char} (h : Nested (c :: text)) (hpair : Pair c d) :
    ∃ inner rest, text = inner ++ d :: rest ∧ Nested inner ∧ Nested rest := by
  cases h with
  | inert hc _ => exact absurd hpair.opens hc.noOpening
  | quoted hquote _ _ => cases hpair <;> cases hquote
  | pair hother hinner hrest =>
      cases hpair <;> cases hother <;> exact ⟨_, _, rfl, hinner, hrest⟩

end Nested

/-! ## The fronts that readers take -/

/-- What a reader leaves of a text of which it takes a properly nested front. -/
def Passes (text rest : List Char) : Prop := ∃ front, Nested front ∧ text = front ++ rest

namespace Passes

variable {text rest after : List Char} {c d : Char}

/-- A reader may take nothing. -/
theorem refl (text : List Char) : Passes text text := ⟨[], .nil, rfl⟩

/-- A reader may go on where another one stopped. -/
theorem trans (h : Passes text rest) (hrest : Passes rest after) : Passes text after := by
  obtain ⟨front, hfront, rfl⟩ := h
  obtain ⟨more, hmore, rfl⟩ := hrest
  exact ⟨front ++ more, hfront.append hmore, (List.append_assoc _ _ _).symm⟩

/-- A text is properly nested if what a reader leaves of it is. -/
theorem nested (h : Passes text rest) (hrest : Nested rest) : Nested text := by
  obtain ⟨front, hfront, rfl⟩ := h
  exact hfront.append hrest

/-- A reader may take an inert character first. -/
theorem cons (hc : Inert c) (h : Passes text rest) : Passes (c :: text) rest := by
  obtain ⟨front, hfront, rfl⟩ := h
  exact ⟨c :: front, .inert hc hfront, rfl⟩

/-- What is taken between the two ends of a pair is taken with them. -/
theorem pair (hpair : Pair c d) (h : Passes text (d :: rest)) : Passes (c :: text) rest := by
  obtain ⟨front, hfront, rfl⟩ := h
  exact ⟨c :: (front ++ [d]), .pair hpair hfront .nil, by simp⟩

/-- A word of inert characters may be taken. -/
theorem dropWhile {p : Char → Bool} (hp : ∀ c ∈ delimiters, p c = false) (text : List Char) :
    Passes text (text.dropWhile p) := by
  refine ⟨text.takeWhile p, .of_inert fun c hc => ?_, List.takeWhile_append_dropWhile.symm⟩
  exact inert_of_class hp (List.all_eq_true.1 List.all_takeWhile c hc)

/-- Blanks may be taken. -/
theorem skipBlanks (text : List Char) : Passes text (skipBlanks text) :=
  .dropWhile (forall_mem_of_all rfl) text

/-- A quoted text may be taken. -/
theorem readQuoted {value : List Char} (hc : isQuote c = true)
    (h : readQuoted c text = .ok (value, rest)) : Passes (c :: text) rest := by
  obtain ⟨body, hbody, rfl⟩ := (readQuoted_eq_ok_iff hc).1 h
  exact ⟨c :: (body ++ [c]), .quoted hc hbody .nil, by simp⟩

end Passes

variable {text rest : List Char}

/-- A name behind a dot is taken. -/
theorem passes_readPathName {key : Key} (h : readPathName text = .ok (key, rest)) :
    Passes text rest := by
  unfold readPathName at h
  dsimp only at h
  split at h
  · cases h
  · cases h
    exact .dropWhile (forall_mem_of_all rfl) text

/-- A key is taken. -/
theorem passes_readPathKey {key : Key} (h : readPathKey text = .ok (key, rest)) :
    Passes text rest := by
  unfold readPathKey at h
  split at h
  · cases h
  split at h
  · rename_i hquote
    obtain ⟨⟨value, more⟩, hread, hpair⟩ := map_eq_ok h
    cases hpair
    exact .readQuoted hquote hread
  split at h
  · dsimp only at h
    split at h <;> cases h
    exact .dropWhile (forall_mem_of_all rfl) _
  · cases h

/-- A key is taken up to the bracket that closes it. -/
theorem passes_readPathBracket {key : Key} (h : readPathBracket text = .ok (key, rest)) :
    Passes text (']' :: rest) := by
  unfold readPathBracket at h
  split at h
  · cases h
  rename_i more hkey
  split at h
  · rename_i hclose
    cases h
    have hmore := Passes.skipBlanks more
    rw [hclose] at hmore
    exact ((Passes.skipBlanks text).trans (passes_readPathKey hkey)).trans hmore
  · cases h

/-- A path is taken. -/
theorem passes_readPath {path : List Key} (h : readPath text = .ok (path, rest)) :
    Passes text rest := by
  replace h := pathRead_of_readPath h
  induction h with
  | done _ _ => exact .refl _
  | name hname _ ih => exact .cons (by decide) ((passes_readPathName hname).trans ih)
  | bracket hbracket _ ih =>
      exact (Passes.pair .brackets (passes_readPathBracket hbracket)).trans ih

/-- The sign of a comparison is taken. -/
theorem passes_readComparison {op : Comparison} (h : readComparison text = .ok (op, rest)) :
    Passes text rest := by
  unfold readComparison at h
  split at h <;> cases h
  · exact .cons (by decide) (.cons (by decide) (.cons (by decide) (.refl _)))
  all_goals first
    | exact .cons (by decide) (.refl _)
    | exact .cons (by decide) (.cons (by decide) (.refl _))

/-- A literal is taken. -/
theorem passes_readLiteral {s : Scalar} (h : readLiteral text = .ok (s, rest)) :
    Passes text rest := by
  unfold readLiteral at h
  split at h
  · cases h
  split at h
  · rename_i hquote
    obtain ⟨⟨value, more⟩, hread, hpair⟩ := map_eq_ok h
    cases hpair
    exact .readQuoted hquote hread
  split at h
  · dsimp only at h
    split at h <;> cases h
    exact .dropWhile (forall_mem_of_all rfl) _
  split at h
  · dsimp only at h
    split at h <;> cases h
    exact .dropWhile (forall_mem_of_all rfl) _
  · cases h

/-- A comparison and a literal are properly nested. -/
theorem nested_of_readComparing {path : List Key} {condition : Condition}
    (h : readComparing path text = .ok condition) : Nested text := by
  unfold readComparing at h
  split at h
  · cases h
  rename_i more hop
  split at h
  · cases h
  rename_i last hliteral
  split at h
  · rename_i hend
    have hlast := Passes.skipBlanks last
    rw [hend] at hlast
    have hmore := (Passes.skipBlanks more).trans ((passes_readLiteral hliteral).trans hlast)
    exact ((passes_readComparison hop).trans hmore).nested .nil
  · cases h

/-- A condition is properly nested. -/
theorem nested_of_readCondition {condition : Condition} (h : readCondition text = .ok condition) :
    Nested text := by
  have hblanks := Passes.skipBlanks text
  unfold readCondition at h
  split at h
  · rename_i more hat
    rw [hat] at hblanks
    split at h
    · cases h
    rename_i last hpath
    have hpassed := (passes_readPath hpath).trans (.skipBlanks last)
    have hfront := hblanks.trans (.cons (by decide) hpassed)
    split at h
    · rename_i hend
      rw [hend] at hfront
      exact hfront.nested .nil
    · exact hfront.nested (nested_of_readComparing h)
  · cases h

end PathQuery.Expression
