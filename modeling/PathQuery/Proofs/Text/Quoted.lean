import PathQuery.Text.Quoted

/-!
# The grammar of quoted text

Between its quotes a quoted text is a sequence of items, each of which denotes one character: a
character that is neither the quote nor a backslash, or an escape (`Item`). `read_eq_ok_iff` says
that the reader accepts exactly these texts and returns what the items denote, so that nothing
behind the closing quote has a say in it.
-/

namespace PathQuery.Text.Quoted

variable {quote : Char}

/-- One item of a text between quotes, and the character that it denotes. -/
inductive Item (quote : Char) : List Char → Char → Prop
  /-- A character that denotes itself. -/
  | plain {c : Char} (hquote : c ≠ quote) (hslash : c ≠ '\\') : Item quote [c] c
  /-- A backslash and a letter or sign. -/
  | escaped {e x : Char} (h : unescape? e = some x) : Item quote ['\\', e] x
  /-- A backslash, the letter u and the number of a character. -/
  | numbered {a b c d x : Char} (h : scalar? a b c d = some x) :
    Item quote ['\\', 'u', a, b, c, d] x

/-- A text between quotes, and what it denotes. -/
inductive Body (quote : Char) : List Char → List Char → Prop
  | nil : Body quote [] []
  | cons {item text value : List Char} {x : Char} (hitem : Item quote item x)
    (htext : Body quote text value) : Body quote (item ++ text) (x :: value)

/-- Items written one after the other make a text between quotes. -/
theorem Body.flatMap {write : Char → List Char} {value : List Char}
    (h : ∀ c ∈ value, Item quote (write c) c) : Body quote (value.flatMap write) value := by
  induction value with
  | nil => exact .nil
  | cons c rest ih =>
      rw [List.flatMap_cons]
      exact .cons (h c List.mem_cons_self) (ih fun d hd => h d (List.mem_cons_of_mem _ hd))

/-! ## The reader and the grammar -/

/-- A successful reading puts its character before what it reads on. -/
theorem keep_ok (c : Char) (value rest : List Char) :
    keep c (.ok (value, rest)) = .ok (c :: value, rest) := rfl

/-- An escape is read from its backslash on. -/
theorem read_slash (hquote : quote ≠ '\\') {text rest : List Char} {x : Char}
    (h : readEscape text = .ok (x, rest)) :
    read quote ('\\' :: text) = keep x (read quote rest) := by
  rw [read, if_neg (Ne.symm hquote), if_pos rfl]
  split
  · rename_i he
    rw [h] at he
    cases he
  · rename_i he
    rw [h] at he
    cases he
    rfl

/-- What is no escape behind a backslash makes the text unreadable. -/
theorem read_slash_error (hquote : quote ≠ '\\') {text : List Char} {f : Failure}
    (h : readEscape text = .error f) : read quote ('\\' :: text) = .error f := by
  rw [read, if_neg (Ne.symm hquote), if_pos rfl]
  split
  · rename_i he
    rw [h] at he
    cases he
    rfl
  · rename_i he
    rw [h] at he
    cases he

/-- An item is read as the character that it denotes, whatever follows. -/
theorem read_item (hquote : quote ≠ '\\') {item : List Char} {x : Char}
    (h : Item quote item x) (text : List Char) :
    read quote (item ++ text) = keep x (read quote text) := by
  cases h with
  | plain hc hslash => rw [List.singleton_append, read, if_neg hc, if_neg hslash]
  | @escaped e _ he =>
      have hu : e ≠ 'u' := by
        rintro rfl
        cases he
      have hread : readEscape (e :: text) = .ok (x, text) := by
        simp only [readEscape, if_neg hu, he]
      exact read_slash hquote hread
  | @numbered a b c d _ he =>
      have hread : readEscape ('u' :: a :: b :: c :: d :: text) = .ok (x, text) := by
        simp only [readEscape, if_pos, he]
      exact read_slash hquote hread

/-- A text between quotes is read as what it denotes, whatever follows. -/
theorem read_body (hquote : quote ≠ '\\') {body value : List Char} (h : Body quote body value)
    (rest : List Char) : read quote (body ++ quote :: rest) = .ok (value, rest) := by
  induction h with
  | nil => rw [List.nil_append, read, if_pos rfl]
  | cons hitem _ ih => rw [List.append_assoc, read_item hquote hitem, ih, keep_ok]

/-- An escape that can be read is an item, and is all that was taken. -/
theorem item_of_readEscape (quote : Char) {text rest : List Char} {x : Char}
    (h : readEscape text = .ok (x, rest)) :
    ∃ escape, text = escape ++ rest ∧ Item quote ('\\' :: escape) x := by
  unfold readEscape at h
  split at h
  · cases h
  split at h
  · rename_i hu
    subst hu
    split at h
    · split at h
      · rename_i hs
        cases h
        exact ⟨['u', _, _, _, _], rfl, .numbered hs⟩
      · cases h
    · cases h
  · split at h
    · rename_i he
      cases h
      exact ⟨[_], rfl, .escaped he⟩
    · cases h

/-- A text that can be read is items up to its closing quote. -/
theorem body_of_read {text value rest : List Char} (h : read quote text = .ok (value, rest)) :
    ∃ body, Body quote body value ∧ text = body ++ quote :: rest := by
  fun_induction read quote text generalizing value rest with
  | case1 => cases h
  | case2 => cases h; exact ⟨[], .nil, rfl⟩
  | case3 => cases h
  | case4 text x more he hc ih =>
      obtain ⟨w, rfl, hr⟩ := keep_eq_ok h
      obtain ⟨body, hbody, rfl⟩ := ih hr
      obtain ⟨escape, rfl, hitem⟩ := item_of_readEscape quote he
      exact ⟨'\\' :: escape ++ body, .cons hitem hbody, by simp⟩
  | case5 c text hc hslash ih =>
      obtain ⟨w, rfl, hr⟩ := keep_eq_ok h
      obtain ⟨body, hbody, rfl⟩ := ih hr
      exact ⟨[c] ++ body, .cons (.plain hc hslash) hbody, rfl⟩

/-- A quoted text is read exactly if it is items up to a closing quote. -/
theorem read_eq_ok_iff (hquote : quote ≠ '\\') {text value rest : List Char} :
    read quote text = .ok (value, rest) ↔
      ∃ body, Body quote body value ∧ text = body ++ quote :: rest := by
  refine ⟨body_of_read, ?_⟩
  rintro ⟨body, hbody, rfl⟩
  exact read_body hquote hbody rest

/-- The single quote is one of the two. -/
theorem isQuote_single : isQuote '\'' = true := rfl

/-- The double quote is one of the two. -/
theorem isQuote_double : isQuote '"' = true := rfl

/-- Neither of the two quotes is a backslash. -/
theorem ne_slash_of_isQuote (h : isQuote quote = true) : quote ≠ '\\' := by
  rintro rfl
  cases h

/-! ## Numbers of characters -/

/-- No digit in base sixteen is a quote or a backslash. -/
theorem hexDigit?_of_isQuote {c : Char} (h : isQuote c = true ∨ c = '\\') :
    hexDigit? c = none := by
  simp only [isQuote, Bool.or_eq_true, beq_iff_eq] at h
  rcases h with (rfl | rfl) | rfl <;> rfl

/-- All characters of a number are digits in base sixteen. -/
theorem isSome_of_hexNumber? {digits : List Char} {value n : Nat}
    (h : hexNumber? value digits = some n) : ∀ c ∈ digits, (hexDigit? c).isSome := by
  induction digits generalizing value with
  | nil => simp
  | cons c rest ih =>
      rw [hexNumber?, Option.bind_eq_some_iff] at h
      obtain ⟨d, hd, hrest⟩ := h
      exact List.forall_mem_cons.2 ⟨by rw [hd]; rfl, ih hrest⟩

/-- The four characters that give the number of a character are no quotes and no backslashes. -/
theorem not_isQuote_of_scalar? {a b c d x : Char} (h : scalar? a b c d = some x) :
    ∀ e ∈ [a, b, c, d], ¬(isQuote e = true ∨ e = '\\') := by
  rw [scalar?, Option.bind_eq_some_iff] at h
  obtain ⟨n, hn, -⟩ := h
  have hdigit : ∀ e, (hexDigit? e).isSome → ¬(isQuote e = true ∨ e = '\\') := by
    intro e he hquote
    rw [hexDigit?_of_isQuote hquote] at he
    cases he
  split at hn
  · rename_i ha
    refine List.forall_mem_cons.2 ⟨?_, fun e he => hdigit e (isSome_of_hexNumber? hn e he)⟩
    rw [ha]
    decide
  · exact fun e he => hdigit e (isSome_of_hexNumber? hn e he)

/-! ## Writing between quotes -/

/-- A character as it can be written between quotes of either kind: the quote and the backslash
follow a backslash. -/
def escape (quote c : Char) : List Char := if c = '\\' ∨ c = quote then ['\\', c] else [c]

/-- A text between quotes. -/
def write (quote : Char) (text : List Char) : List Char :=
  quote :: text.flatMap (escape quote) ++ [quote]

/-- An escaped character denotes the character. -/
theorem item_escape (hquote : isQuote quote = true) (c : Char) :
    Item quote (escape quote c) c := by
  unfold escape
  split
  · rename_i h
    refine .escaped ?_
    rcases h with rfl | rfl
    · rfl
    · simp only [isQuote, Bool.or_eq_true, beq_iff_eq] at hquote
      rcases hquote with rfl | rfl <;> rfl
  · rename_i h
    exact .plain (fun hc => h (.inr hc)) fun hc => h (.inl hc)

/-- An escaped text denotes the text. -/
theorem body_escape (hquote : isQuote quote = true) (text : List Char) :
    Body quote (text.flatMap (escape quote)) text :=
  .flatMap fun c _ => item_escape hquote c

end PathQuery.Text.Quoted
