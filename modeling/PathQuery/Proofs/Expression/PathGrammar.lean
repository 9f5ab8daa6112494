import PathQuery.Proofs.Expression.Numeral
import PathQuery.Proofs.Expression.Relative

/-!
# The grammar of paths in a filter

A key as it is written is a name behind a dot, or a quoted name or a position in brackets with
blanks around it (`KeyForm`). The text of a path is the texts of its keys one behind the other.

Each part is treated alike: it is read from its text in front of what follows it, what is read is
the text of one, and it is told from what follows it. For a name and a position this rests on what
follows them: no character goes on there that could belong to them.
-/

namespace PathQuery.Expression

open Text Text.Quoted

/-! ## Characters -/

/-- No position goes on with a blank. -/
theorem isPositionChar_of_isBlank {c : Char} (h : isBlank c = true) : isPositionChar c = false :=
  class_apart c (fun c hc => isBlank_of_mem_signAndDigits c (mem_signAndDigits hc)) h

/-- A name behind a dot goes on with no blank. -/
theorem isPathChar_of_isBlank {c : Char} (h : isBlank c = true) : isPathChar c = false :=
  class_apart c (fun _ => isBlank_of_isPathChar) h

/-- What begins a number is no quote. -/
theorem isQuote_of_startsNumber {c : Char} (h : startsNumber c = true) : isQuote c = false :=
  class_apart c (fun _ => startsNumber_of_isQuote) h

/-- What begins a number is no blank. -/
theorem isBlank_of_startsNumber {c : Char} (h : startsNumber c = true) : isBlank c = false := by
  refine isBlank_of_mem_signAndDigits c (mem_signAndDigits ?_)
  rwa [isPositionChar, Bool.or_comm]

/-! ## Quoted texts -/

/-- A quoted text as it is written: its quotes, what is between them and what that denotes. -/
@[ext]
structure QuotedForm where
  quote : Char
  body : List Char
  value : List Char

namespace QuotedForm

variable {q r : QuotedForm} {rest more : List Char}

/-- The text of a quoted text. -/
def text (q : QuotedForm) : List Char := q.quote :: (q.body ++ [q.quote])

/-- There are quotes, and between them stands what is read up to the closing one. -/
structure WellFormed (q : QuotedForm) : Prop where
  quote : isQuote q.quote = true
  read : readQuoted q.quote (q.body ++ [q.quote]) = .ok (q.value, [])

/-- What is between the quotes consists of items. -/
theorem WellFormed.items (h : q.WellFormed) : Body q.quote q.body q.value := by
  obtain ⟨body, hbody, htext⟩ := (readQuoted_eq_ok_iff h.quote).1 h.read
  rwa [List.append_cancel_right htext]

/-- A quoted text is read in front of what follows it. -/
theorem readQuoted_append (h : q.WellFormed) (rest : List Char) :
    readQuoted q.quote (q.body ++ [q.quote] ++ rest) = .ok (q.value, rest) := by
  refine (readQuoted_eq_ok_iff h.quote).2 ⟨q.body, h.items, ?_⟩
  rw [List.append_assoc, List.singleton_append]

/-- What is read as a quoted text is the text of one. -/
theorem exists_of_readQuoted {c : Char} {text value : List Char} (hc : isQuote c = true)
    (h : readQuoted c text = .ok (value, rest)) :
    ∃ q : QuotedForm, q.WellFormed ∧ c :: text = q.text ++ rest ∧ q.value = value := by
  obtain ⟨body, hbody, rfl⟩ := (readQuoted_eq_ok_iff hc).1 h
  refine ⟨⟨c, body, value⟩, ⟨hc, (readQuoted_eq_ok_iff hc).2 ⟨body, hbody, rfl⟩⟩, ?_, rfl⟩
  rw [QuotedForm.text, List.cons_append, List.append_assoc, List.singleton_append]

/-- A quoted text is told from what follows it. -/
theorem append_inj (hq : q.WellFormed) (hr : r.WellFormed) (h : q.text ++ rest = r.text ++ more) :
    q = r ∧ rest = more := by
  have hquote : q.quote = r.quote := (List.cons.inj h).1
  have htail : q.body ++ [q.quote] ++ rest = r.body ++ [r.quote] ++ more := (List.cons.inj h).2
  have hread := readQuoted_append hq rest
  rw [htail, hquote, readQuoted_append hr more] at hread
  obtain ⟨hvalue, hrest⟩ := Prod.mk.inj (Except.ok.inj hread)
  rw [hquote, hrest] at htail
  have hbody := List.append_cancel_right (List.append_cancel_right htail)
  exact ⟨QuotedForm.ext hquote hbody hvalue.symm, hrest.symm⟩

end QuotedForm

/-! ## Keys -/

/-- What stands in the brackets of a key: a quoted name or a position. -/
inductive InnerForm where
  | name (quoted : QuotedForm)
  | position (index : IntegerForm)

namespace InnerForm

variable {k l : InnerForm} {rest more : List Char}

/-- The text of a key between its brackets. -/
def text : InnerForm → List Char
  | .name quoted => quoted.text
  | .position index => index.text

/-- The key. -/
def key : InnerForm → Key
  | .name quoted => .name (String.ofList quoted.value)
  | .position index => .position (Int64.ofInt index.value)

/-- A position has digits and fits 64 bits. -/
def WellFormed : InnerForm → Prop
  | .name quoted => quoted.WellFormed
  | .position index =>
    Digits index.digits ∧ -int64Limit ≤ index.value ∧ index.value < int64Limit

/-- A key begins with a quote or as a number does. -/
theorem WellFormed.exists_cons (h : k.WellFormed) :
    ∃ c more, k.text = c :: more ∧ (isQuote c = true ∨ startsNumber c = true) := by
  cases k with
  | name quoted => exact ⟨_, _, rfl, .inl h.quote⟩
  | position index =>
      obtain ⟨c, more, htext, hc⟩ := IntegerForm.exists_cons h.1
      exact ⟨c, more, htext, .inr hc⟩

/-- A key begins with no blank. -/
theorem WellFormed.head (h : k.WellFormed) (rest : List Char) :
    ∀ c, (k.text ++ rest).head? = some c → isBlank c = false := by
  intro d hd
  obtain ⟨c, more, htext, hc⟩ := h.exists_cons
  rw [htext] at hd
  cases hd
  exact hc.elim isBlank_of_isQuote isBlank_of_startsNumber

/-- A key is read in front of what goes on as no position does. -/
theorem readPathKey_append (h : k.WellFormed)
    (hrest : ∀ c, rest.head? = some c → isPositionChar c = false) :
    readPathKey (k.text ++ rest) = .ok (k.key, rest) := by
  cases k with
  | name quoted =>
      have hread := QuotedForm.readQuoted_append h rest
      rw [text, QuotedForm.text, List.cons_append, readPathKey, if_pos h.quote, hread]
      rfl
  | position index =>
      obtain ⟨hdigits, hfits⟩ := h
      have hall := IntegerForm.isPositionChar_of_mem hdigits
      have htake := takeWhile_word hall hrest
      have hdrop := dropWhile_word hall hrest
      have hread : readInt64? index.text = some (Int64.ofInt index.value) := by
        rw [IntegerForm.readInt64?_text hdigits, int64?, if_pos hfits]
      obtain ⟨c, more, htext, hc⟩ := IntegerForm.exists_cons hdigits
      rw [htext] at htake hdrop hread
      rw [text, htext, List.cons_append, readPathKey, isQuote_of_startsNumber hc,
        if_neg Bool.false_ne_true, if_pos hc, ← List.cons_append, htake, hdrop]
      dsimp only
      rw [hread, key]

/-- What is read as a key is the text of one. -/
theorem exists_of_readPathKey {text : List Char} {key : Key}
    (h : readPathKey text = .ok (key, rest)) :
    ∃ k : InnerForm, k.WellFormed ∧ text = k.text ++ rest ∧ k.key = key := by
  obtain ⟨body, hbody, rfl⟩ := Expression.exists_of_readPathKey h
  cases hbody with
  | @name quote body value hquote hbody =>
      exact ⟨.name ⟨quote, body, value⟩,
        ⟨hquote, (readQuoted_eq_ok_iff hquote).2 ⟨body, hbody, rfl⟩⟩, rfl, rfl⟩
  | @position c text i hstart _ hread =>
      have hplus : (c :: text).head? ≠ some '+' := by
        intro hhead
        cases hhead
        cases hstart
      obtain ⟨index, hdigits, htext⟩ := IntegerForm.exists_of_readInt64? hread hplus
      rw [← htext, IntegerForm.readInt64?_text hdigits] at hread
      have hvalue := int64?_eq_some_iff.1 hread
      refine ⟨.position index, ⟨hdigits, ?_⟩, by rw [InnerForm.text, htext], ?_⟩
      · rw [← hvalue]
        exact ⟨Int64.le_toInt i, Int64.toInt_lt i⟩
      · rw [InnerForm.key, ← hvalue, Int64.ofInt_toInt]

/-- A key is told from what goes on as no position does. -/
theorem append_inj (hk : k.WellFormed) (hl : l.WellFormed)
    (hrest : ∀ c, rest.head? = some c → isPositionChar c = false)
    (hmore : ∀ c, more.head? = some c → isPositionChar c = false)
    (h : k.text ++ rest = l.text ++ more) : k = l ∧ rest = more := by
  -- A quoted name and a position differ at their first characters.
  have hdiffer : ∀ {q : QuotedForm} {i : IntegerForm} {a b : List Char}, q.WellFormed →
      Digits i.digits → q.text ++ a ≠ i.text ++ b := by
    intro q i a b hq hi heq
    obtain ⟨c, others, htext, hc⟩ := IntegerForm.exists_cons hi
    rw [htext] at heq
    obtain ⟨rfl, -⟩ := List.cons.inj heq
    rw [startsNumber_of_isQuote hq.quote] at hc
    cases hc
  cases k with
  | name q =>
      cases l with
      | name r =>
          obtain ⟨rfl, hrest⟩ := QuotedForm.append_inj hk hl h
          exact ⟨rfl, hrest⟩
      | position i => exact absurd h (hdiffer hk hl.1)
  | position i =>
      cases l with
      | name q => exact absurd h.symm (hdiffer hl hk.1)
      | position j =>
          obtain ⟨htext, hrest⟩ := word_append_inj (IntegerForm.isPositionChar_of_mem hk.1) hrest
            (IntegerForm.isPositionChar_of_mem hl.1) hmore h
          rw [IntegerForm.eq_of_text hk.1 hl.1 htext]
          exact ⟨rfl, hrest⟩

end InnerForm

/-- A key as it is written: behind a dot, or in brackets with blanks around it. -/
inductive KeyForm where
  | dotted (name : List Char)
  | bracketed (before : List Char) (inner : InnerForm) (after : List Char)

namespace KeyForm

variable {k l : KeyForm} {rest more : List Char}

/-- The text of a key. -/
def text : KeyForm → List Char
  | .dotted name => '.' :: name
  | .bracketed before inner after => '[' :: (before ++ (inner.text ++ (after ++ [']'])))

/-- The key. -/
def key : KeyForm → Key
  | .dotted name => .name (String.ofList name)
  | .bracketed _ inner _ => inner.key

/-- A name behind a dot has characters of names, one at least. -/
def WellFormed : KeyForm → Prop
  | .dotted name => name ≠ [] ∧ ∀ c ∈ name, isPathChar c = true
  | .bracketed before inner after => Blank before ∧ inner.WellFormed ∧ Blank after

/-- The text of a key in brackets in front of what follows it. -/
theorem bracketed_text_append (before : List Char) (inner : InnerForm) (after rest : List Char) :
    (KeyForm.bracketed before inner after).text ++ rest =
      '[' :: (before ++ (inner.text ++ (after ++ ']' :: rest))) := by
  simp [text]

/-- What follows a key in its brackets goes on as no position does. -/
theorem isPositionChar_of_blank {after : List Char} (h : Blank after) :
    ∀ c, (after ++ ']' :: rest).head? = some c → isPositionChar c = false := by
  intro c hc
  rcases h.head?_append hc with hblank | hclose
  · exact isPositionChar_of_isBlank hblank
  · cases hclose
    rfl

/-- A key in brackets is read in front of what follows it. -/
theorem readPathBracket_append {before after : List Char} {inner : InnerForm}
    (h : (KeyForm.bracketed before inner after).WellFormed) (rest : List Char) :
    readPathBracket (before ++ (inner.text ++ (after ++ ']' :: rest))) = .ok (inner.key, rest) := by
  obtain ⟨hbefore, hinner, hafter⟩ := h
  have hskip : skipBlanks (before ++ (inner.text ++ (after ++ ']' :: rest))) =
      inner.text ++ (after ++ ']' :: rest) := by
    rw [skipBlanks_append hbefore, skipBlanks_eq_self (hinner.head _)]
  have hclose : skipBlanks (after ++ ']' :: rest) = ']' :: rest := by
    rw [skipBlanks_append hafter, skipBlanks_cons (by decide)]
  rw [readPathBracket, hskip, InnerForm.readPathKey_append hinner (isPositionChar_of_blank hafter)]
  dsimp only
  rw [hclose]
  rfl

/-- A name behind a dot is read in front of what goes on as no name does. -/
theorem readPathName_append {name : List Char} (h : (KeyForm.dotted name).WellFormed)
    (hrest : ∀ c, rest.head? = some c → isPathChar c = false) :
    readPathName (name ++ rest) = .ok (.name (String.ofList name), rest) := by
  rw [readPathName, takeWhile_word h.2 hrest, dropWhile_word h.2 hrest]
  exact if_neg h.1

/-- What is read as a key in brackets is the text of one. -/
theorem exists_of_readPathBracket {text : List Char} {key : Key}
    (h : readPathBracket text = .ok (key, rest)) :
    ∃ k : KeyForm, k.WellFormed ∧ '[' :: text = k.text ++ rest ∧ k.key = key := by
  unfold readPathBracket at h
  split at h
  · cases h
  rename_i left hkey
  split at h
  · rename_i hclose
    cases h
    obtain ⟨inner, hinner, hskip, rfl⟩ := InnerForm.exists_of_readPathKey hkey
    obtain ⟨before, hbefore, htext, -⟩ := exists_skipBlanks text
    obtain ⟨after, hafter, hleft, -⟩ := exists_skipBlanks left
    refine ⟨.bracketed before inner after, ⟨hbefore, hinner, hafter⟩, ?_, rfl⟩
    rw [htext, hskip, hleft, hclose, bracketed_text_append]
  · cases h

/-- What is read as a name behind a dot is the text of one. -/
theorem exists_of_readPathName {text : List Char} {key : Key}
    (h : readPathName text = .ok (key, rest)) :
    ∃ k : KeyForm, k.WellFormed ∧ '.' :: text = k.text ++ rest ∧ k.key = key := by
  unfold readPathName at h
  dsimp only at h
  split at h
  · cases h
  rename_i hne
  cases h
  refine ⟨.dotted (text.takeWhile isPathChar), ⟨hne, List.all_eq_true.1 List.all_takeWhile⟩, ?_,
    rfl⟩
  rw [KeyForm.text, List.cons_append, List.takeWhile_append_dropWhile]

/-- A key is told from what goes on as no name does. -/
theorem append_inj (hk : k.WellFormed) (hl : l.WellFormed)
    (hrest : ∀ c, rest.head? = some c → isPathChar c = false)
    (hmore : ∀ c, more.head? = some c → isPathChar c = false)
    (h : k.text ++ rest = l.text ++ more) : k = l ∧ rest = more := by
  cases k with
  | dotted name =>
      cases l with
      | dotted name' =>
          obtain ⟨rfl, hrest⟩ := word_append_inj hk.2 hrest hl.2 hmore (List.cons.inj h).2
          exact ⟨rfl, hrest⟩
      | bracketed before inner after => exact absurd (List.cons.inj h).1 (by decide)
  | bracketed before inner after =>
      cases l with
      | dotted name => exact absurd (List.cons.inj h).1 (by decide)
      | bracketed before' inner' after' =>
          obtain ⟨hbefore, hinner, hafter⟩ := hk
          obtain ⟨hbefore', hinner', hafter'⟩ := hl
          rw [bracketed_text_append, bracketed_text_append] at h
          obtain ⟨rfl, hkeyed⟩ := word_append_inj hbefore (hinner.head _) hbefore'
            (hinner'.head _) (List.cons.inj h).2
          obtain ⟨rfl, hclosed⟩ := InnerForm.append_inj hinner hinner'
            (isPositionChar_of_blank hafter) (isPositionChar_of_blank hafter') hkeyed
          have hclose : ∀ {rest : List Char} (c : Char),
              (']' :: rest).head? = some c → isBlank c = false := by
            intro rest c hc
            cases hc
            decide
          obtain ⟨rfl, hleft⟩ := word_append_inj hafter hclose hafter' hclose hclosed
          exact ⟨rfl, (List.cons.inj hleft).2⟩

end KeyForm

/-! ## Paths -/

/-- The text of the keys of a path. -/
def pathText (keys : List KeyForm) : List Char := keys.flatMap KeyForm.text

/-- A text that goes on neither with another key nor with a name. -/
structure EndsPath (rest : List Char) : Prop where
  name : ∀ c, rest.head? = some c → isPathChar c = false
  dot : rest.head? ≠ some '.'
  bracket : rest.head? ≠ some '['

section
variable {keys others : List KeyForm} {rest more : List Char}

/-- A key begins with a dot or a bracket. -/
theorem KeyForm.head_text (k : KeyForm) (rest : List Char) :
    (k.text ++ rest).head? = some '.' ∨ (k.text ++ rest).head? = some '[' := by
  cases k with
  | dotted name => exact .inl rfl
  | bracketed before inner after => exact .inr rfl

/-- Behind a key of a path no name goes on. -/
theorem EndsPath.name_pathText (h : EndsPath rest) (keys : List KeyForm) :
    ∀ c, (pathText keys ++ rest).head? = some c → isPathChar c = false := by
  cases keys with
  | nil => exact h.name
  | cons k keys =>
      intro c hc
      rw [pathText, List.flatMap_cons, List.append_assoc] at hc
      rcases k.head_text (keys.flatMap KeyForm.text ++ rest) with hhead | hhead <;>
        rw [hhead] at hc <;> cases hc <;> decide

/-- A path is read in front of what goes on with no key and no name. -/
theorem readPath_pathText_append (hkeys : ∀ k ∈ keys, k.WellFormed) (hrest : EndsPath rest) :
    readPath (pathText keys ++ rest) = .ok (keys.map KeyForm.key, rest) := by
  induction keys with
  | nil => exact readPath_of_head? hrest.dot hrest.bracket
  | cons k keys ih =>
      obtain ⟨hk, hkeys⟩ := List.forall_mem_cons.1 hkeys
      have hpath := ih hkeys
      have hends := hrest.name_pathText keys
      rw [pathText, List.flatMap_cons, ← pathText, List.append_assoc]
      cases k with
      | dotted name =>
          have hread := KeyForm.readPathName_append hk hends
          rw [KeyForm.text, List.cons_append, readPath]
          split
          · rename_i he
            rw [hread] at he
            cases he
          · rename_i he
            rw [hread] at he
            cases he
            rw [hpath]
            rfl
      | bracketed before inner after =>
          have hread := KeyForm.readPathBracket_append hk (pathText keys ++ rest)
          rw [KeyForm.bracketed_text_append, readPath]
          split
          · rename_i he
            rw [hread] at he
            cases he
          · rename_i he
            rw [hread] at he
            cases he
            rw [hpath]
            rfl

/-- What is read as a path is the text of keys. -/
theorem exists_of_pathRead {text : List Char} {path : List Key} (h : PathRead text path rest) :
    ∃ keys : List KeyForm, (∀ k ∈ keys, k.WellFormed) ∧ text = pathText keys ++ rest ∧
      keys.map KeyForm.key = path := by
  induction h with
  | done _ _ => exact ⟨[], nofun, rfl, rfl⟩
  | name hname _ ih =>
      obtain ⟨k, hk, htext, rfl⟩ := KeyForm.exists_of_readPathName hname
      obtain ⟨keys, hkeys, rfl, rfl⟩ := ih
      refine ⟨k :: keys, List.forall_mem_cons.2 ⟨hk, hkeys⟩, ?_, rfl⟩
      rw [htext, pathText, pathText, List.flatMap_cons, List.append_assoc]
  | bracket hbracket _ ih =>
      obtain ⟨k, hk, htext, rfl⟩ := KeyForm.exists_of_readPathBracket hbracket
      obtain ⟨keys, hkeys, rfl, rfl⟩ := ih
      refine ⟨k :: keys, List.forall_mem_cons.2 ⟨hk, hkeys⟩, ?_, rfl⟩
      rw [htext, pathText, pathText, List.flatMap_cons, List.append_assoc]

/-- The keys of a path are told from what goes on with no key and no name. -/
theorem pathText_append_inj (hkeys : ∀ k ∈ keys, k.WellFormed)
    (hothers : ∀ k ∈ others, k.WellFormed) (hrest : EndsPath rest) (hmore : EndsPath more)
    (h : pathText keys ++ rest = pathText others ++ more) : keys = others ∧ rest = more := by
  -- Where one path ends the other goes on with no key.
  have hends : ∀ {k : KeyForm} {keys : List KeyForm} {rest more : List Char}, EndsPath rest →
      rest ≠ pathText (k :: keys) ++ more := by
    intro k keys rest more hrest heq
    rw [pathText, List.flatMap_cons, List.append_assoc] at heq
    rcases k.head_text (keys.flatMap KeyForm.text ++ more) with hhead | hhead
    · exact hrest.dot (heq ▸ hhead)
    · exact hrest.bracket (heq ▸ hhead)
  induction keys generalizing others with
  | nil =>
      cases others with
      | nil => exact ⟨rfl, h⟩
      | cons k others => exact absurd h (hends hrest)
  | cons k keys ih =>
      cases others with
      | nil => exact absurd h.symm (hends hmore)
      | cons l others =>
          obtain ⟨hk, hkeys'⟩ := List.forall_mem_cons.1 hkeys
          obtain ⟨hl, hothers'⟩ := List.forall_mem_cons.1 hothers
          rw [pathText, pathText, List.flatMap_cons, List.flatMap_cons, List.append_assoc,
            List.append_assoc] at h
          obtain ⟨rfl, htext⟩ := KeyForm.append_inj hk hl (hrest.name_pathText keys)
            (hmore.name_pathText others) h
          obtain ⟨rfl, hleft⟩ := ih hkeys' hothers' htext
          exact ⟨rfl, hleft⟩

end

end PathQuery.Expression
