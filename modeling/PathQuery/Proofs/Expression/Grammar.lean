import PathQuery.Proofs.Expression.PathGrammar

/-!
# The grammar of conditions

A condition as it is written, with its blanks, is a `ConditionForm`: the sign of the current value,
keys, and behind them nothing or a comparison and a literal. `readCondition_iff_form` says that the
reader takes exactly the texts of well-formed conditions, that it reads each as what is written
there, and that a text is one of a condition in one way at most.
-/

namespace PathQuery.Expression

open Text Text.Quoted

/-! ## Characters -/

/-- No number goes on with a blank. -/
theorem isNumberChar_of_isBlank {c : Char} (h : isBlank c = true) : isNumberChar c = false :=
  class_apart c (fun c hc =>
    forall_mem_of_all (p := (isBlank · = false)) rfl c (mem_numberChars hc)) h

/-- No word goes on with a blank. -/
theorem isWordChar_of_isBlank {c : Char} (h : isBlank c = true) : isWordChar c = false := by
  have hall : ∀ n ∈ blankRanges.points,
      (letterRanges.covers n || numeralRanges.covers n) = false := by decide +kernel
  exact hall _ (Ranges.mem_points h)

/-- What begins a number belongs to it. -/
theorem isNumberChar_of_startsNumber {c : Char} (h : startsNumber c = true) :
    isNumberChar c = true := by
  rw [startsNumber, Bool.or_eq_true, beq_iff_eq] at h
  rcases h with rfl | h
  · rfl
  · simp [isNumberChar, h]

/-! ## Signs -/

/-- The signs of comparisons. Equality has three. -/
def signs : List (List Char × Comparison) :=
  [(['=', '=', '='], .eq), (['=', '='], .eq), (['='], .eq), (['!', '='], .ne), (['<'], .lt),
    (['<', '='], .le), (['>'], .gt), (['>', '='], .ge)]

/-- A character of the signs of comparisons. -/
def isSignChar (c : Char) : Bool := ['=', '!', '<', '>'].contains c

/-- No sign goes on with a blank. -/
theorem isBlank_of_isSignChar {c : Char} (h : isSignChar c = true) : isBlank c = false :=
  forall_mem_of_all (p := (isBlank · = false)) rfl c (List.contains_iff_mem.1 h)

/-- A name behind a dot goes on with no character of a sign. -/
theorem isPathChar_of_isSignChar {c : Char} (h : isSignChar c = true) : isPathChar c = false :=
  forall_mem_of_all (p := (isPathChar · = false)) rfl c (List.contains_iff_mem.1 h)

/-- A blank is no character of a sign. -/
theorem isSignChar_of_isBlank {c : Char} (h : isBlank c = true) : isSignChar c = false :=
  class_apart c (fun _ => isBlank_of_isSignChar) h

section
variable {sign rest : List Char} {op op' : Comparison}

/-- A sign consists of its characters. -/
theorem isSignChar_of_mem_signs (h : (sign, op) ∈ signs) : ∀ c ∈ sign, isSignChar c = true := by
  have hall : signs.all (fun p => p.1.all isSignChar) = true := rfl
  exact List.all_eq_true.1 (List.all_eq_true.1 hall _ h)

/-- A sign is not empty. -/
theorem exists_cons_of_mem_signs (h : (sign, op) ∈ signs) :
    ∃ c more, sign = c :: more ∧ isSignChar c = true := by
  have hne : ∀ p ∈ signs, p.1 ≠ [] := by decide
  obtain ⟨c, more, rfl⟩ := List.exists_cons_of_ne_nil (hne _ h)
  exact ⟨c, more, rfl, isSignChar_of_mem_signs h c List.mem_cons_self⟩

/-- A sign stands for one comparison. -/
theorem op_of_mem_signs (h : (sign, op) ∈ signs) (h' : (sign, op') ∈ signs) : op = op' := by
  have hall : ∀ p ∈ signs, ∀ q ∈ signs, p.1 = q.1 → p.2 = q.2 := by decide
  exact hall _ h _ h' rfl

/-- A sign is read in front of what goes on as no sign does. -/
theorem readComparison_append (h : (sign, op) ∈ signs)
    (hrest : ∀ c, rest.head? = some c → isSignChar c = false) :
    readComparison (sign ++ rest) = .ok (op, rest) := by
  have hequals : ∀ more, rest ≠ '=' :: more := by
    rintro more rfl
    exact absurd (hrest '=' rfl) (by decide)
  simp only [signs, List.mem_cons, Prod.mk.injEq, List.not_mem_nil, or_false] at h
  rcases h with ⟨rfl, rfl⟩ | ⟨rfl, rfl⟩ | ⟨rfl, rfl⟩ | ⟨rfl, rfl⟩ | ⟨rfl, rfl⟩ | ⟨rfl, rfl⟩ |
    ⟨rfl, rfl⟩ | ⟨rfl, rfl⟩ <;> simp [readComparison, hequals]

/-- What is read as a comparison is one of the signs. -/
theorem exists_of_readComparison {text : List Char} (h : readComparison text = .ok (op, rest)) :
    ∃ sign, (sign, op) ∈ signs ∧ text = sign ++ rest := by
  unfold readComparison at h
  split at h
  · cases h
    exact ⟨['=', '=', '='], by decide, rfl⟩
  · cases h
    exact ⟨['=', '='], by decide, rfl⟩
  · cases h
    exact ⟨['!', '='], by decide, rfl⟩
  · cases h
    exact ⟨['<', '='], by decide, rfl⟩
  · cases h
    exact ⟨['>', '='], by decide, rfl⟩
  · cases h
    exact ⟨['<'], by decide, rfl⟩
  · cases h
    exact ⟨['>'], by decide, rfl⟩
  · cases h
    exact ⟨['='], by decide, rfl⟩
  · cases h

end

/-! ## Literals -/

/-- The words that are literals, and the scalars that they name. -/
def words : List (List Char × Scalar) :=
  [(['t', 'r', 'u', 'e'], .bool true), (['f', 'a', 'l', 's', 'e'], .bool false),
    (['n', 'u', 'l', 'l'], .null)]

/-- A literal as it is written: a quoted text, a number, or a word and the scalar that it names. -/
inductive LiteralForm where
  | quoted (form : QuotedForm)
  | number (form : NumberForm)
  | word (text : List Char) (value : Scalar)

/-- The three words are the ones that the reader knows. -/
theorem wordScalar?_eq_some_iff {word : List Char} {s : Scalar} :
    wordScalar? word = some s ↔ (word, s) ∈ words := by
  constructor
  · intro h
    rcases wordScalar?_cases h with ⟨rfl, rfl⟩ | ⟨rfl, rfl⟩ | ⟨rfl, rfl⟩ <;> simp [words]
  · intro h
    simp only [words, List.mem_cons, Prod.mk.injEq, List.not_mem_nil, or_false] at h
    rcases h with ⟨rfl, rfl⟩ | ⟨rfl, rfl⟩ | ⟨rfl, rfl⟩ <;> rfl

namespace LiteralForm

variable {l m : LiteralForm} {rest more : List Char}

/-- The text of a literal. -/
def text : LiteralForm → List Char
  | .quoted form => form.text
  | .number form => form.text
  | .word text _ => text

/-- The scalar that is written. -/
def value : LiteralForm → Scalar
  | .quoted form => .string (String.ofList form.value)
  | .number form => .number form.value
  | .word _ value => value

/-- A number begins with a minus sign or a digit, and a word is one of the three. -/
def WellFormed : LiteralForm → Prop
  | .quoted form => form.WellFormed
  | .number form => form.WellFormed ∧ (form.negative = true ∨ form.whole ≠ [])
  | .word text value => (text, value) ∈ words

/-- A literal begins with a quote, as a number does, or with a letter. -/
theorem WellFormed.exists_cons (h : l.WellFormed) :
    ∃ c more, l.text = c :: more ∧
      (isQuote c = true ∨ startsNumber c = true ∨ c ∈ ['t', 'f', 'n']) := by
  cases l with
  | quoted form => exact ⟨_, _, rfl, .inl h.quote⟩
  | number form =>
      obtain ⟨c, more, htext, hc⟩ := NumberForm.exists_cons h.1 h.2
      exact ⟨c, more, htext, .inr (.inl hc)⟩
  | word text value =>
      rcases wordScalar?_cases (wordScalar?_eq_some_iff.2 h) with
        ⟨rfl, rfl⟩ | ⟨rfl, rfl⟩ | ⟨rfl, rfl⟩ <;>
        exact ⟨_, _, rfl, .inr (.inr (by decide))⟩

/-- A literal begins with no blank and with no character of the sign of a comparison. -/
theorem WellFormed.head (h : l.WellFormed) (rest : List Char) :
    ∀ c, (l.text ++ rest).head? = some c → isBlank c = false ∧ isSignChar c = false := by
  intro d hd
  obtain ⟨c, more, htext, hc⟩ := h.exists_cons
  rw [htext] at hd
  cases hd
  rcases hc with hc | hc | hc
  · rw [isQuote, Bool.or_eq_true, beq_iff_eq, beq_iff_eq] at hc
    rcases hc with rfl | rfl <;> decide
  · have hmem : d ∈ signAndDigits := by
      refine mem_signAndDigits ?_
      rwa [isPositionChar, Bool.or_comm]
    exact forall_mem_of_all (p := fun c => isBlank c = false ∧ isSignChar c = false) rfl d hmem
  · exact forall_mem_of_all (p := fun c => isBlank c = false ∧ isSignChar c = false) rfl d hc

/-- A literal is read in front of blanks. -/
theorem readLiteral_append (h : l.WellFormed) (hrest : Blank rest) :
    readLiteral (l.text ++ rest) = .ok (l.value, rest) := by
  have hhead : ∀ {p : Char → Bool}, (∀ c, isBlank c = true → p c = false) →
      ∀ c, rest.head? = some c → p c = false :=
    fun hp c hc => hp c (hrest c (List.mem_of_mem_head? hc))
  cases l with
  | quoted form =>
      have hread := QuotedForm.readQuoted_append h rest
      rw [text, QuotedForm.text, List.cons_append, readLiteral, if_pos h.quote, hread]
      rfl
  | number form =>
      have hall := NumberForm.isNumberChar_of_mem h.1
      have hends := hhead fun c => isNumberChar_of_isBlank
      have htake := takeWhile_word hall hends
      have hdrop := dropWhile_word hall hends
      have hread := NumberForm.readNumber?_text h.1
      obtain ⟨c, more, htext, hc⟩ := NumberForm.exists_cons h.1 h.2
      rw [htext] at htake hdrop hread
      rw [text, htext, List.cons_append, readLiteral, isQuote_of_startsNumber hc,
        if_neg Bool.false_ne_true, if_pos hc, ← List.cons_append, htake, hdrop]
      dsimp only
      rw [hread, value]
  | word text value =>
      have hword := wordScalar?_eq_some_iff.2 h
      have hall : ∀ c ∈ text, isWordChar c = true := by
        rcases wordScalar?_cases hword with ⟨rfl, rfl⟩ | ⟨rfl, rfl⟩ | ⟨rfl, rfl⟩ <;>
          exact forall_mem_of_all rfl
      have hends := hhead fun c => isWordChar_of_isBlank
      have htake := takeWhile_word hall hends
      have hdrop := dropWhile_word hall hends
      obtain ⟨c, more, rfl, hquote, hstart, hletter⟩ : ∃ c more, text = c :: more ∧
          isQuote c = false ∧ startsNumber c = false ∧ isLetter c = true := by
        rcases wordScalar?_cases hword with ⟨rfl, rfl⟩ | ⟨rfl, rfl⟩ | ⟨rfl, rfl⟩ <;>
          exact ⟨_, _, rfl, rfl, rfl, rfl⟩
      rw [LiteralForm.text, List.cons_append, readLiteral, hquote, if_neg Bool.false_ne_true,
        hstart, if_neg Bool.false_ne_true, if_pos hletter, ← List.cons_append, htake, hdrop]
      dsimp only
      rw [hword, LiteralForm.value]

/-- What is read as a literal is the text of one. -/
theorem exists_of_readLiteral {text : List Char} {s : Scalar}
    (h : readLiteral text = .ok (s, rest)) :
    ∃ l : LiteralForm, l.WellFormed ∧ text = l.text ++ rest ∧ l.value = s := by
  unfold readLiteral at h
  split at h
  · cases h
  rename_i c text
  split at h
  · rename_i hquote
    obtain ⟨⟨value, after⟩, hread, heq⟩ := map_eq_ok h
    cases heq
    obtain ⟨form, hform, htext, rfl⟩ := QuotedForm.exists_of_readQuoted hquote hread
    exact ⟨.quoted form, hform, htext, rfl⟩
  dsimp only at h
  split at h
  · rename_i hstart
    split at h
    · rename_i n hread
      cases h
      have hc : isNumberChar c = true := isNumberChar_of_startsNumber hstart
      have hfound : (c :: text).takeWhile isNumberChar = c :: text.takeWhile isNumberChar :=
        List.takeWhile_cons_of_pos hc
      have hplus : ((c :: text).takeWhile isNumberChar).head? ≠ some '+' := by
        rw [hfound]
        intro hhead
        cases hhead
        cases hstart
      obtain ⟨form, hform, htext, rfl⟩ := (NumberForm.readNumber?_eq_some_iff hplus).1 hread
      have hbegins := hform.negative_or_whole (htext.trans hfound) hstart
      refine ⟨.number form, ⟨hform, hbegins⟩, ?_, rfl⟩
      rw [LiteralForm.text, htext, List.takeWhile_append_dropWhile]
    · cases h
  split at h
  · split at h
    · rename_i hword
      cases h
      refine ⟨.word _ _, wordScalar?_eq_some_iff.1 hword, ?_, rfl⟩
      rw [LiteralForm.text, List.takeWhile_append_dropWhile]
    · cases h
  · cases h

/-- A word names neither a text nor a number. -/
theorem value_of_mem_words {text : List Char} {s : Scalar} (h : (text, s) ∈ words) :
    (∀ value, s ≠ .string value) ∧ ∀ n, s ≠ .number n := by
  rcases wordScalar?_cases (wordScalar?_eq_some_iff.2 h) with
    ⟨-, rfl⟩ | ⟨-, rfl⟩ | ⟨-, rfl⟩ <;> exact ⟨nofun, nofun⟩

/-- A literal is told from the blanks that follow it. -/
theorem append_inj (hl : l.WellFormed) (hm : m.WellFormed) (hrest : Blank rest)
    (hmore : Blank more) (h : l.text ++ rest = m.text ++ more) : l = m ∧ rest = more := by
  have hread := readLiteral_append hl hrest
  rw [h, readLiteral_append hm hmore] at hread
  obtain ⟨hvalue, rfl⟩ := Prod.mk.inj (Except.ok.inj hread)
  have htext := List.append_cancel_right h
  refine ⟨?_, rfl⟩
  -- Literals of different kinds differ in what they denote.
  cases l with
  | quoted q =>
      cases m with
      | quoted r =>
          have hsame : q.text ++ [] = r.text ++ [] := congrArg (· ++ []) htext
          rw [(QuotedForm.append_inj hl hm hsame).1]
      | number g => cases hvalue
      | word text value => exact absurd hvalue ((value_of_mem_words hm).1 _)
  | number f =>
      cases m with
      | quoted r => cases hvalue
      | number g => rw [NumberForm.eq_of_text hl.1 hm.1 htext]
      | word text value => exact absurd hvalue ((value_of_mem_words hm).2 _)
  | word text value =>
      cases m with
      | quoted r => exact absurd hvalue.symm ((value_of_mem_words hl).1 _)
      | number g => exact absurd hvalue.symm ((value_of_mem_words hl).2 _)
      | word text' value' => rw [show text = text' from htext, show value = value' from hvalue.symm]

end LiteralForm

/-! ## Comparisons -/

/-- A comparison with its literal as it is written. -/
@[ext]
structure ComparingForm where
  sign : List Char
  op : Comparison
  before : List Char
  literal : LiteralForm
  after : List Char

namespace ComparingForm

variable {f g : ComparingForm}

/-- The text of a comparison. -/
def text (f : ComparingForm) : List Char := f.sign ++ (f.before ++ (f.literal.text ++ f.after))

/-- The sign is one of the eight, and blanks may stand around the literal. -/
structure WellFormed (f : ComparingForm) : Prop where
  sign : (f.sign, f.op) ∈ signs
  before : Blank f.before
  literal : f.literal.WellFormed
  after : Blank f.after

/-- Behind the sign no character of a sign goes on. -/
theorem WellFormed.endsSign (h : f.WellFormed) :
    ∀ c, (f.before ++ (f.literal.text ++ f.after)).head? = some c → isSignChar c = false := by
  intro c hc
  rcases h.before.head?_append hc with hblank | hliteral
  · exact isSignChar_of_isBlank hblank
  · exact (h.literal.head _ c hliteral).2

/-- A comparison begins with a character of its sign. -/
theorem WellFormed.exists_cons (h : f.WellFormed) :
    ∃ c more, f.text = c :: more ∧ isSignChar c = true := by
  obtain ⟨c, more, hsign, hc⟩ := exists_cons_of_mem_signs h.sign
  exact ⟨c, more ++ (f.before ++ (f.literal.text ++ f.after)), by rw [text, hsign]; rfl, hc⟩

/-- A comparison is read from its text. -/
theorem readComparing_text (h : f.WellFormed) (path : List Key) :
    readComparing path f.text = .ok (.compares path f.op f.literal.value) := by
  have hsign : readComparison f.text = .ok (f.op, f.before ++ (f.literal.text ++ f.after)) :=
    readComparison_append h.sign h.endsSign
  have hbefore : skipBlanks (f.before ++ (f.literal.text ++ f.after)) =
      f.literal.text ++ f.after := by
    rw [skipBlanks_append h.before, skipBlanks_eq_self fun c hc => (h.literal.head _ c hc).1]
  have hafter : skipBlanks f.after = [] := by
    rw [← List.append_nil f.after, skipBlanks_append h.after]
    rfl
  rw [readComparing, hsign]
  dsimp only
  rw [hbefore, LiteralForm.readLiteral_append h.literal h.after]
  dsimp only
  rw [hafter]

/-- What is read as a comparison is the text of one. -/
theorem exists_of_readComparing {path : List Key} {text : List Char} {condition : Condition}
    (h : readComparing path text = .ok condition) :
    ∃ f : ComparingForm, f.WellFormed ∧ f.text = text ∧
      .compares path f.op f.literal.value = condition := by
  unfold readComparing at h
  split at h
  · cases h
  rename_i op left hsign
  split at h
  · cases h
  rename_i s last hliteral
  split at h
  · rename_i hend
    cases h
    obtain ⟨sign, hmem, rfl⟩ := exists_of_readComparison hsign
    obtain ⟨before, hbefore, hleft, -⟩ := exists_skipBlanks left
    obtain ⟨literal, hwf, hskip, rfl⟩ := LiteralForm.exists_of_readLiteral hliteral
    obtain ⟨after, hafter, hlast, -⟩ := exists_skipBlanks last
    rw [hend, List.append_nil] at hlast
    refine ⟨⟨sign, op, before, literal, after⟩, ⟨hmem, hbefore, hwf, hafter⟩, ?_, rfl⟩
    rw [ComparingForm.text, hleft, hskip, hlast]
  · cases h

/-- A text is one of a comparison in one way at most. -/
theorem eq_of_text (hf : f.WellFormed) (hg : g.WellFormed) (h : f.text = g.text) : f = g := by
  obtain ⟨hsign, hbehind⟩ := word_append_inj (isSignChar_of_mem_signs hf.sign) hf.endsSign
    (isSignChar_of_mem_signs hg.sign) hg.endsSign h
  obtain ⟨hbefore, hliterals⟩ := word_append_inj hf.before
    (fun c hc => (hf.literal.head _ c hc).1) hg.before
    (fun c hc => (hg.literal.head _ c hc).1) hbehind
  obtain ⟨hliteral, hafter⟩ := LiteralForm.append_inj hf.literal hg.literal hf.after hg.after
    hliterals
  have hop : f.op = g.op := op_of_mem_signs hf.sign (hsign ▸ hg.sign)
  exact ComparingForm.ext hsign hop hbefore hliteral hafter

end ComparingForm

/-! ## Conditions -/

/-- A condition as it is written: blanks, the keys of its path behind the sign of the current value,
blanks again, and a comparison if there is one. -/
@[ext]
structure ConditionForm where
  before : List Char
  keys : List KeyForm
  gap : List Char
  comparing : Option ComparingForm

namespace ConditionForm

variable {f g : ConditionForm}

/-- The text of a comparison, or nothing. -/
def comparingText (f : ConditionForm) : List Char := f.comparing.elim [] ComparingForm.text

/-- The text of a condition. -/
def text (f : ConditionForm) : List Char :=
  f.before ++ '@' :: (pathText f.keys ++ (f.gap ++ f.comparingText))

/-- Each part is well-formed, and blanks stand between the parts. -/
structure WellFormed (f : ConditionForm) : Prop where
  before : Blank f.before
  keys : ∀ k ∈ f.keys, k.WellFormed
  gap : Blank f.gap
  comparing : ∀ comparing, f.comparing = some comparing → comparing.WellFormed

/-- The condition that is written. -/
def condition (f : ConditionForm) : Condition :=
  match f.comparing with
  | none => .present (f.keys.map KeyForm.key)
  | some comparing => .compares (f.keys.map KeyForm.key) comparing.op comparing.literal.value

/-- What is behind the blanks begins as a comparison does. -/
theorem WellFormed.head_comparingText (h : f.WellFormed) :
    ∀ c, f.comparingText.head? = some c → isSignChar c = true := by
  intro c hc
  unfold comparingText at hc
  cases hcase : f.comparing with
  | none =>
      rw [hcase] at hc
      cases hc
  | some comparing =>
      rw [hcase] at hc
      obtain ⟨d, more, htext, hd⟩ := (h.comparing comparing hcase).exists_cons
      rw [Option.elim_some, htext] at hc
      cases hc
      exact hd

/-- Behind the path goes on neither another key nor a name. -/
theorem WellFormed.endsPath (h : f.WellFormed) : EndsPath (f.gap ++ f.comparingText) := by
  have hhead : ∀ c, (f.gap ++ f.comparingText).head? = some c →
      isBlank c = true ∨ isSignChar c = true :=
    fun c hc => (h.gap.head?_append hc).imp_right (h.head_comparingText c)
  refine ⟨fun c hc => ?_, fun hdot => ?_, fun hbracket => ?_⟩
  · exact (hhead c hc).elim isPathChar_of_isBlank isPathChar_of_isSignChar
  · rcases hhead '.' hdot with h | h <;> revert h <;> decide
  · rcases hhead '[' hbracket with h | h <;> revert h <;> decide

/-- A condition is read from its text. -/
theorem readCondition_text (h : f.WellFormed) : readCondition f.text = .ok f.condition := by
  have hpath := readPath_pathText_append h.keys h.endsPath
  have hgap : skipBlanks (f.gap ++ f.comparingText) = f.comparingText := by
    rw [skipBlanks_append h.gap, skipBlanks_eq_self fun c hc =>
      isBlank_of_isSignChar (h.head_comparingText c hc)]
  rw [readCondition, text, skipBlanks_append h.before, skipBlanks_at]
  simp only [hpath, hgap]
  rw [comparingText, condition]
  cases hcase : f.comparing with
  | none => rfl
  | some comparing =>
      have hcomparing := h.comparing comparing hcase
      have hread := ComparingForm.readComparing_text hcomparing (f.keys.map KeyForm.key)
      obtain ⟨c, more, htext, -⟩ := hcomparing.exists_cons
      rw [htext] at hread
      rw [Option.elim_some, htext]
      exact hread

/-- What is read as a condition is the text of one. -/
theorem exists_of_readCondition {text : List Char} {condition : Condition}
    (h : readCondition text = .ok condition) :
    ∃ f : ConditionForm, f.WellFormed ∧ f.text = text ∧ f.condition = condition := by
  obtain ⟨before, hbefore, htext, -⟩ := exists_skipBlanks text
  unfold readCondition at h
  split at h
  · rename_i behind hat
    split at h
    · cases h
    rename_i path left hpath
    obtain ⟨keys, hkeys, hbehind, rfl⟩ := exists_of_pathRead (pathRead_of_readPath hpath)
    obtain ⟨gap, hgap, hleft, -⟩ := exists_skipBlanks left
    split at h
    · rename_i hend
      cases h
      refine ⟨⟨before, keys, gap, none⟩, ⟨hbefore, hkeys, hgap, nofun⟩, ?_, rfl⟩
      rw [htext, hat, hbehind, hleft, hend]
      rfl
    · obtain ⟨comparing, hcomparing, hskip, rfl⟩ := ComparingForm.exists_of_readComparing h
      refine ⟨⟨before, keys, gap, some comparing⟩, ⟨hbefore, hkeys, hgap, ?_⟩, ?_, rfl⟩
      · rintro _ ⟨⟩
        exact hcomparing
      · rw [htext, hat, hbehind, hleft, ← hskip]
        rfl
  · cases h

/-- The comparison, or that there is none, is told by the text. -/
theorem comparing_eq_of_text (hf : f.WellFormed) (hg : g.WellFormed)
    (h : f.comparingText = g.comparingText) : f.comparing = g.comparing := by
  -- The text of a comparison is not empty.
  have hne : ∀ {f : ConditionForm} {comparing : ComparingForm}, f.WellFormed →
      f.comparing = some comparing → f.comparingText ≠ [] := by
    intro f comparing hf hcase hnil
    obtain ⟨c, more, htext, -⟩ := (hf.comparing comparing hcase).exists_cons
    rw [comparingText, hcase, Option.elim_some, htext] at hnil
    cases hnil
  cases hcf : f.comparing with
  | none =>
      cases hcg : g.comparing with
      | none => rfl
      | some comparing =>
          refine absurd ?_ (hne hg hcg)
          rw [← h, comparingText, hcf]
          rfl
  | some comparing =>
      cases hcg : g.comparing with
      | none =>
          refine absurd ?_ (hne hf hcf)
          rw [h, comparingText, hcg]
          rfl
      | some comparing' =>
          rw [comparingText, comparingText, hcf, hcg] at h
          rw [ComparingForm.eq_of_text (hf.comparing _ hcf) (hg.comparing _ hcg) h]

/-- A text is one of a condition in one way at most. -/
theorem eq_of_text (hf : f.WellFormed) (hg : g.WellFormed) (h : f.text = g.text) : f = g := by
  have hat : ∀ {rest : List Char} (c : Char), ('@' :: rest).head? = some c → isBlank c = false := by
    intro rest c hc
    cases hc
    decide
  obtain ⟨hbefore, hbehind⟩ := word_append_inj hf.before hat hg.before hat h
  obtain ⟨hkeys, hrest⟩ := pathText_append_inj hf.keys hg.keys hf.endsPath hg.endsPath
    (List.cons.inj hbehind).2
  obtain ⟨hgap, hcomparingText⟩ := word_append_inj hf.gap
    (fun c hc => isBlank_of_isSignChar (hf.head_comparingText c hc)) hg.gap
    (fun c hc => isBlank_of_isSignChar (hg.head_comparingText c hc)) hrest
  have hcomparing := comparing_eq_of_text hf hg hcomparingText
  exact ConditionForm.ext hbefore hkeys hgap hcomparing

end ConditionForm

/-- A text is read as a condition exactly if it is the text of a well-formed one, and then as what
is written there; it is the text of one in one way at most. -/
theorem readCondition_iff_form (text : List Char) :
    (∀ condition, readCondition text = .ok condition ↔
        ∃ f : ConditionForm, f.WellFormed ∧ f.text = text ∧ f.condition = condition) ∧
      ∀ f g : ConditionForm, f.WellFormed → g.WellFormed → f.text = text → g.text = text →
        f = g := by
  refine ⟨fun condition => ⟨ConditionForm.exists_of_readCondition, ?_⟩, ?_⟩
  · rintro ⟨f, hf, rfl, rfl⟩
    exact ConditionForm.readCondition_text hf
  · intro f g hf hg hftext hgtext
    exact ConditionForm.eq_of_text hf hg (hftext.trans hgtext.symm)

end PathQuery.Expression
