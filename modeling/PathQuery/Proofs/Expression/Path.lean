import PathQuery.Proofs.Expression.Closing
import PathQuery.Proofs.Outcome
import PathQuery.Proofs.Text.Integer
import PathQuery.Proofs.Text.Pieces
import PathQuery.Proofs.Text.Word

/-!
# Texts of keys, paths and conditions

`KeyText`, `PathText`, `LiteralText` and `ConditionText` say which texts stand for a key between
brackets, a path of such keys, a literal and the condition of a filter, whichever quotes they are
written with. The readers of a filter take all of them: `readPath_pathText`,
`readLiteral_literalText` and `readCondition_conditionText`.
-/

namespace PathQuery.Expression

open Text Text.Quoted

/-- A text between brackets, and the key that it stands for. -/
inductive KeyText : List Char → Key → Prop
  | name {quote : Char} {body value : List Char} (hquote : isQuote quote = true)
    (hbody : Body quote body value) :
    KeyText (quote :: body ++ [quote]) (.name (String.ofList value))
  | position (i : Int64) : KeyText (writeInt64 i) (.position i)

/-- Keys in brackets, one behind the other, and the path that they make. -/
inductive PathText : List Char → List Key → Prop
  | nil : PathText [] []
  | cons {text more : List Char} {key : Key} {path : List Key} (hkey : KeyText text key)
    (hpath : PathText more path) : PathText ('[' :: text ++ ']' :: more) (key :: path)

/-- A text behind a comparison, and the literal that it stands for. -/
inductive LiteralText : List Char → Scalar → Prop
  | string {quote : Char} {body value : List Char} (hquote : isQuote quote = true)
    (hbody : Body quote body value) :
    LiteralText (quote :: body ++ [quote]) (.string (String.ofList value))
  | number {c : Char} {text : List Char} {n : Number} (hstart : startsNumber c = true)
    (hall : ∀ d ∈ c :: text, isNumberChar d = true) (hread : readNumber? (c :: text) = some n) :
    LiteralText (c :: text) (.number n)
  | word {text : List Char} {s : Scalar} (hword : wordScalar? text = some s) : LiteralText text s

/-- The text of a condition, and the condition. -/
inductive ConditionText : List Char → Condition → Prop
  | present {text : List Char} {path : List Key} (hpath : PathText text path) :
    ConditionText ('@' :: text) (.present path)
  | compares {text literal : List Char} {path : List Key} {s : Scalar} (hpath : PathText text path)
    (op : Comparison) (hliteral : LiteralText literal s) :
    ConditionText ('@' :: text ++ ' ' :: op.sign ++ ' ' :: literal) (.compares path op s)

/-! ## Keys -/

/-- No quote begins a number. -/
theorem startsNumber_of_isQuote {c : Char} (h : isQuote c = true) : startsNumber c = false := by
  simp only [isQuote, Bool.or_eq_true, beq_iff_eq] at h
  rcases h with rfl | rfl <;> rfl

/-- No quote is a blank. -/
theorem isBlank_of_isQuote {c : Char} (h : isQuote c = true) : isBlank c = false := by
  simp only [isQuote, Bool.or_eq_true, beq_iff_eq] at h
  rcases h with rfl | rfl <;> decide

/-- A sign or a digit is no blank. -/
theorem isBlank_of_mem_signAndDigits : ∀ c ∈ signAndDigits, isBlank c = false :=
  forall_mem_of_all rfl

/-- A sign or a digit opens and closes nothing. -/
theorem inert_of_mem_signAndDigits : ∀ c ∈ signAndDigits, Inert c := forall_mem_of_all rfl

/-- A character of a position is a sign or a digit. -/
theorem mem_signAndDigits {c : Char} (h : isPositionChar c = true) : c ∈ signAndDigits := by
  simp only [isPositionChar, Bool.or_eq_true, beq_iff_eq] at h
  rcases h with h | rfl
  · exact List.mem_cons_of_mem _ (mem_digits h)
  · exact List.mem_cons_self

section

variable {text : List Char} (h : ∀ c ∈ text, c ∈ signAndDigits)

include h

/-- Signs and digits open and close nothing. -/
theorem scans_signAndDigits (d : Nat) : Scans d text d :=
  .of_inert (fun c hc => inert_of_mem_signAndDigits c (h c hc)) d

/-- Signs and digits are not cut at a colon or a comma. -/
theorem whole_signAndDigits {separator : Char} (hseparator : separator = ':' ∨ separator = ',') :
    Whole separator text := by
  refine .of_plain fun c hc => ?_
  have hmem := h c hc
  refine ⟨(inert_of_mem_signAndDigits c hmem).noQuote, ?_⟩
  rintro rfl
  rcases hseparator with rfl | rfl <;> revert hmem <;> decide

/-- Signs and digits have no blanks at their ends. -/
theorem tidy_signAndDigits : Tidy text :=
  .of_forall fun c hc => isBlank_of_mem_signAndDigits c (h c hc)

end

/-- The text of an integer begins a number. -/
theorem exists_cons_writeInt64 (i : Int64) :
    ∃ c more, writeInt64 i = c :: more ∧ startsNumber c = true := by
  obtain ⟨c, more, hi⟩ := List.exists_cons_of_ne_nil (writeInt64_ne_nil i)
  have hc : c ∈ signAndDigits := mem_writeInt64 (hi ▸ List.mem_cons_self)
  exact ⟨c, more, hi, forall_mem_of_all (p := (startsNumber · = true)) rfl c hc⟩

namespace KeyText

variable {text : List Char} {key : Key}

/-- The text of a key begins with a quote or as a number does. -/
theorem exists_cons (h : KeyText text key) :
    ∃ c more, text = c :: more ∧ (isQuote c = true ∨ startsNumber c = true) := by
  cases h with
  | name hquote _ => exact ⟨_, _, rfl, .inl hquote⟩
  | position i =>
      obtain ⟨c, more, hi, hc⟩ := exists_cons_writeInt64 i
      exact ⟨c, more, hi, .inr hc⟩

/-- The text of a key opens and closes nothing. -/
theorem scans (h : KeyText text key) (d : Nat) : Scans d text d := by
  cases h with
  | name hquote hbody => exact .of_quoted hquote hbody d
  | position i => exact scans_signAndDigits (fun _ => mem_writeInt64) d

/-- The text of a key is not cut at a colon or a comma. -/
theorem whole (h : KeyText text key) {separator : Char}
    (hseparator : separator = ':' ∨ separator = ',') : Whole separator text := by
  cases h with
  | name hquote hbody =>
      refine .of_quoted hquote ?_ hbody
      rintro rfl
      rcases hseparator with rfl | rfl <;> cases hquote
  | position i => exact whole_signAndDigits (fun _ => mem_writeInt64) hseparator

/-- The text of a key has no blanks at its ends. -/
theorem tidy (h : KeyText text key) : Tidy text := by
  cases h with
  | name hquote _ =>
      exact tidy_of_ends (isBlank_of_isQuote hquote) (isBlank_of_isQuote hquote) _
  | position i => exact tidy_signAndDigits fun _ => mem_writeInt64

/-- The text of a key is not empty. -/
theorem ne_nil (h : KeyText text key) : text ≠ [] := by
  obtain ⟨c, more, rfl, -⟩ := h.exists_cons
  exact List.cons_ne_nil c more

end KeyText

/-! ## Paths -/

/-- A key is read from its text up to the bracket that closes it. -/
theorem readPathKey_keyText {text : List Char} {key : Key} (h : KeyText text key)
    (rest : List Char) : readPathKey (text ++ ']' :: rest) = .ok (key, ']' :: rest) := by
  cases h with
  | @name quote body value hquote hbody =>
      have hread : readQuoted quote (body ++ quote :: ']' :: rest) = .ok (value, ']' :: rest) :=
        (readQuoted_eq_ok_iff hquote).2 ⟨body, hbody, rfl⟩
      rw [List.cons_append, List.cons_append, List.append_assoc, List.singleton_append,
        readPathKey, if_pos hquote, hread]
      rfl
  | position i =>
      have hall : ∀ c ∈ writeInt64 i, isPositionChar c = true := fun c hc =>
        forall_mem_of_all (p := (isPositionChar · = true)) rfl c (mem_writeInt64 hc)
      have hends : ∀ c, (']' :: rest).head? = some c → isPositionChar c = false := by
        intro c hc
        cases hc
        rfl
      have htake := takeWhile_word hall hends
      have hdrop := dropWhile_word hall hends
      have hread := readInt64?_writeInt64 i
      obtain ⟨c, more, hi, hc⟩ := exists_cons_writeInt64 i
      have hquote : ¬isQuote c = true := by
        intro hq
        rw [startsNumber_of_isQuote hq] at hc
        cases hc
      rw [hi] at htake hdrop hread ⊢
      rw [List.cons_append, readPathKey, if_neg hquote, if_pos hc, ← List.cons_append, htake,
        hdrop]
      dsimp only
      rw [hread]

/-- A key in brackets is read with its closing bracket. -/
theorem readPathBracket_keyText {text : List Char} {key : Key} (h : KeyText text key)
    (rest : List Char) : readPathBracket (text ++ ']' :: rest) = .ok (key, rest) := by
  have hskip : skipBlanks (text ++ ']' :: rest) = text ++ ']' :: rest := by
    refine skipBlanks_eq_self fun c hc => h.tidy.head c ?_
    obtain ⟨d, more, rfl, -⟩ := h.exists_cons
    exact hc
  have hclose : skipBlanks (']' :: rest) = ']' :: rest :=
    skipBlanks_eq_self fun c hc => by cases hc; decide
  rw [readPathBracket, hskip, readPathKey_keyText h]
  dsimp only
  rw [hclose]
  rfl

/-- A path is read in front of what follows it. -/
theorem readPath_append {text : List Char} {path : List Key} (h : PathText text path)
    (rest : List Char) :
    readPath (text ++ rest) = (readPath rest).map fun (more, left) => (path ++ more, left) := by
  induction h with
  | nil =>
      rw [List.nil_append]
      cases readPath rest <;> rfl
  | @cons text more key path hkey _ ih =>
      have hread := readPathBracket_keyText hkey (more ++ rest)
      rw [List.cons_append, List.cons_append, List.append_assoc, List.cons_append, readPath]
      split
      · rename_i he
        rw [hread] at he
        cases he
      · rename_i he
        rw [hread] at he
        cases he
        rw [ih, map_map_outcome]
        rfl

/-- A path ends in front of a text that goes on neither with a dot nor with a bracket. -/
theorem readPath_of_head? {rest : List Char} (hdot : rest.head? ≠ some '.')
    (hbracket : rest.head? ≠ some '[') : readPath rest = .ok ([], rest) := by
  cases rest with
  | nil => rw [readPath] <;> simp
  | cons c rest =>
      rw [readPath]
      · rintro more he
        exact hdot (congrArg List.head? he)
      · rintro more he
        exact hbracket (congrArg List.head? he)

/-- A path is read up to a text that goes on neither with a dot nor with a bracket. -/
theorem readPath_pathText {text : List Char} {path : List Key} (h : PathText text path)
    {rest : List Char} (hdot : rest.head? ≠ some '.') (hbracket : rest.head? ≠ some '[') :
    readPath (text ++ rest) = .ok (path, rest) := by
  rw [readPath_append h, readPath_of_head? hdot hbracket]
  simp only [Except.map, List.append_nil]

/-- The keys that are read from the front of a text, one by one, and what is left of it. -/
inductive PathRead : List Char → List Key → List Char → Prop
  | done {text : List Char} (hdot : text.head? ≠ some '.') (hbracket : text.head? ≠ some '[') :
    PathRead text [] text
  | name {text rest left : List Char} {key : Key} {path : List Key}
    (hname : readPathName text = .ok (key, rest)) (hpath : PathRead rest path left) :
    PathRead ('.' :: text) (key :: path) left
  | bracket {text rest left : List Char} {key : Key} {path : List Key}
    (hbracket : readPathBracket text = .ok (key, rest)) (hpath : PathRead rest path left) :
    PathRead ('[' :: text) (key :: path) left

/-- A path is read key by key. -/
theorem pathRead_of_readPath {text left : List Char} {path : List Key}
    (h : readPath text = .ok (path, left)) : PathRead text path left := by
  fun_induction readPath text generalizing path left with
  | case1 | case3 => cases h
  | case2 text key rest hname ih =>
      obtain ⟨⟨keys, last⟩, hread, hpair⟩ := map_eq_ok h
      cases hpair
      exact .name hname (ih hread)
  | case4 text key rest hbracket ih =>
      obtain ⟨⟨keys, last⟩, hread, hpair⟩ := map_eq_ok h
      cases hpair
      exact .bracket hbracket (ih hread)
  | case5 text hdot hbracket =>
      cases h
      refine .done (fun hd => ?_) (fun hb => ?_)
      · obtain ⟨more, rfl⟩ := List.head?_eq_some_iff.1 hd
        exact hdot more rfl
      · obtain ⟨more, rfl⟩ := List.head?_eq_some_iff.1 hb
        exact hbracket more rfl

/-- A path opens and closes nothing. -/
theorem PathText.scans {text : List Char} {path : List Key} (h : PathText text path) (d : Nat) :
    Scans d text d := by
  induction h with
  | nil => exact .nil d
  | @cons text more key path hkey _ ih =>
      exact .opening (.inl rfl) ((hkey.scans (d + 1)).append (.closing (.inl rfl) ih))

/-! ## Literals -/

/-- The words that are literals. -/
theorem wordScalar?_cases {word : List Char} {s : Scalar} (h : wordScalar? word = some s) :
    word = ['t', 'r', 'u', 'e'] ∧ s = .bool true ∨
      word = ['f', 'a', 'l', 's', 'e'] ∧ s = .bool false ∨
      word = ['n', 'u', 'l', 'l'] ∧ s = .null := by
  unfold wordScalar? at h
  split at h
  · rename_i hword
    exact .inl ⟨hword, (Option.some.inj h).symm⟩
  split at h
  · rename_i hword
    exact .inr (.inl ⟨hword, (Option.some.inj h).symm⟩)
  split at h
  · rename_i hword
    exact .inr (.inr ⟨hword, (Option.some.inj h).symm⟩)
  · cases h

/-- The characters of numbers. -/
def numberChars : List Char := '+' :: '.' :: 'e' :: 'E' :: signAndDigits

/-- A character of a number is one of them. -/
theorem mem_numberChars {c : Char} (h : isNumberChar c = true) : c ∈ numberChars := by
  simp only [isNumberChar, Bool.or_eq_true, beq_iff_eq] at h
  rcases h with ((((h | rfl) | rfl) | rfl) | rfl) | rfl
  · exact List.mem_append_right ['+', '.', 'e', 'E', '-'] (mem_digits h)
  all_goals decide

namespace LiteralText

variable {text : List Char} {s : Scalar}

/-- A literal begins with no blank. -/
theorem exists_cons (h : LiteralText text s) : ∃ c more, text = c :: more ∧ isBlank c = false := by
  cases h with
  | string hquote _ => exact ⟨_, _, rfl, isBlank_of_isQuote hquote⟩
  | @number c more n _ hall _ =>
      have hc := mem_numberChars (hall c List.mem_cons_self)
      exact ⟨c, more, rfl, forall_mem_of_all (p := (isBlank · = false)) rfl c hc⟩
  | word hword =>
      rcases wordScalar?_cases hword with ⟨rfl, rfl⟩ | ⟨rfl, rfl⟩ | ⟨rfl, rfl⟩ <;>
        exact ⟨_, _, rfl, by decide⟩

/-- A literal opens and closes nothing. -/
theorem scans (h : LiteralText text s) (d : Nat) : Scans d text d := by
  cases h with
  | string hquote hbody => exact .of_quoted hquote hbody d
  | number _ hall _ =>
      exact .of_inert (fun c hc =>
        forall_mem_of_all (p := Inert) rfl c (mem_numberChars (hall c hc))) d
  | word hword =>
      refine .of_inert ?_ d
      rcases wordScalar?_cases hword with ⟨rfl, rfl⟩ | ⟨rfl, rfl⟩ | ⟨rfl, rfl⟩ <;>
        exact forall_mem_of_all rfl

end LiteralText

/-- The text of an integer is a literal. -/
theorem literalText_writeInt64 (n : Int64) : LiteralText (writeInt64 n) (.number (.int n)) := by
  have hread : readNumber? (writeInt64 n) = some (.int n) := by
    simp only [readNumber?, readInt64?_writeInt64]
  have hall : ∀ c ∈ writeInt64 n, isNumberChar c = true := fun c hc =>
    forall_mem_of_all (p := (isNumberChar · = true)) rfl c (mem_writeInt64 hc)
  obtain ⟨c, more, hn, hc⟩ := exists_cons_writeInt64 n
  rw [hn] at hread hall ⊢
  exact .number hc hall hread

/-- A literal is read from its text. -/
theorem readLiteral_literalText {text : List Char} {s : Scalar} (h : LiteralText text s) :
    readLiteral text = .ok (s, []) := by
  cases h with
  | @string quote body value hquote hbody =>
      have hread : readQuoted quote (body ++ [quote]) = .ok (value, []) :=
        (readQuoted_eq_ok_iff hquote).2 ⟨body, hbody, rfl⟩
      rw [List.cons_append, readLiteral, if_pos hquote, hread]
      rfl
  | @number c text n hstart hall hread =>
      have hquote : ¬isQuote c = true := by
        intro hq
        rw [startsNumber_of_isQuote hq] at hstart
        cases hstart
      have hends : ∀ d, ([] : List Char).head? = some d → isNumberChar d = false := by simp
      have htake := takeWhile_word hall hends
      have hdrop := dropWhile_word hall hends
      rw [List.append_nil] at htake hdrop
      rw [readLiteral, if_neg hquote, if_pos hstart, htake, hdrop]
      dsimp only
      rw [hread]
  | word hword =>
      rcases wordScalar?_cases hword with ⟨rfl, rfl⟩ | ⟨rfl, rfl⟩ | ⟨rfl, rfl⟩ <;> rfl

/-! ## Conditions -/

/-- A sign is read as its comparison. -/
theorem readComparison_sign (op : Comparison) (rest : List Char) :
    readComparison (op.sign ++ ' ' :: rest) = .ok (op, ' ' :: rest) := by
  cases op <;> rfl

/-- A space in front of a text is skipped. -/
theorem skipBlanks_space (text : List Char) : skipBlanks (' ' :: text) = skipBlanks text :=
  List.dropWhile_cons_of_pos (by decide)

/-- A text that begins with a character that is no blank is left as it is. -/
theorem skipBlanks_cons {c : Char} (hc : isBlank c = false) (text : List Char) :
    skipBlanks (c :: text) = c :: text :=
  skipBlanks_eq_self fun d hd => by cases hd; exact hc

/-- A sign begins with no blank. -/
theorem exists_cons_sign (op : Comparison) :
    ∃ c more, op.sign = c :: more ∧ isBlank c = false := by
  cases op <;> exact ⟨_, _, rfl, by decide⟩

/-- A comparison and its literal are read from their texts. -/
theorem readComparing_sign {literal : List Char} {s : Scalar} (h : LiteralText literal s)
    (path : List Key) (op : Comparison) :
    readComparing path (op.sign ++ ' ' :: literal) = .ok (.compares path op s) := by
  obtain ⟨c, more, rfl, hc⟩ := h.exists_cons
  rw [readComparing, readComparison_sign]
  dsimp only
  rw [skipBlanks_space, skipBlanks_cons hc, readLiteral_literalText h]
  rfl

/-- The sign of the current value is no blank. -/
theorem skipBlanks_at (rest : List Char) : skipBlanks ('@' :: rest) = '@' :: rest :=
  skipBlanks_eq_self fun d hd => by cases hd; decide

/-- Behind a path and a blank a comparison is read. -/
theorem readCondition_sign {text : List Char} {path : List Key} (h : PathText text path)
    (op : Comparison) (rest : List Char) :
    readCondition ('@' :: text ++ ' ' :: op.sign ++ rest) =
      readComparing path (op.sign ++ rest) := by
  have hread : readPath (text ++ ' ' :: (op.sign ++ rest)) = .ok (path, ' ' :: (op.sign ++ rest)) :=
    readPath_pathText h (by simp) (by simp)
  obtain ⟨c, more, hsign, hc⟩ := exists_cons_sign op
  rw [hsign, List.cons_append] at hread
  rw [List.append_assoc, List.cons_append, List.cons_append, hsign, List.cons_append,
    readCondition, skipBlanks_at]
  simp only [hread, skipBlanks_space, skipBlanks_cons hc]

/-- A condition is read from its text. -/
theorem readCondition_conditionText {text : List Char} {condition : Condition}
    (h : ConditionText text condition) : readCondition text = .ok condition := by
  cases h with
  | @present text path hpath =>
      have hread : readPath (text ++ []) = .ok (path, []) :=
        readPath_pathText hpath (by simp) (by simp)
      rw [List.append_nil] at hread
      rw [readCondition, skipBlanks_at]
      simp only [hread]
      rfl
  | @compares text literal path s hpath op hliteral =>
      exact (readCondition_sign hpath op _).trans (readComparing_sign hliteral path op)

/-- The front of a comparison opens and closes nothing. -/
theorem scans_sign {text : List Char} {path : List Key} (h : PathText text path)
    (op : Comparison) (d : Nat) : Scans d ('@' :: text ++ ' ' :: op.sign ++ [' ']) d := by
  have hspace : Inert ' ' := by decide
  have hsign : Scans d op.sign d := by
    refine .of_inert ?_ d
    cases op <;> exact forall_mem_of_all rfl
  exact ((Scans.inert (by decide) (h.scans d)).append (.inert hspace hsign)).append
    (.inert hspace (.nil d))

/-- A condition opens and closes nothing. -/
theorem ConditionText.scans {text : List Char} {condition : Condition}
    (h : ConditionText text condition) (d : Nat) : Scans d text d := by
  cases h with
  | present hpath => exact .inert (by decide) (hpath.scans d)
  | compares hpath op hliteral =>
      have := (scans_sign hpath op d).append (hliteral.scans d)
      simpa using this

end PathQuery.Expression
