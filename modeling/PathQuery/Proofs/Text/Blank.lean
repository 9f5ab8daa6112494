import PathQuery.Text.Blank

/-!
# Blanks at the ends of a text

`trim` takes blanks off both ends and nothing else (`exists_trim`); a text without blanks at its
ends (`Tidy`) is its own trim, with any blanks put around it (`trim_of_blanks`).
-/

namespace PathQuery.Text

/-- A text of blanks alone. -/
def Blank (text : List Char) : Prop := ∀ c ∈ text, isBlank c = true

/-- The empty text has no character that is not blank. -/
theorem Blank.nil : Blank [] := fun _ hc => absurd hc List.not_mem_nil

/-- Blanks and a text behind them begin with a blank or as the text does. -/
theorem Blank.head?_append {blanks rest : List Char} (h : Blank blanks) {c : Char}
    (hc : (blanks ++ rest).head? = some c) : isBlank c = true ∨ rest.head? = some c := by
  cases blanks with
  | nil => exact .inr hc
  | cons d others =>
      cases hc
      exact .inl (h c List.mem_cons_self)

/-- A text that has no blank at either end. -/
structure Tidy (text : List Char) : Prop where
  head : ∀ c, text.head? = some c → isBlank c = false
  last : ∀ c, text.getLast? = some c → isBlank c = false

/-- A text between two characters that are no blanks has none at its ends. -/
theorem tidy_of_ends {c d : Char} (hc : isBlank c = false) (hd : isBlank d = false)
    (text : List Char) : Tidy (c :: text ++ [d]) where
  head x hx := by
    rw [List.cons_append, List.head?_cons, Option.some.injEq] at hx
    exact hx ▸ hc
  last x hx := by
    rw [List.getLast?_append, List.getLast?_singleton, Option.some_or, Option.some.injEq] at hx
    exact hx ▸ hd

/-- A text without any blank has none at its ends. -/
theorem Tidy.of_forall {text : List Char} (h : ∀ c ∈ text, isBlank c = false) : Tidy text where
  head c hc := h c (List.mem_of_mem_head? hc)
  last c hc := h c (List.mem_of_mem_getLast? hc)

/-- Whatever stands between two texts without blanks at their ends, there is none at the outer
ends. -/
theorem Tidy.append {a b : List Char} (ha : Tidy a) (hb : Tidy b) (hane : a ≠ []) (hbne : b ≠ [])
    (between : List Char) : Tidy (a ++ (between ++ b)) where
  head c hc := by
    cases a with
    | nil => exact absurd rfl hane
    | cons d rest => exact ha.head c hc
  last c hc := by
    refine hb.last c ?_
    rw [List.getLast?_append, List.getLast?_append] at hc
    cases hlast : b.getLast? with
    | none => exact absurd (List.getLast?_eq_none_iff.1 hlast) hbne
    | some d => simpa [hlast] using hc

/-- Blanks in front of a text are skipped with those it begins with. -/
theorem skipBlanks_append {blanks : List Char} (h : Blank blanks) (text : List Char) :
    skipBlanks (blanks ++ text) = skipBlanks text :=
  List.dropWhile_append_of_pos h

/-- A text that begins with no blank is left as it is. -/
theorem skipBlanks_eq_self {text : List Char}
    (h : ∀ c, text.head? = some c → isBlank c = false) : skipBlanks text = text := by
  cases text with
  | nil => rfl
  | cons c rest => exact List.dropWhile_cons_of_neg (by simp [h c rfl])

/-- What is skipped is blank, and what is left begins with no blank. -/
theorem exists_skipBlanks (text : List Char) :
    ∃ blanks, Blank blanks ∧ text = blanks ++ skipBlanks text ∧
      ∀ c, (skipBlanks text).head? = some c → isBlank c = false := by
  refine ⟨text.takeWhile isBlank, fun c hc => ?_, ?_, fun c hc => ?_⟩
  · exact List.all_eq_true.1 List.all_takeWhile c hc
  · exact List.takeWhile_append_dropWhile.symm
  · have := List.head?_dropWhile_not isBlank text
    rw [show List.dropWhile isBlank text = skipBlanks text from rfl, hc] at this
    simpa using this

/-- A text without blanks at its ends is its own trim. -/
theorem Tidy.trim_eq {text : List Char} (h : Tidy text) : trim text = text := by
  have hlast : skipBlanks text.reverse = text.reverse := by
    refine skipBlanks_eq_self fun c hc => h.last c ?_
    rwa [List.head?_reverse] at hc
  rw [trim, skipBlanks_eq_self h.head, hlast, List.reverse_reverse]

/-- Blanks around a text are taken off with those at its ends. -/
theorem trim_append {before after : List Char} (hb : Blank before) (ha : Blank after)
    {text : List Char} (h : Tidy text) : trim (before ++ (text ++ after)) = text := by
  cases text with
  | nil =>
      have hall : skipBlanks after = [] := by
        rw [← List.append_nil after, skipBlanks_append ha]
        rfl
      rw [trim, skipBlanks_append hb, List.nil_append, hall]
      rfl
  | cons c rest =>
      have hhead : skipBlanks (c :: rest ++ after) = c :: rest ++ after :=
        skipBlanks_eq_self fun d hd => h.head d hd
      have hafter : Blank after.reverse := fun d hd => ha d (List.mem_reverse.1 hd)
      have hlast : skipBlanks (c :: rest).reverse = (c :: rest).reverse := by
        refine skipBlanks_eq_self fun d hd => h.last d ?_
        rwa [List.head?_reverse] at hd
      rw [trim, skipBlanks_append hb, hhead, List.reverse_append, skipBlanks_append hafter, hlast,
        List.reverse_reverse]

/-- What a trim takes off is blank, and what it leaves has no blanks at its ends. -/
theorem exists_trim (text : List Char) :
    ∃ before after, Blank before ∧ Blank after ∧ text = before ++ (trim text ++ after) ∧
      Tidy (trim text) := by
  obtain ⟨before, hb, htext, hhead⟩ := exists_skipBlanks text
  obtain ⟨after, ha, hskip, hlast⟩ := exists_skipBlanks (skipBlanks text).reverse
  have hinner : skipBlanks text = trim text ++ after.reverse := by
    rw [← List.reverse_inj, List.reverse_append, List.reverse_reverse, trim, List.reverse_reverse]
    exact hskip
  refine ⟨before, after.reverse, hb, fun c hc => ha c (List.mem_reverse.1 hc), ?_, ?_, ?_⟩
  · rw [← hinner]
    exact htext
  · intro c hc
    refine hhead c ?_
    rw [hinner, List.head?_append, hc, Option.some_or]
  · intro c hc
    refine hlast c ?_
    rwa [trim, List.getLast?_reverse] at hc

/-- A text without blanks at its ends stays whole at the front of what a trim leaves. -/
theorem exists_trim_append {front : List Char} (h : Tidy front) (hne : front ≠ [])
    (rest : List Char) : ∃ after, trim (front ++ rest) = front ++ after := by
  obtain ⟨before, after, hb, ha, hrest, htidy⟩ := exists_trim rest
  by_cases hnil : trim rest = []
  · rw [hnil, List.nil_append] at hrest
    have hblank : Blank rest := by
      intro c hc
      rw [hrest] at hc
      exact (List.mem_append.1 hc).elim (hb c) (ha c)
    have htrim := trim_append .nil hblank h
    exact ⟨[], by rwa [List.append_nil]⟩
  · have htrim := trim_append .nil ha (h.append htidy hne hnil before)
    have htext : [] ++ (front ++ (before ++ trim rest) ++ after) = front ++ rest := by
      rw [List.nil_append, List.append_assoc, List.append_assoc, ← hrest]
    rw [htext] at htrim
    exact ⟨_, htrim⟩

end PathQuery.Text
