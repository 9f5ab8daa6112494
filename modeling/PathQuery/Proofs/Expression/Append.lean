import PathQuery.Proofs.Expression.Segment
import PathQuery.Proofs.Outcome

/-!
# Expressions one after the other

What an expression reads as does not depend on what follows it behind a blank: the readers below
take a text exactly as far as it goes. `readSelectors_append` and `readExpression_append` say that
the selectors of a text, a blank and another text are those of the two texts together.
-/

namespace PathQuery.Expression

open Text

/-- A segment begins with a dot, an opening bracket or a star. -/
theorem Segment.exists_cons {seg rest : List Char} {s : Selector} (h : Segment seg s rest) :
    ∃ c more, seg = c :: more ∧ isBlank c = false := by
  cases h with
  | star | dotStar | member | descent | descentTo | group => exact ⟨_, _, rfl, by decide⟩

/-- A name that ends still ends if more follows behind a blank. -/
theorem EndsName.append {rest : List Char} (h : EndsName rest) {blank : Char}
    (hblank : isBlank blank = true) (more : List Char) : EndsName (rest ++ blank :: more) := by
  intro c hc
  cases rest with
  | nil =>
      rw [List.nil_append, List.head?_cons, Option.some.injEq] at hc
      exact hc ▸ isNameChar_of_isBlank hblank
  | cons d rest => exact h c hc

/-- A segment is the same segment if more follows behind a blank. -/
theorem Segment.append {seg rest : List Char} {s : Selector} (h : Segment seg s rest)
    {blank : Char} (hblank : isBlank blank = true) (more : List Char) :
    Segment seg s (rest ++ blank :: more) := by
  cases h with
  | star => exact .star
  | dotStar => exact .dotStar
  | member hname hrest => exact .member hname (hrest.append hblank more)
  | descent hdot hrest =>
      refine .descent (fun hd => ?_) (hrest.append hblank more)
      cases rest with
      | nil =>
          rw [List.nil_append, List.head?_cons, Option.some.injEq] at hd
          subst hd
          cases hblank
      | cons d rest => exact hdot hd
  | descentTo hname hrest => exact .descentTo hname (hrest.append hblank more)
  | group hinner hgroup => exact .group hinner hgroup

/-! ## Several selectors -/

/-- A blank before selectors is passed over. -/
theorem readSelectors_blank {c : Char} (hc : isBlank c = true) (text : List Char) :
    readSelectors (c :: text) = readSelectors text := by
  rw [readSelectors, if_pos hc]

/-- No selectors are read from blanks, and from nothing else. -/
theorem readSelectors_eq_nil_iff {text : List Char} : readSelectors text = .ok [] ↔ Blank text := by
  fun_induction readSelectors text with
  | case1 => exact iff_of_true rfl .nil
  | case2 c rest hc ih =>
      rw [ih]
      exact ⟨fun h => List.forall_mem_cons.2 ⟨hc, h⟩, fun h => (List.forall_mem_cons.1 h).2⟩
  | case3 c rest hc => exact iff_of_false nofun fun h => hc (h c List.mem_cons_self)
  | case4 c rest hc =>
      refine iff_of_false (fun h => ?_) fun h => hc (h c List.mem_cons_self)
      obtain ⟨others, -, heq⟩ := map_eq_ok h
      cases heq

/-- A segment before selectors is read as one more selector. -/
theorem readSelectors_segment {seg rest : List Char} {s : Selector} (h : Segment seg s rest) :
    readSelectors (seg ++ rest) = (readSelectors rest).map (s :: ·) := by
  obtain ⟨c, more, rfl, hc⟩ := h.exists_cons
  have hread : readSelector c (more ++ rest) = .ok (s, rest) := readSelector_segment h rfl
  rw [List.cons_append, readSelectors, if_neg (by simp [hc])]
  split
  · rename_i he
    rw [hread] at he
    cases he
  · rename_i he
    rw [hread] at he
    cases he
    rfl

/-- The selectors of a text go on behind a blank with those of the text there. -/
theorem readSelectors_append {text : List Char} {ss : List Selector}
    (h : readSelectors text = .ok ss) {blank : Char} (hblank : isBlank blank = true)
    (more : List Char) :
    readSelectors (text ++ blank :: more) = (readSelectors more).map (ss ++ ·) := by
  fun_induction readSelectors text generalizing ss with
  | case1 =>
      cases h
      rw [List.nil_append, readSelectors_blank hblank]
      cases readSelectors more <;> rfl
  | case2 c rest hc ih => rw [List.cons_append, readSelectors_blank hc, ih h]
  | case3 => cases h
  | case4 c rest hc s after hread ih =>
      obtain ⟨seg, hseg, htext⟩ := segment_of_readSelector hread
      obtain ⟨others, hafter, rfl⟩ := map_eq_ok h
      rw [htext, List.append_assoc, readSelectors_segment (hseg.append hblank more), ih hafter,
        map_map_outcome]
      rfl

/-! ## Expressions -/

/-- An expression that begins with a dot, a bracket or a star has no start of its own. -/
theorem readExpression_eq_readSelectors {c : Char} (hc : c = '.' ∨ c = '[' ∨ c = '*')
    (text : List Char) : readExpression (c :: text) = readSelectors (c :: text) := by
  have hblank : isBlank c = false := by rcases hc with rfl | rfl | rfl <;> decide
  have hname : isNameChar c = false := by rcases hc with rfl | rfl | rfl <;> decide
  have hroot : c ≠ '$' := by rcases hc with rfl | rfl | rfl <;> decide
  have hcurrent : c ≠ '@' := by rcases hc with rfl | rfl | rfl <;> decide
  have hskip : skipBlanks (c :: text) = c :: text :=
    skipBlanks_eq_self fun d hd => by cases hd; exact hblank
  rw [readExpression, hskip, readStart, if_neg hroot, if_neg hcurrent, if_neg (by simp [hname])]

/-- The start of an expression is read alike if more follows behind a blank. -/
theorem readStart_append {c : Char} {text : List Char} {ss : List Selector}
    (h : readStart (c :: text) = .ok ss) {blank : Char} (hblank : isBlank blank = true)
    (more : List Char) :
    readStart (c :: text ++ blank :: more) = (readSelectors more).map (ss ++ ·) := by
  rw [readStart] at h
  rw [List.cons_append, readStart]
  by_cases hroot : c = '$'
  · rw [if_pos hroot] at h ⊢
    obtain ⟨others, hrest, rfl⟩ := map_eq_ok h
    rw [readSelectors_append hrest hblank, map_map_outcome]
    rfl
  rw [if_neg hroot] at h ⊢
  by_cases hcurrent : c = '@'
  · rw [if_pos hcurrent] at h
    cases h
  rw [if_neg hcurrent] at h ⊢
  by_cases hname : isNameChar c = true
  · rw [if_pos hname] at h ⊢
    -- The name ends before the blank, so that it is the same name with the blank behind it.
    have hsplit := List.takeWhile_append_dropWhile (p := isNameChar) (l := c :: text)
    have hall : ∀ d ∈ (c :: text).takeWhile isNameChar, isNameChar d = true :=
      fun d hd => List.all_eq_true.1 List.all_takeWhile d hd
    have hends := (endsName_dropWhile (c :: text)).append hblank more
    have htake := takeWhile_name hall hends
    have hdrop := dropWhile_name hall hends
    rw [← List.append_assoc, hsplit] at htake hdrop
    rw [← List.cons_append, htake, hdrop]
    obtain ⟨others, hrest, rfl⟩ := map_eq_ok h
    dsimp only
    rw [readSelectors_append hrest hblank, map_map_outcome]
    rfl
  · rw [if_neg hname] at h ⊢
    exact readSelectors_append h hblank more

/-- The selectors of an expression go on behind a blank with those of the text there, provided that
this text begins as a selector does. -/
theorem readExpression_append {text : List Char} {ss : List Selector}
    (h : readExpression text = .ok ss) {blank c : Char} (hblank : isBlank blank = true)
    (hc : c = '.' ∨ c = '[' ∨ c = '*') (more : List Char) :
    readExpression (text ++ blank :: c :: more) = (readSelectors (c :: more)).map (ss ++ ·) := by
  obtain ⟨blanks, hblanks, htext, hhead⟩ := exists_skipBlanks text
  rw [readExpression] at h
  generalize skipBlanks text = core at h htext hhead
  subst htext
  rw [List.append_assoc, readExpression, skipBlanks_append hblanks]
  cases core with
  | nil =>
      cases h
      rw [List.nil_append, ← List.singleton_append,
        skipBlanks_append (by simpa [Blank] using hblank)]
      refine (readExpression_eq_readSelectors hc more).trans ?_
      cases readSelectors (c :: more) <;> rfl
  | cons d rest =>
      have hskip : skipBlanks (d :: rest ++ blank :: c :: more) = d :: rest ++ blank :: c :: more :=
        skipBlanks_eq_self fun e he => hhead e he
      rw [hskip]
      exact readStart_append h hblank (c :: more)

end PathQuery.Expression
