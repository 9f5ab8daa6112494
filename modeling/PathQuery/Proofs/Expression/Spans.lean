import PathQuery.Proofs.Expression.Closing
import PathQuery.Proofs.Outcome
import PathQuery.Proofs.Text.Pieces

/-!
# What is quoted, told in two ways

The search for the bracket that closes a group reads each quoted text to its end and goes on behind
it. Cutting at a separator follows quotes one character at a time, and knows of escapes only that
they take one character more. `closingSpans` is the search with a record of the stretches that it
passes over as quoted, and `Quotes` says which stretches these are (`quotes_of_closingSpans`). A
piece begins behind each separator outside these stretches and behind nothing else
(`Quotes.start_cut_iff`). So it is for the contents of every group that closes, without the blanks
at their ends (`cutOutside_of_closing`).
-/

namespace PathQuery.Expression

open Text Text.Quoted

/-- A stretch of a text: the places of its first character and of what is behind it. -/
structure Span where
  start : Nat
  stop : Nat
  deriving DecidableEq, Repr

/-- A place lies in a stretch. -/
def Span.Covers (span : Span) (place : Nat) : Prop := span.start ≤ place ∧ place < span.stop

/-! ## The search with a record -/

/-- The search for the bracket that closes a group, and the stretches that it passes over as quoted.
Before the text come `place` characters. -/
def closingSpans (group : List Char) (depth place : Nat) :
    List Char → Except Fault (List Char × List Span)
  | [] => .error (.met (if depth = 0 then .openBracket else .openParenthesis) group)
  | c :: rest =>
    if isQuote c then
      match _h : readQuoted c rest with
      | .error f => .error f
      | .ok (_, after) =>
        (closingSpans group depth (place + (rest.length + 1 - after.length)) after).map fun r =>
          (r.1, ⟨place, place + (rest.length + 1 - after.length)⟩ :: r.2)
    else if c = '[' ∨ c = '(' then closingSpans group (depth + 1) (place + 1) rest
    else if c = ')' then
      if depth = 0 then .error (.met .strayParenthesis (c :: rest))
      else closingSpans group (depth - 1) (place + 1) rest
    else if c = ']' then
      if depth = 0 then .ok (rest, []) else closingSpans group (depth - 1) (place + 1) rest
    else closingSpans group depth (place + 1) rest
termination_by text => text.length
decreasing_by
  · exact Nat.lt_succ_of_lt (length_of_readQuoted _h)
  all_goals simp

/-- The record has no part in what the search finds. -/
theorem map_fst_closingSpans (group : List Char) (depth place : Nat) (text : List Char) :
    (closingSpans group depth place text).map Prod.fst = closing group depth text := by
  fun_induction closingSpans group depth place text with
  | case1 => rw [closing]; rfl
  | case2 depth place c rest hq f hread =>
      rw [closing, if_pos hq]
      split
      · rename_i he
        cases hread.symm.trans he
        rfl
      · rename_i he
        cases hread.symm.trans he
  | case3 depth place c rest hq value after hread ih =>
      rw [closing, if_pos hq, map_map_outcome]
      split
      · rename_i he
        cases hread.symm.trans he
      · rename_i he
        cases hread.symm.trans he
        exact ih
  | case4 depth place c rest hq hc ih => rw [closing, if_neg hq, if_pos hc, ih]
  | case5 place rest hq hc =>
      rw [closing, if_neg hq, if_neg hc, if_pos rfl, if_pos rfl]
      rfl
  | case6 depth place rest hd hq hc ih =>
      rw [closing, if_neg hq, if_neg hc, if_pos rfl, if_neg hd, ih]
  | case7 place rest hq hc hp =>
      rw [closing, if_neg hq, if_neg hc, if_neg hp, if_pos rfl, if_pos rfl]
      rfl
  | case8 depth place rest hd hq hc hp ih =>
      rw [closing, if_neg hq, if_neg hc, if_neg hp, if_pos rfl, if_neg hd, ih]
  | case9 depth place c rest hq hc hp hb ih =>
      rw [closing, if_neg hq, if_neg hc, if_neg hp, if_neg hb, ih]

/-- A text in which each quoted text is closed, and the stretches that are quoted. Before the text
come `place` characters. -/
inductive Quotes : Nat → List Char → List Span → Prop
  | nil (place : Nat) : Quotes place [] []
  | plain {place : Nat} {c : Char} {text : List Char} {spans : List Span}
    (hc : isQuote c = false) (htext : Quotes (place + 1) text spans) :
    Quotes place (c :: text) spans
  | quoted {place : Nat} {quote : Char} {body value text : List Char} {spans : List Span}
    (hquote : isQuote quote = true) (hbody : Body quote body value)
    (htext : Quotes (place + (body.length + 2)) text spans) :
    Quotes place (quote :: (body ++ quote :: text)) (⟨place, place + (body.length + 2)⟩ :: spans)

/-- What the search passes over as quoted is what is quoted up to the closing bracket. -/
theorem quotes_of_closingSpans {group text rest : List Char} {depth place : Nat} {spans : List Span}
    (h : closingSpans group depth place text = .ok (rest, spans)) :
    ∃ inner, text = inner ++ ']' :: rest ∧ Quotes place inner spans := by
  fun_induction closingSpans group depth place text generalizing spans with
  | case1 | case2 | case5 => cases h
  | case3 depth place c text hq value after hread ih =>
      obtain ⟨⟨left, more⟩, hmore, hpair⟩ := map_eq_ok h
      cases hpair
      obtain ⟨inner, rfl, hinner⟩ := ih hmore
      obtain ⟨body, hbody, rfl⟩ := (readQuoted_eq_ok_iff hq).1 hread
      have hlength : (body ++ c :: (inner ++ ']' :: left)).length + 1 -
          (inner ++ ']' :: left).length = body.length + 2 := by
        simp only [List.length_append, List.length_cons]
        omega
      rw [hlength] at hinner ⊢
      exact ⟨c :: (body ++ c :: inner), by simp, .quoted hq hbody hinner⟩
  | case7 => cases h; exact ⟨[], rfl, .nil _⟩
  | case4 depth place c text hq _ ih =>
      obtain ⟨inner, rfl, hinner⟩ := ih h
      exact ⟨c :: inner, rfl, .plain (by simpa using hq) hinner⟩
  | case6 depth place text _ _ _ ih | case8 depth place text _ _ _ _ ih =>
      obtain ⟨inner, rfl, hinner⟩ := ih h
      exact ⟨_ :: inner, rfl, .plain rfl hinner⟩
  | case9 depth place c text hq _ _ _ ih =>
      obtain ⟨inner, rfl, hinner⟩ := ih h
      exact ⟨c :: inner, rfl, .plain (by simpa using hq) hinner⟩

namespace Quotes

variable {place : Nat} {text : List Char} {spans : List Span}

/-- What is quoted in a text lies behind what comes before the text. -/
theorem le_start (h : Quotes place text spans) : ∀ span ∈ spans, place ≤ span.start := by
  induction h with
  | nil => simp
  | plain _ _ ih => exact fun span hspan => Nat.le_of_succ_le (ih span hspan)
  | quoted _ _ _ ih =>
      refine List.forall_mem_cons.2 ⟨Nat.le_refl _, fun span hspan => ?_⟩
      exact Nat.le_trans (Nat.le_add_right _ _) (ih span hspan)

/-- Behind a character that is no quote the same is quoted. -/
theorem of_cons {c : Char} (hc : isQuote c = false) (h : Quotes place (c :: text) spans) :
    Quotes (place + 1) text spans := by
  generalize hwhole : c :: text = whole at h
  cases h with
  | nil => cases hwhole
  | plain _ htext => cases hwhole; exact htext
  | quoted hquote _ _ =>
      cases hwhole
      rw [hc] at hquote
      cases hquote

/-- Behind characters that are no quotes the same is quoted. -/
theorem of_append {before : List Char} (hbefore : ∀ c ∈ before, isQuote c = false)
    (h : Quotes place (before ++ text) spans) : Quotes (place + before.length) text spans := by
  induction before generalizing place with
  | nil => exact h
  | cons c rest ih =>
      obtain ⟨hc, hrest⟩ := List.forall_mem_cons.1 hbefore
      have htext := ih hrest (h.of_cons hc)
      rwa [Nat.add_assoc, Nat.add_comm 1] at htext

/-- Before a last character that is no quote the same is quoted. -/
theorem of_concat {c : Char} (hc : isQuote c = false) (h : Quotes place (text ++ [c]) spans) :
    Quotes place text spans := by
  generalize hwhole : text ++ [c] = whole at h
  induction h generalizing text with
  | nil => simp at hwhole
  | @plain place d rest spans hd hrest ih =>
      cases text with
      | nil =>
          cases hwhole
          cases hrest
          exact .nil _
      | cons first init =>
          obtain ⟨rfl, hinit⟩ := List.cons.inj hwhole
          exact .plain hd (ih hinit)
  | @quoted place quote body value rest spans hquote hbody _ ih =>
      obtain ⟨init, rfl, rfl⟩ := exists_concat_of_quoted hquote hc hwhole
      exact .quoted hquote hbody (ih rfl)

/-- Between blanks the same is quoted as with them. -/
theorem of_blanks {before after : List Char} (hb : Blank before) (ha : Blank after)
    (h : Quotes place (before ++ (text ++ after)) spans) :
    Quotes (place + before.length) text spans := by
  have hplain : ∀ {c : Char}, isBlank c = true → isQuote c = false :=
    fun hc => (inert_of_isBlank hc).noQuote
  replace h := h.of_append fun c hc => hplain (hb c hc)
  induction after using List.reverseRecOn with
  | nil => simpa using h
  | append_singleton rest c ih =>
      rw [← List.append_assoc] at h
      exact ih (fun x hx => ha x (List.mem_append_left _ hx))
        (h.of_concat (hplain (ha c (by simp))))

end Quotes

/-! ## Cutting -/

/-- A character that is no quote begins a piece behind it if it is a separator; the other pieces are
those of the text behind it. -/
theorem exists_start_cons {separator c : Char} (hc : isQuote c = false) (text : List Char)
    (i start : Nat) :
    (∃ piece ∈ (cut separator .outside i (c :: text)).2, piece.start = start) ↔
      (c = separator ∧ i + 1 = start) ∨
        ∃ piece ∈ (cut separator .outside (i + 1) text).2, piece.start = start := by
  by_cases hseparator : c = separator
  · rw [cut, if_pos ⟨rfl, hseparator⟩]
    constructor
    · rintro ⟨piece, hpiece, hstart⟩
      rcases List.mem_cons.1 hpiece with rfl | hpiece
      · exact .inl ⟨hseparator, hstart⟩
      · exact .inr ⟨piece, hpiece, hstart⟩
    · rintro (⟨-, hstart⟩ | ⟨piece, hpiece, hstart⟩)
      · exact ⟨_, List.mem_cons_self, hstart⟩
      · exact ⟨piece, List.mem_cons_of_mem _ hpiece, hstart⟩
  · have hwhole : Whole separator [c] := .plain hc hseparator .nil
    rw [← List.singleton_append, cut_whole hwhole, or_iff_right fun h => hseparator h.1]
    rfl

namespace Quotes

variable {separator : Char} {place : Nat} {text : List Char} {spans : List Span}

/-- In a text that `i` characters come before where it is cut, a piece begins behind each separator
outside what is quoted, and behind nothing else. -/
theorem start_cut_iff (h : Quotes place text spans) (hseparator : isQuote separator = false)
    (i p : Nat) :
    (∃ piece ∈ (cut separator .outside i text).2, piece.start = i + p + 1) ↔
      text[p]? = some separator ∧ ∀ span ∈ spans, ¬span.Covers (place + p) := by
  induction h generalizing i p with
  | nil => simp [cut]
  | @plain place c text spans hquote htext ih =>
      rw [exists_start_cons hquote]
      cases p with
      | zero =>
          have hfree : ∀ span ∈ spans, ¬span.Covers place := fun span hspan hcovers =>
            Nat.not_le_of_lt (htext.le_start span hspan) hcovers.1
          have hbehind : ¬∃ piece ∈ (cut separator .outside (i + 1) text).2,
              piece.start = i + 0 + 1 := by
            rintro ⟨piece, hpiece, hstart⟩
            exact Nat.ne_of_gt (lt_start_of_mem_cut hpiece) hstart
          rw [or_iff_left hbehind, List.getElem?_cons_zero, Option.some.injEq]
          exact ⟨fun h => ⟨h.1, hfree⟩, fun h => ⟨h.1, rfl⟩⟩
      | succ p =>
          have hmore := ih (i + 1) p
          rw [Nat.add_right_comm i 1 p, Nat.add_right_comm place 1 p] at hmore
          rw [or_iff_right fun h => by omega, List.getElem?_cons_succ]
          exact hmore
  | @quoted place quote body value text spans hquote hbody htext ih =>
      have hne : quote ≠ separator := by
        rintro rfl
        rw [hseparator] at hquote
        cases hquote
      have hlength : (quote :: body ++ [quote]).length = body.length + 2 := by simp
      have htexts : quote :: (body ++ quote :: text) = (quote :: body ++ [quote]) ++ text := by simp
      rw [htexts, cut_whole (.of_quoted hquote hne hbody), hlength, List.forall_mem_cons]
      rcases Nat.lt_or_ge p (body.length + 2) with hp | hp
      · -- The text is cut nowhere within what is quoted, and the stretch covers the place.
        refine iff_of_false ?_ fun h => h.2.1 ⟨Nat.le_add_right _ _, Nat.add_lt_add_left hp _⟩
        rintro ⟨piece, hpiece, hstart⟩
        have := lt_start_of_mem_cut hpiece
        omega
      · obtain ⟨q, rfl⟩ := Nat.exists_eq_add_of_le hp
        have hmore := ih (i + (body.length + 2)) q
        rw [Nat.add_assoc i, Nat.add_assoc place] at hmore
        have hbehind : ¬(Span.mk place (place + (body.length + 2))).Covers
            (place + (body.length + 2 + q)) :=
          fun hcovers => Nat.not_le_of_lt hcovers.2 (Nat.add_le_add_left hp _)
        rw [List.getElem?_append_right (hlength.symm ▸ hp), hlength, Nat.add_sub_cancel_left]
        exact hmore.trans ⟨fun h => ⟨h.1, hbehind, h.2⟩, fun h => ⟨h.1, h.2.2⟩⟩

end Quotes

/-- The pieces of a text that `place` characters come before are what is left between the separators
that no stretch covers. -/
structure CutOutside (separator : Char) (spans : List Span) (place : Nat) (text : List Char) :
    Prop where
  /-- Behind each of these separators a piece begins, and so does every piece but the first. -/
  start_iff : ∀ p, (∃ piece ∈ (pieces separator text).tail, piece.start = p + 1) ↔
    text[p]? = some separator ∧ ∀ span ∈ spans, ¬span.Covers (place + p)
  /-- The pieces with separators between them are the text. -/
  intercalate_eq : [separator].intercalate ((pieces separator text).map Piece.text) = text
  /-- A piece begins behind the pieces before it, with a separator behind each of them. -/
  start_eq : ∀ before piece after, pieces separator text = before ++ piece :: after → ∃ rest,
    text = (before.map Piece.text).flatMap (· ++ [separator]) ++ (piece.text ++ rest) ∧
      piece.start = ((before.map Piece.text).flatMap (· ++ [separator])).length

/-- A text is cut outside what is quoted in it. -/
theorem Quotes.cutOutside {place : Nat} {text : List Char} {spans : List Span}
    (h : Quotes place text spans) {separator : Char} (hseparator : isQuote separator = false) :
    CutOutside separator spans place text where
  start_iff p := by
    rw [← h.start_cut_iff hseparator 0 p, Nat.zero_add]
    rfl
  intercalate_eq := intercalate_pieces separator text
  start_eq _ _ _ := exists_of_pieces_eq

/-- The contents of a group that closes are cut, without the blanks at their ends, at exactly the
separators outside what the search for the closing bracket passed over as quoted. The separator may
be any character but a quote. -/
theorem cutOutside_of_closing {expression rest : List Char} {opening : Nat}
    (h : closing (expression.drop opening) 0 (expression.drop (opening + 1)) = .ok rest)
    {separator : Char} (hseparator : isQuote separator = false) :
    ∃ inner before after spans,
      expression.drop (opening + 1) = inner ++ ']' :: rest ∧
      inner = before ++ (trim inner ++ after) ∧ Blank before ∧ Blank after ∧
      closingSpans (expression.drop opening) 0 (opening + 1) (expression.drop (opening + 1)) =
        .ok (rest, spans) ∧
      CutOutside separator spans (opening + 1 + before.length) (trim inner) := by
  rw [← map_fst_closingSpans _ _ (opening + 1)] at h
  obtain ⟨⟨left, spans⟩, hspans, rfl⟩ := map_eq_ok h
  obtain ⟨inner, htext, hquotes⟩ := quotes_of_closingSpans hspans
  obtain ⟨before, after, hbefore, hafter, hinner, -⟩ := exists_trim inner
  rw [hinner] at hquotes
  exact ⟨inner, before, after, spans, htext, hinner, hbefore, hafter, hspans,
    (hquotes.of_blanks hbefore hafter).cutOutside hseparator⟩

/-- A quote behind a backslash closes nothing, so that the colon behind it is quoted still and the
comma behind the closing quote is not. -/
theorem cutOutside_of_closing_escaped :
    closing ("$[ '\\':]', 1]".toList.drop 1) 0 ("$[ '\\':]', 1]".toList.drop 2) = .ok [] ∧
      closingSpans ("$[ '\\':]', 1]".toList.drop 1) 0 2 ("$[ '\\':]', 1]".toList.drop 2) =
        .ok ([], [⟨3, 9⟩]) ∧
      ∀ separator ∈ [',', ':'], isQuote separator = false ∧
        ∃ inner before after spans,
          "$[ '\\':]', 1]".toList.drop 2 = inner ++ ']' :: [] ∧
          inner = before ++ (trim inner ++ after) ∧ Blank before ∧ Blank after ∧
          closingSpans ("$[ '\\':]', 1]".toList.drop 1) 0 2 ("$[ '\\':]', 1]".toList.drop 2) =
            .ok ([], spans) ∧
          CutOutside separator spans (2 + before.length) (trim inner) := by
  have hclosing : closing ("$[ '\\':]', 1]".toList.drop 1) 0 ("$[ '\\':]', 1]".toList.drop 2) =
      .ok [] := by decide +kernel
  refine ⟨hclosing, by decide +kernel, fun separator hmem => ?_⟩
  have hseparator : isQuote separator = false :=
    forall_mem_of_all (p := fun c => isQuote c = false) rfl separator hmem
  exact ⟨hseparator, cutOutside_of_closing hclosing hseparator⟩

end PathQuery.Expression
