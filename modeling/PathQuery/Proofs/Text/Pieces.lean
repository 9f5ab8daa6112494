import PathQuery.Proofs.Text.Quoted
import PathQuery.Text.Pieces

/-!
# Cutting where no quotes are open

A text in which every quoted text is closed and no separator stands outside quotes is one piece
(`Whole`). `map_text_pieces` says that such texts with separators between them are cut into exactly
these texts: what the two ways of following quotes see as quoted is the same.
-/

namespace PathQuery.Text

open Quoted

/-- A text that is not cut: its quoted texts are closed, and outside them is no separator. -/
inductive Whole (separator : Char) : List Char → Prop
  | nil : Whole separator []
  | plain {c : Char} {text : List Char} (hquote : isQuote c = false) (hc : c ≠ separator)
    (htext : Whole separator text) : Whole separator (c :: text)
  | quoted {quote : Char} {body value text : List Char} (hquote : isQuote quote = true)
    (hne : quote ≠ separator) (hbody : Body quote body value) (htext : Whole separator text) :
    Whole separator (quote :: (body ++ quote :: text))

namespace Whole

variable {separator : Char}

/-- Uncut texts one after the other are uncut. -/
theorem append {a b : List Char} (ha : Whole separator a) (hb : Whole separator b) :
    Whole separator (a ++ b) := by
  induction ha with
  | nil => exact hb
  | plain hquote hc _ ih => exact .plain hquote hc ih
  | quoted hquote hne hbody _ ih =>
      have := Whole.quoted hquote hne hbody ih
      simpa using this

/-- A text without quotes and separators is uncut. -/
theorem of_plain {text : List Char} (h : ∀ c ∈ text, isQuote c = false ∧ c ≠ separator) :
    Whole separator text := by
  induction text with
  | nil => exact .nil
  | cons c rest ih =>
      obtain ⟨hquote, hc⟩ := h c List.mem_cons_self
      exact .plain hquote hc (ih fun x hx => h x (List.mem_cons_of_mem _ hx))

/-- A quoted text alone is uncut. -/
theorem of_quoted {quote : Char} (hquote : isQuote quote = true) (hne : quote ≠ separator)
    {body value : List Char} (hbody : Body quote body value) :
    Whole separator (quote :: body ++ [quote]) :=
  .quoted hquote hne hbody .nil

end Whole

/-- What holds of all texts and of two texts with a separator between them holds of texts with
separators between them. -/
theorem intercalate_induction {P : List Char → Prop} {separator : Char} {texts : List (List Char)}
    (hne : texts ≠ []) (htexts : ∀ text ∈ texts, P text)
    (happend : ∀ a b, P a → P b → P (a ++ separator :: b)) : P ([separator].intercalate texts) := by
  induction texts with
  | nil => exact absurd rfl hne
  | cons first more ih =>
      have hfirst := htexts first List.mem_cons_self
      cases more with
      | nil => rwa [List.intercalate_singleton]
      | cons second more =>
          have hmore := ih (List.cons_ne_nil second more) fun text ht =>
            htexts text (List.mem_cons_of_mem _ ht)
          rw [List.intercalate_cons_cons, List.append_assoc, List.singleton_append]
          exact happend first _ hfirst hmore

/-! ## Cutting -/

/-- The pieces of a text behind a text that goes on the first of them. -/
def goOn (text : List Char) (cutRest : List Char × List Piece) : List Char × List Piece :=
  (text ++ cutRest.1, cutRest.2)

/-- A character that is no separator outside quotes goes on its piece. -/
theorem cut_cons {separator c : Char} {state : Quotation}
    (h : ¬(state = .outside ∧ c = separator)) (i : Nat) (rest : List Char) :
    cut separator state i (c :: rest) =
      goOn [c] (cut separator (state.next c) (i + 1) rest) := by
  rw [cut, if_neg h]
  rfl

/-- A text goes on one piece behind another text. -/
theorem goOn_append (a b : List Char) (r : List Char × List Piece) :
    goOn (a ++ b) r = goOn a (goOn b r) := by
  rw [goOn, List.append_assoc]
  rfl

/-- Characters that neither escape nor close anything go on the piece that a quoted text is in. -/
theorem cut_inside {separator quote : Char} {text : List Char}
    (h : ∀ c ∈ text, c ≠ quote ∧ c ≠ '\\') (i : Nat) (rest : List Char) :
    cut separator (.inside quote) i (text ++ rest) =
      goOn text (cut separator (.inside quote) (i + text.length) rest) := by
  induction text generalizing i with
  | nil => rfl
  | cons c text ih =>
      obtain ⟨hquote, hslash⟩ := h c List.mem_cons_self
      have hnext : (Quotation.inside quote).next c = .inside quote := by
        rw [Quotation.next, if_neg hslash, if_neg hquote]
      have hin : ¬(Quotation.inside quote = .outside ∧ c = separator) := fun hc => by cases hc.1
      rw [List.cons_append, cut_cons hin, hnext, ih fun d hd => h d (List.mem_cons_of_mem _ hd),
        ← goOn_append, List.length_cons, Nat.add_assoc, Nat.add_comm 1]
      rfl

/-- A backslash and the character behind it go on the piece that a quoted text is in. -/
theorem cut_escape {separator quote : Char} (e : Char) (i : Nat) (rest : List Char) :
    cut separator (.inside quote) i ('\\' :: e :: rest) =
      goOn ['\\', e] (cut separator (.inside quote) (i + 2) rest) := by
  have hin : ¬(Quotation.inside quote = .outside ∧ '\\' = separator) := fun hc => by cases hc.1
  have hescaped : ¬(Quotation.escaped quote = .outside ∧ e = separator) := fun hc => by cases hc.1
  have hslash : (Quotation.inside quote).next '\\' = .escaped quote := by
    rw [Quotation.next, if_pos rfl]
  have hnext : (Quotation.escaped quote).next e = .inside quote := rfl
  rw [cut_cons hin, hslash, cut_cons hescaped, hnext, ← goOn_append]
  rfl

/-- An item goes on its piece, and the text is quoted behind it as it was before. -/
theorem cut_item {separator quote : Char} (hquote : isQuote quote = true) {item : List Char}
    {x : Char} (h : Item quote item x) (i : Nat) (rest : List Char) :
    cut separator (.inside quote) i (item ++ rest) =
      goOn item (cut separator (.inside quote) (i + item.length) rest) := by
  cases h with
  | plain hc hslash => exact cut_inside (by simp [hc, hslash]) i rest
  | @escaped e _ _ => exact cut_escape e i rest
  | @numbered a b c d _ he =>
      have hplain : ∀ e ∈ [a, b, c, d], e ≠ quote ∧ e ≠ '\\' := by
        intro e hmem
        have hno := not_isQuote_of_scalar? he e hmem
        exact ⟨fun h => hno (.inl (h ▸ hquote)), fun h => hno (.inr h)⟩
      refine (cut_escape 'u' i ([a, b, c, d] ++ rest)).trans ?_
      rw [cut_inside hplain, ← goOn_append]
      rfl

/-- What is between quotes goes on its piece. -/
theorem cut_body {separator quote : Char} (hquote : isQuote quote = true)
    {body value : List Char} (h : Body quote body value) (i : Nat) (rest : List Char) :
    cut separator (.inside quote) i (body ++ rest) =
      goOn body (cut separator (.inside quote) (i + body.length) rest) := by
  induction h generalizing i with
  | nil => rfl
  | cons hitem _ ih =>
      rw [List.append_assoc, cut_item hquote hitem, ih, ← goOn_append, List.length_append,
        Nat.add_assoc]

/-- An uncut text goes on the piece that it stands in. -/
theorem cut_whole {separator : Char} {text : List Char} (h : Whole separator text) (i : Nat)
    (rest : List Char) :
    cut separator .outside i (text ++ rest) =
      goOn text (cut separator .outside (i + text.length) rest) := by
  induction h generalizing i with
  | nil => rfl
  | @plain c text hquote hc _ ih =>
      have hout : ¬(Quotation.outside = .outside ∧ c = separator) := fun h => hc h.2
      have hnext : Quotation.outside.next c = .outside := by simp [Quotation.next, hquote]
      rw [List.cons_append, cut_cons hout, hnext, ih, ← goOn_append, List.length_cons,
        Nat.add_assoc, Nat.add_comm 1]
      rfl
  | @quoted quote body value text hquote hne hbody _ ih =>
      have hout : ¬(Quotation.outside = .outside ∧ quote = separator) := fun h => hne h.2
      have hopen : Quotation.outside.next quote = .inside quote := by simp [Quotation.next, hquote]
      have hin : ¬(Quotation.inside quote = .outside ∧ quote = separator) := fun h => by cases h.1
      have hclose : (Quotation.inside quote).next quote = .outside := by
        rw [Quotation.next, if_neg (ne_slash_of_isQuote hquote), if_pos rfl]
      have hlength : i + 1 + body.length + 1 + text.length =
          i + (quote :: (body ++ quote :: text)).length := by
        simp only [List.length_cons, List.length_append]
        omega
      rw [List.cons_append, List.append_assoc, List.cons_append, cut_cons hout, hopen,
        cut_body hquote hbody, cut_cons hin, hclose, ih, ← goOn_append, ← goOn_append,
        ← goOn_append, hlength]
      simp

/-! ## Pieces -/

/-- A separator behind an uncut text ends its piece. -/
theorem cut_separator {separator : Char} {text : List Char} (h : Whole separator text) (i : Nat)
    (rest : List Char) :
    cut separator .outside i (text ++ separator :: rest) =
      (text, ⟨i + text.length + 1, (cut separator .outside (i + text.length + 1) rest).1⟩ ::
        (cut separator .outside (i + text.length + 1) rest).2) := by
  rw [cut_whole h, cut, if_pos ⟨rfl, rfl⟩, goOn, List.append_nil]

/-- An uncut text alone is its own piece. -/
theorem cut_last {separator : Char} {text : List Char} (h : Whole separator text) (i : Nat) :
    cut separator .outside i text = (text, []) := by
  have := cut_whole h i []
  rwa [List.append_nil, cut, goOn, List.append_nil] at this

/-- Uncut texts with separators between them are cut into these texts. -/
theorem map_text_cut {separator : Char} {first : List Char} {more : List (List Char)}
    (h : ∀ text ∈ first :: more, Whole separator text) (i : Nat) :
    (cut separator .outside i ([separator].intercalate (first :: more))).1 = first ∧
      (cut separator .outside i ([separator].intercalate (first :: more))).2.map Piece.text =
        more := by
  induction more generalizing first i with
  | nil =>
      rw [List.intercalate_singleton, cut_last (h first List.mem_cons_self)]
      exact ⟨rfl, rfl⟩
  | cons second more ih =>
      obtain ⟨hfirst, hmore⟩ := ih (fun text ht => h text (List.mem_cons_of_mem _ ht))
        (i + first.length + 1)
      rw [List.intercalate_cons_cons, List.append_assoc, List.singleton_append,
        cut_separator (h first List.mem_cons_self)]
      refine ⟨rfl, ?_⟩
      rw [List.map_cons, hfirst, hmore]

/-- Uncut texts with separators between them are cut into these texts. -/
theorem map_text_pieces {separator : Char} {texts : List (List Char)} (hne : texts ≠ [])
    (h : ∀ text ∈ texts, Whole separator text) :
    (pieces separator ([separator].intercalate texts)).map Piece.text = texts := by
  cases texts with
  | nil => exact absurd rfl hne
  | cons first more =>
      obtain ⟨hfirst, hmore⟩ := map_text_cut h 0
      rw [pieces, List.map_cons, hfirst, hmore]

/-- Uncut texts with a separator behind each are cut off what follows them, in which an uncut text
stays whole. -/
theorem exists_text_cut {separator : Char} {texts : List (List Char)}
    (h : ∀ text ∈ texts, Whole separator text) {whole : List Char} (hwhole : Whole separator whole)
    (rest : List Char) (i : Nat) : ∃ after more,
      (cut separator .outside i (texts.flatMap (· ++ [separator]) ++ (whole ++ rest))).1 ::
        (cut separator .outside i (texts.flatMap (· ++ [separator]) ++ (whole ++ rest))).2.map
          Piece.text = texts ++ (whole ++ after) :: more := by
  induction texts generalizing i with
  | nil => exact ⟨_, _, by rw [List.flatMap_nil, List.nil_append, cut_whole hwhole]; rfl⟩
  | cons text texts ih =>
      obtain ⟨htext, hmore⟩ := List.forall_mem_cons.1 h
      obtain ⟨after, more, hcut⟩ := ih hmore (i + text.length + 1)
      refine ⟨after, more, ?_⟩
      rw [List.flatMap_cons, List.append_assoc, List.append_assoc, List.singleton_append,
        cut_separator htext, List.map_cons, hcut]
      rfl

/-- Uncut texts with a separator behind each are the first pieces, and an uncut text behind them
begins the next one. -/
theorem exists_text_pieces {separator : Char} {texts : List (List Char)}
    (h : ∀ text ∈ texts, Whole separator text) {whole : List Char} (hwhole : Whole separator whole)
    (rest : List Char) : ∃ after more,
      (pieces separator (texts.flatMap (· ++ [separator]) ++ (whole ++ rest))).map Piece.text =
        texts ++ (whole ++ after) :: more := by
  obtain ⟨after, more, hcut⟩ := exists_text_cut h hwhole rest 0
  exact ⟨after, more, by rw [pieces, List.map_cons, hcut]⟩

/-- A text among others with separators between them has a separator behind each one before it. -/
theorem exists_intercalate (separator : Char) (texts : List (List Char)) (text : List Char)
    (more : List (List Char)) : ∃ rest, [separator].intercalate (texts ++ text :: more) =
      texts.flatMap (· ++ [separator]) ++ (text ++ rest) := by
  induction texts with
  | nil =>
      cases more with
      | nil => exact ⟨[], by simp⟩
      | cons second more =>
          exact ⟨_, by rw [List.nil_append, List.intercalate_cons_cons, List.append_assoc]; rfl⟩
  | cons first texts ih =>
      obtain ⟨rest, hrest⟩ := ih
      refine ⟨rest, ?_⟩
      obtain ⟨second, others, hsplit⟩ : ∃ second others, texts ++ text :: more = second :: others :=
        List.exists_cons_of_ne_nil (by simp)
      rw [List.cons_append, hsplit, List.intercalate_cons_cons, ← hsplit, hrest]
      simp

/-- A character before the first of several texts stands before them all. -/
theorem intercalate_goOn (separator c : Char) (first : List Char) (more : List (List Char)) :
    [separator].intercalate ((c :: first) :: more) =
      c :: [separator].intercalate (first :: more) := by
  cases more with
  | nil => rw [List.intercalate_singleton, List.intercalate_singleton]
  | cons second more =>
      rw [List.intercalate_cons_cons, List.intercalate_cons_cons, List.append_assoc,
        List.append_assoc, List.cons_append]

/-- What is cut off a text and the separators between it make the text. -/
theorem intercalate_cut (separator : Char) (state : Quotation) (i : Nat) (text : List Char) :
    [separator].intercalate ((cut separator state i text).1 ::
      (cut separator state i text).2.map Piece.text) = text := by
  induction text generalizing state i with
  | nil => rfl
  | cons c rest ih =>
      by_cases hc : state = .outside ∧ c = separator
      · rw [cut, if_pos hc]
        dsimp only
        rw [List.map_cons, List.intercalate_cons_cons, ih, hc.2]
        rfl
      · rw [cut_cons hc]
        have hrest := ih (state.next c) (i + 1)
        exact (intercalate_goOn separator c _ _).trans (congrArg (c :: ·) hrest)

/-- The pieces of a text and the separators between them make the text. -/
theorem intercalate_pieces (separator : Char) (text : List Char) :
    [separator].intercalate ((pieces separator text).map Piece.text) = text :=
  intercalate_cut separator .outside 0 text

/-- An uncut text is one piece. -/
theorem pieces_of_whole {separator : Char} {text : List Char} (h : Whole separator text) :
    pieces separator text = [⟨0, text⟩] := by
  rw [pieces, cut_last h]

/-! ## Where the pieces stand -/

/-- A piece of what is cut begins behind the pieces before it and the separators behind these. -/
theorem start_of_cut {separator : Char} {state : Quotation} {i : Nat} {text : List Char}
    {before after : List Piece} {piece : Piece}
    (h : ⟨i, (cut separator state i text).1⟩ :: (cut separator state i text).2 =
      before ++ piece :: after) :
    piece.start = i + ((before.map Piece.text).flatMap (· ++ [separator])).length := by
  fun_induction cut separator state i text generalizing before with
  | case1 state i =>
      cases before with
      | nil => cases h; rfl
      | cons first others => cases others <;> cases h
  | case2 state i c rest hc first more hcut ih =>
      rw [hcut] at ih
      cases before with
      | nil => cases h; rfl
      | cons front others =>
          obtain ⟨rfl, hmore⟩ := List.cons.inj h
          rw [ih hmore, List.map_cons, List.flatMap_cons, List.length_append]
          exact Nat.add_assoc i 1 _
  | case3 state i c rest hc first more hcut ih =>
      rw [hcut] at ih
      cases before with
      | nil => cases h; rfl
      | cons front others =>
          obtain ⟨rfl, hmore⟩ := List.cons.inj h
          -- The piece that the text goes on is one character longer, and begins one earlier.
          have hshort : ⟨i + 1, first⟩ :: more = (⟨i + 1, first⟩ :: others) ++ piece :: after :=
            congrArg (_ :: ·) hmore
          rw [ih hshort]
          simp only [List.map_cons, List.flatMap_cons, List.length_append, List.length_cons]
          omega

/-- A piece behind the first begins behind a separator. -/
theorem lt_start_of_mem_cut {separator : Char} {state : Quotation} {i : Nat} {text : List Char}
    {piece : Piece} (h : piece ∈ (cut separator state i text).2) : i < piece.start := by
  obtain ⟨before, after, hmore⟩ := List.append_of_mem h
  have hall : ⟨i, (cut separator state i text).1⟩ :: (cut separator state i text).2 =
      (⟨i, (cut separator state i text).1⟩ :: before) ++ piece :: after :=
    congrArg (_ :: ·) hmore
  rw [start_of_cut hall, List.map_cons, List.flatMap_cons, List.length_append, List.length_append,
    List.length_singleton]
  omega

/-- Before a piece of a text stand the pieces before it, with a separator behind each, and nothing
else. -/
theorem exists_of_pieces_eq {separator : Char} {text : List Char} {before after : List Piece}
    {piece : Piece} (h : pieces separator text = before ++ piece :: after) : ∃ rest,
      text = (before.map Piece.text).flatMap (· ++ [separator]) ++ (piece.text ++ rest) ∧
        piece.start = ((before.map Piece.text).flatMap (· ++ [separator])).length := by
  obtain ⟨rest, hrest⟩ := exists_intercalate separator (before.map Piece.text) piece.text
    (after.map Piece.text)
  have htexts : (pieces separator text).map Piece.text =
      before.map Piece.text ++ piece.text :: after.map Piece.text := by
    rw [h, List.map_append, List.map_cons]
  refine ⟨rest, ?_, (start_of_cut h).trans (Nat.zero_add _)⟩
  rw [← hrest, ← htexts, intercalate_pieces]

/-- Each piece of a text stands where it begins. -/
theorem exists_of_mem_pieces {separator : Char} {text : List Char} {piece : Piece}
    (h : piece ∈ pieces separator text) :
    ∃ before after, text = before ++ (piece.text ++ after) ∧ piece.start = before.length := by
  obtain ⟨before, after, hpieces⟩ := List.append_of_mem h
  obtain ⟨rest, htext, hstart⟩ := exists_of_pieces_eq hpieces
  exact ⟨_, rest, htext, hstart⟩

end PathQuery.Text
