import PathQuery.Proofs.Expression.Misread
import PathQuery.Proofs.Expression.Numeral
import PathQuery.Proofs.Expression.Spelling

/-!
# One integer in brackets

A position and the start of a slice are read by the same reader of integers, but a position is told
from a name by its first character before that: only a digit or a minus sign begins one.
`readExpression_integer` says what this makes of a text in brackets, alone and with a colon behind
it: the same integer is read either way, unless the text begins with a plus sign. Then the text
alone is a name, and only with the colon is it an integer.
-/

namespace PathQuery.Expression

open Text Text.Quoted

/-- A character that stands for itself between brackets: it is no blank, and nothing opens, closes
or ends with it. -/
structure Ordinary (c : Char) : Prop where
  inert : Inert c
  solid : isBlank c = false
  comma : c ≠ ','
  colon : c ≠ ':'

instance (c : Char) : Decidable (Ordinary c) :=
  decidable_of_iff (Inert c ∧ isBlank c = false ∧ c ≠ ',' ∧ c ≠ ':')
    ⟨fun h => ⟨h.1, h.2.1, h.2.2.1, h.2.2.2⟩, fun h => ⟨h.inert, h.solid, h.comma, h.colon⟩⟩

/-! ## Integers and keys -/

/-- An integer begins with a sign of either kind or with a digit. -/
theorem exists_cons_of_readInt64? {text : List Char} {n : Int64} (h : readInt64? text = some n) :
    ∃ c more, text = c :: more ∧ (c = '+' ∨ startsNumber c = true) := by
  by_cases hplus : text.head? = some '+'
  · obtain ⟨more, rfl⟩ := List.head?_eq_some_iff.1 hplus
    exact ⟨'+', more, rfl, .inl rfl⟩
  · obtain ⟨f, hdigits, rfl⟩ := IntegerForm.exists_of_readInt64? h hplus
    obtain ⟨c, more, htext, hc⟩ := IntegerForm.exists_cons hdigits
    exact ⟨c, more, htext, .inr hc⟩

/-- What begins an integer begins no filter, script or star. -/
theorem ne_of_integerStart {c : Char} (hc : c = '+' ∨ startsNumber c = true) :
    c ≠ '?' ∧ c ≠ '(' ∧ c ≠ '*' := by
  rcases hc with rfl | hc
  · decide
  · exact ne_of_keyStart (.inr hc)

/-- A position is read from an integer that begins with a digit or a minus sign. -/
theorem readKeyText_eq_position_iff {text found : List Char} {piece : Piece} {n : Int64} :
    readKeyText text piece found = .ok (.position n) ↔
      readInt64? found = some n ∧ found.head? ≠ some '+' := by
  constructor
  · intro h
    unfold readKeyText at h
    split at h
    · cases h
    rename_i c rest
    split at h
    · split at h <;> cases h
    split at h
    · rename_i hc
      obtain ⟨i, hread, hi⟩ := map_eq_ok h
      cases hi
      unfold readPieceInt64 at hread
      split at hread
      · rename_i hint
        cases hread
        refine ⟨hint, ?_⟩
        rintro ⟨⟩
        cases hc
      · cases hread
    split at h <;> cases h
  · rintro ⟨hread, hplus⟩
    obtain ⟨c, more, rfl, hc⟩ := exists_cons_of_readInt64? hread
    exact readKeyText_position (hc.resolve_left fun he => hplus (he ▸ rfl)) hread text piece

/-- One key makes a selector of one position exactly if it is that position. -/
theorem ofKeys_eq_position_iff {key : Key} {n : Int64} :
    ofKeys [key] = .positions [n] ↔ key = .position n := by
  cases key with
  | name name => simp [ofKeys_name (List.mem_singleton.2 rfl)]
  | position i =>
      have hone : ofKeys [.position i] = .positions [i] := ofKeys_positions [i]
      simp [hone]

/-! ## Groups -/

section
variable {t : List Char} (ht : ∀ c ∈ t, Ordinary c)

include ht

/-- Ordinary characters are not cut at a comma or a colon. -/
theorem whole_ordinary {separator : Char} (hseparator : separator = ':' ∨ separator = ',') :
    Whole separator t := by
  refine .of_plain fun c hc => ⟨(ht c hc).inert.noQuote, ?_⟩
  rcases hseparator with rfl | rfl
  · exact (ht c hc).colon
  · exact (ht c hc).comma

/-- Ordinary characters have no blanks at their ends. -/
theorem trim_ordinary : trim t = t := (Tidy.of_forall fun c hc => (ht c hc).solid).trim_eq

/-- Ordinary characters are read as one key. -/
theorem readKeys_ordinary {key : Key} (h : readKeyText t ⟨0, t⟩ t = .ok key) :
    readKeys t = .ok (ofKeys [key]) := by
  have hkey : readKey t ⟨0, t⟩ = .ok key := by rw [readKey, trim_ordinary ht, h]
  rw [readKeys, pieces_of_whole (whole_ordinary ht (.inr rfl)), mapM_eq_ok_iff.2 (.cons hkey .nil)]
  rfl

/-- What begins as a key does and is not cut at a colon is read as a list of keys. -/
theorem readGroup_ordinary {c : Char} {more : List Char} (htext : t = c :: more)
    (hc : c = '+' ∨ startsNumber c = true) : readGroup t = readKeys t := by
  have hpieces := pieces_of_whole (whole_ordinary ht (.inl rfl))
  subst htext
  rw [readGroup_cons (ne_of_integerStart hc), hpieces, if_neg (by simp)]

/-- A position alone in brackets is an integer that begins with a digit or a minus sign. -/
theorem readGroup_eq_position_iff {n : Int64} :
    readGroup t = .ok (.positions [n]) ↔ readInt64? t = some n ∧ t.head? ≠ some '+' := by
  constructor
  · intro h
    have hcontents := contents_of_readGroup h
    generalize hs : Selector.positions [n] = s at hcontents
    cases hcontents with
    | star | slice | filter | script => cases hs
    | keys hkeys =>
        rw [pieces_of_whole (whole_ordinary ht (.inr rfl))] at hkeys
        obtain ⟨key, rest, hkey, hrest, rfl⟩ :=
          List.forall₂_cons_left_iff.1 (mapM_eq_ok_iff.1 hkeys)
        cases hrest
        cases ofKeys_eq_position_iff.1 hs.symm
        rw [readKey, trim_ordinary ht] at hkey
        exact readKeyText_eq_position_iff.1 hkey
  · rintro ⟨hread, hplus⟩
    obtain ⟨c, more, htext, hc⟩ := exists_cons_of_readInt64? hread
    rw [readGroup_ordinary ht htext hc,
      readKeys_ordinary ht (readKeyText_eq_position_iff.2 ⟨hread, hplus⟩),
      ofKeys_eq_position_iff.2 rfl]

/-- What begins with a plus sign is a name. -/
theorem readGroup_plus (hplus : t.head? = some '+') :
    readGroup t = .ok (.keys [.name (String.ofList t)]) := by
  obtain ⟨more, htext⟩ := List.head?_eq_some_iff.1 hplus
  have hkey : readKeyText t ⟨0, t⟩ t = .ok (.name (String.ofList t)) := by
    rw [htext]
    rfl
  rw [readGroup_ordinary ht htext (.inl rfl), readKeys_ordinary ht hkey,
    ofKeys_name (List.mem_singleton.2 rfl)]

/-- Ordinary characters and a colon are two pieces, of which the second is empty. -/
theorem pieces_colon : pieces ':' (t ++ [':']) = [⟨0, t⟩, ⟨t.length + 1, []⟩] := by
  rw [pieces, cut_separator (whole_ordinary ht (.inl rfl)), Nat.zero_add]
  rfl

/-- A bound without blanks is the integer that it is read as, of either sign. -/
theorem readBound_ordinary_iff {text : List Char} {n : Int64} :
    readBound text ⟨0, t⟩ = .ok (some n) ↔ readInt64? t = some n := by
  rw [readBound, trim_ordinary ht]
  constructor
  · intro h
    split at h
    · cases h
    · obtain ⟨i, hread, hi⟩ := map_eq_ok h
      cases hi
      unfold readPieceInt64 at hread
      split at hread
      · rename_i hint
        cases hread
        exact hint
      · cases hread
  · intro hread
    obtain ⟨c, more, rfl, -⟩ := exists_cons_of_readInt64? hread
    dsimp only
    rw [readPieceInt64, hread]
    rfl

/-- A start alone in brackets is an integer with a sign of either kind. -/
theorem readGroup_eq_start_iff {n : Int64} :
    readGroup (t ++ [':']) = .ok (.slice ⟨some n, none, none⟩) ↔ readInt64? t = some n := by
  constructor
  · intro h
    have hcontents := contents_of_readGroup h
    generalize hs : Selector.slice ⟨some n, none, none⟩ = s at hcontents
    generalize htext : t ++ [':'] = text at hcontents
    cases hcontents with
    | star | filter | script => cases hs
    | keys hkeys =>
        unfold ofKeys at hs
        split at hs <;> cases hs
    | slice _ _ hbounds _ =>
        rw [← htext, pieces_colon ht] at hbounds
        obtain ⟨bound, rest, hbound, -, rfl⟩ :=
          List.forall₂_cons_left_iff.1 (mapM_eq_ok_iff.1 hbounds)
        obtain rfl : some n = bound := congrArg Slice.start (Selector.slice.inj hs)
        exact (readBound_ordinary_iff ht).1 hbound
  · intro hread
    obtain ⟨c, more, rfl, hc⟩ := exists_cons_of_readInt64? hread
    have hpieces := pieces_colon ht
    have hbounds := mapM_eq_ok_iff.2 (.cons ((readBound_ordinary_iff ht).2 hread)
      (.cons (show readBound (c :: more ++ [':']) ⟨(c :: more).length + 1, []⟩ = .ok none from rfl)
        .nil))
    rw [← hpieces] at hbounds
    rw [List.cons_append] at hpieces hbounds ⊢
    rw [readGroup_cons (ne_of_integerStart hc), if_pos (by rw [hpieces]; simp), readSlice,
      if_neg (by rw [hpieces]; simp), hbounds]
    rfl

end

/-! ## Expressions -/

/-- Behind the sign of the root one group is read as its contents are. -/
theorem readExpression_root_group_iff {inner : List Char} (h : Scans 0 inner 0) {s : Selector} :
    readExpression ('$' :: '[' :: (inner ++ [']'])) = .ok [.root, s] ↔
      readGroup (trim inner) = .ok s := by
  rw [readExpression_root]
  constructor
  · intro hread
    obtain ⟨ss, hss, hroot⟩ := map_eq_ok hread
    obtain rfl := (List.cons.inj hroot).2
    obtain ⟨_, others, left, more, hs, -, -, hleft, hgroup⟩ := exists_of_readSelectors_bracket h hss
    cases hs
    obtain ⟨rfl, -⟩ : left = [] ∧ ']' :: more = [']'] := by
      rcases List.append_eq_singleton_iff.1 hleft.symm with hboth | ⟨-, hnil⟩
      · exact hboth
      · cases hnil
    rwa [List.append_nil] at hgroup
  · intro hgroup
    have hsegment : Segment ('[' :: inner ++ [']']) s [] := .group h hgroup
    have hread := readSelectors_segment hsegment
    rw [List.append_nil, readSelectors] at hread
    rw [← List.cons_append, hread]
    rfl

/-- A text alone in brackets is read as a position exactly if it is read with a colon behind it as
the start of a slice and begins with no plus sign; and with the colon it is an integer of 64 bits
with a sign of either kind or without one. What begins with a plus sign is a name where it is
alone. -/
theorem readExpression_integer {t : List Char} (ht : ∀ c ∈ t, Ordinary c) (n : Int64) :
    (readExpression ('$' :: '[' :: (t ++ [']'])) = .ok [.root, .positions [n]] ↔
      readExpression ('$' :: '[' :: (t ++ [':', ']'])) =
          .ok [.root, .slice ⟨some n, none, none⟩] ∧ t.head? ≠ some '+') ∧
      (readExpression ('$' :: '[' :: (t ++ [':', ']'])) =
        .ok [.root, .slice ⟨some n, none, none⟩] ↔ readInt64? t = some n) ∧
      (t.head? = some '+' → readExpression ('$' :: '[' :: (t ++ [']'])) =
        .ok [.root, .keys [.name (String.ofList t)]]) := by
  have halone : Scans 0 t 0 := .of_inert (fun c hc => (ht c hc).inert) 0
  have hcolon : Scans 0 (t ++ [':']) 0 := halone.append (.inert (by decide) (.nil 0))
  have htrim : trim (t ++ [':']) = t ++ [':'] := by
    refine (Tidy.of_forall fun c hc => ?_).trim_eq
    rcases List.mem_append.1 hc with hc | hc
    · exact (ht c hc).solid
    · rw [List.mem_singleton.1 hc]
      decide
  have hsplit : t ++ [':', ']'] = t ++ [':'] ++ [']'] := by simp
  rw [hsplit, readExpression_root_group_iff halone, readExpression_root_group_iff hcolon,
    readExpression_root_group_iff halone, trim_ordinary ht, htrim, readGroup_eq_position_iff ht,
    readGroup_eq_start_iff ht]
  exact ⟨Iff.rfl, Iff.rfl, readGroup_plus ht⟩

/-- With a plus sign a text is an integer in front of a colon and a name without it. -/
theorem readExpression_integer_plus :
    readExpression "$[+5:]".toList = .ok [.root, .slice ⟨some 5, none, none⟩] ∧
      readExpression "$[+5]".toList = .ok [.root, .keys [.name "+5"]] ∧
      readExpression "$[+5]".toList ≠ .ok [.root, .positions [5]] := by
  have ht : ∀ c ∈ ['+', '5'], Ordinary c := forall_mem_of_all (by decide +kernel)
  have hread : readInt64? ['+', '5'] = some 5 := by decide +kernel
  obtain ⟨hposition, hstart, hname⟩ := readExpression_integer ht 5
  refine ⟨hstart.2 hread, hname rfl, fun h => ?_⟩
  exact (hposition.1 h).2 rfl

end PathQuery.Expression
