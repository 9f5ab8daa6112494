import PathQuery.Proofs.Expression.Position
import PathQuery.Query

/-!
# Faults are placed within the expression

The place of a fault is a sum: the characters before a group and its opening bracket, the place of
the piece or of the condition that cannot be read, and how far that was read. No text cuts off such
a sum that ends before it, so that it stays within the expression has to be shown for each of them.
`Offset` lists the sums that are counted in the contents of a group, and `Placed` those of a whole
expression. Every fault has one (`placed_of_readExpression`), because what a fault is met in front
of is always an end of the text that was being read (`Fault.MetIn`); and it is less than the number
of characters, since a group ends with its closing bracket (`Placed.lt`).
-/

namespace PathQuery

open Text Text.Quoted

namespace Expression

section
variable {text : List Char} {f : Fault}

/-- A fault is met within a text: in front of an end of it, with nothing counted on from there. -/
structure Fault.MetIn (f : Fault) (text : List Char) : Prop where
  ahead : f.ahead <:+ text
  beyond : f.beyond = 0

/-- What is met within an end of a text is met within the text. -/
theorem Fault.MetIn.trans {inner : List Char} (h : f.MetIn inner) (hsuffix : inner <:+ text) :
    f.MetIn text := ⟨h.ahead.trans hsuffix, h.beyond⟩

/-- What is met in front of a text is met within it. -/
theorem Fault.metIn_met (cause : Cause) (text : List Char) : (Fault.met cause text).MetIn text :=
  ⟨List.suffix_refl text, rfl⟩

/-- What is met in front of an end of a text is met within it. -/
theorem Fault.metIn_of_suffix {inner : List Char} (cause : Cause) (h : inner <:+ text) :
    (Fault.met cause inner).MetIn text := ⟨h, rfl⟩

/-! ## Conditions -/

/-- A text ends in what is left of it without the blanks in front. -/
theorem skipBlanks_suffix (text : List Char) : skipBlanks text <:+ text :=
  List.dropWhile_suffix isBlank

/-- A quoted text that cannot be read is at fault from its opening quote on. -/
theorem eq_of_readQuoted {quote : Char} (h : readQuoted quote text = .error f) :
    f = .met f.cause (quote :: text) := by
  unfold readQuoted at h
  split at h <;> cases h
  rfl

/-- The same as a fault within the text from its opening quote on. -/
theorem metIn_of_readQuoted {quote : Char} (h : readQuoted quote text = .error f) :
    f.MetIn (quote :: text) := by
  rw [eq_of_readQuoted h]
  exact Fault.metIn_met _ _

/-- A name is at fault where it should begin. -/
theorem metIn_of_readPathName (h : readPathName text = .error f) : f.MetIn text := by
  unfold readPathName at h
  dsimp only at h
  split at h <;> cases h
  exact Fault.metIn_met _ _

/-- A key is at fault within the text that it is read from. -/
theorem metIn_of_readPathKey (h : readPathKey text = .error f) : f.MetIn text := by
  unfold readPathKey at h
  split at h
  · cases h
    exact Fault.metIn_met _ _
  rename_i c rest
  split at h
  · exact metIn_of_readQuoted (map_eq_error h)
  dsimp only at h
  split at h
  · split at h <;> cases h
    exact Fault.metIn_of_suffix _ (List.dropWhile_suffix isPositionChar)
  · cases h
    exact Fault.metIn_met _ _

/-- A key in brackets is at fault within the text that it is read from. -/
theorem metIn_of_readPathBracket (h : readPathBracket text = .error f) : f.MetIn text := by
  unfold readPathBracket at h
  split at h
  · rename_i hkey
    cases h
    exact (metIn_of_readPathKey hkey).trans (skipBlanks_suffix text)
  rename_i key rest hkey
  split at h
  · cases h
  · cases h
    obtain ⟨k, -, htext, -⟩ := InnerForm.exists_of_readPathKey hkey
    have hrest : rest <:+ skipBlanks text := htext ▸ List.suffix_append _ _
    exact Fault.metIn_of_suffix _
      (((skipBlanks_suffix rest).trans hrest).trans (skipBlanks_suffix text))

/-- A path is at fault within the text that it is read from. -/
theorem metIn_of_readPath (h : readPath text = .error f) : f.MetIn text := by
  fun_induction readPath text with
  | case1 text g hname =>
      cases h
      exact (metIn_of_readPathName hname).trans (List.suffix_cons '.' text)
  | case2 text key rest hname ih =>
      obtain ⟨k, -, htext, -⟩ := KeyForm.exists_of_readPathName hname
      rw [htext]
      exact (ih (map_eq_error h)).trans (List.suffix_append _ rest)
  | case3 text g hbracket =>
      cases h
      exact (metIn_of_readPathBracket hbracket).trans (List.suffix_cons '[' text)
  | case4 text key rest hbracket ih =>
      obtain ⟨k, -, htext, -⟩ := KeyForm.exists_of_readPathBracket hbracket
      rw [htext]
      exact (ih (map_eq_error h)).trans (List.suffix_append _ rest)
  | case5 => cases h

/-- A sign is at fault where it should begin. -/
theorem metIn_of_readComparison (h : readComparison text = .error f) : f.MetIn text := by
  unfold readComparison at h
  split at h <;> cases h
  exact Fault.metIn_met _ _

/-- A literal is at fault within the text that it is read from. -/
theorem metIn_of_readLiteral (h : readLiteral text = .error f) : f.MetIn text := by
  unfold readLiteral at h
  split at h
  · cases h
    exact Fault.metIn_met _ _
  rename_i c rest
  split at h
  · exact metIn_of_readQuoted (map_eq_error h)
  dsimp only at h
  split at h
  · split at h <;> cases h
    exact Fault.metIn_of_suffix _ (List.dropWhile_suffix isNumberChar)
  split at h
  · split at h <;> cases h
    exact Fault.metIn_of_suffix _ (List.dropWhile_suffix isWordChar)
  · cases h
    exact Fault.metIn_met _ _

/-- A comparison is at fault within the text that it is read from. -/
theorem metIn_of_readComparing {path : List Key} (h : readComparing path text = .error f) :
    f.MetIn text := by
  unfold readComparing at h
  split at h
  · rename_i hsign
    cases h
    exact metIn_of_readComparison hsign
  rename_i op rest hsign
  obtain ⟨sign, -, rfl⟩ := exists_of_readComparison hsign
  refine Fault.MetIn.trans ?_ (List.suffix_append sign rest)
  split at h
  · rename_i hliteral
    cases h
    exact (metIn_of_readLiteral hliteral).trans (skipBlanks_suffix rest)
  rename_i literal left hliteral
  obtain ⟨l, -, hskip, -⟩ := LiteralForm.exists_of_readLiteral hliteral
  have hleft : left <:+ skipBlanks rest := hskip ▸ List.suffix_append _ _
  split at h
  · cases h
  · rename_i c more hafter
    cases h
    exact Fault.metIn_of_suffix _
      (((hafter ▸ skipBlanks_suffix left).trans hleft).trans (skipBlanks_suffix rest))

/-- A condition is at fault within the text that it is read from. -/
theorem metIn_of_readCondition (h : readCondition text = .error f) : f.MetIn text := by
  refine Fault.MetIn.trans ?_ (skipBlanks_suffix text)
  unfold readCondition at h
  split at h
  · rename_i rest hat
    rw [hat]
    refine Fault.MetIn.trans ?_ (List.suffix_cons '@' rest)
    split at h
    · rename_i hpath
      cases h
      exact metIn_of_readPath hpath
    rename_i path left hpath
    obtain ⟨keys, -, rfl, -⟩ := exists_of_pathRead (pathRead_of_readPath hpath)
    refine Fault.MetIn.trans ?_ (List.suffix_append (pathText keys) left)
    split at h
    · cases h
    · exact (metIn_of_readComparing h).trans (skipBlanks_suffix left)
  · cases h
    exact Fault.metIn_met _ _

/-! ## Groups -/

/-- A fault in the contents of a group, and the number of characters that is counted from the
beginning of the contents to its place. -/
inductive Offset (contents : List Char) : Fault → Nat → Prop
  /-- The contents as a whole are at fault. -/
  | whole (cause : Cause) : Offset contents (.met cause contents) 0
  /-- In the condition of a filter is counted as if it were all of the contents. -/
  | filter {rest before ahead : List Char} {cause : Cause} (hcontents : contents = '?' :: rest)
    (hinner : unwrap? (trim rest) = some (before ++ ahead) ∨ before ++ ahead = trim rest)
    (hread : readCondition (before ++ ahead) = .error (.met cause ahead)) :
    Offset contents ((Fault.met cause ahead).carry (before ++ ahead) contents) before.length
  /-- A piece is at fault. -/
  | piece {separator : Char} {piece : Piece} (hpiece : piece ∈ pieces separator contents)
    (cause : Cause) : Offset contents (pieceFault contents piece cause) piece.start
  /-- Something stands behind the quoted text in a piece. -/
  | afterQuote {piece : Piece} {quoted after : List Char} (hpiece : piece ∈ pieces ',' contents)
    (hquoted : trim piece.text = quoted ++ after) :
    Offset contents ⟨.afterQuote, contents, piece.start + quoted.length⟩
      (piece.start + quoted.length)

/-- What is taken off the ends of a text makes it no longer. -/
theorem length_trim (text : List Char) : (trim text).length ≤ text.length := by
  obtain ⟨before, after, -, -, htext, -⟩ := exists_trim text
  have hlength := congrArg List.length htext
  rw [List.length_append, List.length_append] at hlength
  omega

/-- The condition of a filter is shorter than the contents that it stands in. -/
theorem length_condition {rest inner : List Char}
    (hinner : unwrap? (trim rest) = some inner ∨ inner = trim rest) :
    inner.length ≤ rest.length := by
  refine Nat.le_trans ?_ (length_trim rest)
  rcases hinner with hunwrap | rfl
  · rw [eq_of_unwrap? hunwrap]
    simp only [List.length_cons, List.length_append]
    omega
  · exact Nat.le_refl _

/-- A piece ends within the text that it is cut from. -/
theorem start_add_length_le {separator : Char} {piece : Piece}
    (h : piece ∈ pieces separator text) : piece.start + piece.text.length ≤ text.length := by
  obtain ⟨before, after, htext, hstart⟩ := exists_of_mem_pieces h
  have hlength := congrArg List.length htext
  rw [List.length_append, List.length_append] at hlength
  omega

/-- No place in the contents of a group lies behind their end. -/
theorem Offset.le {n : Nat} (h : Offset text f n) : n ≤ text.length := by
  cases h with
  | whole => exact Nat.zero_le _
  | filter hcontents hinner =>
      have hlength := length_condition hinner
      rw [List.length_append] at hlength
      rw [hcontents, List.length_cons]
      omega
  | piece hpiece =>
      have := start_add_length_le hpiece
      omega
  | @afterQuote piece quoted after hpiece hquoted =>
      have hlength := congrArg List.length hquoted
      have hend := start_add_length_le hpiece
      have htrim := length_trim piece.text
      rw [List.length_append] at hlength
      omega

/-- What is counted is the place of the fault. -/
theorem Offset.position_eq {n : Nat} (h : Offset text f n) : f.position text = n := by
  cases h with
  | whole cause => exact position_at text cause 0
  | @filter rest before ahead cause =>
      rw [Fault.carry, position_at]
      exact position_met before ahead cause
  | @piece separator piece hpiece cause => exact position_at text cause piece.start
  | afterQuote => exact position_at text _ _

/-- A filter is at fault where its condition is. -/
theorem offset_of_readFilter {rest : List Char} (h : readFilter ('?' :: rest) rest = .error f) :
    ∃ n, Offset ('?' :: rest) f n := by
  unfold readFilter at h
  dsimp only at h
  split at h
  · rename_i g hread
    cases h
    obtain ⟨cause, ahead, beyond⟩ := g
    obtain ⟨⟨before, hbefore⟩, hbeyond⟩ := metIn_of_readCondition hread
    dsimp only at hbefore hbeyond
    subst hbeyond
    rw [← hbefore] at hread ⊢
    refine ⟨_, .filter rfl ?_ hread⟩
    rw [hbefore]
    cases unwrap? (trim rest) with
    | none => exact .inr rfl
    | some inner => exact .inl rfl
  · cases h

/-- A script is at fault as a whole. -/
theorem offset_of_readScript (h : readScript text = .error f) : ∃ n, Offset text f n := by
  unfold readScript at h
  split at h
  · cases h
    exact ⟨_, .whole _⟩
  split at h <;> cases h
  exact ⟨_, .whole _⟩

/-- A slice is at fault as a whole or in one of its pieces. -/
theorem offset_of_readSlice (h : readSlice text (pieces ':' text) = .error f) :
    ∃ n, Offset text f n := by
  unfold readSlice at h
  split at h
  · cases h
    exact ⟨_, .whole _⟩
  split at h
  · rename_i hbounds
    cases h
    obtain ⟨piece, hpiece, hread⟩ := exists_of_mapM_error hbounds
    unfold readBound at hread
    split at hread
    · cases hread
    · rw [eq_of_readPieceInt64 (map_eq_error hread)]
      exact ⟨_, .piece hpiece _⟩
  · unfold checkSlice at h
    split at h
    · cases h
    split at h <;> cases h
    exact ⟨_, .whole _⟩

/-- A list is at fault in one of its pieces, at the beginning or behind a quoted text. -/
theorem offset_of_readKeys (h : readKeys text = .error f) : ∃ n, Offset text f n := by
  obtain ⟨piece, hpiece, hread⟩ := exists_of_mapM_error (map_eq_error h)
  unfold readKey at hread
  cases htrim : trim piece.text with
  | nil =>
      rw [htrim, readKeyText] at hread
      cases hread
      exact ⟨_, .piece hpiece _⟩
  | cons c rest =>
      rw [htrim, readKeyText] at hread
      split at hread
      · split at hread
        · cases hread
          exact ⟨_, .piece hpiece _⟩
        · cases hread
        · rename_i value after _ hquoted
          cases hread
          obtain ⟨body, -, rfl⟩ := body_of_read hquoted
          have hlength : (body ++ c :: after).length + 1 - after.length =
              (c :: (body ++ [c])).length := by
            simp only [List.length_append, List.length_cons, List.length_nil]
            omega
          rw [hlength]
          have htext : trim piece.text = (c :: (body ++ [c])) ++ after := by
            rw [htrim]
            simp
          exact ⟨_, .afterQuote hpiece htext⟩
      split at hread
      · rw [eq_of_readPieceInt64 (map_eq_error hread)]
        exact ⟨_, .piece hpiece _⟩
      split at hread <;> cases hread
      exact ⟨_, .piece hpiece _⟩

/-- A fault in the contents of a group is placed in one of these ways. -/
theorem offset_of_readGroup (h : readGroup text = .error f) : ∃ n, Offset text f n := by
  unfold readGroup at h
  split at h
  · cases h
    exact ⟨_, .whole _⟩
  · exact offset_of_readFilter h
  · exact offset_of_readScript h
  · cases h
  dsimp only at h
  split at h
  · exact offset_of_readSlice h
  · exact offset_of_readKeys h

/-! ## Expressions -/

/-- A fault in an expression, and the number of characters that is counted to its place. -/
inductive Placed : List Char → Fault → Nat → Prop
  /-- A fault is met in front of a character. -/
  | here (front : List Char) (cause : Cause) (c : Char) (rest : List Char) :
    Placed (front ++ c :: rest) (.met cause (c :: rest)) front.length
  /-- In the contents of a group without the blanks at their ends is counted from behind the opening
  bracket. -/
  | group (front : List Char) {inner : List Char} (after : List Char) {g : Fault} {n : Nat}
    (hread : readGroup (trim inner) = .error g) (hoffset : Offset (trim inner) g n) :
    Placed (front ++ '[' :: (inner ++ ']' :: after)) (g.carry (trim inner) (inner ++ ']' :: after))
      (front.length + 1 + n)

/-- The place of a fault lies in front of a character of the expression. -/
theorem Placed.lt {n : Nat} (h : Placed text f n) : n < text.length := by
  cases h with
  | here front cause c rest =>
      rw [List.length_append, List.length_cons]
      omega
  | @group front inner after g n hread hoffset =>
      have hle := hoffset.le
      have htrim := length_trim inner
      simp only [List.length_append, List.length_cons]
      omega

/-- What is counted is the place of the fault. -/
theorem Placed.position_eq {n : Nat} (h : Placed text f n) : f.position text = n := by
  cases h with
  | here front cause c rest => exact position_met front (c :: rest) cause
  | group front after hread hoffset => rw [position_carry_bracket, hoffset.position_eq]

/-- A fault in a text has a place behind another text. -/
theorem Placed.append {n : Nat} (h : Placed text f n) (before : List Char) :
    ∃ m, Placed (before ++ text) f m := by
  cases h with
  | here front cause c rest =>
      rw [← List.append_assoc]
      exact ⟨_, .here _ cause c rest⟩
  | group front after hread hoffset =>
      rw [← List.append_assoc]
      exact ⟨_, .group _ after hread hoffset⟩

/-- What does not close is at fault itself, or something in it is. -/
theorem placed_of_closing {group : List Char} {depth : Nat}
    (h : closing group depth text = .error f) :
    f = .met f.cause group ∨ ∃ n, Placed text f n := by
  fun_induction closing group depth text with
  | case1 =>
      cases h
      exact .inl rfl
  | case2 depth c rest hquote g hread =>
      cases h
      rw [eq_of_readQuoted hread]
      exact .inr ⟨_, .here [] _ c rest⟩
  | case3 depth c rest hquote value after hread ih =>
      obtain ⟨body, -, rfl⟩ := (readQuoted_eq_ok_iff hquote).1 hread
      rcases ih h with hgroup | ⟨n, hplaced⟩
      · exact .inl hgroup
      · have hbehind := hplaced.append (c :: (body ++ [c]))
        exact .inr (by simpa using hbehind)
  | case5 =>
      cases h
      exact .inr ⟨_, .here [] _ _ _⟩
  | case7 => cases h
  | case4 | case6 | case8 | case9 =>
      rename_i ih
      rcases ih h with hgroup | ⟨n, hplaced⟩
      · exact .inl hgroup
      · exact .inr (hplaced.append [_])

/-- A group that cannot be read is at fault itself, or something in it is. -/
theorem placed_of_readBracket (h : readBracket text = .error f) :
    ∃ n, Placed ('[' :: text) f n := by
  cases hclosing : closing ('[' :: text) 0 text with
  | error g =>
      rw [readBracket, hclosing] at h
      cases h
      rcases placed_of_closing hclosing with hgroup | ⟨n, hplaced⟩
      · rw [hgroup]
        exact ⟨_, .here [] _ '[' text⟩
      · exact hplaced.append ['[']
  | ok after =>
      obtain ⟨inner, hinner, rfl⟩ := closing_eq_ok_iff.1 hclosing
      rw [readBracket_append hinner] at h
      split at h
      · rename_i hgroup
        cases h
        obtain ⟨n, hoffset⟩ := offset_of_readGroup hgroup
        exact ⟨_, .group [] after hgroup hoffset⟩
      · cases h

/-- What a dot begins is at fault at that dot. -/
theorem placed_of_readDot (h : readDot text = .error f) : ∃ n, Placed ('.' :: text) f n := by
  unfold readDot at h
  split at h
  · cases h
    exact ⟨_, .here [] _ _ _⟩
  · cases h
  · cases h
  · dsimp only at h
    split at h <;> cases h
    exact ⟨_, .here [] _ _ _⟩

/-- A selector that cannot be read is at fault somewhere from its first character on. -/
theorem placed_of_readSelector {c : Char} (h : readSelector c text = .error f) :
    ∃ n, Placed (c :: text) f n := by
  unfold readSelector at h
  split at h
  · rename_i hdot
    subst hdot
    exact placed_of_readDot h
  split at h
  · rename_i hbracket
    subst hbracket
    exact placed_of_readBracket h
  split at h
  · cases h
  split at h <;> cases h <;> exact ⟨_, .here [] _ c text⟩

/-- Selectors that cannot be read are at fault where one of them is. -/
theorem placed_of_readSelectors (h : readSelectors text = .error f) : ∃ n, Placed text f n := by
  fun_induction readSelectors text with
  | case1 => cases h
  | case2 c rest hc ih =>
      obtain ⟨n, hplaced⟩ := ih h
      exact hplaced.append [c]
  | case3 c rest hc g hread =>
      cases h
      exact placed_of_readSelector hread
  | case4 c rest hc s left hread ih =>
      obtain ⟨seg, -, htext⟩ := segment_of_readSelector hread
      obtain ⟨n, hplaced⟩ := ih (map_eq_error h)
      rw [htext]
      exact hplaced.append seg

/-- Every fault in an expression has a place. -/
theorem placed_of_readExpression (h : readExpression text = .error f) : ∃ n, Placed text f n := by
  obtain ⟨blanks, -, htext, -⟩ := exists_skipBlanks text
  rw [readExpression] at h
  rw [htext]
  generalize skipBlanks text = core at h ⊢
  suffices hcore : ∃ n, Placed core f n from hcore.elim fun n hplaced => hplaced.append blanks
  unfold readStart at h
  split at h
  · cases h
  rename_i c rest
  split at h
  · obtain ⟨n, hplaced⟩ := placed_of_readSelectors (map_eq_error h)
    exact hplaced.append [c]
  split at h
  · cases h
    exact ⟨_, .here [] _ c rest⟩
  split at h
  · obtain ⟨n, hplaced⟩ := placed_of_readSelectors (map_eq_error h)
    have := hplaced.append ((c :: rest).takeWhile isNameChar)
    rwa [List.takeWhile_append_dropWhile] at this
  · exact placed_of_readSelectors h

end

end Expression

/-- An expression that cannot be read is malformed, and the error has a position: the sum that is
counted to the fault, which is less than the number of characters of the expression. -/
theorem Query.readSelectors_error {expression : String} {e : Error}
    (h : Query.readSelectors expression = .error e) : e.kind = "syntax" ∧
      ∃ f position, Expression.readExpression expression.toList = .error f ∧
        Expression.Placed expression.toList f position ∧
        e = .malformed expression f.cause.reason (some position) ∧
        position < expression.length := by
  rw [Query.readSelectors] at h
  cases hread : Expression.readExpression expression.toList with
  | ok selectors =>
      rw [hread] at h
      cases h
  | error f =>
      rw [hread] at h
      cases h
      obtain ⟨n, hplaced⟩ := Expression.placed_of_readExpression hread
      have hlt := hplaced.lt
      rw [String.length_toList] at hlt
      refine ⟨rfl, f, n, rfl, hplaced, ?_, hlt⟩
      rw [malformed, hplaced.position_eq]

/-- An empty key is found in front of the bracket that closes its list, which here is the last
character: two characters of the contents are counted on from behind the opening bracket. -/
theorem Query.readSelectors_error_last :
    Query.readSelectors "[1,]" =
        .error (.malformed "[1,]" "empty key in bracket list" (some 3)) ∧
      Expression.Placed "[1,]".toList ⟨.emptyKey, "1,]".toList, 2⟩ 3 ∧ 3 < "[1,]".length := by
  have hread : Query.readSelectors "[1,]" =
      .error (.malformed "[1,]" "empty key in bracket list" (some 3)) := by
    decide +kernel
  have hfault : Expression.readExpression "[1,]".toList =
      .error ⟨.emptyKey, "1,]".toList, 2⟩ := by decide +kernel
  obtain ⟨-, f, position, hf, hplaced, herror, hlt⟩ := Query.readSelectors_error hread
  obtain rfl := Except.error.inj (hfault.symm.trans hf)
  injection herror with _ _ hposition
  obtain rfl := Option.some.inj hposition
  exact ⟨hread, hplaced, hlt⟩

end PathQuery
