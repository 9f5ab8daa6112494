import PathQuery.Proofs.Expression.Append
import PathQuery.Proofs.Expression.Contents
import PathQuery.Proofs.Expression.Grammar

/-!
# Why an expression cannot be read

Three causes show what stands in the expression: the character that begins no selector, the one
behind a literal, and a text in place of an integer. `ExpressionFault` says where each of them comes
from, and that every other fault shows nothing of the kind (`Cause.Mute`): a fault is met between
groups or in the contents of one, and there in the condition of a filter or in a piece of a slice or
a list (`GroupFault`).
-/

namespace PathQuery.Expression

open Text Text.Quoted

/-- The character that a cause shows. -/
def Cause.character? : Cause → Option Char
  | .unexpected c => some c
  | .afterLiteral c => some c
  | _ => none

/-- The text that a cause shows in place of an integer. -/
def Cause.found? : Cause → Option (List Char)
  | .integerExpected found => some found
  | _ => none

/-- A cause that shows neither a character nor a text in place of an integer. -/
structure Cause.Mute (cause : Cause) : Prop where
  character : cause.character? = none
  found : cause.found? = none

/-- Such a cause is none of the three that show something. -/
theorem Cause.Mute.ne {cause : Cause} (h : cause.Mute) : (∀ c, cause ≠ .unexpected c) ∧
    (∀ c, cause ≠ .afterLiteral c) ∧ ∀ found, cause ≠ .integerExpected found := by
  refine ⟨?_, ?_, ?_⟩ <;> rintro x rfl
  · cases h.character
  · cases h.character
  · cases h.found

section
variable {text : List Char} {f : Fault}

/-! ## Conditions -/

/-- A quoted text that cannot be read shows nothing. -/
theorem mute_of_readQuoted {quote : Char} (h : readQuoted quote text = .error f) :
    f.cause.Mute := by
  unfold readQuoted at h
  split at h <;> cases h
  exact ⟨rfl, rfl⟩

/-- A name that cannot be read shows nothing. -/
theorem mute_of_readPathName (h : readPathName text = .error f) : f.cause.Mute := by
  unfold readPathName at h
  dsimp only at h
  split at h <;> cases h
  exact ⟨rfl, rfl⟩

/-- A key that cannot be read shows no character. -/
theorem character?_of_readPathKey (h : readPathKey text = .error f) :
    f.cause.character? = none := by
  unfold readPathKey at h
  split at h
  · cases h
    rfl
  split at h
  · exact (mute_of_readQuoted (map_eq_error h)).character
  dsimp only at h
  split at h
  · split at h <;> cases h
    rfl
  · cases h
    rfl

/-- A key in brackets that cannot be read shows no character. -/
theorem character?_of_readPathBracket (h : readPathBracket text = .error f) :
    f.cause.character? = none := by
  unfold readPathBracket at h
  split at h
  · rename_i hkey
    cases h
    exact character?_of_readPathKey hkey
  · split at h <;> cases h
    rfl

/-- A path that cannot be read shows no character. -/
theorem character?_of_readPath (h : readPath text = .error f) : f.cause.character? = none := by
  fun_induction readPath text with
  | case1 text f' hname =>
      cases h
      exact (mute_of_readPathName hname).character
  | case2 text key rest hname ih => exact ih (map_eq_error h)
  | case3 text f' hbracket =>
      cases h
      exact character?_of_readPathBracket hbracket
  | case4 text key rest hbracket ih => exact ih (map_eq_error h)
  | case5 => cases h

/-- A sign that cannot be read shows no character. -/
theorem character?_of_readComparison (h : readComparison text = .error f) :
    f.cause.character? = none := by
  unfold readComparison at h
  split at h <;> cases h
  rfl

/-- A literal that cannot be read shows no character. -/
theorem character?_of_readLiteral (h : readLiteral text = .error f) :
    f.cause.character? = none := by
  unfold readLiteral at h
  split at h
  · cases h
    rfl
  split at h
  · exact (mute_of_readQuoted (map_eq_error h)).character
  dsimp only at h
  split at h
  · split at h <;> cases h
    rfl
  split at h
  · split at h <;> cases h
    rfl
  · cases h
    rfl

/-- A comparison that cannot be read shows no character but the one behind its literal. -/
theorem exists_of_readComparing_error {path : List Key} (h : readComparing path text = .error f) :
    f.cause.character? = none ∨
      ∃ front c rest, text = front ++ c :: rest ∧ f = .met (.afterLiteral c) (c :: rest) := by
  unfold readComparing at h
  split at h
  · rename_i hsign
    cases h
    exact .inl (character?_of_readComparison hsign)
  rename_i op rest hsign
  split at h
  · rename_i hliteral
    cases h
    exact .inl (character?_of_readLiteral hliteral)
  rename_i literal left hliteral
  split at h
  · cases h
  · rename_i c more hafter
    cases h
    obtain ⟨sign, -, rfl⟩ := exists_of_readComparison hsign
    obtain ⟨before, -, hrest, -⟩ := exists_skipBlanks rest
    obtain ⟨l, -, hskip, -⟩ := LiteralForm.exists_of_readLiteral hliteral
    obtain ⟨after, -, hleft, -⟩ := exists_skipBlanks left
    refine .inr ⟨sign ++ (before ++ (l.text ++ after)), c, more, ?_, rfl⟩
    rw [hrest, hskip, hleft, hafter]
    simp only [List.append_assoc]

/-- A condition that cannot be read shows no character but the one behind its literal. -/
theorem exists_of_readCondition_error (h : readCondition text = .error f) :
    f.cause.character? = none ∨
      ∃ front c rest, text = front ++ c :: rest ∧ f = .met (.afterLiteral c) (c :: rest) := by
  obtain ⟨blanks, -, htext, -⟩ := exists_skipBlanks text
  unfold readCondition at h
  split at h
  · rename_i behind hat
    split at h
    · rename_i hpath
      cases h
      exact .inl (character?_of_readPath hpath)
    rename_i path left hpath
    obtain ⟨keys, -, hbehind, -⟩ := exists_of_pathRead (pathRead_of_readPath hpath)
    obtain ⟨gap, -, hleft, -⟩ := exists_skipBlanks left
    split at h
    · cases h
    · refine (exists_of_readComparing_error h).imp_right ?_
      rintro ⟨front, c, rest, hskip, rfl⟩
      refine ⟨blanks ++ '@' :: (pathText keys ++ (gap ++ front)), c, rest, ?_, rfl⟩
      rw [htext, hat, hbehind, hleft, hskip]
      simp only [List.append_assoc, List.cons_append]
  · cases h
    exact .inl rfl

/-! ## Groups -/

/-- Why the contents of a group cannot be read. -/
inductive GroupFault (contents : List Char) : Fault → Prop
  | mute {f : Fault} (h : f.cause.Mute) : GroupFault contents f
  /-- The condition of a filter cannot be read. -/
  | filter {rest inner : List Char} {f : Fault} (hcontents : contents = '?' :: rest)
    (hinner : unwrap? (trim rest) = some inner ∨ inner = trim rest)
    (hread : readCondition inner = .error f) : GroupFault contents (f.carry inner contents)
  /-- A piece of a slice or a list is not the integer that it has to be. -/
  | piece {separator : Char} {piece : Piece} (hseparator : separator = ':' ∨ separator = ',')
    (hpiece : piece ∈ pieces separator contents) (hne : trim piece.text ≠ []) :
    GroupFault contents (pieceFault contents piece (.integerExpected (trim piece.text)))

/-- A filter cannot be read if its condition cannot. -/
theorem groupFault_of_readFilter {rest : List Char} (h : readFilter ('?' :: rest) rest = .error f) :
    GroupFault ('?' :: rest) f := by
  unfold readFilter at h
  dsimp only at h
  split at h
  · rename_i g hread
    cases h
    refine .filter rfl ?_ hread
    cases unwrap? (trim rest) with
    | none => exact .inr rfl
    | some inner => exact .inl rfl
  · cases h

/-- A script that cannot be read shows nothing. -/
theorem mute_of_readScript (h : readScript text = .error f) : f.cause.Mute := by
  unfold readScript at h
  split at h
  · cases h
    exact ⟨rfl, rfl⟩
  split at h <;> cases h
  exact ⟨rfl, rfl⟩

/-- What is no integer in a piece is shown as it stands there. -/
theorem eq_of_readPieceInt64 {piece : Piece} {found : List Char}
    (h : readPieceInt64 text piece found = .error f) :
    f = pieceFault text piece (.integerExpected found) := by
  unfold readPieceInt64 at h
  split at h <;> cases h
  rfl

/-- A slice that cannot be read shows nothing but a piece that is no integer. -/
theorem groupFault_of_readSlice (h : readSlice text (pieces ':' text) = .error f) :
    GroupFault text f := by
  unfold readSlice at h
  split at h
  · cases h
    exact .mute ⟨rfl, rfl⟩
  split at h
  · rename_i hbounds
    cases h
    obtain ⟨piece, hpiece, hread⟩ := exists_of_mapM_error hbounds
    unfold readBound at hread
    split at hread
    · cases hread
    · rename_i hne
      rw [eq_of_readPieceInt64 (map_eq_error hread)]
      exact .piece (.inl rfl) hpiece hne
  · unfold checkSlice at h
    split at h
    · cases h
    split at h <;> cases h
    exact .mute ⟨rfl, rfl⟩

/-- A list that cannot be read shows nothing but a piece that is no integer. -/
theorem groupFault_of_readKeys (h : readKeys text = .error f) : GroupFault text f := by
  obtain ⟨piece, hpiece, hread⟩ := exists_of_mapM_error (map_eq_error h)
  unfold readKey at hread
  cases htrim : trim piece.text with
  | nil =>
      rw [htrim, readKeyText] at hread
      cases hread
      exact .mute ⟨rfl, rfl⟩
  | cons c rest =>
      rw [htrim, readKeyText] at hread
      split at hread
      · split at hread <;> cases hread <;> exact .mute ⟨rfl, rfl⟩
      split at hread
      · rw [eq_of_readPieceInt64 (map_eq_error hread), ← htrim]
        exact .piece (.inr rfl) hpiece (by rw [htrim]; exact List.cons_ne_nil c rest)
      split at hread <;> cases hread
      exact .mute ⟨rfl, rfl⟩

/-- The contents of a group cannot be read for one of these reasons. -/
theorem groupFault_of_readGroup (h : readGroup text = .error f) : GroupFault text f := by
  unfold readGroup at h
  split at h
  · cases h
    exact .mute ⟨rfl, rfl⟩
  · exact groupFault_of_readFilter h
  · exact .mute (mute_of_readScript h)
  · cases h
  dsimp only at h
  split at h
  · exact groupFault_of_readSlice h
  · exact groupFault_of_readKeys h

/-! ## Expressions -/

/-- Why an expression cannot be read. -/
inductive ExpressionFault : List Char → Fault → Prop
  | mute {text : List Char} {f : Fault} (h : f.cause.Mute) : ExpressionFault text f
  /-- No selector begins with a character. -/
  | unexpected (front : List Char) (c : Char) (rest : List Char) :
    ExpressionFault (front ++ c :: rest) (.met (.unexpected c) (c :: rest))
  /-- The contents of a group cannot be read. -/
  | group (front : List Char) {inner : List Char} (after : List Char) {g : Fault}
    (hgroup : readGroup (trim inner) = .error g) :
    ExpressionFault (front ++ '[' :: (inner ++ ']' :: after))
      (g.carry (trim inner) (inner ++ ']' :: after))

/-- What cannot be read cannot be read behind another text. -/
theorem ExpressionFault.append (h : ExpressionFault text f) (before : List Char) :
    ExpressionFault (before ++ text) f := by
  cases h with
  | mute h => exact .mute h
  | unexpected front c rest =>
      rw [← List.append_assoc]
      exact .unexpected _ c rest
  | group front after hgroup =>
      rw [← List.append_assoc]
      exact .group _ after hgroup

/-- A group that does not close shows nothing. -/
theorem mute_of_closing {group : List Char} {depth : Nat}
    (h : closing group depth text = .error f) : f.cause.Mute := by
  fun_induction closing group depth text with
  | case1 => cases h; split <;> exact ⟨rfl, rfl⟩
  | case2 depth c rest hquote f' hread =>
      cases h
      exact mute_of_readQuoted hread
  | case5 =>
      cases h
      exact ⟨rfl, rfl⟩
  | case7 => cases h
  | case3 | case4 | case6 | case8 | case9 =>
      rename_i ih
      exact ih h

/-- A group cannot be read if it does not close or its contents cannot be read. -/
theorem expressionFault_of_readBracket (h : readBracket text = .error f) :
    ExpressionFault ('[' :: text) f := by
  cases hclosing : closing ('[' :: text) 0 text with
  | error g =>
      rw [readBracket, hclosing] at h
      cases h
      exact .mute (mute_of_closing hclosing)
  | ok after =>
      obtain ⟨inner, hinner, rfl⟩ := closing_eq_ok_iff.1 hclosing
      rw [readBracket_append hinner] at h
      split at h
      · rename_i hgroup
        cases h
        exact .group [] after hgroup
      · cases h

/-- What a dot begins shows nothing if it cannot be read. -/
theorem mute_of_readDot (h : readDot text = .error f) : f.cause.Mute := by
  unfold readDot at h
  split at h
  · cases h
    exact ⟨rfl, rfl⟩
  · cases h
  · cases h
  · dsimp only at h
    split at h <;> cases h
    exact ⟨rfl, rfl⟩

/-- A selector cannot be read for one of these reasons. -/
theorem expressionFault_of_readSelector {c : Char} (h : readSelector c text = .error f) :
    ExpressionFault (c :: text) f := by
  unfold readSelector at h
  split at h
  · exact .mute (mute_of_readDot h)
  split at h
  · rename_i hbracket
    subst hbracket
    exact expressionFault_of_readBracket h
  split at h
  · cases h
  split at h <;> cases h
  · exact .mute ⟨rfl, rfl⟩
  · exact .unexpected [] c text

/-- Selectors cannot be read if one of them cannot. -/
theorem expressionFault_of_readSelectors (h : readSelectors text = .error f) :
    ExpressionFault text f := by
  fun_induction readSelectors text with
  | case1 => cases h
  | case2 c rest hc ih => exact (ih h).append [c]
  | case3 c rest hc f' hread =>
      cases h
      exact expressionFault_of_readSelector hread
  | case4 c rest hc s left hread ih =>
      obtain ⟨seg, -, htext⟩ := segment_of_readSelector hread
      rw [htext]
      exact (ih (map_eq_error h)).append seg

/-- An expression cannot be read for one of these reasons. -/
theorem expressionFault_of_readExpression (h : readExpression text = .error f) :
    ExpressionFault text f := by
  obtain ⟨blanks, -, htext, -⟩ := exists_skipBlanks text
  rw [htext]
  refine ExpressionFault.append ?_ blanks
  rw [readExpression] at h
  generalize skipBlanks text = core at h ⊢
  unfold readStart at h
  split at h
  · cases h
  rename_i c rest
  split at h
  · exact (expressionFault_of_readSelectors (map_eq_error h)).append [c]
  split at h
  · cases h
    exact .mute ⟨rfl, rfl⟩
  split at h
  · have hsplit := List.takeWhile_append_dropWhile (p := isNameChar) (l := c :: rest)
    rw [← hsplit]
    exact (expressionFault_of_readSelectors (map_eq_error h)).append _
  · exact expressionFault_of_readSelectors h

end

end PathQuery.Expression
