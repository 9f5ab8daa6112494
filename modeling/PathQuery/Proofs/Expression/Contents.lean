import PathQuery.Expression.Group
import PathQuery.Proofs.Outcome

/-!
# What can stand in brackets

`Contents text s` lists the forms that a text between brackets can have if it is read as the
selector `s`, with what is read of its parts. `contents_of_readGroup` says that there are no others,
so that what holds of all contents of brackets is shown form by form.
-/

namespace PathQuery.Expression

open Text

/-- The contents of a bracket, and the selector that they are read as. -/
inductive Contents : List Char → Selector → Prop
  | star : Contents ['*'] .children
  | keys {text : List Char} {ks : List Key}
    (hkeys : (pieces ',' text).mapM (readKey text) = .ok ks) : Contents text (ofKeys ks)
  | slice {text : List Char} {bounds : List (Option Int64)}
    (hmin : 1 < (pieces ':' text).length) (hmax : (pieces ':' text).length ≤ 3)
    (hbounds : (pieces ':' text).mapM (readBound text) = .ok bounds)
    (hstep : ∀ step, (bounds[2]?).join = some step → 0 < step) :
    Contents text (.slice ⟨(bounds[0]?).join, (bounds[1]?).join, (bounds[2]?).join⟩)
  /-- The condition stands between parentheses or is all that is behind the question mark. -/
  | filter {rest inner : List Char} {condition : Condition}
    (hinner : unwrap? (trim rest) = some inner ∨ inner = trim rest)
    (hread : readCondition inner = .ok condition) : Contents ('?' :: rest) (.filter condition)
  | script {text inner : List Char} (hinner : unwrap? text = some inner) (hne : trim inner ≠ []) :
    Contents text (.script (String.ofList (trim inner)))

variable {text rest : List Char} {s : Selector}

/-- A text of which parentheses are taken off has them around what is left. -/
theorem eq_of_unwrap? {inner : List Char} (h : unwrap? text = some inner) :
    text = '(' :: (inner ++ [')']) := by
  unfold unwrap? at h
  split at h
  · split at h
    · rename_i hlast
      cases h
      obtain ⟨init, rfl⟩ := List.getLast?_eq_some_iff.1 hlast
      rw [List.dropLast_concat]
    · cases h
  · cases h

/-- A slice that passes the check is kept, and its step leads onwards. -/
theorem eq_of_checkSlice {bounds : Slice} (h : checkSlice text bounds = .ok s) :
    s = .slice bounds ∧ ∀ step, bounds.step = some step → 0 < step := by
  unfold checkSlice at h
  split at h
  · rename_i hnone
    cases h
    refine ⟨rfl, fun step hstep => ?_⟩
    rw [hnone] at hstep
    cases hstep
  · rename_i given hgiven
    split at h
    · cases h
    · rename_i hpos
      cases h
      refine ⟨rfl, fun step hstep => ?_⟩
      rw [hgiven] at hstep
      cases hstep
      exact Int64.not_le.1 hpos

/-- The pieces of a slice are its bounds, no more than three. -/
theorem exists_of_readSlice {parts : List Piece} (h : readSlice text parts = .ok s) :
    ∃ bounds, parts.mapM (readBound text) = .ok bounds ∧ parts.length ≤ 3 ∧
      s = .slice ⟨(bounds[0]?).join, (bounds[1]?).join, (bounds[2]?).join⟩ ∧
      ∀ step, (bounds[2]?).join = some step → 0 < step := by
  unfold readSlice at h
  split at h
  · cases h
  rename_i hmax
  split at h
  · cases h
  rename_i bounds hbounds
  exact ⟨bounds, hbounds, Nat.not_lt.1 hmax, eq_of_checkSlice h⟩

/-- A filter is read from what its parentheses enclose, or from all of it without them. -/
theorem exists_of_readFilter (h : readFilter text rest = .ok s) : ∃ inner condition,
    (unwrap? (trim rest) = some inner ∨ inner = trim rest) ∧
      readCondition inner = .ok condition ∧ s = .filter condition := by
  unfold readFilter at h
  dsimp only at h
  split at h
  · cases h
  rename_i condition hread
  cases h
  refine ⟨_, condition, ?_, hread, rfl⟩
  cases unwrap? (trim rest) with
  | none => exact .inr rfl
  | some inner => exact .inl rfl

/-- A script is what its parentheses enclose, without the blanks at the ends. -/
theorem exists_of_readScript (h : readScript text = .ok s) : ∃ inner,
    unwrap? text = some inner ∧ trim inner ≠ [] ∧ s = .script (String.ofList (trim inner)) := by
  unfold readScript at h
  split at h
  · cases h
  rename_i inner hinner
  split at h
  · cases h
  rename_i hne
  cases h
  exact ⟨inner, hinner, hne, rfl⟩

/-- What is read between brackets has one of the forms of contents. -/
theorem contents_of_readGroup (h : readGroup text = .ok s) : Contents text s := by
  unfold readGroup at h
  split at h
  · cases h
  · obtain ⟨inner, condition, hinner, hread, rfl⟩ := exists_of_readFilter h
    exact .filter hinner hread
  · obtain ⟨inner, hinner, hne, rfl⟩ := exists_of_readScript h
    exact .script hinner hne
  · cases h
    exact .star
  dsimp only at h
  split at h
  · rename_i hmin
    obtain ⟨bounds, hbounds, hmax, rfl, hstep⟩ := exists_of_readSlice h
    exact .slice hmin hmax hbounds hstep
  · obtain ⟨ks, hkeys, rfl⟩ := map_eq_ok h
    exact .keys hkeys

end PathQuery.Expression
