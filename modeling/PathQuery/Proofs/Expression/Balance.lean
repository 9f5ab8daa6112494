import PathQuery.Proofs.Expression.Nesting
import PathQuery.Proofs.Expression.WellFormed
import PathQuery.Proofs.Text.Pieces

/-!
# How far expressions are properly nested

An expression is a row of groups in brackets, with characters between them that open and close
nothing (`Groups`). The bracket that closes a group is found by a count that takes brackets for
parentheses, so that an expression need not be properly nested. What the readers of a group make of
its contents restores this, except where they take a text as it is, which are a name without quotes
in a list and a script (`Contents.nested`). So an expression can be read that is not properly
nested, but only by way of such a name or script (`exists_groups`).
-/

namespace PathQuery

open Text Text.Quoted Expression

/-- Of a list of keys, that its names are properly nested; of a script, that it is. Nothing is asked
of other selectors. -/
def Selector.Nested : Selector → Prop
  | .keys ks => ∀ name, .name name ∈ ks → Expression.Nested name.toList
  | .script text => Expression.Nested text.toList
  | _ => True

namespace Expression

variable {text : List Char}

/-! ## Numbers -/

/-- The text of a natural number is properly nested. -/
theorem nested_of_readNat? {n : Nat} (h : readNat? text = some n) : Nested text := by
  unfold readNat? at h
  split at h
  · rename_i hdigits
    exact .of_inert fun c hc => inert_of_isDigit (List.all_eq_true.1 hdigits.2 c hc)
  · cases h

/-- The text of an integer is properly nested. -/
theorem nested_of_readInt64? {n : Int64} (h : readInt64? text = some n) : Nested text := by
  unfold readInt64? at h
  split at h
  all_goals
    obtain ⟨m, hm, -⟩ := Option.bind_eq_some_iff.1 h
    have := nested_of_readNat? hm
  · exact .inert (by decide) this
  · exact .inert (by decide) this
  · exact this

/-- What a piece is read as an integer from is properly nested. -/
theorem nested_of_readPieceInt64 {piece : Piece} {found : List Char} {n : Int64}
    (h : readPieceInt64 text piece found = .ok n) : Nested found := by
  unfold readPieceInt64 at h
  split at h
  · rename_i hread
    exact nested_of_readInt64? hread
  · cases h

/-! ## Pieces -/

/-- A text of properly nested pieces is properly nested. -/
theorem nested_of_pieces (separator : Char) (hseparator : Inert separator)
    (h : ∀ piece ∈ pieces separator text, Nested piece.text) : Nested text := by
  rw [← intercalate_pieces separator text]
  refine intercalate_induction (by simp [pieces]) (fun part hpart => ?_) fun a b ha hb => ?_
  · obtain ⟨piece, hpiece, rfl⟩ := List.mem_map.1 hpart
    exact h piece hpiece
  · exact ha.append (.inert hseparator hb)

/-- A bound is properly nested. -/
theorem nested_of_readBound {piece : Piece} {bound : Option Int64}
    (h : readBound text piece = .ok bound) : Nested piece.text := by
  refine .of_trim ?_
  unfold readBound at h
  split at h
  · rename_i hnil
    rw [hnil]
    exact .nil
  · obtain ⟨n, hread, -⟩ := map_eq_ok h
    exact nested_of_readPieceInt64 hread

/-- A key is properly nested, unless it is a name that is not. -/
theorem nested_of_readKey {piece : Piece} {key : Key} (h : readKey text piece = .ok key)
    (hname : ∀ name, key = .name name → Nested name.toList) : Nested piece.text := by
  refine .of_trim ?_
  unfold readKey at h
  generalize trim piece.text = found at h
  unfold readKeyText at h
  split at h
  · cases h
  rename_i c rest
  split at h
  · rename_i hquote
    split at h
    · cases h
    · rename_i value hread
      obtain ⟨body, hbody, rfl⟩ := body_of_read hread
      exact .quoted hquote hbody .nil
    · cases h
  split at h
  · obtain ⟨n, hread, -⟩ := map_eq_ok h
    exact nested_of_readPieceInt64 hread
  split at h
  · cases h
  · cases h
    have := hname _ rfl
    rwa [String.toList_ofList] at this

/-! ## Groups -/

/-- The contents of a bracket are properly nested if the selector that they are is. -/
theorem Contents.nested {s : Selector} (h : Contents text s) (hs : s.Nested) : Nested text := by
  cases h with
  | star => exact .of_inert (forall_mem_of_all rfl)
  | keys hkeys =>
      refine nested_of_pieces ',' (by decide) fun piece hpiece => ?_
      obtain ⟨key, hkey, hread⟩ := exists_of_mem_mapM hkeys hpiece
      refine nested_of_readKey hread ?_
      rintro name rfl
      rw [ofKeys_name hkey] at hs
      exact hs name hkey
  | slice _ _ hbounds _ =>
      refine nested_of_pieces ':' (by decide) fun piece hpiece => ?_
      obtain ⟨bound, -, hread⟩ := exists_of_mem_mapM hbounds hpiece
      exact nested_of_readBound hread
  | filter hinner hread =>
      have hcondition := nested_of_readCondition hread
      refine .inert (by decide) (.of_trim ?_)
      rcases hinner with hwrapped | rfl
      · rw [eq_of_unwrap? hwrapped]
        exact .pair .parentheses hcondition .nil
      · exact hcondition
  | @script _ inner hinner _ =>
      have hscript : Nested (String.ofList (trim inner)).toList := hs
      rw [String.toList_ofList] at hscript
      rw [eq_of_unwrap? hinner]
      exact .pair .parentheses hscript.of_trim .nil

/-! ## Expressions -/

/-- A text of groups in brackets, with inert characters between them, and the contents of the
groups. -/
inductive Groups : List Char → List (List Char) → Prop
  | nil : Groups [] []
  | inert {c : Char} {text : List Char} {groups : List (List Char)} (hc : Inert c)
    (htext : Groups text groups) : Groups (c :: text) groups
  | group {inner text : List Char} {groups : List (List Char)} (hinner : Scans 0 inner 0)
    (htext : Groups text groups) : Groups ('[' :: (inner ++ ']' :: text)) (inner :: groups)

namespace Groups

variable {groups : List (List Char)}

/-- Inert characters may stand before the groups. -/
theorem append {front : List Char} (hfront : ∀ c ∈ front, Inert c) (h : Groups text groups) :
    Groups (front ++ text) groups := by
  induction front with
  | nil => exact h
  | cons c rest ih =>
      obtain ⟨hc, hrest⟩ := List.forall_mem_cons.1 hfront
      exact .inert hc (ih hrest)

/-- A text of groups leads from nothing open to nothing open. -/
theorem scans (h : Groups text groups) : Scans 0 text 0 := by
  induction h with
  | nil => exact .nil 0
  | inert hc _ ih => exact .inert hc ih
  | group hinner _ ih =>
      exact .opening (.inl rfl) (hinner.succ.append (.closing (.inl rfl) ih))

/-- A group is properly nested, and so is what is behind it, if they are together. -/
theorem nested_of_group {inner : List Char} (hinner : Scans 0 inner 0)
    (h : Nested ('[' :: (inner ++ ']' :: text))) : Nested inner ∧ Nested text := by
  obtain ⟨other, rest, hwhole, hother, hrest⟩ := h.exists_of_pair .brackets
  -- Both are what stands before the closing bracket, of which there is but one.
  have hleft : closing [] 0 (inner ++ ']' :: text) = .ok text :=
    closing_eq_ok_iff.2 ⟨inner, hinner, rfl⟩
  have hright : closing [] 0 (other ++ ']' :: rest) = .ok rest :=
    closing_eq_ok_iff.2 ⟨other, hother.scans 0, rfl⟩
  rw [hwhole, hright] at hleft
  cases hleft
  rw [List.append_cancel_right hwhole]
  exact ⟨hother, hrest⟩

/-- A text of groups is properly nested exactly if each of the groups is. -/
theorem nested_iff (h : Groups text groups) : Nested text ↔ ∀ inner ∈ groups, Nested inner := by
  induction h with
  | nil => exact ⟨fun _ => by simp, fun _ => .nil⟩
  | inert hc _ ih => exact ⟨fun h => ih.1 (h.of_cons hc), fun h => .inert hc (ih.2 h)⟩
  | group hinner _ ih =>
      rw [List.forall_mem_cons, ← ih]
      exact ⟨nested_of_group hinner, fun h => .pair .brackets h.1 h.2⟩

end Groups

/-- The text of a selector is a group, or of inert characters. -/
theorem Segment.exists_group {seg rest : List Char} {s : Selector} (h : Segment seg s rest) :
    (∀ c ∈ seg, Inert c) ∨
      ∃ inner, seg = '[' :: inner ++ [']'] ∧ Scans 0 inner 0 ∧ readGroup (trim inner) = .ok s := by
  have hbare : ∀ {name : List Char}, Bare name → ∀ c ∈ name, Inert c := fun hname c hc =>
    inert_of_isNameChar (hname.all c hc)
  have hdot : Inert '.' := by decide
  cases h with
  | star | dotStar | descent => exact .inl (forall_mem_of_all rfl)
  | member hname => exact .inl (List.forall_mem_cons.2 ⟨hdot, hbare hname⟩)
  | descentTo hname =>
      exact .inl (List.forall_mem_cons.2 ⟨hdot, List.forall_mem_cons.2 ⟨hdot, hbare hname⟩⟩)
  | group hinner hgroup => exact .inr ⟨_, rfl, hinner, hgroup⟩

/-- Selectors are read from groups and inert characters. -/
theorem groups_of_readSelectors {ss : List Selector} (h : readSelectors text = .ok ss) :
    ∃ groups, Groups text groups ∧ ∀ inner ∈ groups, ∃ s ∈ ss, readGroup (trim inner) = .ok s := by
  fun_induction readSelectors text generalizing ss with
  | case1 => exact ⟨[], .nil, by simp⟩
  | case2 c rest hc ih =>
      obtain ⟨groups, hgroups, hread⟩ := ih h
      exact ⟨groups, .inert (inert_of_isBlank hc) hgroups, hread⟩
  | case3 => cases h
  | case4 c rest hc s after hread ih =>
      obtain ⟨seg, hseg, htext⟩ := segment_of_readSelector hread
      obtain ⟨others, hafter, rfl⟩ := map_eq_ok h
      obtain ⟨groups, hgroups, hothers⟩ := ih hafter
      have hmore : ∀ inner ∈ groups, ∃ t ∈ s :: others, readGroup (trim inner) = .ok t := by
        intro inner hinner
        obtain ⟨t, ht, hgroup⟩ := hothers inner hinner
        exact ⟨t, List.mem_cons_of_mem _ ht, hgroup⟩
      rw [htext]
      rcases hseg.exists_group with hinert | ⟨inner, rfl, hinner, hgroup⟩
      · exact ⟨groups, hgroups.append hinert, hmore⟩
      · have hall := List.forall_mem_cons.2 ⟨⟨s, List.mem_cons_self, hgroup⟩, hmore⟩
        refine ⟨inner :: groups, ?_, hall⟩
        simpa using Groups.group hinner hgroups

/-- An expression leads from nothing open to nothing open, and consists of groups in brackets and of
characters that open and close nothing. It is properly nested exactly if each of its groups is; and
a group is so if the names or the script that it is read as are. -/
theorem exists_groups {ss : List Selector} (h : readExpression text = .ok ss) :
    Scans 0 text 0 ∧ ∃ groups, Groups text groups ∧
      (Nested text ↔ ∀ inner ∈ groups, Nested inner) ∧
      ∀ inner ∈ groups, ∃ s ∈ ss, readGroup (trim inner) = .ok s ∧
        (s.Nested → Nested inner) := by
  obtain ⟨front, more, start, others, rfl, hfront, hothers, rfl, -⟩ := exists_start h
  obtain ⟨groups, hgroups, hread⟩ := groups_of_readSelectors hothers
  have hall : Groups (front ++ more) groups := hgroups.append hfront
  refine ⟨hall.scans, groups, hall, hall.nested_iff, fun inner hinner => ?_⟩
  obtain ⟨s, hs, hgroup⟩ := hread inner hinner
  refine ⟨s, List.mem_append_right start hs, hgroup, fun hnested => ?_⟩
  exact ((contents_of_readGroup hgroup).nested hnested).of_trim

/-- A parenthesis that a bracket closes is read as part of a name, and the expression is then not
properly nested. -/
theorem exists_groups_parenthesis :
    readExpression "$[a(]]".toList = .ok [.root, .keys [.name "a(]"]] ∧
      ¬Nested "$[a(]]".toList ∧ Scans 0 "$[a(]]".toList 0 ∧
      ∃ groups, Groups "$[a(]]".toList groups ∧
        (Nested "$[a(]]".toList ↔ ∀ inner ∈ groups, Nested inner) ∧
        ∀ inner ∈ groups, ∃ s ∈ [Selector.root, .keys [.name "a(]"]],
          readGroup (trim inner) = .ok s ∧ (s.Nested → Nested inner) := by
  have hread : readExpression "$[a(]]".toList = .ok [.root, .keys [.name "a(]"]] := by
    decide +kernel
  have hnot : ¬Nested "$[a(]]".toList := by
    intro h
    have hinner : Scans 0 ['a', '(', ']'] 0 :=
      .inert (by decide) (.opening (.inr rfl) (.closing (.inl rfl) (.nil 0)))
    have hgroup : Nested ('[' :: (['a', '(', ']'] ++ [']'])) := h.of_cons (by decide)
    obtain ⟨hname, -⟩ := Groups.nested_of_group hinner hgroup
    obtain ⟨inner, rest, hsplit, -, -⟩ := (hname.of_cons (by decide)).exists_of_pair .parentheses
    have hmem : ')' ∈ [']'] := by
      rw [hsplit]
      simp
    exact absurd hmem (by decide)
  exact ⟨hread, hnot, exists_groups hread⟩

end Expression

end PathQuery
