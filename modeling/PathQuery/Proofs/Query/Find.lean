import PathQuery.Document
import PathQuery.Proofs.Expression.WellFormed
import PathQuery.Proofs.Selection.Nodewise

/-!
# Searching in matches

To search in matches is to search on from where they were found: `find_find` compares a search in
the array of the matches of an expression with the search for the expression extended by the second
one. The text `$[*] ` leads from that array to the matches again, and neither search looks at its
root after that.
-/

namespace PathQuery

open Expression

/-- A search fails for the form of the expression, or is what its selectors select. -/
theorem findIn_eq (root : Value) (config : Config) (expression : String) :
    findIn root config expression =
      match readExpression expression.toList with
      | .error f => .error (Query.malformed expression f)
      | .ok selectors => (select root config selectors).map fun values => ⟨values, config⟩ := by
  rw [findIn, Query.compile, Query.readSelectors]
  cases readExpression expression.toList <;> rfl

/-- What a search finds is what the selectors of the expression select. -/
theorem exists_of_findIn {root : Value} {config : Config} {expression : String} {found : Matches}
    (h : findIn root config expression = .ok found) :
    ∃ selectors values, readExpression expression.toList = .ok selectors ∧
      select root config selectors = .ok values ∧ found = ⟨values, config⟩ := by
  rw [findIn_eq] at h
  cases hread : readExpression expression.toList with
  | error f =>
      rw [hread] at h
      cases h
  | ok selectors =>
      rw [hread] at h
      obtain ⟨values, hselect, rfl⟩ := map_eq_ok h
      exact ⟨selectors, values, rfl, hselect, rfl⟩

/-- The text that leads from an array to its elements, and on from them by what follows. -/
theorem readExpression_elements (text : List Char) :
    readExpression ('$' :: '[' :: '*' :: ']' :: ' ' :: text) =
      (readSelectors text).map fun ss => .root :: .children :: ss := by
  have hinert : ∀ c ∈ ['*'], Inert c := by
    intro c hc
    rw [List.mem_singleton] at hc
    subst hc
    exact ⟨by decide, by decide, by decide⟩
  have hseg : Segment ['[', '*', ']'] .children (' ' :: text) :=
    .group (Scans.of_inert hinert 0) rfl
  have hroot : readExpression ('$' :: '[' :: '*' :: ']' :: ' ' :: text) =
      (readSelectors (['[', '*', ']'] ++ ' ' :: text)).map (.root :: ·) := rfl
  rw [hroot, readSelectors_segment hseg, readSelectors_blank (by decide), map_map_outcome]
  rfl

/-- From the array of all matches, the root and then its elements are the matches. -/
theorem select_elements (values : List Value) (config : Config) {selectors : List Selector}
    (h : .root ∉ selectors) (root : Value) :
    select (.array values) config (.root :: .children :: selectors) =
      applyAll root config values selectors := by
  have helements : select (.array values) config (.root :: .children :: selectors) =
      applyAll (.array values) config ([Value.array values].flatMap Value.children) selectors :=
    rfl
  rw [helements, List.flatMap_singleton]
  exact applyAll_congr_root h _ _ _ _

/-- A search in the matches of one expression, from the array of them to its elements and on, agrees
with the search for both expressions one behind the other. -/
theorem find_find {d : Document} {e₁ e₂ : String} {found : Matches}
    (h₂ : ∃ c, e₂.toList.head? = some c ∧ (c = '.' ∨ c = '[' ∨ c = '*'))
    (h₁ : d.find e₁ = .ok found) :
    Agrees (found.find ("$[*] " ++ e₂)) (d.find (e₁ ++ " " ++ e₂)) := by
  obtain ⟨c, hhead, hc⟩ := h₂
  obtain ⟨rest, he₂⟩ := List.head?_eq_some_iff.1 hhead
  obtain ⟨selectors, values, hread, hselect, rfl⟩ := exists_of_findIn h₁
  have hleft : ("$[*] " ++ e₂).toList = '$' :: '[' :: '*' :: ']' :: ' ' :: e₂.toList := by
    rw [String.toList_append]
    rfl
  have hright : (e₁ ++ " " ++ e₂).toList = e₁.toList ++ ' ' :: c :: rest := by
    rw [String.toList_append, String.toList_append, List.append_assoc, he₂]
    rfl
  rw [Matches.find, Document.find, findIn_eq, findIn_eq, hleft, hright, readExpression_elements,
    readExpression_append hread (by decide) hc, he₂]
  cases hmore : readSelectors (c :: rest) with
  | error f => exact .error rfl
  | ok more =>
      have hroot : .root ∉ more := root_notMem_of_readSelectors hmore
      have hsplit : select d.root d.config (selectors ++ more) =
          applyAll d.root d.config values more := by
        rw [select, applyAll_append, show applyAll d.root d.config [d.root] selectors = .ok values
          from hselect]
        rfl
      show Agrees ((select _ _ _).map _) ((select _ _ _).map _)
      rw [select_elements values d.config hroot d.root, hsplit]
      exact .refl _

/-- The elements of a member, found by a search for it and then by one in its matches. -/
theorem find_find_member :
    (Document.mk (.object [("a", .array [.null])]) {} false).find "$.a" =
        .ok ⟨[.array [.null]], {}⟩ ∧
      Agrees (Matches.find ⟨[.array [.null]], {}⟩ ("$[*] " ++ "[0]"))
        ((Document.mk (.object [("a", .array [.null])]) {} false).find ("$.a" ++ " " ++ "[0]")) := by
  have hread : readExpression "$.a".toList = .ok [.root, .member "a"] := by decide +kernel
  have hfind : (Document.mk (.object [("a", .array [.null])]) {} false).find "$.a" =
      .ok ⟨[.array [.null]], {}⟩ := by
    rw [Document.find, findIn_eq, hread]
    rfl
  exact ⟨hfind, find_find ⟨'[', rfl, .inr (.inl rfl)⟩ hfind⟩

end PathQuery
