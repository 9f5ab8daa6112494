import PathQuery.Document
import PathQuery.Proofs.Outcome
import PathQuery.Proofs.Selection.Basic

/-!
# What a search fails for

A search fails if its expression cannot be read, or if a selector in it is a script that is no
arithmetic on a length; then the first one counts (`FirstUnsupported`). Nothing of this depends on
what is searched, nor on whether there are any nodes left when the script is reached
(`applyAll_eq_error_iff`, `findIn_eq_error_iff`). So an expression fails on all documents in the
same way, or on none (`find_failure`).
-/

namespace PathQuery

/-- The first script among the selectors that is no arithmetic on a length. -/
def FirstUnsupported (selectors : List Selector) (text : String) : Prop :=
  ∃ front rest, selectors = front ++ .script text :: rest ∧ scriptOffset? text.toList = none ∧
    ∀ other, .script other ∈ front → scriptOffset? other.toList ≠ none

variable {s : Selector} {selectors : List Selector} {e : Error}

/-! ## Selectors -/

namespace Selector

/-- What is refused is a script that is no arithmetic on a length. -/
theorem refusal?_eq_some_iff : s.refusal? = some e ↔
    ∃ text, s = .script text ∧ scriptOffset? text.toList = none ∧ e = .unsupportedScript text := by
  cases s with
  | script text => cases h : scriptOffset? text.toList <;> simp [refusal?, h, eq_comm]
  | root | member | keys | positions | slice | children | descent | filter => simp [refusal?]

/-- What is not refused is arithmetic on a length if it is a script. -/
theorem refusal?_eq_none_iff : s.refusal? = none ↔
    ∀ text, s = .script text → scriptOffset? text.toList ≠ none := by
  cases s with
  | script text => cases h : scriptOffset? text.toList <;> simp [refusal?, h]
  | root | member | keys | positions | slice | children | descent | filter => simp [refusal?]

/-- The first refusal is that of the first script that is no arithmetic on a length. -/
theorem findSome?_refusal?_iff : selectors.findSome? refusal? = some e ↔
    ∃ text, FirstUnsupported selectors text ∧ e = .unsupportedScript text := by
  rw [List.findSome?_eq_some_iff]
  constructor
  · rintro ⟨front, s, rest, rfl, hs, hfront⟩
    obtain ⟨text, rfl, htext, rfl⟩ := refusal?_eq_some_iff.1 hs
    refine ⟨text, ⟨front, rest, rfl, htext, fun other hother => ?_⟩, rfl⟩
    exact refusal?_eq_none_iff.1 (hfront _ hother) other rfl
  · rintro ⟨text, ⟨front, rest, rfl, htext, hfront⟩, rfl⟩
    refine ⟨front, .script text, rest, rfl, refusal?_eq_some_iff.2 ⟨text, rfl, htext, rfl⟩, ?_⟩
    rintro s hs
    exact refusal?_eq_none_iff.2 fun other hother => hfront other (hother ▸ hs)

end Selector

/-- Where there are scripts that are no arithmetic on a length, one of them is the first. -/
theorem exists_firstUnsupported_iff : (∃ text, FirstUnsupported selectors text) ↔
    ∃ text, .script text ∈ selectors ∧ scriptOffset? text.toList = none := by
  constructor
  · rintro ⟨text, front, rest, rfl, htext, -⟩
    exact ⟨text, by simp, htext⟩
  · rintro ⟨text, hmem, htext⟩
    cases h : selectors.findSome? Selector.refusal? with
    | none =>
        have hnone := List.findSome?_eq_none_iff.1 h _ hmem
        exact absurd htext (Selector.refusal?_eq_none_iff.1 hnone text rfl)
    | some e =>
        obtain ⟨first, hfirst, -⟩ := Selector.findSome?_refusal?_iff.1 h
        exact ⟨first, hfirst⟩

/-- Selectors end in the error of their first script that is no arithmetic on a length, whatever the
nodes are. -/
theorem applyAll_eq_error_iff {root : Value} {config : Config} {nodes : List Value} :
    applyAll root config nodes selectors = .error e ↔
      ∃ text, FirstUnsupported selectors text ∧ e = .unsupportedScript text := by
  rw [applyAll_eq, ← Selector.findSome?_refusal?_iff]
  cases selectors.findSome? Selector.refusal? <;> simp

/-! ## Expressions -/

section
variable {root other : Value} {config config' : Config} {expression : String}

/-- An expression that cannot be read is malformed. -/
theorem isMalformed_of_readSelectors (h : Query.readSelectors expression = .error e) :
    e.isMalformed = true := by
  rw [Query.readSelectors] at h
  cases hread : Expression.readExpression expression.toList with
  | error f =>
      rw [hread] at h
      cases h
      rfl
  | ok selectors =>
      rw [hread] at h
      cases h

/-- A search ends in an error for what its expression is, whatever is searched. -/
theorem findIn_eq_error_iff : findIn root config expression = .error e ↔
    Query.readSelectors expression = .error e ∨
      ∃ selectors text, Query.readSelectors expression = .ok selectors ∧
        FirstUnsupported selectors text ∧ e = .unsupportedScript text := by
  rw [findIn, Query.compile]
  cases hread : Query.readSelectors expression with
  | error f => simp [Except.bind, Except.map]
  | ok selectors =>
      have hrun : (Query.run ⟨expression, selectors⟩ root config = .error e) ↔
          applyAll root config [root] selectors = .error e := by
        rw [Query.run, select]
        cases applyAll root config [root] selectors <;> simp [Except.map]
      show Query.run ⟨expression, selectors⟩ root config = .error e ↔ _
      simp [hrun, applyAll_eq_error_iff]

/-- What one search for an expression fails for every other one does. -/
theorem findIn_eq_error_congr : findIn root config expression = .error e ↔
    findIn other config' expression = .error e :=
  findIn_eq_error_iff.trans findIn_eq_error_iff.symm

/-- A search fails for the form of its expression exactly if that cannot be read. -/
theorem findIn_malformed_iff :
    (findIn root config expression = .error e ∧ e.isMalformed = true) ↔
      Query.readSelectors expression = .error e := by
  constructor
  · rintro ⟨hfind, hmalformed⟩
    rcases findIn_eq_error_iff.1 hfind with hread | ⟨selectors, text, -, -, rfl⟩
    · exact hread
    · cases hmalformed
  · intro hread
    exact ⟨findIn_eq_error_iff.2 (.inl hread), isMalformed_of_readSelectors hread⟩

/-- A search for an expression that can be read fails for its first script that is no arithmetic on
a length. -/
theorem findIn_eq_error_iff_of_readSelectors (h : Query.readSelectors expression = .ok selectors) :
    findIn root config expression = .error e ↔
      ∃ text, FirstUnsupported selectors text ∧ e = .unsupportedScript text := by
  rw [findIn_eq_error_iff, h]
  simp

end

/-- An expression fails on every document and with the same error, or on none. It is malformed
exactly if it cannot be read; if it can, it fails exactly if some script in it is no arithmetic on a
length, and then for the first one. -/
theorem find_failure (expression : String) :
    ((∃ e, ∀ d : Document, d.find expression = .error e) ∨
        ∀ d : Document, ∃ found, d.find expression = .ok found) ∧
      ∀ d : Document,
        (∀ e, (d.find expression = .error e ∧ e.isMalformed = true) ↔
          Query.readSelectors expression = .error e) ∧
        ∀ selectors, Query.readSelectors expression = .ok selectors →
          ((∃ e, d.find expression = .error e ∧ e.isUnsupportedScript = true) ↔
            ∃ text, .script text ∈ selectors ∧ scriptOffset? text.toList = none) ∧
          ∀ e, d.find expression = .error e ↔
            ∃ text, FirstUnsupported selectors text ∧ e = .unsupportedScript text := by
  refine ⟨?_, fun d => ⟨fun e => findIn_malformed_iff, fun selectors hread => ?_⟩⟩
  · cases hnull : findIn .null {} expression with
    | error e => exact .inl ⟨e, fun d => findIn_eq_error_congr.1 hnull⟩
    | ok found =>
        refine .inr fun d => ?_
        cases hfind : d.find expression with
        | error e =>
            rw [findIn_eq_error_congr.1 hfind] at hnull
            cases hnull
        | ok found => exact ⟨found, rfl⟩
  · have herror : ∀ e, d.find expression = .error e ↔
        ∃ text, FirstUnsupported selectors text ∧ e = .unsupportedScript text :=
      fun e => findIn_eq_error_iff_of_readSelectors hread
    refine ⟨?_, herror⟩
    rw [← exists_firstUnsupported_iff]
    constructor
    · rintro ⟨e, hfind, -⟩
      obtain ⟨text, htext, -⟩ := (herror e).1 hfind
      exact ⟨text, htext⟩
    · rintro ⟨text, htext⟩
      exact ⟨_, (herror _).2 ⟨text, htext, rfl⟩, rfl⟩

/-- The first of two scripts that are no arithmetic on a length decides, in every document: also in
one without a member `a`, where nothing is left when the script is reached. -/
theorem find_failure_script :
    Query.readSelectors "$.a[(@.size)][(1+1)]" =
        .ok [.root, .member "a", .script "@.size", .script "1+1"] ∧
      ∀ d : Document, d.find "$.a[(@.size)][(1+1)]" = .error (.unsupportedScript "@.size") := by
  have hread : Query.readSelectors "$.a[(@.size)][(1+1)]" =
      .ok [.root, .member "a", .script "@.size", .script "1+1"] := by decide +kernel
  have hfirst : FirstUnsupported [.root, .member "a", .script "@.size", .script "1+1"] "@.size" :=
    ⟨[.root, .member "a"], [.script "1+1"], rfl, by decide, by simp⟩
  refine ⟨hread, fun d => ?_⟩
  obtain ⟨-, hscripts⟩ := (find_failure "$.a[(@.size)][(1+1)]").2 d
  exact ((hscripts _ hread).2 _).2 ⟨"@.size", hfirst, rfl⟩

end PathQuery
