import PathQuery.Proofs.Expression.Spelling
import PathQuery.Proofs.Query.Find

/-!
# The sign of the root

A search begins at the root, so that an expression need not begin with its sign. `find_root` says
that the sign can be put in front of a dot, a bracket or a star, and the sign with a dot in front of
a bare name, whatever follows: an expression that cannot be read fails with the sign as it does
without it.
-/

namespace PathQuery

open Text Expression

/-- A bare name at the start of an expression is read as it is behind the sign of the root and a
dot, with all that follows it. -/
theorem readExpression_name {c : Char} (hname : isNameChar c = true) (hroot : c ≠ '$')
    (hcurrent : c ≠ '@') (rest : List Char) :
    readExpression ('$' :: '.' :: c :: rest) = (readExpression (c :: rest)).map (.root :: ·) := by
  have hskip : skipBlanks (c :: rest) = c :: rest :=
    skipBlanks_cons (isBlank_of_isNameChar hname) rest
  have hbare : Bare ((c :: rest).takeWhile isNameChar) := bare_takeWhile (by simp [hname])
  have hmember := readSelectors_segment (.member hbare (endsName_dropWhile (c :: rest)))
  rw [List.cons_append, List.takeWhile_append_dropWhile] at hmember
  rw [readExpression_root, hmember, readExpression, hskip, readStart, if_neg hroot,
    if_neg hcurrent, if_pos hname]

/-- Searches agree if the one expression is read as the other one behind the sign of the root. -/
theorem agrees_findIn_root (root : Value) (config : Config) {e e' : String}
    (h : readExpression e'.toList = (readExpression e.toList).map (.root :: ·)) :
    Agrees (findIn root config e) (findIn root config e') := by
  rw [findIn_eq, findIn_eq, h]
  cases readExpression e.toList with
  | error f => exact .error rfl
  | ok selectors => exact .refl _

/-- The sign of the root may be left out before a dot, a bracket or a star, and the sign and a dot
before a bare name: the same is found, or the searches fail with the same kind of error. -/
theorem find_root (d : Document) (e : String) :
    ((∃ c, e.toList.head? = some c ∧ (c = '.' ∨ c = '[' ∨ c = '*')) →
      Agrees (d.find e) (d.find ("$" ++ e))) ∧
    ((∃ c, e.toList.head? = some c ∧ isNameChar c = true ∧ c ≠ '$' ∧ c ≠ '@') →
      Agrees (d.find e) (d.find ("$." ++ e))) := by
  constructor
  · rintro ⟨c, hhead, hc⟩
    obtain ⟨rest, he⟩ := List.head?_eq_some_iff.1 hhead
    refine agrees_findIn_root d.root d.config ?_
    have hsign : ("$" ++ e).toList = '$' :: c :: rest := by
      rw [String.toList_append, he]
      rfl
    rw [hsign, he, readExpression_root, readExpression_eq_readSelectors hc]
  · rintro ⟨c, hhead, hname, hroot, hcurrent⟩
    obtain ⟨rest, he⟩ := List.head?_eq_some_iff.1 hhead
    refine agrees_findIn_root d.root d.config ?_
    have hsign : ("$." ++ e).toList = '$' :: '.' :: c :: rest := by
      rw [String.toList_append, he]
      rfl
    rw [hsign, he, readExpression_name hname hroot hcurrent]

/-- An element of a member with the sign, without it and without the dot, and a bracket that closes
nothing. -/
theorem find_root_member :
    (Document.mk (.object [("a", .array [.null])]) {} false).find ".a[0]" = .ok ⟨[.null], {}⟩ ∧
      (Document.mk (.object [("a", .array [.null])]) {} false).find "a[0]" = .ok ⟨[.null], {}⟩ ∧
      Agrees ((Document.mk (.object [("a", .array [.null])]) {} false).find "a]")
        ((Document.mk (.object [("a", .array [.null])]) {} false).find "$.a]") := by
  have hread : readExpression "$.a[0]".toList = .ok [.root, .member "a", .positions [0]] := by
    decide +kernel
  have hfind : (Document.mk (.object [("a", .array [.null])]) {} false).find "$.a[0]" =
      .ok ⟨[.null], {}⟩ := by
    rw [Document.find, findIn_eq, hread]
    rfl
  have hdot := (find_root (Document.mk (.object [("a", .array [.null])]) {} false) ".a[0]").1
    ⟨'.', rfl, .inl rfl⟩
  have hname := (find_root (Document.mk (.object [("a", .array [.null])]) {} false) "a[0]").2
    ⟨'a', rfl, by decide, by decide, by decide⟩
  rw [show "$" ++ ".a[0]" = "$.a[0]" from rfl, hfind] at hdot
  rw [show "$." ++ "a[0]" = "$.a[0]" from rfl, hfind] at hname
  exact ⟨hdot.eq_of_ok, hname.eq_of_ok,
    (find_root (Document.mk (.object [("a", .array [.null])]) {} false) "a]").2
      ⟨'a', rfl, by decide, by decide, by decide⟩⟩

end PathQuery
