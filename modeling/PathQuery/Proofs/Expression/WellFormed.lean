import PathQuery.Proofs.Expression.Append
import PathQuery.Proofs.Expression.Contents

/-!
# What the reader makes of an expression is well formed

The selectors of an expression have no part that selects nothing for its form: names that need no
quotes are not empty, lists are not empty, a step leads onwards, and a script is a text without
blanks at its ends (`Selector.WellFormed`). The root selector stands at most in the first place
(`WellFormed`). `wellFormed_of_readExpression` says so of every expression that can be read.
-/

namespace PathQuery

open Text Expression

/-- A selector that can stand behind the first place, with parts of the form that the reader gives
them. -/
def Selector.WellFormed : Selector → Prop
  | .root => False
  | .member name | .descent (some name) => Bare name.toList
  | .keys ks => ∃ name, .name name ∈ ks
  | .positions places => places ≠ []
  | .slice bounds => ∀ step, bounds.step = some step → 0 < step
  | .children | .descent none | .filter _ => True
  | .script text => text.toList ≠ [] ∧ Tidy text.toList

/-- Selectors of which only the first can be the root selector, and the others are well formed. -/
inductive WellFormed : List Selector → Prop
  | root {selectors : List Selector} (h : ∀ s ∈ selectors, s.WellFormed) :
    WellFormed (.root :: selectors)
  | other {selectors : List Selector} (h : ∀ s ∈ selectors, s.WellFormed) : WellFormed selectors

namespace Expression

/-- A list without a name is a list of positions. -/
theorem mapM_position? (ks : List Key) :
    (∃ places, ks = places.map .position ∧ ks.mapM Key.position? = some places) ∨
      (∃ name, .name name ∈ ks) ∧ ks.mapM Key.position? = none := by
  induction ks with
  | nil => exact .inl ⟨[], rfl, rfl⟩
  | cons key rest ih =>
      rw [List.mapM_cons]
      cases key with
      | name n => exact .inr ⟨⟨n, List.mem_cons_self⟩, rfl⟩
      | position i =>
          rcases ih with ⟨places, rfl, hplaces⟩ | ⟨⟨n, hn⟩, hnone⟩
          · exact .inl ⟨i :: places, rfl, by rw [hplaces]; rfl⟩
          · exact .inr ⟨⟨n, List.mem_cons_of_mem _ hn⟩, by rw [hnone]; rfl⟩

/-- Positions alone make a selector of positions. -/
theorem ofKeys_positions (places : List Int64) :
    ofKeys (places.map .position) = .positions places := by
  rcases mapM_position? (places.map .position) with ⟨others, heq, hsome⟩ | ⟨⟨n, hn⟩, -⟩
  · have hinj : Function.Injective Key.position := fun _ _ h => Key.position.inj h
    rw [ofKeys, hsome, List.map_injective_iff.2 hinj heq]
  · obtain ⟨i, -, hi⟩ := List.mem_map.1 hn
    cases hi

/-- Keys with a name among them make a selector of keys. -/
theorem ofKeys_name {ks : List Key} {name : String} (h : .name name ∈ ks) :
    ofKeys ks = .keys ks := by
  rcases mapM_position? ks with ⟨places, rfl, -⟩ | ⟨-, hnone⟩
  · obtain ⟨i, -, hi⟩ := List.mem_map.1 h
    cases hi
  · rw [ofKeys, hnone]

/-- A list of keys that is not empty makes a well-formed selector. -/
theorem wellFormed_ofKeys {ks : List Key} (h : ks ≠ []) : (ofKeys ks).WellFormed := by
  rcases mapM_position? ks with ⟨places, rfl, -⟩ | ⟨⟨n, hn⟩, -⟩
  · rw [ofKeys_positions]
    rintro rfl
    exact h rfl
  · rw [ofKeys_name hn]
    exact ⟨n, hn⟩

/-- The contents of a bracket make a well-formed selector. -/
theorem Contents.wellFormed {text : List Char} {s : Selector} (h : Contents text s) :
    s.WellFormed := by
  cases h with
  | star | filter => trivial
  | keys hkeys =>
      refine wellFormed_ofKeys ?_
      rintro rfl
      cases mapM_eq_ok_iff.1 hkeys
  | slice _ _ _ hstep => exact hstep
  | @script _ inner _ hne =>
      obtain ⟨-, -, -, -, -, htidy⟩ := exists_trim inner
      show (String.ofList (trim inner)).toList ≠ [] ∧ Tidy (String.ofList (trim inner)).toList
      rw [String.toList_ofList]
      exact ⟨hne, htidy⟩

/-- Every segment is the text of a well-formed selector. -/
theorem Segment.wellFormed {seg rest : List Char} {s : Selector} (h : Segment seg s rest) :
    s.WellFormed := by
  cases h with
  | star | dotStar | descent => trivial
  | member hname | descentTo hname =>
      show Bare (String.ofList _).toList
      rw [String.toList_ofList]
      exact hname
  | group _ hgroup => exact (contents_of_readGroup hgroup).wellFormed

/-- What holds of every segment holds of all selectors behind the start of an expression. -/
theorem forall_of_readSelectors {P : Selector → Prop}
    (hP : ∀ {seg rest : List Char} {s : Selector}, Segment seg s rest → P s) {text : List Char}
    {ss : List Selector} (h : readSelectors text = .ok ss) : ∀ s ∈ ss, P s := by
  fun_induction readSelectors text generalizing ss with
  | case1 =>
      cases h
      simp
  | case2 c rest hc ih => exact ih h
  | case3 => cases h
  | case4 c rest hc s after hread ih =>
      obtain ⟨seg, hseg, -⟩ := segment_of_readSelector hread
      obtain ⟨others, hafter, rfl⟩ := map_eq_ok h
      exact List.forall_mem_cons.2 ⟨hP hseg, ih hafter⟩

/-- An expression has a start, which is nothing, the root selector or a member, and selectors behind
it. The text of the start opens and closes nothing. -/
theorem exists_start {text : List Char} {ss : List Selector} (h : readExpression text = .ok ss) :
    ∃ front more start others, text = front ++ more ∧ (∀ c ∈ front, Inert c) ∧
      readSelectors more = .ok others ∧ ss = start ++ others ∧
      (start = [] ∨ start = [.root] ∨
        ∃ name, Bare name ∧ start = [.member (String.ofList name)]) := by
  obtain ⟨blanks, hblanks, htext, -⟩ := exists_skipBlanks text
  have hinert : ∀ c ∈ blanks, Inert c := fun c hc => inert_of_isBlank (hblanks c hc)
  rw [readExpression] at h
  generalize skipBlanks text = core at h htext
  subst htext
  cases core with
  | nil =>
      cases h
      exact ⟨blanks, [], [], [], rfl, hinert, by rw [readSelectors], rfl, .inl rfl⟩
  | cons c rest =>
      rw [readStart] at h
      split at h
      · rename_i hroot
        subst hroot
        obtain ⟨others, hrest, rfl⟩ := map_eq_ok h
        have hfront : ∀ d ∈ blanks ++ ['$'], Inert d :=
          List.forall_mem_append.2 ⟨hinert, forall_mem_of_all rfl⟩
        exact ⟨_, rest, _, others, by simp, hfront, hrest, rfl, .inr (.inl rfl)⟩
      split at h
      · cases h
      split at h
      · rename_i hname
        obtain ⟨others, hrest, rfl⟩ := map_eq_ok h
        have hbare : Bare ((c :: rest).takeWhile isNameChar) := bare_takeWhile (by simp [hname])
        have hfront : ∀ d ∈ blanks ++ (c :: rest).takeWhile isNameChar, Inert d :=
          List.forall_mem_append.2 ⟨hinert, fun d hd => inert_of_isNameChar (hbare.all d hd)⟩
        refine ⟨_, _, [_], others, ?_, hfront, hrest, rfl, .inr (.inr ⟨_, hbare, rfl⟩)⟩
        rw [List.append_assoc, List.takeWhile_append_dropWhile]
      · exact ⟨blanks, _, [], ss, rfl, hinert, h, rfl, .inl rfl⟩

/-- Behind the start of an expression stands no root selector. -/
theorem root_notMem_of_readSelectors {text : List Char} {ss : List Selector}
    (h : readSelectors text = .ok ss) : .root ∉ ss :=
  fun hroot => forall_of_readSelectors Segment.wellFormed h .root hroot

/-- The selectors of an expression are well formed. -/
theorem wellFormed_of_readExpression {text : List Char} {ss : List Selector}
    (h : readExpression text = .ok ss) : WellFormed ss := by
  obtain ⟨-, more, start, others, -, -, hread, rfl, hstart⟩ := exists_start h
  have hothers := forall_of_readSelectors Segment.wellFormed hread
  rcases hstart with rfl | rfl | ⟨name, hname, rfl⟩
  · exact .other hothers
  · exact .root hothers
  · refine .other (List.forall_mem_cons.2 ⟨?_, hothers⟩)
    show Bare (String.ofList name).toList
    rwa [String.toList_ofList]

end Expression

end PathQuery
