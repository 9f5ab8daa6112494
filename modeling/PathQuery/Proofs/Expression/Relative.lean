import PathQuery.Proofs.Expression.Misread
import PathQuery.Proofs.Selection.Path

/-!
# One path from the root and from the current value

The same text can stand behind the sign of the root and, in a filter, behind the sign of the current
value. There it is read as selectors and here as keys, by two readers with rules of their own for
names, brackets and blanks. `ReadAlike path selectors` says how the two readings of one text are
related: key by key and selector by selector, except for stars. In a filter a name behind a dot
takes the stars behind it; elsewhere it ends before the first star, and each star is a selector of
all children. `readAlike` shows that where both readers take the whole text there is no other
difference, and so, if no star is read as a selector, both readings lead to the same value
(`leadTo_eq_of_readPath`).
-/

namespace PathQuery

open Text Text.Quoted Expression

/-- A selector is written as one key of a path may be: a name behind a dot or between brackets, or a
position. -/
inductive Selector.Spells : Selector → Key → Prop
  | member (n : String) : Spells (.member n) (.name n)
  | keys (n : String) : Spells (.keys [.name n]) (.name n)
  | positions (i : Int64) : Spells (.positions [i]) (.position i)

/-- The two readings of one text: the keys of a path in a filter, and selectors. -/
inductive ReadAlike : List Key → List Selector → Prop
  | nil : ReadAlike [] []
  | cons {s : Selector} {key : Key} {path : List Key} {selectors : List Selector}
    (hkey : s.Spells key) (hpath : ReadAlike path selectors) :
    ReadAlike (key :: path) (s :: selectors)
  /-- A name of stars alone, each of which is a selector. -/
  | stars (n : Nat) {path : List Key} {selectors : List Selector}
    (hpath : ReadAlike path selectors) :
    ReadAlike (.name (String.ofList (List.replicate (n + 1) '*')) :: path)
      (List.replicate (n + 1) .children ++ selectors)
  /-- A name with stars behind it, each of which is a selector. -/
  | starred {name : List Char} (hname : Bare name) (n : Nat) {path : List Key}
    {selectors : List Selector} (hpath : ReadAlike path selectors) :
    ReadAlike (.name (String.ofList (name ++ List.replicate (n + 1) '*')) :: path)
      (.member (String.ofList name) :: (List.replicate (n + 1) .children ++ selectors))

/-- What spells a key picks by this key alone. -/
theorem Selector.Spells.follows {s : Selector} {key : Key} (h : s.Spells key) : s.Follows key := by
  cases h with
  | member n => exact .member n
  | keys n => exact .keys (.name n)
  | positions i => exact .positions i

/-- What spells a key is no star. -/
theorem Selector.Spells.ne_children {s : Selector} {key : Key} (h : s.Spells key) :
    s ≠ .children := by
  rintro rfl
  cases h

/-- The two readings of a text agree one by one if none of the selectors is a star, and only
then. -/
theorem ReadAlike.forall₂_iff {path : List Key} {selectors : List Selector}
    (h : ReadAlike path selectors) :
    List.Forall₂ Selector.Spells selectors path ↔ .children ∉ selectors := by
  constructor
  · intro hspells hstar
    obtain ⟨key, -, hkey⟩ := exists_of_mem_forall₂ hspells hstar
    exact hkey.ne_children rfl
  · intro hstar
    induction h with
    | nil => exact .nil
    | cons hkey _ ih => exact .cons hkey (ih fun hmem => hstar (List.mem_cons_of_mem _ hmem))
    | stars n _ _ =>
        exact absurd (List.mem_append_left _ (List.mem_replicate.2 ⟨n.succ_ne_zero, rfl⟩)) hstar
    | starred _ n _ _ =>
        exact absurd (List.mem_cons_of_mem _
          (List.mem_append_left _ (List.mem_replicate.2 ⟨n.succ_ne_zero, rfl⟩))) hstar

namespace Expression

/-! ## Names -/

/-- No name of a filter goes on with a blank. -/
theorem isBlank_of_isPathChar {c : Char} (h : isPathChar c = true) : isBlank c = false := by
  rw [isPathChar, Bool.and_eq_true, Bool.not_eq_true'] at h
  exact h.1

/-- What a name takes in a filter it takes elsewhere, but for a star. -/
theorem isNameChar_of_isPathChar {c : Char} (h : isPathChar c = true) (hstar : c ≠ '*') :
    isNameChar c = true := by
  have hsubset : ∀ d ∈ namePunctuation, d = '*' ∨ d ∈ pathPunctuation := by
    simp [namePunctuation, pathPunctuation]
  have hpath : c ∉ pathPunctuation := by
    intro hmem
    rw [isPathChar, List.contains_iff_mem.2 hmem, Bool.not_true, Bool.and_false] at h
    cases h
  have hname : c ∉ namePunctuation := fun hmem => (hsubset c hmem).elim hstar hpath
  simp [isNameChar, isBlank_of_isPathChar h, hname]

/-- Of the characters that a name takes in a filter only the star begins a selector. -/
theorem eq_star_of_readSelector {c : Char} {text rest : List Char} {s : Selector}
    (hc : isPathChar c = true) (h : readSelector c text = .ok (s, rest)) : c = '*' := by
  unfold readSelector at h
  split at h
  · rename_i hdot
    subst hdot
    cases hc
  split at h
  · rename_i hbracket
    subst hbracket
    cases hc
  split at h
  · assumption
  split at h <;> cases h

/-- Of the characters that a name takes in a filter only stars can be read as selectors, each as one
of all children. -/
theorem exists_of_readSelectors_stars {stars rest : List Char} {ss : List Selector}
    (hstars : ∀ c ∈ stars, isPathChar c = true) (h : readSelectors (stars ++ rest) = .ok ss) :
    ∃ n others, stars = List.replicate n '*' ∧ ss = List.replicate n .children ++ others ∧
      readSelectors rest = .ok others := by
  induction stars generalizing ss with
  | nil => exact ⟨0, ss, rfl, rfl, h⟩
  | cons c stars ih =>
      obtain ⟨hc, hmany⟩ := List.forall_mem_cons.1 hstars
      have hstar : c = '*' := by
        rw [List.cons_append, readSelectors, isBlank_of_isPathChar hc, if_neg Bool.false_ne_true]
          at h
        split at h
        · cases h
        · rename_i hread
          exact eq_star_of_readSelector hc hread
      subst hstar
      have hread : readSelectors ('*' :: (stars ++ rest)) =
          (readSelectors (stars ++ rest)).map (.children :: ·) := readSelectors_segment .star
      rw [List.cons_append, hread] at h
      obtain ⟨more, hmore, rfl⟩ := map_eq_ok h
      obtain ⟨n, others, rfl, rfl, hrest⟩ := ih hmany hmore
      exact ⟨n + 1, others, rfl, rfl, hrest⟩

/-- A dot in front of a star changes nothing. -/
theorem readSelectors_dotStar (text : List Char) :
    readSelectors ('.' :: '*' :: text) = readSelectors ('*' :: text) := by
  have hdot : readSelectors ('.' :: '*' :: text) = (readSelectors text).map (.children :: ·) :=
    readSelectors_segment .dotStar
  have hstar : readSelectors ('*' :: text) = (readSelectors text).map (.children :: ·) :=
    readSelectors_segment .star
  rw [hdot, hstar]

/-- A name behind a dot as a filter takes it, with what is behind it read alike. -/
theorem readAlike_name {word rest : List Char} {path : List Key} {ss : List Selector}
    (hne : word ≠ []) (hword : ∀ c ∈ word, isPathChar c = true) (hrest : EndsName rest)
    (hpath : ∀ others, readSelectors rest = .ok others → ReadAlike path others)
    (h : readSelectors ('.' :: (word ++ rest)) = .ok ss) :
    ReadAlike (.name (String.ofList word) :: path) ss := by
  have hsplit := List.takeWhile_append_dropWhile (p := isNameChar) (l := word)
  have hends := endsName_dropWhile word
  have hbare : word.takeWhile isNameChar ≠ [] → Bare (word.takeWhile isNameChar) := bare_takeWhile
  generalize word.takeWhile isNameChar = name at hsplit hbare
  generalize word.dropWhile isNameChar = stars at hsplit hends
  subst hsplit
  have hstars : ∀ c ∈ stars, isPathChar c = true := fun c hc =>
    hword c (List.mem_append_right _ hc)
  by_cases hname : name = []
  · subst hname
    rw [List.nil_append] at hne h ⊢
    obtain ⟨c, more, rfl⟩ := List.exists_cons_of_ne_nil hne
    have hc : c = '*' := by
      by_contra hstar
      have := hends c rfl
      rw [isNameChar_of_isPathChar (hstars c List.mem_cons_self) hstar] at this
      cases this
    subst hc
    rw [List.cons_append, readSelectors_dotStar, ← List.cons_append] at h
    obtain ⟨n, others, heq, rfl, hothers⟩ := exists_of_readSelectors_stars hstars h
    cases n with
    | zero => cases heq
    | succ n =>
        rw [heq]
        exact .stars n (hpath others hothers)
  · have hends' : EndsName (stars ++ rest) := by
      cases stars with
      | nil => exact hrest
      | cons c more => exact hends
    rw [List.append_assoc, ← List.cons_append,
      readSelectors_segment (.member (hbare hname) hends')] at h
    obtain ⟨more, hmore, rfl⟩ := map_eq_ok h
    obtain ⟨n, others, rfl, rfl, hothers⟩ := exists_of_readSelectors_stars hstars hmore
    cases n with
    | zero =>
        rw [List.replicate_zero, List.append_nil, List.replicate_zero, List.nil_append]
        exact .cons (.member _) (hpath others hothers)
    | succ n => exact .starred (hbare hname) n (hpath others hothers)

/-! ## Brackets -/

/-- The text of a key between brackets in a filter: a quoted name, or signs and digits that write an
integer, be it with zeros in front. -/
inductive PathKeyText : List Char → Key → Prop
  | name {quote : Char} {body value : List Char} (hquote : isQuote quote = true)
    (hbody : Body quote body value) :
    PathKeyText (quote :: body ++ [quote]) (.name (String.ofList value))
  | position {c : Char} {text : List Char} {i : Int64} (hstart : startsNumber c = true)
    (hall : ∀ d ∈ c :: text, isPositionChar d = true) (hread : readInt64? (c :: text) = some i) :
    PathKeyText (c :: text) (.position i)

namespace PathKeyText

variable {text : List Char} {key : Key}

/-- The text of a key begins with a quote or as a number does. -/
theorem exists_cons (h : PathKeyText text key) :
    ∃ c more, text = c :: more ∧ (isQuote c = true ∨ startsNumber c = true) := by
  cases h with
  | name hquote _ => exact ⟨_, _, rfl, .inl hquote⟩
  | position hstart _ _ => exact ⟨_, _, rfl, .inr hstart⟩

/-- The text of a key opens and closes nothing. -/
theorem scans (h : PathKeyText text key) (d : Nat) : Scans d text d := by
  cases h with
  | name hquote hbody => exact .of_quoted hquote hbody d
  | position _ hall _ => exact scans_signAndDigits (fun c hc => mem_signAndDigits (hall c hc)) d

/-- The text of a key is not cut at a colon or a comma. -/
theorem whole (h : PathKeyText text key) {separator : Char}
    (hseparator : separator = ':' ∨ separator = ',') : Whole separator text := by
  cases h with
  | name hquote hbody => exact (KeyText.name hquote hbody).whole hseparator
  | position _ hall _ =>
      exact whole_signAndDigits (fun c hc => mem_signAndDigits (hall c hc)) hseparator

/-- The text of a key has no blanks at its ends. -/
theorem tidy (h : PathKeyText text key) : Tidy text := by
  cases h with
  | name hquote hbody => exact (KeyText.name hquote hbody).tidy
  | position _ hall _ => exact tidy_signAndDigits fun c hc => mem_signAndDigits (hall c hc)

/-- As the contents of a group the text is read as that key. -/
theorem readKey_eq (h : PathKeyText text key) : readKey text ⟨0, text⟩ = .ok key := by
  rw [readKey, h.tidy.trim_eq]
  cases h with
  | name hquote hbody => exact readKeyText_name hquote hbody _ _
  | position hstart _ hread => exact readKeyText_position hstart hread _ _

/-- As the contents of a group the text is read as a list of that key alone. -/
theorem readGroup_eq (h : PathKeyText text key) : readGroup text = .ok (ofKeys [key]) := by
  have hkeys : readKeys text = .ok (ofKeys [key]) := by
    have hread : [Piece.mk 0 text].mapM (readKey text) = .ok [key] :=
      mapM_eq_ok_iff.2 (.cons h.readKey_eq .nil)
    rw [readKeys, pieces_of_whole (h.whole (.inr rfl)), hread]
    rfl
  have hwhole := h.whole (.inl rfl)
  obtain ⟨c, more, rfl, hc⟩ := h.exists_cons
  rw [readGroup_cons (ne_of_keyStart hc), pieces_of_whole hwhole, if_neg (by simp), hkeys]

end PathKeyText

/-- A list of one key alone spells it. -/
theorem spells_ofKeys (key : Key) : (ofKeys [key]).Spells key := by
  cases key with
  | name n => exact .keys n
  | position i => exact .positions i

/-- What a filter reads as a key is the text of the key. -/
theorem exists_of_readPathKey {text rest : List Char} {key : Key}
    (h : readPathKey text = .ok (key, rest)) :
    ∃ body, PathKeyText body key ∧ text = body ++ rest := by
  unfold readPathKey at h
  split at h
  · cases h
  rename_i c text
  split at h
  · rename_i hquote
    obtain ⟨⟨value, after⟩, hread, heq⟩ := map_eq_ok h
    cases heq
    obtain ⟨body, hbody, rfl⟩ := (readQuoted_eq_ok_iff hquote).1 hread
    exact ⟨_, .name hquote hbody, by simp⟩
  split at h
  · rename_i hstart
    dsimp only at h
    split at h
    · rename_i i hread
      cases h
      have hc : isPositionChar c = true := by rwa [isPositionChar, Bool.or_comm]
      have hhead : (c :: text).takeWhile isPositionChar = c :: text.takeWhile isPositionChar :=
        List.takeWhile_cons_of_pos hc
      have hall : ∀ d ∈ (c :: text).takeWhile isPositionChar, isPositionChar d = true :=
        List.all_eq_true.1 List.all_takeWhile
      rw [hhead] at hread hall
      refine ⟨_, .position hstart hall hread, ?_⟩
      rw [← hhead, List.takeWhile_append_dropWhile]
    · cases h
  · cases h

/-- What a filter reads as a key in brackets is a group that spells this key. -/
theorem exists_segment_of_readPathBracket {text rest : List Char} {key : Key}
    (h : readPathBracket text = .ok (key, rest)) :
    ∃ seg s, s.Spells key ∧ Segment seg s rest ∧ '[' :: text = seg ++ rest := by
  unfold readPathBracket at h
  split at h
  · cases h
  rename_i more hkey
  split at h
  · rename_i hclose
    cases h
    obtain ⟨before, hbefore, htext, -⟩ := exists_skipBlanks text
    obtain ⟨body, hbody, hskip⟩ := exists_of_readPathKey hkey
    obtain ⟨after, hafter, hmore, -⟩ := exists_skipBlanks more
    rw [hclose] at hmore
    have hscans : Scans 0 (before ++ (body ++ after)) 0 :=
      (Scans.of_inert (fun c hc => inert_of_isBlank (hbefore c hc)) 0).append
        ((hbody.scans 0).append (.of_inert (fun c hc => inert_of_isBlank (hafter c hc)) 0))
    refine ⟨_, ofKeys [key], spells_ofKeys key, .group hscans ?_, ?_⟩
    · rw [trim_append hbefore hafter hbody.tidy]
      exact hbody.readGroup_eq
    · rw [htext, hskip, hmore]
      simp
  · cases h

/-! ## Paths -/

variable {text left : List Char} {path : List Key} {ss : List Selector}

/-- Where a path is read and only blanks are left, no name goes on. -/
theorem endsName_of_pathRead (h : PathRead text path left) (hleft : Blank left) :
    EndsName text := by
  intro c hc
  cases h with
  | done _ _ => exact isNameChar_of_isBlank (hleft c (List.mem_of_mem_head? hc))
  | name | bracket =>
      cases hc
      decide

/-- A text that both readers take is read alike. -/
theorem readAlike (hpath : PathRead text path left) (hleft : Blank left)
    (hselectors : readSelectors text = .ok ss) : ReadAlike path ss := by
  induction hpath generalizing ss with
  | done _ _ =>
      rw [readSelectors_eq_nil_iff.2 hleft] at hselectors
      cases hselectors
      exact .nil
  | @name text rest left key path hname hpath ih =>
      unfold readPathName at hname
      dsimp only at hname
      split at hname
      · cases hname
      rename_i hne
      cases hname
      have hword : ∀ c ∈ text.takeWhile isPathChar, isPathChar c = true :=
        List.all_eq_true.1 List.all_takeWhile
      rw [← List.takeWhile_append_dropWhile (p := isPathChar) (l := text)] at hselectors
      exact readAlike_name hne hword (endsName_of_pathRead hpath hleft)
        (fun _ hothers => ih hleft hothers) hselectors
  | bracket hbracket _ ih =>
      obtain ⟨seg, s, hspells, hseg, htext⟩ := exists_segment_of_readPathBracket hbracket
      rw [htext, readSelectors_segment hseg] at hselectors
      obtain ⟨others, hothers, rfl⟩ := map_eq_ok hselectors
      exact .cons hspells (ih hleft hothers)

/-- If no star of the text is read as a selector, its selectors lead where its path leads. -/
theorem leadTo_eq_of_readPath (hpath : readPath text = .ok (path, left)) (hleft : Blank left)
    (hselectors : readSelectors text = .ok ss) (hstar : .children ∉ ss) (config : Config)
    (v : Value) : leadTo config ss v = (v.resolve? config path).toList := by
  have hspells := (readAlike (pathRead_of_readPath hpath) hleft hselectors).forall₂_iff.2 hstar
  exact leadTo_eq_of_follows (hspells.imp fun _ _ => Selector.Spells.follows) config v

/-! ## Filters -/

/-- What is read as a comparison is no condition that a path leads to something. -/
theorem readComparing_ne_present (path found : List Key) (text : List Char) :
    readComparing path text ≠ .ok (.present found) := by
  intro h
  unfold readComparing at h
  split at h
  · cases h
  split at h
  · cases h
  split at h <;> cases h

/-- A condition that a path leads to something is the path and blanks. -/
theorem exists_of_readCondition_present (h : readCondition ('@' :: text) = .ok (.present path)) :
    ∃ left, readPath text = .ok (path, left) ∧ Blank left := by
  rw [readCondition, skipBlanks_at] at h
  cases hread : readPath text with
  | error f =>
      simp only [hread] at h
      cases h
  | ok found =>
      simp only [hread] at h
      split at h
      · rename_i hskip
        cases h
        obtain ⟨blanks, hblanks, hleft, -⟩ := exists_skipBlanks found.2
        rw [hskip, List.append_nil] at hleft
        exact ⟨found.2, rfl, hleft ▸ hblanks⟩
      · exact absurd h (readComparing_ne_present _ _ _)

/-- A group alone is all that stands between its brackets. -/
theorem readGroup_of_readSelectors {inner : List Char} {s : Selector}
    (h : readSelectors ('[' :: (inner ++ [']'])) = .ok [s]) : readGroup (trim inner) = .ok s := by
  obtain ⟨s, others, found, more, heq, -, htext, hgroup, hmore⟩ := exists_of_readSelectors_group h
  obtain ⟨rfl, rfl⟩ := List.cons.inj heq
  -- Behind the closing bracket stand only blanks, and the last character is none.
  rcases List.eq_nil_or_concat' more with rfl | ⟨init, c, rfl⟩
  · rwa [List.append_cancel_right htext]
  · rw [← List.cons_append, ← List.append_assoc] at htext
    have hc : [']'] = [c] := (List.append_inj' htext rfl).2
    cases hc
    have hblank : isBlank ']' = true :=
      readSelectors_eq_nil_iff.1 hmore _ (List.mem_append_right _ List.mem_cons_self)
    cases hblank

/-- A filter in parentheses is the condition between them. -/
theorem readCondition_of_readGroup {condition : Condition}
    (h : readGroup ('?' :: ('(' :: text ++ [')'])) = .ok (.filter condition)) :
    readCondition text = .ok condition := by
  have htrim : trim ('(' :: text ++ [')']) = '(' :: text ++ [')'] :=
    (tidy_of_ends (by decide) (by decide) text).trim_eq
  obtain ⟨inner, found, hinner, hread, heq⟩ := exists_of_readFilter h
  cases heq
  rw [htrim, unwrap?_parentheses] at hinner
  rcases hinner with hinner | rfl
  · cases hinner
    exact hread
  · exact absurd hread (readCondition_parenthesis _ _)

/-- Where a text is read behind the sign of the root, and behind the sign of the current value as a
path that leads to something, the selectors and the keys of the path are alike: one by one if no
star is read as a selector, and only then. -/
theorem readExpression_relative {text : List Char} {selectors : List Selector} {path : List Key}
    (hroot : readExpression ('$' :: text) = .ok selectors)
    (hcurrent : readExpression ('[' :: '?' :: '(' :: '@' :: (text ++ [')', ']'])) =
      .ok [.filter (.present path)]) :
    ∃ others, selectors = .root :: others ∧ ReadAlike path others ∧
      (List.Forall₂ Selector.Spells others path ↔ .children ∉ others) := by
  have hskip : skipBlanks ('$' :: text) = '$' :: text :=
    skipBlanks_eq_self fun c hc => by cases hc; decide
  rw [readExpression, hskip, readStart, if_pos rfl] at hroot
  obtain ⟨others, hselectors, rfl⟩ := map_eq_ok hroot
  have htext : '[' :: '?' :: '(' :: '@' :: (text ++ [')', ']']) =
      '[' :: (('?' :: ('(' :: '@' :: text ++ [')'])) ++ [']']) := by
    simp
  rw [htext, readExpression_eq_readSelectors (.inr (.inl rfl))] at hcurrent
  have hgroup := readGroup_of_readSelectors hcurrent
  rw [← List.cons_append, (tidy_of_ends (by decide) (by decide) _).trim_eq] at hgroup
  obtain ⟨left, hpath, hleft⟩ := exists_of_readCondition_present (readCondition_of_readGroup hgroup)
  have halike := readAlike (pathRead_of_readPath hpath) hleft hselectors
  exact ⟨others, rfl, halike, halike.forall₂_iff⟩

/-- A star behind a dot is a selector of all children behind the sign of the root, and a name in a
filter. -/
theorem not_spells_star : ∃ others,
    readExpression ['$', '.', '*'] = .ok (.root :: others) ∧
      readExpression ['[', '?', '(', '@', '.', '*', ')', ']'] =
        .ok [.filter (.present [.name "*"])] ∧
      ReadAlike [.name "*"] others ∧ ¬List.Forall₂ Selector.Spells others [.name "*"] := by
  have hroot : readExpression ['$', '.', '*'] = .ok [.root, .children] := by decide +kernel
  have hcurrent : readExpression ['[', '?', '(', '@', '.', '*', ')', ']'] =
      .ok [.filter (.present [.name "*"])] := by decide +kernel
  obtain ⟨others, heq, halike, hspells⟩ :=
    @readExpression_relative ['.', '*'] _ [.name "*"] hroot hcurrent
  cases heq
  exact ⟨[.children], hroot, hcurrent, halike, fun h => hspells.1 h List.mem_cons_self⟩

end Expression

end PathQuery
