import PathQuery.Proofs.Expression.Written
import PathQuery.Proofs.Selection.Discern

/-!
# What an unfaithful text is read as

A text in brackets is followed as far as it is known, up to the first key that is not faithful
(`exists_of_readSelectors_bracket`), and that key is read as another one. So the text of a list of
keys is read, if at all, as a slice or as a list of other names (`exists_of_readSelectors_keys`),
and the text of a filter as one with another name in its path (`exists_of_readSelectors_filter`). A
double that is not finite is not read at all (`readLiteral_writeFloat`).
-/

namespace PathQuery.Expression

open Text Text.Quoted

/-! ## Brackets -/

/-- What begins with a bracket is a group and the selectors behind it. -/
theorem exists_of_readSelectors_group {text : List Char} {ss : List Selector}
    (h : readSelectors ('[' :: text) = .ok ss) :
    ∃ s others inner more, ss = s :: others ∧ Scans 0 inner 0 ∧ text = inner ++ ']' :: more ∧
      readGroup (trim inner) = .ok s ∧ readSelectors more = .ok others := by
  rw [readSelectors, if_neg (by decide)] at h
  split at h
  · cases h
  · rename_i s rest hread
    obtain ⟨others, hothers, rfl⟩ := map_eq_ok h
    rw [readSelector, if_neg (by decide), if_pos rfl] at hread
    obtain ⟨inner, hinner, htext, hgroup⟩ := readBracket_eq_ok_iff.1 hread
    exact ⟨s, others, inner, rest, rfl, hinner, htext, hgroup, hothers⟩

/-- A group whose beginning is known goes on to where nothing is open. -/
theorem exists_of_readSelectors_bracket {front text : List Char} {d : Nat} {ss : List Selector}
    (hfront : Scans 0 front d) (h : readSelectors ('[' :: (front ++ text)) = .ok ss) :
    ∃ s others inner more, ss = s :: others ∧ .root ∉ others ∧ Scans d inner 0 ∧
      text = inner ++ ']' :: more ∧ readGroup (trim (front ++ inner)) = .ok s := by
  obtain ⟨s, others, whole, rest, rfl, hwhole, htext, hgroup, hothers⟩ :=
    exists_of_readSelectors_group h
  have hclosing : closing ('[' :: (front ++ text)) 0 (front ++ text) = .ok rest :=
    closing_eq_ok_iff.2 ⟨whole, hwhole, htext⟩
  rw [closing_of_scans hfront] at hclosing
  obtain ⟨inner, hinner, rfl⟩ := scans_of_closing hclosing
  rw [← List.append_assoc] at htext
  rw [← List.append_cancel_right htext] at hgroup
  exact ⟨s, others, inner, rest, rfl, root_notMem_of_readSelectors hothers, hinner, rfl, hgroup⟩

/-- A quoted text in a group of which the beginning is known is read up to its closing quote. -/
theorem exists_of_readSelectors_quote {front text : List Char} {d : Nat} {quote : Char}
    {ss : List Selector} (hquote : isQuote quote = true) (hfront : Scans 0 front d)
    (h : readSelectors ('[' :: (front ++ quote :: text)) = .ok ss) :
    ∃ s others body value inner more, ss = s :: others ∧ .root ∉ others ∧ Body quote body value ∧
      text = body ++ quote :: (inner ++ ']' :: more) ∧
      readGroup (trim (front ++ (quote :: body ++ [quote] ++ inner))) = .ok s := by
  obtain ⟨s, others, inner, more, rfl, hroot, hinner, htext, hgroup⟩ :=
    exists_of_readSelectors_bracket hfront h
  cases inner with
  | nil =>
      obtain ⟨rfl, -⟩ := List.cons.inj htext
      cases hquote
  | cons c inner =>
      obtain ⟨rfl, rfl⟩ := List.cons.inj htext
      obtain ⟨body, value, left, hbody, rfl, -⟩ := hinner.of_quote hquote
      refine ⟨s, others, body, value, left, more, rfl, hroot, hbody, by simp, ?_⟩
      simpa using hgroup

/-! ## Lists of keys -/

/-- A list with an unfaithful key has a first one, which is a name with a backslash in it. -/
theorem exists_first_unfaithful {ks : List Key} (h : ¬∀ key ∈ ks, key.Faithful) :
    ∃ front n more, ks = front ++ .name n :: more ∧ (∀ key ∈ front, key.Faithful) ∧
      '\\' ∈ n.toList := by
  induction ks with
  | nil => exact absurd (by simp) h
  | cons key ks ih =>
      by_cases hkey : key.Faithful
      · have hks : ¬∀ key ∈ ks, key.Faithful := fun hall =>
          h (List.forall_mem_cons.2 ⟨hkey, hall⟩)
        obtain ⟨front, n, more, rfl, hfront, hn⟩ := ih hks
        exact ⟨key :: front, n, more, rfl, List.forall_mem_cons.2 ⟨hkey, hfront⟩, hn⟩
      · cases key with
        | name n => exact ⟨[], n, ks, rfl, by simp, Decidable.not_not.1 hkey⟩
        | position i => exact absurd trivial hkey

/-- A piece that begins with a quoted text can only be read as what the text denotes. -/
theorem eq_of_readKey {quote : Char} {body value after text : List Char} {piece : Piece} {key : Key}
    (hquote : isQuote quote = true) (hbody : Body quote body value)
    (hpiece : piece.text = quote :: body ++ [quote] ++ after)
    (h : readKey text piece = .ok key) : key = .name (String.ofList value) := by
  have htidy : Tidy (quote :: body ++ [quote]) :=
    tidy_of_ends (isBlank_of_isQuote hquote) (isBlank_of_isQuote hquote) body
  obtain ⟨left, hleft⟩ := exists_trim_append htidy (by simp) after
  rw [readKey, hpiece, hleft] at h
  have hread : Quoted.read quote (body ++ quote :: left) = .ok (value, left) :=
    read_body (ne_slash_of_isQuote hquote) hbody left
  rw [List.cons_append, List.cons_append, List.append_assoc, List.singleton_append, readKeyText,
    if_pos hquote, hread] at h
  cases left with
  | nil => exact (Except.ok.inj h).symm
  | cons => cases h

/-- A list of keys of which the first ones and a quoted text behind them are known. -/
theorem exists_of_readKeys {texts : List (List Char)} {front : List Key} {quote : Char}
    {body value after : List Char} {s : Selector} (hfront : List.Forall₂ KeyText texts front)
    (hquote : isQuote quote = true) (hbody : Body quote body value)
    (h : readKeys (texts.flatMap (· ++ [',']) ++ (quote :: body ++ [quote] ++ after)) = .ok s) :
    ∃ more, s = .keys (front ++ .name (String.ofList value) :: more) := by
  have hwhole : Whole ',' (quote :: body ++ [quote]) :=
    (KeyText.name hquote hbody).whole (.inr rfl)
  obtain ⟨left, others, hpieces⟩ := exists_text_pieces
    (forall_of_forall₂ hfront fun _ _ hkey => hkey.whole (.inr rfl)) hwhole after
  obtain ⟨ks, hks, rfl⟩ := map_eq_ok h
  obtain ⟨known, rest, hsplit, hknown, hrest⟩ := List.map_eq_append_iff.1 hpieces
  obtain ⟨piece, pieces, rfl, hpiece, -⟩ := List.map_eq_cons_iff.1 hrest
  rw [hsplit] at hks
  obtain ⟨as, bs, has, hbs, rfl⟩ := exists_of_mapM_append hks
  obtain ⟨key, more, hkey, -, rfl⟩ := List.forall₂_cons_left_iff.1 (mapM_eq_ok_iff.1 hbs)
  have hsame : as = front := by
    rw [← hknown, List.forall₂_map_left_iff] at hfront
    exact Except.ok.inj (has.symm.trans
      (mapM_eq_ok_iff.2 (hfront.imp fun _ _ hkey => readKey_keyText hkey _)))
  rw [hsame, eq_of_readKey hquote hbody hpiece hkey]
  exact ⟨more, ofKeys_name (List.mem_append_right front List.mem_cons_self)⟩

/-- Keys with commas behind them and a quoted text begin as the first of them does, and have no
blanks at their ends. -/
theorem tidy_keys_quote {texts : List (List Char)} {front : List Key} {quote : Char}
    {body value : List Char} (hfront : List.Forall₂ KeyText texts front)
    (hquote : isQuote quote = true) (hbody : Body quote body value) :
    Tidy (texts.flatMap (· ++ [',']) ++ (quote :: body ++ [quote])) ∧
      ∃ c more, texts.flatMap (· ++ [',']) ++ (quote :: body ++ [quote]) = c :: more ∧
        (isQuote c = true ∨ startsNumber c = true) := by
  have hkey := KeyText.name hquote hbody
  cases hfront with
  | nil => exact ⟨hkey.tidy, hkey.exists_cons⟩
  | @cons text _ texts _ htext _ =>
      have hsplit : (text :: texts).flatMap (· ++ [',']) ++ (quote :: body ++ [quote]) =
          text ++ ((',' :: texts.flatMap (· ++ [','])) ++ (quote :: body ++ [quote])) := by simp
      rw [hsplit]
      refine ⟨htext.tidy.append hkey.tidy htext.ne_nil hkey.ne_nil _, ?_⟩
      obtain ⟨c, more, rfl, hc⟩ := htext.exists_cons
      exact ⟨c, _, rfl, hc⟩

/-- A group that begins with keys and a quoted text is a slice, or a list of these keys and what the
text denotes. -/
theorem exists_of_readGroup_keys {texts : List (List Char)} {front : List Key} {quote : Char}
    {body value after : List Char} {s : Selector} (hfront : List.Forall₂ KeyText texts front)
    (hquote : isQuote quote = true) (hbody : Body quote body value)
    (h : readGroup (trim (texts.flatMap (· ++ [',']) ++ (quote :: body ++ [quote] ++ after))) =
      .ok s) :
    (∃ bounds, s = .slice bounds) ∨
      ∃ more, s = .keys (front ++ .name (String.ofList value) :: more) := by
  obtain ⟨htidy, c, rest, hcons, hc⟩ := tidy_keys_quote hfront hquote hbody
  obtain ⟨left, hleft⟩ := exists_trim_append htidy (by simp) after
  rw [← List.append_assoc, hleft, List.append_assoc] at h
  have hkeys : readKeys (texts.flatMap (· ++ [',']) ++ (quote :: body ++ [quote] ++ left)) = .ok s →
      ∃ more, s = .keys (front ++ .name (String.ofList value) :: more) :=
    exists_of_readKeys hfront hquote hbody
  rw [← List.append_assoc, hcons, List.cons_append] at h hkeys
  rw [readGroup_cons (ne_of_keyStart hc)] at h
  split at h
  · obtain ⟨bounds, -, -, rfl, -⟩ := exists_of_readSlice h
    exact .inl ⟨_, rfl⟩
  · exact .inr (hkeys h)

/-- Keys with commas behind them open and close nothing. -/
theorem scans_keys {texts : List (List Char)} {ks : List Key} (h : List.Forall₂ KeyText texts ks) :
    Scans 0 (texts.flatMap (· ++ [','])) 0 := by
  induction h with
  | nil => exact .nil 0
  | cons hkey _ ih =>
      rw [List.flatMap_cons, List.append_assoc]
      exact (hkey.scans 0).append (.inert (by decide) ih)

/-- The text of a list with an unfaithful key is read, if at all, as a slice or as a list that names
something else. -/
theorem exists_of_readSelectors_keys {ks : List Key} (hks : ¬∀ key ∈ ks, key.Faithful)
    {ss : List Selector} (h : readSelectors (Selector.keys ks).written = .ok ss) :
    ∃ s found others, ss = s :: others ∧ .root ∉ others ∧ ((∃ bounds, s = .slice bounds) ∨
      s = .keys found ∧ found.filterMap Key.name? ≠ ks.filterMap Key.name?) := by
  obtain ⟨front, n, more, rfl, hfront, hn⟩ := exists_first_unfaithful hks
  obtain ⟨rest, hrest⟩ := exists_intercalate ',' (front.map Key.written)
    (Key.name n).written (more.map Key.written)
  have htexts := forall₂_keyText hfront
  have hwritten : (Selector.keys (front ++ .name n :: more)).written =
      '[' :: ((front.map Key.written).flatMap (· ++ [',']) ++
        '\'' :: (n.toList.flatMap Key.escapeQuote ++ '\'' :: (rest ++ [']']))) := by
    rw [Selector.written, List.map_append, List.map_cons, hrest]
    simp [Key.written]
  rw [hwritten] at h
  obtain ⟨s, others, body, value, inner, after, rfl, hroot, hbody, htext, hgroup⟩ :=
    exists_of_readSelectors_quote rfl (scans_keys htexts) h
  rcases exists_of_readGroup_keys htexts rfl hbody hgroup with hslice | ⟨found, rfl⟩
  · exact ⟨s, [], others, rfl, hroot, .inl hslice⟩
  · refine ⟨_, _, others, rfl, hroot, .inr ⟨rfl, fun hsame => ?_⟩⟩
    refine Key.ne_of_body_escapeQuote hn hbody htext ?_
    rw [List.filterMap_append, List.filterMap_append, List.append_cancel_left_eq,
      Key.filterMap_name?_cons, Key.filterMap_name?_cons] at hsame
    rw [← (List.cons.inj hsame).1, String.toList_ofList]

/-! ## Conditions -/

/-- A path that begins with a quoted key begins with what the quoted text denotes. -/
theorem exists_of_readPath_quote {quote : Char} {body value rest left : List Char}
    {path : List Key} (hquote : isQuote quote = true) (hbody : Body quote body value)
    (h : readPath ('[' :: (quote :: body ++ [quote] ++ rest)) = .ok (path, left)) :
    ∃ more, path = .name (String.ofList value) :: more := by
  have hskip : skipBlanks (quote :: body ++ [quote] ++ rest) = quote :: body ++ [quote] ++ rest :=
    skipBlanks_eq_self fun c hc => by cases hc; exact isBlank_of_isQuote hquote
  have hread : readQuoted quote (body ++ [quote] ++ rest) = .ok (value, rest) :=
    (readQuoted_eq_ok_iff hquote).2 ⟨body, hbody, by simp⟩
  have hkey : readPathKey (quote :: body ++ [quote] ++ rest) =
      .ok (.name (String.ofList value), rest) := by
    rw [List.cons_append, List.cons_append, readPathKey, if_pos hquote, hread]
    rfl
  rw [readPath] at h
  split at h
  · cases h
  · rename_i key after he
    obtain ⟨⟨more, last⟩, -, hpath⟩ := map_eq_ok h
    cases hpath
    unfold readPathBracket at he
    rw [hskip, hkey] at he
    dsimp only at he
    split at he <;> cases he
    exact ⟨more, rfl⟩

/-- What compares the value at a path keeps that path. -/
theorem path_of_readComparing {path : List Key} {text : List Char} {condition : Condition}
    (h : readComparing path text = .ok condition) : condition.path = path := by
  unfold readComparing at h
  split at h
  · cases h
  split at h
  · cases h
  split at h <;> cases h
  rfl

/-- A condition of which the first keys and a quoted key behind them are known. -/
theorem exists_of_readCondition_quote {text : List Char} {front : List Key} {quote : Char}
    {body value rest : List Char} {condition : Condition} (hfront : PathText text front)
    (hquote : isQuote quote = true) (hbody : Body quote body value)
    (h : readCondition ('@' :: (text ++ '[' :: (quote :: body ++ [quote] ++ rest))) =
      .ok condition) :
    ∃ more, condition.path = front ++ .name (String.ofList value) :: more := by
  rw [readCondition, skipBlanks_at] at h
  simp only [readPath_append hfront] at h
  split at h
  · cases h
  · rename_i path left hread
    obtain ⟨⟨more, after⟩, hmore, hpath⟩ := map_eq_ok hread
    cases hpath
    obtain ⟨others, rfl⟩ := exists_of_readPath_quote hquote hbody hmore
    refine ⟨others, ?_⟩
    split at h
    · cases h
      rfl
    · exact path_of_readComparing h

/-- What parentheses enclose begins as the text behind the first of them. -/
theorem exists_of_unwrap? {front after inner : List Char} {c : Char} (hc : c ≠ ')')
    (h : unwrap? ('(' :: (front ++ [c] ++ after)) = some inner) :
    ∃ left, inner = front ++ [c] ++ left := by
  rw [unwrap?] at h
  split at h
  · rename_i hlast
    cases h
    rcases List.eq_nil_or_concat after with rfl | ⟨left, d, rfl⟩
    · rw [List.append_nil, List.getLast?_concat] at hlast
      exact absurd (Option.some.inj hlast) hc
    · rw [List.concat_eq_append, ← List.append_assoc, List.dropLast_concat]
      exact ⟨left, rfl⟩
  · cases h

/-- A condition begins with the sign of the current value. -/
theorem readCondition_parenthesis (text : List Char) (condition : Condition) :
    readCondition ('(' :: text) ≠ .ok condition := by
  have hskip : skipBlanks ('(' :: text) = '(' :: text :=
    skipBlanks_eq_self fun d hd => by cases hd; decide
  rw [readCondition, hskip]
  intro h
  cases h

/-- A filter of which the first keys and a quoted key behind them are known. -/
theorem exists_of_readGroup_filter {text : List Char} {front : List Key} {quote : Char}
    {body value after : List Char} {s : Selector} (hfront : PathText text front)
    (hquote : isQuote quote = true) (hbody : Body quote body value)
    (h : readGroup (trim ('?' :: '(' :: '@' :: (text ++ '[' ::
      (quote :: body ++ [quote] ++ after)))) = .ok s) :
    ∃ condition more, s = .filter condition ∧
      condition.path = front ++ .name (String.ofList value) :: more := by
  have hparenthesis : quote ≠ ')' := by
    rintro rfl
    cases hquote
  obtain ⟨left, hleft⟩ := exists_trim_append
    (tidy_of_ends (c := '?') (by decide) (isBlank_of_isQuote hquote)
      ('(' :: '@' :: text ++ '[' :: quote :: body)) (by simp) after
  obtain ⟨last, hlast⟩ := exists_trim_append
    (tidy_of_ends (c := '(') (by decide) (isBlank_of_isQuote hquote)
      ('@' :: text ++ '[' :: quote :: body)) (by simp) left
  have htext : '?' :: '(' :: '@' :: (text ++ '[' :: (quote :: body ++ [quote] ++ after)) =
      '?' :: ('(' :: '@' :: text ++ '[' :: quote :: body) ++ [quote] ++ after := by simp
  rw [htext, hleft] at h
  obtain ⟨inner, condition, hinner, hread, rfl⟩ := exists_of_readFilter h
  change unwrap? (trim ('(' :: ('@' :: text ++ '[' :: quote :: body) ++ [quote] ++ left)) = _ ∨
    _ = trim ('(' :: ('@' :: text ++ '[' :: quote :: body) ++ [quote] ++ left) at hinner
  rw [hlast] at hinner
  rcases hinner with hinner | rfl
  · obtain ⟨rest, rfl⟩ := exists_of_unwrap? hparenthesis hinner
    have hcondition : readCondition ('@' :: (text ++ '[' :: (quote :: body ++ [quote] ++ rest))) =
        .ok condition := by simpa using hread
    obtain ⟨more, hmore⟩ := exists_of_readCondition_quote hfront hquote hbody hcondition
    exact ⟨condition, more, rfl, hmore⟩
  · exact absurd hread (readCondition_parenthesis _ condition)

/-- The text of a filter with an unfaithful key is read, if at all, as a filter with another name in
the place of the key. -/
theorem exists_of_readSelectors_filter {condition : Condition}
    (hpath : ¬∀ key ∈ condition.path, key.Faithful) {ss : List Selector}
    (h : readSelectors (Selector.filter condition).written = .ok ss) :
    ∃ front n more found others w rest, condition.path = front ++ .name n :: more ∧
      ss = .filter found :: others ∧ .root ∉ others ∧ found.path = front ++ .name w :: rest ∧
      w ≠ n := by
  obtain ⟨front, n, more, hsplit, hfront, hn⟩ := exists_first_unfaithful hpath
  have htext := pathText_of_faithful hfront
  obtain ⟨rest, hwritten⟩ : ∃ rest, (Selector.filter condition).written =
      '[' :: (('?' :: '(' :: '@' :: (front.flatMap fun key => '[' :: key.written ++ [']'])) ++
        ['['] ++ '\'' :: (n.toList.flatMap Key.escapeQuote ++ '\'' :: rest)) := by
    cases condition with
    | present path =>
        rw [show path = _ from hsplit]
        exact ⟨_, by simp [Selector.written, Condition.written, writePath, Key.written]; rfl⟩
    | compares path op literal =>
        rw [show path = _ from hsplit]
        exact ⟨_, by simp [Selector.written, Condition.written, writePath, Key.written]; rfl⟩
  have hscans : Scans 0 (('?' :: '(' :: '@' ::
      (front.flatMap fun key => '[' :: key.written ++ [']'])) ++ ['[']) 2 :=
    (Scans.filter (.inert (by decide) (htext.scans 1))).append (.opening (.inl rfl) (.nil 2))
  rw [hwritten] at h
  obtain ⟨s, others, body, value, inner, after, rfl, hroot, hbody, hread, hgroup⟩ :=
    exists_of_readSelectors_quote rfl hscans h
  rw [List.append_assoc, List.singleton_append, List.cons_append, List.cons_append,
    List.cons_append] at hgroup
  obtain ⟨found, others', rfl, hfound⟩ := exists_of_readGroup_filter htext rfl hbody hgroup
  refine ⟨front, n, more, found, others, _, others', hsplit, rfl, hroot, hfound, fun hsame => ?_⟩
  refine Key.ne_of_body_escapeQuote hn hbody hread ?_
  rw [← hsame, String.toList_ofList]

/-! ## Literals -/

/-- A filter in parentheses that open and close nothing else is read only if its condition is. -/
theorem exists_readCondition_of_readSelectors {text : List Char} {ss : List Selector}
    (hscans : Scans 1 text 1) (h : readSelectors ('[' :: ('?' :: '(' :: text ++ [')']) ++ [']']) =
      .ok ss) : ∃ condition, readCondition text = .ok condition := by
  have hfront : Scans 0 ('?' :: '(' :: text ++ [')']) 0 :=
    .filter (hscans.append (.closing (.inr rfl) (.nil 0)))
  obtain ⟨s, others, inner, more, -, -, -, hsplit, hgroup⟩ :=
    exists_of_readSelectors_bracket hfront h
  have hinner : inner = [] := by
    cases inner with
    | nil => rfl
    | cons c inner =>
        have := congrArg List.length hsplit
        simp at this
  have htidy : Tidy ('?' :: '(' :: text ++ [')']) :=
    tidy_of_ends (c := '?') (by decide) (by decide) ('(' :: text)
  have hrest : Tidy ('(' :: text ++ [')']) := tidy_of_ends (by decide) (by decide) text
  rw [hinner, List.append_nil, htidy.trim_eq] at hgroup
  obtain ⟨found, condition, hfound, hread, -⟩ := exists_of_readFilter hgroup
  change unwrap? (trim ('(' :: text ++ [')'])) = _ ∨ _ = trim ('(' :: text ++ [')']) at hfound
  rw [hrest.trim_eq, unwrap?_parentheses] at hfound
  rcases hfound with hfound | rfl
  · cases hfound
    exact ⟨condition, hread⟩
  · exact absurd hread (readCondition_parenthesis _ condition)

/-- The texts of doubles that are not finite. -/
def infiniteTexts : List (List Char) := [['N', 'a', 'N'], ['-', 'i', 'n', 'f'], ['i', 'n', 'f']]

/-- Nothing in these texts is a blank, or opens or closes anything. -/
theorem plain_of_mem_infiniteTexts {text : List Char} (h : text ∈ infiniteTexts) :
    ∀ c ∈ text, Inert c ∧ isBlank c = false := by
  simp only [infiniteTexts, List.mem_cons, List.not_mem_nil, or_false] at h
  rcases h with rfl | rfl | rfl <;> exact forall_mem_of_all rfl

/-- A double that is not finite has one of these texts. -/
theorem writeFloat_mem_infiniteTexts {x : Binary64} (hfinite : x.isFinite = false) :
    Number.writeFloat x ∈ infiniteTexts := by
  unfold Number.writeFloat
  rw [if_neg (c := x.isFinite = true) (by simp [hfinite])]
  split
  · exact List.mem_cons_self
  · split <;> simp [infiniteTexts]

/-- A double that is not finite is not read from its text. -/
theorem readLiteral_writeFloat {x : Binary64} (hfinite : x.isFinite = false) (s : Scalar)
    (rest : List Char) : readLiteral (Number.writeFloat x) ≠ .ok (s, rest) := by
  have hnone : ∀ text ∈ infiniteTexts, (readLiteral text).toOption = none := by decide +kernel
  intro h
  have := hnone _ (writeFloat_mem_infiniteTexts hfinite)
  rw [h] at this
  cases this

/-- A comparison whose literal is not read is not read. -/
theorem readComparing_ne_ok {literal : List Char}
    (hhead : ∀ c, literal.head? = some c → isBlank c = false)
    (hliteral : ∀ s rest, readLiteral literal ≠ .ok (s, rest)) (path : List Key) (op : Comparison)
    (condition : Condition) : readComparing path (op.sign ++ ' ' :: literal) ≠ .ok condition := by
  have hskip : skipBlanks (' ' :: literal) = literal :=
    (skipBlanks_space literal).trans (skipBlanks_eq_self hhead)
  intro h
  rw [readComparing, readComparison_sign] at h
  dsimp only at h
  rw [hskip] at h
  cases hread : readLiteral literal with
  | error f =>
      rw [hread] at h
      cases h
  | ok r => exact hliteral r.1 r.2 hread

end PathQuery.Expression
