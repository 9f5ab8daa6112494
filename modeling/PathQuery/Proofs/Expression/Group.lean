import PathQuery.Proofs.Expression.Path
import PathQuery.Proofs.Expression.WellFormed

/-!
# Texts between brackets

`GroupText text s` says that the text `text` between brackets is the selector `s`, whichever quotes
its names and strings are written with. Such a text is read as that selector, opens and closes
nothing and has no blanks at its ends, so that in brackets it is a segment (`GroupText.segment`).
-/

namespace PathQuery.Expression

open Text Text.Quoted

/-- A text between brackets, and the selector that it is. -/
inductive GroupText : List Char → Selector → Prop
  | star : GroupText ['*'] .children
  | keys {texts : List (List Char)} {ks : List Key} (hne : ks ≠ [])
    (hkeys : List.Forall₂ KeyText texts ks) : GroupText ([','].intercalate texts) (ofKeys ks)
  /-- A slice of which the step may be left out with its colon or without. -/
  | slice {bounds : List (Option Int64)} {s : Slice}
    (hbounds : bounds = [s.start, s.stop, s.step] ∨
      bounds = [s.start, s.stop] ∧ s.step = none)
    (hstep : ∀ step, s.step = some step → 0 < step) :
    GroupText ([':'].intercalate (bounds.map Selector.writeBound)) (.slice s)
  | filter {text : List Char} {condition : Condition} (h : ConditionText text condition) :
    GroupText ('?' :: '(' :: text ++ [')']) (.filter condition)
  | script {text : List Char} (hne : text ≠ []) (htidy : Tidy text) (hscans : Scans 1 text 1) :
    GroupText ('(' :: text ++ [')']) (.script (String.ofList text))

/-! ## Lists of keys -/

/-- A text that begins as no filter, script or star does is a slice or a list of keys. -/
theorem readGroup_cons {c : Char} (h : c ≠ '?' ∧ c ≠ '(' ∧ c ≠ '*') (rest : List Char) :
    readGroup (c :: rest) =
      if 1 < (pieces ':' (c :: rest)).length then readSlice (c :: rest) (pieces ':' (c :: rest))
      else readKeys (c :: rest) := by
  unfold readGroup
  split
  · rename_i he
    cases he
  · rename_i he
    exact absurd (List.cons.inj he).1 h.1
  · rename_i he
    exact absurd (List.cons.inj he).1 h.2.1
  · rename_i he
    exact absurd (List.cons.inj he).1 h.2.2
  · rfl

/-- What begins as a number does is read as the position that it writes. -/
theorem readKeyText_position {c : Char} {found : List Char} {i : Int64}
    (hc : startsNumber c = true) (hread : readInt64? (c :: found) = some i) (text : List Char)
    (piece : Piece) : readKeyText text piece (c :: found) = .ok (.position i) := by
  have hquote : ¬isQuote c = true := by
    intro hq
    rw [startsNumber_of_isQuote hq] at hc
    cases hc
  rw [readKeyText, if_neg hquote, if_pos hc, readPieceInt64, hread]
  rfl

/-- What a quote begins is read as the name that it encloses. -/
theorem readKeyText_name {quote : Char} {body value : List Char} (hquote : isQuote quote = true)
    (hbody : Body quote body value) (text : List Char) (piece : Piece) :
    readKeyText text piece (quote :: body ++ [quote]) = .ok (.name (String.ofList value)) := by
  have hread : Quoted.read quote (body ++ [quote]) = .ok (value, []) :=
    read_body (ne_slash_of_isQuote hquote) hbody []
  rw [List.cons_append, readKeyText, if_pos hquote, hread]

/-- A piece is read as the key that it is the text of. -/
theorem readKey_keyText {piece : Piece} {key : Key} (h : KeyText piece.text key)
    (text : List Char) : readKey text piece = .ok key := by
  rw [readKey, h.tidy.trim_eq]
  generalize hfound : piece.text = found at h
  cases h with
  | name hquote hbody => exact readKeyText_name hquote hbody text piece
  | position i =>
      have hread := readInt64?_writeInt64 i
      obtain ⟨c, more, hi, hc⟩ := exists_cons_writeInt64 i
      rw [hi] at hread ⊢
      exact readKeyText_position hc hread text piece

/-- What holds of the texts of all keys holds of the texts of a list of keys. -/
theorem forall_of_forall₂ {P : List Char → Prop} {texts : List (List Char)} {ks : List Key}
    (h : List.Forall₂ KeyText texts ks) (hP : ∀ text key, KeyText text key → P text) :
    ∀ text ∈ texts, P text := by
  intro text htext
  obtain ⟨key, -, hkey⟩ := exists_of_mem_forall₂ h htext
  exact hP text key hkey

/-- A list of keys has as many texts. -/
theorem ne_nil_of_forall₂ {texts : List (List Char)} {ks : List Key}
    (h : List.Forall₂ KeyText texts ks) (hne : ks ≠ []) : texts ≠ [] := by
  rintro rfl
  cases h
  exact hne rfl

/-- Texts of keys with commas between them are read as the list of these keys. -/
theorem readKeys_forall₂ {texts : List (List Char)} {ks : List Key} (hne : ks ≠ [])
    (h : List.Forall₂ KeyText texts ks) :
    readKeys ([','].intercalate texts) = .ok (ofKeys ks) := by
  have hpieces : (pieces ',' ([','].intercalate texts)).map Piece.text = texts :=
    map_text_pieces (ne_nil_of_forall₂ h hne)
      (forall_of_forall₂ h fun _ _ hkey => hkey.whole (.inr rfl))
  have hread : (pieces ',' ([','].intercalate texts)).mapM (readKey ([','].intercalate texts)) =
      .ok ks := by
    rw [← hpieces, List.forall₂_map_left_iff] at h
    exact mapM_eq_ok_iff.2 (h.imp fun _ _ hkey => readKey_keyText hkey _)
  rw [readKeys, hread]
  rfl

/-- A list of keys is one piece between colons. -/
theorem whole_keys {texts : List (List Char)} {ks : List Key} (hne : ks ≠ [])
    (h : List.Forall₂ KeyText texts ks) : Whole ':' ([','].intercalate texts) := by
  refine intercalate_induction (ne_nil_of_forall₂ h hne)
    (forall_of_forall₂ h fun _ _ hkey => hkey.whole (.inl rfl)) fun a b ha hb => ?_
  exact ha.append (.plain rfl (by decide) hb)

/-- A list of keys begins as its first key does. -/
theorem exists_cons_keys {texts : List (List Char)} {ks : List Key} (hne : ks ≠ [])
    (h : List.Forall₂ KeyText texts ks) :
    ∃ c more, [','].intercalate texts = c :: more ∧ (isQuote c = true ∨ startsNumber c = true) := by
  refine intercalate_induction (ne_nil_of_forall₂ h hne)
    (forall_of_forall₂ h fun _ _ hkey => hkey.exists_cons) fun a b ha _ => ?_
  obtain ⟨c, more, rfl, hc⟩ := ha
  exact ⟨c, _, rfl, hc⟩

/-- What begins with a quote or as a number does begins as no filter, script or star does. -/
theorem ne_of_keyStart {c : Char} (hc : isQuote c = true ∨ startsNumber c = true) :
    c ≠ '?' ∧ c ≠ '(' ∧ c ≠ '*' := by
  refine ⟨?_, ?_, ?_⟩ <;> rintro rfl <;> rcases hc with hc | hc <;> cases hc

/-- A list of keys between brackets is read as such. -/
theorem readGroup_keys {texts : List (List Char)} {ks : List Key} (hne : ks ≠ [])
    (h : List.Forall₂ KeyText texts ks) :
    readGroup ([','].intercalate texts) = .ok (ofKeys ks) := by
  have hwhole := whole_keys hne h
  have hread := readKeys_forall₂ hne h
  obtain ⟨c, more, htext, hc⟩ := exists_cons_keys hne h
  rw [htext] at hwhole hread ⊢
  rw [readGroup_cons (ne_of_keyStart hc), pieces_of_whole hwhole, if_neg (by simp), hread]

/-! ## Slices -/

/-- The text of a bound consists of digits and a minus sign. -/
theorem mem_writeBound {bound : Option Int64} {c : Char} (hc : c ∈ Selector.writeBound bound) :
    c ∈ signAndDigits := by
  cases bound with
  | none => cases hc
  | some n => exact mem_writeInt64 hc

/-- A piece is read as the bound that it is the text of. -/
theorem readBound_writeBound {piece : Piece} {bound : Option Int64}
    (h : piece.text = Selector.writeBound bound) (text : List Char) :
    readBound text piece = .ok bound := by
  have htidy : Tidy (Selector.writeBound bound) := .of_forall fun c hc =>
    isBlank_of_mem_signAndDigits c (mem_writeBound hc)
  rw [readBound, h, htidy.trim_eq]
  cases bound with
  | none => rfl
  | some n =>
      have hread := readInt64?_writeInt64 n
      obtain ⟨c, more, hi, -⟩ := exists_cons_writeInt64 n
      rw [Selector.writeBound]
      rw [hi] at hread ⊢
      dsimp only
      rw [readPieceInt64, hread]
      rfl

/-- Two bounds or more with colons between them begin with a colon or as a number does. -/
theorem exists_cons_bounds {bounds : List (Option Int64)} (hmin : 2 ≤ bounds.length) :
    ∃ c more, [':'].intercalate (bounds.map Selector.writeBound) = c :: more ∧
      c ∈ ':' :: signAndDigits := by
  match bounds, hmin with
  | first :: second :: rest, _ =>
      rw [List.map_cons, List.map_cons, List.intercalate_cons_cons, List.append_assoc,
        List.singleton_append]
      cases hfirst : Selector.writeBound first with
      | nil => exact ⟨_, _, rfl, List.mem_cons_self⟩
      | cons c more =>
          have hc : c ∈ signAndDigits := mem_writeBound (hfirst ▸ List.mem_cons_self)
          exact ⟨_, _, rfl, List.mem_cons_of_mem _ hc⟩

/-- Bounds with colons between them are read as such. -/
theorem readGroup_bounds {bounds : List (Option Int64)} (hmin : 2 ≤ bounds.length)
    (hmax : bounds.length ≤ 3) :
    readGroup ([':'].intercalate (bounds.map Selector.writeBound)) =
      checkSlice ([':'].intercalate (bounds.map Selector.writeBound))
        ⟨(bounds[0]?).join, (bounds[1]?).join, (bounds[2]?).join⟩ := by
  obtain ⟨c, more, htext, hc⟩ := exists_cons_bounds hmin
  have hpieces : (pieces ':' ([':'].intercalate (bounds.map Selector.writeBound))).map Piece.text =
      bounds.map Selector.writeBound := by
    refine map_text_pieces (fun he => ?_) fun text ht => ?_
    · rw [List.map_eq_nil_iff] at he
      subst he
      cases hmin
    · obtain ⟨bound, -, rfl⟩ := List.mem_map.1 ht
      have hplain : ∀ d ∈ signAndDigits, isQuote d = false ∧ d ≠ ':' := forall_mem_of_all rfl
      exact .of_plain fun d hd => hplain d (mem_writeBound hd)
  rw [htext] at hpieces ⊢
  have hlength : (pieces ':' (c :: more)).length = bounds.length := by
    rw [← List.length_map (f := Piece.text), hpieces, List.length_map]
  have hread : (pieces ':' (c :: more)).mapM (readBound (c :: more)) = .ok bounds := by
    refine mapM_eq_ok_iff.2 ?_
    have hsame : List.Forall₂ (fun text bound => text = Selector.writeBound bound)
        ((pieces ':' (c :: more)).map Piece.text) bounds := by
      rw [hpieces, List.forall₂_map_left_iff]
      exact List.forall₂_same.2 fun _ _ => rfl
    exact (List.forall₂_map_left_iff.1 hsame).imp fun _ _ h => readBound_writeBound h _
  have hstart : c ≠ '?' ∧ c ≠ '(' ∧ c ≠ '*' :=
    forall_mem_of_all (p := fun d => d ≠ '?' ∧ d ≠ '(' ∧ d ≠ '*') rfl c hc
  rw [readGroup_cons hstart, hlength, if_pos (by omega), readSlice, hlength, if_neg (by omega),
    hread]

/-- A step that leads onwards passes the check. -/
theorem checkSlice_of_pos {s : Slice} (h : ∀ step, s.step = some step → 0 < step)
    (text : List Char) : checkSlice text s = .ok (.slice s) := by
  unfold checkSlice
  split
  · rfl
  · rename_i step hstep
    rw [if_neg (Int64.not_le.2 (h step hstep))]

/-! ## Filters and scripts -/

/-- Parentheses around a text are taken off. -/
theorem unwrap?_parentheses (text : List Char) : unwrap? ('(' :: text ++ [')']) = some text := by
  rw [List.cons_append, unwrap?, List.getLast?_concat, if_pos rfl, List.dropLast_concat]

/-- A condition in parentheses behind a question mark is read as a filter. -/
theorem readGroup_filter {text : List Char} {condition : Condition}
    (h : ConditionText text condition) :
    readGroup ('?' :: '(' :: text ++ [')']) = .ok (.filter condition) := by
  have htrim : trim ('(' :: text ++ [')']) = '(' :: text ++ [')'] :=
    (tidy_of_ends (by decide) (by decide) text).trim_eq
  rw [List.cons_append, List.cons_append, readGroup, ← List.cons_append, readFilter, htrim,
    unwrap?_parentheses]
  simp only [Option.getD_some, readCondition_conditionText h]

/-- A text in parentheses is read as a script. -/
theorem readGroup_script {text : List Char} (hne : text ≠ []) (htidy : Tidy text) :
    readGroup ('(' :: text ++ [')']) = .ok (.script (String.ofList text)) := by
  have hgroup : readGroup ('(' :: text ++ [')']) = readScript ('(' :: text ++ [')']) := rfl
  rw [hgroup, readScript, unwrap?_parentheses]
  simp only [htidy.trim_eq]

/-! ## All groups -/

namespace GroupText

variable {text : List Char} {s : Selector}

/-- The text of a group is read as its selector. -/
theorem readGroup_eq (h : GroupText text s) : readGroup text = .ok s := by
  cases h with
  | star => rfl
  | keys hne hkeys => exact readGroup_keys hne hkeys
  | @slice bounds s hbounds hstep =>
      rcases hbounds with rfl | ⟨rfl, hnone⟩
      · rw [readGroup_bounds (by simp) (by simp)]
        exact checkSlice_of_pos hstep _
      · rw [readGroup_bounds (by simp) (by simp)]
        refine (checkSlice_of_pos (s := ⟨s.start, s.stop, none⟩) (by simp) _).trans ?_
        rw [← hnone]
  | filter h => exact readGroup_filter h
  | script hne htidy _ => exact readGroup_script hne htidy

/-- The text of a group opens and closes nothing. -/
theorem scans (h : GroupText text s) : Scans 0 text 0 := by
  cases h with
  | star => exact .of_inert (forall_mem_of_all rfl) 0
  | keys hne hkeys =>
      refine intercalate_induction (ne_nil_of_forall₂ hkeys hne)
        (forall_of_forall₂ hkeys fun _ _ hkey => hkey.scans 0) fun a b ha hb => ?_
      exact ha.append (.inert (by decide) hb)
  | @slice bounds s hbounds _ =>
      have hne : bounds.map Selector.writeBound ≠ [] := by
        rcases hbounds with rfl | ⟨rfl, -⟩ <;> simp
      refine intercalate_induction (P := fun text => Scans 0 text 0) hne (fun text ht => ?_)
        fun a b ha hb => ?_
      · obtain ⟨bound, -, rfl⟩ := List.mem_map.1 ht
        exact .of_inert (fun c hc => inert_of_mem_signAndDigits c (mem_writeBound hc)) 0
      · exact ha.append (.inert (by decide) hb)
  | @filter text _ h => exact .filter ((h.scans 1).append (.closing (.inr rfl) (.nil 0)))
  | @script text _ _ hscans =>
      exact .opening (.inr rfl) (hscans.append (.closing (.inr rfl) (.nil 0)))

/-- The text of a group has no blanks at its ends. -/
theorem tidy (h : GroupText text s) : Tidy text := by
  cases h with
  | star => exact .of_forall (forall_mem_of_all rfl)
  | keys hne hkeys =>
      refine (intercalate_induction (P := fun text => Tidy text ∧ text ≠ [])
        (ne_nil_of_forall₂ hkeys hne)
        (forall_of_forall₂ hkeys fun _ _ hkey => ⟨hkey.tidy, hkey.ne_nil⟩) fun a b ha hb => ?_).1
      exact ⟨ha.1.append hb.1 ha.2 hb.2 [','], by simp⟩
  | @slice bounds s hbounds _ =>
      have hne : bounds.map Selector.writeBound ≠ [] := by
        rcases hbounds with rfl | ⟨rfl, -⟩ <;> simp
      refine .of_forall (intercalate_induction (P := fun text => ∀ c ∈ text, isBlank c = false)
        hne (fun text ht => ?_) fun a b ha hb => ?_)
      · obtain ⟨bound, -, rfl⟩ := List.mem_map.1 ht
        exact fun c hc => isBlank_of_mem_signAndDigits c (mem_writeBound hc)
      · intro c hc
        rcases List.mem_append.1 hc with hc | hc
        · exact ha c hc
        · rcases List.mem_cons.1 hc with rfl | hc
          · decide
          · exact hb c hc
  | filter _ => exact tidy_of_ends (by decide) (by decide) _
  | script _ _ _ => exact tidy_of_ends (by decide) (by decide) _

/-- The text of a group in brackets is a segment, whatever follows. -/
theorem segment (h : GroupText text s) (rest : List Char) :
    Segment ('[' :: text ++ [']']) s rest := by
  refine .group h.scans ?_
  rw [h.tidy.trim_eq]
  exact h.readGroup_eq

end GroupText

end PathQuery.Expression
