import PathQuery.Proofs.Expression.Append
import PathQuery.Proofs.Expression.Group

/-!
# Writing an expression down

`Selector.Spelling s text` says that `text` is a usual form of the selector `s`: names, where they
need no quotes, stand behind dots, and everything else is in brackets. Every quoted text may take
either kind of quotes, independently of the others. `readExpression_spelling` says that every list
of selectors has such forms, and that the list is read back from any of them, with a blank between
one selector and the next.
-/

namespace PathQuery

open Text Text.Quoted Expression

/-- A usual form of a key between brackets. -/
inductive Key.Spelling : Key → List Char → Prop
  | name {quote : Char} (hquote : isQuote quote = true) (n : String) :
    Spelling (.name n) (Quoted.write quote n.toList)
  | position (i : Int64) : Spelling (.position i) (writeInt64 i)

/-- A usual form of a literal. -/
inductive Scalar.Spelling : Scalar → List Char → Prop
  | null : Spelling .null ['n', 'u', 'l', 'l']
  | true : Spelling (.bool true) ['t', 'r', 'u', 'e']
  | false : Spelling (.bool false) ['f', 'a', 'l', 's', 'e']
  | int (n : Int64) : Spelling (.number (.int n)) (writeInt64 n)
  | string {quote : Char} (hquote : isQuote quote = true) (s : String) :
    Spelling (.string s) (Quoted.write quote s.toList)

/-- The usual forms of the keys of a path, each in brackets. -/
inductive PathSpelling : List Key → List Char → Prop
  | nil : PathSpelling [] []
  | cons {key : Key} {path : List Key} {text more : List Char} (hkey : key.Spelling text)
    (hpath : PathSpelling path more) : PathSpelling (key :: path) ('[' :: text ++ ']' :: more)

/-- A usual form of a condition. -/
inductive Condition.Spelling : Condition → List Char → Prop
  | present {path : List Key} {text : List Char} (hpath : PathSpelling path text) :
    Spelling (.present path) ('@' :: text)
  | compares {path : List Key} {text literal : List Char} {s : Scalar}
    (hpath : PathSpelling path text) (op : Comparison) (hliteral : s.Spelling literal) :
    Spelling (.compares path op s) ('@' :: text ++ ' ' :: op.sign ++ ' ' :: literal)

/-- A usual form of a selector. -/
inductive Selector.Spelling : Selector → List Char → Prop
  | root : Spelling .root ['$']
  | member (name : String) : Spelling (.member name) ('.' :: name.toList)
  | keys {ks : List Key} {texts : List (List Char)} (h : List.Forall₂ Key.Spelling ks texts) :
    Spelling (.keys ks) ('[' :: [','].intercalate texts ++ [']'])
  | positions (places : List Int64) :
    Spelling (.positions places) ('[' :: [','].intercalate (places.map writeInt64) ++ [']'])
  | slice (s : Slice) :
    Spelling (.slice s)
      ('[' :: [':'].intercalate ([s.start, s.stop, s.step].map Selector.writeBound) ++ [']'])
  /-- A slice whose step is left out with its colon. -/
  | run (start stop : Option Int64) :
    Spelling (.slice ⟨start, stop, none⟩)
      ('[' :: [':'].intercalate ([start, stop].map Selector.writeBound) ++ [']'])
  | children : Spelling .children ['[', '*', ']']
  | descent : Spelling (.descent none) ['.', '.']
  | descentTo (name : String) : Spelling (.descent (some name)) ('.' :: '.' :: name.toList)
  | filter {condition : Condition} {text : List Char} (h : condition.Spelling text) :
    Spelling (.filter condition) ('[' :: ('?' :: '(' :: text ++ [')']) ++ [']'])
  | script (text : String) :
    Spelling (.script text) ('[' :: ('(' :: text.toList ++ [')']) ++ [']'])

/-- A literal that has a usual form: all but doubles. -/
def Scalar.Spellable : Scalar → Prop
  | .number (.float _) => False
  | _ => True

/-- A condition that has a usual form. -/
def Condition.Spellable : Condition → Prop
  | .present _ => True
  | .compares _ _ literal => literal.Spellable

/-- A selector that is read back from its usual forms. -/
def Selector.Spellable : Selector → Prop
  | .root => True
  | .filter condition => condition.Spellable
  | .script text => text.toList ≠ [] ∧ Tidy text.toList ∧ ∀ c ∈ text.toList, Inert c
  | s => s.WellFormed

/-! ## Forms exist -/

/-- Every key has a usual form. -/
theorem Key.exists_spelling (key : Key) : ∃ text, key.Spelling text := by
  cases key with
  | name n => exact ⟨_, .name isQuote_single n⟩
  | position i => exact ⟨_, .position i⟩

/-- Every list of keys has usual forms. -/
theorem exists_forall₂_spelling (ks : List Key) : ∃ texts, List.Forall₂ Key.Spelling ks texts := by
  induction ks with
  | nil => exact ⟨[], .nil⟩
  | cons key rest ih =>
      obtain ⟨text, hkey⟩ := key.exists_spelling
      obtain ⟨texts, hrest⟩ := ih
      exact ⟨text :: texts, .cons hkey hrest⟩

/-- Every path has a usual form. -/
theorem exists_pathSpelling (path : List Key) : ∃ text, PathSpelling path text := by
  induction path with
  | nil => exact ⟨[], .nil⟩
  | cons key rest ih =>
      obtain ⟨text, hkey⟩ := key.exists_spelling
      obtain ⟨more, hrest⟩ := ih
      exact ⟨_, .cons hkey hrest⟩

/-- Every literal but a double has a usual form. -/
theorem Scalar.exists_spelling {s : Scalar} (h : s.Spellable) : ∃ text, s.Spelling text := by
  cases s with
  | null => exact ⟨_, .null⟩
  | bool b =>
      cases b with
      | false => exact ⟨_, .false⟩
      | true => exact ⟨_, .true⟩
  | number n =>
      cases n with
      | int n => exact ⟨_, .int n⟩
      | float x => exact h.elim
  | string s => exact ⟨_, .string isQuote_double s⟩

/-- Every selector that can be read back has a usual form. -/
theorem Selector.exists_spelling {s : Selector} (h : s.Spellable) : ∃ text, s.Spelling text := by
  cases s with
  | root => exact ⟨_, .root⟩
  | member name => exact ⟨_, .member name⟩
  | keys ks =>
      obtain ⟨texts, hks⟩ := exists_forall₂_spelling ks
      exact ⟨_, .keys hks⟩
  | positions places => exact ⟨_, .positions places⟩
  | slice s => exact ⟨_, .slice s⟩
  | children => exact ⟨_, .children⟩
  | descent name =>
      cases name with
      | none => exact ⟨_, .descent⟩
      | some name => exact ⟨_, .descentTo name⟩
  | filter condition =>
      cases condition with
      | present path =>
          obtain ⟨text, hpath⟩ := exists_pathSpelling path
          exact ⟨_, .filter (.present hpath)⟩
      | compares path op literal =>
          obtain ⟨text, hpath⟩ := exists_pathSpelling path
          obtain ⟨more, hliteral⟩ := Scalar.exists_spelling h
          exact ⟨_, .filter (.compares hpath op hliteral)⟩
  | script text => exact ⟨_, .script text⟩

/-! ## Forms are read -/

/-- A text written between quotes stands for the name of that text. -/
theorem keyText_write {quote : Char} (hquote : isQuote quote = true) (n : String) :
    KeyText (Quoted.write quote n.toList) (.name n) := by
  have := KeyText.name hquote (body_escape hquote n.toList)
  rwa [String.ofList_toList] at this

/-- A usual form of a key stands for the key. -/
theorem Key.Spelling.keyText {key : Key} {text : List Char} (h : key.Spelling text) :
    KeyText text key := by
  cases h with
  | name hquote n => exact keyText_write hquote n
  | position i => exact .position i

/-- A usual form of a path stands for the path. -/
theorem PathSpelling.pathText {path : List Key} {text : List Char} (h : PathSpelling path text) :
    PathText text path := by
  induction h with
  | nil => exact .nil
  | cons hkey _ ih => exact .cons hkey.keyText ih

/-- A usual form of a literal stands for the literal. -/
theorem Scalar.Spelling.literalText {s : Scalar} {text : List Char} (h : s.Spelling text) :
    LiteralText text s := by
  cases h with
  | null | true | false => exact .word rfl
  | int n => exact literalText_writeInt64 n
  | string hquote s =>
      have := LiteralText.string hquote (body_escape hquote s.toList)
      rwa [String.ofList_toList] at this

/-- A usual form of a condition stands for the condition. -/
theorem Condition.Spelling.conditionText {condition : Condition} {text : List Char}
    (h : condition.Spelling text) : ConditionText text condition := by
  cases h with
  | present hpath => exact .present hpath.pathText
  | compares hpath op hliteral => exact .compares hpath.pathText op hliteral.literalText

/-- A usual form of a selector is a segment before the end and before a space. -/
theorem Selector.Spelling.segment {s : Selector} {text : List Char} (h : s.Spelling text)
    (hs : s.Spellable) (hroot : s ≠ .root) {rest : List Char} (hends : EndsName rest)
    (hdot : rest.head? ≠ some '.') : Segment text s rest := by
  cases h with
  | root => exact absurd rfl hroot
  | member name =>
      have hbare : Bare name.toList := hs
      have := Segment.member hbare hends
      rwa [String.ofList_toList] at this
  | @keys ks texts h =>
      obtain ⟨name, hname⟩ : ∃ name, Key.name name ∈ ks := hs
      have htexts : List.Forall₂ KeyText texts ks := h.flip.imp fun _ _ hkey => hkey.keyText
      have := (GroupText.keys (List.ne_nil_of_mem hname) htexts).segment rest
      rwa [ofKeys_name hname] at this
  | positions places =>
      have hne : places.map Key.position ≠ [] := fun he => hs (List.map_eq_nil_iff.1 he)
      have htexts : List.Forall₂ KeyText (places.map writeInt64) (places.map .position) := by
        rw [List.forall₂_map_left_iff, List.forall₂_map_right_iff]
        exact List.forall₂_same.2 fun i _ => .position i
      have := (GroupText.keys hne htexts).segment rest
      rwa [ofKeys_positions] at this
  | slice s => exact (GroupText.slice (s := s) (.inl rfl) hs).segment rest
  | run start stop =>
      exact (GroupText.slice (s := ⟨start, stop, none⟩) (.inr ⟨rfl, rfl⟩) hs).segment rest
  | children => exact GroupText.star.segment rest
  | descent => exact .descent hdot hends
  | descentTo name =>
      have hbare : Bare name.toList := hs
      have := Segment.descentTo hbare hends
      rwa [String.ofList_toList] at this
  | filter h => exact (GroupText.filter h.conditionText).segment rest
  | script text =>
      obtain ⟨hne, htidy, hinert⟩ := hs
      have := (GroupText.script hne htidy (.of_inert hinert 1)).segment rest
      rwa [String.ofList_toList] at this

/-- Usual forms with spaces between them are read as their selectors. -/
theorem readSelectors_spelling {ss : List Selector} {texts : List (List Char)}
    (h : List.Forall₂ Selector.Spelling ss texts) (hss : ∀ s ∈ ss, s.Spellable ∧ s ≠ .root) :
    readSelectors ([' '].intercalate texts) = .ok ss := by
  induction h with
  | nil => rw [List.intercalate_nil, readSelectors]
  | @cons s text ss texts hs hmore ih =>
      obtain ⟨⟨hspell, hroot⟩, hrest⟩ := List.forall_mem_cons.1 hss
      cases hmore with
      | nil =>
          have hseg : Segment text s [] := hs.segment hspell hroot (by simp [EndsName]) (by simp)
          have hread := readSelectors_segment hseg
          rw [List.append_nil] at hread
          rw [List.intercalate_singleton, hread, readSelectors]
          rfl
      | @cons _ second _ others hsecond hothers =>
          have hseg : Segment text s (' ' :: [' '].intercalate (second :: others)) :=
            hs.segment hspell hroot (fun c hc => by cases hc; decide) (by simp)
          rw [List.intercalate_cons_cons, List.append_assoc, List.singleton_append,
            readSelectors_segment hseg, readSelectors_blank (by decide), ih hrest]
          rfl

/-- Behind the sign of the root come selectors. -/
theorem readExpression_root (rest : List Char) :
    readExpression ('$' :: rest) = (readSelectors rest).map (.root :: ·) := by
  have hskip : skipBlanks ('$' :: rest) = '$' :: rest :=
    skipBlanks_eq_self fun c hc => by cases hc; decide
  rw [readExpression, hskip, readStart, if_pos rfl]

/-- A usual form of a selector other than the root selector begins with a dot or a bracket. -/
theorem Selector.Spelling.exists_cons {s : Selector} {text : List Char} (h : s.Spelling text)
    (hroot : s ≠ .root) : ∃ c more, text = c :: more ∧ (c = '.' ∨ c = '[' ∨ c = '*') := by
  cases h with
  | root => exact absurd rfl hroot
  | member | descent | descentTo => exact ⟨_, _, rfl, .inl rfl⟩
  | keys | positions | slice | run | children | filter | script =>
      exact ⟨_, _, rfl, .inr (.inl rfl)⟩

/-- Usual forms with spaces between them are read as an expression. -/
theorem readExpression_of_spelling {ss : List Selector} {texts : List (List Char)}
    (h : List.Forall₂ Selector.Spelling ss texts) (hroot : .root ∉ ss.tail)
    (hss : ∀ s ∈ ss, s.Spellable) : readExpression ([' '].intercalate texts) = .ok ss := by
  cases h with
  | nil => rfl
  | @cons s text ss texts hs hmore =>
      obtain ⟨hspell, hrest⟩ := List.forall_mem_cons.1 hss
      have hothers : ∀ s ∈ ss, s.Spellable ∧ s ≠ .root := fun t ht =>
        ⟨hrest t ht, fun he => hroot (he ▸ ht)⟩
      by_cases hs₀ : s = .root
      · subst hs₀
        cases hs
        have hread := readSelectors_spelling hmore hothers
        cases hmore with
        | nil =>
            rw [List.intercalate_singleton, readExpression_root, readSelectors]
            rfl
        | @cons _ second _ others _ _ =>
            rw [List.intercalate_cons_cons, List.append_assoc, List.singleton_append,
              List.singleton_append, readExpression_root, readSelectors_blank (by decide), hread]
            rfl
      · have hread := readSelectors_spelling (.cons hs hmore)
          (List.forall_mem_cons.2 ⟨⟨hspell, hs₀⟩, hothers⟩)
        obtain ⟨c, more, rfl, hc⟩ := hs.exists_cons hs₀
        cases hmore with
        | nil =>
            rw [List.intercalate_singleton] at hread ⊢
            rwa [readExpression_eq_readSelectors hc]
        | cons _ _ =>
            rw [List.intercalate_cons_cons, List.append_assoc, List.cons_append] at hread ⊢
            rwa [readExpression_eq_readSelectors hc]

/-- Every list of selectors with the root selector at most in the first place has usual forms, and
with spaces between them any of its forms are read as that list. -/
theorem readExpression_spelling {ss : List Selector} (hroot : .root ∉ ss.tail)
    (hss : ∀ s ∈ ss, s.Spellable) :
    (∃ texts, List.Forall₂ Selector.Spelling ss texts) ∧
      ∀ texts, List.Forall₂ Selector.Spelling ss texts →
        readExpression ([' '].intercalate texts) = .ok ss := by
  refine ⟨?_, fun texts htexts => readExpression_of_spelling htexts hroot hss⟩
  clear hroot
  induction ss with
  | nil => exact ⟨[], .nil⟩
  | cons s rest ih =>
      obtain ⟨hs, hrest⟩ := List.forall_mem_cons.1 hss
      obtain ⟨text, htext⟩ := Selector.exists_spelling hs
      obtain ⟨texts, htexts⟩ := ih hrest
      exact ⟨text :: texts, .cons htext htexts⟩

/-- A list with both kinds of quotes, with separators and brackets in its names and strings. -/
theorem readExpression_spelling_quotes :
    readExpression "$ ..a ['it\\'s ]',-1] [?(@[\"x)\"] != ':\\\\')]".toList =
      .ok [.root, .descent (some "a"), .keys [.name "it's ]", .position (-1)],
        .filter (.compares [.name "x)"] .ne (.string ":\\"))] := by
  have htexts : List.Forall₂ Selector.Spelling
      [.root, .descent (some "a"), .keys [.name "it's ]", .position (-1)],
        .filter (.compares [.name "x)"] .ne (.string ":\\"))] _ :=
    .cons .root (.cons (.descentTo "a") (.cons
      (.keys (.cons (.name isQuote_single _) (.cons (.position _) .nil)))
      (.cons (.filter (.compares (.cons (.name isQuote_double _) .nil) .ne
        (.string isQuote_single _))) .nil)))
  have hread := (readExpression_spelling (by decide) (by
    simp only [List.forall_mem_cons]
    exact ⟨trivial, ⟨by decide, forall_mem_of_all (by decide +kernel)⟩, ⟨_, List.mem_cons_self⟩,
      trivial, by simp⟩)).2 _ htexts
  rw [← hread]
  exact congrArg readExpression (by decide +kernel)

end PathQuery
