import PathQuery.Proofs.Expression.Append
import PathQuery.Proofs.Expression.Group
import PathQuery.Proofs.Expression.Number
import PathQuery.Proofs.Key
import PathQuery.Proofs.Number
import PathQuery.Proofs.Text.Escaped
import PathQuery.Selection.Basic

/-!
# Selectors read back from their text

`Selector.Faithful` lists what the text of a selector must not hold for the selector to be read back
from it: a backslash in a name, a character of a string that is written by number, a double that is
no number or whose digits are those of another integer. `exists_readExpression_written` says that
the text of a faithful selector out of an expression reads as selectors that make the same of every
list of nodes.
-/

namespace PathQuery

open Text Text.Quoted Expression

/-- A key that is read back from its text: nothing but the quote is escaped in a name. -/
def Key.Faithful : Key → Prop
  | .name n => '\\' ∉ n.toList
  | .position _ => True

/-- A literal whose text is read as the same value: what is written as an integer is one. -/
def Scalar.Faithful : Scalar → Prop
  | .number (.float x) => x.isFinite = true ∧
      ∀ n, readInt64? (Number.writeFloat x) = some n → (Number.int n).value = x.units
  | .string s => ∀ c ∈ s.toList, isReadable c = true
  | _ => True

/-- A condition that is read back from its text but for the kind of a number. -/
def Condition.Faithful : Condition → Prop
  | .present path => ∀ key ∈ path, key.Faithful
  | .compares path _ literal => (∀ key ∈ path, key.Faithful) ∧ literal.Faithful

/-- A selector whose text reads as selectors that do the same. -/
def Selector.Faithful : Selector → Prop
  | .member name | .descent (some name) => (Key.name name).Faithful
  | .keys ks => ∀ key ∈ ks, key.Faithful
  | .filter condition => condition.Faithful
  | _ => True

/-! ## Keys and paths -/

/-- The text of a faithful key stands for the key. -/
theorem Key.Faithful.keyText {key : Key} (h : key.Faithful) : KeyText key.written key := by
  cases key with
  | name n =>
      have hbody : Body '\'' (n.toList.flatMap Key.escapeQuote) n.toList :=
        .flatMap fun c hc => Key.item_escapeQuote fun he => h (he ▸ hc)
      have := KeyText.name isQuote_single hbody
      rwa [String.ofList_toList] at this
  | position i => exact .position i

/-- The text of a path of faithful keys stands for the path. -/
theorem pathText_of_faithful {path : List Key} (h : ∀ key ∈ path, key.Faithful) :
    PathText (path.flatMap fun key => '[' :: key.written ++ [']']) path := by
  induction path with
  | nil => exact .nil
  | cons key rest ih =>
      obtain ⟨hkey, hrest⟩ := List.forall_mem_cons.1 h
      have := PathText.cons hkey.keyText (ih hrest)
      simpa using this

/-- The texts of faithful keys stand for them. -/
theorem forall₂_keyText {ks : List Key} (h : ∀ key ∈ ks, key.Faithful) :
    List.Forall₂ KeyText (ks.map Key.written) ks := by
  rw [List.forall₂_map_left_iff]
  exact List.forall₂_same.2 fun key hkey => (h key hkey).keyText

/-! ## Literals and conditions -/

/-- The text of a finite double stands for what it is read as. -/
theorem literalText_writeFloat {x : Binary64} (hfinite : x.isFinite = true) {n : Number}
    (hread : readNumber? (Number.writeFloat x) = some n) :
    LiteralText (Number.writeFloat x) (.number n) := by
  obtain ⟨hall, c, more, hwrite, hc⟩ := writeFloat_chars hfinite
  rw [hwrite] at hall hread ⊢
  exact .number hc hall hread

/-- Scalars compare alike with numbers of one value. -/
theorem compares_congr {a b : Number} (ha : a.isNaN = false) (hb : b.isNaN = false)
    (h : a.value = b.value) (s : Scalar) (op : Comparison) :
    s.compares op (.number a) = s.compares op (.number b) := by
  cases s with
  | number n => simp only [Scalar.compares, Number.compare?_congr ha hb h]
  | null | bool | string => rfl

/-- The text of a faithful literal stands for one that everything compares with alike. -/
theorem Scalar.Faithful.exists_literalText {s : Scalar} (h : s.Faithful) :
    ∃ t, LiteralText s.written t ∧ ∀ (v : Scalar) (op : Comparison),
      v.compares op t = v.compares op s := by
  cases s with
  | null => exact ⟨.null, .word rfl, fun _ _ => rfl⟩
  | bool b =>
      cases b with
      | true => exact ⟨.bool true, .word rfl, fun _ _ => rfl⟩
      | false => exact ⟨.bool false, .word rfl, fun _ _ => rfl⟩
  | string s =>
      have hbody := LiteralText.string isQuote_double (body_escapeChar h)
      rw [String.ofList_toList] at hbody
      exact ⟨.string s, hbody, fun _ _ => rfl⟩
  | number n =>
      cases n with
      | int n => exact ⟨.number (.int n), literalText_writeInt64 n, fun _ _ => rfl⟩
      | float x =>
          obtain ⟨hfinite, hvalue⟩ := h
          have hread := readNumber?_writeFloat hfinite
          cases hint : readInt64? (Number.writeFloat x) with
          | none =>
              rw [hint] at hread
              exact ⟨_, literalText_writeFloat hfinite hread, fun _ _ => rfl⟩
          | some n =>
              rw [hint] at hread
              refine ⟨_, literalText_writeFloat hfinite hread, fun v op => ?_⟩
              exact compares_congr (a := .int n) (b := .float x) rfl
                (Binary64.isNaN_of_isFinite hfinite) (hvalue n hint) v op

/-- The text of a faithful condition stands for one that holds of the same values. -/
theorem Condition.Faithful.exists_conditionText {condition : Condition} (h : condition.Faithful) :
    ∃ other, ConditionText condition.written other ∧ ∀ config v,
      other.holds config v = condition.holds config v := by
  cases condition with
  | present path =>
      exact ⟨.present path, .present (pathText_of_faithful h), fun _ _ => rfl⟩
  | compares path op literal =>
      obtain ⟨hpath, hliteral⟩ := h
      obtain ⟨other, htext, hsame⟩ := hliteral.exists_literalText
      refine ⟨.compares path op other, .compares (pathText_of_faithful hpath) op htext, ?_⟩
      intro config v
      have hvalue : comparesValue op other = comparesValue op literal := by
        funext w
        cases w with
        | scalar s => exact hsame s op
        | object | array | host => rfl
      simp only [holds, hvalue]

/-! ## Selectors -/

/-- A script whose text has balanced brackets and parentheses. -/
def Selector.Balanced : Selector → Prop
  | .script text => Scans 1 text.toList 1
  | _ => True

namespace Expression

/-- What parentheses enclose that lead to nothing open is balanced. -/
theorem scans_of_unwrap? {text inner : List Char} (h : unwrap? text = some inner)
    (hscans : Scans 0 text 0) : Scans 1 inner 1 := by
  rw [eq_of_unwrap? h] at hscans
  obtain ⟨f, hinner, hend⟩ := (hscans.of_opening (.inr rfl)).exists_concat rfl
  obtain ⟨g, rfl, hnil⟩ := hend.of_closing (.inr rfl)
  rwa [hnil.eq_of_nil] at hinner

/-- The contents of a bracket that lead to nothing open make a balanced selector. -/
theorem Contents.balanced {text : List Char} {s : Selector} (h : Contents text s)
    (hscans : Scans 0 text 0) : s.Balanced := by
  cases h with
  | star | slice | filter => trivial
  | keys =>
      unfold ofKeys
      split <;> trivial
  | @script _ inner hinner _ =>
      have hbalanced := scans_of_unwrap? hinner hscans
      obtain ⟨before, after, hb, ha, hsplit, -⟩ := exists_trim inner
      rw [hsplit] at hbalanced
      show Scans 1 (String.ofList (trim inner)).toList 1
      rw [String.toList_ofList]
      exact hbalanced.of_append_blank hb ha

/-- Every segment is the text of a balanced selector. -/
theorem Segment.balanced {seg rest : List Char} {s : Selector} (h : Segment seg s rest) :
    s.Balanced := by
  cases h with
  | star | dotStar | member | descent | descentTo => trivial
  | @group inner _ _ hinner hgroup =>
      obtain ⟨before, after, hb, ha, hsplit, -⟩ := exists_trim inner
      rw [hsplit] at hinner
      exact (contents_of_readGroup hgroup).balanced (hinner.of_append_blank hb ha)

/-- Every selector of an expression is the root selector or well formed, and is balanced. -/
theorem wellFormed_and_balanced {text : List Char} {ss : List Selector}
    (h : readExpression text = .ok ss) {s : Selector} (hs : s ∈ ss) :
    (s = .root ∨ s.WellFormed) ∧ s.Balanced := by
  obtain ⟨-, more, start, others, -, -, hread, rfl, hstart⟩ := exists_start h
  rcases List.mem_append.1 hs with hs | hs
  · rcases hstart with rfl | rfl | ⟨name, hname, rfl⟩
    · cases hs
    · rw [List.mem_singleton.1 hs]
      exact ⟨.inl rfl, trivial⟩
    · rw [List.mem_singleton.1 hs]
      refine ⟨.inr ?_, trivial⟩
      show Bare (String.ofList name).toList
      rwa [String.toList_ofList]
  · exact ⟨.inr (forall_of_readSelectors Segment.wellFormed hread s hs),
      forall_of_readSelectors Segment.balanced hread s hs⟩

end Expression

/-- A text in brackets that stands for a selector is read as that selector alone. -/
theorem readExpression_group {text : List Char} {s : Selector} (h : GroupText text s) :
    readExpression ('[' :: text ++ [']']) = .ok [s] := by
  have hread := readSelectors_segment (h.segment [])
  rw [List.append_nil, readSelectors] at hread
  rw [List.cons_append, readExpression_eq_readSelectors (.inr (.inl rfl)), ← List.cons_append,
    hread]
  rfl

/-- One selector alone is applied as it is. -/
theorem applyAll_singleton (root : Value) (config : Config) (nodes : List Value) (s : Selector) :
    applyAll root config nodes [s] = s.apply root config nodes := by
  rw [applyAll, List.foldlM_cons]
  cases s.apply root config nodes <;> rfl

/-- The text of a slice is that of its bounds with colons between them. -/
theorem groupText_writeSlice {s : Slice} (h : ∀ step, s.step = some step → 0 < step) :
    GroupText (Selector.writeSlice s) (.slice s) := by
  cases hstep : s.step with
  | none =>
      have hbounds : [s.start, s.stop] = [s.start, s.stop, s.step] ∨
          [s.start, s.stop] = [s.start, s.stop] ∧ s.step = none := .inr ⟨rfl, hstep⟩
      have hgroup := GroupText.slice hbounds h
      simpa [Selector.writeSlice, hstep, List.intercalate_cons_cons] using hgroup
  | some step =>
      have hbounds : [s.start, s.stop, s.step] = [s.start, s.stop, s.step] ∨
          [s.start, s.stop, s.step] = [s.start, s.stop] ∧ s.step = none := .inl rfl
      have hgroup := GroupText.slice hbounds h
      simpa [Selector.writeSlice, hstep, List.intercalate_cons_cons, Selector.writeBound]
        using hgroup

/-- Two dots and a text in brackets are read as a descent to every node and what is in the
brackets. -/
theorem readExpression_dots {text : List Char} {s : Selector} (h : GroupText text s) :
    readExpression ('.' :: '.' :: '[' :: text ++ [']']) = .ok [.descent none, s] := by
  have hdots : Segment ['.', '.'] (.descent none) ('[' :: text ++ [']']) :=
    .descent (by simp) fun c hc => by cases hc; decide
  have hread := readSelectors_segment (h.segment [])
  rw [List.append_nil, readSelectors] at hread
  have hboth := readSelectors_segment hdots
  rw [hread] at hboth
  rw [List.cons_append, readExpression_eq_readSelectors (.inl rfl)]
  exact hboth

/-- To the member of a name below a node leads a descent to all nodes and the name. -/
theorem applyAll_descent (root : Value) (config : Config) (nodes : List Value) (name : String) :
    applyAll root config nodes [.descent none, .keys [.name name]] =
      (Selector.descent (some name)).apply root config nodes := by
  have hpick : Value.pick config [.name name] = fun v => (v.get? config (.name name)).toList := by
    funext v
    rw [Value.pick, List.filterMap_cons, List.filterMap_nil]
    cases v.get? config (.name name) <;> rfl
  show Except.ok ((nodes.flatMap Value.descendants).flatMap _) = Except.ok (nodes.flatMap _)
  rw [List.flatMap_assoc]
  congr 2
  funext v
  rw [Value.descend, List.filterMap_eq_flatMap_toList, hpick]

/-- The text of a faithful selector out of an expression reads as selectors that make the same of
every list of nodes. -/
theorem exists_readExpression_written {s : Selector} (hwell : s = .root ∨ s.WellFormed)
    (hbalanced : s.Balanced) (hfaithful : s.Faithful) :
    ∃ ss, readExpression s.written = .ok ss ∧ ∀ root config nodes,
      applyAll root config nodes ss = s.apply root config nodes := by
  have hgroup : ∀ {text : List Char} {t : Selector}, GroupText text t →
      s.written = '[' :: text ++ [']'] →
      (∀ root config nodes, t.apply root config nodes = s.apply root config nodes) →
      ∃ ss, readExpression s.written = .ok ss ∧ ∀ root config nodes,
        applyAll root config nodes ss = s.apply root config nodes := by
    intro text t ht hwritten hsame
    refine ⟨[t], hwritten ▸ readExpression_group ht, fun root config nodes => ?_⟩
    rw [applyAll_singleton, hsame]
  have hname : ∀ {name : String}, (Key.name name).Faithful →
      GroupText (Key.name name).written (.keys [.name name]) := by
    intro name h
    have := GroupText.keys (List.cons_ne_nil (Key.name name) [])
      (.cons h.keyText .nil)
    rwa [List.intercalate_singleton] at this
  rcases hwell with rfl | hwell
  · refine ⟨[.root], ?_, fun root config nodes => rfl⟩
    decide +kernel
  cases s with
  | root => exact absurd hwell id
  | member name => exact hgroup (hname hfaithful) rfl fun _ _ _ => rfl
  | keys ks =>
      obtain ⟨name, hmem⟩ := hwell
      have hkeys := GroupText.keys (List.ne_nil_of_mem hmem) (forall₂_keyText hfaithful)
      rw [ofKeys_name hmem] at hkeys
      exact hgroup hkeys rfl fun _ _ _ => rfl
  | positions places =>
      have hne : places.map Key.position ≠ [] := by
        rwa [Ne, List.map_eq_nil_iff]
      have hkeys := GroupText.keys hne (forall₂_keyText fun key hkey => by
        obtain ⟨i, -, rfl⟩ := List.mem_map.1 hkey
        trivial)
      rw [ofKeys_positions, List.map_map] at hkeys
      exact hgroup hkeys rfl fun _ _ _ => rfl
  | slice bounds => exact hgroup (groupText_writeSlice hwell) rfl fun _ _ _ => rfl
  | children => exact hgroup .star rfl fun _ _ _ => rfl
  | descent name =>
      cases name with
      | none => exact ⟨[.descent none], by decide +kernel, fun _ _ _ => rfl⟩
      | some name =>
          exact ⟨_, readExpression_dots (hname hfaithful), fun root config nodes =>
            applyAll_descent root config nodes name⟩
  | filter condition =>
      obtain ⟨other, htext, hsame⟩ := hfaithful.exists_conditionText
      refine hgroup (.filter htext) (by simp [Selector.written]) fun root config nodes => ?_
      simp only [Selector.apply, hsame]
  | script text =>
      have hscript := GroupText.script hwell.1 hwell.2 hbalanced
      rw [String.ofList_toList] at hscript
      exact hgroup hscript (by simp [Selector.written]) fun _ _ _ => rfl

end PathQuery
