import PathQuery.Proofs.Expression.Misread

/-!
# Which selectors survive their text

A selector survives if its text reads as selectors that make of every list of nodes what it makes
(`Selector.Survives`). `survives_iff` says that of the selectors of an expression exactly the
faithful ones do, and besides these a filter that holds of nothing, if it is read as what selects
nothing either. So a name with a backslash in it does not survive, nor does a string with a
character that is written by number, nor a double whose digits are those of another integer.

For each selector that is not faithful a document is found on which its text, if it is read at all,
leads to something else.
-/

namespace PathQuery

open Text Text.Quoted Expression

/-- Selectors make of every list of nodes, one after another, what one selector makes. -/
def SelectsAs (selectors : List Selector) (s : Selector) : Prop :=
  ∀ root config nodes, Agrees (applyAll root config nodes selectors) (s.apply root config nodes)

/-- The text of a selector reads as selectors that select as it does. -/
def Selector.Survives (s : Selector) : Prop :=
  ∃ ss, readExpression s.written = .ok ss ∧ SelectsAs ss s

/-- A condition that holds of no value. -/
def Condition.Void (condition : Condition) : Prop :=
  ∀ config v, condition.holds config v = false

/-- Selectors that select nothing, whatever the nodes are. -/
def Idle (selectors : List Selector) : Prop :=
  ∀ root config nodes, applyAll root config nodes selectors = .ok []

/-- A text that begins with a bracket has no start of its own. -/
theorem readExpression_written {s : Selector} (h : ∃ text, s.written = '[' :: text) :
    readExpression s.written = readSelectors s.written := by
  obtain ⟨text, htext⟩ := h
  rw [htext, readExpression_eq_readSelectors (.inr (.inl rfl))]

section
variable {ss : List Selector}

/-! ## Names -/

/-- A list of keys that is read as selectors that do the same is faithful. -/
theorem faithful_of_keys {ks : List Key} (hne : ks.filterMap Key.name? ≠ [])
    (hread : readSelectors (Selector.keys ks).written = .ok ss)
    (hagrees : SelectsAs ss (.keys ks)) : ∀ key ∈ ks, key.Faithful := by
  refine Classical.byContradiction fun hks => ?_
  obtain ⟨s, found, others, rfl, hroot, hfound⟩ := exists_of_readSelectors_keys hks hread
  have hsame := eq_pickAll_of_applyAll
    (hagrees .null ⟨false⟩ [.catalog ((ks ++ found).filterMap Key.name?)]).eq_of_ok
  rw [List.flatMap_singleton, Value.pick_catalog fun n hn => by
    rw [List.filterMap_append]
    exact List.mem_append_left _ hn] at hsame
  have hleaves : ∀ v ∈ ([] : List Value), ∃ x, v = .scalar x := by simp
  exact pickAll_ne_of_catalog hfound hne hroot hleaves _ _ hsame.symm

/-- A name below which a descent leads that is read as selectors that do the same is faithful. -/
theorem faithful_of_descent {name : String}
    (hread : readExpression (Selector.descent (some name)).written = .ok ss)
    (hagrees : SelectsAs ss (.descent (some name))) : (Key.name name).Faithful := by
  have hdots : Segment ['.', '.'] (.descent none) (Selector.keys [.name name]).written :=
    .descent (by simp [Selector.written]) fun c hc => by cases hc; decide
  have hwritten : (Selector.descent (some name)).written =
      ['.', '.'] ++ (Selector.keys [.name name]).written := by
    simp [Selector.written]
  rw [hwritten, List.cons_append, readExpression_eq_readSelectors (.inl rfl), ← List.cons_append,
    readSelectors_segment hdots] at hread
  obtain ⟨more, hmore, rfl⟩ := map_eq_ok hread
  refine Classical.byContradiction fun hname => ?_
  have hks : ¬∀ key ∈ [Key.name name], key.Faithful := by simpa using hname
  obtain ⟨s, found, others, rfl, hroot, hfound⟩ := exists_of_readSelectors_keys hks hmore
  have hmem : name ∈ ([Key.name name] ++ found).filterMap Key.name? := List.mem_cons_self
  have hsame := eq_pickAll_of_applyAll
    (hagrees .null ⟨false⟩ [.catalog (([Key.name name] ++ found).filterMap Key.name?)]).eq_of_ok
  rw [List.flatMap_singleton, Value.descend_catalog hmem] at hsame
  exact pickAll_descent_ne_of_catalog hfound (List.cons_ne_nil name []) hroot _ _ hsame.symm

/-! ## Filters -/

/-- A condition that is not void holds of some value. -/
theorem Condition.exists_holds {condition : Condition} (h : ¬condition.Void) :
    ∃ config v, condition.holds config v = true := by
  refine Classical.byContradiction fun hnone => h fun config v => ?_
  rw [← Bool.not_eq_true]
  exact fun hv => hnone ⟨config, v, hv⟩

/-- A filter with a void condition selects nothing. -/
theorem Condition.Void.apply_eq {condition : Condition} (h : condition.Void) (root : Value)
    (config : Config) (nodes : List Value) :
    (Selector.filter condition).apply root config nodes = .ok [] :=
  congrArg Except.ok (List.filter_eq_nil_iff.2 fun v _ => by simp [h config v])

/-- A filter that is read as another one in front of selectors that do the same with it implies this
one. -/
theorem holds_of_agrees {condition found : Condition} {others : List Selector}
    (hroot : .root ∉ others) (hagrees : SelectsAs (.filter found :: others) (.filter condition))
    {config : Config} {v : Value} (h : condition.holds config v = true) :
    found.holds config v = true := by
  refine Decidable.byContradiction fun hfound => ?_
  have hsame := eq_pickAll_of_applyAll (hagrees .null config [.array [v]]).eq_of_ok
  have hnone : Selector.pickFrom .null config [.array [v]] (.filter found) = [] := by
    rw [Selector.pickFrom_of_ne_root (by simp)]
    simp [Selector.picks, Value.children, hfound]
  rw [pickAll, List.foldl_cons, hnone, ← pickAll, pickAll_nil hroot] at hsame
  simp [Value.children, h] at hsame

/-- A filter that is read as another one that does the same has one condition with it. -/
theorem holds_eq_of_agrees {condition found : Condition}
    (hagrees : SelectsAs [.filter found] (.filter condition)) (config : Config) (v : Value) :
    found.holds config v = condition.holds config v := by
  rw [Bool.eq_iff_iff]
  refine ⟨fun h => ?_, holds_of_agrees (by simp) hagrees⟩
  refine holds_of_agrees List.not_mem_nil (fun root config nodes => ?_) h
  rw [applyAll_singleton, ← applyAll_singleton root config nodes (.filter found)]
  exact (hagrees root config nodes).symm

/-- The path of a filter that is read as selectors that do the same is faithful, unless the
condition is void. -/
theorem faithful_path_of_filter {condition : Condition} (hvoid : ¬condition.Void)
    (hread : readSelectors (Selector.filter condition).written = .ok ss)
    (hagrees : SelectsAs ss (.filter condition)) : ∀ key ∈ condition.path, key.Faithful := by
  refine Classical.byContradiction fun hpath => ?_
  obtain ⟨front, n, more, found, others, w, rest, hsplit, rfl, hroot, hfound, hne⟩ :=
    exists_of_readSelectors_filter hpath hread
  obtain ⟨config, v, hholds⟩ := Condition.exists_holds hvoid
  obtain ⟨leaf, hleaf, htest⟩ := Condition.holds_iff.1 hholds
  rw [hsplit] at hleaf
  obtain ⟨u, hu, hnone⟩ := Value.exists_narrow hleaf
  have hcondition : condition.holds config u = true :=
    Condition.holds_iff.2 ⟨leaf, by rw [hsplit, hu], htest⟩
  obtain ⟨other, hother, -⟩ := Condition.holds_iff.1 (holds_of_agrees hroot hagrees hcondition)
  rw [hfound, hnone w rest hne] at hother
  cases hother

/-- The text of a comparison with a known path goes on with the literal. -/
theorem written_compares (path : List Key) (op : Comparison) (literal : Scalar) :
    (Selector.filter (.compares path op literal)).written =
      '[' :: ('?' :: '(' :: ('@' :: (path.flatMap fun key => '[' :: key.written ++ [']']) ++
        ' ' :: op.sign ++ ' ' :: literal.written) ++ [')']) ++ [']'] := by
  simp [Selector.written, Condition.written, writePath]

/-- A comparison with a string is read only if the string can be. -/
theorem isReadable_of_readSelectors {path : List Key} {op : Comparison} {s : String}
    (hpath : ∀ key ∈ path, key.Faithful)
    (hread : readSelectors (Selector.filter (.compares path op (.string s))).written = .ok ss) :
    ∀ c ∈ s.toList, isReadable c = true := by
  intro c hc
  refine Decidable.byContradiction fun hreadable => ?_
  have hwritten : (Selector.filter (.compares path op (.string s))).written =
      '[' :: ('?' :: '(' :: ('@' :: (path.flatMap fun key => '[' :: key.written ++ [']']) ++
        ' ' :: op.sign ++ [' ']) ++ '"' :: (s.toList.flatMap escapeChar ++ ['"', ')', ']'])) := by
    rw [written_compares]
    simp [Scalar.written, writeQuoted]
  rw [hwritten] at hread
  obtain ⟨-, -, body, value, inner, more, -, -, hbody, hsplit, -⟩ :=
    exists_of_readSelectors_quote rfl (.filter (scans_sign (pathText_of_faithful hpath) op 1)) hread
  have hok := read_body (by decide) hbody (inner ++ ']' :: more)
  rw [← hsplit, read_flatMap_escapeChar ⟨c, hc, by simpa using hreadable⟩] at hok
  cases hok

/-- A comparison with a double is read only if the double is finite. -/
theorem isFinite_of_readSelectors {path : List Key} {op : Comparison} {x : Binary64}
    (hpath : ∀ key ∈ path, key.Faithful)
    (hread : readSelectors (Selector.filter (.compares path op (.number (.float x)))).written =
      .ok ss) : x.isFinite = true := by
  refine Decidable.byContradiction fun hfinite => ?_
  rw [Bool.not_eq_true] at hfinite
  have htext := pathText_of_faithful hpath
  have hplain : ∀ c ∈ Number.writeFloat x, Inert c ∧ isBlank c = false :=
    plain_of_mem_infiniteTexts (writeFloat_mem_infiniteTexts hfinite)
  have hscans := (scans_sign htext op 1).append (.of_inert (fun c hc => (hplain c hc).1) 1)
  have hcondition : ('@' :: (path.flatMap fun key => '[' :: key.written ++ [']']) ++
      ' ' :: op.sign ++ ' ' :: Number.writeFloat x) =
      '@' :: (path.flatMap fun key => '[' :: key.written ++ [']']) ++ ' ' :: op.sign ++ [' '] ++
        Number.writeFloat x := by simp
  rw [← hcondition] at hscans
  rw [written_compares] at hread
  obtain ⟨condition, hok⟩ := exists_readCondition_of_readSelectors hscans hread
  rw [readCondition_sign htext] at hok
  exact readComparing_ne_ok (fun c hc => (hplain c (List.mem_of_mem_head? hc)).2)
    (readLiteral_writeFloat hfinite) path op condition hok

/-- A comparison with a finite double that is written as an integer is read as the comparison with
that integer. -/
theorem readExpression_compares_int {path : List Key} {op : Comparison} {x : Binary64} {n : Int64}
    (hpath : ∀ key ∈ path, key.Faithful) (hfinite : x.isFinite = true)
    (hn : readInt64? (Number.writeFloat x) = some n) :
    readExpression (Selector.filter (.compares path op (.number (.float x)))).written =
      .ok [.filter (.compares path op (.number (.int n)))] := by
  have hnumber := readNumber?_writeFloat hfinite
  rw [hn] at hnumber
  rw [written_compares]
  exact readExpression_group (.filter (.compares (pathText_of_faithful hpath) op
    (literalText_writeFloat hfinite hnumber)))

/-- Literals with which a comparison at a path that leads somewhere holds alike are compared with
alike by every scalar. -/
theorem compares_eq_of_holds {path : List Key} {op : Comparison} {literal other : Scalar}
    {config : Config} {v leaf : Value} (hleaf : v.resolve? config path = some leaf)
    (h : ∀ u, (Condition.compares path op literal).holds config u =
      (Condition.compares path op other).holds config u) (s : Scalar) :
    s.compares op literal = s.compares op other := by
  obtain ⟨u, hu⟩ := Value.exists_resolve?_eq hleaf (.scalar s)
  have hsame := h u
  simpa only [Condition.holds, hu, Option.map_some, Option.getD_some, Condition.comparesValue]
    using hsame

/-- The literal of a comparison that is read as selectors that do the same is faithful, unless the
path leads nowhere. -/
theorem faithful_literal_of_compares {path : List Key} {op : Comparison} {literal : Scalar}
    (hpath : ∀ key ∈ path, key.Faithful) {config : Config} {v leaf : Value}
    (hleaf : v.resolve? config path = some leaf)
    (hread : readExpression (Selector.filter (.compares path op literal)).written = .ok ss)
    (hagrees : SelectsAs ss (.filter (.compares path op literal))) : literal.Faithful := by
  have hselectors := hread
  rw [readExpression_written ⟨_, rfl⟩] at hselectors
  cases literal with
  | null | bool => trivial
  | string s => exact isReadable_of_readSelectors hpath hselectors
  | number n =>
      cases n with
      | int n => trivial
      | float x =>
          have hfinite := isFinite_of_readSelectors hpath hselectors
          refine ⟨hfinite, fun n hn => ?_⟩
          rw [readExpression_compares_int hpath hfinite hn] at hread
          obtain rfl := Except.ok.inj hread
          exact Number.eq_of_compares (a := .int n) (b := .float x) rfl
            (Binary64.isNaN_of_isFinite hfinite) op
            (compares_eq_of_holds hleaf (holds_eq_of_agrees hagrees config))

/-- A filter that is read as selectors that do the same is faithful, unless its condition is
void. -/
theorem faithful_of_filter {condition : Condition} (hvoid : ¬condition.Void)
    (hread : readExpression (Selector.filter condition).written = .ok ss)
    (hagrees : SelectsAs ss (.filter condition)) : condition.Faithful := by
  have hselectors := hread
  rw [readExpression_written ⟨_, rfl⟩] at hselectors
  have hpath := faithful_path_of_filter hvoid hselectors hagrees
  cases condition with
  | present path => exact hpath
  | compares path op literal =>
      obtain ⟨config, v, hholds⟩ := Condition.exists_holds hvoid
      obtain ⟨leaf, hleaf, -⟩ := Condition.holds_iff.1 hholds
      exact ⟨hpath, faithful_literal_of_compares hpath hleaf hread hagrees⟩

/-- A selector that is read as selectors that do the same is faithful, unless it is a filter with a
void condition. -/
theorem faithful_of_agrees {s : Selector} (hwell : s = .root ∨ s.WellFormed)
    (hvoid : ∀ condition : Condition, condition.Void → s ≠ .filter condition)
    (hread : readExpression s.written = .ok ss)
    (hagrees : SelectsAs ss s) : s.Faithful := by
  cases s with
  | root | positions | slice | children | script => trivial
  | member name =>
      rw [readExpression_written ⟨_, rfl⟩] at hread
      have hkeys : readSelectors (Selector.keys [.name name]).written = .ok ss := by
        simpa [Selector.written] using hread
      have hne : [Key.name name].filterMap Key.name? ≠ [] := List.cons_ne_nil name []
      exact faithful_of_keys hne hkeys hagrees _ List.mem_cons_self
  | keys ks =>
      rw [readExpression_written ⟨_, rfl⟩] at hread
      refine faithful_of_keys ?_ hread hagrees
      obtain ⟨name, hname⟩ := hwell.resolve_left (by simp)
      exact List.ne_nil_of_mem (List.mem_filterMap.2 ⟨_, hname, rfl⟩)
  | descent name =>
      cases name with
      | none => trivial
      | some name => exact faithful_of_descent hread hagrees
  | filter condition =>
      exact faithful_of_filter (fun hcondition => hvoid condition hcondition rfl) hread hagrees

end

/-- The selectors of an expression that survive their texts are the faithful ones, and filters that
hold of nothing and are read as what selects nothing either. -/
theorem survives_iff {text : List Char} {selectors : List Selector} {s : Selector}
    (h : readExpression text = .ok selectors) (hs : s ∈ selectors) :
    s.Survives ↔ s.Faithful ∨ ∃ condition others, s = .filter condition ∧ condition.Void ∧
      readExpression s.written = .ok others ∧ Idle others := by
  obtain ⟨hwell, hbalanced⟩ := wellFormed_and_balanced h hs
  constructor
  · rintro ⟨others, hread, hagrees⟩
    by_cases hvoid : ∃ condition : Condition, condition.Void ∧ s = .filter condition
    · obtain ⟨condition, hcondition, rfl⟩ := hvoid
      refine .inr ⟨condition, others, rfl, hcondition, hread, fun root config nodes => ?_⟩
      exact (hcondition.apply_eq root config nodes ▸ hagrees root config nodes).eq_of_ok
    · refine .inl (faithful_of_agrees hwell (fun condition hcondition hs => ?_) hread hagrees)
      exact hvoid ⟨condition, hcondition, hs⟩
  · rintro (hfaithful | ⟨condition, others, rfl, hcondition, hread, hothers⟩)
    · obtain ⟨others, hread, hsame⟩ := exists_readExpression_written hwell hbalanced hfaithful
      exact ⟨others, hread, fun root config nodes => hsame root config nodes ▸ .refl _⟩
    · refine ⟨others, hread, fun root config nodes => ?_⟩
      rw [hothers, hcondition.apply_eq]
      exact .ok []

/-- A key of one backslash is read from an expression and does not survive its text. -/
theorem not_survives_backslash :
    readExpression "['\\\\']".toList = .ok [.keys [.name "\\"]] ∧
      ¬(Selector.keys [.name "\\"]).Survives := by
  have hread : readExpression "['\\\\']".toList = .ok [.keys [.name "\\"]] := by decide +kernel
  refine ⟨hread, fun hsurvives => ?_⟩
  rcases (survives_iff hread List.mem_cons_self).1 hsurvives with hfaithful | ⟨_, _, hs, -⟩
  · exact hfaithful (.name "\\") List.mem_cons_self (by decide)
  · cases hs

end PathQuery
