import Mathlib.Data.List.Dedup
import PathQuery.Proofs.Number
import PathQuery.Proofs.Selection.Nodewise
import PathQuery.Proofs.Value.Descent

/-!
# Documents that tell selectors apart

Selectors are told apart by the documents of this module. A catalog (`Value.catalog`) holds a value
of its own for every name, and from it two lists of keys pick the same only if they hold the same
names (`pickAll_ne_of_catalog`), whatever is selected afterwards: of values without parts all are
kept or none (`pickAll_scalars`). A path that leads to something in some value leads to anything in
another (`exists_resolve?_eq`), and in another again is the only one of its kind to lead to anything
(`exists_narrow`).
-/

namespace PathQuery

/-- The path of a condition. -/
def Condition.path : Condition → List Key
  | .present path | .compares path _ _ => path

/-- What a condition asks of the value that its path leads to. -/
def Condition.test : Condition → Value → Bool
  | .present _ => Value.isTruthy
  | .compares _ op literal => Condition.comparesValue op literal

/-- A condition asks of the value that its path leads to, if it leads to one. -/
theorem Condition.holds_eq (condition : Condition) (config : Config) (v : Value) :
    condition.holds config v =
      ((v.resolve? config condition.path).map condition.test).getD false := by
  cases condition <;> rfl

/-- Of an object or an array a condition asks no more than whether there is anything in it. -/
theorem Condition.test_eq_of_isContainer {v w : Value} (hv : v.isContainer = true)
    (hw : w.isContainer = true) (hlength : v.children.length = w.children.length)
    (condition : Condition) : condition.test v = condition.test w := by
  cases condition with
  | present path =>
      have htruthy : ∀ {u : Value}, u.isContainer = true →
          u.isTruthy = !decide (u.children.length = 0) := by
        intro u hu
        cases u with
        | object members => cases members <;> rfl
        | array elements => cases elements <;> rfl
        | scalar | host => cases hu
      show v.isTruthy = w.isTruthy
      rw [htruthy hv, htruthy hw, hlength]
  | compares path op literal =>
      have hcompares : ∀ {u : Value}, u.isContainer = true →
          comparesValue op literal u = (op == .ne) := by
        intro u hu
        cases u with
        | object | array => rfl
        | scalar | host => cases hu
      show comparesValue op literal v = comparesValue op literal w
      rw [hcompares hv, hcompares hw]

/-- A condition holds if its path leads to a value of which holds what it asks. -/
theorem Condition.holds_iff {condition : Condition} {config : Config} {v : Value} :
    condition.holds config v = true ↔
      ∃ leaf, v.resolve? config condition.path = some leaf ∧ condition.test leaf = true := by
  rw [condition.holds_eq]
  cases v.resolve? config condition.path <;> simp

/-- The name that a key is, if it is one. -/
def Key.name? : Key → Option String
  | .name n => some n
  | .position _ => none

/-- A name in front of a list of keys is the first of its names. -/
theorem Key.filterMap_name?_cons (n : String) (ks : List Key) :
    (Key.name n :: ks).filterMap Key.name? = n :: ks.filterMap Key.name? := rfl

namespace Value

/-! ## Paths -/

/-- A path leads on from where its front leads. -/
theorem resolve?_append (config : Config) (v : Value) (front path : List Key) :
    v.resolve? config (front ++ path) =
      (v.resolve? config front).bind fun w => w.resolve? config path := by
  induction front generalizing v with
  | nil => rfl
  | cons key front ih =>
      rw [List.cons_append, resolve?, resolve?, Option.bind_assoc]
      congr 1
      funext w
      exact ih w

/-- What a key picks from a value it picks from another one, whatever it is to be. -/
theorem exists_get?_eq {config : Config} {v w : Value} {key : Key}
    (h : v.get? config key = some w) (other : Value) : ∃ u, get? config u key = some other := by
  cases key with
  | name n => exact ⟨.object [(n, other)], by simp [get?, member?]⟩
  | position i =>
      cases v with
      | array elements =>
          obtain ⟨k, hk, hw⟩ := Option.bind_eq_some_iff.1 h
          obtain ⟨hlt, -⟩ := List.getElem?_eq_some_iff.1 hw
          refine ⟨.array (elements.set k other), ?_⟩
          show (resolvePosition? (elements.set k other).length i).bind _ = _
          rw [List.length_set, hk, Option.bind_some, List.getElem?_set_self hlt]
      | object | scalar | host => cases h

/-- Where a path leads in a value it leads in another one to whatever is wanted there. -/
theorem exists_resolve?_eq {config : Config} {v leaf : Value} {path : List Key}
    (h : v.resolve? config path = some leaf) (other : Value) :
    ∃ u, resolve? config u path = some other := by
  induction path generalizing v with
  | nil => exact ⟨other, rfl⟩
  | cons key path ih =>
      obtain ⟨w, hw, hpath⟩ := Option.bind_eq_some_iff.1 h
      obtain ⟨below, hbelow⟩ := ih hpath
      obtain ⟨u, hu⟩ := exists_get?_eq hw below
      exact ⟨u, by rw [resolve?, hu, Option.bind_some, hbelow]⟩

/-- Where a path leads somewhere by a name, a value has the same there and nothing by another name
in its place. -/
theorem exists_narrow {config : Config} {v leaf : Value} {front path : List Key} {n : String}
    (h : v.resolve? config (front ++ .name n :: path) = some leaf) :
    ∃ u, resolve? config u (front ++ .name n :: path) = some leaf ∧ ∀ w other, w ≠ n →
      resolve? config u (front ++ .name w :: other) = none := by
  rw [resolve?_append] at h
  obtain ⟨inner, hfront, hinner⟩ := Option.bind_eq_some_iff.1 h
  obtain ⟨below, -, hpath⟩ := Option.bind_eq_some_iff.1 hinner
  obtain ⟨u, hu⟩ := exists_resolve?_eq hfront (.object [(n, below)])
  have hget : ∀ w, get? config (.object [(n, below)]) (.name w) =
      if n = w then some below else none := by
    intro w
    by_cases hw : n = w <;> simp [get?, member?, hw]
  refine ⟨u, ?_, fun w other hw => ?_⟩
  · rw [resolve?_append, hu, Option.bind_some, resolve?, hget, if_pos rfl, Option.bind_some, hpath]
  · rw [resolve?_append, hu, Option.bind_some, resolve?, hget, if_neg (Ne.symm hw),
      Option.bind_none]

/-! ## Catalogs -/

/-- The value that a catalog has for a name: the name itself. -/
def entry (n : String) : Value := .scalar (.string n)

/-- An object with a value of its own for each of the given names. -/
def catalog (names : List String) : Value :=
  .object (names.dedup.map fun n => (n, entry n))

/-- A catalog has the values of its names. -/
theorem get?_catalog {names : List String} {n : String} (h : n ∈ names) (config : Config) :
    get? config (catalog names) (.name n) = some (entry n) := by
  have hmember : ∀ listed : List String, n ∈ listed →
      member? (listed.map fun n => (n, entry n)) n = some (entry n) := by
    intro listed hmem
    induction listed with
    | nil => cases hmem
    | cons first more ih =>
        rw [List.map_cons, member?, List.find?_cons]
        by_cases hfirst : first = n
        · simp [hfirst]
        · have hbeq : (first == n) = false := beq_false_of_ne hfirst
          simp only [hbeq]
          exact ih (List.mem_of_ne_of_mem (Ne.symm hfirst) hmem)
  exact hmember _ (List.mem_dedup.2 h)

/-- Keys pick from a catalog of their names the values of the names. -/
theorem pick_catalog {names : List String} {ks : List Key}
    (h : ∀ n ∈ ks.filterMap Key.name?, n ∈ names) (config : Config) :
    (catalog names).pick config ks = (ks.filterMap Key.name?).map entry := by
  induction ks with
  | nil => rfl
  | cons key ks ih =>
      cases key with
      | name n =>
          rw [Key.filterMap_name?_cons] at h ⊢
          obtain ⟨hn, hmore⟩ := List.forall_mem_cons.1 h
          rw [pick, List.filterMap_cons_some (get?_catalog hn config), List.map_cons]
          exact congrArg _ (ih hmore)
      | position i =>
          have hname : Key.name? (.position i) = none := rfl
          rw [List.filterMap_cons_none hname] at h ⊢
          exact ih h

/-- All entries are values without parts. -/
theorem exists_scalar_of_mem_map_entry {names : List String} {v : Value}
    (h : v ∈ names.map entry) : ∃ s, v = .scalar s := by
  obtain ⟨n, -, rfl⟩ := List.mem_map.1 h
  exact ⟨.string n, rfl⟩

/-- Below a catalog are its entries and nothing else. -/
theorem descendants_catalog (names : List String) :
    (catalog names).descendants = catalog names :: names.dedup.map entry := by
  have hentry : ∀ n, descendants (entry n) = [entry n] := fun n => by
    rw [descendants_eq]
    rfl
  have hchildren : (catalog names).children = names.dedup.map entry := by
    rw [catalog, children, List.map_map]
    rfl
  rw [descendants_eq, hchildren, List.flatMap_map]
  simp only [hentry]
  rw [List.map_eq_flatMap]

/-- Below a catalog a name picks its entry and nothing else. -/
theorem descend_catalog {names : List String} {n : String} (h : n ∈ names) (config : Config) :
    (catalog names).descend config (some n) = [entry n] := by
  have hnone : (names.dedup.map entry).filterMap (fun w => w.get? config (.name n)) = [] := by
    refine List.filterMap_eq_nil_iff.2 fun v hv => ?_
    obtain ⟨s, rfl⟩ := exists_scalar_of_mem_map_entry hv
    rfl
  rw [descend, descendants_catalog, List.filterMap_cons, get?_catalog h]
  exact congrArg _ hnone

end Value

/-! ## Values without parts -/

/-- Of a value without parts every selector picks nothing, but for a descent to every node. -/
theorem Selector.picks_scalar (s : Selector) (config : Config) (x : Scalar) :
    s.picks config (.scalar x) = if s = .descent none then [.scalar x] else [] := by
  have hget : ∀ key, Value.get? config (.scalar x) key = none := fun key => rfl
  have hdescendants : (Value.scalar x).descendants = [.scalar x] := by
    rw [Value.descendants_eq]
    rfl
  cases s with
  | root | positions | slice | children | filter => rfl
  | member name => simp [picks, Value.pick, hget]
  | keys ks =>
      have hnone : ks.filterMap (Value.get? config (.scalar x)) = [] :=
        List.filterMap_eq_nil_iff.2 fun key _ => hget key
      rw [if_neg (by simp)]
      exact hnone
  | descent name =>
      cases name with
      | none => exact hdescendants
      | some name => simp [picks, Value.descend, hdescendants, hget]
  | script text =>
      rw [if_neg (by simp), picks]
      split <;> rfl

/-- From a value without parts selectors lead nowhere, unless all of them descend to every node. -/
theorem leadTo_scalar (selectors : List Selector) (config : Config) (x : Scalar) :
    leadTo config selectors (.scalar x) =
      if ∀ s ∈ selectors, s = .descent none then [.scalar x] else [] := by
  induction selectors with
  | nil => simp [leadTo]
  | cons s rest ih =>
      rw [leadTo, Selector.picks_scalar]
      by_cases hs : s = .descent none
      · rw [if_pos hs, List.flatMap_singleton, ih]
        simp [hs]
      · simp [hs]

/-- Of values without parts selectors keep all or none. -/
theorem pickAll_scalars {selectors : List Selector} (h : .root ∉ selectors) {nodes : List Value}
    (hnodes : ∀ v ∈ nodes, ∃ x, v = .scalar x) (root : Value) (config : Config) :
    pickAll root config nodes selectors = nodes ∨ pickAll root config nodes selectors = [] := by
  rw [pickAll_eq_flatMap h]
  by_cases hall : ∀ s ∈ selectors, s = .descent none
  · have hsame : nodes.flatMap (leadTo config selectors) = nodes.flatMap fun v => [v] := by
      refine List.flatMap_congr fun v hv => ?_
      obtain ⟨x, rfl⟩ := hnodes v hv
      rw [leadTo_scalar, if_pos hall]
    exact .inl (hsame.trans (List.flatMap_singleton' nodes))
  · refine .inr (List.flatMap_eq_nil_iff.2 fun v hv => ?_)
    obtain ⟨x, rfl⟩ := hnodes v hv
    rw [leadTo_scalar, if_neg hall]

/-- A list of keys that names other names, or a slice, does not lead to what is picked from a
catalog, whatever is selected from there on. -/
theorem pickAll_ne_of_catalog {ks others : List Key} {t : Selector} {more : List Selector}
    (ht : (∃ bounds, t = .slice bounds) ∨
      t = .keys others ∧ others.filterMap Key.name? ≠ ks.filterMap Key.name?)
    (hne : ks.filterMap Key.name? ≠ []) (hmore : .root ∉ more) {leaves : List Value}
    (hleaves : ∀ v ∈ leaves, ∃ x, v = .scalar x) (root : Value) (config : Config) :
    pickAll root config (Value.catalog ((ks ++ others).filterMap Key.name?) :: leaves) (t :: more) ≠
      (ks.filterMap Key.name?).map Value.entry := by
  have hroot : t ≠ .root := by rcases ht with ⟨_, rfl⟩ | ⟨rfl, -⟩ <;> simp
  have hdescent : t ≠ .descent none := by rcases ht with ⟨_, rfl⟩ | ⟨rfl, -⟩ <;> simp
  have hnone : leaves.flatMap (t.picks config) = [] := by
    refine List.flatMap_eq_nil_iff.2 fun v hv => ?_
    obtain ⟨x, rfl⟩ := hleaves v hv
    rw [Selector.picks_scalar, if_neg hdescent]
  have hempty : [] ≠ (ks.filterMap Key.name?).map Value.entry :=
    fun he => hne (List.map_eq_nil_iff.1 he.symm)
  rw [pickAll, List.foldl_cons, Selector.pickFrom_of_ne_root hroot, List.flatMap_cons, hnone,
    List.append_nil, ← pickAll]
  rcases ht with ⟨bounds, rfl⟩ | ⟨rfl, hnames⟩
  · show pickAll root config [] more ≠ _
    rwa [pickAll_nil hmore]
  · have hpick : Value.pick config others (.catalog ((ks ++ others).filterMap Key.name?)) =
        (others.filterMap Key.name?).map Value.entry := by
      refine Value.pick_catalog (fun n hn => ?_) config
      rw [List.filterMap_append]
      exact List.mem_append_right _ hn
    show pickAll root config (Value.pick config others _) more ≠ _
    rw [hpick]
    rcases pickAll_scalars hmore (fun v hv => Value.exists_scalar_of_mem_map_entry hv) root config
      with hall | hnil
    · rw [hall]
      intro he
      have hinj : Function.Injective Value.entry := fun a b h =>
        Scalar.string.inj (Value.scalar.inj h)
      exact hnames (List.map_injective_iff.2 hinj he)
    · rwa [hnil]

/-- The same is so behind a descent to every node. -/
theorem pickAll_descent_ne_of_catalog {ks others : List Key} {t : Selector} {more : List Selector}
    (ht : (∃ bounds, t = .slice bounds) ∨
      t = .keys others ∧ others.filterMap Key.name? ≠ ks.filterMap Key.name?)
    (hne : ks.filterMap Key.name? ≠ []) (hmore : .root ∉ more) (root : Value) (config : Config) :
    pickAll root config [Value.catalog ((ks ++ others).filterMap Key.name?)]
      (.descent none :: t :: more) ≠ (ks.filterMap Key.name?).map Value.entry := by
  have hnodes : Selector.pickFrom root config [Value.catalog ((ks ++ others).filterMap Key.name?)]
      (.descent none) = (Value.catalog ((ks ++ others).filterMap Key.name?)).descendants :=
    List.append_nil _
  rw [pickAll, List.foldl_cons, hnodes, Value.descendants_catalog, ← pickAll]
  exact pickAll_ne_of_catalog ht hne hmore
    (fun v hv => Value.exists_scalar_of_mem_map_entry hv) root config

/-! ## Literals -/

/-- A comparison does not hold alike of all three orders. -/
theorem Comparison.not_holdsOf_alike (op : Comparison) :
    ¬(op.holdsOf .eq = op.holdsOf .lt ∧ op.holdsOf .eq = op.holdsOf .gt) := by
  cases op <;> decide

/-- Numbers that everything compares with alike have one value. -/
theorem Number.eq_of_compares {a b : Number} (ha : a.isNaN = false) (hb : b.isNaN = false)
    (op : Comparison) (h : ∀ s : Scalar, s.compares op (.number a) = s.compares op (.number b)) :
    a.value = b.value := by
  have hcompares : ∀ c d : Number, c.isNaN = false → d.isNaN = false →
      Scalar.compares (.number c) op (.number d) = op.holdsOf (compare c.value d.value) := by
    intro c d hc hd
    simp [Scalar.compares, Number.compare?_eq, hc, hd]
  have hfirst := h (.number a)
  have hsecond := h (.number b)
  rw [hcompares _ _ ha ha, hcompares _ _ ha hb, Std.compare_self] at hfirst
  rw [hcompares _ _ hb ha, hcompares _ _ hb hb, Std.compare_self] at hsecond
  rcases Int.lt_trichotomy a.value b.value with hlt | heq | hgt
  · rw [Std.compare_eq_lt.2 hlt] at hfirst
    rw [Std.compare_eq_gt.2 hlt] at hsecond
    exact absurd ⟨hfirst, hsecond.symm⟩ op.not_holdsOf_alike
  · exact heq
  · rw [Std.compare_eq_gt.2 hgt] at hfirst
    rw [Std.compare_eq_lt.2 hgt] at hsecond
    exact absurd ⟨hsecond.symm, hfirst⟩ op.not_holdsOf_alike

end PathQuery
