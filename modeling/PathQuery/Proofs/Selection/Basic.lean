import PathQuery.Selection.Basic

/-!
# Selectors act on one node at a time

Every selector but the root turns a list of nodes into the list of what it picks from each of them
(`Selector.picks`), and whether it can be applied at all is a matter of the selector alone
(`Selector.refusal?`). `Selector.apply_eq` says so of one selector and `applyAll_eq` of a list of
them: the first refusal is the outcome, whatever the nodes are, and without one the outcome is the
fold of the picks (`pickAll`).
-/

namespace PathQuery

namespace Value

/-- A list of one key picks what that key picks. -/
theorem pick_singleton (config : Config) (key : Key) (v : Value) :
    v.pick config [key] = (v.get? config key).toList := by
  cases h : v.get? config key <;> simp [pick, h]

/-- Several positions pick what the keys do that they are. -/
theorem pickElements_eq (config : Config) (places : List Int64) (v : Value) :
    v.pickElements config places = v.pick config (places.map .position) := by
  cases v with
  | array xs => rfl
  | object | scalar | host =>
      refine (List.filterMap_eq_nil_iff.2 fun key hkey => ?_).symm
      obtain ⟨i, -, rfl⟩ := List.mem_map.1 hkey
      rfl

end Value

namespace Selector

/-- What a selector picks from one node. The root selector picks from no node. -/
def picks (config : Config) : Selector → Value → List Value
  | .root, _ => []
  | .member name, v => v.pick config [.name name]
  | .keys ks, v => v.pick config ks
  | .positions places, v => v.pickElements config places
  | .slice bounds, v => bounds.elements v
  | .children, v => v.children
  | .descent name, v => v.descend config name
  | .filter condition, v => v.children.filter (condition.holds config ·)
  | .script text, v =>
    match scriptOffset? text.toList with
    | none => []
    | some offset => v.elementFromLength config offset

/-- The error of a selector that cannot be applied, whatever the nodes are. -/
def refusal? : Selector → Option Error
  | .script text =>
    match scriptOffset? text.toList with
    | none => some (.unsupportedScript text)
    | some _ => none
  | _ => none

/-- What a selector that can be applied makes of a list of nodes. -/
def pickFrom (root : Value) (config : Config) (nodes : List Value) (s : Selector) : List Value :=
  if s = .root then [root] else nodes.flatMap (s.picks config)

/-- Any selector but the root picks from each node of a list in turn. -/
theorem pickFrom_of_ne_root {s : Selector} (h : s ≠ .root) (root : Value) (config : Config)
    (nodes : List Value) : s.pickFrom root config nodes = nodes.flatMap (s.picks config) :=
  if_neg h

/-- A selector is refused, or else it picks from the nodes in turn. -/
theorem apply_eq (root : Value) (config : Config) (nodes : List Value) (s : Selector) :
    s.apply root config nodes =
      match s.refusal? with
      | some e => .error e
      | none => .ok (s.pickFrom root config nodes) := by
  cases s with
  | root | member | keys | positions | slice | children | descent => rfl
  | filter condition =>
      show Except.ok _ = Except.ok _
      rw [List.filter_flatMap]
      rfl
  | script text =>
      simp only [apply, refusal?]
      cases h : scriptOffset? text.toList with
      | none => rfl
      | some offset =>
          have hpicks : picks config (.script text) = Value.elementFromLength config offset := by
            funext v
            simp only [picks, h]
          rw [pickFrom_of_ne_root (by simp), hpicks]

end Selector

/-- What selectors that can be applied make of a list of nodes, one after another. -/
def pickAll (root : Value) (config : Config) (nodes : List Value) (selectors : List Selector) :
    List Value :=
  selectors.foldl (Selector.pickFrom root config) nodes

/-- The first selector that is refused decides the outcome; without one, all of them pick. -/
theorem applyAll_eq (root : Value) (config : Config) (nodes : List Value)
    (selectors : List Selector) :
    applyAll root config nodes selectors =
      match selectors.findSome? Selector.refusal? with
      | some e => .error e
      | none => .ok (pickAll root config nodes selectors) := by
  induction selectors generalizing nodes with
  | nil => rfl
  | cons s rest ih =>
      rw [applyAll, List.foldlM_cons, Selector.apply_eq, List.findSome?_cons]
      cases s.refusal? with
      | some e => rfl
      | none => exact ih _

/-- Selectors that are applied without an error have picked their outcome. -/
theorem eq_pickAll_of_applyAll {root : Value} {config : Config} {nodes found : List Value}
    {selectors : List Selector} (h : applyAll root config nodes selectors = .ok found) :
    found = pickAll root config nodes selectors := by
  rw [applyAll_eq] at h
  split at h
  · cases h
  · exact (Except.ok.inj h).symm

/-- Selectors are applied one list after the other. -/
theorem applyAll_append (root : Value) (config : Config) (nodes : List Value)
    (first second : List Selector) :
    applyAll root config nodes (first ++ second) =
      (applyAll root config nodes first).bind fun between =>
        applyAll root config between second :=
  List.foldlM_append

end PathQuery
