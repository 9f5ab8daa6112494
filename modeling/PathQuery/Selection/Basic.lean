import PathQuery.Error
import PathQuery.Selection.Script
import PathQuery.Selection.Slice
import PathQuery.Value.Descent

/-!
# Selecting nodes

Each selector turns a list of nodes into the list of what it picks from each of them, in turn; only
the root selector forgets the list. `select` begins with the root alone and applies one selector
after another. The one thing that can fail is a script that is no arithmetic on a length, and it
fails whatever the nodes are.
-/

namespace PathQuery

namespace Condition

/-- Whether a comparison with a literal holds of a value. What is no scalar is unequal to it.
Reference: `compare_value`. -/
def comparesValue (op : Comparison) (literal : Scalar) : Value → Bool
  | .scalar s => s.compares op literal
  | _ => op == .ne

/-- Whether a condition holds of a value. It does not if its path leads nowhere. Reference:
`FilterEvaluator.matches`. -/
def holds (config : Config) (v : Value) : Condition → Bool
  | .present path => ((v.resolve? config path).map Value.isTruthy).getD false
  | .compares path op literal =>
    ((v.resolve? config path).map (comparesValue op literal)).getD false

end Condition

namespace Value

/-- What several keys pick from a value, in the order of the keys. Reference:
`FilterEvaluator.apply_keys`. -/
def pick (config : Config) (ks : List Key) (v : Value) : List Value := ks.filterMap (v.get? config)

/-- What several positions pick from an array, in the order of the positions. Reference:
`FilterEvaluator.apply_index`. -/
def pickElements (config : Config) (places : List Int64) : Value → List Value
  | .array elements => pick config (places.map .position) (.array elements)
  | _ => []

/-- A value and all below it, or of all these the member of a name. Reference:
`FilterEvaluator.apply_recursive`. -/
def descend (config : Config) : Option String → Value → List Value
  | none, v => v.descendants
  | some name, v => v.descendants.filterMap fun w => w.get? config (.name name)

end Value

namespace Selector

/-- What a selector makes of a list of nodes in the document with the given root. Reference:
`FilterEvaluator.apply`, with `apply_wildcard` and `apply_query`. -/
def apply (root : Value) (config : Config) (nodes : List Value) :
    Selector → Except Error (List Value)
  | .root => .ok [root]
  | .member name => .ok (nodes.flatMap (Value.pick config [.name name]))
  | .keys ks => .ok (nodes.flatMap (Value.pick config ks))
  | .positions places => .ok (nodes.flatMap (Value.pickElements config places))
  | .slice bounds => .ok (nodes.flatMap bounds.elements)
  | .children => .ok (nodes.flatMap Value.children)
  | .descent name => .ok (nodes.flatMap (Value.descend config name))
  | .filter condition => .ok ((nodes.flatMap Value.children).filter (condition.holds config ·))
  | .script text =>
    match scriptOffset? text.toList with
    | none => .error (.unsupportedScript text)
    | some offset => .ok (nodes.flatMap (Value.elementFromLength config offset))

end Selector

/-- What the selectors make of a list of nodes, one after another. Reference: the fold of
`FilterEvaluator.evaluate`. -/
def applyAll (root : Value) (config : Config) (nodes : List Value) (selectors : List Selector) :
    Except Error (List Value) :=
  selectors.foldlM (Selector.apply root config) nodes

/-- What the selectors pick from the document with the given root. Reference:
`FilterEvaluator.evaluate`, `FilterEvaluator.initial`. -/
def select (root : Value) (config : Config) (selectors : List Selector) :
    Except Error (List Value) :=
  applyAll root config [root] selectors

end PathQuery
