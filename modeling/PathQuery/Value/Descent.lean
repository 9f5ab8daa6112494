import PathQuery.Value.Basic

/-!
# All values of a tree

`walk` visits the trees of a list one after the other, each from its root down, with what is still
to visit kept in the list: the children of a value come in front of what follows it. So a deep
document needs a long list and no deep recursion. `descendants` is the walk from one root.
-/

namespace PathQuery.Value

/-- The values of the trees in `pending`, roots before what is below them, in order. Reference: the
loop of `descendants`. -/
def walk : List Value → List Value
  | [] => []
  | v :: pending => v :: walk (v.children ++ pending)
termination_by pending => sizeElements pending
decreasing_by simp [sizeElements, sizeElements_append, size_eq v]

/-- A value and all values below it, in the order of the document. Reference: `descendants`. -/
def descendants (v : Value) : List Value := walk [v]

end PathQuery.Value
