import PathQuery.Proofs.Outcome
import PathQuery.Proofs.Selection.Nodewise

/-!
# Selectors that follow a path

A path of keys leads from a value to one value or to none. Selectors that pick by one key each, in
whatever form (`Selector.Follows`), lead along the path of these keys (`leadTo_eq_of_follows`): they
find where it leads, and nothing if it leads nowhere (`applyAll_eq_of_follows`).
-/

namespace PathQuery

/-- A selector picks by one key: by a list of this key alone, by its name or by its position. -/
inductive Selector.Follows : Selector → Key → Prop
  | keys (key : Key) : Follows (.keys [key]) key
  | member (n : String) : Follows (.member n) (.name n)
  | positions (i : Int64) : Follows (.positions [i]) (.position i)

namespace Selector.Follows

variable {s : Selector} {key : Key}

/-- A selector that picks by one key picks what the key does. -/
theorem picks_eq (h : s.Follows key) (config : Config) (v : Value) :
    s.picks config v = (v.get? config key).toList := by
  cases h with
  | keys key => exact v.pick_singleton config key
  | member n => exact v.pick_singleton config (.name n)
  | positions i =>
      rw [picks, Value.pickElements_eq]
      exact v.pick_singleton config (.position i)

/-- A selector that picks by one key can always be applied. -/
theorem refusal?_eq (h : s.Follows key) : s.refusal? = none := by
  cases h <;> rfl

/-- A selector that picks by one key is not the root selector. -/
theorem ne_root (h : s.Follows key) : s ≠ .root := by
  cases h <;> simp

end Selector.Follows

variable {selectors : List Selector} {path : List Key}

/-- Selectors that follow a path lead where the path leads. -/
theorem leadTo_eq_of_follows (h : List.Forall₂ Selector.Follows selectors path) (config : Config)
    (v : Value) : leadTo config selectors v = (v.resolve? config path).toList := by
  induction h generalizing v with
  | nil => rfl
  | @cons s key selectors path hs _ ih =>
      rw [leadTo, hs.picks_eq, Value.resolve?]
      cases v.get? config key with
      | none => rfl
      | some w => simpa using ih w

/-- Selectors that follow a path find from one node the value that the path leads to, or nothing if
it leads nowhere: so never more than one. -/
theorem applyAll_eq_of_follows (h : List.Forall₂ Selector.Follows selectors path) (root : Value)
    (config : Config) (node : Value) :
    applyAll root config [node] selectors = .ok (node.resolve? config path).toList ∧
      ∀ found, applyAll root config [node] selectors = .ok found → found.length ≤ 1 := by
  have hfollows : ∀ s ∈ selectors, ∃ key, s.Follows key := fun s hs =>
    (exists_of_mem_forall₂ h hs).imp fun _ hkey => hkey.2
  have hroot : .root ∉ selectors := by
    intro hmem
    obtain ⟨key, hkey⟩ := hfollows _ hmem
    exact hkey.ne_root rfl
  have hrefusal : selectors.findSome? Selector.refusal? = none := by
    refine List.findSome?_eq_none_iff.2 fun s hs => ?_
    obtain ⟨key, hkey⟩ := hfollows s hs
    exact hkey.refusal?_eq
  have happly : applyAll root config [node] selectors = .ok (node.resolve? config path).toList := by
    rw [applyAll_eq, hrefusal, pickAll_eq_flatMap hroot, List.flatMap_singleton,
      leadTo_eq_of_follows h]
  refine ⟨happly, fun found hfound => ?_⟩
  rw [happly] at hfound
  cases hfound
  cases node.resolve? config path <;> simp

/-- The last element of a member, with each key in another form. -/
theorem applyAll_eq_of_follows_member :
    List.Forall₂ Selector.Follows [.member "a", .positions [-1], .keys [.name "b"]]
        [.name "a", .position (-1), .name "b"] ∧
      (Value.object [("a", .array [.null, .object [("b", .array [])]])]).resolve? {}
        [.name "a", .position (-1), .name "b"] = some (.array []) ∧
      applyAll .null {} [.object [("a", .array [.null, .object [("b", .array [])]])]]
        [.member "a", .positions [-1], .keys [.name "b"]] = .ok [.array []] := by
  have hfollows : List.Forall₂ Selector.Follows [.member "a", .positions [-1], .keys [.name "b"]]
      [.name "a", .position (-1), .name "b"] :=
    .cons (.member _) (.cons (.positions _) (.cons (.keys _) .nil))
  have hresolve : (Value.object [("a", .array [.null, .object [("b", .array [])]])]).resolve? {}
      [.name "a", .position (-1), .name "b"] = some (.array []) := rfl
  have happly := (applyAll_eq_of_follows hfollows .null {}
    (.object [("a", .array [.null, .object [("b", .array [])]])])).1
  rw [hresolve] at happly
  exact ⟨hfollows, hresolve, happly⟩

end PathQuery
