import PathQuery.Proofs.Comparison
import PathQuery.Proofs.Outcome
import PathQuery.Proofs.Value.Equality
import PathQuery.Proofs.Value.Hosts

/-!
# Equality of values is an equivalence

Equality of values can be turned around and goes on from equals to equals; only a value that holds
what is no number is not equal to itself (`equal_equivalence`). The names in objects have to be
distinct for some of this, since one object is searched for the names of the other. Nothing changes
if members are given another order at any depth (`Reordered`).
-/

namespace PathQuery

namespace Scalar

/-- What is equal to an equal is equal. -/
theorem equal_trans {r s t : Scalar} (hrs : r.equal s = true) (hst : s.equal t = true) :
    r.equal t = true := by
  cases s with
  | null =>
      cases r <;> try cases hrs
      exact hst
  | bool b =>
      cases r <;> try cases hrs
      rwa [beq_iff_eq.1 hrs]
  | number n =>
      cases r <;> try cases hrs
      cases t <;> try cases hst
      obtain ⟨⟨hr, -⟩, hrs⟩ := Number.equal_iff.1 hrs
      obtain ⟨⟨-, ht⟩, hst⟩ := Number.equal_iff.1 hst
      exact Number.equal_iff.2 ⟨⟨hr, ht⟩, hrs.trans hst⟩
  | string s =>
      cases r <;> try cases hrs
      rwa [beq_iff_eq.1 hrs]

/-- A scalar is equal to itself unless it is a double that is no number. -/
theorem equal_self_iff (s : Scalar) :
    s.equal s = true ↔ ∀ x, s = .number (.float x) → x.isNaN = false := by
  cases s with
  | null => simp [equal]
  | bool b => simp [equal]
  | number n =>
      rw [equal, Number.equal_iff]
      cases n <;> simp [Number.isNaN]
  | string s => simp [equal]

end Scalar

namespace Value

variable {u v w : Value}

/-- What is equal to a value is one to which the value is equal. -/
theorem equal_symm (hnames : v.Unambiguous) (h : v.equal w = true) : w.equal v = true := by
  induction v using children_induction generalizing w with
  | h v ih =>
      cases v <;> cases w <;> try cases h
      case object.object ms ns =>
        obtain ⟨hlength, hmembers⟩ := equal_object_iff.1 h
        have hperm := names_perm hnames.nodup h
        refine equal_object_iff.2 ⟨hlength.symm, fun n hn => ?_⟩
        -- A member of the second has its name from one of the first, whose name leads back to it.
        obtain ⟨m, hm, hname⟩ := List.mem_map.1 (hperm.mem_iff.2 (List.mem_map_of_mem hn))
        obtain ⟨x, hx, hequal⟩ := hmembers m hm
        rw [hname, member?_of_mem (hperm.nodup_iff.1 hnames.nodup) hn, Option.some.injEq] at hx
        subst hx
        have hchild : m.2 ∈ (object ms).children := List.mem_map_of_mem hm
        refine ⟨m.2, ?_, ih m.2 hchild (hnames.of_mem_children hchild) hequal⟩
        rw [← hname]
        exact member?_of_mem hnames.nodup hm
      case array.array xs ys =>
        have hback := forall₂_imp_of_mem (equalElements_iff.1 h) fun x hx y hxy =>
          ih x hx (hnames.of_mem_children hx) hxy
        exact equalElements_iff.2 hback.flip
      case scalar.scalar s t => exact (Scalar.equal_comm s t).trans h
      case host.host => exact beq_iff_eq.2 (beq_iff_eq.1 h).symm

/-- What is equal to an equal is equal, whatever the names. -/
theorem equal_trans (huv : u.equal v = true) (hvw : v.equal w = true) : u.equal w = true := by
  induction u using children_induction generalizing v w with
  | h u ih =>
      cases u <;> cases v <;> try cases huv
      all_goals cases w <;> try cases hvw
      case object.object.object ms ns ps =>
        obtain ⟨hlength, hms⟩ := equal_object_iff.1 huv
        obtain ⟨hlength', hns⟩ := equal_object_iff.1 hvw
        refine equal_object_iff.2 ⟨hlength.trans hlength', fun m hm => ?_⟩
        obtain ⟨x, hx, hmx⟩ := hms m hm
        obtain ⟨y, hy, hxy⟩ := hns _ (mem_of_member? hx)
        exact ⟨y, hy, ih m.2 (List.mem_map_of_mem hm) hmx hxy⟩
      case array.array.array xs ys zs =>
        exact equalElements_iff.2 (forall₂_comp_of_mem (equalElements_iff.1 huv)
          (equalElements_iff.1 hvw) fun x hx _ _ hxy hyz => ih x hx hxy hyz)
      case scalar.scalar.scalar => exact Scalar.equal_trans huv hvw
      case host.host.host => exact beq_iff_eq.2 ((beq_iff_eq.1 huv).trans (beq_iff_eq.1 hvw))

/-! ## Members in another order -/

/-- Two values that differ in nothing but the order in which objects, at any depth, have their
members. -/
inductive Reordered : Value → Value → Prop
  | object {ms ns ps : List (String × Value)} (hperm : ms.Perm ns)
    (hnames : ns.map Prod.fst = ps.map Prod.fst)
    (hvalues : List.Forall₂ Reordered (ns.map Prod.snd) (ps.map Prod.snd)) :
    Reordered (.object ms) (.object ps)
  | array {xs ys : List Value} (helements : List.Forall₂ Reordered xs ys) :
    Reordered (.array xs) (.array ys)
  | scalar (s : Scalar) : Reordered (.scalar s) (.scalar s)
  | host (identity : Nat) (answer : String → Option Value) :
    Reordered (.host identity answer) (.host identity answer)

/-- Every value is one of its own rearrangements. -/
theorem Reordered.refl (v : Value) : Reordered v v := by
  induction v using children_induction with
  | h v ih =>
      have hchildren : List.Forall₂ Reordered v.children v.children := List.forall₂_same.2 ih
      cases v with
      | object members => exact .object (.refl _) rfl hchildren
      | array elements => exact .array hchildren
      | scalar s => exact .scalar s
      | host identity answer => exact .host identity answer

/-- Every double at or below a value is a number. -/
def NaNFree (v : Value) : Prop :=
  ∀ w ∈ v.descendants, ∀ x, w = .scalar (.number (.float x)) → x.isNaN = false

/-- All doubles in a value are numbers if the value itself is none that is not and if they are so in
its children. -/
theorem nanFree_iff : v.NaNFree ↔
    (∀ x, v = .scalar (.number (.float x)) → x.isNaN = false) ∧ ∀ w ∈ v.children, w.NaNFree :=
  forall_mem_descendants_iff

/-- A value without what is no number is equal to itself with its members in another order. -/
theorem Reordered.equal (h : Reordered v w) (hnames : v.Unambiguous) (hnumbers : v.NaNFree) :
    v.equal w = true := by
  induction v using children_induction generalizing w with
  | h v ih =>
      have hchild : ∀ x ∈ v.children, ∀ y, Reordered x y → x.equal y = true := fun x hx _ hxy =>
        ih x hx hxy (hnames.of_mem_children hx) ((nanFree_iff.1 hnumbers).2 x hx)
      cases h with
      | @object ms ns ps hperm hsame hvalues =>
          have hlength : ns.length = ps.length := by simpa using congrArg List.length hsame
          refine equal_object_iff.2 ⟨hperm.length_eq.trans hlength, fun m hm => ?_⟩
          -- The permuted members have the same names in the same places as those of the second
          -- object, so that a name leads to values that differ in the order of members only.
          have hnodup := (hperm.map Prod.fst).nodup_iff.1 hnames.nodup
          have hpair := forall₂_member? hsame hvalues m.1
          rw [member?_of_mem hnodup (hperm.mem_iff.1 hm)] at hpair
          cases hfound : member? ps m.1 with
          | none =>
              rw [hfound] at hpair
              cases hpair
          | some y =>
              rw [hfound] at hpair
              exact ⟨y, rfl, hchild m.2 (List.mem_map_of_mem hm) y (List.forall₂_cons.1 hpair).1⟩
      | array helements => exact equalElements_iff.2 (forall₂_imp_of_mem helements hchild)
      | scalar s =>
          refine (Scalar.equal_self_iff s).2 fun x hs => ?_
          exact (nanFree_iff.1 hnumbers).1 x (congrArg Value.scalar hs)
      | host => exact beq_self_eq_true _

/-- A value is equal to itself if and only if there is nothing in it that is no number. -/
theorem equal_self_iff (hnames : v.Unambiguous) : v.equal v = true ↔ v.NaNFree := by
  refine ⟨fun h => ?_, (Reordered.refl v).equal hnames⟩
  induction v using children_induction with
  | h v ih =>
      have hchild : ∀ x ∈ v.children, x.equal x = true → x.NaNFree := fun x hx hself =>
        ih x hx (hnames.of_mem_children hx) hself
      refine nanFree_iff.2 ⟨?_, fun x hx => hchild x hx ?_⟩
      · rintro x rfl
        exact (Scalar.equal_self_iff (.number (.float x))).1 h x rfl
      · cases v with
        | object members =>
            obtain ⟨m, hm, rfl⟩ := List.mem_map.1 hx
            obtain ⟨y, hy, hequal⟩ := (equal_object_iff.1 h).2 m hm
            rw [member?_of_mem hnames.nodup hm, Option.some.injEq] at hy
            rwa [← hy] at hequal
        | array elements => exact List.forall₂_same.1 (equalElements_iff.1 h) x hx
        | scalar => cases hx
        | host => cases hx

/-- Equality of values whose names are distinct can be turned around, goes on from equals to equals,
holds of a value with itself unless there is something in it that is no number, and does not see
the order of members. -/
theorem equal_equivalence (hnames : v.Unambiguous) :
    (∀ w, v.equal w = true → w.equal v = true) ∧
      (∀ u w : Value, u.equal v = true → v.equal w = true → u.equal w = true) ∧
      (v.equal v = true ↔ v.NaNFree) ∧
      (v.NaNFree → ∀ w, Reordered v w → v.equal w = true) :=
  ⟨fun _ h => equal_symm hnames h, fun _ _ huv hvw => equal_trans huv hvw, equal_self_iff hnames,
    fun hnumbers _ h => h.equal hnames hnumbers⟩

/-- Two members may be swapped, also where one of them is an array. -/
theorem equal_equivalence_swapped :
    let v := object [("a", .scalar (.number (.int 1))), ("b", .array [.scalar .null])]
    let w := object [("b", .array [.scalar .null]), ("a", .scalar (.number (.int 1)))]
    v.Unambiguous ∧ v.NaNFree ∧ Reordered v w ∧ v.equal v = true ∧ v.equal w = true ∧
      w.equal v = true := by
  intro v w
  have hnames : v.Unambiguous := by
    simp [v, Unambiguous, descendants, walk, children]
  have hnumbers : v.NaNFree := by
    simp [v, NaNFree, descendants, walk, children]
  have hreordered : Reordered v w :=
    .object (.swap _ _ []) rfl (List.forall₂_same.2 fun x _ => .refl x)
  obtain ⟨hsymm, -, hself, horder⟩ := equal_equivalence hnames
  have hequal := horder hnumbers w hreordered
  exact ⟨hnames, hnumbers, hreordered, hself.2 hnumbers, hequal, hsymm w hequal⟩

end Value

end PathQuery
