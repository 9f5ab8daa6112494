import Mathlib.Logic.ExistsUnique
import PathQuery.Proofs.Scalar

/-!
# The six comparisons agree with one another

Two strings have an order, and so have two numbers if both are numbers; no other scalars have one
(`Scalar.Ordered`). `Scalar.compares_eq` says that a comparison asks for this order where there is
one, and knows nothing but equality elsewhere. An order turns around with its sides and is
transitive, for numbers because it is that of their values, so that the comparisons do not
contradict one another (`Scalar.compares_coherent`).
-/

namespace PathQuery

namespace Comparison

/-- The comparison that asks the same from the other side. -/
def converse : Comparison → Comparison
  | .eq => .eq
  | .ne => .ne
  | .lt => .gt
  | .le => .ge
  | .gt => .lt
  | .ge => .le

/-- What holds of an order holds of the order turned around, from the other side. -/
theorem holdsOf_converse (op : Comparison) (o : Ordering) :
    op.converse.holdsOf o.swap = op.holdsOf o := by
  cases op <;> cases o <;> rfl

/-- Without an order both sides know the same. -/
theorem holdsOfUnordered_converse (op : Comparison) (equal : Bool) :
    op.converse.holdsOfUnordered equal = op.holdsOfUnordered equal := by
  cases op <;> rfl

/-- The one of the three strict comparisons that holds of an order. -/
def strict : Ordering → Comparison
  | .lt => .lt
  | .eq => .eq
  | .gt => .gt

/-- Of an order exactly one of the three strict comparisons holds. -/
theorem existsUnique_holdsOf (o : Ordering) :
    ∃! op : Comparison, op ∈ [.lt, .eq, .gt] ∧ op.holdsOf o = true := by
  refine ⟨strict o, by cases o <;> decide, ?_⟩
  rintro op ⟨hmem, hholds⟩
  cases op <;> cases o <;>
    first | rfl | exact absurd hholds (by decide) | exact absurd hmem (by decide)

/-- Of six answers, one for each comparison, those to the strict ones exclude one another, and those
to the others follow from them. -/
structure Exclusive (answers : Comparison → Bool) : Prop where
  eq_of_strict : ∀ op ∈ [Comparison.lt, .eq, .gt], ∀ op' ∈ [Comparison.lt, .eq, .gt],
    answers op = true → answers op' = true → op = op'
  le_eq : answers .le = (answers .lt || answers .eq)
  ge_eq : answers .ge = (answers .gt || answers .eq)

/-- Answers that are no to all comparisons but inequality are such answers. -/
theorem Exclusive.of_false {answers : Comparison → Bool}
    (h : ∀ op, op ≠ .ne → answers op = false) : Exclusive answers where
  eq_of_strict op hop _ _ hyes _ := by
    have hne : op ≠ .ne := by
      rintro rfl
      simp at hop
    rw [h op hne] at hyes
    cases hyes
  le_eq := by simp [h]
  ge_eq := by simp [h]

end Comparison

namespace Scalar

variable {l r s : Scalar}

/-- Two scalars that have an order: strings, and numbers where both are numbers. -/
inductive Ordered : Scalar → Scalar → Prop
  | strings (a b : String) : Ordered (.string a) (.string b)
  | numbers {a b : Number} (ha : a.isNaN = false) (hb : b.isNaN = false) :
    Ordered (.number a) (.number b)

/-- The order of two scalars, where they have one. -/
def order? : Scalar → Scalar → Option Ordering
  | .number a, .number b => a.compare? b
  | .string a, .string b => some (compare a b)
  | _, _ => none

/-- Scalars that have an order are in one. -/
theorem Ordered.exists_order? (h : Ordered l r) : ∃ o, l.order? r = some o := by
  cases h with
  | strings a b => exact ⟨_, rfl⟩
  | numbers ha hb => exact ⟨_, by rw [order?, Number.compare?_eq, ha, hb]; rfl⟩

/-- Scalars that are in an order have one. -/
theorem ordered_of_order? {o : Ordering} (h : l.order? r = some o) : Ordered l r := by
  cases l <;> cases r <;> try cases h
  case number.number a b =>
    rw [order?, Number.compare?_eq] at h
    cases ha : a.isNaN <;> cases hb : b.isNaN <;> rw [ha, hb] at h <;> try cases h
    exact .numbers ha hb
  case string.string a b => exact .strings a b

/-- A comparison asks for the order where there is one, and for equality elsewhere. -/
theorem compares_eq (l r : Scalar) (op : Comparison) : l.compares op r =
    match l.order? r with
    | some o => op.holdsOf o
    | none => op.holdsOfUnordered (l.equal r) := by
  cases l <;> cases r <;> try rfl
  case number.number a b =>
    rw [order?, compares, equal, Number.equal]
    cases a.compare? b <;> rfl

/-- Scalars in an order are equal if the order says so. -/
theorem equal_of_order? {o : Ordering} (h : l.order? r = some o) : l.equal r = (o == .eq) := by
  cases l <;> cases r <;> try cases h
  case number.number a b =>
    rw [order?] at h
    rw [equal, Number.equal, h]
    rfl
  case string.string a b =>
    rw [equal, Bool.eq_iff_iff, beq_iff_eq, beq_iff_eq, Std.compare_eq_iff_eq]

/-- The order turns around with the sides. -/
theorem order?_swap (l r : Scalar) : r.order? l = (l.order? r).map Ordering.swap := by
  cases l <;> cases r <;> try rfl
  case number.number a b =>
    rw [order?, order?, Number.compare?_eq, Number.compare?_eq, Bool.or_comm]
    split
    · rfl
    · rw [Option.map_some, Int.compare_swap]
  case string.string a b =>
    rw [order?, order?, Option.map_some, ← Std.OrientedCmp.eq_swap]

/-- Nothing is before itself. -/
theorem order?_self_ne_lt (s : Scalar) : s.order? s ≠ some .lt := by
  intro h
  have hswap := order?_swap s s
  rw [h] at hswap
  cases hswap

/-- What is before something is before all that comes after it: integers and doubles in any
succession, since both are ordered by value. -/
theorem order?_trans {a b c : Scalar} (hab : a.order? b = some .lt) (hbc : b.order? c = some .lt) :
    a.order? c = some .lt := by
  cases ordered_of_order? hab with
  | strings a b =>
      cases ordered_of_order? hbc with
      | strings _ c =>
          rw [order?, Option.some.injEq] at hab hbc ⊢
          exact Std.TransCmp.lt_trans hab hbc
  | @numbers a b ha hb =>
      cases ordered_of_order? hbc with
      | @numbers _ c _ hc =>
          simp only [order?, Number.compare?_eq, ha, hb, hc, Bool.or_self, Bool.false_eq_true,
            if_false, Option.some.injEq, Int.compare_eq_lt] at hab hbc ⊢
          exact Int.lt_trans hab hbc

/-- One scalar is before another exactly if the order says so. -/
theorem compares_lt_iff : l.compares .lt r = true ↔ l.order? r = some .lt := by
  rw [compares_eq]
  cases l.order? r with
  | none => simp [Comparison.holdsOfUnordered]
  | some o => cases o <;> simp [Comparison.holdsOf]

/-- Equality does not depend on the side. -/
theorem equal_comm (l r : Scalar) : r.equal l = l.equal r := by
  cases l <;> cases r <;> try rfl
  case bool.bool a b => exact Bool.beq_comm
  case number.number a b =>
    rw [equal, equal, Bool.eq_iff_iff, Number.equal_iff, Number.equal_iff]
    exact and_congr and_comm eq_comm
  case string.string a b => exact Bool.beq_comm

/-- A comparison is the converse one from the other side. -/
theorem compares_converse (l r : Scalar) (op : Comparison) :
    r.compares op.converse l = l.compares op r := by
  rw [compares_eq, compares_eq, order?_swap l r]
  cases l.order? r with
  | none =>
      rw [equal_comm l r]
      exact op.holdsOfUnordered_converse _
  | some o => exact op.holdsOf_converse o

/-- Equality as a comparison is that of scalars, and inequality denies it. -/
theorem compares_equality (l r : Scalar) :
    l.compares .eq r = l.equal r ∧ l.compares .ne r = !l.equal r := by
  rw [compares_eq, compares_eq]
  cases h : l.order? r with
  | none => exact ⟨rfl, rfl⟩
  | some o =>
      rw [equal_of_order? h]
      exact ⟨rfl, rfl⟩

/-- Where there is an order exactly one of the strict comparisons holds, and the others hold if one
of two of these does. -/
theorem compares_of_ordered (h : Ordered l r) :
    (∃! op : Comparison, op ∈ [.lt, .eq, .gt] ∧ l.compares op r = true) ∧
      l.compares .le r = (l.compares .lt r || l.compares .eq r) ∧
      l.compares .ge r = (l.compares .gt r || l.compares .eq r) := by
  obtain ⟨o, ho⟩ := h.exists_order?
  simp only [compares_eq, ho]
  refine ⟨Comparison.existsUnique_holdsOf o, ?_, ?_⟩ <;> cases o <;> rfl

/-- Where there is none no comparison but equality and inequality holds. -/
theorem compares_of_not_ordered (h : ¬Ordered l r) :
    ∀ op : Comparison, op ∈ [.lt, .le, .gt, .ge] → l.compares op r = false := by
  have hnone : l.order? r = none := by
    cases ho : l.order? r with
    | none => rfl
    | some o => exact absurd (ordered_of_order? ho) h
  simp [compares_eq, hnone, Comparison.holdsOfUnordered]

/-- A scalar that has an order with its likes: a string, or a number that is one. -/
inductive Orderable : Scalar → Prop
  | string (s : String) : Orderable (.string s)
  | number {n : Number} (h : n.isNaN = false) : Orderable (.number n)

/-- A scalar that has an order with its likes is equal to these only. -/
theorem equal_eq_false_of_not_ordered (hr : r.Orderable) (h : ¬Ordered l r) :
    l.equal r = false := by
  cases hequal : l.equal r with
  | false => rfl
  | true =>
      exfalso
      apply h
      cases hr with
      | string s =>
          cases l <;> try cases hequal
          exact .strings _ s
      | number hn =>
          cases l <;> try cases hequal
          exact .numbers (Number.equal_iff.1 hequal).1.1 hn

/-- With a scalar that has an order with its likes at most one of the three strict comparisons
holds, whatever is compared with it, and the others hold if one of two of these does. -/
theorem exclusive_of_orderable (hr : r.Orderable) (l : Scalar) :
    Comparison.Exclusive fun op => l.compares op r := by
  by_cases h : Ordered l r
  · obtain ⟨hunique, hle, hge⟩ := compares_of_ordered h
    refine ⟨?_, hle, hge⟩
    intro op hop op' hop' hholds hholds'
    exact hunique.unique ⟨hop, hholds⟩ ⟨hop', hholds'⟩
  · refine .of_false fun op hop => ?_
    cases op with
    | eq => rw [(compares_equality l r).1, equal_eq_false_of_not_ordered hr h]
    | ne => exact absurd rfl hop
    | lt | le | gt | ge => exact compares_of_not_ordered h _ (by simp)

/-- The comparisons of scalars are coherent: equality and inequality are those of scalars, each
comparison is its converse from the other side, nothing is before itself, what is before something
is before all that comes after it, and exactly strings and numbers are ordered, each by one
order. -/
theorem compares_coherent :
    (∀ l r : Scalar,
      l.compares .eq r = l.equal r ∧ l.compares .ne r = !l.compares .eq r ∧
        l.compares .lt r = r.compares .gt l ∧ l.compares .le r = r.compares .ge l ∧
        (Ordered l r →
          (∃! op : Comparison, op ∈ [.lt, .eq, .gt] ∧ l.compares op r = true) ∧
            l.compares .le r = (l.compares .lt r || l.compares .eq r) ∧
            l.compares .ge r = (l.compares .gt r || l.compares .eq r)) ∧
        (¬Ordered l r →
          ∀ op : Comparison, op ∈ [.lt, .le, .gt, .ge] → l.compares op r = false)) ∧
      (∀ s : Scalar, s.compares .lt s = false) ∧
      ∀ a b c : Scalar, a.compares .lt b = true → b.compares .lt c = true →
        a.compares .lt c = true := by
  refine ⟨fun l r => ?_, fun s => ?_, fun a b c hab hbc => ?_⟩
  · obtain ⟨heq, hne⟩ := compares_equality l r
    refine ⟨heq, ?_, ?_, ?_, compares_of_ordered, compares_of_not_ordered⟩
    · rw [hne, heq]
    · exact (compares_converse l r .lt).symm
    · exact (compares_converse l r .le).symm
  · rw [Bool.eq_false_iff, Ne, compares_lt_iff]
    exact order?_self_ne_lt s
  · rw [compares_lt_iff] at hab hbc ⊢
    exact order?_trans hab hbc

/-- Integers and doubles in turn, beyond the integers that a double can tell apart: the integers on
both sides of the double 2 ^ 53 + 2 round to it or next to it. -/
theorem compares_coherent_integers :
    (Scalar.number (.int 9007199254740993)).compares .lt
        (.number (.float ⟨0x4340000000000001⟩)) = true ∧
      (Scalar.number (.float ⟨0x4340000000000001⟩)).compares .lt
        (.number (.int 9007199254740995)) = true ∧
      (Scalar.number (.int 9007199254740993)).compares .lt
        (.number (.int 9007199254740995)) = true := by
  have hfirst : (Scalar.number (.int 9007199254740993)).compares .lt
      (.number (.float ⟨0x4340000000000001⟩)) = true := by decide +kernel
  have hsecond : (Scalar.number (.float ⟨0x4340000000000001⟩)).compares .lt
      (.number (.int 9007199254740995)) = true := by decide +kernel
  exact ⟨hfirst, hsecond, compares_coherent.2.2 _ _ _ hfirst hsecond⟩

end Scalar

end PathQuery
