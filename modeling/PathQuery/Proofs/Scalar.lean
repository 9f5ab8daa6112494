import PathQuery.Proofs.Binary64.Shortest
import PathQuery.Proofs.Number
import PathQuery.Scalar

/-!
# Equal scalars are interchangeable

Numbers are equal if they have one value (`Number.equal_iff`), and nothing but its value decides
whether a number counts as something and how it compares. So equal scalars count alike
(`Scalar.isTruthy_of_equal`) and compare alike with every other scalar (`Scalar.compares_of_equal`).
-/

namespace PathQuery

/-- The zeros are the doubles without units. -/
theorem Binary64.isZero_iff (x : Binary64) : x.isZero = true ↔ x.units = 0 := by
  have hpos : x.magnitude = 0 ↔ unitsOfMagnitude x.magnitude = 0 := by
    constructor
    · intro h
      rw [h]
      rfl
    · intro h
      exact Nat.eq_zero_of_not_pos fun hm => Nat.ne_of_gt (unitsOfMagnitude_pos hm) h
  rw [isZero, beq_iff_eq, hpos, units]
  split <;> omega

namespace Number

/-- Two numbers are equal if both are numbers, of one value. -/
theorem equal_iff {a b : Number} :
    a.equal b = true ↔ (a.isNaN = false ∧ b.isNaN = false) ∧ a.value = b.value := by
  rw [equal, compare?_eq, beq_iff_eq]
  cases a.isNaN <;> cases b.isNaN <;> simp

/-- A number is zero by its value; what is not a number counts as zero. -/
theorem isZero_iff (n : Number) : n.isZero = true ↔ n.isNaN = true ∨ n.value = 0 := by
  cases n with
  | int i =>
      have hone : (Binary64.one : Int) ≠ 0 := Int.ne_of_gt zero_lt_one
      rw [isZero, value, beq_iff_eq, ← Int64.toInt_inj, Int64.toInt_zero]
      constructor
      · intro h
        exact .inr (by rw [h, Int.zero_mul])
      · rintro (h | h)
        · cases h
        · exact (Int.mul_eq_zero.1 h).resolve_right hone
  | float x =>
      rw [isZero, isNaN, value, Bool.or_eq_true, x.isZero_iff, or_comm]

end Number

namespace Scalar

variable {s t : Scalar}

/-- Equal scalars count alike. -/
theorem isTruthy_of_equal (h : s.equal t = true) : s.isTruthy = t.isTruthy := by
  cases s <;> cases t <;> try cases h
  case null.null => rfl
  case bool.bool b c => exact beq_iff_eq.1 h
  case number.number a b =>
    obtain ⟨⟨ha, hb⟩, hvalue⟩ := Number.equal_iff.1 h
    have hzero : a.isZero = b.isZero := by
      rw [Bool.eq_iff_iff, a.isZero_iff, b.isZero_iff, ha, hb, hvalue]
    rw [isTruthy, isTruthy, hzero]
  case string.string a b =>
    rw [beq_iff_eq.1 h]

/-- Equal scalars compare alike with every scalar. -/
theorem compares_of_equal (h : s.equal t = true) (op : Comparison) (literal : Scalar) :
    s.compares op literal = t.compares op literal := by
  cases s <;> cases t <;> try cases h
  case null.null => rfl
  case bool.bool b c => rw [beq_iff_eq.1 h]
  case number.number a b =>
    obtain ⟨⟨ha, hb⟩, hvalue⟩ := Number.equal_iff.1 h
    cases literal with
    | number n =>
        have hcompare : a.compare? n = b.compare? n := by
          rw [Number.compare?_eq, Number.compare?_eq, ha, hb, hvalue]
        simp only [compares, hcompare]
    | null | bool | string => rfl
  case string.string a b => rw [beq_iff_eq.1 h]

end Scalar

end PathQuery
