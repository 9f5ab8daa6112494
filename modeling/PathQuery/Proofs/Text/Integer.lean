import PathQuery.Text.Integer

/-!
# Integers read back

`readInt64?_writeInt64` says that the text of an integer of 64 bits reads as that integer. The text
consists of digits, with at most a minus sign before them (`mem_writeInt64`), so that what must be
known of its characters can be decided one by one.
-/

namespace PathQuery.Text

/-- Every integer of 64 bits fits. -/
theorem int64?_toInt (n : Int64) : int64? n.toInt = some n := by
  have hle : -int64Limit ≤ n.toInt := Int64.le_toInt n
  have hlt : n.toInt < int64Limit := Int64.toInt_lt n
  rw [int64?, if_pos ⟨hle, hlt⟩, Int64.ofInt_toInt]

/-- An integer is kept as the one of 64 bits that has its value, if there is one. -/
theorem int64?_eq_some_iff {n : Int} {i : Int64} : int64? n = some i ↔ i.toInt = n := by
  constructor
  · intro h
    rw [int64?] at h
    split at h
    · rename_i hfits
      cases h
      exact Int64.toInt_ofInt_of_le hfits.1 hfits.2
    · cases h
  · rintro rfl
    exact int64?_toInt i

/-- The digits of a natural number read as that number. -/
theorem readNat?_toDigits (n : Nat) : readNat? (Nat.toDigits 10 n) = some n := by
  have hdigits : (Nat.toDigits 10 n).all Char.isDigit = true :=
    List.all_eq_true.2 fun c hc => Nat.isDigit_of_mem_toDigits (by decide) (by decide) hc
  rw [readNat?, if_pos ⟨Nat.toDigits_ne_nil, hdigits⟩, Nat.ofDigitChars_ten_toDigits]

/-- A text that does not begin with a sign is read as a natural number. -/
theorem readInt64?_of_isDigit {c : Char} (hc : c.isDigit = true) (rest : List Char) :
    readInt64? (c :: rest) = (readNat? (c :: rest)).bind fun n => int64? n := by
  unfold readInt64?
  split
  · rename_i he
    cases he
    cases hc
  · rename_i he
    cases he
    cases hc
  · rfl

/-- The text of an integer of 64 bits reads as that integer. -/
theorem readInt64?_writeInt64 (n : Int64) : readInt64? (writeInt64 n) = some n := by
  rw [writeInt64, writeInt]
  split
  · rename_i hneg
    have habs : -(n.toInt.natAbs : Int) = n.toInt := by omega
    rw [readInt64?, readNat?_toDigits, Option.bind_some, habs, int64?_toInt]
  · rename_i hpos
    have habs : (n.toInt.natAbs : Int) = n.toInt := by omega
    have hread := readNat?_toDigits n.toInt.natAbs
    cases hdigits : Nat.toDigits 10 n.toInt.natAbs with
    | nil => exact absurd hdigits Nat.toDigits_ne_nil
    | cons c rest =>
        have hc : c.isDigit = true := by
          refine Nat.isDigit_of_mem_toDigits (n := n.toInt.natAbs) (b := 10) (by decide)
            (by decide) ?_
          rw [hdigits]
          exact List.mem_cons_self
        rw [hdigits] at hread
        rw [readInt64?_of_isDigit hc, hread, Option.bind_some, habs, int64?_toInt]

/-- The ten digits. -/
def digits : List Char := ['0', '1', '2', '3', '4', '5', '6', '7', '8', '9']

/-- The characters that the text of an integer consists of. -/
def signAndDigits : List Char := '-' :: digits

/-- A digit is one of the ten. -/
theorem mem_digits {c : Char} (h : c.isDigit = true) : c ∈ digits := by
  simp only [Char.isDigit, Bool.and_eq_true, decide_eq_true_eq, ge_iff_le] at h
  have hlow : 48 ≤ c.toNat := h.1
  have hhigh : c.toNat ≤ 57 := h.2
  have hdecide : ∀ k : Fin 10, Char.ofNat (48 + k) ∈ digits := by decide
  have := hdecide ⟨c.toNat - 48, by omega⟩
  rwa [show 48 + (c.toNat - 48) = c.toNat by omega, Char.ofNat_toNat] at this

/-- The text of an integer consists of digits and a minus sign. -/
theorem mem_writeInt64 {n : Int64} {c : Char} (hc : c ∈ writeInt64 n) : c ∈ signAndDigits := by
  have hdigit : ∀ m, c ∈ Nat.toDigits 10 m → c ∈ digits := fun m hm =>
    mem_digits (Nat.isDigit_of_mem_toDigits (by decide) (by decide) hm)
  rw [writeInt64, writeInt] at hc
  split at hc
  · rcases List.mem_cons.1 hc with rfl | hc
    · exact List.mem_cons_self
    · exact List.mem_cons_of_mem _ (hdigit _ hc)
  · exact List.mem_cons_of_mem _ (hdigit _ hc)

/-- The text of an integer is not empty. -/
theorem writeInt64_ne_nil (n : Int64) : writeInt64 n ≠ [] := by
  rw [writeInt64, writeInt]
  split
  · exact List.cons_ne_nil _ _
  · exact Nat.toDigits_ne_nil

end PathQuery.Text
