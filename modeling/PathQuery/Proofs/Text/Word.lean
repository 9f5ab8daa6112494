import PathQuery.Text.Ranges

/-!
# Words at the front of a text

A word is what `takeWhile` takes of a text and `dropWhile` leaves out. Both are told by the
characters of the word and the one behind it.
-/

namespace PathQuery.Text

/-- If no character of one class is in another, then none of the other is in the one. -/
theorem class_apart {p q : Char → Bool} (c : Char) (h : ∀ c, p c = true → q c = false)
    (hc : q c = true) : p c = false := by
  refine Bool.eq_false_iff.2 fun hp => ?_
  rw [h c hp] at hc
  cases hc

/-- What is decided of each character of a text holds of all of them. -/
theorem forall_mem_of_all {text : List Char} {p : Char → Prop} [DecidablePred p]
    (h : text.all (fun c => decide (p c)) = true) : ∀ c ∈ text, p c :=
  fun c hc => of_decide_eq_true (List.all_eq_true.1 h c hc)

variable {p : Char → Bool} {word rest : List Char}

/-- A word is taken up to where it ends. -/
theorem takeWhile_word (hword : ∀ c ∈ word, p c = true)
    (hrest : ∀ c, rest.head? = some c → p c = false) : (word ++ rest).takeWhile p = word := by
  rw [List.takeWhile_append_of_pos hword]
  cases rest with
  | nil => simp
  | cons c rest => simp [hrest c rfl]

/-- What is left behind a word begins where the word ends. -/
theorem dropWhile_word (hword : ∀ c ∈ word, p c = true)
    (hrest : ∀ c, rest.head? = some c → p c = false) : (word ++ rest).dropWhile p = rest := by
  rw [List.dropWhile_append_of_pos hword]
  cases rest with
  | nil => rfl
  | cons c rest => exact List.dropWhile_cons_of_neg (by simp [hrest c rfl])

/-- Two ways to take a word off the front of a text are one. -/
theorem word_append_inj {word' rest' : List Char} (hword : ∀ c ∈ word, p c = true)
    (hrest : ∀ c, rest.head? = some c → p c = false) (hword' : ∀ c ∈ word', p c = true)
    (hrest' : ∀ c, rest'.head? = some c → p c = false) (h : word ++ rest = word' ++ rest') :
    word = word' ∧ rest = rest' := by
  have htake := takeWhile_word hword hrest
  have hdrop := dropWhile_word hword hrest
  rw [h, takeWhile_word hword' hrest'] at htake
  rw [h, dropWhile_word hword' hrest'] at hdrop
  exact ⟨htake.symm, hdrop.symm⟩

/-- The code points in ranges. -/
def Ranges.points (ranges : Ranges) : List Nat :=
  ranges.flatMap fun r => List.range' r.1 (r.2 + 1 - r.1)

/-- A code point that ranges cover is one of those in them. -/
theorem Ranges.mem_points {ranges : Ranges} {n : Nat} (h : ranges.covers n = true) :
    n ∈ ranges.points := by
  induction ranges with
  | nil => cases h
  | cons range rest ih =>
      rw [points, List.flatMap_cons]
      rw [covers, Bool.and_eq_true, Bool.or_eq_true, decide_eq_true_eq, decide_eq_true_eq] at h
      rcases h.2 with hlast | hrest
      · refine List.mem_append_left _ (List.mem_range'_1.2 ⟨h.1, ?_⟩)
        omega
      · exact List.mem_append_right _ (ih hrest)

end PathQuery.Text
