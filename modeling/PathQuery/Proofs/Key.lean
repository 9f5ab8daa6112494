import PathQuery.Key
import PathQuery.Proofs.Text.Quoted

/-!
# Names between quotes

In the text of a name only the quote is escaped. A name without backslashes is read back from such a
text, character by character (`item_escapeQuote`). In any other the backslash escapes what is behind
it, and `ne_of_body_escapeQuote` says that the text then never reads as that name: either the
backslash is gone from the value, or it takes the closing quote along.
-/

namespace PathQuery.Key

open Text Text.Quoted

/-- A character that is no backslash is written as an item that denotes it. -/
theorem item_escapeQuote {c : Char} (h : c ≠ '\\') : Item '\'' (escapeQuote c) c := by
  unfold escapeQuote
  split
  · rename_i hc
    subst hc
    exact .escaped rfl
  · rename_i hc
    exact .plain hc h

/-- A text without quotes and backslashes that begins the text of a name begins the name. -/
theorem exists_of_escapeQuote {escape name rest more : List Char}
    (h : name.flatMap escapeQuote ++ '\'' :: rest = escape ++ more)
    (hescape : ∀ c ∈ escape, c ≠ '\'' ∧ c ≠ '\\') :
    ∃ left, name = escape ++ left ∧ more = left.flatMap escapeQuote ++ '\'' :: rest := by
  induction escape generalizing name with
  | nil => exact ⟨name, rfl, h.symm⟩
  | cons e escape ih =>
      obtain ⟨⟨hquote, hslash⟩, hmore⟩ := List.forall_mem_cons.1 hescape
      cases name with
      | nil => exact absurd (List.cons.inj h).1.symm hquote
      | cons c name =>
          rw [List.flatMap_cons, escapeQuote] at h
          split at h
          · exact absurd (List.cons.inj h).1.symm hslash
          · obtain ⟨rfl, hrest⟩ := List.cons.inj h
            obtain ⟨left, rfl, hleft⟩ := ih hrest hmore
            exact ⟨left, rfl, hleft⟩

/-- A backslash before the text of a name takes the closing quote of an empty name, or the backslash
before a quote so that the quote closes the text, or else a part of the name. -/
theorem readEscape_escapeQuote {name rest after : List Char} {x : Char}
    (h : readEscape (name.flatMap escapeQuote ++ '\'' :: rest) = .ok (x, after)) :
    name = [] ∧ x = '\'' ∨ (∃ more left, name = '\'' :: more ∧ after = '\'' :: left) ∨
      ∃ taken left, name = taken ++ left ∧ taken ≠ [] ∧ '\'' ∉ taken ∧
        after = left.flatMap escapeQuote ++ '\'' :: rest := by
  obtain ⟨escape, htext, hitem⟩ := item_of_readEscape '\'' h
  cases hitem with
  | plain _ hslash => exact absurd rfl hslash
  | escaped he =>
      cases name with
      | nil =>
          obtain ⟨rfl, -⟩ := List.cons.inj htext
          cases he
          exact .inl ⟨rfl, rfl⟩
      | cons d name =>
          rw [List.flatMap_cons, escapeQuote] at htext
          split at htext
          · rename_i hd
            subst hd
            obtain ⟨rfl, rfl⟩ := List.cons.inj htext
            exact .inr (.inl ⟨name, _, rfl, rfl⟩)
          · rename_i hd
            obtain ⟨rfl, rfl⟩ := List.cons.inj htext
            exact .inr (.inr ⟨[d], name, rfl, by simp, by simpa using Ne.symm hd, rfl⟩)
  | @numbered a₁ a₂ a₃ a₄ _ hscalar =>
      have hplain : ∀ e ∈ ['u', a₁, a₂, a₃, a₄], e ≠ '\'' ∧ e ≠ '\\' := by
        refine List.forall_mem_cons.2 ⟨by decide, fun e he => ?_⟩
        have hno := not_isQuote_of_scalar? hscalar e he
        refine ⟨?_, fun h => hno (.inr h)⟩
        rintro rfl
        exact hno (.inl rfl)
      obtain ⟨left, rfl, rfl⟩ := exists_of_escapeQuote htext hplain
      exact .inr (.inr ⟨_, left, rfl, by simp, fun hmem => (hplain _ hmem).1 rfl, rfl⟩)

/-- Behind a backslash the text of a name does not read as a value that ends in the backslash and
the name, if no shorter name is read as the end of more than itself. -/
theorem read_slash_ne {name before rest more : List Char} (hbefore : '\'' ∉ before)
    (ih : ∀ left front : List Char, left.length ≤ name.length → '\'' ∉ front →
      Quoted.read '\'' (left.flatMap escapeQuote ++ '\'' :: rest) = .ok (front ++ left, more) →
        front = []) :
    Quoted.read '\'' ('\\' :: (name.flatMap escapeQuote ++ '\'' :: rest)) ≠
      .ok (before ++ '\\' :: name, more) := by
  intro h
  cases hread : readEscape (name.flatMap escapeQuote ++ '\'' :: rest) with
  | error f =>
      rw [read_slash_error (by decide) hread] at h
      cases h
  | ok r =>
      obtain ⟨x, after⟩ := r
      rw [read_slash (by decide) hread] at h
      obtain ⟨value, hvalue, hr⟩ := keep_eq_ok h
      rcases readEscape_escapeQuote hread with ⟨rfl, rfl⟩ | ⟨more, left, rfl, rfl⟩ |
        ⟨taken, left, rfl, hne, hquote, rfl⟩
      · have hmem : '\'' ∈ before ++ ['\\'] := hvalue ▸ List.mem_cons_self
        simp [hbefore] at hmem
      · rw [Quoted.read, if_pos rfl] at hr
        cases hr
        have hlength := congrArg List.length hvalue
        simp only [List.length_append, List.length_cons, List.length_nil] at hlength
        omega
      · -- What is taken from the front of the name goes over to the text before it.
        have hsplit : value = (before ++ '\\' :: taken).tail ++ left := by
          rw [← List.tail_append_of_ne_nil (by simp), List.append_assoc, List.cons_append,
            hvalue, List.tail_cons]
        have hnone : '\'' ∉ (before ++ '\\' :: taken).tail := fun hmem => by
          simpa [hbefore, hquote] using List.mem_of_mem_tail hmem
        rw [hsplit] at hr
        have hnil := ih left _ (by simp) hnone hr
        have hlength : (before ++ '\\' :: taken).tail.length = before.length + taken.length := by
          simp
        rw [hnil, List.length_nil] at hlength
        exact hne (List.eq_nil_of_length_eq_zero (by omega))

/-- The text of a name reads as a value that ends in the name only if it reads as the name and there
is no backslash in it. -/
theorem of_read_escapeQuote {name before rest more : List Char}
    (h : Quoted.read '\'' (name.flatMap escapeQuote ++ '\'' :: rest) =
      .ok (before ++ name, more)) (hbefore : '\'' ∉ before) : before = [] ∧ '\\' ∉ name := by
  -- An escape takes more than one character, so that the induction is on the length.
  induction hlength : name.length using Nat.strongRecOn generalizing name before with
  | ind length ih =>
  subst hlength
  cases name with
  | nil =>
      rw [List.flatMap_nil, List.nil_append, Quoted.read, if_pos rfl, List.append_nil] at h
      cases h
      exact ⟨rfl, List.not_mem_nil⟩
  | cons c name =>
      have hshorter : ∀ left front : List Char, left.length ≤ name.length → '\'' ∉ front →
          Quoted.read '\'' (left.flatMap escapeQuote ++ '\'' :: rest) = .ok (front ++ left, more) →
            front = [] ∧ '\\' ∉ left := fun left front hle hfront hread =>
        ih left.length (Nat.lt_succ_of_le hle) hread hfront rfl
      rw [List.flatMap_cons, List.append_assoc] at h
      by_cases hc : c = '\\'
      · subst hc
        exact absurd h (read_slash_ne hbefore fun left front hle hfront hread =>
          (hshorter left front hle hfront hread).1)
      · rw [read_item (by decide) (item_escapeQuote hc)] at h
        obtain ⟨value, hvalue, hr⟩ := keep_eq_ok h
        cases before with
        | nil =>
            obtain ⟨-, rfl⟩ := List.cons.inj hvalue
            obtain ⟨-, hname⟩ := hshorter name [] (Nat.le_refl _) List.not_mem_nil hr
            exact ⟨rfl, List.not_mem_cons_of_ne_of_not_mem (Ne.symm hc) hname⟩
        | cons b before =>
            obtain ⟨rfl, rfl⟩ := List.cons.inj hvalue
            have hnone : '\'' ∉ before ++ [b] := by
              simpa [and_comm] using hbefore
            have hr' : Quoted.read '\'' (name.flatMap escapeQuote ++ '\'' :: rest) =
                .ok (before ++ [b] ++ name, more) := by simpa using hr
            exact absurd (hshorter name _ (Nat.le_refl _) hnone hr').1 (by simp)

/-- The text of a name with a backslash in it is not read as that name. -/
theorem ne_of_body_escapeQuote {name body value rest more : List Char} (hname : '\\' ∈ name)
    (hbody : Body '\'' body value)
    (h : name.flatMap escapeQuote ++ '\'' :: rest = body ++ '\'' :: more) : value ≠ name := by
  rintro rfl
  have hread := read_body (by decide) hbody more
  rw [← h, ← List.nil_append value] at hread
  exact (of_read_escapeQuote hread List.not_mem_nil).2 hname

end PathQuery.Key
