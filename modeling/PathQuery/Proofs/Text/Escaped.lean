import PathQuery.Proofs.Text.Quoted
import PathQuery.Text.Escaped

/-!
# Which written characters read back

Text in double quotes is written with two escapes that the reader does not know: the one of the null
character, and the number of a character in braces. A text in which no character is written with
either is read back (`body_escapeChar`), and any other text is not read at all
(`read_flatMap_escapeChar`).
-/

namespace PathQuery.Text

open Quoted

/-- A character that is not written by number and is not the null character. -/
def isReadable (c : Char) : Bool :=
  c != '\x00' && (['"', '\\', '\n', '\r', '\t'].contains c || !(isCombining c || isHidden c))

/-- A readable character is written as an item that denotes it. -/
theorem item_escapeChar {c : Char} (h : isReadable c = true) : Item '"' (escapeChar c) c := by
  unfold escapeChar
  split
  · exact .escaped rfl
  · exact .escaped rfl
  · exact .escaped rfl
  · exact .escaped rfl
  · exact .escaped rfl
  · cases h
  · rename_i hquote hslash hn hr ht h0
    split
    · rename_i hhidden
      have hletter : c ∉ ['"', '\\', '\n', '\r', '\t'] := by
        simp only [List.mem_cons, List.not_mem_nil, or_false]
        rintro (h | h | h | h | h)
        · exact hquote h
        · exact hslash h
        · exact hn h
        · exact hr h
        · exact ht h
      simp only [isReadable, hhidden, Bool.not_true, Bool.or_false, Bool.and_eq_true,
        List.contains_iff_mem] at h
      exact absurd h.2 hletter
    · exact .plain hquote hslash

/-- What is written for any other character makes the text unreadable. -/
theorem read_escapeChar {c : Char} (h : isReadable c = false) (rest : List Char) :
    Quoted.read '"' (escapeChar c ++ rest) = .error .invalidEscape := by
  unfold escapeChar
  split
  · cases h
  · cases h
  · cases h
  · cases h
  · cases h
  · exact read_slash_error (by decide) rfl
  · rename_i hquote hslash hn hr ht h0
    split
    · -- The brace behind the letter is no digit.
      rename_i hhidden
      refine read_slash_error (by decide) ?_
      show readEscape ('u' :: '\x7b' :: (Nat.toDigits 16 c.toNat ++ ['\x7d'] ++ rest)) = _
      unfold readEscape
      dsimp only
      rw [if_pos rfl]
      split
      · rename_i he
        obtain ⟨rfl, -⟩ := List.cons.inj he
        rfl
      · rfl
    · rename_i hshown
      have hnull : c ≠ '\x00' := h0
      simp [isReadable, hshown, hnull] at h

/-- A text with a character that is not readable is not read back. -/
theorem read_flatMap_escapeChar {text : List Char} (h : ∃ c ∈ text, isReadable c = false)
    (rest : List Char) :
    Quoted.read '"' (text.flatMap escapeChar ++ rest) = .error .invalidEscape := by
  induction text with
  | nil => simp at h
  | cons c text ih =>
      rw [List.flatMap_cons, List.append_assoc]
      cases hc : isReadable c with
      | false => exact read_escapeChar hc _
      | true =>
          obtain ⟨d, hd, hunreadable⟩ := h
          have hmem : d ∈ text := by
            rcases List.mem_cons.1 hd with rfl | hd
            · rw [hc] at hunreadable
              cases hunreadable
            · exact hd
          rw [read_item (by decide) (item_escapeChar hc), ih ⟨d, hmem, hunreadable⟩]
          rfl

/-- A written text of readable characters is a quoted text that denotes it. -/
theorem body_escapeChar {text : List Char} (h : ∀ c ∈ text, isReadable c = true) :
    Body '"' (text.flatMap escapeChar) text :=
  .flatMap fun c hc => item_escapeChar (h c hc)

end PathQuery.Text
