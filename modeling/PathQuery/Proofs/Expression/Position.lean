import PathQuery.Proofs.Expression.Fault

/-!
# Where faults are placed

A fault between groups is placed at the character that it shows. A fault in a group is placed by
the number of characters before it in the contents, or in the condition of a filter, as if these
stood right behind the opening bracket. So it is placed too far in front by whatever is taken off
before they are read: blanks, and for a filter the question mark and a parenthesis as well.
`readExpression_fault_place` says exactly that.
-/

namespace PathQuery.Expression

open Text

/-! ## Places -/

/-- A fault is placed behind the text that it is met behind. -/
theorem position_met (front rest : List Char) (cause : Cause) :
    (Fault.met cause rest).position (front ++ rest) = front.length := by
  rw [Fault.position, List.length_append, Nat.add_sub_cancel, Nat.add_zero]

/-- A fault that is counted on from the beginning of a text is placed that many characters behind
it. -/
theorem position_at (text : List Char) (cause : Cause) (n : Nat) :
    Fault.position ⟨cause, text, n⟩ text = n := by
  rw [Fault.position, Nat.sub_self, Nat.zero_add]

/-- A fault that is carried over to another text is placed there by what comes before it where it
was met. -/
theorem position_carry (front outer inner : List Char) (g : Fault) :
    (g.carry inner outer).position (front ++ outer) = front.length + g.position inner := by
  rw [Fault.position, Fault.carry, List.length_append, Nat.add_sub_cancel]

/-- A fault in the contents of a group is placed behind the opening bracket. -/
theorem position_carry_bracket (front outer contents : List Char) (g : Fault) :
    (g.carry contents outer).position (front ++ '[' :: outer) =
      front.length + 1 + g.position contents := by
  have hplace := position_carry (front ++ ['[']) outer contents g
  rwa [List.append_assoc, List.singleton_append, List.length_append, List.length_singleton]
    at hplace

/-- A filter in an expression: what comes before its bracket, the blanks behind the bracket and
behind the question mark, the parenthesis that opens if there is one, and the condition. -/
structure FilterPlace where
  front : List Char
  before : List Char
  gap : List Char
  opening : List Char
  condition : List Char
  after : List Char

namespace FilterPlace

/-- The whole expression. -/
def text (p : FilterPlace) : List Char :=
  p.front ++ '[' :: (p.before ++ '?' :: (p.gap ++ (p.opening ++ (p.condition ++ p.after))))

/-- There are blanks where there have to be, and no more than one parenthesis. -/
structure WellFormed (p : FilterPlace) : Prop where
  before : Blank p.before
  gap : Blank p.gap
  opening : p.opening = [] ∨ p.opening = ['(']

/-- The number of characters between the bracket and the condition. -/
def shift (p : FilterPlace) : Nat := p.before.length + 1 + p.gap.length + p.opening.length

/-- The condition cannot be read, and the fault in it is placed as if it stood right behind the
bracket. -/
def Faulty (p : FilterPlace) (f : Fault) : Prop :=
  ∃ g, readCondition p.condition = .error g ∧ g.cause = f.cause ∧
    f.position p.text = p.front.length + 1 + g.position p.condition

/-- The character in front of which a fault was met in the condition stands in the expression as
many characters behind the place of the fault as there are between the bracket and the condition. -/
theorem getElem?_text {p : FilterPlace} {before : List Char} {c : Char} {rest : List Char}
    (h : p.condition = before ++ c :: rest) :
    p.text[p.front.length + 1 + before.length + p.shift]? = some c := by
  have htext : p.text =
      (p.front ++ '[' :: (p.before ++ '?' :: (p.gap ++ (p.opening ++ before)))) ++
        c :: (rest ++ p.after) := by
    rw [text, h]
    simp
  have hlength : p.front.length + 1 + before.length + p.shift =
      (p.front ++ '[' :: (p.before ++ '?' :: (p.gap ++ (p.opening ++ before)))).length := by
    simp only [shift, List.length_append, List.length_cons]
    omega
  rw [htext, hlength, List.getElem?_append_right (Nat.le_refl _), Nat.sub_self,
    List.getElem?_cons_zero]

end FilterPlace

/-- A piece of a slice or a list in an expression: what comes before the bracket, the blanks behind
it, the contents without blanks at their ends, and in these the piece with blanks around what was
found there. -/
structure PiecePlace where
  front : List Char
  before : List Char
  contents : List Char
  after : List Char
  separator : Char
  piece : Piece
  lead : List Char
  found : List Char
  trail : List Char

namespace PiecePlace

/-- The whole expression. -/
def text (p : PiecePlace) : List Char := p.front ++ '[' :: (p.before ++ (p.contents ++ p.after))

/-- The piece is one of the contents, and what was found in it is all of it but for the blanks at
its ends. -/
structure WellFormed (p : PiecePlace) : Prop where
  before : Blank p.before
  contents : Tidy p.contents
  separator : p.separator = ':' ∨ p.separator = ','
  piece : p.piece ∈ pieces p.separator p.contents
  lead : Blank p.lead
  found : p.found ≠ [] ∧ Tidy p.found
  trail : Blank p.trail
  text_eq : p.piece.text = p.lead ++ (p.found ++ p.trail)

/-- The number of blanks between the bracket and the contents and in front of what was found. -/
def shift (p : PiecePlace) : Nat := p.before.length + p.lead.length

/-- What was found stands in the expression behind the blanks. -/
theorem found_prefix {p : PiecePlace} (h : p.WellFormed) :
    p.found <+: p.text.drop (p.front.length + 1 + p.piece.start + p.shift) := by
  obtain ⟨before, after, hcontents, hstart⟩ := exists_of_mem_pieces h.piece
  have htext : p.text = (p.front ++ '[' :: (p.before ++ (before ++ p.lead))) ++
      (p.found ++ (p.trail ++ (after ++ p.after))) := by
    rw [text, hcontents, h.text_eq]
    simp
  have hlength : p.front.length + 1 + p.piece.start + p.shift =
      (p.front ++ '[' :: (p.before ++ (before ++ p.lead))).length := by
    simp only [shift, hstart, List.length_append, List.length_cons]
    omega
  rw [htext, hlength, List.drop_left]
  exact List.prefix_append _ _

end PiecePlace

/-- A fault in the condition of a filter is placed as if the condition stood right behind the
bracket. -/
theorem exists_filterPlace (front after : List Char) {inner rest condition : List Char} {g : Fault}
    (hcontents : trim inner = '?' :: rest)
    (hcondition : unwrap? (trim rest) = some condition ∨ condition = trim rest)
    (hread : readCondition condition = .error g) :
    ∃ p : FilterPlace, p.WellFormed ∧ p.condition = condition ∧
      p.text = front ++ '[' :: (inner ++ ']' :: after) ∧
      ((g.carry condition (trim inner)).carry (trim inner) (inner ++ ']' :: after)).position
        p.text = p.front.length + 1 + g.position condition := by
  obtain ⟨opening, closed, hopening, hparts⟩ : ∃ opening closed,
      (opening = [] ∨ opening = ['(']) ∧ trim rest = opening ++ (condition ++ closed) := by
    rcases hcondition with hunwrap | rfl
    · exact ⟨['('], [')'], .inr rfl, eq_of_unwrap? hunwrap⟩
    · exact ⟨[], [], .inl rfl, by rw [List.append_nil, List.nil_append]⟩
  obtain ⟨before, behind, hbefore, -, hinner, -⟩ := exists_trim inner
  obtain ⟨gap, left, hgap, -, hrest, -⟩ := exists_trim rest
  generalize trim inner = contents at hcontents hinner ⊢
  rw [hparts] at hrest
  have htext : FilterPlace.text ⟨front, before, gap, opening, condition,
      closed ++ (left ++ (behind ++ ']' :: after))⟩ = front ++ '[' :: (inner ++ ']' :: after) := by
    rw [hinner, hcontents, hrest]
    simp only [FilterPlace.text, List.append_assoc, List.cons_append]
  have hcarry : (g.carry condition contents).position contents = g.position condition :=
    position_at contents g.cause _
  refine ⟨_, ⟨hbefore, hgap, hopening⟩, rfl, htext, ?_⟩
  rw [htext, position_carry_bracket, hcarry]

/-- A piece that is no integer is placed where it begins in the contents, as if these stood right
behind the bracket. -/
theorem exists_piecePlace (front after : List Char) {inner : List Char} {separator : Char}
    {piece : Piece} (hseparator : separator = ':' ∨ separator = ',')
    (hpiece : piece ∈ pieces separator (trim inner)) (hne : trim piece.text ≠ []) (cause : Cause) :
    ∃ p : PiecePlace, p.WellFormed ∧ p.found = trim piece.text ∧
      p.text = front ++ '[' :: (inner ++ ']' :: after) ∧
      ((pieceFault (trim inner) piece cause).carry (trim inner) (inner ++ ']' :: after)).position
        p.text = p.front.length + 1 + p.piece.start := by
  obtain ⟨before, behind, hbefore, -, hinner, hcontents⟩ := exists_trim inner
  obtain ⟨lead, trail, hlead, htrail, hpieceText, hfound⟩ := exists_trim piece.text
  generalize trim inner = contents at hpiece hinner hcontents ⊢
  have hposition : (pieceFault contents piece cause).position contents = piece.start :=
    position_at contents cause piece.start
  have htext : PiecePlace.text ⟨front, before, contents, behind ++ ']' :: after, separator, piece,
      lead, trim piece.text, trail⟩ = front ++ '[' :: (inner ++ ']' :: after) := by
    rw [hinner]
    simp only [PiecePlace.text, List.append_assoc]
  refine ⟨_, ⟨hbefore, hcontents, hseparator, hpiece, hlead, ⟨hne, hfound⟩, htrail, hpieceText⟩,
    rfl, htext, ?_⟩
  rw [htext, position_carry_bracket, hposition]

section
variable {text : List Char} {f : Fault}

/-- A character that begins no selector stands at the place of the fault. -/
theorem getElem?_position_of_unexpected (h : ExpressionFault text f) {c : Char}
    (hc : f.cause = .unexpected c) : text[f.position text]? = some c := by
  cases h with
  | mute hmute => exact absurd hc (hmute.ne.1 c)
  | unexpected front d rest =>
      cases hc
      rw [position_met, List.getElem?_append_right (Nat.le_refl _), Nat.sub_self,
        List.getElem?_cons_zero]
  | group front after hgroup =>
      cases groupFault_of_readGroup hgroup with
      | mute hmute => exact absurd hc (hmute.ne.1 c)
      | @filter _ _ g _ _ hread =>
          rcases exists_of_readCondition_error hread with hnone | ⟨_, d, _, _, rfl⟩
          · rw [show g.cause = .unexpected c from hc] at hnone
            cases hnone
          · cases hc
      | piece => cases hc

/-- A fault behind a literal is met in the condition of a filter, and the character stands as many
characters behind the place of the fault as there are between the bracket and the condition. -/
theorem exists_filterPlace_of_afterLiteral (h : ExpressionFault text f) {c : Char}
    (hc : f.cause = .afterLiteral c) : ∃ p : FilterPlace, p.WellFormed ∧ p.text = text ∧
      p.Faulty f ∧ text[f.position text + p.shift]? = some c := by
  cases h with
  | mute hmute => exact absurd hc (hmute.ne.2.1 c)
  | unexpected => cases hc
  | group front after hgroup =>
      cases groupFault_of_readGroup hgroup with
      | mute hmute => exact absurd hc (hmute.ne.2.1 c)
      | @filter rest condition g hcontents hinner hread =>
          obtain ⟨p, hp, rfl, htext, hposition⟩ :=
            exists_filterPlace front after hcontents hinner hread
          rw [← htext]
          refine ⟨p, hp, rfl, ⟨g, hread, rfl, hposition⟩, ?_⟩
          rcases exists_of_readCondition_error hread with hnone | ⟨before, d, more, hmet, rfl⟩
          · rw [show g.cause = .afterLiteral c from hc] at hnone
            cases hnone
          · cases hc
            have hbefore : (Fault.met (.afterLiteral c) (c :: more)).position p.condition =
                before.length := by
              rw [hmet, position_met]
            rw [hposition, hbefore]
            exact FilterPlace.getElem?_text hmet
      | piece => cases hc

/-- A text in place of an integer is met in the condition of a filter or is a piece of a slice or a
list; the piece is placed where it begins in the contents, and the text in it as many characters
behind that place as there are blanks in front of the two. -/
theorem exists_place_of_integerExpected (h : ExpressionFault text f) {found : List Char}
    (hc : f.cause = .integerExpected found) :
    (∃ p : FilterPlace, p.WellFormed ∧ p.text = text ∧ p.Faulty f) ∨
      ∃ p : PiecePlace, p.WellFormed ∧ p.text = text ∧ p.found = found ∧
        f.position text = p.front.length + 1 + p.piece.start ∧
        found <+: text.drop (f.position text + p.shift) := by
  cases h with
  | mute hmute => exact absurd hc (hmute.ne.2.2 found)
  | unexpected => cases hc
  | group front after hgroup =>
      cases groupFault_of_readGroup hgroup with
      | mute hmute => exact absurd hc (hmute.ne.2.2 found)
      | @filter rest condition g hcontents hinner hread =>
          obtain ⟨p, hp, rfl, htext, hposition⟩ :=
            exists_filterPlace front after hcontents hinner hread
          rw [← htext]
          exact .inl ⟨p, hp, rfl, g, hread, rfl, hposition⟩
      | piece hseparator hpiece hne =>
          cases hc
          obtain ⟨p, hp, hfound, htext, hposition⟩ :=
            exists_piecePlace front after hseparator hpiece hne (.integerExpected _)
          rw [← htext]
          refine .inr ⟨p, hp, rfl, hfound, hposition, ?_⟩
          rw [hposition, ← hfound]
          exact PiecePlace.found_prefix hp

end

/-- A character that begins no selector stands at the place of the fault. The one behind a literal
stands there as soon as the place is moved on by what is between the bracket of the filter and its
condition, and what is no integer in a slice or a list as soon as it is moved on by the blanks that
are skipped. -/
theorem readExpression_fault_place {text : List Char} {f : Fault}
    (h : readExpression text = .error f) :
    (∀ c, f.cause = .unexpected c → text[f.position text]? = some c) ∧
      (∀ c, f.cause = .afterLiteral c → ∃ p : FilterPlace, p.WellFormed ∧ p.text = text ∧
        p.Faulty f ∧ text[f.position text + p.shift]? = some c) ∧
      ∀ found, f.cause = .integerExpected found →
        (∃ p : FilterPlace, p.WellFormed ∧ p.text = text ∧ p.Faulty f) ∨
          ∃ p : PiecePlace, p.WellFormed ∧ p.text = text ∧ p.found = found ∧
            f.position text = p.front.length + 1 + p.piece.start ∧
            found <+: text.drop (f.position text + p.shift) := by
  have hfault := expressionFault_of_readExpression h
  exact ⟨fun _ hc => getElem?_position_of_unexpected hfault hc,
    fun _ hc => exists_filterPlace_of_afterLiteral hfault hc,
    fun _ hc => exists_place_of_integerExpected hfault hc⟩

/-- Even without blanks and a parenthesis in front of the condition the fault behind a literal is
placed in front of the character that it shows. -/
theorem readExpression_fault_place_filter :
    ∃ f, readExpression ['[', '?', '@', ' ', '=', '=', ' ', '1', ' ', 'x', ']'] = .error f ∧
      f.cause = .afterLiteral 'x' ∧
      ['[', '?', '@', ' ', '=', '=', ' ', '1', ' ', 'x', ']'][f.position
        ['[', '?', '@', ' ', '=', '=', ' ', '1', ' ', 'x', ']']]? = some ' ' ∧
      ∃ p : FilterPlace, p.WellFormed ∧
        p.text = ['[', '?', '@', ' ', '=', '=', ' ', '1', ' ', 'x', ']'] ∧
        p.text[f.position p.text + p.shift]? = some 'x' := by
  have hread : readExpression ['[', '?', '@', ' ', '=', '=', ' ', '1', ' ', 'x', ']'] =
      .error ⟨.afterLiteral 'x', ['?', '@', ' ', '=', '=', ' ', '1', ' ', 'x', ']'], 7⟩ := by
    decide +kernel
  obtain ⟨p, hp, htext, -, hplace⟩ := (readExpression_fault_place hread).2.1 'x' rfl
  exact ⟨_, hread, rfl, rfl, p, hp, htext, htext ▸ hplace⟩

end PathQuery.Expression
