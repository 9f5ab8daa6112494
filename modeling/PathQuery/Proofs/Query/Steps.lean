import PathQuery.Proofs.Expression.Spelling
import PathQuery.Proofs.Query.Find

/-!
# Dots, brackets and quotes

A step leads from a node to its member of a name, or to the members of that name of the node and of
all below it. Its name can be written bare behind a dot, or in brackets between quotes of either
kind, and the selectors that are read differ: a bare name of members at all depths is one selector
and a quoted one is a descent with a list of keys behind it. `find_steps` says that it makes no
difference for what is found, however the forms of the steps are chosen.
-/

namespace PathQuery

open Text Text.Quoted Expression

/-- How the name of a step is written. -/
inductive Form where
  /-- Behind a dot. -/
  | bare
  /-- In brackets between single quotes. -/
  | single
  /-- In brackets between double quotes. -/
  | double

/-- The quote that a name is written between, if it is not bare. -/
def Form.quote? : Form → Option Char
  | .bare => none
  | .single => some '\''
  | .double => some '"'

/-- A step to the member of a name, or at all depths to the members of that name. -/
structure Step where
  name : String
  /-- Whether the step is taken from all that is below a node too. -/
  deep : Bool

namespace Step

/-- The text of a step. Two dots stand for all depths, and take the place of the dot before a bare
name. -/
def text (s : Step) (form : Form) : List Char :=
  match form.quote? with
  | none => (if s.deep then ['.', '.'] else ['.']) ++ s.name.toList
  | some quote =>
    (if s.deep then ['.', '.'] else []) ++ ('[' :: (quote :: s.name.toList ++ [quote]) ++ [']'])

/-- What the text of a step is read as. -/
def selectors (s : Step) (form : Form) : List Selector :=
  match form.quote? with
  | none => [if s.deep then .descent (some s.name) else .member s.name]
  | some _ => (if s.deep then [.descent none] else []) ++ [.keys [.name s.name]]

/-- What a step leads to from a node. -/
def picks (config : Config) (s : Step) (v : Value) : List Value :=
  if s.deep then v.descend config (some s.name) else v.pick config [.name s.name]

/-- A step whose name can be written bare, and between quotes as it is. -/
structure Plain (s : Step) : Prop where
  bare : Bare s.name.toList
  noSlash : '\\' ∉ s.name.toList

end Step

/-- The text of steps from the root, each in its form. -/
def writeSteps (steps : List Step) (forms : List Form) : String :=
  String.ofList ('$' :: (List.zipWith Step.text steps forms).flatten)

/-- What steps lead to from a list of nodes, one after another. -/
def followSteps (config : Config) (steps : List Step) (nodes : List Value) : List Value :=
  steps.foldl (fun nodes s => nodes.flatMap (s.picks config)) nodes

/-! ## Reading -/

namespace Step

variable {s : Step} {form : Form} {rest : List Char}

/-- The two quotes are those that quoted texts stand between. -/
theorem isQuote_of_quote? {quote : Char} (h : form.quote? = some quote) : isQuote quote = true := by
  cases form <;> cases h <;> rfl

/-- A name that can be written as it is between quotes denotes itself. -/
theorem Plain.body (h : s.Plain) {quote : Char} (hquote : isQuote quote = true) :
    Body quote s.name.toList s.name.toList := by
  have hplain : ∀ c ∈ s.name.toList, Item quote [c] c := by
    intro c hc
    refine .plain ?_ fun hslash => h.noSlash (hslash ▸ hc)
    simp only [isQuote, Bool.or_eq_true, beq_iff_eq] at hquote
    rcases hquote with rfl | rfl
    · exact ne_of_isNameChar (h.bare.all c hc) rfl
    · exact ne_of_isNameChar (h.bare.all c hc) rfl
  have hbody := Body.flatMap hplain
  rwa [List.flatMap_singleton'] at hbody

/-- A name in brackets and quotes is a list of one key. -/
theorem Plain.segment_quoted (h : s.Plain) {quote : Char} (hquote : isQuote quote = true)
    (rest : List Char) : Segment ('[' :: (quote :: s.name.toList ++ [quote]) ++ [']'])
      (.keys [.name s.name]) rest := by
  have hkey : KeyText (quote :: s.name.toList ++ [quote]) (.name s.name) := by
    have := KeyText.name hquote (h.body hquote)
    rwa [String.ofList_toList] at this
  have hgroup := GroupText.keys (List.cons_ne_nil _ _) (.cons hkey .nil)
  rw [List.intercalate_singleton, ofKeys_name List.mem_cons_self] at hgroup
  exact hgroup.segment rest

/-- A bare name behind one dot or two is a single selector. -/
theorem Plain.segment_bare (h : s.Plain) (hrest : EndsName rest) :
    Segment ((if s.deep then ['.', '.'] else ['.']) ++ s.name.toList)
      (if s.deep then .descent (some s.name) else .member s.name) rest := by
  cases s.deep with
  | false =>
      have := Segment.member h.bare hrest
      rwa [String.ofList_toList] at this
  | true =>
      have := Segment.descentTo h.bare hrest
      rwa [String.ofList_toList] at this

/-- A step before a text at which a name ends is read as its selectors. -/
theorem Plain.readSelectors_text (h : s.Plain) (form : Form) (hrest : EndsName rest) :
    readSelectors (s.text form ++ rest) = (readSelectors rest).map (s.selectors form ++ ·) := by
  rw [text, selectors]
  cases hform : form.quote? with
  | none => exact readSelectors_segment (h.segment_bare hrest)
  | some quote =>
      have hkeys := readSelectors_segment (h.segment_quoted (isQuote_of_quote? hform) rest)
      cases s.deep with
      | false => exact hkeys
      | true =>
          -- The two dots carry no name, since what is behind them is a bracket.
          have hdots : ∀ more, Segment ['.', '.'] (.descent none) ('[' :: more) := fun more =>
            .descent (by simp) fun c hc => by cases hc; decide
          rw [if_pos rfl, List.append_assoc]
          refine (readSelectors_segment (hdots _)).trans ?_
          exact (congrArg (Except.map _) hkeys).trans (map_map_outcome _ _ _)

/-- The text of a step begins with a dot or a bracket. -/
theorem exists_cons_text (s : Step) (form : Form) :
    ∃ c more, s.text form = c :: more ∧ isNameChar c = false := by
  rw [text]
  cases form.quote? <;> cases s.deep <;> exact ⟨_, _, rfl, by decide⟩

end Step

variable {steps : List Step} {forms : List Form}

/-- A name ends before steps. -/
theorem endsName_steps (steps : List Step) (forms : List Form) :
    EndsName (List.zipWith Step.text steps forms).flatten := by
  cases steps with
  | nil => exact fun c hc => by cases hc
  | cons s steps =>
      cases forms with
      | nil => exact fun c hc => by cases hc
      | cons form forms =>
          obtain ⟨d, more, htext, hd⟩ := s.exists_cons_text form
          rw [List.zipWith_cons_cons, List.flatten_cons, htext]
          intro c hc
          cases hc
          exact hd

/-- Steps are read as their selectors, whatever their forms are. -/
theorem readSelectors_steps (h : ∀ s ∈ steps, s.Plain) (forms : List Form) :
    readSelectors (List.zipWith Step.text steps forms).flatten =
      .ok (List.zipWith Step.selectors steps forms).flatten := by
  induction steps generalizing forms with
  | nil => exact readSelectors_eq_nil_iff.2 .nil
  | cons s steps ih =>
      obtain ⟨hs, hsteps⟩ := List.forall_mem_cons.1 h
      cases forms with
      | nil => exact readSelectors_eq_nil_iff.2 .nil
      | cons form forms =>
          rw [List.zipWith_cons_cons, List.flatten_cons, List.zipWith_cons_cons, List.flatten_cons,
            hs.readSelectors_text form (endsName_steps steps forms), ih hsteps forms]
          rfl

/-! ## Selecting -/

/-- To look for a name at all depths is to list all that is there and then look for the name. -/
theorem Value.descend_some (config : Config) (name : String) (v : Value) :
    v.descend config (some name) = v.descendants.flatMap (Value.pick config [.name name]) := by
  rw [descend, List.filterMap_eq_flatMap_toList]
  exact List.flatMap_congr fun w _ => (pick_singleton config (.name name) w).symm

/-- The selectors of a step lead from nodes to what the step leads to, whatever its form is. -/
theorem Step.applyAll_selectors (root : Value) (config : Config) (nodes : List Value) (s : Step)
    (form : Form) : applyAll root config nodes (s.selectors form) =
      .ok (nodes.flatMap (s.picks config)) := by
  have hpicks : s.picks config = fun v => if s.deep then v.descend config (some s.name)
      else v.pick config [.name s.name] := rfl
  rw [selectors, hpicks]
  cases form.quote? with
  | none => cases s.deep <;> rfl
  | some quote =>
      cases s.deep with
      | false => rfl
      | true =>
          have happly : applyAll root config nodes [.descent none, .keys [.name s.name]] =
              .ok ((nodes.flatMap Value.descendants).flatMap
                (Value.pick config [.name s.name])) := rfl
          refine happly.trans (congrArg Except.ok ?_)
          rw [List.flatMap_assoc]
          exact List.flatMap_congr fun v _ => (v.descend_some config s.name).symm

/-- The selectors of steps lead from nodes to where the steps lead, one after another. -/
theorem applyAll_steps (root : Value) (config : Config) (nodes : List Value)
    (hlength : forms.length = steps.length) :
    applyAll root config nodes (List.zipWith Step.selectors steps forms).flatten =
      .ok (followSteps config steps nodes) := by
  induction steps generalizing forms nodes with
  | nil => rfl
  | cons s steps ih =>
      cases forms with
      | nil => cases hlength
      | cons form forms =>
          rw [List.zipWith_cons_cons, List.flatten_cons, applyAll_append,
            s.applyAll_selectors root config nodes form]
          exact ih _ (Nat.succ.inj hlength)

/-- Steps with plain names can be read in every choice of their forms, and in every document all
these expressions find the same: where the steps lead from the root. -/
theorem find_steps (d : Document) (h : ∀ s ∈ steps, s.Plain) :
    ∃ found : Matches, found.values = followSteps d.config steps [d.root] ∧
      ∀ forms : List Form, forms.length = steps.length →
        (∃ selectors, Query.readSelectors (writeSteps steps forms) = .ok selectors) ∧
          d.find (writeSteps steps forms) = .ok found := by
  refine ⟨⟨followSteps d.config steps [d.root], d.config⟩, rfl, fun forms hlength => ?_⟩
  have hread : readExpression (writeSteps steps forms).toList =
      .ok (.root :: (List.zipWith Step.selectors steps forms).flatten) := by
    rw [writeSteps, String.toList_ofList, readExpression_root, readSelectors_steps h forms]
    rfl
  have hselect : select d.root d.config (.root :: (List.zipWith Step.selectors steps forms).flatten)
      = .ok (followSteps d.config steps [d.root]) := applyAll_steps d.root d.config [d.root] hlength
  constructor
  · rw [Query.readSelectors, hread]
    exact ⟨_, rfl⟩
  · rw [Document.find, findIn_eq, hread]
    dsimp only
    rw [hselect]
    rfl

/-- A member of the root and the members of another name below it, where one name holds a colon and
the other begins like a number, each name once with quotes and once without. -/
theorem find_steps_two :
    (∀ s ∈ [Step.mk "a:1" false, Step.mk "-1?" true], s.Plain) ∧
      ∃ found : Matches, found.values = [.null, .array []] ∧
        (Document.mk (.object [("a:1", .array [.object [("-1?", .null)],
          .object [("-1?", .array [])]])]) {} false).find "$.a:1..['-1?']" = .ok found ∧
        (Document.mk (.object [("a:1", .array [.object [("-1?", .null)],
          .object [("-1?", .array [])]])]) {} false).find "$[\"a:1\"]..-1?" = .ok found := by
  have hplain : ∀ s ∈ [Step.mk "a:1" false, Step.mk "-1?" true], s.Plain := by
    have hname : ∀ s ∈ [Step.mk "a:1" false, Step.mk "-1?" true],
        s.name.toList ≠ [] ∧ s.name.toList.all isNameChar = true ∧ '\\' ∉ s.name.toList := by
      decide +kernel
    intro s hs
    obtain ⟨hne, hall, hslash⟩ := hname s hs
    exact ⟨⟨hne, List.all_eq_true.1 hall⟩, hslash⟩
  have hbelow : (Value.array [.object [("-1?", .null)], .object [("-1?", .array [])]]).descendants =
      [.array [.object [("-1?", .null)], .object [("-1?", .array [])]], .object [("-1?", .null)],
        .null, .object [("-1?", .array [])], .array []] := by
    simp [Value.descendants, Value.walk, Value.children, Value.null]
  have hfollow : followSteps {} [Step.mk "a:1" false, Step.mk "-1?" true] [.object [("a:1",
      .array [.object [("-1?", .null)], .object [("-1?", .array [])]])]] = [.null, .array []] := by
    show [Value.array [.object [("-1?", .null)], .object [("-1?", .array [])]]].flatMap
      (Value.descend {} (some "-1?")) = _
    rw [List.flatMap_singleton, Value.descend, hbelow]
    rfl
  obtain ⟨found, hvalues, hfind⟩ := find_steps (Document.mk (.object [("a:1",
    .array [.object [("-1?", .null)], .object [("-1?", .array [])]])]) {} false) hplain
  exact ⟨hplain, found, hvalues.trans hfollow, (hfind [.bare, .single] rfl).2,
    (hfind [.double, .bare] rfl).2⟩

end PathQuery
