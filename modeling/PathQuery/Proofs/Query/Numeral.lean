import PathQuery.Document
import PathQuery.Proofs.Expression.Range
import PathQuery.Proofs.Json.Reader
import PathQuery.Proofs.Query.Find

/-!
# One number in a filter and in a document

A number that JSON admits can stand in a filter and in a document. The two readers have their own
ranges of integers and their own zeros with a sign, and still agree, whichever reader of JSON the
document is made with, as long as it makes of numbers what is relied on (`Json.ReadsNumbers`): what
a filter reads equals what a document keeps, and a filter with one number keeps another one in an
array exactly if the numbers that documents keep of the two compare that way (`find_numeral`).
-/

namespace PathQuery

open Text Expression

variable {reader : Json.Reader} {t u : NumberForm}

/-! ## A number in a document -/

/-- The document of what a number is read as. -/
theorem Document.ofText_numeral {j : Json} (ht : t.Strict) (hread : t.numeral.toJson? = some j) :
    ofText (String.ofList t.text) = .ok { root := .ofJson j } := by
  rw [ofText, Value.ofText?, String.toList_ofList, Json.read?_numeral ht, hread, Option.map_some]

/-- The document of a number, alone and in an array, keeps what equals the number in a filter. -/
theorem Document.exists_ofText (h : Json.ReadsNumbers reader) (ht : t.Strict)
    (hfinite : t.decimal.toBinary64.isFinite = true) :
    ∃ m, t.value.equal m = true ∧
      ofText (String.ofList t.text) reader = .ok { root := .scalar (.number m) } ∧
      ofText ("[" ++ String.ofList t.text ++ "]") reader =
        .ok { root := .array [.scalar (.number m)] } := by
  obtain ⟨j, m, hread, hvalue, hequal⟩ := h.exists_equal ht hfinite
  have htext : ("[" ++ String.ofList t.text ++ "]").toList = '[' :: t.text ++ [']'] := by
    simp
  refine ⟨m, hequal, ?_, ?_⟩
  · rw [ofText, Value.ofText?, String.toList_ofList, hread, Option.map_some, hvalue]
  · rw [ofText, Value.ofText?, htext, h.brackets ht hread, Option.map_some]
    simp [Value.ofJson, Value.ofJsonElements, hvalue]

/-! ## A number in a filter -/

/-- The current value, a comparison and a number are a condition. -/
theorem conditionText_numeral (ht : t.Strict) (op : Comparison) :
    ConditionText ('@' :: ' ' :: op.sign ++ ' ' :: t.text) (.compares [] op (.number t.value)) :=
  .compares .nil op (NumberForm.literalText ht.wellFormed (.inr ht.whole.ne_nil))

/-- Everything compares alike with what a filter reads and with a number that equals it. -/
theorem compares_literal_of_equal {m n : Number} (h : m.equal n = true) (s : Scalar)
    (op : Comparison) :
    s.compares op (.number m) = s.compares op (.number n) := by
  obtain ⟨⟨hm, hn⟩, hsame⟩ := Number.equal_iff.1 h
  exact compares_congr hm hn hsame s op

/-- A filter on the current value keeps a scalar in an array if it compares. -/
theorem findIn_compares {expression : String} {text : List Char} {op : Comparison}
    {literal : Scalar}
    (hexpression : expression.toList = '[' :: ('?' :: '(' :: text ++ [')']) ++ [']'])
    (htext : ConditionText text (.compares [] op literal)) (s : Scalar) (config : Config) :
    findIn (.array [.scalar s]) config expression =
      .ok ⟨if s.compares op literal then [.scalar s] else [], config⟩ := by
  have hholds : (Condition.compares [] op literal).holds config (.scalar s) =
      s.compares op literal := rfl
  have hkept : ([Value.array [.scalar s]].flatMap Value.children).filter
      (fun v => (Condition.compares [] op literal).holds config v) =
        if s.compares op literal then [.scalar s] else [] := by
    simp [Value.children, hholds, List.filter_cons]
  rw [findIn_eq, hexpression, readExpression_group (.filter htext)]
  dsimp only
  rw [select, applyAll_singleton, Selector.apply, hkept]
  rfl

/-- A number of JSON with a finite double is read in a filter as one that equals what a document
keeps of it; and of two such numbers, a filter with the second keeps the first in an array exactly
if what documents keep of the two compares that way. -/
theorem find_numeral (hreader : Json.ReadsNumbers reader) (ht : t.Strict) (hu : u.Strict)
    (htfinite : t.decimal.toBinary64.isFinite = true)
    (hufinite : u.decimal.toBinary64.isFinite = true) (op : Comparison) :
    readCondition ("@ == ".toList ++ t.text) = .ok (.compares [] .eq (.number t.value)) ∧
      ∃ m n, Document.ofText (String.ofList t.text) reader =
          .ok { root := .scalar (.number m) } ∧
        Document.ofText (String.ofList u.text) reader = .ok { root := .scalar (.number n) } ∧
        t.value.equal m = true ∧
        ∃ d, Document.ofText ("[" ++ String.ofList t.text ++ "]") reader = .ok d ∧
          d.root = .array [.scalar (.number m)] ∧
          d.find ("[?(@ " ++ String.ofList op.sign ++ " " ++ String.ofList u.text ++ ")]") =
            .ok ⟨if (Scalar.number m).compares op (.number n) then [.scalar (.number m)] else [],
              d.config⟩ := by
  have hcondition := readCondition_conditionText (conditionText_numeral ht .eq)
  have hexpression :
      ("[?(@ " ++ String.ofList op.sign ++ " " ++ String.ofList u.text ++ ")]").toList =
        '[' :: ('?' :: '(' :: ('@' :: ' ' :: op.sign ++ ' ' :: u.text) ++ [')']) ++ [']'] := by
    simp
  obtain ⟨m, hm, halone, harray⟩ := Document.exists_ofText hreader ht htfinite
  obtain ⟨n, hn, halone', -⟩ := Document.exists_ofText hreader hu hufinite
  refine ⟨hcondition, m, n, halone, halone', hm, _, harray, rfl, ?_⟩
  rw [Document.find, findIn_compares hexpression (conditionText_numeral hu op),
    compares_literal_of_equal hn]

/-- A zero with a minus sign is a double in a document and an integer in a filter, and the first
integer beyond 64 bits is a double in both. -/
theorem find_numeral_zero :
    readCondition "@ == -0".toList = .ok (.compares [] .eq (.number (.int 0))) ∧
      Document.ofText "-0" = .ok { root := .scalar (.number (.float ⟨0x8000000000000000⟩)) } ∧
      Document.ofText "9223372036854775808" =
        .ok { root := .scalar (.number (.float ⟨0x43E0000000000000⟩)) } ∧
      ∃ d, Document.ofText "[-0]" = .ok d ∧ d.find "[?(@ < 9223372036854775808)]" =
        .ok ⟨[.scalar (.number (.float ⟨0x8000000000000000⟩))], d.config⟩ := by
  have hzero : (NumberForm.ofInteger ⟨true, ['0']⟩).Strict :=
    ⟨⟨by decide, by decide⟩, by decide, by rintro _ ⟨⟩, by rintro _ ⟨⟩⟩
  have hlarge : (NumberForm.ofInteger ⟨false, "9223372036854775808".toList⟩).Strict :=
    ⟨⟨by decide, by decide⟩, by decide, by rintro _ ⟨⟩, by rintro _ ⟨⟩⟩
  have hvalue : (NumberForm.ofInteger ⟨true, ['0']⟩).value = .int 0 := by decide +kernel
  have hcompares : (Scalar.number (.float ⟨0x8000000000000000⟩)).compares .lt
      (.number (.float ⟨0x43E0000000000000⟩)) = true := by decide +kernel
  obtain ⟨hread, m, n, hdocument, hdocument', -, d, harray, -, hfind⟩ :=
    find_numeral Json.readsNumbers_read? hzero hlarge (by decide +kernel) (by decide +kernel) .lt
  have hjson : (NumberForm.ofInteger ⟨true, ['0']⟩).numeral.toJson? =
      some (.float ⟨0x8000000000000000⟩) := by
    rw [Json.toJson?_integer, if_neg (by decide), if_pos (by decide +kernel)]
    rfl
  have hjson' : (NumberForm.ofInteger ⟨false, "9223372036854775808".toList⟩).numeral.toJson? =
      some (.int 9223372036854775808) := by
    rw [Json.toJson?_integer, if_pos (by decide +kernel)]
    rfl
  have hround : Value.numberOfInt 9223372036854775808 = .float ⟨0x43E0000000000000⟩ := by
    decide +kernel
  have hm := (Document.ofText_numeral hzero hjson).symm.trans hdocument
  have hn := (Document.ofText_numeral hlarge hjson').symm.trans hdocument'
  simp only [Value.ofJson] at hm hn
  cases hm
  cases hn
  rw [hvalue] at hread
  rw [hround] at hdocument' hfind
  rw [hcompares, if_pos rfl] at hfind
  exact ⟨hread, hdocument, hdocument', d, harray, hfind⟩

end PathQuery
