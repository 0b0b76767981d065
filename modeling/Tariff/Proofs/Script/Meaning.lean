import Tariff.Proofs.Script.Lines

set_option autoImplicit false

namespace Tariff

-- Not a text with quotes or backslashes in it.
def Scalar.IsPlain : Scalar → Prop
  | .text value => '"' ∉ value.toList ∧ '\\' ∉ value.toList
  | _ => True

theorem is_verbatim_of_plain {text : List Char} (noQuote : '"' ∉ text) (noBackslash : '\\' ∉ text) :
    isVerbatim text = true := by
  induction text using isVerbatim.induct with
  | case1 => rfl
  | case2 => exact absurd (List.mem_singleton_self _) noBackslash
  | case3 c later ih => exact absurd List.mem_cons_self noBackslash
  | case4 c later notLast notEscape ih =>
      rw [List.mem_cons, not_or] at noQuote noBackslash
      rw [isVerbatim, Bool.and_eq_true, bne_iff_ne]
      · exact ⟨Ne.symm noQuote.1, ih noQuote.2 noBackslash.2⟩
      · exact notLast
      · exact notEscape

theorem Scalar.IsPlain.verbatim {value : Scalar} (plain : value.IsPlain) : value.IsVerbatim := by
  cases value with
  | text value => exact is_verbatim_of_plain plain.1 plain.2
  | _ => trivial

namespace Script

open Reader

theorem formula_feed (text : List Char) :
    Script.formula ('\n' :: text) = Script.formula (' ' :: text) := by
  have same : blank ('\n' :: text) = blank (' ' :: text) := by
    rw [blank, blank, skip_blank_feed, skip_blank_space]
  exact bind_same same

theorem stops_nothing : Stops comparisonMarks disjunctionWords [] := by
  refine ⟨?_, ?_, ?_⟩
  · intro c first
    cases first
  · intro c _ first
    cases first
  · intro word member same
    exact absurd member (String.toList_eq_nil_iff.mp same.symm ▸ by decide)

theorem statements_single {text : List Char} {value : Statement} (start : skipBlank text = text)
    (nonempty : text ≠ []) (read : statement text = .done value []) :
    statements text = .done [value] [] := by
  have reached : blank text = .done () text := by rw [blank, start]
  have first : (do blank; statement : Reader Statement) text = .done value [] := by
    rw [bind_done reached, read]
  have last : (do blank; statement : Reader Statement).Misses [] :=
    blank_then_misses statement_misses_end
  have found : many (do blank; statement) text = .done [value] [] :=
    many_repeats (.next first (List.length_pos_iff.mpr nonempty) (.last last))
  rw [statements, bind_done found]
  rfl

theorem is_name_r : IsName "r".toList := ⟨⟨'r', [], rfl, by decide⟩, by decide⟩

theorem unmarked_registered (scope : Scope) (marked : false = true) : scope = .registration := by
  cases marked

theorem rule_body_read {formula : Formula} (legible : Legible formula) :
    statements ("camper r:\n".toList ++ formula.chars) =
      .done [.rule .camper ⟨"r", none, .formula formula.reread⟩ false] [] := by
  have body : Script.formula ('\n' :: formula.chars) = .done formula.reread [] := by
    have read := formula_read legible stops_nothing
    rw [List.append_nil] at read
    rw [formula_feed, read]
  have rule := @rule_statement_of_body [] .camper false "r" none _ _ is_name_r
    (unmarked_registered .camper) body
  refine statements_single (skip_blank_mark (c := 'c') (by decide) _) (by simp) ?_
  exact (or_else_misses (constant_statement_misses_scope .camper _)).trans rule

theorem of_string_rule_body {formula : Formula} (legible : Legible formula) :
    ofString ("camper r:\n" ++ formula.render) =
      .ok (ofStatements [.rule .camper ⟨"r", none, .formula formula.reread⟩ false]) := by
  have chars : ("camper r:\n" ++ formula.render).toList =
      "camper r:\n".toList ++ formula.chars :=
    String.toList_append.trans (congrArg _ String.toList_ofList)
  rw [ofString, chars, ofChars, rule_body_read legible]

end Script

theorem printed_formula_keeps_meaning (formula : Formula)
    (written : formula.Written (fun path => Script.IsPath path.toList) Scalar.IsPlain) :
    ∃ script read, Script.ofString ("camper r:\n" ++ formula.render) = .ok script ∧
      script.rules = [(.camper, ⟨"r", none, .formula read⟩)] ∧
      ∀ environment, read.evaluate environment = formula.evaluate environment := by
  have legible : Script.Legible formula :=
    written.narrow formula (fun _ _ isPath => isPath) fun _ _ plain => plain.verbatim
  exact ⟨_, formula.reread, Script.of_string_rule_body legible, rfl, fun environment =>
    formula.evaluate_reread environment written⟩

-- A sum in a sum, a sign before a number, and operations on one operand alone.
def nestedSum : Formula :=
  .arithmetic .add
    [.arithmetic .add
      [.field "min.fee" (some (.text "1 0")), .arithmetic .subtract [.literal (.number .one)]],
    .all [.choose
      [(.among (.field "camper.age" none) [.literal .null, .any [.literal (.bool true)]],
        .arithmetic .greatest [.literal (.number ⟨true, 25, 1, by decide, by decide⟩)])] none]]

theorem printed_formula_keeps_meaning_flattened :
    nestedSum.Written (fun path => Script.IsPath path.toList) Scalar.IsPlain ∧
      ∃ script read, Script.ofString ("camper r:\n" ++ nestedSum.render) = .ok script ∧
        script.rules = [(.camper, ⟨"r", none, .formula read⟩)] ∧
        ∀ environment, read.evaluate environment = nestedSum.evaluate environment := by
  have fee : Script.IsPath "min.fee".toList := ⟨⟨⟨'m', _, rfl, by decide⟩, by decide⟩, by decide⟩
  have age : Script.IsPath "camper.age".toList := ⟨⟨⟨'c', _, rfl, by decide⟩, by decide⟩, by decide⟩
  have written : nestedSum.Written (fun path => Script.IsPath path.toList) Scalar.IsPlain := by
    simp [nestedSum, Formula.Written, Formula.WrittenEach, Formula.WrittenBranches,
      Arithmetic.Writes, Arithmetic.Accepts, Scalar.IsPlain]
    exact ⟨fee, age⟩
  exact ⟨written, printed_formula_keeps_meaning nestedSum written⟩

end Tariff
