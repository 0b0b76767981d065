import Tariff.Proofs.Formula.Reread
import Tariff.Proofs.Script.Operand

set_option autoImplicit false

namespace Tariff.Script

open Reader

variable {nested : Reader Formula} {text rest more : List Char} {value : Formula} {depth : Nat}

namespace SkipsSpace

theorem signed : SkipsSpace (signed nested) := blank.bind

theorem chain {signs : Char → Bool} {operand : Reader Formula} (skips : SkipsSpace operand) :
    SkipsSpace (chain signs operand) := skips.bind

theorem product : SkipsSpace (product nested) := signed.chain

theorem sum : SkipsSpace (sum nested) := product.chain

theorem negated : SkipsSpace (negated nested) := blank.bind

theorem conjunction : SkipsSpace (conjunction nested) := negated.bind

theorem formula_within : SkipsSpace (formulaWithin (depth + 1)) := blank.bind

end SkipsSpace

theorem Stops.close {c : Char} (closes : c ∈ [')', ',', ']']) :
    Stops comparisonMarks disjunctionWords (c :: more) := by
  have facts : ∀ c ∈ [')', ',', ']'], isMark c = true ∧ isPathChar c = false ∧ c ∉ comparisonMarks := by
    decide
  obtain ⟨mark, noPath, apart⟩ := facts c closes
  exact .mark mark noPath apart (by decide)

theorem Stops.keyword (word : String) {words : List String}
    (facts : word.toList ≠ [] ∧ word.toList.all isWordChar = true) (apart : word ∉ words) :
    Stops comparisonMarks words (' ' :: (word.toList ++ ' ' :: more)) := by
  obtain ⟨nonempty, all⟩ := facts
  obtain ⟨c, later, starts⟩ := List.exists_cons_of_ne_nil nonempty
  refine .word starts all ?_ (by decide) apart
  intro d same
  cases same
  decide

theorem formula_within_succ (text : List Char) :
    formulaWithin (depth + 1) text = disjunction (formulaWithin depth) text := by
  have twice : blank (skipBlank text) = blank text := by
    rw [blank, blank, skip_blank_again]
  have skipped : blank text = .done () (skipBlank text) := rfl
  rw [formulaWithin, bind_done skipped]
  exact bind_same (bind_same (bind_same twice))

theorem disjunction_of_comparison (start : skipBlank text = text)
    (noNot : (eitherCase "not" "NOT").Misses text)
    (read : comparison nested text = .done value rest)
    (stops : Stops comparisonMarks disjunctionWords rest) :
    disjunction nested text = .done value rest := by
  have negation := negated_single start noNot read
  exact disjunction_single (conjunction_single negation stops.conjunction) stops

theorem disjunction_of_sum (start : skipBlank text = text)
    (noNot : (eitherCase "not" "NOT").Misses text) (read : sum nested text = .done value rest)
    (stops : Stops comparisonMarks disjunctionWords rest) :
    disjunction nested text = .done value rest :=
  disjunction_of_comparison start noNot (comparison_single read stops.conjunction.comparison) stops

theorem disjunction_of_defaulted (opens : Opens text)
    (noNot : (eitherCase "not" "NOT").Misses text)
    (read : defaulted nested text = .done value rest)
    (stops : Stops comparisonMarks disjunctionWords rest) :
    disjunction nested text = .done value rest := by
  have operand := signed_read [] rfl opens read
  have product := chain_single operand stops.sum.no_product_sign
  exact disjunction_of_sum opens.skip_blank noNot (chain_single product stops.sum.no_sign) stops

def Reads (depth : Nat) (formula : Formula) : Prop :=
  ∀ rest, Stops operandMarks [] rest →
    ReadsOperand (formulaWithin depth) formula.chars formula.reread rest

namespace Reads

variable {formula : Formula} (reads : Reads depth formula)

include reads

theorem operand {words : List String} (stops : Stops operandMarks words rest) :
    ReadsOperand (formulaWithin depth) formula.chars formula.reread rest :=
  reads rest (stops.mono (List.Subset.refl _) (List.nil_subset _))

theorem product (stops : Stops productMarks [] rest) :
    product (formulaWithin depth) (formula.chars ++ rest) = .done formula.reread rest :=
  (reads.operand stops.operand).product stops

theorem sum (stops : Stops sumMarks [] rest) :
    sum (formulaWithin depth) (formula.chars ++ rest) = .done formula.reread rest :=
  (reads.operand stops.product.operand).sum stops

theorem negated (stops : Stops comparisonMarks comparisonWords rest) :
    negated (formulaWithin depth) (formula.chars ++ rest) = .done formula.reread rest :=
  (reads.operand stops.sum.product.operand).negated stops

theorem conjunction (stops : Stops comparisonMarks conjunctionWords rest) :
    conjunction (formulaWithin depth) (formula.chars ++ rest) = .done formula.reread rest :=
  (reads.operand stops.sum.product.operand).conjunction stops

theorem disjunction (stops : Stops comparisonMarks disjunctionWords rest) :
    disjunction (formulaWithin depth) (formula.chars ++ rest) = .done formula.reread rest :=
  (reads.operand stops.sum.product.operand).disjunction stops

theorem whole (stops : Stops comparisonMarks disjunctionWords rest) :
    formulaWithin (depth + 1) (formula.chars ++ rest) = .done formula.reread rest :=
  (formula_within_succ _).trans (reads.disjunction stops)

end Reads

section

variable {signs : Char → Bool} {operand : Reader Formula} {sign : Char} {good : List Char → Prop}

theorem chain_step (isOne : signs sign = true) (mark : isMark sign = true)
    (skips : SkipsSpace operand) (read : operand text = .done value rest) :
    (do blank; let sign ← one signs; let right ← commit operand; return (sign, right) :
      Reader (Char × Formula)) (' ' :: sign :: ' ' :: text) = .done (sign, value) rest := by
  have skipped : blank (' ' :: sign :: ' ' :: text) = .done () (sign :: ' ' :: text) := by
    rw [blank, skip_blank_space, skip_blank_mark mark]
  have right : operand (' ' :: text) = .done value rest := by rw [skips, read]
  rw [bind_done skipped, bind_done (one_done isOne), bind_done (commit_done right)]
  rfl

theorem chain_joined (isOne : signs sign = true) (mark : isMark sign = true)
    (skips : SkipsSpace operand) (first : Formula) (others : List Formula)
    (each : ∀ formula ∈ first :: others, ∀ rest, good rest →
      operand (formula.chars ++ rest) = .done formula.reread rest)
    (between : ∀ more, good ([' ', sign, ' '] ++ more)) (last : good rest)
    (ends : ∀ c ∈ (skipBlank rest).head?, signs c = false) {separator : String}
    (spelled : separator.toList = [' ', sign, ' ']) :
    chain signs operand
        (Formula.joined separator ((first :: others).map Formula.chars) ++ rest) =
      .done ((others.map Formula.reread).foldl (Formula.combine (operationOf sign)) first.reread)
        rest := by
  have start := each first (List.mem_cons_self) _ (good_separated Formula.chars between last others)
  have repeats := repeats_separated Formula.chars between last others
    (fun formula => (sign, formula.reread))
    (fun formula member rest isGood =>
      chain_step isOne mark skips (each formula (List.mem_cons_of_mem _ member) rest isGood))
    (List.cons_ne_nil _ _) (blank_then_misses (bind_misses (one_misses ends)))
  rw [joined_map, spelled, List.append_assoc, chain, bind_done start,
    bind_done (many_repeats repeats), List.foldl_map, List.foldl_map]
  rfl

end

section

variable {first : Formula} {others : List Formula} {separator : String}
variable (reads : ∀ formula ∈ first :: others, Reads depth formula)
variable (stops : Stops comparisonMarks disjunctionWords rest)

include reads stops

theorem disjunction_of_joined (between : ∀ more, Stops operandMarks [] (separator.toList ++ more))
    (read : sum (formulaWithin depth)
        (Formula.joined separator ((first :: others).map Formula.chars) ++ rest) =
      .done value rest) :
    disjunction (formulaWithin depth)
        (Formula.joined separator ((first :: others).map Formula.chars) ++ rest) =
      .done value rest := by
  have opening := reads first (List.mem_cons_self) _
    (good_separated Formula.chars between stops.sum.product.operand others)
  have start := opening.start
  have noNot := opening.noNot
  rw [← List.append_assoc, ← joined_map] at start noNot
  exact disjunction_of_sum start noNot read stops

variable (sign : Char) (spelled : separator.toList = [' ', sign, ' '])

include spelled

theorem products_read (isProduct : isProductSign sign = true) :
    disjunction (formulaWithin depth)
        (Formula.joined separator ((first :: others).map Formula.chars) ++ rest) =
      .done ((others.map Formula.reread).foldl (Formula.combine (operationOf sign)) first.reread)
        rest := by
  have facts : ∀ sign ∈ ['*', '/', '%'], isMark sign = true ∧ isPathChar sign = false ∧
      sign ∉ operandMarks := by decide
  obtain ⟨mark, noPath, apart⟩ := facts sign (product_sign_mem isProduct)
  have between : ∀ more, Stops operandMarks [] ([' ', sign, ' '] ++ more) := fun more =>
    .space (.mark mark noPath apart (List.not_mem_nil))
  have chained := chain_joined isProduct mark SkipsSpace.signed first others
    (fun formula member rest isGood => (reads formula member rest isGood).signed [] rfl) between
    stops.sum.product.operand stops.sum.no_product_sign spelled
  rw [← spelled] at between
  exact disjunction_of_joined reads stops between (chain_single chained stops.sum.no_sign)

theorem sums_read (isSum : isSign sign = true) :
    disjunction (formulaWithin depth)
        (Formula.joined separator ((first :: others).map Formula.chars) ++ rest) =
      .done ((others.map Formula.reread).foldl (Formula.combine (operationOf sign)) first.reread)
        rest := by
  have facts : ∀ sign ∈ ['-', '+'], isMark sign = true ∧ isPathChar sign = false ∧
      sign ∉ productMarks := by decide
  obtain ⟨mark, noPath, apart⟩ := facts sign (sign_mem isSum)
  have between : ∀ more, Stops productMarks [] ([' ', sign, ' '] ++ more) := fun more =>
    .space (.mark mark noPath apart (List.not_mem_nil))
  have chained := chain_joined isSum mark SkipsSpace.product first others
    (fun formula member rest isGood => (reads formula member).product isGood) between
    stops.sum.product stops.sum.no_sign spelled
  rw [← spelled] at between
  exact disjunction_of_joined reads stops (fun more => (between more).operand) chained

end

theorem signs_read {op : Arithmetic} (noCall : op ≠ .least ∧ op ≠ .greatest)
    {first second : Formula} {others : List Formula}
    (reads : ∀ formula ∈ first :: second :: others, Reads depth formula)
    (stops : Stops comparisonMarks disjunctionWords rest) :
    disjunction (formulaWithin depth)
        (Formula.joined (" " ++ op.symbol ++ " ")
          ((first :: second :: others).map Formula.chars) ++ rest) =
      .done (Formula.signed op ((first :: second :: others).map Formula.reread)) rest := by
  cases op with
  | add => exact sums_read reads stops '+' rfl rfl
  | subtract => exact sums_read reads stops '-' rfl rfl
  | multiply => exact products_read reads stops '*' rfl rfl
  | divide => exact products_read reads stops '/' rfl rfl
  | remainder => exact products_read reads stops '%' rfl rfl
  | least => exact absurd rfl noCall.1
  | greatest => exact absurd rfl noCall.2

theorem sign_read {op : Arithmetic} (isSum : op = .add ∨ op = .subtract) {operand : Formula}
    (reads : Reads depth operand) (stops : Stops comparisonMarks disjunctionWords rest) :
    disjunction (formulaWithin depth) (op.symbol.toList ++ (operand.chars ++ rest)) =
      .done (Formula.signed op [operand.reread]) rest := by
  have facts : ∃ sign, op.symbol.toList = [sign] ∧ isSign sign = true ∧ isMark sign = true ∧
      isWordChar sign = false ∧
      Formula.signed op [operand.reread] = applySign sign operand.reread := by
    rcases isSum with same | same
    · exact ⟨'+', by rw [same]; rfl, rfl, rfl, rfl, by rw [same]; rfl⟩
    · exact ⟨'-', by rw [same]; rfl, rfl, rfl, rfl, by rw [same]; rfl⟩
  obtain ⟨sign, spelled, isSign, mark, noWord, value⟩ := facts
  have read := (reads.operand stops.sum.product.operand).signed [sign] (by simp [isSign])
  have noKeyword {word : String} (nonempty : word ≠ "") (all : word.toList.all isWordChar = true) :
      (keyword word).Misses ([sign] ++ (operand.chars ++ rest)) := by
    apply keyword_misses all
    rw [List.singleton_append, List.takeWhile_cons_of_neg (by simp [noWord])]
    intro same
    exact nonempty (String.toList_eq_nil_iff.mp same.symm)
  rw [spelled, value]
  refine disjunction_of_sum (skip_blank_mark mark _) ?_ ?_ stops
  · exact or_else_both_miss (noKeyword (by decide) (by decide)) (noKeyword (by decide) (by decide))
  · exact chain_single (chain_single read stops.sum.no_product_sign) stops.sum.no_sign

theorem comparison_symbol_read (comparison : Comparison) (more : List Char) :
    comparisonSymbol (comparison.symbol.toList ++ ' ' :: more) = .done comparison (' ' :: more) := by
  cases comparison <;> rfl

theorem Stops.symbol (comparison : Comparison) :
    Stops sumMarks [] (' ' :: (comparison.symbol.toList ++ more)) := by
  have starts : ∃ c ∈ ['=', '!', '<', '>'], comparison.symbol.toList.head? = some c := by
    cases comparison <;> decide
  have facts : ∀ c ∈ ['=', '!', '<', '>'], isMark c = true ∧ isPathChar c = false ∧
      c ∉ sumMarks := by decide
  obtain ⟨c, member, first⟩ := starts
  obtain ⟨mark, noPath, apart⟩ := facts c member
  obtain ⟨later, same⟩ := List.head?_eq_some_iff.mp first
  rw [same]
  exact .space (.mark mark noPath apart List.not_mem_nil)

theorem skip_blank_symbol (comparison : Comparison) :
    skipBlank (' ' :: (comparison.symbol.toList ++ more)) = comparison.symbol.toList ++ more := by
  rw [skip_blank_space]
  cases comparison <;> exact skip_blank_mark (by decide) _

theorem comparison_sums {comparison : Comparison} {left right : List Char} {first second : Formula}
    (lefts : sum nested (left ++ ' ' :: (comparison.symbol.toList ++ ' ' :: (right ++ rest))) =
      .done first (' ' :: (comparison.symbol.toList ++ ' ' :: (right ++ rest))))
    (rights : sum nested (right ++ rest) = .done second rest) :
    Script.comparison nested
        (left ++ ' ' :: (comparison.symbol.toList ++ ' ' :: (right ++ rest))) =
      .done (.compare comparison first second) rest := by
  have symbols : (do blank; comparisonSymbol : Reader Comparison)
      (' ' :: (comparison.symbol.toList ++ ' ' :: (right ++ rest))) =
      .done comparison (' ' :: (right ++ rest)) := by
    have skipped : blank (' ' :: (comparison.symbol.toList ++ ' ' :: (right ++ rest))) =
        .done () (comparison.symbol.toList ++ ' ' :: (right ++ rest)) := by
      rw [blank, skip_blank_symbol]
    rw [bind_done skipped, comparison_symbol_read]
  have behind : sum nested (' ' :: (right ++ rest)) = .done second rest := by
    rw [SkipsSpace.sum, rights]
  rw [Script.comparison, bind_done lefts, bind_done (optional_done symbols)]
  dsimp only
  rw [bind_done (commit_done behind)]
  rfl

theorem compare_read {comparison : Comparison} {left right : Formula} (lefts : Reads depth left)
    (rights : Reads depth right) (stops : Stops comparisonMarks disjunctionWords rest) :
    disjunction (formulaWithin depth)
        (left.chars ++ ' ' :: (comparison.symbol.toList ++ ' ' :: (right.chars ++ rest))) =
      .done (.compare comparison left.reread right.reread) rest := by
  have behind : Stops sumMarks []
      (' ' :: (comparison.symbol.toList ++ ' ' :: (right.chars ++ rest))) := .symbol comparison
  have opening := lefts.operand behind.product.operand
  exact disjunction_of_comparison opening.start opening.noNot
    (comparison_sums (lefts.sum behind) (rights.sum stops.sum)) stops

theorem keyword_skip_blank (word : String) {c : Char} (first : word.toList.head? = some c)
    (isWord : isWordChar c = true) (rest : List Char) :
    blank (' ' :: (word.toList ++ rest)) = .done () (word.toList ++ rest) := by
  obtain ⟨later, same⟩ := List.head?_eq_some_iff.mp first
  rw [blank, skip_blank_space, same, List.cons_append, skip_blank_mark (is_mark_of_word_char isWord)]

theorem ends_space (text : List Char) : Ends isWordChar (' ' :: text) := by
  intro c first
  cases first
  decide

theorem either_case_upper {lower upper : String} {c d : Char} (first : upper.toList.head? = some c)
    (other : lower.toList.head? = some d) (different : c ≠ d) (ends : Ends isWordChar rest) :
    eitherCase lower upper (upper.toList ++ rest) = .done () rest := by
  obtain ⟨later, same⟩ := List.head?_eq_some_iff.mp first
  have noLower : (keyword lower).Misses (upper.toList ++ rest) := by
    apply keyword_misses_head other
    rw [same, List.cons_append, List.head?_cons]
    intro both
    cases both
    exact different rfl
  exact (or_else_misses noLower).trans (keyword_done ends)

section

variable {lower upper word : String} {c : Char} (first : word.toList.head? = some c)
variable (isWord : isWordChar c = true)
variable (spoken : ∀ text, eitherCase lower upper (word.toList ++ ' ' :: text) = .done () (' ' :: text))
variable {operand : Reader Formula} (skips : SkipsSpace operand)

include first isWord spoken skips

theorem joined_step (read : operand text = .done value rest) :
    (do blank; eitherCase lower upper; commit operand : Reader Formula)
      (' ' :: (word.toList ++ ' ' :: text)) = .done value rest := by
  have right : operand (' ' :: text) = .done value rest := by rw [skips, read]
  rw [bind_done (keyword_skip_blank word first isWord _), bind_done (spoken text), commit_done right]

theorem joined_read {ι : Type} (chars : ι → List Char) (reread : ι → Formula)
    {build : List Formula → Formula} {separator : String}
    (spelled : separator.toList = ' ' :: (word.toList ++ [' '])) {good : List Char → Prop}
    (between : ∀ more, good (separator.toList ++ more)) (last : good rest)
    (noMore : (eitherCase lower upper).Misses (skipBlank rest)) (start : ι) (others : List ι)
    (each : ∀ item ∈ start :: others, ∀ rest, good rest →
      operand (chars item ++ rest) = .done (reread item) rest) :
    joined lower upper build operand
        (Formula.joined separator ((start :: others).map chars) ++ rest) =
      .done (Formula.joinedRead build ((start :: others).map reread)) rest := by
  have begins := each start (List.mem_cons_self) _ (good_separated chars between last others)
  have step : ∀ item ∈ others, ∀ rest, good rest →
      (do blank; eitherCase lower upper; commit operand : Reader Formula)
        (separator.toList ++ (chars item ++ rest)) = .done (reread item) rest := by
    intro item member rest isGood
    have read := joined_step first isWord spoken skips
      (each item (List.mem_cons_of_mem _ member) rest isGood)
    rw [spelled]
    simpa using read
  have repeats := repeats_separated chars between last others reread step
    (by rw [spelled]; exact List.cons_ne_nil _ _) (blank_then_misses (bind_misses noMore))
  rw [joined_map, List.append_assoc, joined, bind_done begins, bind_done (many_repeats repeats)]
  cases others with
  | nil => rfl
  | cons second more => rfl

end

section

variable {first : Formula} {others : List Formula}
variable (reads : ∀ formula ∈ first :: others, Reads depth formula)
variable (stops : Stops comparisonMarks disjunctionWords rest)

include reads stops

theorem all_read :
    disjunction (formulaWithin depth)
        (Formula.joined " AND " ((first :: others).map Formula.chars) ++ rest) =
      .done (Formula.joinedRead .all ((first :: others).map Formula.reread)) rest := by
  have between : ∀ more, Stops comparisonMarks comparisonWords (" AND ".toList ++ more) :=
    fun more => .keyword "AND" (by decide) (by decide)
  refine disjunction_single ?_ stops
  exact joined_read (c := 'A') rfl rfl
    (fun text => either_case_upper (c := 'A') (d := 'a') rfl rfl (by decide) (ends_space text))
    SkipsSpace.negated Formula.chars Formula.reread rfl between stops.conjunction.comparison stops.conjunction.no_and first others
    fun formula member rest isGood => (reads formula member).negated isGood

theorem any_read :
    disjunction (formulaWithin depth)
        (Formula.joined " OR " ((first :: others).map Formula.chars) ++ rest) =
      .done (Formula.joinedRead .any ((first :: others).map Formula.reread)) rest := by
  have between : ∀ more, Stops comparisonMarks conjunctionWords (" OR ".toList ++ more) :=
    fun more => .keyword "OR" (by decide) (by decide)
  exact joined_read (c := 'O') rfl rfl
    (fun text => either_case_upper (c := 'O') (d := 'o') rfl rfl (by decide) (ends_space text))
    SkipsSpace.conjunction Formula.chars Formula.reread rfl between stops.conjunction stops.no_or first others
    fun formula member rest isGood => (reads formula member).conjunction isGood

end

theorem not_read {operand : Formula} (reads : Reads depth operand)
    (stops : Stops comparisonMarks disjunctionWords rest) :
    disjunction (formulaWithin depth) ("NOT ".toList ++ (operand.chars ++ rest)) =
      .done (.not operand.reread) rest := by
  have inner := reads.operand stops.sum.product.operand
  have start : blank ("NOT ".toList ++ (operand.chars ++ rest)) =
      .done () ("NOT ".toList ++ (operand.chars ++ rest)) := by
    rw [blank]
    exact congrArg _ (skip_blank_mark (c := 'N') (by decide) _)
  have word : (do eitherCase "not" "NOT"; blank : Reader Unit)
      ("NOT ".toList ++ (operand.chars ++ rest)) = .done () (operand.chars ++ rest) := by
    have upper : eitherCase "not" "NOT" ("NOT".toList ++ ' ' :: (operand.chars ++ rest)) =
        .done () (' ' :: (operand.chars ++ rest)) :=
      either_case_upper (c := 'N') (d := 'n') rfl rfl (by decide) (ends_space _)
    have skipped : blank (' ' :: (operand.chars ++ rest)) = .done () (operand.chars ++ rest) := by
      rw [blank, skip_blank_space, inner.start]
    exact (bind_done upper).trans skipped
  have repeats : Repeats (do eitherCase "not" "NOT"; blank) ("NOT ".toList ++ (operand.chars ++ rest))
      [()] (operand.chars ++ rest) := by
    refine .next word ?_ (.last (bind_misses inner.noNot))
    have long : "NOT ".toList.length = 4 := rfl
    simp only [List.length_append, long]
    omega
  have negation : negated (formulaWithin depth) ("NOT ".toList ++ (operand.chars ++ rest)) =
      .done (.not operand.reread) rest := by
    rw [negated, bind_done start, bind_done (many_repeats repeats)]
    rw [List.isEmpty_cons, if_neg Bool.false_ne_true,
      bind_done (commit_done (inner.comparison stops.conjunction.comparison))]
    rfl
  exact disjunction_single (conjunction_single negation stops.conjunction) stops

end Tariff.Script
