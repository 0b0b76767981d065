import Tariff.Proofs.Script.Printed

set_option autoImplicit false

namespace Tariff.Script

open Reader

variable {nested : Reader Formula} {text rest more : List Char} {value : Formula} {depth : Nat}

theorem defaulted_default {name : String} {spelled : List Char} {default : Scalar}
    (isPath : IsPath name.toList) (read : signedLiteral (spelled ++ rest) = .done default rest) :
    defaulted nested (name.toList ++ (" ?? ".toList ++ (spelled ++ rest))) =
      .done (.field name (some default)) rest := by
  have behind : Stops ['('] [] (" ?? ".toList ++ (spelled ++ rest)) :=
    .space (.mark (c := '?') (by decide) (by decide) (by decide) (by decide))
  have marks : (do blank; exactly "??" : Reader Unit) (" ?? ".toList ++ (spelled ++ rest)) =
      .done () (' ' :: (spelled ++ rest)) := by
    have skipped : blank (" ?? ".toList ++ (spelled ++ rest)) =
        .done () ("??".toList ++ ' ' :: (spelled ++ rest)) := by
      rw [blank]
      exact congrArg _ ((skip_blank_space _).trans (skip_blank_mark (c := '?') (by decide) _))
    rw [bind_done skipped, exactly_append]
  have skips : SkipsSpace signedLiteral := SkipsSpace.blank.bind
  have second : signedLiteral (' ' :: (spelled ++ rest)) = .done default rest := by rw [skips, read]
  rw [defaulted, bind_done (primary_path isPath behind), bind_done (optional_done marks)]
  dsimp only
  rw [bind_done (commit_done second)]
  rfl

theorem default_read {name : String} {default : Scalar} (isPath : IsPath name.toList)
    (verbatim : default.IsVerbatim) (stops : Stops comparisonMarks disjunctionWords rest) :
    disjunction nested
        (name.toList ++ (" ?? ".toList ++ (default.render.toList ++ rest))) =
      .done (.field name (some default)) rest := by
  have opens := (Opens.path isPath).append (" ?? ".toList ++ (default.render.toList ++ rest))
  have ends : Ends isPathChar (" ?? ".toList ++ (default.render.toList ++ rest)) := by
    intro c first
    cases first
    decide
  exact disjunction_of_defaulted opens (path_no_not isPath ends)
    (defaulted_default isPath (signed_literal_read verbatim stops.ends)) stops

theorem comma_read (text : List Char) : comma (',' :: text) = .done () text := by
  have skipped : blank (',' :: text) = .done () (',' :: text) := by
    rw [blank, skip_blank_mark (by decide)]
  rw [comma, bind_done skipped]
  exact exactly_append "," text

theorem comma_misses {c : Char} (mark : isMark c = true) (different : c ≠ ',') :
    comma.Misses (c :: more) := by
  refine blank_then_misses ?_
  rw [skip_blank_mark mark]
  apply exactly_misses_head (c := ',') rfl
  intro first
  cases first
  exact different rfl

theorem separated_read {c : Char} (closes : c ∈ [')', ']']) (rest : List Char) {first : Formula}
    {others : List Formula} (reads : ∀ formula ∈ first :: others, Reads depth formula) :
    separated (formulaWithin (depth + 1)) comma
        (Formula.joined ", " ((first :: others).map Formula.chars) ++ c :: rest) =
      .done ((first :: others).map Formula.reread) (c :: rest) := by
  have facts : ∀ c ∈ [')', ']'], c ∈ [')', ',', ']'] ∧ isMark c = true ∧ c ≠ ',' := by decide
  obtain ⟨close, mark, different⟩ := facts c closes
  have between : ∀ more, Stops comparisonMarks disjunctionWords (", ".toList ++ more) :=
    fun more => .close (c := ',') (by decide)
  have last : Stops comparisonMarks disjunctionWords (c :: rest) := .close close
  have step : ∀ formula ∈ others, ∀ rest, Stops comparisonMarks disjunctionWords rest →
      (do let _ ← comma; formulaWithin (depth + 1) : Reader Formula)
        (", ".toList ++ (formula.chars ++ rest)) = .done formula.reread rest := by
    intro formula member rest stops
    have separator : comma (", ".toList ++ (formula.chars ++ rest)) =
        .done () (' ' :: (formula.chars ++ rest)) := comma_read _
    rw [bind_done separator, SkipsSpace.formula_within,
      (reads formula (List.mem_cons_of_mem _ member)).whole stops]
  have repeats := repeats_separated Formula.chars between last others Formula.reread step
    (List.cons_ne_nil _ _) (bind_misses (comma_misses mark different))
  rw [joined_map, List.append_assoc]
  exact separated_repeats ((reads first (List.mem_cons_self)).whole
    (good_separated Formula.chars between last others)) repeats

theorem call_start_read (word : String) (text : List Char) :
    callStart word (word.toList ++ '(' :: text) = .done () text := by
  have ends : Ends isWordChar ('(' :: text) := by
    intro c first
    cases first
    decide
  have skipped : blank ('(' :: text) = .done () ('(' :: text) := by
    rw [blank, skip_blank_mark (by decide)]
  rw [callStart, bind_done (keyword_done ends), bind_done skipped]
  exact exactly_append "(" text

-- A call is an operand if it begins like none of what is tried before calls.
theorem ReadsOperand.call {word : String} {inner : List Char} {c : Char}
    (first : word.toList.head? = some c) (member : c ∈ ['m', 'b'])
    (read : call nested (word.toList ++ '(' :: (inner ++ ')' :: rest)) = .done value rest)
    (stops : Stops operandMarks [] rest) :
    ReadsOperand nested (Formula.callText word inner) value rest := by
  have facts : ∀ c ∈ ['m', 'b'], opensOperand c = true ∧ c ∉ ['(', 'i', 'n', 'N'] := by decide
  obtain ⟨opensFirst, apart⟩ := facts c member
  obtain ⟨later, same⟩ := List.head?_eq_some_iff.mp first
  have text : Formula.callText word inner ++ rest =
      word.toList ++ '(' :: (inner ++ ')' :: rest) := by
    simp [Formula.callText, Formula.parenthesized]
  have opens : Opens (Formula.callText word inner) := by
    rw [Formula.callText, same]
    exact ⟨c, _, rfl, opensFirst⟩
  have different {d : Char} (early : d ∈ ['(', 'i', 'n', 'N']) :
      (Formula.callText word inner ++ rest).head? ≠ some d := by
    rw [Formula.callText, same]
    intro head
    cases head
    exact apart early
  have start : blank (Formula.callText word inner ++ rest) =
      .done () (Formula.callText word inner ++ rest) := by
    rw [blank, (opens.append rest).skip_blank]
  refine .of_primary opens ?_ ?_ stops
  · exact or_else_both_miss (keyword_misses_head (c := 'n') rfl (different (by decide)))
      (keyword_misses_head (c := 'N') rfl (different (by decide)))
  · rw [primary, bind_done start]
    apply expecting_done
    refine (or_else_misses (bind_misses
      (exactly_misses_head (c := '(') rfl (different (by decide))))).trans ?_
    refine (or_else_misses (bind_misses
      (keyword_misses_head (c := 'i') rfl (different (by decide))))).trans ?_
    rw [text]
    exact or_else_done read

theorem extreme_call_read (op : Arithmetic) {first : Formula} {others : List Formula}
    (rest : List Char)
    (reads : ∀ formula ∈ first :: others, Reads depth formula) :
    extremeCall op (formulaWithin (depth + 1))
        (op.symbol.toList ++
          '(' :: (Formula.joined ", " ((first :: others).map Formula.chars) ++ ')' :: rest)) =
      .done (.arithmetic op ((first :: others).map Formula.reread)) rest := by
  have operands := separated_read (c := ')') (by decide) rest reads
  rw [extremeCall, bind_done (call_start_read op.symbol _), bind_done (commit_done operands),
    bind_done (closing_read rest)]
  rfl

theorem extreme_read {op : Arithmetic} (isCall : op = .least ∨ op = .greatest) {first : Formula}
    {others : List Formula} (reads : ∀ formula ∈ first :: others, Reads depth formula)
    (stops : Stops operandMarks [] rest) :
    ReadsOperand (formulaWithin (depth + 1))
      (Formula.callText op.symbol (Formula.joined ", " ((first :: others).map Formula.chars)))
      (.arithmetic op ((first :: others).map Formula.reread)) rest := by
  have read := extreme_call_read op rest reads
  rcases isCall with same | same
  · subst same
    exact .call (c := 'm') rfl (by decide) (or_else_done read) stops
  · subst same
    refine .call (c := 'm') rfl (by decide) ?_ stops
    have noLeast {text : List Char} : (extremeCall .least (formulaWithin (depth + 1))).Misses
        (Arithmetic.greatest.symbol.toList ++ text) :=
      bind_misses (bind_misses (bind_misses (exactly_misses rfl)))
    exact (or_else_misses noLeast).trans (or_else_done read)

theorem truth_read {operand : Formula} (reads : Reads depth operand)
    (stops : Stops operandMarks [] rest) :
    ReadsOperand (formulaWithin (depth + 1)) (Formula.callText "bool" operand.chars)
      (.truth operand.reread) rest := by
  have closes : Stops comparisonMarks disjunctionWords (')' :: rest) := .close (by decide)
  have inner := reads.whole closes
  have read : truthCall (formulaWithin (depth + 1))
      ("bool".toList ++ '(' :: (operand.chars ++ ')' :: rest)) =
      .done (.truth operand.reread) rest := by
    rw [truthCall, bind_done (call_start_read "bool" _), bind_done (commit_done inner),
      bind_done (closing_read rest)]
    rfl
  have noCall {c : Char} (word : String) (first : word.toList.head? = some c) (different : 'b' ≠ c)
      (text : List Char) : (callStart word).Misses ("bool".toList ++ text) := by
    apply call_start_misses_head first
    intro head
    cases head
    exact different rfl
  refine .call (c := 'b') rfl (by decide) ?_ stops
  refine (or_else_misses (bind_misses (noCall (c := 'm') "min" rfl (by decide) _))).trans ?_
  refine (or_else_misses (bind_misses (noCall (c := 'm') "max" rfl (by decide) _))).trans ?_
  refine (or_else_misses (bind_misses (noCall (c := 's') "sum" rfl (by decide) _))).trans ?_
  exact read

def branchChars (branch : Formula × Formula) : List Char :=
  branch.1.chars ++ (" then ".toList ++ branch.2.chars)

def rereadBranch (branch : Formula × Formula) : Formula × Formula :=
  (branch.1.reread, branch.2.reread)

abbrev ReadsBranch (depth : Nat) (branch : Formula × Formula) : Prop :=
  Reads depth branch.1 ∧ Reads depth branch.2

def elseChars : Option Formula → List Char
  | none => []
  | some otherwise => " else ".toList ++ otherwise.chars

theorem else_chars_none : elseChars none = [] := rfl

theorem else_chars_some (formula : Formula) :
    elseChars (some formula) = " else ".toList ++ formula.chars := rfl

theorem branches_text_elif (branches : List (Formula × Formula)) :
    Formula.branchesText " elif " (Formula.charsBranches branches) =
      branches.flatMap fun branch => " elif ".toList ++ branchChars branch := by
  induction branches with
  | nil => rw [Formula.charsBranches, Formula.branchesText, List.flatMap_nil]
  | cons branch rest ih =>
      obtain ⟨condition, consequence⟩ := branch
      rw [Formula.charsBranches, Formula.branchesText, ih, List.flatMap_cons, branchChars]
      simp only [List.append_assoc]

theorem reread_branches_eq_map (branches : List (Formula × Formula)) :
    Formula.rereadBranches branches = branches.map rereadBranch := by
  induction branches with
  | nil => rw [Formula.rereadBranches, List.map_nil]
  | cons branch rest ih =>
      obtain ⟨condition, consequence⟩ := branch
      rw [Formula.rereadBranches, ih, List.map_cons, rereadBranch]

theorem branch_read {branch : Formula × Formula} (reads : ReadsBranch depth branch)
    (stops : Stops comparisonMarks disjunctionWords rest) :
    Script.branch (formulaWithin (depth + 1)) (' ' :: (branchChars branch ++ rest)) =
      .done (rereadBranch branch) rest := by
  have behind : Stops comparisonMarks disjunctionWords
      (" then ".toList ++ (branch.2.chars ++ rest)) := .keyword "then" (by decide) (by decide)
  have condition : formulaWithin (depth + 1) (' ' :: (branchChars branch ++ rest)) =
      .done branch.1.reread (" then ".toList ++ (branch.2.chars ++ rest)) := by
    rw [SkipsSpace.formula_within, branchChars, List.append_assoc, List.append_assoc]
    exact reads.1.whole behind
  have skipped : blank (" then ".toList ++ (branch.2.chars ++ rest)) =
      .done () ("then".toList ++ ' ' :: (branch.2.chars ++ rest)) :=
    keyword_skip_blank "then" (c := 't') rfl rfl _
  have word : keyword "then" ("then".toList ++ ' ' :: (branch.2.chars ++ rest)) =
      .done () (' ' :: (branch.2.chars ++ rest)) := keyword_done (ends_space _)
  have consequence : formulaWithin (depth + 1) (' ' :: (branch.2.chars ++ rest)) =
      .done branch.2.reread rest := by
    rw [SkipsSpace.formula_within]
    exact reads.2.whole stops
  rw [Script.branch, bind_done (commit_done condition), bind_done skipped,
    bind_done (expecting_done (commit_done word)), bind_done (commit_done consequence)]
  rfl

theorem elif_read {branch : Formula × Formula} (reads : ReadsBranch depth branch)
    (stops : Stops comparisonMarks disjunctionWords rest) :
    (do blank; keyword "elif"; commit (Script.branch (formulaWithin (depth + 1))) :
      Reader (Formula × Formula)) (" elif ".toList ++ (branchChars branch ++ rest)) =
      .done (rereadBranch branch) rest := by
  have skipped : blank (" elif ".toList ++ (branchChars branch ++ rest)) =
      .done () ("elif".toList ++ ' ' :: (branchChars branch ++ rest)) :=
    keyword_skip_blank "elif" (c := 'e') rfl rfl _
  have word : keyword "elif" ("elif".toList ++ ' ' :: (branchChars branch ++ rest)) =
      .done () (' ' :: (branchChars branch ++ rest)) := keyword_done (ends_space _)
  rw [bind_done skipped, bind_done word, commit_done (branch_read reads stops)]

theorem else_read {otherwise : Option Formula} (reads : ∀ formula ∈ otherwise, Reads depth formula) :
    optional (do blank; keyword "else"; commit (formulaWithin (depth + 1)))
        (elseChars otherwise ++ ')' :: rest) =
      .done (otherwise.map Formula.reread) (')' :: rest) := by
  cases otherwise with
  | none =>
      refine optional_misses (blank_then_misses ?_)
      rw [else_chars_none, List.nil_append, skip_blank_mark (by decide)]
      exact bind_misses (keyword_misses_head (c := 'e') rfl (by simp))
  | some formula =>
      have skipped : blank (" else ".toList ++ (formula.chars ++ ')' :: rest)) =
          .done () ("else".toList ++ ' ' :: (formula.chars ++ ')' :: rest)) :=
        keyword_skip_blank "else" (c := 'e') rfl rfl _
      have word : keyword "else" ("else".toList ++ ' ' :: (formula.chars ++ ')' :: rest)) =
          .done () (' ' :: (formula.chars ++ ')' :: rest)) := keyword_done (ends_space _)
      have read : formulaWithin (depth + 1) (' ' :: (formula.chars ++ ')' :: rest)) =
          .done formula.reread (')' :: rest) := by
        rw [SkipsSpace.formula_within]
        exact (reads formula rfl).whole (.close (by decide))
      apply optional_done
      rw [else_chars_some, List.append_assoc, bind_done skipped, bind_done word, commit_done read]

theorem conditional_read (rest : List Char) {first : Formula × Formula}
    {others : List (Formula × Formula)} {otherwise : Option Formula}
    (reads : ∀ branch ∈ first :: others, ReadsBranch depth branch)
    (readsElse : ∀ formula ∈ otherwise, Reads depth formula) :
    conditional (formulaWithin (depth + 1))
        ("if ".toList ++ (branchChars first ++
          ((others.flatMap fun branch => " elif ".toList ++ branchChars branch) ++
            (elseChars otherwise ++ ')' :: rest)))) =
      .done (.choose ((first :: others).map rereadBranch) (otherwise.map Formula.reread))
        (')' :: rest) := by
  have between : ∀ more, Stops comparisonMarks disjunctionWords (" elif ".toList ++ more) :=
    fun more => .keyword "elif" (by decide) (by decide)
  have last : Stops comparisonMarks disjunctionWords (elseChars otherwise ++ ')' :: rest) := by
    cases otherwise with
    | none => exact .close (by decide)
    | some formula =>
        rw [else_chars_some, List.append_assoc]
        exact .keyword "else" (by decide) (by decide)
  have noElif : (do blank; keyword "elif"; commit (Script.branch (formulaWithin (depth + 1))) :
      Reader (Formula × Formula)).Misses (elseChars otherwise ++ ')' :: rest) := by
    refine blank_then_misses (bind_misses ?_)
    cases otherwise with
    | none =>
        rw [else_chars_none, List.nil_append, skip_blank_mark (by decide)]
        exact keyword_misses_head (c := 'e') rfl (by simp)
    | some formula =>
        have skipped : skipBlank (elseChars (some formula) ++ ')' :: rest) =
            "else".toList ++ ' ' :: (formula.chars ++ ')' :: rest) := by
          rw [else_chars_some, List.append_assoc]
          exact (skip_blank_space _).trans (skip_blank_mark (c := 'e') (by decide) _)
        rw [skipped]
        exact bind_misses (exactly_misses rfl)
  have word : keyword "if" ("if".toList ++ ' ' :: (branchChars first ++
      ((others.flatMap fun branch => " elif ".toList ++ branchChars branch) ++
        (elseChars otherwise ++ ')' :: rest)))) = _ := keyword_done (ends_space _)
  have start := branch_read (reads first (List.mem_cons_self))
    (good_separated branchChars between last others)
  have repeats := repeats_separated branchChars between last others rereadBranch
    (fun branch member rest stops => elif_read (reads branch (List.mem_cons_of_mem _ member)) stops)
    (List.cons_ne_nil _ _) noElif
  refine (bind_done word).trans ?_
  rw [bind_done start, bind_done (many_repeats repeats), bind_done (else_read readsElse)]
  rfl

theorem choose_read {first : Formula × Formula} {others : List (Formula × Formula)}
    {otherwise : Option Formula} (reads : ∀ branch ∈ first :: others, ReadsBranch depth branch)
    (readsElse : ∀ formula ∈ otherwise, Reads depth formula) :
    disjunction (formulaWithin (depth + 1))
        ("if ".toList ++ (branchChars first ++
          ((others.flatMap fun branch => " elif ".toList ++ branchChars branch) ++
            (elseChars otherwise ++ ')' :: rest)))) =
      .done (.choose ((first :: others).map rereadBranch) (otherwise.map Formula.reread))
        (')' :: rest) := by
  have read := conditional_read rest reads readsElse
  have stops : Stops comparisonMarks disjunctionWords (')' :: rest) := .close (by decide)
  revert read
  generalize branchChars first ++
    ((others.flatMap fun branch => " elif ".toList ++ branchChars branch) ++
      (elseChars otherwise ++ ')' :: rest)) = text
  intro read
  have opens : Opens ("if ".toList ++ text) := ⟨'i', _, rfl, by decide⟩
  have start : blank ("if ".toList ++ text) = .done () ("if ".toList ++ text) := by
    rw [blank, opens.skip_blank]
  have noParenthesis : (exactly "(").Misses ("if ".toList ++ text) := exactly_misses rfl
  have noNot : (eitherCase "not" "NOT").Misses ("if ".toList ++ text) :=
    or_else_both_miss (bind_misses (exactly_misses rfl)) (bind_misses (exactly_misses rfl))
  have primary : primary (formulaWithin (depth + 1)) ("if ".toList ++ text) = .done
      (.choose ((first :: others).map rereadBranch) (otherwise.map Formula.reread))
      (')' :: rest) := by
    rw [primary, bind_done start]
    exact expecting_done ((or_else_misses (bind_misses noParenthesis)).trans (or_else_done read))
  exact disjunction_of_defaulted opens noNot
    (defaulted_primary primary stops.sum.product.operand) stops

theorem primary_misses : (primary nested).Misses (']' :: rest) := by
  have apart {c : Char} (different : ']' ≠ c) : (']' :: rest).head? ≠ some c := by
    intro first
    cases first
    exact different rfl
  have ends {accepts : Char → Bool} (refused : accepts ']' = false) :
      Ends accepts (']' :: rest) := by
    intro c first
    cases first
    exact refused
  have begins : blank (']' :: rest) = .done () (']' :: rest) := by
    rw [blank, skip_blank_mark (by decide)]
  have noKeyword {word : String} (c : Char) (first : word.toList.head? = some c)
      (different : ']' ≠ c) : (keyword word).Misses (']' :: rest) :=
    keyword_misses_head first (apart different)
  refine bind_then_misses begins (expecting_misses ?_)
  refine or_else_both_miss (bind_misses (exactly_misses_head (c := '(') rfl (apart (by decide)))) ?_
  refine or_else_both_miss (bind_misses (noKeyword 'i' rfl (by decide))) ?_
  refine or_else_both_miss (call_misses ?_) (or_else_both_miss (bind_misses ?_) (bind_misses ?_))
  · intro word member
    obtain ⟨c, among, first⟩ := calls_first word member
    have different : ∀ c ∈ ['m', 's', 'b'], ']' ≠ c := by decide
    exact call_start_misses_head first (apart (different c among))
  · refine or_else_both_miss (bind_misses (string_literal_misses (apart (by decide)))) ?_
    refine or_else_both_miss (bind_misses (noKeyword 't' rfl (by decide))) ?_
    refine or_else_both_miss (bind_misses (noKeyword 'f' rfl (by decide))) ?_
    refine or_else_both_miss (bind_misses (noKeyword 'n' rfl (by decide))) ?_
    exact bind_misses (number_misses (ends rfl))
  · exact bind_misses (some_run_misses (ends rfl))

theorem formula_within_misses : (formulaWithin (depth + 1)).Misses (']' :: rest) := by
  have begins : blank (']' :: rest) = .done () (']' :: rest) := by
    rw [blank, skip_blank_mark (by decide)]
  have noSign : (one isSign).Misses (']' :: rest) := one_misses (by intro c first; cases first; rfl)
  have noOperand : (signed (formulaWithin depth)).Misses (']' :: rest) := by
    refine bind_then_misses begins (bind_then_misses (many_misses (bind_misses noSign)) ?_)
    rw [List.isEmpty_nil, if_pos rfl]
    exact bind_misses (bind_misses primary_misses)
  have noKeyword {word : String} (c : Char) (first : word.toList.head? = some c)
      (different : ']' ≠ c) : (keyword word).Misses (']' :: rest) := by
    apply keyword_misses_head first
    intro head
    cases head
    exact different rfl
  have noNot : (eitherCase "not" "NOT").Misses (']' :: rest) :=
    or_else_both_miss (noKeyword 'n' rfl (by decide)) (noKeyword 'N' rfl (by decide))
  have noNegation : (negated (formulaWithin depth)).Misses (']' :: rest) := by
    refine bind_then_misses begins (bind_then_misses (many_misses (bind_misses noNot)) ?_)
    rw [List.isEmpty_nil, if_pos rfl]
    exact bind_misses (bind_misses (bind_misses (bind_misses noOperand)))
  exact bind_then_misses begins (bind_misses (bind_misses noNegation))

theorem candidates_read {formulas : List Formula}
    (reads : ∀ formula ∈ formulas, Reads depth formula) :
    candidates (formulaWithin (depth + 1))
        ('[' :: (Formula.joined ", " (formulas.map Formula.chars) ++ ']' :: rest)) =
      .done (formulas.map Formula.reread) rest := by
  have opening : exactly "[" ('[' :: (Formula.joined ", " (formulas.map Formula.chars) ++
      ']' :: rest)) = .done () (Formula.joined ", " (formulas.map Formula.chars) ++ ']' :: rest) :=
    exactly_append "[" _
  have items : separatedOrNone (formulaWithin (depth + 1)) comma
      (Formula.joined ", " (formulas.map Formula.chars) ++ ']' :: rest) =
      .done (formulas.map Formula.reread) (']' :: rest) := by
    cases formulas with
    | nil => exact separated_or_none_misses formula_within_misses
    | cons first others => exact or_else_done (separated_read (by decide) rest reads)
  have skipped : blank (']' :: rest) = .done () (']' :: rest) := by
    rw [blank, skip_blank_mark (by decide)]
  have closing : exactly "]" (']' :: rest) = .done () rest := exactly_append "]" rest
  rw [candidates, bind_done opening, bind_done items, bind_done skipped, bind_done closing]
  rfl

theorem comparison_in {needle : List Char} {first : Formula}
    (needles : sum nested (needle ++ (" in".toList ++ ' ' :: text)) =
      .done first (" in".toList ++ ' ' :: text))
    (skipped : skipBlank (' ' :: text) = text)
    (read : container nested first text = .done value rest) :
    comparison nested (needle ++ (" in".toList ++ ' ' :: text)) = .done value rest := by
  have behind : Stops comparisonMarks [] (" in".toList ++ ' ' :: text) :=
    .keyword "in" (by decide) (by decide)
  have noSymbol : optional (do blank; comparisonSymbol) (" in".toList ++ ' ' :: text) =
      .done none (" in".toList ++ ' ' :: text) :=
    optional_misses (blank_then_misses
      (comparison_symbol_misses fun c member => behind.noMark c (List.mem_append_left _ member)))
  have word : (do blank; keyword "in" : Reader Unit) (" in".toList ++ ' ' :: text) =
      .done () (' ' :: text) :=
    (bind_done (keyword_skip_blank "in" (c := 'i') rfl rfl _)).trans (keyword_done (ends_space text))
  have inner : blank (' ' :: text) = .done () text := by rw [blank, skipped]
  rw [comparison, bind_done needles, bind_done noSymbol]
  dsimp only
  rw [bind_done (optional_done word)]
  dsimp only
  rw [bind_done inner]
  exact commit_done read

theorem in_read {needle : Formula} (reads : Reads depth needle)
    (skipped : skipBlank (' ' :: text) = text)
    (read : container (formulaWithin depth) needle.reread text = .done value rest)
    (stops : Stops comparisonMarks disjunctionWords rest) :
    disjunction (formulaWithin depth) (needle.chars ++ (" in".toList ++ ' ' :: text)) =
      .done value rest := by
  have behind : Stops comparisonMarks [] (" in".toList ++ ' ' :: text) :=
    .keyword "in" (by decide) (by decide)
  have opening := reads.operand behind.sum.product.operand
  exact disjunction_of_comparison opening.start opening.noNot
    (comparison_in (reads.sum behind.sum) skipped read) stops

theorem among_read {needle : Formula} {formulas : List Formula} (reads : Reads (depth + 1) needle)
    (readsEach : ∀ formula ∈ formulas, Reads depth formula)
    (stops : Stops comparisonMarks disjunctionWords rest) :
    disjunction (formulaWithin (depth + 1)) (needle.chars ++ (" in".toList ++
        ' ' :: '[' :: (Formula.joined ", " (formulas.map Formula.chars) ++ ']' :: rest))) =
      .done (.among needle.reread (formulas.map Formula.reread)) rest := by
  refine in_read reads ((skip_blank_space _).trans (skip_blank_mark (by decide) _)) ?_ stops
  refine or_else_done ?_
  rw [bind_done (candidates_read readsEach)]
  rfl

theorem contains_read {haystack needle : Formula} (reads : Reads depth needle)
    (readsHaystack : Reads depth haystack) (stops : Stops comparisonMarks disjunctionWords rest) :
    disjunction (formulaWithin depth)
        (needle.chars ++ (" in".toList ++ ' ' :: (haystack.chars ++ rest))) =
      .done (.contains haystack.reread needle.reread) rest := by
  have second := readsHaystack.operand stops.sum.product.operand
  refine in_read reads ((skip_blank_space _).trans second.start) ?_ stops
  have noList : (candidates (formulaWithin depth)).Misses (haystack.chars ++ rest) :=
    bind_misses (exactly_misses_head (c := '[') rfl second.noList)
  refine (or_else_misses (bind_misses noList)).trans ?_
  rw [bind_done (second.sum stops.sum)]
  rfl

end Tariff.Script
