import Tariff.Script.Document
import Tariff.Proofs.Script.Reading

set_option autoImplicit false

namespace Tariff.Script

def Reading.rest {α : Type} : Reading α → List Char
  | .done _ rest => rest
  | .missed rest _ => rest
  | .stopped rest _ => rest

namespace Reader

variable {α β : Type} {read : Reader α}

theorem rest_commit (text : List Char) : (commit read text).rest = (read text).rest := by
  rw [commit]
  cases read text <;> rfl

theorem rest_expecting (what : String) (text : List Char) :
    (expecting what read text).rest = (read text).rest := by
  rw [expecting]
  cases read text <;> rfl

def Advances (read : Reader α) : Prop := ∀ text, (read text).rest <:+ text

namespace Advances

theorem of_eq (advances : Advances read) {text : List Char} {reading : Reading α}
    (same : read text = reading) : reading.rest <:+ text := same ▸ advances text

theorem pure (value : α) : Advances (Pure.pure value : Reader α) := fun text => List.suffix_refl text

theorem miss : Advances (Reader.miss : Reader α) := fun text => List.suffix_refl text

theorem stop : Advances (Reader.stop : Reader α) := fun text => List.suffix_refl text

theorem bind {next : α → Reader β} (first : Advances read) (second : ∀ value, Advances (next value)) :
    Advances (read >>= next) := by
  intro text
  rw [bind_apply]
  cases reading : read text with
  | done value middle => exact (second value middle).trans (first.of_eq reading)
  | missed left complaint => exact first.of_eq reading
  | stopped left complaint => exact first.of_eq reading

theorem commit (advances : Advances read) : Advances (commit read) := by
  intro text
  rw [rest_commit]
  exact advances text

theorem expecting {what : String} (advances : Advances read) : Advances (expecting what read) := by
  intro text
  rw [rest_expecting]
  exact advances text

theorem or_else {second : Reader α} (advances : Advances read) (alsoAdvances : Advances second) :
    Advances (read <|> second) := by
  intro text
  change (Reader.orElse read second text).rest <:+ text
  rw [Reader.orElse]
  cases reading : read text with
  | done value rest => exact advances.of_eq reading
  | missed rest complaint => exact alsoAdvances text
  | stopped rest complaint => exact advances.of_eq reading

theorem optional (advances : Advances read) : Advances (optional read) := by
  intro text
  rw [Reader.optional]
  cases reading : read text with
  | done value rest => exact advances.of_eq reading
  | missed rest complaint => exact List.suffix_refl text
  | stopped rest complaint => exact advances.of_eq reading

theorem up_to (advances : Advances read) (limit : Nat) : Advances (upTo read limit) := by
  induction limit with
  | zero => exact fun text => List.suffix_refl text
  | succ limit ih =>
      intro text
      rw [up_to_succ]
      cases reading : read text with
      | missed rest complaint => exact List.suffix_refl text
      | stopped rest complaint => exact advances.of_eq reading
      | done value middle =>
          have within := advances.of_eq reading
          dsimp only
          cases others : Reader.upTo read limit middle with
          | done values rest => exact (ih.of_eq others).trans within
          | missed rest complaint => exact (ih.of_eq others).trans within
          | stopped rest complaint => exact (ih.of_eq others).trans within

theorem many (advances : Advances read) : Advances (many read) := fun text =>
  advances.up_to text.length text

theorem separated {separator : Reader β} (advances : Advances read) (between : Advances separator) :
    Advances (separated read separator) :=
  advances.bind fun _ => (many (between.bind fun _ => advances)).bind fun _ => pure _

theorem separated_or_none {separator : Reader β} (advances : Advances read)
    (between : Advances separator) : Advances (separatedOrNone read separator) :=
  or_else (advances.separated between) (pure [])

theorem one (accepts : Char → Bool) : Advances (one accepts) := by
  intro text
  cases text with
  | nil => exact List.suffix_refl []
  | cons c rest =>
      by_cases accepted : accepts c = true
      · simp [Reader.one, accepted, Reading.rest]
      · simp [Reader.one, accepted, Reading.rest]

theorem run (accepts : Char → Bool) : Advances (run accepts) := fun _ =>
  List.dropWhile_suffix accepts

theorem some_run (accepts : Char → Bool) : Advances (someRun accepts) := by
  intro text
  rw [Reader.someRun]
  split
  · exact List.suffix_refl text
  · exact List.dropWhile_suffix accepts

theorem exactly (word : String) : Advances (exactly word) := by
  intro text
  rw [Reader.exactly]
  cases found : behind? word.toList text with
  | none => exact List.suffix_refl text
  | some rest => exact ⟨word.toList, (behind?_eq_some found).symm⟩

theorem not_before (refused : Char → Bool) : Advances (notBefore refused) := by
  intro text
  cases text with
  | nil => exact List.suffix_refl []
  | cons c rest =>
      by_cases accepted : refused c = true
      · simp [Reader.notBefore, accepted, Reading.rest]
      · simp [Reader.notBefore, accepted, Reading.rest]

end Advances

end Reader

open Reader

mutual

theorem skip_blank_suffix (text : List Char) : skipBlank text <:+ text := by
  cases text with
  | nil => exact List.suffix_refl []
  | cons c rest =>
      have behind : rest <:+ c :: rest := List.suffix_cons c rest
      by_cases mark : c = '#'
      · rw [skipBlank, if_pos mark]
        exact skip_comment_suffix (c :: rest) rest behind
      · by_cases space : isSpace c = true
        · rw [skipBlank, if_neg mark, if_pos space]
          exact (skip_blank_suffix rest).trans behind
        · simp [skipBlank, mark, space]

theorem skip_comment_suffix (start text : List Char) (within : text <:+ start) :
    skipComment start text <:+ start := by
  unfold skipComment
  split
  · exact List.nil_suffix
  · rename_i rest
    exact (skip_blank_suffix rest).trans ((List.suffix_cons _ rest).trans within)
  · rename_i rest
    exact (skip_blank_suffix rest).trans
      ((List.suffix_cons _ rest).trans ((List.suffix_cons _ _).trans within))
  · exact List.suffix_refl start
  · rename_i c rest _ _ _
    exact skip_comment_suffix start rest ((List.suffix_cons c rest).trans within)

end

theorem blank_advances : Advances blank := skip_blank_suffix

theorem keyword_advances (word : String) : Advances (keyword word) :=
  (Advances.exactly word).bind fun _ => .not_before isWordChar

theorem name_advances : Advances name :=
  (Advances.some_run startsWord).bind fun _ => (Advances.run isWordChar).bind fun _ => .pure _

theorem path_advances : Advances path := by
  refine (Advances.some_run startsWord).bind fun start => (Advances.run isPathChar).bind fun rest => ?_
  split
  · exact .miss
  · exact .pure _

theorem string_tail_advances : Advances stringTail := by
  intro text
  fun_induction stringTail text with
  | case1 => exact List.suffix_refl []
  | case2 rest => exact List.suffix_cons '"' rest
  | case3 => exact List.nil_suffix
  | case4 c rest value left read ih | case5 c rest left complaint read ih
  | case6 c rest left complaint read ih =>
      rw [read] at ih
      exact ih.trans ((List.suffix_cons c rest).trans (List.suffix_cons '\\' _))
  | case7 c rest noQuote notLast noEscape value left read ih
  | case8 c rest noQuote notLast noEscape left complaint read ih
  | case9 c rest noQuote notLast noEscape left complaint read ih =>
      rw [read] at ih
      exact ih.trans (List.suffix_cons c rest)

theorem string_literal_advances : Advances stringLiteral :=
  (Advances.exactly "\"").bind fun _ => string_tail_advances.bind fun _ => .pure _

theorem number_text_advances : Advances numberText := by
  have digits : Advances (someRun Decimal.isDigit) := .some_run Decimal.isDigit
  have fraction : Advances (do exactly "."; someRun Decimal.isDigit : Reader (List Char)) :=
    (Advances.exactly ".").bind fun _ => digits
  refine digits.bind fun whole => fraction.optional.bind fun found => ?_
  cases found with
  | none => exact .pure _
  | some digits => exact .pure _

theorem number_advances : Advances number := by
  intro text
  rw [number]
  cases reading : numberText text with
  | missed rest complaint => exact number_text_advances.of_eq reading
  | stopped rest complaint => exact number_text_advances.of_eq reading
  | done digits rest =>
      dsimp only
      split
      · exact number_text_advances.of_eq reading
      · exact List.suffix_refl text

theorem literal_advances : Advances literal := by
  have word (word : String) (value : Scalar) :
      Advances (do keyword word; return value : Reader Scalar) :=
    (keyword_advances word).bind fun _ => .pure value
  refine (string_literal_advances.bind fun _ => .pure _).or_else ?_
  refine (word "true" _).or_else ((word "false" _).or_else ((word "null" _).or_else ?_))
  exact number_advances.bind fun _ => .pure _

theorem signed_literal_advances : Advances signedLiteral := by
  refine blank_advances.bind fun _ => (Advances.exactly "-").optional.bind fun minus => ?_
  cases minus with
  | none => exact literal_advances.expecting
  | some found =>
      exact blank_advances.bind fun _ => number_advances.commit.bind fun _ => .pure _

theorem comma_advances : Advances comma := blank_advances.bind fun _ => .exactly ","

theorem closing_advances : Advances closing :=
  blank_advances.bind fun _ => (Advances.exactly ")").commit

theorem call_start_advances (word : String) : Advances (callStart word) :=
  (keyword_advances word).bind fun _ => blank_advances.bind fun _ => .exactly "("

theorem sum_call_advances : Advances sumCall := by
  refine (call_start_advances "sum").bind fun _ => ?_
  refine (blank_advances.bind fun _ => name_advances).commit.expecting.bind fun rule => ?_
  exact closing_advances.bind fun _ => .pure _

theorem comparison_symbol_advances : Advances comparisonSymbol := by
  have symbol (comparison : Comparison) : Advances (symbol comparison) :=
    (Advances.exactly comparison.symbol).bind fun _ => .pure comparison
  exact (symbol _).or_else ((symbol _).or_else ((symbol _).or_else ((symbol _).or_else
    ((symbol _).or_else ((symbol _).or_else ((symbol _).or_else (symbol _)))))))

theorem either_case_advances (lower upper : String) : Advances (eitherCase lower upper) :=
  (keyword_advances lower).or_else (keyword_advances upper)

theorem with_default_advances (default : Scalar) (formula : Formula) :
    Advances (withDefault default formula) := by
  unfold withDefault
  split
  · exact .pure _
  · exact .stop

section

variable {nested : Reader Formula} (advances : Advances nested)

include advances

theorem branch_advances : Advances (branch nested) := by
  refine advances.commit.bind fun condition => blank_advances.bind fun _ => ?_
  refine (keyword_advances "then").commit.expecting.bind fun _ => ?_
  exact advances.commit.bind fun consequence => .pure _

theorem conditional_advances : Advances (conditional nested) := by
  have taken := branch_advances advances
  have elif : Advances (do blank; keyword "elif"; commit (branch nested)) :=
    blank_advances.bind fun _ => (keyword_advances "elif").bind fun _ => taken.commit
  have last : Advances (do blank; keyword "else"; commit nested) :=
    blank_advances.bind fun _ => (keyword_advances "else").bind fun _ => advances.commit
  refine (keyword_advances "if").bind fun _ => taken.bind fun first => elif.many.bind fun more => ?_
  exact last.optional.bind fun otherwise => .pure _

theorem extreme_call_advances (op : Arithmetic) : Advances (extremeCall op nested) := by
  refine (call_start_advances op.symbol).bind fun _ => ?_
  refine (advances.separated comma_advances).commit.bind fun operands => ?_
  exact closing_advances.bind fun _ => .pure _

theorem call_advances : Advances (call nested) := by
  have truth : Advances (truthCall nested) :=
    (call_start_advances "bool").bind fun _ => advances.commit.bind fun operand =>
      closing_advances.bind fun _ => .pure _
  exact (extreme_call_advances advances .least).or_else
    ((extreme_call_advances advances .greatest).or_else (sum_call_advances.or_else truth))

theorem primary_advances : Advances (primary nested) := by
  have inner : Advances (parenthesis nested) :=
    (Advances.exactly "(").bind fun _ => advances.bind fun inner =>
      closing_advances.bind fun _ => .pure _
  have value : Advances (do return .literal (← literal) : Reader Formula) :=
    literal_advances.bind fun _ => .pure _
  have field : Advances (do return .field (← path) none : Reader Formula) :=
    path_advances.bind fun _ => .pure _
  exact blank_advances.bind fun _ => .expecting (inner.or_else ((conditional_advances advances).or_else
    ((call_advances advances).or_else (value.or_else field))))

theorem defaulted_advances : Advances (defaulted nested) := by
  have marks : Advances (do blank; exactly "??" : Reader Unit) :=
    blank_advances.bind fun _ => .exactly "??"
  refine (primary_advances advances).bind fun formula => marks.optional.bind fun found => ?_
  cases found with
  | none => exact .pure _
  | some mark =>
      exact signed_literal_advances.commit.bind fun default => with_default_advances default formula

theorem signed_advances : Advances (signed nested) := by
  have sign : Advances (do let sign ← one isSign; blank; return sign : Reader Char) :=
    (Advances.one isSign).bind fun _ => blank_advances.bind fun _ => .pure _
  have operand := defaulted_advances advances
  refine blank_advances.bind fun _ => sign.many.bind fun signs => ?_
  dsimp only
  split
  · exact operand.bind fun _ => .pure _
  · exact operand.commit.bind fun _ => .pure _

theorem chain_advances (signs : Char → Bool) : Advances (chain signs nested) := by
  have step : Advances (do blank; let sign ← one signs; let right ← commit nested; return (sign, right)) :=
    blank_advances.bind fun _ => (Advances.one signs).bind fun _ =>
      advances.commit.bind fun _ => .pure _
  exact advances.bind fun first => step.many.bind fun more => .pure _

theorem sum_advances : Advances (sum nested) :=
  chain_advances (chain_advances (signed_advances advances) isProductSign) isSign

theorem container_advances (needle : Formula) : Advances (container nested needle) := by
  have listed : Advances (candidates nested) := by
    refine (Advances.exactly "[").bind fun _ => ?_
    refine (advances.separated_or_none comma_advances).bind fun formulas => ?_
    exact blank_advances.bind fun _ => (Advances.exactly "]").bind fun _ => .pure _
  exact (listed.bind fun _ => .pure _).or_else ((sum_advances advances).bind fun _ => .pure _)

theorem comparison_advances : Advances (comparison nested) := by
  have symbol : Advances (do blank; comparisonSymbol : Reader Comparison) :=
    blank_advances.bind fun _ => comparison_symbol_advances
  have word : Advances (do blank; keyword "in" : Reader Unit) :=
    blank_advances.bind fun _ => keyword_advances "in"
  refine (sum_advances advances).bind fun left => symbol.optional.bind fun compared => ?_
  cases compared with
  | some comparison => exact (sum_advances advances).commit.bind fun _ => .pure _
  | none =>
      refine word.optional.bind fun found => ?_
      cases found with
      | some mark => exact blank_advances.bind fun _ => (container_advances advances left).commit
      | none => exact .pure _

theorem negated_advances : Advances (negated nested) := by
  have word : Advances (do eitherCase "not" "NOT"; blank : Reader Unit) :=
    (either_case_advances "not" "NOT").bind fun _ => blank_advances
  have operand := comparison_advances advances
  refine blank_advances.bind fun _ => word.many.bind fun nots => ?_
  dsimp only
  split
  · exact operand.bind fun _ => .pure _
  · exact operand.commit.bind fun _ => .pure _

theorem joined_advances (lower upper : String) (build : List Formula → Formula) :
    Advances (joined lower upper build nested) := by
  have step : Advances (do blank; eitherCase lower upper; commit nested) :=
    blank_advances.bind fun _ => (either_case_advances lower upper).bind fun _ => advances.commit
  refine advances.bind fun first => step.many.bind fun more => ?_
  split
  · exact .pure _
  · exact .pure _

end

theorem formula_within_advances (depth : Nat) : Advances (formulaWithin depth) := by
  induction depth with
  | zero => exact .miss
  | succ depth ih =>
      have all := joined_advances (negated_advances ih) "and" "AND" .all
      exact blank_advances.bind fun _ => joined_advances all "or" "OR" .any

theorem formula_advances : Advances formula := fun text =>
  formula_within_advances (text.length + 1) text

theorem constant_statement_advances : Advances constantStatement := by
  refine (keyword_advances "pricing").bind fun _ => blank_advances.bind fun _ => ?_
  refine name_advances.commit.expecting.bind fun key => blank_advances.bind fun _ => ?_
  refine (Advances.exactly "=").commit.expecting.bind fun _ => ?_
  exact signed_literal_advances.commit.bind fun value => .pure _

theorem total_mark_advances : Advances totalMark := by
  refine blank_advances.bind fun _ => (Advances.exactly "(").bind fun _ => ?_
  refine blank_advances.bind fun _ => (keyword_advances "total").bind fun _ => ?_
  exact blank_advances.bind fun _ => (Advances.exactly ")").commit

theorem rule_statement_advances : Advances ruleStatement := by
  have scopeWord (scope : Scope) : Advances (scopeWord scope) :=
    (keyword_advances scope.name).bind fun _ => .pure scope
  have label : Advances (do blank; stringLiteral : Reader String) :=
    blank_advances.bind fun _ => string_literal_advances
  have body : Advances (expecting "rule body" (commit formula)) := formula_advances.commit.expecting
  refine ((scopeWord _).or_else (scopeWord _)).bind fun scope => blank_advances.bind fun _ => ?_
  refine name_advances.commit.expecting.bind fun name => label.optional.bind fun label => ?_
  refine total_mark_advances.optional.bind fun mark => ?_
  dsimp only
  split
  · exact .stop
  · refine blank_advances.bind fun _ => (Advances.exactly ":").commit.expecting.bind fun _ => ?_
    exact body.bind fun _ => .pure _

theorem statements_advance : Advances statements := by
  have step : Advances (do blank; constantStatement <|> ruleStatement) :=
    blank_advances.bind fun _ => constant_statement_advances.or_else rule_statement_advances
  exact step.many.bind fun found => blank_advances.bind fun _ => .pure _

end Tariff.Script
