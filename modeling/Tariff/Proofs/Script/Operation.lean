import Tariff.Proofs.Script.Constant
import Tariff.Proofs.Script.Precedence

set_option autoImplicit false

namespace Tariff.Script

open Reader

variable {nested : Reader Formula} {text rest : List Char} {value : Formula} {depth : Nat}

theorem escaped_read (plain rest : List Char) :
    stringTail (plain.flatMap WrittenLiteral.escaped ++ '"' :: rest) = .done plain rest := by
  induction plain with
  | nil => rfl
  | cons c more ih =>
      rw [List.flatMap_cons, List.append_assoc, WrittenLiteral.escaped]
      by_cases special : c = '"' ∨ c = '\\'
      · rw [if_pos special]
        rcases special with same | same
        · subst same
          exact string_tail_escape '"' ih
        · subst same
          exact string_tail_escape '\\' ih
      · rw [if_neg special]
        rw [not_or] at special
        exact string_tail_plain special.1 special.2 ih

theorem literal_escaped (value : String) (rest : List Char) :
    literal ('"' :: (value.toList.flatMap WrittenLiteral.escaped ++ '"' :: rest)) =
      .done (.text value) rest := by
  have quote : exactly "\"" ('"' :: (value.toList.flatMap WrittenLiteral.escaped ++ '"' :: rest)) =
      .done () (value.toList.flatMap WrittenLiteral.escaped ++ '"' :: rest) := exactly_append "\"" _
  have read : stringLiteral ('"' :: (value.toList.flatMap WrittenLiteral.escaped ++ '"' :: rest)) =
      .done value rest := by
    rw [stringLiteral, bind_done quote, bind_done (escaped_read _ _), String.ofList_toList]
    rfl
  refine or_else_done ?_
  rw [bind_done read]
  rfl

theorem signed_literal_space (text : List Char) :
    signedLiteral ('-' :: ' ' :: text) = signedLiteral ('-' :: text) := by
  have start (text : List Char) : blank ('-' :: text) = .done () ('-' :: text) := by
    rw [blank, skip_blank_mark (by decide)]
  have minus (text : List Char) : optional (exactly "-") ('-' :: text) = .done (some ()) text :=
    optional_done (exactly_append "-" text)
  rw [signedLiteral, bind_done (start _), bind_done (start _), bind_done (minus _),
    bind_done (minus _)]
  exact SkipsSpace.blank.bind text

theorem WrittenNumber.opens (number : WrittenNumber) : Opens number.chars :=
  Opens.digits number.numeral

theorem WrittenLiteral.read (spelled : WrittenLiteral) (ends : Ends isPathChar rest) :
    signedLiteral (spelled.chars ++ rest) = .done spelled.value rest := by
  cases spelled with
  | null => exact @signed_literal_read rest .null trivial ends
  | bool choice => exact @signed_literal_read rest (.bool choice) trivial ends
  | text value =>
      have opens : Opens ('"' :: (value.toList.flatMap escaped ++ '"' :: rest)) :=
        ⟨'"', _, rfl, by decide⟩
      have read := signed_literal_literal opens (literal_escaped value rest)
      simpa [WrittenLiteral.chars, WrittenLiteral.value] using read
  | number written =>
      exact signed_literal_literal (written.opens.append rest)
        (literal_number written.numeral written.plain ends)
  | negative written =>
      exact (signed_literal_space _).trans (signed_literal_minus written.numeral written.plain ends)

namespace Level.Reads

theorem of_operand (opens : Opens text)
    (noNot : ∀ rest, Ends isPathChar rest → (eitherCase "not" "NOT").Misses (text ++ rest))
    (read : ∀ rest, Stops operandMarks [] rest →
      defaulted (formulaWithin depth) (text ++ rest) = .done value rest) :
    Level.operand.Reads depth text value where
  begins := by
    obtain ⟨c, more, same, first⟩ := opens
    refine ⟨c, more, same, ?_, ?_⟩
    · simp only [opensOperand, Bool.or_eq_true, beq_iff_eq] at first
      rcases first with (word | same) | same
      · exact is_mark_of_word_char word
      · rw [same]
        decide
      · rw [same]
        decide
    · intro same
      subst same
      cases first
  noSign := by
    obtain ⟨c, more, same, first⟩ := opens
    intro _ d head
    rw [same] at head
    cases head
    cases sign : isSign c with
    | false => rfl
    | true =>
        rcases List.mem_cons.mp (sign_mem sign) with same | member
        · subst same
          cases first
        · rw [List.mem_singleton.mp member] at first
          cases first
  noNot := fun _ => noNot
  takes := read

theorem number (written : WrittenNumber) :
    Level.operand.Reads depth written.chars (.literal (.number written.value)) := by
  obtain ⟨c, more, same, digit⟩ := written.numeral.head
  have apart {d : Char} (rest : List Char) (noDigit : Decimal.isDigit d = false) :
      (written.chars ++ rest).head? ≠ some d := by
    rw [WrittenNumber.chars, same]
    intro first
    cases first
    rw [digit] at noDigit
    cases noDigit
  refine of_operand written.opens ?_ fun rest stops => defaulted_primary ?_ stops
  · intro rest _
    exact or_else_both_miss (keyword_misses_head (c := 'n') rfl (apart rest (by decide)))
      (keyword_misses_head (c := 'N') rfl (apart rest (by decide)))
  · refine primary_plain (written.opens.append rest) (apart rest (by decide))
      (keyword_misses_head (c := 'i') rfl (apart rest (by decide))) ?_ ?_
    · intro word member
      obtain ⟨c, among, starts⟩ := calls_first word member
      have noDigit : ∀ c ∈ ['m', 's', 'b'], Decimal.isDigit c = false := by decide
      exact call_start_misses_head starts (apart rest (noDigit c among))
    · refine or_else_done ?_
      have read : literal (written.chars ++ rest) = .done (.number written.value) rest :=
        literal_number written.numeral written.plain stops.ends
      rw [bind_done read]
      rfl

theorem path {path : String} (isPath : IsPath path.toList) :
    Level.operand.Reads depth path.toList (.field path none) :=
  of_operand (Opens.path isPath) (fun _ ends => path_no_not isPath ends) fun _ stops =>
    defaulted_primary (primary_path isPath (stops.mono (by decide) (List.Subset.refl _))) stops

theorem default {path : String} (isPath : IsPath path.toList) (spelled : WrittenLiteral) :
    Level.operand.Reads depth (path.toList ++ (" ?? ".toList ++ spelled.chars))
      (.field path (some spelled.value)) := by
  refine of_operand ((Opens.path isPath).append _) ?_ fun rest stops => ?_
  · intro rest _
    have ends : Ends isPathChar (" ?? ".toList ++ spelled.chars ++ rest) := by
      intro c first
      cases first
      decide
    rw [List.append_assoc]
    exact path_no_not isPath ends
  · have read : defaulted (formulaWithin depth)
        (path.toList ++ (" ?? ".toList ++ (spelled.chars ++ rest))) =
        .done (.field path (some spelled.value)) rest :=
      defaulted_default isPath (spelled.read stops.ends)
    simpa only [List.append_assoc] using read

theorem parenthesized (reads : Level.disjunction.Reads depth text value) :
    Level.operand.Reads (depth + 1) ('(' :: ' ' :: (text ++ [' ', ')'])) value := by
  refine of_operand ⟨'(', _, rfl, by decide⟩ ?_ fun rest stops => defaulted_primary ?_ stops
  · intro rest _
    exact or_else_both_miss (keyword_misses_head (c := 'n') rfl (by simp))
      (keyword_misses_head (c := 'N') rfl (by simp))
  · have closes : Stops comparisonMarks disjunctionWords (' ' :: ')' :: rest) :=
      .space (.close (by decide))
    have inner : formulaWithin (depth + 1) (' ' :: (text ++ ' ' :: ')' :: rest)) =
        .done value (' ' :: ')' :: rest) := by
      rw [SkipsSpace.formula_within, reads.whole closes]
    have opening : exactly "(" ('(' :: ' ' :: (text ++ ' ' :: ')' :: rest)) =
        .done () (' ' :: (text ++ ' ' :: ')' :: rest)) := exactly_append "(" _
    have closing : closing (' ' :: ')' :: rest) = .done () rest :=
      (SkipsSpace.blank.bind _).trans (closing_read rest)
    have read : parenthesis (formulaWithin (depth + 1)) ('(' :: ' ' :: (text ++ ' ' :: ')' :: rest)) =
        .done value rest := by
      rw [parenthesis, bind_done opening, bind_done inner, bind_done closing]
      rfl
    have start : blank ('(' :: ' ' :: (text ++ ' ' :: ')' :: rest)) =
        .done () ('(' :: ' ' :: (text ++ ' ' :: ')' :: rest)) := by
      rw [blank, skip_blank_mark (by decide)]
    have primary : primary (formulaWithin (depth + 1)) ('(' :: ' ' :: (text ++ ' ' :: ')' :: rest)) =
        .done value rest := by
      rw [primary, bind_done start]
      exact expecting_done (or_else_done read)
    simpa using primary

theorem minus {gap : List Char} (skipped : ∀ more, skipBlank (gap ++ more) = skipBlank more)
    (reads : Level.sign.Reads depth text value) :
    Level.sign.Reads depth ('-' :: (gap ++ text)) (applySign '-' value) where
  begins := ⟨'-', _, rfl, by decide, by decide⟩
  noSign := by
    intro same
    cases same
  noNot := by
    intro _ rest _
    exact or_else_both_miss (keyword_misses_head (c := 'n') rfl (by simp))
      (keyword_misses_head (c := 'N') rfl (by simp))
  takes := by
    intro rest stops
    have marked : Marked signMark (defaulted (formulaWithin depth)) applySign (text ++ rest) value
        rest := reads.takes rest stops
    have reached : blank (gap ++ (text ++ rest)) = .done () (text ++ rest) := by
      rw [blank, skipped, reads.start]
    have read : signMark ('-' :: (gap ++ (text ++ rest))) = .done '-' (text ++ rest) := by
      rw [signMark, bind_done (one_done (by decide)), bind_done reached]
      rfl
    have shorter : (text ++ rest).length < ('-' :: (gap ++ (text ++ rest))).length := by
      simp only [List.length_cons, List.length_append]
      omega
    rw [List.cons_append, List.append_assoc]
    exact marked.next read shorter

theorem negative (reads : Level.sign.Reads depth text value) :
    Level.sign.Reads depth ('-' :: ' ' :: text) (applySign '-' value) := by
  have spaced : Level.sign.Reads depth ('-' :: ([' '] ++ text)) (applySign '-' value) :=
    reads.minus skip_blank_space
  exact spaced

theorem extended {own place : Level} {more : List Char} {whole : Formula}
    (first : own.Reads depth text value) (looser : place.rank ≤ own.rank)
    (operation : place ≠ .operand)
    (takes : ∀ rest, place.Leaves rest →
      place.Takes (formulaWithin depth) (text ++ ' ' :: (more ++ rest)) whole rest) :
    place.Reads depth (text ++ ' ' :: more) whole where
  begins := by
    obtain ⟨c, later, same, mark⟩ := first.begins
    exact ⟨c, later ++ ' ' :: more, by rw [same, List.cons_append], mark⟩
  noSign := fun same => absurd same operation
  noNot := by
    intro tight rest _
    have ends : Ends isPathChar (' ' :: (more ++ rest)) := by
      intro c same
      cases same
      decide
    have misses := first.noNot (Nat.le_trans tight looser) _ ends
    simpa using misses
  takes := by
    intro rest leaves
    have read := takes rest leaves
    simpa using read

theorem chained_next {signs : Char → Bool} {operand : Reader Formula} {sign : Char}
    {left right : Formula} {second : List Char} (isOne : signs sign = true)
    (mark : isMark sign = true) (skips : SkipsSpace operand)
    (before : Chained signs operand text left (' ' :: sign :: ' ' :: (second ++ rest)))
    (read : operand (second ++ rest) = .done right rest) :
    Chained signs operand text (Formula.combine (operationOf sign) left right) rest :=
  before.next (chain_step isOne mark skips read)
    (by simp only [List.length_cons, List.length_append]; omega)

section

variable {second : List Char} {left right : Formula} {sign : Char}

theorem products (lefts : Level.product.Reads depth text left)
    (rights : Level.sign.Reads depth second right) (isProduct : isProductSign sign = true) :
    Level.product.Reads depth (text ++ ' ' :: sign :: ' ' :: second)
      (Formula.combine (operationOf sign) left right) := by
  have facts : ∀ sign ∈ ['*', '/', '%'], isMark sign = true ∧ isPathChar sign = false ∧
      sign ∉ operandMarks := by decide
  obtain ⟨mark, noPath, apart⟩ := facts sign (product_sign_mem isProduct)
  refine extended lefts (Nat.le_refl _) (by decide) fun rest stops => ?_
  have behind : Stops operandMarks [] (' ' :: sign :: ' ' :: (second ++ rest)) :=
    .space (.mark mark noPath apart List.not_mem_nil)
  exact chained_next isProduct mark SkipsSpace.signed (lefts.takes _ behind) (rights.signed stops)

theorem sums (lefts : Level.sum.Reads depth text left)
    (rights : Level.product.Reads depth second right) (isSum : isSign sign = true) :
    Level.sum.Reads depth (text ++ ' ' :: sign :: ' ' :: second)
      (Formula.combine (operationOf sign) left right) := by
  have facts : ∀ sign ∈ ['-', '+'], isMark sign = true ∧ isPathChar sign = false ∧
      sign ∉ productMarks := by decide
  obtain ⟨mark, noPath, apart⟩ := facts sign (sign_mem isSum)
  refine extended lefts (Nat.le_refl _) (by decide) fun rest stops => ?_
  have behind : Stops productMarks [] (' ' :: sign :: ' ' :: (second ++ rest)) :=
    .space (.mark mark noPath apart List.not_mem_nil)
  exact chained_next isSum mark SkipsSpace.product (lefts.takes _ behind) (rights.product stops)

theorem binary (op : Operator) (lefts : op.level.Reads depth text left)
    (rights : op.rightLevel.Reads depth second right) :
    op.level.Reads depth (text ++ ' ' :: op.sign :: ' ' :: second)
      (Formula.combine op.arithmetic left right) := by
  cases op with
  | plus => exact sums lefts rights rfl
  | minus => exact sums lefts rights rfl
  | times => exact products lefts rights rfl
  | divided => exact products lefts rights rfl
  | modulo => exact products lefts rights rfl

theorem compare (comparison : Comparison) (lefts : Level.sum.Reads depth text left)
    (rights : Level.sum.Reads depth second right) :
    Level.comparison.Reads depth (text ++ ' ' :: (comparison.symbol.toList ++ ' ' :: second))
      (.compare comparison left right) := by
  refine extended lefts (by decide) (by decide) fun rest stops => ?_
  have stops : Stops comparisonMarks comparisonWords rest := stops
  have read := comparison_sums (lefts.sum (.symbol comparison)) (rights.sum stops.sum)
  simpa only [Takes, List.append_assoc, List.cons_append] using read

theorem contains (needles : Level.sum.Reads depth text left)
    (haystacks : Level.sum.Reads depth second right) :
    Level.comparison.Reads depth (text ++ (" in".toList ++ ' ' :: second))
      (.contains right left) := by
  change Level.comparison.Reads depth (text ++ ' ' :: ("in".toList ++ ' ' :: second)) _
  refine extended needles (by decide) (by decide) fun rest stops => ?_
  have stops : Stops comparisonMarks comparisonWords rest := stops
  have behind : Stops comparisonMarks [] (" in".toList ++ ' ' :: (second ++ rest)) :=
    .keyword "in" (by decide) (by decide)
  have skipped : skipBlank (' ' :: (second ++ rest)) = second ++ rest := by
    rw [skip_blank_space, haystacks.start]
  have noList : (candidates (formulaWithin depth)).Misses (second ++ rest) :=
    bind_misses (exactly_misses_head (c := '[') rfl (haystacks.no_list rest))
  have found : container (formulaWithin depth) left (second ++ rest) =
      .done (.contains right left) rest := by
    refine (or_else_misses (bind_misses noList)).trans ?_
    rw [bind_done (haystacks.sum stops.sum)]
    rfl
  have read : Script.comparison (formulaWithin depth)
      (text ++ ' ' :: ("in".toList ++ ' ' :: (second ++ rest))) = .done (.contains right left) rest :=
    comparison_in (needles.sum behind.sum) skipped found
  simpa only [Takes, List.append_assoc, List.cons_append] using read

end

section

variable {ι : Type} {chars : ι → List Char} {reread : ι → Formula}

theorem listed_read {items : List ι} (rest : List Char)
    (reads : ∀ item ∈ items, Level.disjunction.Reads depth (chars item) (reread item)) :
    candidates (formulaWithin (depth + 1)) (Expression.listed (items.map chars) ++ rest) =
      .done (items.map reread) rest := by
  have skipped : blank (' ' :: ']' :: rest) = .done () (']' :: rest) := by
    rw [blank, skip_blank_space, skip_blank_mark (by decide)]
  have closing : exactly "]" (']' :: rest) = .done () rest := exactly_append "]" rest
  cases items with
  | nil =>
      have opening : exactly "[" ('[' :: ' ' :: ']' :: rest) = .done () (' ' :: ']' :: rest) :=
        exactly_append "[" _
      have misses : (formulaWithin (depth + 1)).Misses (' ' :: ']' :: rest) := by
        have none : (formulaWithin (depth + 1)).Misses (']' :: rest) := formula_within_misses
        obtain ⟨left, complaint, missed⟩ := none
        exact ⟨left, complaint, (SkipsSpace.formula_within _).trans missed⟩
      change candidates (formulaWithin (depth + 1)) ('[' :: ' ' :: ']' :: rest) = _
      rw [candidates, bind_done opening, bind_done (separated_or_none_misses misses),
        bind_done skipped, bind_done closing]
      rfl
  | cons first others =>
      have between : ∀ more, Stops comparisonMarks disjunctionWords (" , ".toList ++ more) :=
        fun more => .space (.close (c := ',') (by decide))
      have last : Stops comparisonMarks disjunctionWords (' ' :: ']' :: rest) :=
        .space (.close (by decide))
      have each : ∀ item ∈ first :: others, ∀ rest, Stops comparisonMarks disjunctionWords rest →
          formulaWithin (depth + 1) (' ' :: (chars item ++ rest)) = .done (reread item) rest := by
        intro item member rest stops
        rw [SkipsSpace.formula_within, (reads item member).whole stops]
      have step : ∀ item ∈ others, ∀ rest, Stops comparisonMarks disjunctionWords rest →
          (do let _ ← comma; formulaWithin (depth + 1) : Reader Formula)
            (" , ".toList ++ (chars item ++ rest)) = .done (reread item) rest := by
        intro item member rest stops
        have separator : comma (" , ".toList ++ (chars item ++ rest)) =
            .done () (' ' :: (chars item ++ rest)) :=
          (SkipsSpace.blank.bind _).trans (comma_read _)
        rw [bind_done separator, each item (List.mem_cons_of_mem _ member) rest stops]
      have noComma : comma.Misses (' ' :: ']' :: rest) := by
        refine blank_then_misses ?_
        rw [skip_blank_space, skip_blank_mark (by decide)]
        exact exactly_misses_head (c := ',') rfl (by simp)
      have repeats := repeats_separated chars between last others reread step
        (List.cons_ne_nil _ _) (bind_misses noComma)
      have start := each first List.mem_cons_self _ (good_separated chars between last others)
      have items : separatedOrNone (formulaWithin (depth + 1)) comma
          (' ' :: (chars first ++ (others.flatMap (fun item => " , ".toList ++ chars item) ++
            ' ' :: ']' :: rest))) =
          .done ((first :: others).map reread) (' ' :: ']' :: rest) :=
        or_else_done (separated_repeats start repeats)
      have text : Expression.listed ((first :: others).map chars) ++ rest =
          '[' :: ' ' :: (chars first ++ (others.flatMap (fun item => " , ".toList ++ chars item) ++
            ' ' :: ']' :: rest)) := by
        have nonempty : chars first :: others.map chars ≠ [] := List.cons_ne_nil _ _
        rw [List.map_cons, Expression.listed, ← List.map_cons, joined_map]
        · simp
        · exact nonempty
      have opening : exactly "[" ('[' :: ' ' :: (chars first ++
          (others.flatMap (fun item => " , ".toList ++ chars item) ++ ' ' :: ']' :: rest))) =
          .done () (' ' :: (chars first ++
            (others.flatMap (fun item => " , ".toList ++ chars item) ++ ' ' :: ']' :: rest))) :=
        exactly_append "[" _
      rw [text, candidates, bind_done opening, bind_done items, bind_done skipped,
        bind_done closing]
      rfl

theorem among {needle : Formula} {items : List ι}
    (needles : Level.sum.Reads (depth + 1) text needle)
    (reads : ∀ item ∈ items, Level.disjunction.Reads depth (chars item) (reread item)) :
    Level.comparison.Reads (depth + 1)
      (text ++ (" in".toList ++ ' ' :: Expression.listed (items.map chars)))
      (.among needle (items.map reread)) := by
  change Level.comparison.Reads (depth + 1)
    (text ++ ' ' :: ("in".toList ++ ' ' :: Expression.listed (items.map chars))) _
  refine extended needles (by decide) (by decide) fun rest stops => ?_
  have behind : Stops comparisonMarks []
      (" in".toList ++ ' ' :: (Expression.listed (items.map chars) ++ rest)) :=
    .keyword "in" (by decide) (by decide)
  have skipped : skipBlank (' ' :: (Expression.listed (items.map chars) ++ rest)) =
      Expression.listed (items.map chars) ++ rest := by
    rw [skip_blank_space]
    cases items with
    | nil => exact skip_blank_mark (by decide) _
    | cons first others => exact skip_blank_mark (by decide) _
  have found : container (formulaWithin (depth + 1)) needle
      (Expression.listed (items.map chars) ++ rest) =
      .done (.among needle (items.map reread)) rest := by
    refine or_else_done ?_
    rw [bind_done (listed_read rest reads)]
    rfl
  have read : Script.comparison (formulaWithin (depth + 1))
      (text ++ ' ' :: ("in".toList ++ ' ' :: (Expression.listed (items.map chars) ++ rest))) =
      .done (.among needle (items.map reread)) rest :=
    comparison_in (needles.sum behind.sum) skipped found
  simpa only [Takes, List.append_assoc, List.cons_append] using read

theorem not (reads : Level.negation.Reads depth text value) :
    Level.negation.Reads depth ("not ".toList ++ text) (.not value) where
  begins := ⟨'n', _, rfl, by decide, by decide⟩
  noSign := by
    intro same
    cases same
  noNot := by
    intro tight
    exact absurd tight (by decide)
  takes := by
    intro rest stops
    have marked : Marked notMark (Script.comparison (formulaWithin depth))
        (fun _ operand => .not operand) (text ++ rest) value rest := reads.takes rest stops
    have word : eitherCase "not" "NOT" ("not".toList ++ ' ' :: (text ++ rest)) =
        .done () (' ' :: (text ++ rest)) := or_else_done (keyword_done (ends_space _))
    have skipped : blank (' ' :: (text ++ rest)) = .done () (text ++ rest) := by
      rw [blank, skip_blank_space, reads.start]
    have read : notMark ("not ".toList ++ (text ++ rest)) = .done () (text ++ rest) :=
      (bind_done word).trans skipped
    have shorter : (text ++ rest).length < ("not ".toList ++ (text ++ rest)).length := by
      rw [@List.length_append _ "not ".toList]
      exact Nat.lt_add_of_pos_left (by decide)
    have next := marked.next read shorter
    simpa only [Takes, List.append_assoc] using next

variable {first second : ι} {more : List ι}

theorem all (reads : ∀ item ∈ first :: second :: more,
      Level.negation.Reads depth (chars item) (reread item)) :
    Level.conjunction.Reads depth
      (Formula.joined " and " ((first :: second :: more).map chars))
      (.all ((first :: second :: more).map reread)) := by
  rw [joined_map, List.flatMap_cons]
  change Level.conjunction.Reads depth (chars first ++ ' ' :: ("and ".toList ++ chars second ++
    more.flatMap fun item => " and ".toList ++ chars item)) _
  refine extended (reads first List.mem_cons_self) (by decide) (by decide) fun rest stops => ?_
  have stops : Stops comparisonMarks conjunctionWords rest := stops
  have between : ∀ more, Stops comparisonMarks comparisonWords (" and ".toList ++ more) :=
    fun more => .keyword "and" (by decide) (by decide)
  have letter : "and".toList.head? = some 'a' := rfl
  have read : Script.conjunction (formulaWithin depth)
      (Formula.joined " and " ((first :: second :: more).map chars) ++ rest) =
      .done (.all ((first :: second :: more).map reread)) rest := joined_read letter rfl
    (fun text => or_else_done (keyword_done (ends_space text))) SkipsSpace.negated chars reread rfl
    between stops.comparison stops.no_and first (second :: more)
    fun item member rest stops => (reads item member).negated stops
  rw [joined_map, List.flatMap_cons, List.append_assoc] at read
  simpa [Takes, Script.conjunction, Script.disjunction, Formula.joinedRead] using read

theorem any (reads : ∀ item ∈ first :: second :: more,
      Level.conjunction.Reads depth (chars item) (reread item)) :
    Level.disjunction.Reads depth
      (Formula.joined " or " ((first :: second :: more).map chars))
      (.any ((first :: second :: more).map reread)) := by
  rw [joined_map, List.flatMap_cons]
  change Level.disjunction.Reads depth (chars first ++ ' ' :: ("or ".toList ++ chars second ++
    more.flatMap fun item => " or ".toList ++ chars item)) _
  refine extended (reads first List.mem_cons_self) (by decide) (by decide) fun rest stops => ?_
  have stops : Stops comparisonMarks disjunctionWords rest := stops
  have between : ∀ more, Stops comparisonMarks conjunctionWords (" or ".toList ++ more) :=
    fun more => .keyword "or" (by decide) (by decide)
  have letter : "or".toList.head? = some 'o' := rfl
  have read : Script.disjunction (formulaWithin depth)
      (Formula.joined " or " ((first :: second :: more).map chars) ++ rest) =
      .done (.any ((first :: second :: more).map reread)) rest := joined_read letter rfl
    (fun text => or_else_done (keyword_done (ends_space text))) SkipsSpace.conjunction chars reread rfl
    between stops.conjunction stops.no_or first (second :: more)
    fun item member rest stops => (reads item member).conjunction stops
  rw [joined_map, List.flatMap_cons, List.append_assoc] at read
  simpa [Takes, Script.conjunction, Script.disjunction, Formula.joinedRead] using read

end

end Level.Reads

end Tariff.Script
