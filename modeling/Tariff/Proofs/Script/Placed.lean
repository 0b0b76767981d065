import Tariff.Proofs.Script.Meaning
import Tariff.Proofs.Script.Operation

set_option autoImplicit false

namespace Tariff

namespace Script

open Reader

variable {depth : Nat}

namespace Expression

def read (expression : Expression) : Formula := expression.toFormula.reread

theorem reread_each_to_formula_each (expressions : List Expression) :
    Formula.rereadEach (toFormulaEach expressions) = expressions.map read := by
  rw [to_formula_each_eq_map, Formula.reread_each_eq_map, List.map_map]
  rfl

theorem read_binary (op : Operator) (left right : Expression) :
    (binary op left right).read = Formula.combine op.arithmetic left.read right.read := by
  rw [read, toFormula]
  cases op <;> rfl

theorem read_among (needle : Expression) (candidates : List Expression) :
    (among needle candidates).read = .among needle.read (candidates.map read) := by
  rw [read, toFormula, Formula.reread, reread_each_to_formula_each]
  rfl

theorem read_all (first second : Expression) (more : List Expression) :
    (all first second more).read = .all ((first :: second :: more).map read) := by
  rw [read, toFormula, Formula.reread, Formula.rereadEach, Formula.rereadEach,
    reread_each_to_formula_each]
  rfl

theorem read_any (first second : Expression) (more : List Expression) :
    (any first second more).read = .any ((first :: second :: more).map read) := by
  rw [read, toFormula, Formula.reread, Formula.rereadEach, Formula.rereadEach,
    reread_each_to_formula_each]
  rfl

-- Read at its own level, wherever formulas may be nested as deep as its text is long.
def Readable (expression : Expression) : Prop :=
  ∀ depth, expression.chars.length ≤ depth →
    expression.level.Reads depth expression.chars expression.read

theorem Readable.placed {expression : Expression} (readable : expression.Readable) (place : Level)
    (depth : Nat) (deep : (placed place expression).length ≤ depth) :
    place.Reads depth (placed place expression) expression.read := by
  by_cases tight : place.rank ≤ expression.level.rank
  · have text : Expression.placed place expression = expression.chars := if_pos tight
    rw [text] at deep ⊢
    exact (readable depth deep).loosened tight
  · have text : Expression.placed place expression =
        '(' :: ' ' :: (expression.chars ++ [' ', ')']) := if_neg tight
    have longer : expression.chars.length < depth := by
      rw [text, List.length_cons, List.length_cons, List.length_append] at deep
      omega
    obtain ⟨further, same⟩ := Nat.exists_eq_succ_of_ne_zero (Nat.ne_zero_of_lt longer)
    subst same
    have loose : Level.disjunction.rank ≤ expression.level.rank := Nat.zero_le _
    have inner := (readable further (Nat.le_of_lt_succ longer)).loosened loose
    have tightest : place.rank ≤ Level.operand.rank := by cases place <;> decide
    rw [text]
    exact inner.parenthesized.loosened tightest

theorem placed_each {expressions : List Expression} (place : Level) (separator : String)
    (each : ∀ expression ∈ expressions, expression.Readable)
    (deep : (Formula.joined separator (expressions.map (placed place))).length ≤ depth) :
    ∀ expression ∈ expressions, place.Reads depth (placed place expression) expression.read :=
  fun expression member => (each expression member).placed place _
    (Nat.le_trans (length_le_joined separator (placed place) expressions expression member) deep)

theorem joined_lt_listed (items : List (List Char)) :
    (Formula.joined " , " items).length < (listed items).length := by
  cases items with
  | nil => decide
  | cons first others =>
      have nonempty : first :: others ≠ [] := List.cons_ne_nil _ _
      rw [listed, List.length_cons, List.length_cons, List.length_append]
      · omega
      · exact nonempty

mutual

theorem readable (expression : Expression) : expression.Readable := by
  intro depth deep
  cases expression with
  | number written => exact .number written
  | field path isPath default =>
      cases default with
      | none => exact .path isPath
      | some spelled => exact .default isPath spelled
  | negative operand =>
      have operands := (readable operand).placed .sign depth
      rw [chars_negative] at deep ⊢
      simp only [List.length_cons] at deep
      exact .negative (operands (by omega))
  | binary op left right =>
      have lefts := (readable left).placed op.level depth
      have rights := (readable right).placed op.rightLevel depth
      rw [chars_binary] at deep ⊢
      simp only [List.length_append, List.length_cons] at deep
      rw [read_binary]
      exact .binary op (lefts (by omega)) (rights (by omega))
  | compare comparison left right =>
      have lefts := (readable left).placed .sum depth
      have rights := (readable right).placed .sum depth
      rw [chars_compare] at deep ⊢
      simp only [List.length_append, List.length_cons] at deep
      exact .compare comparison (lefts (by omega)) (rights (by omega))
  | among needle candidates =>
      have needles := (readable needle).placed .sum depth
      have each := readable_each candidates
      rw [chars_among] at deep ⊢
      have longer := joined_lt_listed (candidates.map (placed .disjunction))
      simp only [List.length_append, List.length_cons] at deep
      obtain ⟨further, same⟩ : ∃ further, depth = further + 1 := ⟨depth - 1, by omega⟩
      subst same
      rw [read_among]
      exact .among (needles (by omega)) (placed_each .disjunction " , " each (by omega))
  | contains haystack needle =>
      have needles := (readable needle).placed .sum depth
      have haystacks := (readable haystack).placed .sum depth
      rw [chars_contains] at deep ⊢
      simp only [List.length_append, List.length_cons] at deep
      exact .contains (needles (by omega)) (haystacks (by omega))
  | not operand =>
      have operands := (readable operand).placed .negation depth
      rw [chars_not] at deep ⊢
      rw [List.length_append] at deep
      exact .not (operands (by omega))
  | all first second more =>
      have each := List.forall_mem_cons.mpr
        ⟨readable first, List.forall_mem_cons.mpr ⟨readable second, readable_each more⟩⟩
      rw [chars_all] at deep ⊢
      rw [read_all]
      exact .all (placed_each .negation " and " each deep)
  | any first second more =>
      have each := List.forall_mem_cons.mpr
        ⟨readable first, List.forall_mem_cons.mpr ⟨readable second, readable_each more⟩⟩
      rw [chars_any] at deep ⊢
      rw [read_any]
      exact .any (placed_each .conjunction " or " each deep)

theorem readable_each (expressions : List Expression) :
    ∀ expression ∈ expressions, expression.Readable := by
  cases expressions with
  | nil =>
      intro expression member
      cases member
  | cons first rest => exact List.forall_mem_cons.mpr ⟨readable first, readable_each rest⟩

end

theorem evaluate_read (expression : Expression) (environment : Environment) :
    expression.read.evaluate environment = expression.toFormula.evaluate environment :=
  expression.toFormula.evaluate_reread environment expression.to_formula_written

theorem formula_chars (expression : Expression) :
    Script.formula (' ' :: expression.chars) = .done expression.read [] := by
  have loose : Level.disjunction.rank ≤ expression.level.rank := Nat.zero_le _
  have reads := (expression.readable _ (Nat.le_succ _)).loosened loose
  have whole := reads.whole stops_nothing
  rw [List.append_nil] at whole
  rw [Script.formula, SkipsSpace.formula_within]
  exact whole

end Expression

theorem expression_body_read (scope : Scope) (expression : Expression) :
    ofString (scope.name ++ " r: " ++ expression.render) =
      .ok (ofStatements [.rule scope ⟨"r", none, .formula expression.read⟩ false]) := by
  have rule := @rule_statement_of_body [] scope false "r" none _ _ is_name_r
    (unmarked_registered scope) expression.formula_chars
  have chars : (scope.name ++ " r: " ++ expression.render).toList =
      scope.name.toList ++ ' ' :: ("r".toList ++ (labelChars none ++
        (totalChars false ++ ':' :: ' ' :: expression.chars))) := by
    have body : expression.render.toList = expression.chars := String.toList_ofList
    rw [String.toList_append, String.toList_append, body, List.append_assoc]
    rfl
  have start : ∀ more, skipBlank (scope.name.toList ++ more) = scope.name.toList ++ more := by
    intro more
    cases scope with
    | camper => exact skip_blank_mark (c := 'c') (by decide) _
    | registration => exact skip_blank_mark (c := 'r') (by decide) _
  have single := statements_single (start _) (by cases scope <;> simp [Scope.name])
    ((or_else_misses (constant_statement_misses_scope scope _)).trans rule)
  rw [ofString, chars, ofChars, single]
  rfl

end Script

theorem written_expression_keeps_meaning (scope : Scope) (expression : Script.Expression) :
    ∃ script read, Script.ofString (scope.name ++ " r: " ++ expression.render) = .ok script ∧
      script.rules = [(scope, ⟨"r", none, .formula read⟩)] ∧
      ∀ environment, read.evaluate environment = expression.toFormula.evaluate environment :=
  ⟨_, expression.read, Script.expression_body_read scope expression, rfl,
    fun environment => expression.evaluate_read environment⟩

example (isPath : Script.IsPath "x".toList) :
    let x := Script.Expression.field "x" isPath none
    (Script.Expression.all (.compare .equal (.not x) (.binary .times (.binary .minus x x) x))
      (.not (.compare .below (.negative (.negative x)) (.binary .minus x (.binary .minus x x)))) []).render =
      "( not x ) == ( x - x ) * x and not - - x < x - ( x - x )" := by
  rfl

end Tariff
