import Tariff.Proofs.Script.Expression
import Tariff.Proofs.Script.Nested

/-! In a chain of sums or products more may follow: what has been read so far is the left operand of
what comes next. -/

set_option autoImplicit false

namespace Tariff.Script

open Reader

variable {nested : Reader Formula} {text rest middle : List Char} {value : Formula} {depth : Nat}

def chainStep (signs : Char → Bool) (operand : Reader Formula) : Reader (Char × Formula) := do
  blank
  let sign ← one signs
  let right ← commit operand
  return (sign, right)

def chainFold (left : Formula) (step : Char × Formula) : Formula :=
  Formula.combine (operationOf step.1) left step.2

-- The first operands of a chain, up to a point from which it may go on.
inductive Chained (signs : Char → Bool) (operand : Reader Formula) (text : List Char) :
    Formula → List Char → Prop
  | first {value : Formula} {rest : List Char} (read : operand text = .done value rest) :
      Chained signs operand text value rest
  | next {left : Formula} {step : Char × Formula} {middle rest : List Char}
      (before : Chained signs operand text left middle)
      (read : chainStep signs operand middle = .done step rest)
      (shorter : rest.length < middle.length) :
      Chained signs operand text (chainFold left step) rest

section

variable {signs : Char → Bool} {operand : Reader Formula}

theorem Chained.continued (chained : Chained signs operand text value middle)
    {steps : List (Char × Formula)} (repeats : Repeats (chainStep signs operand) middle steps rest) :
    chain signs operand text = .done (steps.foldl chainFold value) rest := by
  induction chained generalizing steps with
  | first read =>
      change (operand >>= _) text = _
      rw [bind_done read]
      exact bind_done (many_repeats repeats)
  | @next left step _ _ before read shorter ih => exact ih (.next read shorter repeats)

theorem Chained.read (chained : Chained signs operand text value rest)
    (ends : ∀ c ∈ (skipBlank rest).head?, signs c = false) :
    chain signs operand text = .done value rest :=
  chained.continued (.last (blank_then_misses (bind_misses (one_misses ends))))

end

def Marked {α : Type} (mark : Reader α) (operand : Reader Formula) (apply : α → Formula → Formula)
    (text : List Char) (value : Formula) (rest : List Char) : Prop :=
  ∃ marks middle inner, Repeats mark text marks middle ∧ operand middle = .done inner rest ∧
    marks.foldr apply inner = value

section

variable {α : Type} {mark : Reader α} {operand : Reader Formula} {apply : α → Formula → Formula}

theorem Marked.none (misses : mark.Misses text) (read : operand text = .done value rest) :
    Marked mark operand apply text value rest := ⟨[], text, value, .last misses, read, rfl⟩

theorem Marked.next {first : α} (marked : Marked mark operand apply middle value rest)
    (read : mark text = .done first middle) (shorter : middle.length < text.length) :
    Marked mark operand apply text (apply first value) rest := by
  obtain ⟨marks, behind, inner, repeats, done, same⟩ := marked
  refine ⟨first :: marks, behind, inner, .next read shorter repeats, done, ?_⟩
  rw [List.foldr_cons, same]

theorem Marked.read (marked : Marked mark operand apply text value rest) :
    (do
      let marks ← many mark
      let inner ← if marks.isEmpty then operand else commit operand
      return marks.foldr apply inner : Reader Formula) text = .done value rest := by
  obtain ⟨marks, middle, inner, repeats, done, same⟩ := marked
  rw [bind_done (many_repeats repeats), ← same]
  cases marks with
  | nil =>
      rw [List.isEmpty_nil, if_pos rfl, bind_done done]
      rfl
  | cons first more =>
      rw [List.isEmpty_cons, if_neg Bool.false_ne_true, bind_done (commit_done done)]
      rfl

end

def signMark : Reader Char := do
  let sign ← one isSign
  blank
  return sign

def notMark : Reader Unit := do
  eitherCase "not" "NOT"
  blank

namespace Level

def Takes (nested : Reader Formula) (text : List Char) (value : Formula) (rest : List Char) :
    Level → Prop
  | .disjunction => Script.disjunction nested text = .done value rest
  | .conjunction => Script.conjunction nested text = .done value rest
  | .negation =>
      Marked notMark (Script.comparison nested) (fun _ operand => .not operand) text value rest
  | .comparison => Script.comparison nested text = .done value rest
  | .sum => Chained isSign (Script.product nested) text value rest
  | .product => Chained isProductSign (signed nested) text value rest
  | .sign => Marked signMark (defaulted nested) applySign text value rest
  | .operand => defaulted nested text = .done value rest

-- What may stand behind a text of the level. In a chain that is any further operand of it.
def Leaves (rest : List Char) : Level → Prop
  | .disjunction => Stops comparisonMarks disjunctionWords rest
  | .conjunction => Stops comparisonMarks conjunctionWords rest
  | .negation | .comparison => Stops comparisonMarks comparisonWords rest
  | .sum => Stops productMarks [] rest
  | .product | .sign | .operand => Stops operandMarks [] rest

structure Reads (level : Level) (depth : Nat) (text : List Char) (value : Formula) : Prop where
  begins : ∃ c more, text = c :: more ∧ isMark c = true ∧ c ≠ '['
  noSign : level = .operand → ∀ c ∈ text.head?, isSign c = false
  noNot : Level.comparison.rank ≤ level.rank → ∀ rest, Ends isPathChar rest →
    (eitherCase "not" "NOT").Misses (text ++ rest)
  takes : ∀ rest, level.Leaves rest → level.Takes (formulaWithin depth) (text ++ rest) value rest

namespace Reads

variable {level : Level}

theorem start (reads : level.Reads depth text value) (rest : List Char) :
    skipBlank (text ++ rest) = text ++ rest := by
  obtain ⟨c, more, same, mark, _⟩ := reads.begins
  rw [same]
  exact skip_blank_mark mark _

theorem no_list (reads : level.Reads depth text value) (rest : List Char) :
    (text ++ rest).head? ≠ some '[' := by
  obtain ⟨c, more, same, _, different⟩ := reads.begins
  rw [same]
  intro first
  cases first
  exact different rfl

theorem operand (reads : Level.operand.Reads depth text value) (stops : Stops operandMarks [] rest) :
    defaulted (formulaWithin depth) (text ++ rest) = .done value rest :=
  reads.takes rest stops

theorem signed (reads : Level.sign.Reads depth text value) (stops : Stops operandMarks [] rest) :
    signed (formulaWithin depth) (text ++ rest) = .done value rest := by
  have marked : Marked signMark (defaulted (formulaWithin depth)) applySign (text ++ rest) value rest :=
    reads.takes rest stops
  have skipped : blank (text ++ rest) = .done () (text ++ rest) := by rw [blank, reads.start]
  exact (bind_done skipped).trans marked.read

theorem product (reads : Level.product.Reads depth text value) (stops : Stops productMarks [] rest) :
    Script.product (formulaWithin depth) (text ++ rest) = .done value rest := by
  have chained : Chained isProductSign (Script.signed (formulaWithin depth)) (text ++ rest) value rest :=
    reads.takes rest stops.operand
  have within : ∀ c ∈ ['*', '/', '%'], c ∈ productMarks := by decide
  exact chained.read (stops.refuses fun c sign => within c (product_sign_mem sign))

theorem sum (reads : Level.sum.Reads depth text value) (stops : Stops sumMarks [] rest) :
    Script.sum (formulaWithin depth) (text ++ rest) = .done value rest := by
  have chained : Chained isSign (Script.product (formulaWithin depth)) (text ++ rest) value rest :=
    reads.takes rest stops.product
  exact chained.read stops.no_sign

theorem negated (reads : Level.negation.Reads depth text value)
    (stops : Stops comparisonMarks comparisonWords rest) :
    negated (formulaWithin depth) (text ++ rest) = .done value rest := by
  have marked : Marked notMark (Script.comparison (formulaWithin depth)) (fun _ operand => .not operand)
      (text ++ rest) value rest := reads.takes rest stops
  have skipped : blank (text ++ rest) = .done () (text ++ rest) := by rw [blank, reads.start]
  exact (bind_done skipped).trans marked.read

theorem conjunction (reads : Level.conjunction.Reads depth text value)
    (stops : Stops comparisonMarks conjunctionWords rest) :
    Script.conjunction (formulaWithin depth) (text ++ rest) = .done value rest :=
  reads.takes rest stops

theorem whole (reads : Level.disjunction.Reads depth text value)
    (stops : Stops comparisonMarks disjunctionWords rest) :
    formulaWithin (depth + 1) (text ++ rest) = .done value rest :=
  (formula_within_succ _).trans (reads.takes rest stops)

theorem takes_looser (reads : level.Reads depth text value) (leaves : level.looser.Leaves rest) :
    level.looser.Takes (formulaWithin depth) (text ++ rest) value rest := by
  cases level with
  | disjunction => exact reads.takes rest leaves
  | conjunction =>
      have stops : Stops comparisonMarks disjunctionWords rest := leaves
      exact disjunction_single (reads.conjunction stops.conjunction) stops
  | negation =>
      have stops : Stops comparisonMarks conjunctionWords rest := leaves
      exact conjunction_single (reads.negated stops.comparison) stops
  | comparison =>
      have stops : Stops comparisonMarks comparisonWords rest := leaves
      exact .none (bind_misses (reads.noNot (Nat.le_refl _) rest stops.ends)) (reads.takes rest stops)
  | sum =>
      have stops : Stops comparisonMarks comparisonWords rest := leaves
      exact comparison_single (reads.sum stops.sum) stops
  | product => exact .first (reads.product leaves)
  | sign => exact .first (reads.signed leaves)
  | operand =>
      have noSign : (one isSign).Misses (text ++ rest) := by
        obtain ⟨c, more, same, _⟩ := reads.begins
        refine one_misses fun d first => reads.noSign rfl d ?_
        rw [same] at first ⊢
        exact first
      exact .none (bind_misses noSign) (reads.operand leaves)

theorem looser (reads : level.Reads depth text value) : level.looser.Reads depth text value where
  begins := reads.begins
  noSign := by
    intro same
    cases level <;> cases same
  noNot := by
    intro tight
    apply reads.noNot
    cases level <;> exact Nat.le_trans tight (by decide)
  takes := fun _ leaves => reads.takes_looser leaves

theorem loosened {own place : Level} (reads : own.Reads depth text value)
    (looser : place.rank ≤ own.rank) : place.Reads depth text value := by
  by_cases same : place = own
  · rw [same]
    exact reads
  · have below : place.rank ≤ own.looser.rank ∧ own.looser.rank < own.rank := by
      revert looser same
      cases place <;> cases own <;> decide
    exact reads.looser.loosened below.1
termination_by own.rank
decreasing_by exact below.2

end Reads

end Level

end Tariff.Script
