import Tariff.Formula.WellShaped
import Tariff.Proofs.Formula.Related

set_option autoImplicit false

namespace Tariff

inductive Confined {α : Type} (good : α → Prop) (allowed : Failure → Prop) :
    Except Failure α → Prop
  | ok {value : α} (isGood : good value) : Confined good allowed (.ok value)
  | error {failure : Failure} (isAllowed : allowed failure) : Confined good allowed (.error failure)

namespace Confined

variable {α β : Type} {good : α → Prop} {fine : β → Prop} {allowed : Failure → Prop}

theorem bind {result : Except Failure α} {next : α → Except Failure β}
    (confined : Confined good allowed result)
    (continued : ∀ value, good value → Confined fine allowed (next value)) :
    Confined fine allowed (result >>= next) := by
  cases confined with
  | ok isGood => exact continued _ isGood
  | error isAllowed => exact .error isAllowed

theorem map {result : Except Failure α} {next : α → β} (confined : Confined good allowed result)
    (continued : ∀ value, good value → fine (next value)) :
    Confined fine allowed (result.map next) := by
  cases confined with
  | ok isGood => exact .ok (continued _ isGood)
  | error isAllowed => exact .error isAllowed

theorem allows {result : Except Failure α} (confined : Confined good allowed result)
    {failure : Failure} (failed : result = .error failure) : allowed failure := by
  cases confined with
  | ok isGood => cases failed
  | error isAllowed =>
      cases failed
      exact isAllowed

end Confined

-- Values that operations make are good, and so are the failures that they make of good values.
structure Closed (good : Scalar → Prop) (allowed : Failure → Prop) : Prop where
  null : good .null
  bool : ∀ value, good (.bool value)
  number : ∀ value, good (.number value)
  notNumeric : ∀ value, good value → value.number? = none → allowed (.notNumeric value)

def Arithmetic.Permits (allowed : Failure → Prop) (op : Arithmetic) : Prop :=
  match op with
  | .least | .greatest => True
  | .divide | .remainder => allowed (.overflow op) ∧ allowed .divisionByZero
  | _ => allowed (.overflow op)

namespace Outcome

section

variable {good : Scalar → Prop} {allowed : Failure → Prop} (closed : Closed good allowed)

abbrev Counts (allowed : Failure → Prop) : Except Failure Decimal → Prop :=
  Confined (fun _ => True) allowed

include closed

theorem number_confined {operand : Outcome} (confined : Confined good allowed operand) :
    Counts allowed operand.number := by
  cases confined with
  | error isAllowed => exact .error isAllowed
  | @ok value isGood =>
      unfold number
      cases read : value.number? with
      | some n => simpa [read] using .ok trivial
      | none => simpa [read] using .error (closed.notNumeric value isGood read)

omit closed in
theorem or_overflow_confined {op : Arithmetic} (overflow : allowed (.overflow op))
    (made : Option Decimal) : Counts allowed (orOverflow op made) := by
  cases made with
  | some n => exact .ok trivial
  | none => exact .error overflow

theorem accumulate_confined {op : Arithmetic} (overflow : allowed (.overflow op))
    (step : Decimal → Decimal → Option Decimal) (total : Decimal) {operands : List Outcome}
    (each : ∀ operand ∈ operands, Confined good allowed operand) :
    Counts allowed (accumulate op step total operands) := by
  induction operands generalizing total with
  | nil => exact .ok trivial
  | cons operand rest ih =>
      obtain ⟨first, later⟩ := List.forall_mem_cons.mp each
      refine .bind (number_confined closed first) fun n _ => ?_
      cases step total n with
      | some next => exact ih next later
      | none => exact .error overflow

theorem pick_of_confined (pick : Decimal → Decimal → Decimal) (best : Decimal)
    {operands : List Outcome} (each : ∀ operand ∈ operands, Confined good allowed operand) :
    Counts allowed (pickOf pick best operands) := by
  induction operands generalizing best with
  | nil => exact .ok trivial
  | cons operand rest ih =>
      obtain ⟨first, later⟩ := List.forall_mem_cons.mp each
      exact .bind (number_confined closed first) fun n _ => ih _ later

theorem extreme_confined (op : Arithmetic) (pick : Decimal → Decimal → Decimal)
    {operands : List Outcome} (nonempty : 1 ≤ operands.length)
    (each : ∀ operand ∈ operands, Confined good allowed operand) :
    Counts allowed (extreme op pick operands) := by
  cases operands with
  | nil => cases nonempty
  | cons operand rest =>
      obtain ⟨first, later⟩ := List.forall_mem_cons.mp each
      exact .bind (number_confined closed first) fun n _ => pick_of_confined closed pick n later

theorem divided_confined {op : Arithmetic} (overflow : allowed (.overflow op))
    (zero : allowed .divisionByZero) (quotient : Decimal → Decimal → Option Decimal)
    {left right : Outcome} (lefts : Confined good allowed left)
    (rights : Confined good allowed right) : Counts allowed (divided op quotient left right) := by
  refine .bind (number_confined closed lefts) fun a _ => ?_
  refine .bind (number_confined closed rights) fun b _ => ?_
  cases b.isZero with
  | true => exact .error zero
  | false => exact or_overflow_confined overflow (quotient a b)

theorem arithmetic_confined {op : Arithmetic} {operands : List Outcome}
    (accepts : op.Accepts operands.length) (permits : op.Permits allowed)
    (each : ∀ operand ∈ operands, Confined good allowed operand) :
    Counts allowed (arithmetic op operands) := by
  cases op with
  | add => exact accumulate_confined closed permits _ _ each
  | multiply => exact accumulate_confined closed permits _ _ each
  | least => exact extreme_confined closed .least _ accepts each
  | greatest => exact extreme_confined closed .greatest _ accepts each
  | subtract =>
      match operands, accepts with
      | [operand], _ =>
          exact .map (number_confined closed (each _ (.head _))) fun _ _ => trivial
      | [left, right], _ =>
          refine .bind (number_confined closed (each _ (.head _))) fun a _ => ?_
          refine .bind (number_confined closed (each _ (.tail _ (.head _)))) fun b _ => ?_
          exact or_overflow_confined permits (a.sub? b)
  | divide =>
      match operands, accepts with
      | [left, right], _ =>
          exact divided_confined closed permits.1 permits.2 _ (each _ (.head _))
            (each _ (.tail _ (.head _)))
  | remainder =>
      match operands, accepts with
      | [left, right], _ =>
          exact divided_confined closed permits.1 permits.2 _ (each _ (.head _))
            (each _ (.tail _ (.head _)))

omit closed

theorem all_of_confined {last : Scalar} (isGood : good last) {operands : List Outcome}
    (each : ∀ operand ∈ operands, Confined good allowed operand) :
    Confined good allowed (allOf last operands) := by
  induction operands generalizing last with
  | nil => exact .ok isGood
  | cons operand rest ih =>
      obtain ⟨first, later⟩ := List.forall_mem_cons.mp each
      refine .bind first fun value isAlsoGood => ?_
      cases value.truthy with
      | true => exact ih isAlsoGood later
      | false => exact .ok isAlsoGood

theorem any_of_confined {last : Scalar} (isGood : good last) {operands : List Outcome}
    (each : ∀ operand ∈ operands, Confined good allowed operand) :
    Confined good allowed (anyOf last operands) := by
  induction operands generalizing last with
  | nil => exact .ok isGood
  | cons operand rest ih =>
      obtain ⟨first, later⟩ := List.forall_mem_cons.mp each
      refine .bind first fun value isAlsoGood => ?_
      cases value.truthy with
      | true => exact .ok isAlsoGood
      | false => exact ih isAlsoGood later

theorem choice_confined {otherwise : Outcome} (last : Confined good allowed otherwise)
    {branches : List (Outcome × Outcome)}
    (each : ∀ branch ∈ branches, Confined good allowed branch.1 ∧ Confined good allowed branch.2) :
    Confined good allowed (choice otherwise branches) := by
  induction branches with
  | nil => exact last
  | cons branch rest ih =>
      obtain ⟨first, later⟩ := List.forall_mem_cons.mp each
      refine .bind first.1 fun value _ => ?_
      cases value.truthy with
      | true => exact first.2
      | false => exact ih later

theorem among_of_confined (needle : Scalar) {operands : List Outcome}
    (each : ∀ operand ∈ operands, Confined good allowed operand) :
    Confined (fun _ => True) allowed (amongOf needle operands) := by
  induction operands with
  | nil => exact .ok trivial
  | cons operand rest ih =>
      obtain ⟨first, later⟩ := List.forall_mem_cons.mp each
      refine .bind first fun value _ => ?_
      cases needle.alike value with
      | true => exact .ok trivial
      | false => exact ih later

theorem of_lookup_confined (null : good .null) {path : String} {default : Option Scalar}
    {found : Lookup} (defaults : ∀ value ∈ default, good value)
    (values : ∀ value, found = .found value → good value)
    (absent : found = .unavailable → allowed (.unavailable path)) :
    Confined good allowed (ofLookup path default found) := by
  have instead : good (default.getD .null) := by
    cases default with
    | none => exact null
    | some value => exact defaults value rfl
  cases found with
  | missing => exact .ok instead
  | unavailable => exact .error (absent rfl)
  | found value =>
      cases value with
      | null => exact .ok instead
      | _ => exact .ok (values _ rfl)

end

end Outcome

namespace Formula

mutual

-- Every operation has as many operands as it takes. Paths may be empty here, and so may conjunctions,
-- disjunctions and choices.
def Counted : Formula → Prop
  | .literal _ => True
  | .field _ _ => True
  | .arithmetic op operands => op.Accepts operands.length ∧ CountedEach operands
  | .compare _ left right => left.Counted ∧ right.Counted
  | .all operands => CountedEach operands
  | .any operands => CountedEach operands
  | .not operand => operand.Counted
  | .truth operand => operand.Counted
  | .choose branches none => CountedBranches branches
  | .choose branches (some otherwise) => CountedBranches branches ∧ otherwise.Counted
  | .among needle candidates => needle.Counted ∧ CountedEach candidates
  | .contains haystack needle => haystack.Counted ∧ needle.Counted

def CountedEach : List Formula → Prop
  | [] => True
  | formula :: rest => formula.Counted ∧ CountedEach rest

def CountedBranches : List (Formula × Formula) → Prop
  | [] => True
  | (condition, consequence) :: rest =>
      condition.Counted ∧ consequence.Counted ∧ CountedBranches rest

end

mutual

theorem WellShaped.counted (formula : Formula) (shaped : formula.WellShaped) :
    formula.Counted := by
  cases formula with
  | literal value => trivial
  | field path default => trivial
  | arithmetic op operands => exact ⟨shaped.1, counted_each operands shaped.2⟩
  | compare comparison left right => exact ⟨counted left shaped.1, counted right shaped.2⟩
  | all operands => exact counted_each operands shaped.2
  | any operands => exact counted_each operands shaped.2
  | not operand => exact counted operand shaped
  | truth operand => exact counted operand shaped
  | choose branches otherwise =>
      cases otherwise with
      | none => exact counted_branches branches shaped.2
      | some otherwise => exact ⟨counted_branches branches shaped.1, counted otherwise shaped.2⟩
  | among needle candidates => exact ⟨counted needle shaped.1, counted_each candidates shaped.2⟩
  | contains haystack needle => exact ⟨counted haystack shaped.1, counted needle shaped.2⟩

theorem WellShaped.counted_each (formulas : List Formula) (shaped : WellShapedEach formulas) :
    CountedEach formulas := by
  cases formulas with
  | nil => trivial
  | cons formula rest => exact ⟨counted formula shaped.1, counted_each rest shaped.2⟩

theorem WellShaped.counted_branches (branches : List (Formula × Formula))
    (shaped : WellShapedBranches branches) : CountedBranches branches := by
  cases branches with
  | nil => trivial
  | cons branch rest =>
      obtain ⟨condition, consequence⟩ := branch
      exact ⟨counted condition shaped.1, counted consequence shaped.2.1,
        counted_branches rest shaped.2.2⟩

end

structure Confinement (good : Scalar → Prop) (allowed : Failure → Prop) (environment : Environment)
    (scalars : List Scalar) (fields : List String) (operations : List Arithmetic) : Prop where
  scalars : ∀ value ∈ scalars, good value
  values : ∀ path ∈ fields, ∀ value, environment.lookup path = .found value → good value
  absent : ∀ path ∈ fields, environment.lookup path = .unavailable → allowed (.unavailable path)
  permits : ∀ op ∈ operations, op.Permits allowed

section

variable {good : Scalar → Prop} {allowed : Failure → Prop} {environment : Environment}

theorem Confinement.left {scalars others : List Scalar} {fields more : List String}
    {operations further : List Arithmetic}
    (confinement : Confinement good allowed environment (scalars ++ others) (fields ++ more)
      (operations ++ further)) :
    Confinement good allowed environment scalars fields operations where
  scalars value member := confinement.scalars value (List.mem_append_left others member)
  values path member := confinement.values path (List.mem_append_left more member)
  absent path member := confinement.absent path (List.mem_append_left more member)
  permits op member := confinement.permits op (List.mem_append_left further member)

theorem Confinement.right {scalars others : List Scalar} {fields more : List String}
    {operations further : List Arithmetic}
    (confinement : Confinement good allowed environment (scalars ++ others) (fields ++ more)
      (operations ++ further)) :
    Confinement good allowed environment others more further where
  scalars value member := confinement.scalars value (List.mem_append_right scalars member)
  values path member := confinement.values path (List.mem_append_right fields member)
  absent path member := confinement.absent path (List.mem_append_right fields member)
  permits op member := confinement.permits op (List.mem_append_right operations member)

mutual

theorem evaluate_confined (closed : Closed good allowed) (formula : Formula)
    (counted : formula.Counted)
    (confinement : Confinement good allowed environment formula.scalars formula.fields
      formula.operations) :
    Confined good allowed (formula.evaluate environment) := by
  cases formula with
  | literal value => exact .ok (confinement.scalars value List.mem_cons_self)
  | field path default =>
      refine Outcome.of_lookup_confined closed.null ?_ (confinement.values path List.mem_cons_self)
        (confinement.absent path List.mem_cons_self)
      exact fun value member => confinement.scalars value (Option.mem_toList.mpr member)
  | arithmetic op operands =>
      have each := evaluate_each_confined closed operands counted.2
        { confinement with
          permits := fun op member => confinement.permits op (List.mem_cons_of_mem _ member) }
      have accepts : op.Accepts (evaluateEach environment operands).length := by
        rw [evaluate_each_eq_map, List.length_map]
        exact counted.1
      exact .map (Outcome.arithmetic_confined closed accepts
        (confinement.permits op List.mem_cons_self) each) fun n _ => closed.number n
  | compare comparison left right =>
      refine .bind (evaluate_confined closed left counted.1 confinement.left) fun a _ => ?_
      refine .bind (evaluate_confined closed right counted.2 confinement.right) fun b _ => ?_
      exact .ok (closed.bool _)
  | all operands =>
      exact Outcome.all_of_confined (closed.bool true)
        (evaluate_each_confined closed operands counted confinement)
  | any operands =>
      exact Outcome.any_of_confined (closed.bool false)
        (evaluate_each_confined closed operands counted confinement)
  | not operand =>
      exact .bind (evaluate_confined closed operand counted confinement) fun _ _ =>
        .ok (closed.bool _)
  | truth operand =>
      exact .bind (evaluate_confined closed operand counted confinement) fun _ _ =>
        .ok (closed.bool _)
  | choose branches otherwise =>
      cases otherwise with
      | none =>
          exact Outcome.choice_confined (.ok closed.null)
            (evaluate_branches_confined closed branches counted confinement)
      | some otherwise =>
          exact Outcome.choice_confined
            (evaluate_confined closed otherwise counted.2 confinement.right)
            (evaluate_branches_confined closed branches counted.1 confinement.left)
  | among needle candidates =>
      refine .bind (evaluate_confined closed needle counted.1 confinement.left) fun value _ => ?_
      refine .bind (Outcome.among_of_confined value
        (evaluate_each_confined closed candidates counted.2 confinement.right)) fun _ _ => ?_
      exact .ok (closed.bool _)
  | contains haystack needle =>
      refine .bind (evaluate_confined closed haystack counted.1 confinement.left) fun _ _ => ?_
      refine .bind (evaluate_confined closed needle counted.2 confinement.right) fun _ _ => ?_
      exact .ok (closed.bool _)

theorem evaluate_each_confined (closed : Closed good allowed) (formulas : List Formula)
    (counted : CountedEach formulas)
    (confinement : Confinement good allowed environment (scalarsEach formulas) (fieldsEach formulas)
      (operationsEach formulas)) :
    ∀ operand ∈ evaluateEach environment formulas, Confined good allowed operand := by
  cases formulas with
  | nil =>
      intro operand member
      cases member
  | cons formula rest =>
      have first := evaluate_confined closed formula counted.1 confinement.left
      have later := evaluate_each_confined closed rest counted.2 confinement.right
      exact List.forall_mem_cons.mpr ⟨first, later⟩

theorem evaluate_branches_confined (closed : Closed good allowed)
    (branches : List (Formula × Formula)) (counted : CountedBranches branches)
    (confinement : Confinement good allowed environment (scalarsBranches branches)
      (fieldsBranches branches) (operationsBranches branches)) :
    ∀ branch ∈ evaluateBranches environment branches,
      Confined good allowed branch.1 ∧ Confined good allowed branch.2 := by
  cases branches with
  | nil =>
      intro branch member
      cases member
  | cons branch rest =>
      obtain ⟨condition, consequence⟩ := branch
      have first := evaluate_confined closed condition counted.1 confinement.left.left
      have second := evaluate_confined closed consequence counted.2.1 confinement.left.right
      have later := evaluate_branches_confined closed rest counted.2.2 confinement.right
      exact List.forall_mem_cons.mpr ⟨⟨first, second⟩, later⟩

end

end

def HasOperands (failure : Failure) : Prop := ∀ op, failure ≠ .noOperands op

theorem WellShaped.has_operands {formula : Formula} (shaped : formula.WellShaped)
    (environment : Environment) (op : Arithmetic) :
    formula.evaluate environment ≠ .error (.noOperands op) := by
  intro failed
  have closed : Closed (fun _ => True) HasOperands :=
    ⟨trivial, fun _ => trivial, fun _ => trivial, (fun _ _ _ _ same => by cases same)⟩
  have confined : Confined _ HasOperands (formula.evaluate environment) :=
    evaluate_confined closed formula (WellShaped.counted formula shaped)
      { scalars := fun _ _ => trivial
        values := fun _ _ _ _ => trivial
        absent := fun _ _ _ _ same => by cases same
        permits := fun op _ => by cases op <;> simp [Arithmetic.Permits, HasOperands] }
  exact confined.allows failed op rfl

end Formula

end Tariff
