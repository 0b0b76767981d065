import Tariff.Script.Formula
import Tariff.Proofs.Formula.Joined
import Tariff.Proofs.Formula.Occurrence
import Tariff.Proofs.Formula.Written

set_option autoImplicit false

namespace Tariff

namespace Formula

def signed (op : Arithmetic) : List Formula → Formula
  | [] => .arithmetic op []
  | [operand] => if op = .subtract then Script.applySign '-' operand else .arithmetic op [operand]
  | first :: second :: others => (second :: others).foldl (combine op) first

def arithmeticOfRead (op : Arithmetic) (operands : List Formula) : Formula :=
  match op with
  | .least | .greatest => .arithmetic op operands
  | op => signed op operands

def joinedRead (build : List Formula → Formula) : List Formula → Formula
  | [operand] => operand
  | operands => build operands

mutual

def reread : Formula → Formula
  | .literal value => .literal value
  | .field path default => .field path default
  | .arithmetic op operands => arithmeticOfRead op (rereadEach operands)
  | .compare comparison left right => .compare comparison left.reread right.reread
  | .all operands => joinedRead .all (rereadEach operands)
  | .any operands => joinedRead .any (rereadEach operands)
  | .not operand => .not operand.reread
  | .truth operand => .truth operand.reread
  | .choose branches none => .choose (rereadBranches branches) none
  | .choose branches (some otherwise) =>
      .choose (rereadBranches branches) (some otherwise.reread)
  | .among needle candidates => .among needle.reread (rereadEach candidates)
  | .contains haystack needle => .contains haystack.reread needle.reread

def rereadEach : List Formula → List Formula
  | [] => []
  | formula :: rest => formula.reread :: rereadEach rest

def rereadBranches : List (Formula × Formula) → List (Formula × Formula)
  | [] => []
  | (condition, consequence) :: rest =>
      (condition.reread, consequence.reread) :: rereadBranches rest

end

theorem reread_each_eq_map (formulas : List Formula) :
    rereadEach formulas = formulas.map reread := by
  induction formulas with
  | nil => rw [rereadEach, List.map_nil]
  | cons formula rest ih => rw [rereadEach, ih, List.map_cons]

theorem fields_combine (op : Arithmetic) (left right : Formula) :
    (combine op left right).fields = left.fields ++ right.fields := by
  unfold combine
  split
  · split <;> simp [fields, fields_each_eq_flat_map]
  · simp [fields, fields_each_eq_flat_map]

theorem fields_foldl (op : Arithmetic) (first : Formula) (others : List Formula) :
    (others.foldl (combine op) first).fields = first.fields ++ fieldsEach others := by
  induction others generalizing first with
  | nil => rw [List.foldl_nil, fieldsEach, List.append_nil]
  | cons second rest ih =>
      rw [List.foldl_cons, ih, fields_combine, fieldsEach, List.append_assoc]

theorem fields_apply_sign (operand : Formula) :
    (Script.applySign '-' operand).fields = operand.fields := by
  unfold Script.applySign
  rw [if_pos rfl]
  split
  · rw [fields, fields]
  · change (Formula.arithmetic .subtract [operand]).fields = _
    rw [fields, fieldsEach, fieldsEach, List.append_nil]

theorem fields_signed (op : Arithmetic) (operands : List Formula) :
    (signed op operands).fields = fieldsEach operands := by
  unfold signed
  split
  · rw [fields]
  · split
    · rw [fields_apply_sign, fieldsEach, fieldsEach, List.append_nil]
    · rw [fields]
  · rw [fields_foldl, fieldsEach, fieldsEach, fieldsEach]

theorem fields_joined_read {build : List Formula → Formula}
    (builds : ∀ operands, (build operands).fields = fieldsEach operands)
    (operands : List Formula) : (joinedRead build operands).fields = fieldsEach operands := by
  unfold joinedRead
  split
  · rw [fieldsEach, fieldsEach, List.append_nil]
  · exact builds _

mutual

theorem fields_reread (formula : Formula) : formula.reread.fields = formula.fields := by
  cases formula with
  | literal value => rw [reread]
  | field path default => rw [reread]
  | arithmetic op operands =>
      have each := fields_reread_each operands
      rw [reread, fields, ← each]
      cases op <;> first | exact fields_signed _ _ | rw [arithmeticOfRead, fields]
  | compare comparison left right =>
      rw [reread, fields, fields, fields_reread left, fields_reread right]
  | all operands =>
      rw [reread, fields_joined_read fun operands => by rw [fields], fields_reread_each operands, fields]
  | any operands =>
      rw [reread, fields_joined_read fun operands => by rw [fields], fields_reread_each operands, fields]
  | not operand => rw [reread, fields, fields, fields_reread operand]
  | truth operand => rw [reread, fields, fields, fields_reread operand]
  | choose branches otherwise =>
      cases otherwise with
      | none => rw [reread, fields, fields, fields_reread_branches branches]
      | some otherwise =>
          rw [reread, fields, fields, fields_reread_branches branches, fields_reread otherwise]
  | among needle candidates =>
      rw [reread, fields, fields, fields_reread needle, fields_reread_each candidates]
  | contains haystack needle =>
      rw [reread, fields, fields, fields_reread haystack, fields_reread needle]

theorem fields_reread_each (formulas : List Formula) :
    fieldsEach (rereadEach formulas) = fieldsEach formulas := by
  cases formulas with
  | nil => rw [rereadEach]
  | cons formula rest =>
      rw [rereadEach, fieldsEach, fieldsEach, fields_reread formula, fields_reread_each rest]

theorem fields_reread_branches (branches : List (Formula × Formula)) :
    fieldsBranches (rereadBranches branches) = fieldsBranches branches := by
  cases branches with
  | nil => rw [rereadBranches]
  | cons branch rest =>
      obtain ⟨condition, consequence⟩ := branch
      rw [rereadBranches, fieldsBranches, fieldsBranches, fields_reread condition,
        fields_reread consequence, fields_reread_branches rest]

end

variable (environment : Environment)

theorem evaluate_foldl {op : Arithmetic} {step : Decimal → Decimal → Option Decimal} {start : Decimal}
    (folds : ∀ operands, Outcome.arithmetic op operands = Outcome.accumulate op step start operands)
    (absorbs : Absorbs step start) (first second : Formula) (others : List Formula) :
    ((second :: others).foldl (combine op) first).evaluate environment =
      (Outcome.accumulate op step start
        (evaluateEach environment (first :: second :: others))).map .number := by
  induction others generalizing first second with
  | nil => exact evaluate_combine environment folds absorbs first second
  | cons third rest ih =>
      have earlier := ih (combine op first second) third
      rw [evaluateEach, evaluate_combine environment folds absorbs, evaluateEach,
        Outcome.accumulate_nested absorbs] at earlier
      rw [List.foldl_cons, earlier]
      rfl

theorem combine_plain {op : Arithmetic} (plain : op.flattens = false) (left right : Formula) :
    combine op left right = .arithmetic op [left, right] := by
  unfold combine
  split
  · rw [plain, Bool.false_and, if_neg Bool.false_ne_true]
  · rfl

theorem evaluate_apply_sign (operand : Formula) :
    (Script.applySign '-' operand).evaluate environment =
      (Outcome.arithmetic .subtract [operand.evaluate environment]).map .number := by
  unfold Script.applySign
  rw [if_pos rfl]
  split <;> rfl

theorem evaluate_signed {op : Arithmetic} {operands : List Formula}
    (accepts : op.Accepts operands.length) (noCall : op ≠ .least ∧ op ≠ .greatest) :
    (signed op operands).evaluate environment =
      (Outcome.arithmetic op (evaluateEach environment operands)).map .number := by
  match operands with
  | [] => rfl
  | [operand] =>
      by_cases same : op = .subtract
      · rw [signed, if_pos same, same]
        exact evaluate_apply_sign environment operand
      · rw [signed, if_neg same, evaluate]
  | first :: second :: others =>
      cases op with
      | add => exact evaluate_foldl environment (fun _ => rfl) .add first second others
      | multiply => exact evaluate_foldl environment (fun _ => rfl) .mul first second others
      | least => exact absurd rfl noCall.1
      | greatest => exact absurd rfl noCall.2
      | subtract | divide | remainder =>
          cases others with
          | nil => rw [signed, List.foldl_cons, List.foldl_nil, combine_plain rfl, evaluate]
          | cons third rest =>
              simp only [Arithmetic.Accepts, List.length_cons] at accepts
              omega

theorem evaluate_joined_read {build : List Formula → Formula} {value : List Outcome → Outcome}
    (builds : ∀ operands, (build operands).evaluate environment =
      value (evaluateEach environment operands))
    (single : ∀ outcome, value [outcome] = outcome) (operands : List Formula) :
    (joinedRead build operands).evaluate environment = value (evaluateEach environment operands) := by
  unfold joinedRead
  split
  · rw [evaluateEach, evaluateEach, single]
  · exact builds _

variable {path : String → Prop} {scalar : Scalar → Prop}

mutual

theorem evaluate_reread (formula : Formula) (written : formula.Written path scalar) :
    formula.reread.evaluate environment = formula.evaluate environment := by
  cases formula with
  | literal value => rw [reread]
  | field name default => rw [reread]
  | arithmetic op operands =>
      obtain ⟨writes, each⟩ := written
      have same := evaluate_reread_each operands each
      have length : (rereadEach operands).length = operands.length := by
        rw [reread_each_eq_map, List.length_map]
      rw [reread, evaluate, ← same]
      have accepts := writes.1
      rw [← length] at accepts
      cases op with
      | least => rw [arithmeticOfRead, evaluate]
      | greatest => rw [arithmeticOfRead, evaluate]
      | _ => exact evaluate_signed environment accepts (by decide)
  | compare comparison left right =>
      rw [reread, evaluate, evaluate, evaluate_reread left written.1, evaluate_reread right written.2]
  | all operands =>
      rw [reread, evaluate_joined_read environment (fun operands => by rw [evaluate])
        (Outcome.Walks.all.single _), evaluate_reread_each operands written.2, evaluate]
  | any operands =>
      rw [reread, evaluate_joined_read environment (fun operands => by rw [evaluate])
        (Outcome.Walks.any.single _), evaluate_reread_each operands written.2, evaluate]
  | not operand => rw [reread, evaluate, evaluate, evaluate_reread operand written]
  | truth operand => rw [reread, evaluate, evaluate, evaluate_reread operand written]
  | choose branches otherwise =>
      cases otherwise with
      | none => rw [reread, evaluate, evaluate, evaluate_reread_branches branches written.2]
      | some otherwise =>
          rw [reread, evaluate, evaluate, evaluate_reread_branches branches written.2.1,
            evaluate_reread otherwise written.2.2]
  | among needle candidates =>
      rw [reread, evaluate, evaluate, evaluate_reread needle written.1,
        evaluate_reread_each candidates written.2]
  | contains haystack needle =>
      rw [reread, evaluate, evaluate, evaluate_reread haystack written.1,
        evaluate_reread needle written.2]

theorem evaluate_reread_each (formulas : List Formula)
    (written : WrittenEach path scalar formulas) :
    evaluateEach environment (rereadEach formulas) = evaluateEach environment formulas := by
  cases formulas with
  | nil => rw [rereadEach]
  | cons formula rest =>
      rw [rereadEach, evaluateEach, evaluateEach, evaluate_reread formula written.1,
        evaluate_reread_each rest written.2]

theorem evaluate_reread_branches (branches : List (Formula × Formula))
    (written : WrittenBranches path scalar branches) :
    evaluateBranches environment (rereadBranches branches) =
      evaluateBranches environment branches := by
  cases branches with
  | nil => rw [rereadBranches]
  | cons branch rest =>
      obtain ⟨condition, consequence⟩ := branch
      rw [rereadBranches, evaluateBranches, evaluateBranches, evaluate_reread condition written.1,
        evaluate_reread consequence written.2.1, evaluate_reread_branches rest written.2.2]

end

end Formula

end Tariff
