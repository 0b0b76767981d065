import Tariff.Formula.Basic

set_option autoImplicit false

namespace Tariff

namespace Formula

def operands : Formula → List Formula
  | .literal _ => []
  | .field _ _ => []
  | .arithmetic _ operands => operands
  | .compare _ left right => [left, right]
  | .all operands => operands
  | .any operands => operands
  | .not operand => [operand]
  | .truth operand => [operand]
  | .choose branches otherwise =>
      branches.flatMap (fun branch => [branch.1, branch.2]) ++ otherwise.toList
  | .among needle candidates => needle :: candidates
  | .contains haystack needle => [haystack, needle]

inductive Occurs (part : Formula) : Formula → Prop
  | whole : Occurs part part
  | within {operand formula : Formula} (isOperand : operand ∈ formula.operands)
      (occurs : Occurs part operand) : Occurs part formula

theorem fields_each_eq_flat_map (formulas : List Formula) :
    fieldsEach formulas = formulas.flatMap fields := by
  induction formulas with
  | nil => rw [fieldsEach, List.flatMap_nil]
  | cons formula rest ih => rw [fieldsEach, ih, List.flatMap_cons]

theorem fields_branches_eq_flat_map (branches : List (Formula × Formula)) :
    fieldsBranches branches = (branches.flatMap fun branch => [branch.1, branch.2]).flatMap fields := by
  induction branches with
  | nil => rfl
  | cons branch rest ih =>
      obtain ⟨condition, consequence⟩ := branch
      simp [fieldsBranches, ih]

theorem operand_fields {operand formula : Formula} (isOperand : operand ∈ formula.operands) :
    operand.fields ⊆ formula.fields := by
  have each : formula.fields = formula.operands.flatMap fields := by
    cases formula with
    | literal value => cases isOperand
    | field path default => cases isOperand
    | choose branches otherwise =>
        cases otherwise <;> simp [fields, operands, fields_branches_eq_flat_map]
    | _ => simp [fields, operands, fields_each_eq_flat_map]
  intro path member
  rw [each]
  exact List.mem_flatMap.mpr ⟨operand, isOperand, member⟩

theorem Occurs.fields_subset {part formula : Formula} (occurs : Occurs part formula) :
    part.fields ⊆ formula.fields := by
  induction occurs with
  | whole => exact List.Subset.refl _
  | within isOperand _ ih => exact List.Subset.trans ih (operand_fields isOperand)

theorem Occurs.path_mem {path : String} {default : Option Scalar} {formula : Formula}
    (occurs : Occurs (.field path default) formula) : path ∈ formula.fields :=
  occurs.fields_subset List.mem_cons_self

end Formula

end Tariff
