import Tariff.Proofs.Formula.Confined

set_option autoImplicit false

namespace Tariff

-- Every value but a text that says no number.
def Scalar.IsNumeric (value : Scalar) : Prop := ∃ n, value.number? = some n

def Arithmetic.Overflows (op : Arithmetic) : Prop := op = .add ∨ op = .subtract ∨ op = .multiply

namespace Formula

variable {operations : List Arithmetic}

def IsOverflow (operations : List Arithmetic) (failure : Failure) : Prop :=
  ∃ op ∈ operations, op.Overflows ∧ failure = .overflow op

theorem numeric_closed : Closed Scalar.IsNumeric (IsOverflow operations) where
  null := ⟨.zero, rfl⟩
  bool value := ⟨if value then .one else .zero, rfl⟩
  number value := ⟨value, rfl⟩
  notNumeric value isNumeric absent := by
    obtain ⟨n, read⟩ := isNumeric
    simp [absent] at read

theorem undivided_permits {op : Arithmetic} (member : op ∈ operations)
    (undivided : op ≠ .divide ∧ op ≠ .remainder) : op.Permits (IsOverflow operations) := by
  cases op with
  | add => exact ⟨.add, member, .inl rfl, rfl⟩
  | subtract => exact ⟨.subtract, member, .inr (.inl rfl), rfl⟩
  | multiply => exact ⟨.multiply, member, .inr (.inr rfl), rfl⟩
  | divide => exact absurd rfl undivided.1
  | remainder => exact absurd rfl undivided.2
  | least => trivial
  | greatest => trivial

theorem undivided_value_or_overflow (formula : Formula) (counted : formula.Counted)
    (undivided : ∀ op ∈ formula.operations, op ≠ .divide ∧ op ≠ .remainder)
    (scalars : ∀ value ∈ formula.scalars, value.IsNumeric) (environment : Environment)
    (reads : ∀ path ∈ formula.fields, environment.lookup path = .missing ∨
      ∃ value, environment.lookup path = .found value ∧ value.IsNumeric) :
    (∃ value, formula.evaluate environment = .ok value ∧ value.IsNumeric) ∨
      ∃ op ∈ formula.operations, op.Overflows ∧
        formula.evaluate environment = .error (.overflow op) := by
  have confinement : Confinement Scalar.IsNumeric (IsOverflow formula.operations) environment
      formula.scalars formula.fields formula.operations :=
    { scalars := scalars
      values := by
        intro path member value found
        rcases reads path member with missing | ⟨other, read, isNumeric⟩
        · simp [missing] at found
        · simp only [read, Lookup.found.injEq] at found
          exact found ▸ isNumeric
      absent := by
        intro path member unavailable
        rcases reads path member with missing | ⟨other, read, _⟩
        · simp [missing] at unavailable
        · simp [read] at unavailable
      permits := fun op member => undivided_permits member (undivided op member) }
  generalize evaluated : formula.evaluate environment = outcome
  have confined := evaluate_confined numeric_closed formula counted confinement
  rw [evaluated] at confined
  cases confined with
  | ok isNumeric => exact .inl ⟨_, rfl, isNumeric⟩
  | error isOverflow =>
      obtain ⟨op, member, overflows, same⟩ := isOverflow
      exact .inr ⟨op, member, overflows, by rw [same]⟩

def memberStay : Formula :=
  .arithmetic .multiply
    [.arithmetic .greatest [.field "camper.nights" (some (.text " 2 ")), .literal .null],
      .choose [(.any [.field "camper.member" none, .literal (.bool false)], .literal (.text "7.5"))]
        none]

def endlessStay : Environment :=
  (Environment.empty.bind "camper.nights" (.text "79228162514264337593543950335")).bind
    "camper.member" (.bool true)

theorem undivided_value_or_overflow_endless :
    memberStay.Counted ∧ (∀ op ∈ memberStay.operations, op ≠ .divide ∧ op ≠ .remainder) ∧
      ∃ op ∈ memberStay.operations, op.Overflows ∧
        memberStay.evaluate endlessStay = .error (.overflow op) := by
  have counted : memberStay.Counted :=
    ⟨by decide, ⟨by decide, trivial, trivial, trivial⟩, ⟨⟨trivial, trivial, trivial⟩, trivial, trivial⟩,
      trivial⟩
  have undivided : ∀ op ∈ memberStay.operations, op ≠ .divide ∧ op ≠ .remainder := by decide
  have scalars : ∀ value ∈ memberStay.scalars, value.IsNumeric := by
    have each : ∀ value ∈ memberStay.scalars, value.number?.isSome = true := by decide +kernel
    exact fun value member => Option.isSome_iff_exists.mp (each value member)
  have reads : ∀ path ∈ memberStay.fields, endlessStay.lookup path = .missing ∨
      ∃ value, endlessStay.lookup path = .found value ∧ value.IsNumeric := by
    intro path member
    simp only [memberStay, fields, fieldsEach, fieldsBranches, List.append_nil, List.cons_append,
      List.nil_append, List.mem_cons, List.not_mem_nil, or_false] at member
    rcases member with nights | isMember
    · have read : (Scalar.text "79228162514264337593543950335").number?.isSome = true := by
        decide +kernel
      exact .inr ⟨_, nights ▸ rfl, Option.isSome_iff_exists.mp read⟩
    · exact .inr ⟨.bool true, isMember ▸ rfl, .one, rfl⟩
  refine ⟨counted, undivided, ?_⟩
  have either := undivided_value_or_overflow memberStay counted undivided scalars endlessStay reads
  refine either.resolve_left ?_
  rintro ⟨value, evaluated, _⟩
  have failed : (memberStay.evaluate endlessStay).isOk = false := by decide +kernel
  simp [evaluated, Except.isOk, Except.toBool] at failed

end Formula

end Tariff
