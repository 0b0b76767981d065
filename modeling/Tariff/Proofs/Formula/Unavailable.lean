import Tariff.Pricing
import Tariff.Proofs.Environment.Bound
import Tariff.Proofs.Formula.Related

set_option autoImplicit false

namespace Tariff

variable (environment : Environment) (path : String)

theorem Environment.lookup_bind_unavailable :
    (environment.bindUnavailable path).lookup path = .unavailable :=
  Binding.Members.read_bind _ (Path.of_string_ne_nil path) .unavailable environment.members

theorem Environment.lookup_bind_unavailable_apart (value : Scalar) {other : String}
    (different : Path.ofString other ≠ Path.ofString path) :
    (environment.bindUnavailable path).lookup other =
      (environment.bind path value).lookup other := by
  have insides : Binding.inner (some .unavailable) = Binding.inner (some (.leaf value)) := rfl
  exact Binding.Members.read_bind_apart _ _ different insides environment.members

-- Two paths of the same segments are one, so the one that is unavailable may be written differently.
theorem unavailable_reads_alike (value : Scalar) (other : String) :
    Formula.ReadsAlike True Eq (environment.bindUnavailable path) (environment.bind path value)
      other := by
  intro default
  by_cases here : Path.ofString other = Path.ofString path
  · have unavailable : (environment.bindUnavailable path).lookup other = .unavailable := by
      rw [Environment.lookup, here]
      exact environment.lookup_bind_unavailable path
    rw [unavailable]
    exact .forgiven trivial _ _
  · rw [environment.lookup_bind_unavailable_apart path value here]
    exact .refl .same _

theorem unavailable_evaluate {formula : Formula} {result : Scalar}
    (evaluated : formula.evaluate (environment.bindUnavailable path) = .ok result) (value : Scalar) :
    formula.evaluate (environment.bind path value) = .ok result := by
  have related : Outcome.Alike True Eq (formula.evaluate (environment.bindUnavailable path))
      (formula.evaluate (environment.bind path value)) :=
    Formula.evaluate_related nearness_eq formula
      ⟨fun other _ => unavailable_reads_alike environment path value other,
        fun op _ => op.respects_eq⟩
  rw [evaluated] at related
  generalize formula.evaluate (environment.bind path value) = other at related ⊢
  cases related with
  | ok values =>
      cases values with
      | same => rfl
      | number numbers => rw [numbers]

open Pricing in
theorem unavailable_amount {rule : Rule} {amount : Decimal}
    (priced : amountOf (environment.bindUnavailable path) rule = .ok amount) (value : Scalar) :
    amountOf (environment.bind path value) rule = .ok amount := by
  unfold amountOf at priced ⊢
  cases body : rule.body with
  | error defect => simp [body] at priced
  | ok formula =>
      simp only [body] at priced ⊢
      cases evaluated : formula.evaluate (environment.bindUnavailable path) with
      | error failure => simp [evaluated, Outcome.number] at priced
      | ok result =>
          rw [unavailable_evaluate environment path evaluated value, ← evaluated]
          exact priced

open Pricing in
theorem unavailable_never_priced :
    (∀ formula : Formula, ∀ result,
        formula.evaluate (environment.bindUnavailable path) = .ok result →
        ∀ value, formula.evaluate (environment.bind path value) = .ok result) ∧
      (∀ rule amount, amountOf (environment.bindUnavailable path) rule = .ok amount →
        ∀ value, amountOf (environment.bind path value) rule = .ok amount) ∧
      ∀ rule first second,
        amountOf (environment.bind path first) rule ≠ amountOf (environment.bind path second) rule →
        ∃ cause, amountOf (environment.bindUnavailable path) rule = .error cause := by
  refine ⟨fun formula result => unavailable_evaluate environment path,
    fun rule amount => unavailable_amount environment path, ?_⟩
  intro rule first second depends
  cases priced : amountOf (environment.bindUnavailable path) rule with
  | error cause => exact ⟨cause, rfl⟩
  | ok amount =>
      have both := unavailable_amount environment path priced
      exact absurd ((both first).trans (both second).symm) depends

def freeForStaff : Rule :=
  ⟨"total", none, .ok (.ifElse (.field "registration.staff" none) (.literal (.number .zero))
    (.sumOf "fee"))⟩

open Pricing in
theorem unavailable_never_priced_staff :
    (∀ fee, amountOf ((Environment.empty.bind "registration.staff" (.bool true)).bind "campers.fee"
        fee) freeForStaff = .ok .zero) ∧
      ∃ cause, amountOf (Environment.empty.bindUnavailable "campers.fee") freeForStaff =
        .error cause := by
  constructor
  · exact (unavailable_never_priced (Environment.empty.bind "registration.staff" (.bool true))
      "campers.fee").2.1 freeForStaff .zero (by decide +kernel)
  · exact (unavailable_never_priced Environment.empty "campers.fee").2.2 freeForStaff
      (.number .zero) (.number .one) (by decide +kernel)

end Tariff
