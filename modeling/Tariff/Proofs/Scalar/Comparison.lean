import Tariff.Proofs.Decimal.Value
import Tariff.Scalar

set_option autoImplicit false

namespace Tariff.Scalar

theorem order?_texts (a b : String) : (text a).order? (text b) = some (Ord.compare a b) := rfl

-- A text has an order to another text anyway, and to other values if it says a number.
theorem order?_swap (a b : Scalar) : (a.order? b).map Ordering.swap = b.order? a := by
  cases a with
  | text s =>
      cases b with
      | text t => rw [order?_texts, order?_texts, Option.map_some, ← Std.OrientedOrd.eq_swap]
      | _ => cases said : numberOfText? s <;> simp [order?, number?, said, Decimal.order_swap]
  | _ =>
      cases b with
      | text t => cases said : numberOfText? t <;> simp [order?, number?, said, Decimal.order_swap]
      | _ => simp [order?, number?, Decimal.order_swap]

theorem alike_iff (a b : Scalar) :
    a.alike b = true ↔ (a = .null ↔ b = .null) ∧ a.order? b = some .eq := by
  cases a with
  | text s =>
      cases b with
      | text t => simp [alike, order?_texts]
      | _ => cases said : numberOfText? s <;>
          simp [alike, order?, number?, said, Decimal.order_eq_iff]
  | _ =>
      cases b with
      | text t => cases said : numberOfText? t <;>
          simp [alike, order?, number?, said, Decimal.order_eq_iff]
      | _ => simp [alike, order?, number?, Decimal.order_eq_iff, Decimal.same_refl]

theorem alike_refl (a : Scalar) : a.alike a = true := by
  cases a with
  | null => rfl
  | bool value => exact Decimal.same_refl _
  | number value => exact Decimal.same_refl value
  | text value => exact beq_self_eq_true value

theorem alike_symm (a b : Scalar) : a.alike b = b.alike a := by
  rw [Bool.eq_iff_iff, alike_iff, alike_iff, ← order?_swap b a]
  cases b.order? a with
  | none => simp
  | some order => cases order <;> simp [Ordering.swap, iff_comm]

theorem same_symm (a b : Scalar) : a.same b = b.same a := by
  cases a <;> cases b <;> simp [same, Decimal.same_symm, Bool.beq_comm]

theorem alike_of_same {a b : Scalar} (isSame : a.same b = true) : a.alike b = true := by
  cases a <;> cases b <;> simp_all [same, alike, number?, Decimal.same_refl]

def orderings : List Comparison := [.above, .atLeast, .below, .atMost]

-- Either no ordering is decided, from neither side, or all are, and they leave one of three cases.
def OrderingsAgree (a b : Scalar) : Prop :=
  (∀ ordering ∈ orderings, a.compare? ordering b = none ∧ b.compare? ordering a = none) ∨
    ∃ below above atMost atLeast : Bool,
      (a.compare? .below b = some below ∧ b.compare? .above a = some below) ∧
      (a.compare? .above b = some above ∧ b.compare? .below a = some above) ∧
      (a.compare? .atMost b = some atMost ∧ b.compare? .atLeast a = some atMost) ∧
      (a.compare? .atLeast b = some atLeast ∧ b.compare? .atMost a = some atLeast) ∧
      atMost = !above ∧ atLeast = !below ∧ [below, above, atMost && atLeast].count true = 1

theorem orderings_agree (a b : Scalar) : OrderingsAgree a b := by
  have back := order?_swap a b
  cases order : a.order? b with
  | none =>
      have noneBack : b.order? a = none := by rw [← back, order, Option.map_none]
      left
      simp [orderings, compare?, order, noneBack]
  | some place =>
      have swapped : b.order? a = some place.swap := by rw [← back, order, Option.map_some]
      right
      refine ⟨place == .lt, place == .gt, place != .gt, place != .lt, ?_⟩
      simp only [compare?, order, swapped, Option.map_some]
      cases place <;> decide

theorem comparison_is_coherent (a b : Scalar) :
    (a.compare? .equal a = some true ∧ a.compare? .identical a = some true) ∧
    (∃ equal identical : Bool,
      (a.compare? .equal b = some equal ∧ b.compare? .equal a = some equal ∧
        a.compare? .unequal b = some !equal) ∧
      (a.compare? .identical b = some identical ∧ b.compare? .identical a = some identical ∧
        a.compare? .distinct b = some !identical)) ∧
    (a.compare? .identical b = some true → a.compare? .equal b = some true) ∧
    OrderingsAgree a b ∧
    (a.compare? .equal b = some true →
      a.compare? .atMost b = some true ∧ a.compare? .atLeast b = some true) := by
  refine ⟨⟨?_, ?_⟩, ⟨a.alike b, a.same b, ⟨rfl, ?_, rfl⟩, rfl, ?_, rfl⟩, ?_, orderings_agree a b, ?_⟩
  · exact congrArg some (alike_refl a)
  · exact congrArg some (same_refl a)
  · exact congrArg some (alike_symm b a)
  · exact congrArg some (same_symm b a)
  · intro identical
    exact congrArg some (alike_of_same (Option.some.inj identical))
  · intro equal
    have level := ((alike_iff a b).mp (Option.some.inj equal)).2
    simp [compare?, level]

theorem comparison_is_coherent_minus_zero :
    ((number .zero).compare? .identical (number Decimal.zero.neg) = some true ∧
      (number .zero).compare? .equal (number Decimal.zero.neg) = some true) ∧
    ((text " 1.0 ").compare? .identical (number .one) = some false ∧
      (text " 1.0 ").compare? .equal (number .one) = some true ∧
      (text " 1.0 ").compare? .atMost (number .one) = some true ∧
      (text " 1.0 ").compare? .atLeast (number .one) = some true) := by
  obtain ⟨_, _, narrower, _⟩ := comparison_is_coherent (number .zero) (number Decimal.zero.neg)
  obtain ⟨_, _, _, _, level⟩ := comparison_is_coherent (text " 1.0 ") (number .one)
  have identical : (number .zero).compare? .identical (number Decimal.zero.neg) = some true := by
    decide
  have equal : (text " 1.0 ").compare? .equal (number .one) = some true := rfl
  exact ⟨⟨identical, narrower identical⟩, rfl, equal, level equal⟩

end Tariff.Scalar
