import Tariff.Binary64.Text
import Tariff.Proofs.Decimal.Text

set_option autoImplicit false

namespace Tariff.Binary64

open Decimal

variable {digits : List Char} (nonempty : digits ≠ []) (all : digits.all isDigit = true)

theorem zeros_all (count : Nat) : (List.replicate count '0').all isDigit = true := by
  have zero : isDigit '0' = true := by decide
  rw [List.all_replicate, zero, ite_self]

theorem split_all (count : Nat) (all : digits.all isDigit = true) :
    (digits.take count).all isDigit = true ∧ (digits.drop count).all isDigit = true := by
  rwa [← List.take_append_drop count digits, List.all_append, Bool.and_eq_true] at all

include nonempty all

theorem place_point_parts {before : Int} (fewer : before < digits.length) :
    ∃ whole fraction, Numeral whole fraction ∧
      placePoint digits before = partsText whole fraction ∧
      digitsValue (whole ++ fraction) = digitsValue digits ∧
      fraction.length = (digits.length - before).toNat ∧
      whole.length + fraction.length ≤ (-before).toNat + digits.length + 1 := by
  by_cases small : before ≤ 0
  · refine ⟨['0'], List.replicate (-before).toNat '0' ++ digits, ⟨List.cons_ne_nil _ _, rfl, ?_⟩, ?_,
      ?_, ?_, ?_⟩
    · rw [List.all_append, zeros_all, all]
      rfl
    · have more : (List.replicate (-before).toNat '0' ++ digits).isEmpty = false := by
        rw [List.isEmpty_eq_false_iff]
        simp [nonempty]
      rw [placePoint, if_pos small, partsText, more, if_neg Bool.false_ne_true]
      rfl
    · have zeros : ['0'] ++ (List.replicate (-before).toNat '0' ++ digits) =
          List.replicate ((-before).toNat + 1) '0' ++ digits := rfl
      have padded := pad_left_value digits ((-before).toNat + 1 + digits.length)
      rwa [padLeft, Nat.add_sub_cancel, ← zeros] at padded
    · rw [List.length_append, List.length_replicate]
      omega
    · rw [List.length_append, List.length_replicate, List.length_singleton, Nat.add_comm]
  · obtain ⟨front, behind⟩ := split_all before.toNat all
    have some : digits.take before.toNat ≠ [] := by
      apply List.ne_nil_of_length_pos
      rw [List.length_take]
      omega
    have more : (digits.drop before.toNat).isEmpty = false := by
      rw [List.isEmpty_eq_false_iff]
      apply List.ne_nil_of_length_pos
      rw [List.length_drop]
      omega
    refine ⟨_, _, ⟨some, front, behind⟩, ?_, ?_, ?_, ?_⟩
    · rw [placePoint, if_neg small, partsText]
      dsimp only
      rw [more, if_neg Bool.false_ne_true, if_neg Bool.false_ne_true]
    · rw [List.take_append_drop]
    · rw [List.length_drop]
      omega
    · rw [← List.length_append, List.take_append_drop]
      omega

theorem place_point_behind {before : Int} (outside : digits.length ≤ before) :
    IsNumeral (before.toNat + 1) (placePoint digits before ++ ['.', '0']) := by
  have some := List.length_pos_iff.mpr nonempty
  have whole : digits.take before.toNat = digits := by
    apply List.take_of_length_le
    omega
  have none : digits.drop before.toNat = [] := by
    apply List.drop_eq_nil_of_le
    omega
  refine ⟨digits ++ List.replicate (before.toNat - digits.length) '0', ['0'], ⟨?_, ?_, rfl⟩, ?_, ?_⟩
  · exact fun empty => nonempty (List.append_eq_nil_iff.mp empty).1
  · rw [List.all_append, all, zeros_all]
    rfl
  · rw [List.length_append, List.length_replicate, List.length_singleton]
    omega
  · rw [placePoint, if_neg (by omega)]
    dsimp only
    rw [whole, none, List.isEmpty_nil, if_pos rfl]
    rfl

omit nonempty all

def shortestDigits (x : Binary64) : List Char := Nat.toDigits 10 (x.shortest .toEven).1

-- The number of digits before the point, or how many zeros are behind it, counted below zero.
def pointPlace (x : Binary64) : Int := x.shortestDigits.length + (x.shortest .toEven).2

theorem json_text_eq (x : Binary64) :
    x.jsonText = x.signText ++
      if x.isZero then ['0', '.', '0']
      else if -5 < x.pointPlace ∧ x.pointPlace ≤ 16 then
        if 0 ≤ (x.shortest .toEven).2 then placePoint x.shortestDigits x.pointPlace ++ ['.', '0']
        else placePoint x.shortestDigits x.pointPlace
      else
        partsText (x.shortestDigits.take 1) (x.shortestDigits.drop 1) ++
          exponentText (x.pointPlace - 1) := rfl

theorem json_text_cases (x : Binary64) :
    (∃ text, IsNumeral (max 17 (x.shortestDigits.length + 5)) text ∧
        x.jsonText = x.signText ++ text) ∨
      (x.isZero = false ∧ (x.pointPlace ≤ -5 ∨ 16 < x.pointPlace) ∧
        x.jsonText = x.signText ++ (partsText (x.shortestDigits.take 1) (x.shortestDigits.drop 1) ++
          exponentText (x.pointPlace - 1))) := by
  have some : x.shortestDigits ≠ [] := Nat.toDigits_ne_nil
  have all : x.shortestDigits.all isDigit = true := to_digits_all _
  have place : x.pointPlace = x.shortestDigits.length + (x.shortest .toEven).2 := rfl
  rw [json_text_eq]
  by_cases zero : x.isZero = true
  · rw [if_pos zero]
    refine .inl ⟨_, ⟨['0'], ['0'], ⟨List.cons_ne_nil _ _, rfl, rfl⟩, ?_, rfl⟩, rfl⟩
    exact Nat.le_trans (by decide) (Nat.le_max_left 17 _)
  · rw [if_neg zero]
    by_cases positional : -5 < x.pointPlace ∧ x.pointPlace ≤ 16
    · rw [if_pos positional]
      by_cases whole : 0 ≤ (x.shortest .toEven).2
      · have placed := place_point_behind some all
          (show (x.shortestDigits.length : Int) ≤ x.pointPlace by omega)
        rw [if_pos whole]
        exact .inl ⟨_, placed.mono (by omega), rfl⟩
      · rw [if_neg whole]
        obtain ⟨front, fraction, numeral, same, _, _, length⟩ := place_point_parts some all
          (show x.pointPlace < x.shortestDigits.length by omega)
        exact .inl ⟨_, ⟨front, fraction, numeral, by omega, same⟩, rfl⟩
    · rw [if_neg positional]
      exact .inr ⟨Bool.eq_false_iff.mpr zero, by omega, rfl⟩

theorem json_text_numeral (x : Binary64) (noExponent : 'e' ∉ x.jsonText) :
    ∃ whole fraction, Numeral whole fraction ∧
      x.jsonText = x.signText ++ partsText whole fraction := by
  rcases x.json_text_cases with ⟨text, ⟨whole, fraction, numeral, _, same⟩, written⟩ | ⟨_, _, written⟩
  · exact ⟨whole, fraction, numeral, same ▸ written⟩
  · rw [written] at noExponent
    exact absurd (by simp [exponentText]) noExponent

theorem json_text_ne_nil (x : Binary64) : x.jsonText ≠ [] := by
  rcases x.json_text_cases with ⟨text, ⟨whole, fraction, numeral, _, same⟩, written⟩ | ⟨_, _, written⟩
  · rw [written, same]
    refine List.append_ne_nil_of_right_ne_nil _ ?_
    exact List.append_ne_nil_of_left_ne_nil numeral.nonempty _
  · rw [written]
    refine List.append_ne_nil_of_right_ne_nil _ ?_
    exact List.append_ne_nil_of_right_ne_nil _ (List.cons_ne_nil _ _)

theorem json_text_sign (x : Binary64) : x.jsonText = x.signText ++ (x.withSign false).jsonText := by
  cases x
  rfl

end Tariff.Binary64
