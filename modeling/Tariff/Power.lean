
set_option autoImplicit false

namespace Tariff

def tenTo (zeros : Nat) : Nat := Nat.pow 10 zeros

def twoTo (zeros : Nat) : Nat := Nat.pow 2 zeros

theorem ten_to_zero : tenTo 0 = 1 := rfl

theorem ten_to_succ (zeros : Nat) : tenTo (zeros + 1) = tenTo zeros * 10 := rfl

theorem ten_to_pos (zeros : Nat) : 0 < tenTo zeros := by
  induction zeros with
  | zero => decide
  | succ zeros ih =>
      rw [ten_to_succ]
      omega

theorem ten_to_add (a b : Nat) : tenTo (a + b) = tenTo a * tenTo b := by
  induction b with
  | zero => rw [Nat.add_zero, ten_to_zero, Nat.mul_one]
  | succ b ih => rw [Nat.add_succ, ten_to_succ, ih, ten_to_succ, Nat.mul_assoc]

end Tariff
