/-! Integer square roots, rounded down, digit by digit in base four. -/

namespace ContractMachine

/-- The root of a number of at most `digits` base-four digits. -/
def floorSqrtDigits : (digits : Nat) → Nat → Nat
  | 0, _ => 0
  | digits + 1, n =>
    let r := 2 * floorSqrtDigits digits (n / 4)
    if (r + 1) * (r + 1) ≤ n then r + 1 else r

def floorSqrt (n : Nat) : Nat := floorSqrtDigits (n.log2 / 2 + 1) n

theorem floorSqrtDigits_spec (digits n : Nat) (h : n < Nat.pow 4 digits) :
    floorSqrtDigits digits n * floorSqrtDigits digits n ≤ n ∧
      n < (floorSqrtDigits digits n + 1) * (floorSqrtDigits digits n + 1) := by
  induction digits generalizing n with
  | zero => simp_all [floorSqrtDigits]
  | succ digits ih =>
    obtain ⟨hle, hlt⟩ := ih (n / 4) (by rw [Nat.pow_eq, Nat.pow_succ] at h; rw [Nat.pow_eq]; omega)
    simp only [floorSqrtDigits]
    generalize floorSqrtDigits digits (n / 4) = r at hle hlt
    have hsquare : 2 * r * (2 * r) = 4 * (r * r) := by
      rw [Nat.mul_mul_mul_comm]
    have hnext : (r + 1) * (r + 1) = r * r + 2 * r + 1 := by
      rw [Nat.add_mul, Nat.mul_add]; omega
    have hodd : (2 * r + 1) * (2 * r + 1) = 4 * (r * r) + 4 * r + 1 := by
      rw [Nat.add_mul, Nat.mul_add, hsquare]; omega
    have heven : (2 * r + 1 + 1) * (2 * r + 1 + 1) = 4 * ((r + 1) * (r + 1)) := by
      rw [show 2 * r + 1 + 1 = 2 * (r + 1) by omega, Nat.mul_mul_mul_comm]
    split <;> omega

theorem lt_four_pow_log2 (n : Nat) : n < Nat.pow 4 (n.log2 / 2 + 1) := by
  refine Nat.lt_of_lt_of_le Nat.lt_log2_self ?_
  rw [Nat.pow_eq, show 4 = Nat.pow 2 2 from rfl, Nat.pow_eq, ← Nat.pow_mul]
  exact Nat.pow_le_pow_right (by decide) (by omega)

/-- The root is the largest number whose square does not exceed `n`. -/
theorem floorSqrt_spec (n : Nat) :
    floorSqrt n * floorSqrt n ≤ n ∧ n < (floorSqrt n + 1) * (floorSqrt n + 1) :=
  floorSqrtDigits_spec _ n (lt_four_pow_log2 n)

end ContractMachine
