import Mathlib

-- Numbers of 53 significant bits, as whole multiples of any unit that is a power of two. Rounding is to the
-- nearest, and to the even one of two that are equally near.
namespace Binary64

def roundEven (n d : Nat) : Nat :=
  let q := n / d
  let r := n % d
  if 2 * r < d then q
  else if d < 2 * r then q + 1
  else q + q % 2

-- The unit in the last place.
def ulp (n : Nat) : Nat :=
  2 ^ (n.log2 - 52)

def round (n : Nat) : Nat :=
  roundEven n (ulp n) * ulp n

example : round (2 ^ 54 + 2) = 2 ^ 54 ∧ round (2 ^ 54 + 6) = 2 ^ 54 + 8 := by decide +kernel

variable {a d k n : Nat}

-- Rounding does not go past a whole number.
theorem le_roundEven (hd : 0 < d) (h : a * d ≤ n) : a ≤ roundEven n d := by
  have hq : a ≤ n / d := (Nat.le_div_iff_mul_le hd).mpr h
  simp only [roundEven]
  split_ifs <;> omega

theorem roundEven_le (hd : 0 < d) (h : n ≤ a * d) : roundEven n d ≤ a := by
  have hq : n / d ≤ a := Nat.div_le_of_le_mul (Nat.mul_comm a d ▸ h)
  by_cases hr : n % d = 0
  case pos => simpa [roundEven, hr, hd] using hq
  case neg =>
    have hlt : n / d < a := by
      refine Nat.lt_of_le_of_ne hq fun he => hr ?_
      have hn := Nat.div_add_mod n d
      rw [he, Nat.mul_comm] at hn
      omega
    simp only [roundEven]
    split_ifs <;> omega

theorem ulp_dvd (h : n < 2 ^ (k + 53)) : ulp n ∣ 2 ^ k := by
  apply Nat.pow_dvd_pow
  by_cases hn : n = 0
  case pos => simp [hn]
  case neg =>
    have := (Nat.log2_lt hn).mpr h
    omega

-- Nor does it go past a number that has 53 bits.
theorem le_round (hn : n < 2 ^ (k + 53)) (h : a * 2 ^ k ≤ n) : a * 2 ^ k ≤ round n := by
  have ⟨c, hc⟩ := ulp_dvd hn
  have hm : a * 2 ^ k = a * c * ulp n := by rw [hc, Nat.mul_comm (ulp n), Nat.mul_assoc]
  rw [hm] at h ⊢
  exact Nat.mul_le_mul_right _ <| le_roundEven (Nat.two_pow_pos _) h

theorem round_le (hn : n < 2 ^ (k + 53)) (h : n ≤ a * 2 ^ k) : round n ≤ a * 2 ^ k := by
  have ⟨c, hc⟩ := ulp_dvd hn
  have hm : a * 2 ^ k = a * c * ulp n := by rw [hc, Nat.mul_comm (ulp n), Nat.mul_assoc]
  rw [hm] at h ⊢
  exact Nat.mul_le_mul_right _ <| roundEven_le (Nat.two_pow_pos _) h

end Binary64
