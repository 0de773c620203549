import Mathlib

namespace Prefix

variable {w : Nat}

-- Two words agree on their `n` most significant bits.
def Agree (n : Nat) (a b : BitVec w) : Prop :=
  a >>> (w - n) = b >>> (w - n)

instance : Decidable (Agree n a b : Prop) :=
  inferInstanceAs <| Decidable (_ = _)

namespace Agree

variable {a b c : BitVec w}

theorem refl (n : Nat) (a : BitVec w) : Agree n a a :=
  rfl

theorem symm (h : Agree n a b) : Agree n b a :=
  Eq.symm h

theorem trans (h₁ : Agree n a b) (h₂ : Agree n b c) : Agree n a c :=
  Eq.trans h₁ h₂

theorem mono (hm : m ≤ n) (h : Agree n a b) : Agree m a b := by
  have hs : w - m = (w - n) + ((w - m) - (w - n)) := by omega
  unfold Agree at h ⊢
  rw [hs, BitVec.shiftRight_add, BitVec.shiftRight_add, h]

theorem iff_div : Agree n a b ↔ a.toNat / 2 ^ (w - n) = b.toNat / 2 ^ (w - n) := by
  simp [Agree, ← BitVec.toNat_inj, Nat.shiftRight_eq_div_pow]

theorem iff_getMsbD (hn : n ≤ w) : Agree n a b ↔ ∀ i < n, a.getMsbD i = b.getMsbD i := by
  constructor
  case mp =>
    intro h i hi
    have hb := congrArg (BitVec.getLsbD · (n - 1 - i)) h
    have hk : w - n + (n - 1 - i) = w - 1 - i := by omega
    simpa [BitVec.getMsbD_eq_getLsbD, show i < w by omega, hk] using hb
  case mpr =>
    intro h
    apply BitVec.eq_of_getLsbD_eq
    intro j hj
    by_cases hjn : j < n
    case pos =>
      have hb := h (n - 1 - j) (by omega)
      have hk : w - 1 - (n - 1 - j) = w - n + j := by omega
      simpa [BitVec.getMsbD_eq_getLsbD, show n - 1 - j < w by omega, hk] using hb
    case neg =>
      have hk : w ≤ w - n + j := by omega
      simp [BitVec.getLsbD_of_ge _ _ hk]

-- Prefixes of one word are nested: the shorter one covers the longer one.
theorem of_common (hm : m ≤ n) (h₁ : Agree m a c) (h₂ : Agree n b c) : Agree m a b :=
  h₁.trans (h₂.mono hm).symm

end Agree

section Masks

-- The masks of a prefix of length `n`, and the range of words they span.
def netmask (w n : Nat) : BitVec w :=
  BitVec.allOnes w <<< (w - n)

def hostmask (w n : Nat) : BitVec w :=
  BitVec.allOnes w >>> n

theorem and_netmask_toNat (a : BitVec w) (n : Nat) :
    (a &&& netmask w n).toNat = a.toNat / 2 ^ (w - n) * 2 ^ (w - n) := by
  have h : a &&& netmask w n = (a >>> (w - n)) <<< (w - n) := by
    ext i hi
    by_cases hs : i < w - n
    case pos => simp [netmask, hs]
    case neg => simp [netmask, hs, hi, show w - n + (i - (w - n)) = i by omega]
  have hb : a.toNat / 2 ^ (w - n) * 2 ^ (w - n) < 2 ^ w :=
    lt_of_le_of_lt (Nat.div_mul_le_self ..) a.isLt
  rw [h, BitVec.toNat_shiftLeft, BitVec.toNat_ushiftRight, Nat.shiftRight_eq_div_pow,
    Nat.shiftLeft_eq, Nat.mod_eq_of_lt hb]

theorem hostmask_toNat (hn : n ≤ w) : (hostmask w n).toNat = 2 ^ (w - n) - 1 := by
  simp only [hostmask, BitVec.toNat_ushiftRight, BitVec.toNat_allOnes]
  apply Nat.eq_of_testBit_eq
  intro i
  simp only [Nat.testBit_shiftRight, Nat.testBit_two_pow_sub_one, decide_eq_decide]
  omega

theorem or_hostmask_toNat (a : BitVec w) (hn : n ≤ w) :
    (a ||| hostmask w n).toNat = a.toNat / 2 ^ (w - n) * 2 ^ (w - n) + (2 ^ (w - n) - 1) := by
  rw [BitVec.toNat_or, hostmask_toNat hn]
  set s := w - n
  have hlt : 2 ^ s - 1 < 2 ^ s := Nat.sub_lt (Nat.two_pow_pos s) Nat.one_pos
  have hor : a.toNat % 2 ^ s ||| (2 ^ s - 1) = 2 ^ s - 1 := by
    apply Nat.eq_of_testBit_eq
    intro i
    by_cases hi : i < s <;> simp [Nat.testBit_mod_two_pow, Nat.testBit_two_pow_sub_one, hi]
  calc a.toNat ||| (2 ^ s - 1)
    _ = (2 ^ s * (a.toNat / 2 ^ s) + a.toNat % 2 ^ s) ||| (2 ^ s - 1) := by rw [Nat.div_add_mod]
    _ = (2 ^ s * (a.toNat / 2 ^ s) ||| a.toNat % 2 ^ s) ||| (2 ^ s - 1) := by
        rw [Nat.two_pow_add_eq_or_of_lt (Nat.mod_lt _ (Nat.two_pow_pos s))]
    _ = 2 ^ s * (a.toNat / 2 ^ s) ||| (2 ^ s - 1) := by rw [Nat.or_assoc, hor]
    _ = 2 ^ s * (a.toNat / 2 ^ s) + (2 ^ s - 1) := by rw [Nat.two_pow_add_eq_or_of_lt hlt]
    _ = a.toNat / 2 ^ s * 2 ^ s + (2 ^ s - 1) := by rw [Nat.mul_comm]

-- The words between the network and the broadcast word of a prefix are those that agree with it.
theorem mem_range_iff_agree (a x : BitVec w) (hn : n ≤ w) :
    (a &&& netmask w n ≤ x ∧ x ≤ a ||| hostmask w n) ↔ Agree n a x := by
  rw [Agree.iff_div, BitVec.le_def, BitVec.le_def, and_netmask_toNat, or_hostmask_toNat a hn]
  have hp := Nat.two_pow_pos (w - n)
  constructor
  case mp =>
    intro ⟨h₁, h₂⟩
    apply Eq.symm
    apply Nat.div_eq_of_lt_le h₁
    rw [Nat.add_mul, Nat.one_mul]
    omega
  case mpr =>
    intro h
    rw [h]
    have h₁ := Nat.div_mul_le_self x.toNat (2 ^ (w - n))
    have h₂ := Nat.lt_div_mul_add hp (a := x.toNat)
    omega

end Masks
end Prefix
