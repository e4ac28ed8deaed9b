import Mathlib.Algebra.Group.Nat.Defs
import Mathlib.Tactic.Common

/-!
# Alignment

Rounding to a multiple, and the masks that compute it on machine words for a power of two.
-/

namespace PlantOS.Lib.Align

variable {x a w k : ℕ}

/-- The greatest multiple of `a` that is at most `x` -/
def down (x a : ℕ) : ℕ := x - x % a

theorem down_le (x a : ℕ) : down x a ≤ x := Nat.sub_le ..

theorem lt_down_add (x : ℕ) (ha : 0 < a) : x < down x a + a := by
  have hmod := Nat.mod_lt x ha
  have hle := Nat.mod_le x a
  unfold down
  omega

theorem down_mod (x a : ℕ) : down x a % a = 0 := Nat.mod_eq_zero_of_dvd (Nat.dvd_sub_mod x)

theorem dvd_of_le {b : ℕ} (ha : a.isPowerOfTwo) (hb : b.isPowerOfTwo) (h : a ≤ b) : a ∣ b := by
  obtain ⟨i, rfl⟩ := ha
  obtain ⟨j, rfl⟩ := hb
  exact Nat.pow_dvd_pow 2 ((Nat.pow_le_pow_iff_right (by omega)).mp h)

/-! ### Masks -/

theorem and_not_low (hx : x < 2 ^ w) (hk : k ≤ w) : x &&& (2 ^ w - 2 ^ k) = down x (2 ^ k) := by
  have hpow : 2 ^ k ≤ 2 ^ w := Nat.pow_le_pow_right (by omega) hk
  have hpos : 0 < 2 ^ k := Nat.two_pow_pos k
  have hmask : 2 ^ w - 2 ^ k = 2 ^ w - (2 ^ k - 1 + 1) := by omega
  have hdown : down x (2 ^ k) = x / 2 ^ k * 2 ^ k := by
    have := Nat.div_add_mod' x (2 ^ k)
    unfold down
    omega
  rw [hmask, hdown]
  refine Nat.eq_of_testBit_eq fun i => ?_
  rw [Nat.testBit_and, Nat.testBit_two_pow_sub_succ (by omega), Nat.testBit_two_pow_sub_one, Nat.testBit_mul_two_pow,
    Nat.testBit_div_two_pow]
  by_cases hi : k ≤ i
  · rw [Nat.sub_add_cancel hi]
    by_cases hw : i < w
    · simp [hi, hw, Nat.not_lt.mpr hi]
    · have hbit : x.testBit i = false :=
        Nat.testBit_lt_two_pow (Nat.lt_of_lt_of_le hx (Nat.pow_le_pow_right (by omega) (Nat.le_of_not_lt hw)))
      simp [hbit]
  · simp [hi, Nat.lt_of_not_le hi]

variable {a : UInt64}

lemma le_of_powerOfTwo (ha : a.toNat.isPowerOfTwo) : ∃ k < 64, a.toNat = 2 ^ k := by
  obtain ⟨k, hk⟩ := ha
  refine ⟨k, ?_, hk⟩
  have hlt := a.toNat_lt
  rw [hk] at hlt
  exact (Nat.pow_lt_pow_iff_right (by omega)).mp hlt

lemma toNat_sub_one (ha : a.toNat.isPowerOfTwo) : (a - 1).toNat = a.toNat - 1 := by
  have hpos := Nat.pos_of_isPowerOfTwo ha
  rw [UInt64.toNat_sub_of_le]
  · rfl
  · exact UInt64.le_iff_toNat_le.mpr hpos

theorem toNat_and_not (x : UInt64) (ha : a.toNat.isPowerOfTwo) :
    (x &&& ~~~(a - 1)).toNat = down x.toNat a.toNat := by
  obtain ⟨k, hk, hak⟩ := le_of_powerOfTwo ha
  have hpos := Nat.pos_of_isPowerOfTwo ha
  rw [UInt64.toNat_and, UInt64.toNat_not, toNat_sub_one ha, hak, ← and_not_low x.toNat_lt (Nat.le_of_lt hk)]
  congr 1
  have hsize : UInt64.size = 2 ^ 64 := rfl
  omega

theorem toNat_and_low (x : UInt64) (ha : a.toNat.isPowerOfTwo) : (x &&& (a - 1)).toNat = x.toNat % a.toNat := by
  obtain ⟨k, -, hak⟩ := le_of_powerOfTwo ha
  rw [UInt64.toNat_and, toNat_sub_one ha, hak, Nat.and_two_pow_sub_one_eq_mod]

theorem powerOfTwo_of_and (hne : a ≠ 0) (ha : a &&& (a - 1) = 0) : a.toNat.isPowerOfTwo := by
  have hpos : a.toNat ≠ 0 := fun h => hne (UInt64.toNat_inj.mp h)
  have hle : (1 : UInt64) ≤ a := UInt64.le_iff_toNat_le.mpr (Nat.one_le_iff_ne_zero.mpr hpos)
  have hzero := congrArg UInt64.toNat ha
  rw [UInt64.toNat_and, UInt64.toNat_sub_of_le _ _ hle] at hzero
  exact (Nat.and_sub_one_eq_zero_iff_isPowerOfTwo hpos).mp hzero

end PlantOS.Lib.Align
