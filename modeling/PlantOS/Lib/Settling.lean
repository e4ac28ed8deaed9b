import Mathlib.Order.Monotone.Basic

/-!
# Loops that correct an estimate

A loop replaces an estimate by the correction `h` of it until that makes no difference. If a higher estimate is
corrected to a lower one, and a difference of two estimates is at least halved, then the loop either ends at the only
fixed point or swings between two neighbours for ever.
-/

namespace PlantOS.Lib

variable (h : ℕ → ℕ)

/-- The loop, for `n` rounds at most: the estimate that is its own correction -/
def settle : ℕ → ℕ → Option ℕ
  | 0, _ => none
  | n + 1, x => if h x = x then some x else settle n (h x)

def Swings : Prop := ∃ k, k < h k ∧ h (k + 1) ≤ k

structure Damped : Prop where
  antitone : Antitone h
  slow : ∀ a d, h a ≤ h (a + d) + (d + 1) / 2

variable {h} {n m x y : ℕ}

lemma settle_fixed (hs : settle h n x = some y) : h y = y := by
  induction n generalizing x with
  | zero => cases hs
  | succ n ih =>
    rw [settle] at hs
    split at hs
    · next hx => exact Option.some.inj hs ▸ hx
    · exact ih hs

lemma settle_mono (hs : settle h n x = some y) (hnm : n ≤ m) : settle h m x = some y := by
  induction n generalizing x m with
  | zero => cases hs
  | succ n ih =>
    obtain ⟨m, rfl⟩ := Nat.exists_eq_add_of_le' (Nat.one_le_of_lt hnm)
    rw [settle] at hs ⊢
    split at hs
    · next hx => rwa [if_pos hx]
    · next hx =>
      rw [if_neg hx]
      exact ih hs (by omega)

lemma fixed_unique (ha : Antitone h) (hx : h x = x) (hy : h y = y) : x = y := by
  rcases Nat.le_total x y with hxy | hxy <;> have := ha hxy <;> omega

lemma not_swings_of_fixed (ha : Antitone h) (hx : h x = x) : ¬Swings h := by
  rintro ⟨k, hlow, hhigh⟩
  rcases Nat.lt_or_ge k x with hkx | hxk
  · have := ha (show k + 1 ≤ x from hkx)
    omega
  · have := ha hxk
    omega

lemma Damped.round (hd : Damped h) (x : ℕ) :
    h (h x) - h x ≤ (x - h x + 1) / 2 ∧ h x - h (h x) ≤ (h x - x + 1) / 2 := by
  rcases Nat.le_total x (h x) with hx | hx
  · have hdown := hd.antitone hx
    have hslow := hd.slow x (h x - x)
    rw [Nat.add_sub_cancel' hx] at hslow
    omega
  · have hup := hd.antitone hx
    have hslow := hd.slow (h x) (x - h x)
    rw [Nat.add_sub_cancel' hx] at hslow
    omega

/-- **The loop ends from any start unless it can swing.** -/
theorem Damped.settles (hd : Damped h) (hns : ¬Swings h) (x : ℕ) : ∃ n y, settle h n x = some y := by
  -- the distance of the estimate from its correction falls until it is one
  induction hdist : (h x - x) + (x - h x) using Nat.strong_induction_on generalizing x with
  | _ dist ih =>
  by_cases hx : h x = x
  · exact ⟨1, x, by rw [settle, if_pos hx]⟩
  have hrd := hd.round x
  have hnext : ∃ n y, settle h n (h x) = some y := by
    by_cases hfix : h (h x) = h x
    · exact ⟨1, h x, by rw [settle, if_pos hfix]⟩
    · refine ih _ ?_ (h x) rfl
      have hfar : dist ≠ 1 := by
        intro hone
        refine hns ?_
        rcases Nat.lt_or_ge x (h x) with hlt | hge
        · have hnb : h x = x + 1 := by omega
          refine ⟨x, hlt, ?_⟩
          rw [← hnb]
          omega
        · have hnb : x = h x + 1 := by omega
          refine ⟨h x, by omega, ?_⟩
          rw [← hnb]
      omega
  obtain ⟨n, y, hy⟩ := hnext
  exact ⟨n + 1, y, by rw [settle, if_neg hx, hy]⟩

theorem Damped.settles_iff (hd : Damped h) (x : ℕ) : (∃ n y, settle h n x = some y) ↔ ¬Swings h :=
  ⟨fun ⟨_, _, hs⟩ => not_swings_of_fixed hd.antitone (settle_fixed hs), fun hns => hd.settles hns x⟩

end PlantOS.Lib
