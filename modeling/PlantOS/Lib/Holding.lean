import Mathlib.Data.Finset.Card

/-!
# Things that several may hold

How many of a set of holders hold a thing, when one of them takes or lets go of things, comes or goes.
-/

namespace PlantOS.Lib.Holding

variable {ι κ : Type*} {s : Finset ι} {holds : ι → κ → Bool} {h : κ → Bool} {i : ι} {k : κ}

def count (s : Finset ι) (holds : ι → κ → Bool) (k : κ) : ℕ := (s.filter fun i => holds i k).card

lemma count_pos : 0 < count s holds k ↔ ∃ i ∈ s, holds i k = true := by
  unfold count
  rw [Finset.card_pos]
  exact Finset.filter_nonempty_iff

lemma count_congr {holds' : ι → κ → Bool} (hsame : ∀ i ∈ s, holds' i k = holds i k) : count s holds' k = count s holds k := by
  unfold count
  rw [Finset.filter_congr fun i hi => by rw [hsame i hi]]

variable [DecidableEq ι]

lemma count_erase (holds : ι → κ → Bool) (k : κ) (hi : i ∈ s) :
    count (s.erase i) holds k + (holds i k).toNat = count s holds k := by
  unfold count
  rw [Finset.filter_erase]
  cases hk : holds i k with
  | true => exact Finset.card_erase_add_one (Finset.mem_filter.mpr ⟨hi, hk⟩)
  | false => rw [Finset.erase_eq_of_notMem (by simp [hk]), Bool.toNat_false, Nat.add_zero]

lemma count_insert (holds : ι → κ → Bool) (k : κ) (hi : i ∉ s) :
    count (insert i s) holds k = count s holds k + (holds i k).toNat := by
  have hers := count_erase holds k (Finset.mem_insert_self i s)
  rw [Finset.erase_insert hi] at hers
  exact hers.symm

lemma count_update (holds : ι → κ → Bool) (h : κ → Bool) (k : κ) (hi : i ∈ s) :
    count s (Function.update holds i h) k + (holds i k).toNat = count s holds k + (h k).toNat := by
  have hnew := count_erase (Function.update holds i h) k hi
  have hold := count_erase holds k hi
  have hrest : count (s.erase i) (Function.update holds i h) k = count (s.erase i) holds k :=
    count_congr fun j hj => by rw [Function.update_of_ne (Finset.ne_of_mem_erase hj)]
  rw [Function.update_self] at hnew
  omega

end PlantOS.Lib.Holding
