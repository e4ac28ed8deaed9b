import Mathlib.Data.List.Basic
import Mathlib.Order.Lattice

/-!
# The search for the best

A loop keeps the first element with the greatest gain. It may go over several lists, and an element may have another
gain in each.
-/

namespace PlantOS.Lib

variable {α ι γ : Type*} [LinearOrder γ] [Zero γ]

/-- What is kept is one of the elements `P` that were seen, with its gain, and no other was better; nothing is kept if
none has a positive gain. -/
structure IsBest (P : α → γ → Prop) (best : Option α × γ) : Prop where
  nonneg : 0 ≤ best.2
  kept : best.1.isSome ↔ 0 < best.2
  seen : ∀ a, best.1 = some a → P a best.2
  most : ∀ a g, P a g → g ≤ best.2

def better (gain : α → γ) (best : Option α × γ) (a : α) : Option α × γ :=
  if best.2 < gain a then (some a, gain a) else best

variable {P : α → γ → Prop} {Q : ι → α → γ → Prop} {best : Option α × γ} {gain : α → γ}

lemma isBest_start : IsBest (fun _ _ => False) ((none, 0) : Option α × γ) :=
  ⟨le_rfl, by simp, nofun, nofun⟩

lemma IsBest.congr {P' : α → γ → Prop} (h : IsBest P best) (hP : ∀ a g, P a g ↔ P' a g) : IsBest P' best :=
  ⟨h.nonneg, h.kept, fun a ha => (hP _ _).mp (h.seen a ha), fun a g hg => h.most a g ((hP _ _).mpr hg)⟩

lemma IsBest.better (h : IsBest P best) (a : α) :
    IsBest (fun b g => P b g ∨ (b = a ∧ g = gain a)) (better gain best a) := by
  unfold Lib.better
  split
  · next hlt =>
    refine ⟨(h.nonneg.trans_lt hlt).le, by simpa using h.nonneg.trans_lt hlt, fun b hb => ?_, fun b g hg => ?_⟩
    · exact .inr ⟨(Option.some.inj hb).symm, rfl⟩
    · rcases hg with hg | ⟨-, rfl⟩
      · exact (h.most b g hg).trans hlt.le
      · exact le_rfl
  · next hge =>
    refine ⟨h.nonneg, h.kept, fun b hb => .inl (h.seen b hb), fun b g hg => ?_⟩
    rcases hg with hg | ⟨-, rfl⟩
    · exact h.most b g hg
    · exact not_lt.mp hge

/-- **The rule for the loop over one list** -/
theorem IsBest.foldl (h : IsBest P best) (l : List α) :
    IsBest (fun b g => P b g ∨ (b ∈ l ∧ g = gain b)) (l.foldl (Lib.better gain) best) := by
  induction l generalizing P best with
  | nil => simpa using h
  | cons a l ih =>
    refine (ih (h.better a)).congr fun b g => ?_
    rw [List.mem_cons, or_assoc]
    refine or_congr_right ⟨?_, ?_⟩
    · rintro (⟨rfl, hg⟩ | ⟨hb, hg⟩)
      · exact ⟨.inl rfl, hg⟩
      · exact ⟨.inr hb, hg⟩
    · rintro ⟨rfl | hb, hg⟩
      · exact .inl ⟨rfl, hg⟩
      · exact .inr ⟨hb, hg⟩

/-- **The rule for the loop over the lists** -/
theorem IsBest.foldl_lists {step : Option α × γ → ι → Option α × γ}
    (hstep : ∀ P best i, IsBest P best → IsBest (fun b g => P b g ∨ Q i b g) (step best i)) (h : IsBest P best)
    (l : List ι) : IsBest (fun b g => P b g ∨ ∃ i ∈ l, Q i b g) (l.foldl step best) := by
  induction l generalizing P best with
  | nil => simpa using h
  | cons i l ih =>
    refine (ih (hstep P best i h)).congr fun b g => ?_
    simp only [List.mem_cons, exists_eq_or_imp, or_assoc]

end PlantOS.Lib
