import Mathlib.Order.MinMax

/-!
# Half-open intervals

Nonempty intervals `[start, stop)` of a linear order, with the operations of an interval list that is
edited in place: overlap, the parts of an interval outside another, and the union of two that touch.
-/

namespace PlantOS.Lib

/-- The interval `[start, stop)`. -/
@[ext]
structure Interval (α : Type*) [LinearOrder α] where
  start : α
  stop : α
  nonempty : start < stop
  deriving DecidableEq

namespace Interval

variable {α : Type*} [LinearOrder α] {r s : Interval α} {b : α}

instance : Membership α (Interval α) := ⟨fun r b => r.start ≤ b ∧ b < r.stop⟩

lemma mem_iff : b ∈ r ↔ r.start ≤ b ∧ b < r.stop := Iff.rfl

instance (r : Interval α) (b : α) : Decidable (b ∈ r) :=
  inferInstanceAs (Decidable (r.start ≤ b ∧ b < r.stop))

lemma start_mem (r : Interval α) : r.start ∈ r := ⟨le_rfl, r.nonempty⟩

def Overlaps (r s : Interval α) : Prop := r.start < s.stop ∧ s.start < r.stop

instance (r s : Interval α) : Decidable (r.Overlaps s) := inferInstanceAs (Decidable (_ ∧ _))

lemma overlaps_iff : r.Overlaps s ↔ ∃ b, b ∈ r ∧ b ∈ s := by
  constructor
  · rintro ⟨h, h'⟩
    rcases le_total r.start s.start with hle | hle
    · exact ⟨s.start, ⟨hle, h'⟩, s.start_mem⟩
    · exact ⟨r.start, r.start_mem, hle, h⟩
  · rintro ⟨b, hr, hs⟩
    exact ⟨hr.1.trans_lt hs.2, hs.1.trans_lt hr.2⟩

lemma Overlaps.symm (h : r.Overlaps s) : s.Overlaps r := And.symm h

lemma Overlaps.of_subset {r' : Interval α} (h : r'.Overlaps s) (hr : ∀ b, b ∈ r' → b ∈ r) :
    r.Overlaps s := by
  obtain ⟨b, hb, hs⟩ := overlaps_iff.mp h
  exact overlaps_iff.mpr ⟨b, hr b hb, hs⟩

def Touches (r s : Interval α) : Prop := s.start ≤ r.stop ∧ r.start ≤ s.stop

instance (r s : Interval α) : Decidable (r.Touches s) := inferInstanceAs (Decidable (_ ∧ _))

def hull (r s : Interval α) : Interval α :=
  ⟨min r.start s.start, max r.stop s.stop, min_lt_iff.mpr (.inl (lt_max_iff.mpr (.inl r.nonempty)))⟩

lemma mem_hull (h : r.Touches s) : b ∈ r.hull s ↔ b ∈ r ∨ b ∈ s := by
  simp only [mem_iff, hull, min_le_iff, lt_max_iff]
  constructor
  · rintro ⟨h₁, h₂⟩
    by_cases hb : r.start ≤ b ∧ b < r.stop
    · exact .inl hb
    · refine .inr ?_
      rcases h₁ with h₁ | h₁
      · have hr : r.stop ≤ b := not_lt.mp fun hlt => hb ⟨h₁, hlt⟩
        exact ⟨h.1.trans hr, h₂.resolve_left hr.not_gt⟩
      · refine ⟨h₁, ?_⟩
        rcases h₂ with h₂ | h₂
        · exact (not_le.mp fun hle => hb ⟨hle, h₂⟩).trans_le h.2
        · exact h₂
  · rintro (⟨h₁, h₂⟩ | ⟨h₁, h₂⟩)
    · exact ⟨.inl h₁, .inl h₂⟩
    · exact ⟨.inr h₁, .inr h₂⟩

/-- The part of `r` below `s`. -/
def below (r s : Interval α) (h : r.start < s.start) : Interval α := ⟨r.start, s.start, h⟩

/-- The part of `r` from the end of `s` on. -/
def above (r s : Interval α) (h : s.stop < r.stop) : Interval α := ⟨s.stop, r.stop, h⟩

/-- What is left of `r` outside `s`. -/
def diff (r s : Interval α) : List (Interval α) :=
  (if h : r.start < s.start then [r.below s h] else []) ++
    if h : s.stop < r.stop then [r.above s h] else []

lemma mem_diff (h : r.Overlaps s) : (∃ p ∈ r.diff s, b ∈ p) ↔ b ∈ r ∧ b ∉ s := by
  have hl : (∃ p ∈ (if h : r.start < s.start then [r.below s h] else []), b ∈ p) ↔
      r.start ≤ b ∧ b < s.start := by
    split_ifs with hlt
    · simp [below, mem_iff]
    · simpa using fun hb => (not_lt.mp hlt).trans hb
  have hr : (∃ p ∈ (if h : s.stop < r.stop then [r.above s h] else []), b ∈ p) ↔
      s.stop ≤ b ∧ b < r.stop := by
    split_ifs with hlt
    · simp [above, mem_iff]
    · simpa using fun hb => (not_lt.mp hlt).trans hb
  simp only [diff, List.mem_append, or_and_right, exists_or, hl, hr]
  rw [mem_iff, mem_iff, not_and_or, not_le, not_lt]
  constructor
  · rintro (⟨h₁, h₂⟩ | ⟨h₁, h₂⟩)
    · exact ⟨⟨h₁, h₂.trans h.2⟩, .inl h₂⟩
    · exact ⟨⟨(h.1.trans_le h₁).le, h₂⟩, .inr h₁⟩
  · rintro ⟨⟨h₁, h₂⟩, h₃ | h₃⟩
    · exact .inl ⟨h₁, h₃⟩
    · exact .inr ⟨h₃, h₂⟩

lemma diff_pairwise (r s : Interval α) : (r.diff s).Pairwise fun x y => ¬ x.Overlaps y := by
  unfold diff
  split_ifs with h₁ h₂
  · simp only [List.cons_append, List.nil_append, List.pairwise_cons, List.mem_singleton,
      forall_eq, List.not_mem_nil, false_implies, implies_true, List.Pairwise.nil, and_true]
    exact fun h => absurd h.2 (by simpa [above, below] using s.nonempty.le)
  all_goals simp

end Interval

end PlantOS.Lib
