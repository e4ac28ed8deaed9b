import Mathlib.Data.List.Nodup
import Mathlib.Data.List.Perm.Subperm

/-!
# Waiters on a word

The threads that are blocked on one word, in any order. A wake of `n` releases `n` of them, or all if there are fewer;
which ones is not said.
-/

namespace PlantOS.Lib

variable {τ : Type*}

/-- A wake of `n` may release these threads. -/
def Releases (queue : List τ) (n : ℕ) (released : List τ) : Prop :=
  released.Nodup ∧ (∀ t ∈ released, t ∈ queue) ∧ released.length = min n queue.length

namespace Releases

variable {queue released : List τ} {n : ℕ} {t : τ}

lemma mem (h : Releases queue n released) (ht : t ∈ released) : t ∈ queue := h.2.1 t ht

lemma exists_mem (h : Releases queue n released) (hn : 0 < n) (hqu : queue ≠ []) : ∃ t, t ∈ released := by
  refine List.exists_mem_of_length_pos ?_
  rw [h.2.2]
  exact Nat.lt_min.mpr ⟨hn, List.length_pos_iff.mpr hqu⟩

lemma all (h : Releases queue n released) (hn : queue.length ≤ n) (ht : t ∈ queue) : t ∈ released := by
  have hsub : List.Subperm released queue := List.Nodup.subperm h.1 h.2.1
  have hperm := hsub.perm_of_length_le (Nat.le_of_eq (h.2.2.trans (Nat.min_eq_right hn)).symm)
  exact hperm.mem_iff.mpr ht

end Releases

lemma length_le_of_ids {queue : List ℕ} {n : ℕ} (hnd : queue.Nodup) (h : ∀ t ∈ queue, 0 < t ∧ t ≤ n) :
    queue.length ≤ n := by
  have hsub : List.Subperm queue (List.range' 1 n) := List.Nodup.subperm hnd fun t ht => by
    have hbds := h t ht
    exact List.mem_range'_1.mpr (by omega)
  have hle := hsub.length_le
  rwa [List.length_range'] at hle

variable [DecidableEq τ]

instance (queue : List τ) (n : ℕ) (released : List τ) : Decidable (Releases queue n released) :=
  inferInstanceAs (Decidable (_ ∧ _ ∧ _))

def remaining (queue released : List τ) : List τ := queue.filter (· ∉ released)

lemma mem_remaining {queue released : List τ} {t : τ} : t ∈ remaining queue released ↔ t ∈ queue ∧ t ∉ released := by
  simp [remaining]

lemma nodup_remaining {queue : List τ} (h : queue.Nodup) (released : List τ) : (remaining queue released).Nodup := h.filter _

section Update

variable {α β : Type*} [DecidableEq α] {f : α → β} {a x : α} {b : β} {l : List α} (P : β → Prop)

/-- A list of those with `P` gets the one that has it now. -/
lemma mem_cons_update (h : x ∈ l ↔ P (f x)) (hb : P b) : x ∈ a :: l ↔ P (Function.update f a b x) := by
  rw [List.mem_cons, h]
  by_cases hx : x = a
  · rw [hx, Function.update_self]
    exact ⟨fun _ => hb, fun _ => .inl rfl⟩
  · rw [Function.update_of_ne hx]
    exact ⟨fun hor => hor.resolve_left hx, .inr⟩

lemma mem_erase_update (hl : l.Nodup) (h : x ∈ l ↔ P (f x)) (hb : ¬P b) : x ∈ l.erase a ↔ P (Function.update f a b x) := by
  rw [hl.mem_erase_iff, h]
  by_cases hx : x = a
  · rw [hx, Function.update_self]
    exact ⟨fun hboth => absurd rfl hboth.1, fun hpos => absurd hpos hb⟩
  · rw [Function.update_of_ne hx]
    exact ⟨fun hboth => hboth.2, fun hpos => ⟨hx, hpos⟩⟩

end Update

/-- `n` of them have the property. -/
def Numbers {α : Type*} (P : α → Prop) (n : ℕ) : Prop := ∃ l : List α, l.Nodup ∧ (∀ x, x ∈ l ↔ P x) ∧ l.length = n

lemma Numbers.congr {α : Type*} {P Q : α → Prop} {n : ℕ} (h : Numbers P n) (hiff : ∀ x, P x ↔ Q x) : Numbers Q n := by
  obtain ⟨l, hnd, hmem, hlen⟩ := h
  exact ⟨l, hnd, fun x => (hmem x).trans (hiff x), hlen⟩

/-- How the number changes with one of them -/
lemma Numbers.update {α β : Type*} [DecidableEq α] {f : α → β} {n : ℕ} {P : β → Prop} [DecidablePred P]
    (h : Numbers (fun x => P (f x)) n) (a : α) (b : β) :
    ∃ m, Numbers (fun x => P (Function.update f a b x)) m ∧
      m + (if P (f a) then 1 else 0) = n + if P b then 1 else 0 := by
  obtain ⟨l, hnd, hmem, hlen⟩ := h
  have hoff : ∀ x ≠ a, (x ∈ l ↔ P (Function.update f a b x)) := fun x hx => by
    rw [Function.update_of_ne hx]
    exact hmem x
  by_cases ha : P (f a)
  · have hin := (hmem a).mpr ha
    have hpos := List.length_pos_of_mem hin
    by_cases hb : P b
    · refine ⟨n, ⟨l, hnd, fun x => ?_, hlen⟩, by rw [if_pos ha, if_pos hb]⟩
      by_cases hx : x = a
      · subst hx
        exact iff_of_true hin ((congrArg P (Function.update_self ..)).mpr hb)
      · exact hoff x hx
    · refine ⟨n - 1, ⟨l.erase a, hnd.erase a, fun x => mem_erase_update P hnd (hmem x) hb, ?_⟩, ?_⟩
      · rw [List.length_erase_of_mem hin, hlen]
      · rw [if_pos ha, if_neg hb]
        omega
  · have hout : a ∉ l := fun hin => ha ((hmem a).mp hin)
    by_cases hb : P b
    · refine ⟨n + 1, ⟨a :: l, List.nodup_cons.mpr ⟨hout, hnd⟩, fun x => mem_cons_update P (hmem x) hb, ?_⟩, ?_⟩
      · rw [List.length_cons, hlen]
      · rw [if_neg ha, if_pos hb]
    · refine ⟨n, ⟨l, hnd, fun x => ?_, hlen⟩, by rw [if_neg ha, if_neg hb]⟩
      by_cases hx : x = a
      · subst hx
        exact iff_of_false hout fun hp => hb ((congrArg P (Function.update_self ..)).mp hp)
      · exact hoff x hx

end PlantOS.Lib
