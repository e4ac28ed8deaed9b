import Mathlib.Data.List.Basic

/-!
# Loops

A loop over a list that a step can end, and its invariant rule.
-/

namespace PlantOS.Lib

variable {α σ : Type*}

/-- A loop that ends where a step returns `false`: the state, and the element of that step -/
def untilFail (f : α → σ → σ × Bool) : List α → σ → σ × Option α
  | [], s => (s, none)
  | a :: l, s =>
    match f a s with
    | (s, true) => untilFail f l s
    | (s, false) => (s, some a)

variable {f : α → σ → σ × Bool} {P : σ → Prop} {l : List α} {s : σ}

lemma untilFail_cons (a : α) (l : List α) (s : σ) :
    untilFail f (a :: l) s = if (f a s).2 then untilFail f l (f a s).1 else ((f a s).1, some a) := by
  rw [untilFail]
  rcases f a s with ⟨s', b⟩
  cases b <;> rfl

/-- **The invariant rule.** -/
theorem untilFail_invariant (hstep : ∀ a ∈ l, ∀ s, P s → P (f a s).1) (hs : P s) : P (untilFail f l s).1 := by
  induction l generalizing s with
  | nil => exact hs
  | cons a l ih =>
    rw [untilFail_cons]
    have ha := hstep a List.mem_cons_self s hs
    split
    · exact ih (fun b hb => hstep b (List.mem_cons_of_mem _ hb)) ha
    · exact ha

/-- **A loop that only adds to an observation**: it holds at the end if it held at the start or an element brought it
about. -/
theorem foldl_iff {g : σ → α → σ} {Q : α → Prop} (hstep : ∀ s, ∀ a ∈ l, P (g s a) ↔ P s ∨ Q a) :
    P (l.foldl g s) ↔ P s ∨ ∃ a ∈ l, Q a := by
  induction l generalizing s with
  | nil => simp
  | cons a l ih =>
    rw [List.foldl_cons, ih fun s b hb => hstep s b (List.mem_cons_of_mem _ hb), hstep s a List.mem_cons_self, or_assoc]
    simp only [List.mem_cons, exists_eq_or_imp]

end PlantOS.Lib
