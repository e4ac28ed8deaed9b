import Mathlib.Data.List.Nodup

/-!
# Singly linked lists

The successor of a node lives in the node, the first node and, where nodes are appended, the last one in the owner of
the list. Several lists may share the successors: `IsChain.congr` is the frame rule for those that do not have the
node that is written.
-/

namespace PlantOS.Lib.Chain

open Function (update_of_ne update_self)

variable {ν : Type*}

/-- From `h` on, the successors lead through `l` and end there. -/
def IsChain (next : ν → Option ν) : Option ν → List ν → Prop
  | h, [] => h = none
  | h, x :: l => h = some x ∧ IsChain next (next x) l

variable {next next' : ν → Option ν} {h tail : Option ν} {l l' a b : List ν} {x y : ν}

@[simp] lemma isChain_nil : IsChain next h [] ↔ h = none := Iff.rfl

@[simp] lemma isChain_cons : IsChain next h (x :: l) ↔ h = some x ∧ IsChain next (next x) l := Iff.rfl

lemma IsChain.head (hl : IsChain next h l) : h = l.head? := by
  cases l with
  | nil => exact hl
  | cons x l => exact hl.1

lemma IsChain.eq_nil (hl : IsChain next none l) : l = [] := by
  cases l with
  | nil => rfl
  | cons x l => cases hl.1

lemma IsChain.exists_cons (hl : IsChain next (some x) l) : ∃ l', l = x :: l' ∧ IsChain next (next x) l' := by
  cases l with
  | nil => cases hl
  | cons y l =>
    obtain ⟨hy, hl⟩ := hl
    cases hy
    exact ⟨l, rfl, hl⟩

/-- **Frame.** A list only reads the successors of its own nodes. -/
theorem IsChain.congr (hl : IsChain next h l) (hnext : ∀ y ∈ l, next' y = next y) : IsChain next' h l := by
  induction l generalizing h with
  | nil => exact hl
  | cons x l ih =>
    refine ⟨hl.1, ?_⟩
    rw [hnext x List.mem_cons_self]
    exact ih hl.2 fun y hy => hnext y (List.mem_cons_of_mem _ hy)

theorem IsChain.unique (hl : IsChain next h l) (hl' : IsChain next h l') : l = l' := by
  induction l generalizing h l' with
  | nil =>
    rw [isChain_nil.mp hl] at hl'
    exact hl'.eq_nil.symm
  | cons x l ih =>
    rw [hl.1] at hl'
    obtain ⟨m, rfl, hm⟩ := hl'.exists_cons
    rw [ih hl.2 hm]

lemma IsChain.suffix (hl : IsChain next h (a ++ x :: b)) : IsChain next (next x) b := by
  induction a generalizing h with
  | nil => exact hl.2
  | cons y a ih => exact ih hl.2

/-- **A list that ends has no node twice.** -/
theorem IsChain.nodup (hl : IsChain next h l) : l.Nodup := by
  induction l generalizing h with
  | nil => exact List.nodup_nil
  | cons x l ih =>
    refine List.nodup_cons.mpr ⟨fun hmem => ?_, ih hl.2⟩
    -- the list behind the second `x` would be the list behind the first one
    obtain ⟨a, b, rfl⟩ := List.append_of_mem hmem
    have heq := hl.2.unique hl.2.suffix
    have hlen := congrArg List.length heq
    simp only [List.length_append, List.length_cons] at hlen
    omega

/-- The list with the first node `head` and the last node `tail` is `l`. -/
structure IsQueue (next : ν → Option ν) (head tail : Option ν) (l : List ν) : Prop where
  chain : IsChain next head l
  tail : tail = l.getLast?

lemma isQueue_nil : IsQueue next none none [] := ⟨rfl, rfl⟩

lemma IsQueue.congr (hl : IsQueue next h tail l) (hnext : ∀ y ∈ l, next' y = next y) : IsQueue next' h tail l :=
  ⟨hl.chain.congr hnext, hl.tail⟩

lemma IsQueue.eq_nil_iff (hl : IsQueue next h tail l) : l = [] ↔ h = none := by
  rw [hl.chain.head]
  cases l <;> simp

/-- **The first node is taken.** -/
theorem IsQueue.tail_of_cons (hl : IsQueue next h tail (x :: l)) :
    IsQueue next (next x) (if next x = none then none else tail) l := by
  refine ⟨hl.chain.2, ?_⟩
  cases l with
  | nil => rw [if_pos (isChain_nil.mp hl.chain.2), List.getLast?_nil]
  | cons y l =>
    have hne : next x ≠ none := by simp [hl.chain.2.1]
    rw [if_neg hne, hl.tail, List.getLast?_cons_cons]

variable [DecidableEq ν]

lemma IsChain.update (hl : IsChain next h l) (hx : x ∉ l) (v : Option ν) : IsChain (Function.update next x v) h l :=
  hl.congr fun y hy => update_of_ne (fun heq : y = x => hx (heq ▸ hy)) ..

lemma IsQueue.update (hl : IsQueue next h tail l) (hx : x ∉ l) (v : Option ν) : IsQueue (Function.update next x v) h tail l :=
  ⟨hl.chain.update hx v, hl.tail⟩

/-- **A node is put in front.** -/
theorem IsChain.cons (hl : IsChain next h l) (hx : x ∉ l) : IsChain (Function.update next x h) (some x) (x :: l) := by
  refine ⟨rfl, ?_⟩
  rw [update_self]
  exact hl.update hx h

lemma IsChain.concat (hl : IsChain next h (l ++ [y])) (hx : x ∉ l ++ [y]) :
    IsChain (Function.update (Function.update next x none) y (some x)) h (l ++ [y, x]) := by
  induction l generalizing h with
  | nil =>
    have hxy : x ≠ y := fun heq => hx (by simp [heq])
    refine ⟨hl.1, ?_⟩
    simp [hxy]
  | cons z l ih =>
    have hzy : z ≠ y := by
      have hnd := hl.nodup
      rintro rfl
      simp at hnd
    have hzx : z ≠ x := fun heq => hx (by simp [heq])
    refine ⟨hl.1, ?_⟩
    rw [update_of_ne hzy, update_of_ne hzx]
    exact ih hl.2 fun hmem => hx (List.mem_cons_of_mem _ hmem)

/-- **A node is appended**, to an empty list and to one that has a last node. -/
theorem IsQueue.append_nil (hl : IsQueue next h none l) (x : ν) :
    l = [] ∧ IsQueue (Function.update next x none) (some x) (some x) [x] := by
  have hnil := List.getLast?_eq_none_iff.mp hl.tail.symm
  exact ⟨hnil, ⟨rfl, update_self ..⟩, rfl⟩

theorem IsQueue.append_some (hl : IsQueue next h (some y) l) (hx : x ∉ l) :
    IsQueue (Function.update (Function.update next x none) y (some x)) h (some x) (l ++ [x]) := by
  obtain ⟨m, rfl⟩ := List.getLast?_eq_some_iff.mp hl.tail.symm
  refine ⟨?_, by simp⟩
  have hcon := hl.chain.concat hx
  rwa [List.append_assoc]

/-- **A node is taken out behind another one.** -/
theorem IsChain.remove (hl : IsChain next h (a ++ y :: x :: b)) :
    IsChain (Function.update next y (next x)) h (a ++ y :: b) := by
  induction a generalizing h with
  | nil =>
    have hnd := hl.nodup
    obtain ⟨hy, hx, hb⟩ := hl
    have hyb : y ∉ b := fun hmem => (List.nodup_cons.mp hnd).1 (List.mem_cons_of_mem _ hmem)
    refine ⟨hy, ?_⟩
    rw [update_self]
    exact hb.update hyb _
  | cons z a ih =>
    have hzy : z ≠ y := by
      have hnd := hl.nodup
      rintro rfl
      simp at hnd
    refine ⟨hl.1, ?_⟩
    rw [update_of_ne hzy]
    exact ih hl.2

/-- **A node is put in behind another one.** -/
theorem IsChain.insert (hl : IsChain next h (a ++ y :: b)) (hx : x ∉ a ++ y :: b) :
    IsChain (Function.update (Function.update next y (some x)) x (next y)) h (a ++ y :: x :: b) := by
  induction a generalizing h with
  | nil =>
    have hnd := hl.nodup
    obtain ⟨hy, hb⟩ := hl
    have hyb : y ∉ b := (List.nodup_cons.mp hnd).1
    have hxy : y ≠ x := fun heq => hx (by simp [heq])
    have hxb : x ∉ b := fun hmem => hx (by simp [hmem])
    refine ⟨hy, ?_⟩
    rw [update_of_ne hxy, update_self]
    refine ⟨rfl, ?_⟩
    rw [update_self]
    exact (hb.update hyb _).update hxb _
  | cons z a ih =>
    have hzy : z ≠ y := by
      have hnd := hl.nodup
      rintro rfl
      simp at hnd
    have hzx : z ≠ x := fun heq => hx (by simp [heq])
    refine ⟨hl.1, ?_⟩
    rw [update_of_ne hzx, update_of_ne hzy]
    exact ih hl.2 fun hmem => hx (List.mem_cons_of_mem _ hmem)

end PlantOS.Lib.Chain
