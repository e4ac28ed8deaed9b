import Mathlib.Data.List.Nodup

/-!
# Doubly linked queues threaded through their nodes

The links of a node live in the node, the two ends of a queue live in its owner. `IsQueue L q l` says
that the queue with the ends `q` is the list `l` under the links `L`; `pushBack` appends a node and
`remove` takes one out of any place. Several queues may share one pair of links: `IsQueue.congr` is
the frame rule for the queues that do not have the node.
-/

namespace PlantOS.Lib.IntrusiveQueue

open Function (update update_apply)

variable {α : Type*}

@[ext]
structure Links (α : Type*) where
  next : α → Option α
  prev : α → Option α

@[ext]
structure Ends (α : Type*) where
  head : Option α
  tail : Option α

/-- The queue with the ends `q` is `l`. -/
structure IsQueue (L : Links α) (q : Ends α) (l : List α) : Prop where
  nodup : l.Nodup
  head : q.head = l.head?
  tail : q.tail = l.getLast?
  prev : ∀ a x b, l = a ++ x :: b → L.prev x = a.getLast?
  next : ∀ a x b, l = a ++ x :: b → L.next x = b.head?

theorem isQueue_nil (L : Links α) : IsQueue L ⟨none, none⟩ [] where
  nodup := List.nodup_nil
  head := rfl
  tail := rfl
  prev a x b h := by simp at h
  next a x b h := by simp at h

/-- **Frame.** A queue only reads the links of its own nodes. -/
theorem IsQueue.congr {L L' : Links α} {q : Ends α} {l : List α} (h : IsQueue L q l)
    (hn : ∀ x ∈ l, L'.next x = L.next x) (hp : ∀ x ∈ l, L'.prev x = L.prev x) : IsQueue L' q l where
  nodup := h.nodup
  head := h.head
  tail := h.tail
  prev a x b e := by rw [hp x (by simp [e]), h.prev a x b e]
  next a x b e := by rw [hn x (by simp [e]), h.next a x b e]

theorem IsQueue.eq_nil_iff {L : Links α} {q : Ends α} {l : List α} (h : IsQueue L q l) :
    l = [] ↔ q.head = none := by
  rw [h.head]
  cases l <;> simp

lemma append_eq_split {a b c d : List α} {y : α} (h : a ++ b = c ++ y :: d) :
    (∃ m, a = c ++ y :: m ∧ d = m ++ b) ∨ (∃ m, b = m ++ y :: d ∧ c = a ++ m) := by
  rcases List.append_eq_append_iff.mp h with ⟨m, hc, hb⟩ | ⟨m, ha, hd⟩
  · exact Or.inr ⟨m, hb, hc⟩
  · cases m with
    | nil => exact Or.inr ⟨[], by simpa using hd.symm, by simpa using ha.symm⟩
    | cons z m =>
      simp only [List.cons_append, List.cons.injEq] at hd
      obtain ⟨rfl, hd⟩ := hd
      exact Or.inl ⟨m, ha, hd⟩

section Ops

variable [DecidableEq α]

/-- Set the successor of the node `o`, or the head when there is no node. -/
def setNext (L : Links α) (q : Ends α) (o : Option α) (v : Option α) : Links α × Ends α :=
  match o with
  | some p => ({ L with next := update L.next p v }, q)
  | none => (L, { q with head := v })

/-- Set the predecessor of the node `o`, or the tail when there is no node. -/
def setPrev (L : Links α) (q : Ends α) (o : Option α) (v : Option α) : Links α × Ends α :=
  match o with
  | some n => ({ L with prev := update L.prev n v }, q)
  | none => (L, { q with tail := v })

/-- Unlink `x`. -/
def remove (L : Links α) (q : Ends α) (x : α) : Links α × Ends α :=
  let (L₁, q₁) := setNext L q (L.prev x) (L.next x)
  let (L₂, q₂) := setPrev L₁ q₁ (L₁.next x) (L₁.prev x)
  (⟨update L₂.next x none, update L₂.prev x none⟩, q₂)

/-- Link `x` behind the tail. -/
def pushBack (L : Links α) (q : Ends α) (x : α) : Links α × Ends α :=
  let L₁ : Links α := ⟨update L.next x none, update L.prev x q.tail⟩
  let (L₂, q₂) := setNext L₁ q q.tail (some x)
  (L₂, { q₂ with tail := some x })

/-! ### What the operations write -/

variable {L : Links α} {q : Ends α} {x : α}

lemma remove_next (h : L.prev x ≠ some x) (z : α) : (remove L q x).1.next z =
    if z = x then none else if L.prev x = some z then L.next x else L.next z := by
  unfold remove
  cases hp : L.prev x with
  | none => cases hn : L.next x <;> by_cases hz : z = x <;> simp [setNext, setPrev, hn, hz]
  | some p =>
    have hpx : x ≠ p := fun e => h (by rw [hp, e])
    cases hn : L.next x <;> by_cases hz : z = x <;>
      simp [setNext, setPrev, hn, hz, hpx, update_apply, eq_comm]

lemma remove_prev (h : L.prev x ≠ some x) (z : α) : (remove L q x).1.prev z =
    if z = x then none else if L.next x = some z then L.prev x else L.prev z := by
  unfold remove
  cases hp : L.prev x with
  | none =>
    cases hn : L.next x <;> by_cases hz : z = x <;>
      simp [setNext, setPrev, hn, hz, hp, update_apply, eq_comm]
  | some p =>
    have hpx : x ≠ p := fun e => h (by rw [hp, e])
    cases hn : L.next x <;> by_cases hz : z = x <;>
      simp [setNext, setPrev, hn, hz, hp, hpx, update_apply, eq_comm]

lemma remove_head (L : Links α) (q : Ends α) (x : α) :
    (remove L q x).2.head = if L.prev x = none then L.next x else q.head := by
  unfold remove
  cases hp : L.prev x with
  | none => cases hn : L.next x <;> simp [setNext, setPrev, hn]
  | some p => simp only [setNext, setPrev]; split <;> simp

lemma remove_tail (h : L.prev x ≠ some x) :
    (remove L q x).2.tail = if L.next x = none then L.prev x else q.tail := by
  unfold remove
  cases hp : L.prev x with
  | none => cases hn : L.next x <;> simp [setNext, setPrev, hn, hp]
  | some p =>
    have hpx : x ≠ p := fun e => h (by rw [hp, e])
    cases hn : L.next x <;> simp [setNext, setPrev, hn, hp, hpx]

lemma pushBack_next (h : q.tail ≠ some x) (z : α) : (pushBack L q x).1.next z =
    if z = x then none else if q.tail = some z then some x else L.next z := by
  unfold pushBack
  cases ht : q.tail with
  | none => by_cases hz : z = x <;> simp [setNext, hz]
  | some p =>
    have hpx : x ≠ p := fun e => h (by rw [ht, e])
    by_cases hz : z = x <;> simp [setNext, hz, hpx, update_apply, eq_comm]

lemma pushBack_prev (L : Links α) (q : Ends α) (x z : α) :
    (pushBack L q x).1.prev z = if z = x then q.tail else L.prev z := by
  unfold pushBack
  cases q.tail <;> simp [setNext, update_apply]

lemma pushBack_head (L : Links α) (q : Ends α) (x : α) :
    (pushBack L q x).2.head = if q.tail = none then some x else q.head := by
  unfold pushBack
  cases ht : q.tail <;> simp [setNext]

lemma pushBack_tail (L : Links α) (q : Ends α) (x : α) : (pushBack L q x).2.tail = some x := by
  unfold pushBack
  cases q.tail <;> simp

/-! ### The operations on lists -/

lemma getLast?_ne_of_nodup {β : Type*} {c m : List β} {y z : β} (h : (y :: z :: m).Nodup) :
    (c ++ y :: z :: m).getLast? ≠ some y := by
  intro hl
  rw [List.getLast?_append_of_ne_nil _ (by simp), List.getLast?_cons_cons] at hl
  exact (List.nodup_cons.mp h).1 (List.mem_of_getLast? hl)

/-- **`remove` takes the node out.** -/
theorem IsQueue.remove {a b : List α} (h : IsQueue L q (a ++ x :: b)) :
    IsQueue (remove L q x).1 (remove L q x).2 (a ++ b) := by
  have hnd := h.nodup
  have hP : L.prev x = a.getLast? := h.prev a x b rfl
  have hN : L.next x = b.head? := h.next a x b rfl
  have hxa : x ∉ a := fun hx => (List.disjoint_of_nodup_append hnd) hx (by simp)
  have hxb : x ∉ b := (List.nodup_cons.mp (hnd.of_append_right)).1
  have hself : L.prev x ≠ some x := by
    rw [hP]
    exact fun e => hxa (List.mem_of_getLast? e)
  have hab : (a ++ b).Nodup := hnd.sublist (by simp)
  refine ⟨hab, ?_, ?_, ?_, ?_⟩
  · rw [remove_head, hP, hN, h.head]
    cases a <;> simp
  · rw [remove_tail hself, hP, hN, h.tail]
    cases b <;> simp
  · -- predecessors: only the successor of `x` gets a new one
    intro c y d e
    rw [remove_prev hself, hP, hN]
    rcases append_eq_split e with ⟨m, rfl, rfl⟩ | ⟨m, rfl, rfl⟩
    · have hyx : y ≠ x := by rintro rfl; simp at hxa
      have hyb : b.head? ≠ some y := fun hb =>
        (List.disjoint_of_nodup_append hab) (by simp) (List.mem_of_mem_head? hb)
      rw [if_neg hyx, if_neg hyb]
      exact h.prev c y (m ++ x :: b) (by simp)
    · have hyx : y ≠ x := by rintro rfl; simp at hxb
      rw [if_neg hyx]
      cases m with
      | nil => simp
      | cons z m =>
        have hzy : z ≠ y := by
          rintro rfl
          have := (hab.of_append_right)
          simp at this
        rw [if_neg (by simpa using hzy), h.prev (a ++ x :: z :: m) y d (by simp)]
        simp [List.getLast?_append, List.getLast?_cons]
  · intro c y d e
    rw [remove_next hself, hP, hN]
    rcases append_eq_split e with ⟨m, rfl, rfl⟩ | ⟨m, rfl, rfl⟩
    · have hyx : y ≠ x := by rintro rfl; simp at hxa
      rw [if_neg hyx]
      cases m with
      | nil => simp
      | cons z m =>
        rw [if_neg (getLast?_ne_of_nodup hab.of_append_left.of_append_right), h.next c y (z :: m ++ x :: b) (by simp)]
        simp
    · have hyx : y ≠ x := by rintro rfl; simp at hxb
      have hya : a.getLast? ≠ some y := fun ha =>
        (List.disjoint_of_nodup_append hab) (List.mem_of_getLast? ha) (by simp)
      rw [if_neg hyx, if_neg hya]
      exact h.next (a ++ x :: m) y d (by simp)

/-- **`pushBack` appends the node.** -/
theorem IsQueue.pushBack {l : List α} (h : IsQueue L q l) (hx : x ∉ l) :
    IsQueue (pushBack L q x).1 (pushBack L q x).2 (l ++ [x]) := by
  have hself : q.tail ≠ some x := by
    rw [h.tail]
    exact fun e => hx (List.mem_of_getLast? e)
  have hnd : (l ++ [x]).Nodup := by simpa [List.nodup_append] using ⟨h.nodup, fun a ha e => hx (e ▸ ha)⟩
  refine ⟨hnd, ?_, ?_, ?_, ?_⟩
  · rw [pushBack_head, h.tail, h.head]
    cases l <;> simp
  · simp [pushBack_tail]
  · intro c y d e
    rw [pushBack_prev, h.tail]
    rcases append_eq_split e with ⟨m, rfl, rfl⟩ | ⟨m, hm, rfl⟩
    · have hyx : y ≠ x := by rintro rfl; simp at hx
      rw [if_neg hyx]
      exact h.prev c y m rfl
    · obtain ⟨rfl, rfl, rfl⟩ : m = [] ∧ y = x ∧ d = [] := by
        cases m <;> simp_all
      simp
  · intro c y d e
    rw [pushBack_next hself, h.tail]
    rcases append_eq_split e with ⟨m, rfl, rfl⟩ | ⟨m, hm, rfl⟩
    · have hyx : y ≠ x := by rintro rfl; simp at hx
      rw [if_neg hyx]
      cases m with
      | nil => simp
      | cons z m =>
        rw [if_neg (getLast?_ne_of_nodup h.nodup.of_append_right), h.next c y (z :: m) rfl]
        simp
    · obtain ⟨rfl, rfl, rfl⟩ : m = [] ∧ y = x ∧ d = [] := by
        cases m <;> simp_all
      simp

theorem IsQueue.remove_frame {a b : List α} (h : IsQueue L q (a ++ x :: b)) {z : α}
    (hz : z ∉ a ++ x :: b) : (IntrusiveQueue.remove L q x).1.next z = L.next z ∧
      (IntrusiveQueue.remove L q x).1.prev z = L.prev z := by
  have hP : L.prev x = a.getLast? := h.prev a x b rfl
  have hN : L.next x = b.head? := h.next a x b rfl
  have hxa : x ∉ a := fun hx => (List.disjoint_of_nodup_append h.nodup) hx (by simp)
  have hself : L.prev x ≠ some x := by
    rw [hP]
    exact fun e => hxa (List.mem_of_getLast? e)
  have hzx : z ≠ x := by rintro rfl; simp at hz
  have hza : a.getLast? ≠ some z := fun e => hz (by simp [List.mem_of_getLast? e])
  have hzb : b.head? ≠ some z := fun e => hz (by simp [List.mem_of_mem_head? e])
  rw [remove_next hself, remove_prev hself, hP, hN, if_neg hzx, if_neg hza, if_neg hzx, if_neg hzb]
  exact ⟨rfl, rfl⟩

theorem IsQueue.pushBack_frame {l : List α} (h : IsQueue L q l) (hx : x ∉ l) {z : α} (hz : z ∉ l)
    (hzx : z ≠ x) : (IntrusiveQueue.pushBack L q x).1.next z = L.next z ∧
      (IntrusiveQueue.pushBack L q x).1.prev z = L.prev z := by
  have hself : q.tail ≠ some x := by
    rw [h.tail]
    exact fun e => hx (List.mem_of_getLast? e)
  have hzl : l.getLast? ≠ some z := fun e => hz (List.mem_of_getLast? e)
  rw [pushBack_next hself, pushBack_prev, h.tail, if_neg hzx, if_neg hzl, if_neg hzx]
  exact ⟨rfl, rfl⟩

end Ops

end PlantOS.Lib.IntrusiveQueue
