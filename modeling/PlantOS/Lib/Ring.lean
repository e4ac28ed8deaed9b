import Mathlib.Data.List.Basic

/-!
# Ring buffers

A ring of `capacity` cells with the position of its first element and the number of its elements. A block of
elements is copied in and out in at most two pieces, one up to the end of the cells and one from their start.
-/

namespace PlantOS.Lib.Ring

variable {α : Type*}

def content (capacity : ℕ) (data : ℕ → α) (head used : ℕ) : List α :=
  (List.range used).map fun i => data ((head + i) % capacity)

/-- `n` cells from `position` on are overwritten. -/
def store (data : ℕ → α) (position n : ℕ) (source : ℕ → α) (j : ℕ) : α :=
  if position ≤ j ∧ j < position + n then source (j - position) else data j

/-- The cells behind `length` elements of `source` that are added to a ring. -/
def push (capacity : ℕ) (data : ℕ → α) (head used : ℕ) (source : ℕ → α) (length : ℕ) : ℕ → α :=
  let position := (head + used) % capacity
  let first := min (capacity - position) length
  store (store data position first source) 0 (length - first) fun i => source (first + i)

/-- The first `length` elements, copied out of the ring. -/
def front (capacity : ℕ) (data : ℕ → α) (head length : ℕ) : List α :=
  let first := min (capacity - head) length
  (List.range first).map (fun i => data (head + i)) ++ (List.range (length - first)).map data

variable {capacity head used length : ℕ} {data source : ℕ → α}

@[simp] lemma content_length : (content capacity data head used).length = used := by simp [content]

lemma mod_wrap {k : ℕ} (hhead : head < capacity) (hk : k ≤ capacity) :
    (head + k) % capacity = if head + k < capacity then head + k else head + k - capacity := by
  split_ifs with h
  · exact Nat.mod_eq_of_lt h
  · rw [Nat.mod_eq_sub_mod (by omega), Nat.mod_eq_of_lt (by omega)]

lemma push_old (hhead : head < capacity) (hroom : used + length ≤ capacity) {i : ℕ} (hi : i < used) :
    push capacity data head used source length ((head + i) % capacity) = data ((head + i) % capacity) := by
  unfold push store
  dsimp only
  rw [mod_wrap hhead (by omega : i ≤ capacity), mod_wrap hhead (by omega : used ≤ capacity)]
  split_ifs with h₁ h₂ h₃ <;> first | rfl | omega

lemma push_new (hhead : head < capacity) (hroom : used + length ≤ capacity) {i : ℕ} (hi : i < length) :
    push capacity data head used source length ((head + (used + i)) % capacity) = source i := by
  unfold push store
  dsimp only
  rw [mod_wrap hhead (by omega : used + i ≤ capacity), mod_wrap hhead (by omega : used ≤ capacity)]
  split_ifs with h₁ h₂ h₃ h₄ <;> first | omega | (congr 1; omega)

/-- **A push adds to the end.** -/
theorem content_push (hhead : head < capacity) (hroom : used + length ≤ capacity) :
    content capacity (push capacity data head used source length) head (used + length) =
      content capacity data head used ++ (List.range length).map source := by
  unfold content
  rw [List.range_add, List.map_append, List.map_map]
  congr 1
  · refine List.map_congr_left fun i hi => ?_
    exact push_old hhead hroom (List.mem_range.mp hi)
  · refine List.map_congr_left fun i hi => ?_
    exact push_new hhead hroom (List.mem_range.mp hi)

/-- **What is copied out are the oldest elements.** -/
theorem front_eq (hhead : head < capacity) (hlen : length ≤ used) (hused : used ≤ capacity) :
    front capacity data head length = (content capacity data head used).take length := by
  have hmin : min length used = length := by omega
  unfold front content
  dsimp only
  rw [← List.map_take, List.take_range, hmin]
  have hspl : length = min (capacity - head) length + (length - min (capacity - head) length) := by omega
  conv_rhs => rw [hspl, List.range_add, List.map_append, List.map_map]
  congr 1
  · refine List.map_congr_left fun i hi => ?_
    have hi := List.mem_range.mp hi
    rw [mod_wrap hhead (by omega), if_pos (by omega)]
  · refine List.map_congr_left fun i hi => ?_
    have hi := List.mem_range.mp hi
    show data i = data ((head + (min (capacity - head) length + i)) % capacity)
    rw [mod_wrap hhead (by omega), if_neg (by omega)]
    congr 1
    omega

/-- **What remains are the other elements.** -/
theorem content_pop :
    content capacity data ((head + length) % capacity) (used - length) =
      (content capacity data head used).drop length := by
  unfold content
  refine List.ext_getElem (by simp) fun i h₁ h₂ => ?_
  simp only [List.getElem_map, List.getElem_range, List.getElem_drop, Nat.mod_add_mod, Nat.add_assoc]

/-- **A single element is added to the end**, in the cell that its position has. -/
theorem content_update (hhead : head < capacity) (hroom : used < capacity) (a : α) :
    content capacity (Function.update data ((head + used) % capacity) a) head (used + 1) =
      content capacity data head used ++ [a] := by
  unfold content
  rw [List.range_succ, List.map_append]
  congr 1
  · refine List.map_congr_left fun i hi => Function.update_of_ne ?_ ..
    have hi := List.mem_range.mp hi
    rw [mod_wrap hhead (by omega), mod_wrap hhead (by omega)]
    split_ifs <;> omega
  · simp only [List.map_cons, List.map_nil, Function.update_self]

lemma content_head (hhead : head < capacity) (hused : used ≠ 0) :
    (content capacity data head used).head? = some (data head) := by
  obtain ⟨n, rfl⟩ := Nat.exists_eq_succ_of_ne_zero hused
  simp only [content, Nat.succ_eq_add_one, List.range_succ_eq_map, List.map_cons, List.head?_cons, Nat.add_zero,
    Nat.mod_eq_of_lt hhead]

lemma content_copy {capacity' : ℕ} (hused : used ≤ capacity') (fresh : ℕ → α) :
    content capacity' (fun i => if i < used then data ((head + i) % capacity) else fresh i) 0 used =
      content capacity data head used := by
  unfold content
  refine List.map_congr_left fun i hi => ?_
  have hi := List.mem_range.mp hi
  rw [Nat.zero_add, Nat.mod_eq_of_lt (by omega)]
  exact if_pos hi

end PlantOS.Lib.Ring
