import Mathlib.Data.Nat.Find

/-!
# Searching and sorting

`bsearch`, and the search for the next tree in the heap of `qsort_r`.
-/

namespace PlantOS.Libp.Sort

/-- `bsearch` from its element `first` on; `order i` is what `compare` says of the key and the element `i`. -/
def bsearch (order : ℕ → ℤ) (first count : ℕ) : Option ℕ :=
  if count = 0 then none
  else
    let middle := count / 2
    if order (first + middle) = 0 then some (first + middle)
    else if order (first + middle) < 0 then bsearch order first middle
    else bsearch order (first + middle + 1) (count - (middle + 1))
termination_by count

/-- The elements are in ascending order for the key. -/
def Ascending (order : ℕ → ℤ) (count : ℕ) : Prop :=
  ∀ i j, i ≤ j → j < count → (order i < 0 → order j < 0) ∧ (0 < order j → 0 < order i)

lemma bsearch_spec (order : ℕ → ℤ) {n : ℕ} (first count : ℕ) (hn : first + count ≤ n) :
    (∀ i, bsearch order first count = some i → i < n ∧ order i = 0) ∧
      (Ascending order n → (∀ i < first, 0 < order i) → (∀ i < n, first + count ≤ i → order i < 0) →
        bsearch order first count = none → ∀ i < n, order i ≠ 0) := by
  fun_induction bsearch order first count with
  | case1 first =>
    refine ⟨nofun, fun _ hbef hbeh _ i hi heq => ?_⟩
    rcases Nat.lt_or_ge i first with hlt | hge
    · exact absurd (hbef i hlt) (by omega)
    · exact absurd (hbeh i hi hge) (by omega)
  | case2 first count hne middle heq => exact ⟨fun i hi => Option.some.inj hi ▸ ⟨by omega, heq⟩, nofun⟩
  | case3 first count hne middle heq hneg ih =>
    obtain ⟨hmatch, hfind⟩ := ih (by omega)
    exact ⟨hmatch, fun hasc hbef _ => hfind hasc hbef fun i hi hge => (hasc _ i hge hi).1 hneg⟩
  | case4 first count hne middle heq hneg ih =>
    obtain ⟨hmatch, hfind⟩ := ih (by omega)
    exact ⟨hmatch, fun hasc _ hbeh => hfind hasc (fun i hi => (hasc i (first + middle) (by omega) (by omega)).2 (by omega))
      fun i hi hge => hbeh i hi (by omega)⟩

/-- **The search is right.** What it returns is a match in the array, and it finds one if there is one in an ascending
array. -/
theorem bsearch_finds (order : ℕ → ℤ) (count : ℕ) :
    (∀ i, bsearch order 0 count = some i → i < count ∧ order i = 0) ∧
      (Ascending order count → bsearch order 0 count = none → ∀ i < count, order i ≠ 0) := by
  obtain ⟨hmatch, hfind⟩ := bsearch_spec order 0 count (Nat.le_of_eq (Nat.zero_add count))
  exact ⟨hmatch, fun hasc => hfind hasc (fun i hi => absurd hi (Nat.not_lt_zero i)) fun i hi hge => by omega⟩

/-! ### The heap -/

def debruijn32 : List ℕ :=
  [0, 1, 23, 2, 29, 24, 19, 3, 30, 27, 25, 11, 20, 8, 4, 13, 31, 22, 28, 18, 26, 10, 7, 12, 21, 17, 9, 6, 16, 5, 15, 14]

def aCtz32 (x : BitVec 32) : ℕ := debruijn32.getD (((x &&& -x) * 0x076be629#32) >>> 27).toNat 0

/-- `a_ctz_l`: its argument is a word of 64 bits, and that of `a_ctz_32` has 32. -/
def ntz (x : BitVec 64) : ℕ := aCtz32 (x.setWidth 32)

def pntz (p0 p1 : BitVec 64) : ℕ :=
  let r := ntz (p0 - 1)
  if r ≠ 0 then r else if 64 + ntz p1 ≠ 64 then 64 + ntz p1 else 0

/-- `n` is the number of the zeros below the lowest one. -/
def Lowest {w : ℕ} (x : BitVec w) (n : ℕ) : Prop := x.getLsbD n = true ∧ ∀ j < n, x.getLsbD j = false

variable {w n : ℕ} {x : BitVec w}

lemma exists_lowest (hx : x ≠ 0#w) : ∃ n < w, Lowest x n := by
  have hex : ∃ i, x.getLsbD i = true := by
    by_contra hnone
    exact hx (BitVec.eq_of_getLsbD_eq fun i _ => by simpa using fun h => hnone ⟨i, h⟩)
  exact ⟨Nat.find hex, BitVec.lt_of_getLsbD (Nat.find_spec hex), Nat.find_spec hex,
    fun j hj => by simpa using Nat.find_min hex hj⟩

lemma and_neg_eq (h : Lowest x n) : x &&& -x = BitVec.twoPow w n := by
  refine BitVec.eq_of_getLsbD_eq fun i hi => ?_
  rw [BitVec.getLsbD_and, BitVec.getLsbD_neg, BitVec.getLsbD_twoPow]
  rcases Nat.lt_trichotomy i n with hlt | rfl | hlt
  · simp [h.2 i hlt, Nat.ne_of_gt hlt]
  · have hnone : ¬∃ j < i, x.getLsbD j = true := fun ⟨j, hj, hbit⟩ => by
      rw [h.2 j hj] at hbit
      cases hbit
    simp [h.1, hi, hnone]
  · have hsome : ∃ j < i, x.getLsbD j = true := ⟨n, hlt, h.1⟩
    simp [hi, hsome, Nat.ne_of_lt hlt]

lemma aCtz32_lowest {x : BitVec 32} (hx : x ≠ 0#32) : Lowest x (aCtz32 x) := by
  obtain ⟨n, hn, h⟩ := exists_lowest hx
  have htable : ∀ k < 32, debruijn32.getD ((BitVec.twoPow 32 k * 0x076be629#32) >>> 27).toNat 0 = k := by decide
  unfold aCtz32
  rw [and_neg_eq h, htable n hn]
  exact h

lemma ntz_lowest {x : BitVec 64} (hx : x.setWidth 32 ≠ 0#32) : Lowest x (ntz x) := by
  have h := aCtz32_lowest hx
  have hbit : ∀ j < 32, (x.setWidth 32).getLsbD j = x.getLsbD j := fun j hj => by simp [hj]
  have hlt := BitVec.lt_of_getLsbD h.1
  exact ⟨(hbit _ hlt).symm.trans h.1, fun j hj => (hbit j (Nat.lt_trans hj hlt)).symm.trans (h.2 j hj)⟩

lemma ntz_of_zero {x : BitVec 64} (hx : x.setWidth 32 = 0#32) : ntz x = 0 := by
  unfold ntz
  rw [hx]
  decide

section

variable {y x : BitVec 64} {m : ℕ}

lemma append_low {j : ℕ} (hj : j < 64) : (y ++ x).getLsbD j = x.getLsbD j := by
  rw [BitVec.getLsbD_append, if_pos hj]

lemma Lowest.append (h : Lowest x m) : Lowest (y ++ x) m :=
  have hlt := BitVec.lt_of_getLsbD h.1
  ⟨(append_low hlt).trans h.1, fun j hj => (append_low (Nat.lt_trans hj hlt)).trans (h.2 j hj)⟩

lemma Lowest.append_zero (h : Lowest y m) : Lowest (y ++ 0#64) (64 + m) := by
  refine ⟨?_, fun j hj => ?_⟩
  · rw [BitVec.getLsbD_append, if_neg (by omega), Nat.add_sub_cancel_left, h.1]
  · rw [BitVec.getLsbD_append]
    split_ifs with hlow
    · exact BitVec.getLsbD_zero
    · exact h.2 _ (by omega)

end

lemma Lowest.unique {m : ℕ} (h : Lowest x n) (h' : Lowest x m) : n = m := by
  rcases Nat.lt_trichotomy n m with hlt | heq | hlt
  · exact absurd h.1 (by simp [h'.2 n hlt])
  · exact heq
  · exact absurd h'.1 (by simp [h.2 m hlt])

/-- **The next tree is found** exactly where one of the 32 lower bits of `p[0]` is set for it, or `p[0]` has no tree
but the first and one of the 32 lower bits of `p[1]` is set, but not the lowest. -/
theorem pntz_lowest_iff (p0 p1 : BitVec 64) (hodd : p0.toNat % 2 = 1) :
    Lowest (p1 ++ (p0 - 1)) (pntz p0 p1) ↔
      (p0 - 1).setWidth 32 ≠ 0#32 ∨ p0 = 1 ∧ p1.setWidth 32 ≠ 0#32 ∧ p1.getLsbD 0 = false := by
  have heven : (p0 - 1).getLsbD 0 = false := by
    have htwo : (p0 - 1).toNat % 2 = 0 := by bv_omega
    rw [BitVec.getLsbD, Nat.testBit_zero, htwo]
    rfl
  have hzero : ¬Lowest (p1 ++ (p0 - 1)) 0 := fun h => by
    rw [Lowest, append_low (by decide), heven] at h
    cases h.1
  unfold pntz
  by_cases hfirst : (p0 - 1).setWidth 32 = 0#32
  · rw [ntz_of_zero hfirst, if_neg (not_not.mpr rfl)]
    by_cases hone : p0 = 1
    · subst hone
      by_cases hsecond : p1.setWidth 32 = 0#32
      · simpa [ntz_of_zero hsecond, hsecond] using hzero
      · have h := ntz_lowest hsecond
        cases hbit : p1.getLsbD 0 with
        | true =>
          rw [h.unique ⟨hbit, nofun⟩]
          simpa using hzero
        | false =>
          have hne : ntz p1 ≠ 0 := fun heq => by
            rw [heq, Lowest, hbit] at h
            cases h.1
          rw [if_pos (by omega)]
          exact iff_of_true h.append_zero (.inr ⟨rfl, hsecond, rfl⟩)
    · -- the next tree is above the 32 lower bits
      obtain ⟨m, hm, h⟩ := exists_lowest fun hnone => hone ((BitVec.sub_eq_iff_eq_add.mp hnone).trans (BitVec.zero_add _))
      refine iff_of_false (fun hl => ?_) (not_or.mpr ⟨not_not.mpr hfirst, fun hr => hone hr.1⟩)
      have heq := h.append.unique hl
      split_ifs at heq hl
      · omega
      · exact hzero hl
  · have h := ntz_lowest hfirst
    have hne : ntz (p0 - 1) ≠ 0 := fun heq => by
      rw [heq, Lowest, heven] at h
      cases h.1
    rw [if_pos hne]
    exact iff_of_true h.append (.inl hfirst)

/-- A tree whose order is greater by 33 is not found. -/
theorem pntz_lowest_far : ¬Lowest (0#64 ++ (0x200000001#64 - 1)) (pntz 0x200000001#64 0#64) :=
  fun h => absurd ((pntz_lowest_iff _ _ (by decide)).mp h) (by decide)

end PlantOS.Libp.Sort
