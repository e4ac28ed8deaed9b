import Mathlib.Tactic.Ring

/-!
# Loops over rectangles

A loop from `a` to `b` and two nested ones over a rectangle, whose steps can fail, with their invariant rules; and the
cells of a grid that lies in memory row by row.
-/

namespace PlantOS.Lib

variable {σ : Type*}

/-! ### Loops -/

/-- `n` times `body`, from `x` on -/
def times (body : ℤ → σ → Option σ) : ℕ → ℤ → σ → Option σ
  | 0, _, s => some s
  | n + 1, x, s => (body x s).bind (times body n (x + 1))

/-- `for (x = a; x < b; x++)` -/
def forUp (a b : ℤ) (body : ℤ → σ → Option σ) (s : σ) : Option σ := times body (b - a).toNat a s

/-- **The rule of a loop**: steps that succeed and keep what holds after as many of them -/
theorem forUp_spec (a b : ℤ) (body : ℤ → σ → Option σ) (P : ℤ → σ → Prop)
    (hbody : ∀ x s, a ≤ x → x < b → P x s → ∃ s', body x s = some s' ∧ P (x + 1) s') {s : σ} (hs : P a s) :
    ∃ s', forUp a b body s = some s' ∧ P (max a b) s' := by
  have hrun : ∀ n : ℕ, ∀ x s, a ≤ x → x + n ≤ max a b → P x s → ∃ s', times body n x s = some s' ∧ P (x + n) s' := by
    intro n
    induction n with
    | zero =>
      intro x s _ _ hs
      exact ⟨s, rfl, by rwa [Nat.cast_zero, add_zero]⟩
    | succ n ih =>
      intro x s hx hn hs
      obtain ⟨s₁, h₁, hs₁⟩ := hbody x s hx (by omega) hs
      obtain ⟨s₂, h₂, hs₂⟩ := ih (x + 1) s₁ (by omega) (by omega) hs₁
      refine ⟨s₂, ?_, ?_⟩
      · rw [times, h₁]
        exact h₂
      · have hend : x + ((n + 1 : ℕ) : ℤ) = x + 1 + n := by omega
        rwa [hend]
  obtain ⟨s', h, hs'⟩ := hrun (b - a).toNat a s le_rfl (by omega) hs
  refine ⟨s', h, ?_⟩
  have hend : max a b = a + ((b - a).toNat : ℤ) := by omega
  rwa [hend]

/-- `n` times `body`, down to `b` -/
def timesDown (body : ℤ → σ → Option σ) (b : ℤ) : ℕ → σ → Option σ
  | 0, s => some s
  | n + 1, s => (body (b + n) s).bind (timesDown body b n)

/-- `for (x = a; x >= b; x--)` -/
def forDown (a b : ℤ) (body : ℤ → σ → Option σ) (s : σ) : Option σ := timesDown body b (a - b + 1).toNat s

theorem forDown_spec (a b : ℤ) (body : ℤ → σ → Option σ) (P : ℤ → σ → Prop) (hab : b ≤ a + 1)
    (hbody : ∀ x s, b ≤ x → x ≤ a → P (x + 1) s → ∃ s', body x s = some s' ∧ P x s') {s : σ} (hs : P (a + 1) s) :
    ∃ s', forDown a b body s = some s' ∧ P b s' := by
  have hrun : ∀ n : ℕ, ∀ s, b + n ≤ a + 1 → P (b + n) s → ∃ s', timesDown body b n s = some s' ∧ P b s' := by
    intro n
    induction n with
    | zero =>
      intro s _ hs
      exact ⟨s, rfl, by rwa [Nat.cast_zero, add_zero] at hs⟩
    | succ n ih =>
      intro s hn hs
      have hend : b + ((n + 1 : ℕ) : ℤ) = b + n + 1 := by omega
      rw [hend] at hs hn
      obtain ⟨s₁, h₁, hs₁⟩ := hbody (b + n) s (by omega) (by omega) hs
      obtain ⟨s₂, h₂, hs₂⟩ := ih s₁ (by omega) hs₁
      refine ⟨s₂, ?_, hs₂⟩
      rw [timesDown, h₁]
      exact h₂
  have hend : b + ((a - b + 1).toNat : ℤ) = a + 1 := by omega
  exact hrun _ s (by omega) (by rwa [hend])

def box (x₀ y₀ x₁ y₁ : ℤ) : Set (ℤ × ℤ) := {p | x₀ ≤ p.1 ∧ p.1 < x₁ ∧ y₀ ≤ p.2 ∧ p.2 < y₁}

@[simp] lemma mem_box {x₀ y₀ x₁ y₁ x y : ℤ} : (x, y) ∈ box x₀ y₀ x₁ y₁ ↔ x₀ ≤ x ∧ x < x₁ ∧ y₀ ≤ y ∧ y < y₁ := Iff.rfl

def forBox (x₀ y₀ x₁ y₁ : ℤ) (body : ℤ → ℤ → σ → Option σ) (s : σ) : Option σ :=
  forUp y₀ y₁ (fun y s => forUp x₀ x₁ (fun x s => body x y s) s) s

/-- The points before `(x, y)` -/
def before (x₀ y₀ x₁ y₁ x y : ℤ) : Set (ℤ × ℤ) :=
  {p | p ∈ box x₀ y₀ x₁ y₁ ∧ (p.2 < y ∨ p.2 = y ∧ p.1 < x)}

section Before

variable {x₀ y₀ x₁ y₁ x y : ℤ}

lemma before_first : before x₀ y₀ x₁ y₁ x₀ y₀ = ∅ := by
  ext ⟨u, v⟩
  simp only [before, Set.mem_ofPred_eq, mem_box, Set.mem_empty_iff_false, iff_false]
  omega

lemma before_last : before x₀ y₀ x₁ y₁ x₀ (max y₀ y₁) = box x₀ y₀ x₁ y₁ := by
  ext ⟨u, v⟩
  simp only [before, Set.mem_ofPred_eq, mem_box]
  omega

lemma before_row (hx : x₁ ≤ x) : before x₀ y₀ x₁ y₁ x y = before x₀ y₀ x₁ y₁ x₀ (y + 1) := by
  ext ⟨u, v⟩
  simp only [before, Set.mem_ofPred_eq, mem_box]
  omega

lemma not_mem_before : (x, y) ∉ before x₀ y₀ x₁ y₁ x y := by
  simp only [before, Set.mem_ofPred_eq, mem_box]
  omega

lemma insert_before (h : (x, y) ∈ box x₀ y₀ x₁ y₁) :
    insert (x, y) (before x₀ y₀ x₁ y₁ x y) = before x₀ y₀ x₁ y₁ (x + 1) y := by
  rw [mem_box] at h
  ext ⟨u, v⟩
  simp only [before, Set.mem_insert_iff, Prod.mk.injEq, Set.mem_ofPred_eq, mem_box]
  omega

end Before

/-- **The rule of a rectangle**: what holds of the points that are done, at each point that is not -/
theorem forBox_spec (x₀ y₀ x₁ y₁ : ℤ) (body : ℤ → ℤ → σ → Option σ) (P : Set (ℤ × ℤ) → σ → Prop)
    (hbody : ∀ x y done s, (x, y) ∈ box x₀ y₀ x₁ y₁ → (x, y) ∉ done → P done s →
      ∃ s', body x y s = some s' ∧ P (insert (x, y) done) s') {s : σ} (hs : P ∅ s) :
    ∃ s', forBox x₀ y₀ x₁ y₁ body s = some s' ∧ P (box x₀ y₀ x₁ y₁) s' := by
  have hpoin : ∀ y, y₀ ≤ y → y < y₁ → ∀ x s, x₀ ≤ x → x < x₁ → P (before x₀ y₀ x₁ y₁ x y) s →
      ∃ s', body x y s = some s' ∧ P (before x₀ y₀ x₁ y₁ (x + 1) y) s' := by
    intro y hy₀ hy₁ x s hx₀ hx₁ hs
    have hin : (x, y) ∈ box x₀ y₀ x₁ y₁ := ⟨hx₀, hx₁, hy₀, hy₁⟩
    rw [← insert_before hin]
    exact hbody x y _ s hin not_mem_before hs
  have hrow : ∀ y s, y₀ ≤ y → y < y₁ → P (before x₀ y₀ x₁ y₁ x₀ y) s →
      ∃ s', forUp x₀ x₁ (fun x s => body x y s) s = some s' ∧ P (before x₀ y₀ x₁ y₁ x₀ (y + 1)) s' := by
    intro y s hy₀ hy₁ hs
    rw [← before_row (le_max_right x₀ x₁)]
    exact forUp_spec x₀ x₁ _ (fun x s => P (before x₀ y₀ x₁ y₁ x y) s) (hpoin y hy₀ hy₁) hs
  rw [← before_last]
  exact forUp_spec y₀ y₁ _ (fun y s => P (before x₀ y₀ x₁ y₁ x₀ y) s) hrow (by rwa [before_first])

/-- The cell of a point, in rows of `stride` -/
def cell (stride : ℕ) (x y : ℤ) : ℕ := (y * stride + x).toNat

variable {stride : ℕ} {x y : ℤ}

lemma cell_eq (hx : 0 ≤ x) (hy : 0 ≤ y) : cell stride x y = y.toNat * stride + x.toNat := by
  unfold cell
  obtain ⟨m, rfl⟩ := Int.eq_ofNat_of_zero_le hx
  obtain ⟨n, rfl⟩ := Int.eq_ofNat_of_zero_le hy
  rw [Int.toNat_natCast, Int.toNat_natCast, ← Nat.cast_mul, ← Nat.cast_add, Int.toNat_natCast]

lemma cell_add {i : ℤ} (hx : 0 ≤ x) (hy : 0 ≤ y) (hi : 0 ≤ i) : cell stride (x + i) y = cell stride x y + i.toNat := by
  rw [cell_eq (by omega) hy, cell_eq hx hy]
  omega

theorem cell_inj {u v : ℤ} (hx : 0 ≤ x) (hxs : x < stride) (hy : 0 ≤ y) (hu : 0 ≤ u) (hus : u < stride) (hv : 0 ≤ v)
    (h : cell stride x y = cell stride u v) : x = u ∧ y = v := by
  rw [cell_eq hx hy, cell_eq hu hv] at h
  have hpos : 0 < stride := by omega
  have hxn : x.toNat < stride := by omega
  have hun : u.toNat < stride := by omega
  have hrow : y.toNat = v.toNat := by
    have hdiv : (y.toNat * stride + x.toNat) / stride = (v.toNat * stride + u.toNat) / stride := congrArg (· / stride) h
    rwa [Nat.add_comm, Nat.add_mul_div_right _ _ hpos, Nat.div_eq_of_lt hxn, Nat.add_comm (v.toNat * stride),
      Nat.add_mul_div_right _ _ hpos, Nat.div_eq_of_lt hun, Nat.zero_add, Nat.zero_add] at hdiv
  rw [hrow] at h
  omega

theorem cell_lt (width height : ℤ) (hx : 0 ≤ x) (hxw : x < width) (hy : 0 ≤ y) (hyh : y < height) {size : ℕ}
    (hsize : (height - 1) * stride + width ≤ size) : cell stride x y < size := by
  have hfst : 0 ≤ y * stride := Int.mul_nonneg hy (Int.natCast_nonneg _)
  have hrows : y * stride ≤ (height - 1) * stride := by
    apply Int.mul_le_mul_of_nonneg_right <;> omega
  unfold cell
  omega

end PlantOS.Lib
