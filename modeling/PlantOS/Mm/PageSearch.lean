import Mathlib.Data.Int.Notation
import Mathlib.Order.Basic
import PlantOS.Lib.Run

/-!
# The allocator of physical pages

The reference counts of the pages of x86_64 and the two hints. `page_malloc` looks for consecutive free pages from its
hint to the end of the memory, and then from the beginning of the memory to the hint. A call that panics halts the
machine and has no step. The owners of pages are left out: `gc` is the releases that it makes.
-/

namespace PlantOS.Mm.PageSearch

open Lib

def pageBytes : ℕ := 4096

def uintMax : ℕ := 4294967295

def uint64Max : ℕ := 18446744073709551615

/-- `pages`, `page_count`, the hints and the address of the zero page. -/
structure PhysicalPages where
  references : ℕ → ℕ
  pageCount : ℕ
  allocationHint : ℕ
  userHint : ℕ
  zeroPage : ℕ

/-! ### The search -/

/-- The inner loop of `page_malloc` over `n` pages from `i` on, with the length `run` of the free pages before: the
last page of the run that it finds. -/
def searchPass (references : ℕ → ℕ) (count : ℕ) : (n i run : ℕ) → Option ℕ
  | 0, _, _ => none
  | n + 1, i, run =>
    let run := if references i ≠ 0 then 0 else run + 1
    if run ≠ count then searchPass references count n (i + 1) run else some i

namespace PhysicalPages

variable (s : PhysicalPages)

def search (count : ℕ) : Option ℕ :=
  match searchPass s.references count (s.pageCount - s.allocationHint) s.allocationHint 0 with
  | some i => some i
  | none => searchPass s.references count s.allocationHint 0 0

def pagesFor (size : ℤ) : ℕ := (size.toNat + pageBytes - 1) / pageBytes

/-- `page_malloc`: the first page of what it returns, `none` for `NULL`. -/
def pageMalloc (size : ℤ) : PhysicalPages × Option ℕ :=
  if size ≤ 0 then (s, none)
  else
    let count := pagesFor size
    match s.search count with
    | none => (s, none)
    | some i =>
      let first := i + 1 - count
      ({ s with
          references := fun j => if first ≤ j ∧ j ≤ i then 1 else s.references j
          allocationHint := if i + 1 < s.pageCount then i + 1 else 0 },
        some first)

/-! ### The other operations -/

/-- `page_release`; `none` is `page_panic`. -/
def pageRelease (physical : ℕ) : Option PhysicalPages :=
  if physical = s.zeroPage then some s
  else
    let index := physical / pageBytes
    if index ≥ s.pageCount ∨ s.references index = 0 ∨ s.references index = uintMax then none
    else
      let t := { s with references := fun j => if j = index then s.references index - 1 else s.references j }
      if s.references index - 1 = 0 then
        some
          { t with
            allocationHint := if index < s.allocationHint then index else s.allocationHint
            userHint := if index ≥ s.userHint then index + 1 else s.userHint }
      else some t

def pageRetain (physical : ℕ) : Option PhysicalPages :=
  if physical = s.zeroPage then some s
  else
    let index := physical / pageBytes
    if index ≥ s.pageCount ∨ s.references index = 0 ∨ s.references index ≥ uintMax - 1 then none
    else some { s with references := fun j => if j = index then s.references index + 1 else s.references j }

/-- `page_free` from its page `i` on. -/
def pageFreeFrom (physical i : ℕ) : ℕ → PhysicalPages → Option PhysicalPages
  | 0, s => some s
  | n + 1, s => (s.pageRelease (physical + i * pageBytes)).bind (pageFreeFrom physical (i + 1) n)

def pageFree (physical : ℕ) (size : ℤ) : Option PhysicalPages :=
  if size ≤ 0 then some s else pageFreeFrom physical 0 (pagesFor size) s

/-- The loop of `user_page_allocate`. -/
def userPageFrom : ℕ → PhysicalPages × Option ℕ
  | 0 => ({ s with userHint := 0 }, none)
  | index + 1 =>
    if s.references index ≠ 0 then userPageFrom index
    else ({ s with userHint := index, references := fun j => if j = index then 1 else s.references j }, some index)

def userPageAllocate : PhysicalPages × Option ℕ := s.userPageFrom s.userHint

def pageReservePhysicalRange (physical size : ℕ) : PhysicalPages :=
  let first := physical / pageBytes
  let last := (physical + size - 1) / pageBytes
  if size = 0 ∨ physical > uint64Max - size ∨ last ≥ s.pageCount ∨
      (List.range' first (last + 1 - first)).any fun i => s.references i != uintMax && s.references i != 0 then s
  else { s with references := fun j => if first ≤ j ∧ j ≤ last then uintMax else s.references j }

end PhysicalPages

inductive PageEvent
  | malloc (size : ℤ)
  | free (physical : ℕ) (size : ℤ)
  | release (physical : ℕ)
  | retain (physical : ℕ)
  | userAllocate
  | reserve (physical size : ℕ)
  /-- the zero page is made -/
  | zeroPage (physical : ℕ)

namespace PhysicalPages

def step (s : PhysicalPages) : PageEvent → Option PhysicalPages
  | .malloc size => some (s.pageMalloc size).1
  | .free physical size => s.pageFree physical size
  | .release physical => s.pageRelease physical
  | .retain physical => s.pageRetain physical
  | .userAllocate => some s.userPageAllocate.1
  | .reserve physical size => some (s.pageReservePhysicalRange physical size)
  | .zeroPage physical => some { s with zeroPage := physical }

/-- `init_page` has read the memory map; the allocations that it makes are steps. -/
structure Init (s : PhysicalPages) : Prop where
  allocationHint : s.allocationHint = 0
  userHint : s.userHint = s.pageCount
  zeroPage : s.zeroPage = 0

end PhysicalPages

def pageSystem : System PhysicalPages PageEvent := ⟨PhysicalPages.Init, PhysicalPages.step⟩

/-! ### The runs of free pages -/

/-- The `count` pages from `first` on have no references. -/
def Unused (references : ℕ → ℕ) (first count : ℕ) : Prop := ∀ j, first ≤ j → j < first + count → references j = 0

structure PhysicalPages.FreeRun (s : PhysicalPages) (first count : ℕ) : Prop where
  pos : 0 < count
  inside : first + count ≤ s.pageCount
  unused : Unused s.references first count

/-- One pass from `begin` on. `start` is where the free pages before the current one begin: the run is maximal to the
left, and shorter than what is looked for. -/
lemma searchPass_spec (references : ℕ → ℕ) {count «begin» : ℕ} (n : ℕ) {start run : ℕ} (hbeg : «begin» ≤ start)
    (hrun : Unused references start run) (hshrt : run < count)
    (hleft : start = «begin» ∨ references (start - 1) ≠ 0)
    (hbef : ∀ f, «begin» ≤ f → f + count ≤ start + run → ¬Unused references f count) :
    match searchPass references count n (start + run) run with
    | none => ∀ f, «begin» ≤ f → f + count ≤ start + run + n → ¬Unused references f count
    | some last =>
      last < start + run + n ∧ ∃ f, «begin» ≤ f ∧ f + count = last + 1 ∧ Unused references f count := by
  induction n generalizing start run with
  | zero => simpa [searchPass] using hbef
  | succ n ih =>
    simp only [searchPass]
    by_cases hused : references (start + run) ≠ 0
    · -- a used page: the run begins again behind it
      have hnext := @ih (start + run + 1) 0 (by omega) (fun j h1 h2 => by omega) (by omega)
        (.inr (by simpa using hused)) (fun f hf hend hfree => by
          by_cases hlast : f + count ≤ start + run
          · exact hbef f hf hlast hfree
          · exact hused (hfree _ (by omega) (by omega)))
      have h0 : (0 : ℕ) ≠ count := by omega
      rw [if_pos hused, if_pos h0]
      have harit : start + run + 1 + 0 + n = start + run + (n + 1) := by omega
      rw [harit] at hnext
      exact hnext
    · have hfree : references (start + run) = 0 := by omega
      have hlon : Unused references start (run + 1) := by
        intro j h1 h2
        by_cases hj : j = start + run
        · rw [hj, hfree]
        · exact hrun j h1 (by omega)
      rw [if_neg hused]
      by_cases hfull : run + 1 ≠ count
      · have hnext := @ih start (run + 1) hbeg hlon (by omega) hleft (fun f hf hend hunus => by
          by_cases hlast : f + count ≤ start + run
          · exact hbef f hf hlast hunus
          · -- the run would have to begin before the used page on the left
            rcases hleft with hstar | hstar
            · omega
            · exact hstar (hunus _ (by omega) (by omega)))
        rw [if_pos hfull]
        have harit : start + (run + 1) + n = start + run + (n + 1) := by omega
        rw [harit] at hnext
        exact hnext
      · have hcnt : run + 1 = count := by omega
        rw [if_neg hfull]
        refine ⟨by omega, start, hbeg, by omega, ?_⟩
        rw [← hcnt]
        exact hlon

lemma searchPass_range (references : ℕ → ℕ) {count : ℕ} (hcnt : 0 < count) (n «begin» : ℕ) :
    match searchPass references count n «begin» 0 with
    | none => ∀ f, «begin» ≤ f → f + count ≤ «begin» + n → ¬Unused references f count
    | some last => last < «begin» + n ∧ ∃ f, «begin» ≤ f ∧ f + count = last + 1 ∧ Unused references f count :=
  searchPass_spec references n (Nat.le_refl _) (fun j h1 h2 => by omega) hcnt (.inl rfl)
    (fun f h1 h2 => by omega)

namespace PhysicalPages

variable {s : PhysicalPages}

/-- **What the two passes find.** They find a run on one side of the hint, and nothing only if every run has the hint
inside. -/
theorem search_spec {count : ℕ} (hcnt : 0 < count) (hhint : s.allocationHint ≤ s.pageCount) :
    match s.search count with
    | none => ∀ f, s.FreeRun f count → f < s.allocationHint ∧ s.allocationHint < f + count
    | some last =>
      ∃ f, f + count = last + 1 ∧ s.FreeRun f count ∧ (s.allocationHint ≤ f ∨ f + count ≤ s.allocationHint) := by
  unfold search
  have hfst := searchPass_range s.references hcnt (s.pageCount - s.allocationHint) s.allocationHint
  have hsec := searchPass_range s.references hcnt s.allocationHint 0
  cases h1 : searchPass s.references count (s.pageCount - s.allocationHint) s.allocationHint 0 with
  | some last =>
    rw [h1] at hfst
    obtain ⟨hlast, f, hbeh, hf, hfree⟩ := hfst
    exact ⟨f, hf, ⟨hcnt, by omega, hfree⟩, .inl hbeh⟩
  | none =>
    rw [h1] at hfst
    cases h2 : searchPass s.references count s.allocationHint 0 0 with
    | some last =>
      rw [h2] at hsec
      obtain ⟨hlast, f, -, hf, hfree⟩ := hsec
      exact ⟨f, hf, ⟨hcnt, by omega, hfree⟩, .inr (by omega)⟩
    | none =>
      rw [h2] at hsec
      intro f hf
      have hin := hf.inside
      constructor
      · by_contra hbel
        exact hfst f (by omega) (by omega) hf.unused
      · by_contra habv
        exact hsec f (by omega) (by omega) hf.unused

/-! ### The hint over the runs -/

lemma pageMalloc_hint (size : ℤ) (h : s.allocationHint ≤ s.pageCount) :
    (s.pageMalloc size).1.allocationHint ≤ (s.pageMalloc size).1.pageCount := by
  unfold pageMalloc
  split_ifs with hsize
  · exact h
  · cases hsrch : s.search (pagesFor size) with
    | none =>
      simp only [hsrch]
      exact h
    | some i =>
      simp only [hsrch]
      split_ifs with hi
      · exact Nat.le_of_lt hi
      · exact Nat.zero_le _

variable {s' : PhysicalPages}
variable {physical : ℕ}

lemma pageRelease_hint (h : s.allocationHint ≤ s.pageCount)
    (he : s.pageRelease physical = some s') : s'.allocationHint ≤ s'.pageCount := by
  unfold pageRelease at he
  simp only at he
  split_ifs at he with h1 h2 h3 h4 <;> obtain rfl := Option.some.inj he <;> first | exact h | (simp only; omega)

lemma pageRetain_hint (h : s.allocationHint ≤ s.pageCount)
    (he : s.pageRetain physical = some s') : s'.allocationHint ≤ s'.pageCount := by
  unfold pageRetain at he
  simp only at he
  split_ifs at he <;> obtain rfl := Option.some.inj he <;> exact h

lemma userPageFrom_hint (n : ℕ) (h : s.allocationHint ≤ s.pageCount) :
    (s.userPageFrom n).1.allocationHint ≤ (s.userPageFrom n).1.pageCount := by
  induction n with
  | zero => exact h
  | succ n ih =>
    unfold userPageFrom
    split_ifs
    · exact ih
    · exact h

lemma pageReservePhysicalRange_hint (physical size : ℕ) (h : s.allocationHint ≤ s.pageCount) :
    (s.pageReservePhysicalRange physical size).allocationHint ≤
      (s.pageReservePhysicalRange physical size).pageCount := by
  unfold pageReservePhysicalRange
  simp only
  split_ifs <;> exact h

/-- What the six operations keep holds in every run. -/
lemma invariant {P : PhysicalPages → Prop} (hinit : ∀ s, Init s → P s)
    (hmal : ∀ s size, P s → P (s.pageMalloc size).1)
    (hrel : ∀ s s' physical, P s → s.pageRelease physical = some s' → P s')
    (hret : ∀ s s' physical, P s → s.pageRetain physical = some s' → P s')
    (huser : ∀ s, P s → P s.userPageAllocate.1)
    (hresv : ∀ s physical size, P s → P (s.pageReservePhysicalRange physical size))
    (hzero : ∀ s physical, P s → P { s with zeroPage := physical }) (hs : pageSystem.Reachable s) : P s := by
  have hfree : ∀ n physical i s s', P s → pageFreeFrom physical i n s = some s' → P s' := by
    intro n
    induction n with
    | zero =>
      intro physical i s s' hi he
      cases he
      exact hi
    | succ n ih =>
      intro physical i s s' hi he
      obtain ⟨t, ht, he⟩ := Option.bind_eq_some_iff.mp he
      exact ih physical (i + 1) t s' (hrel s t _ hi ht) he
  refine hs.invariant (P := P) hinit ?_
  intro s e s' hi he
  cases e with
  | malloc size =>
    cases he
    exact hmal s size hi
  | free physical size =>
    change s.pageFree physical size = some s' at he
    unfold pageFree at he
    split_ifs at he
    · cases he
      exact hi
    · exact hfree _ _ _ _ _ hi he
  | release physical => exact hrel s s' physical hi he
  | retain physical => exact hret s s' physical hi he
  | userAllocate =>
    cases he
    exact huser s hi
  | reserve physical size =>
    cases he
    exact hresv s physical size hi
  | zeroPage physical =>
    cases he
    exact hzero s physical hi

lemma hint_reachable (hs : pageSystem.Reachable s) : s.allocationHint ≤ s.pageCount := by
  refine invariant (P := fun s => s.allocationHint ≤ s.pageCount) ?_ ?_ ?_ ?_ ?_ ?_ ?_ hs
  · intro s hinit
    rw [hinit.allocationHint]
    exact Nat.zero_le _
  · exact fun _ size hi => pageMalloc_hint size hi
  · exact fun _ _ _ hi he => pageRelease_hint hi he
  · exact fun _ _ _ hi he => pageRetain_hint hi he
  · exact fun s hi => userPageFrom_hint _ hi
  · exact fun _ physical size hi => pageReservePhysicalRange_hint physical size hi
  · exact fun _ _ hi => hi

/-! ### The pages of programs -/

/-- Every free page is below the hint of `user_page_allocate`. -/
def Watermark (s : PhysicalPages) : Prop := ∀ i < s.pageCount, s.references i = 0 → i < s.userHint

lemma pageMalloc_watermark (size : ℤ) (h : s.Watermark) : (s.pageMalloc size).1.Watermark := by
  unfold pageMalloc
  split_ifs
  · exact h
  · cases hsrch : s.search (pagesFor size) with
    | none =>
      simp only [hsrch]
      exact h
    | some last =>
      simp only [hsrch]
      intro i hi hfree
      dsimp only at hfree
      split_ifs at hfree
      exact h i hi hfree

lemma pageRelease_watermark (h : s.Watermark)
    (he : s.pageRelease physical = some s') : s'.Watermark := by
  unfold pageRelease at he
  dsimp only at he
  by_cases hzero : physical = s.zeroPage
  · rw [if_pos hzero] at he
    cases he
    exact h
  rw [if_neg hzero, Option.ite_none_left_eq_some] at he
  obtain ⟨-, he⟩ := he
  intro i hi hfree
  split_ifs at he <;> cases he <;> dsimp only at hi hfree ⊢ <;> split_ifs at hfree with heq <;>
    first | omega | (specialize h i hi hfree; omega)

lemma pageRetain_watermark (h : s.Watermark)
    (he : s.pageRetain physical = some s') : s'.Watermark := by
  unfold pageRetain at he
  simp only at he
  split_ifs at he <;> obtain rfl := Option.some.inj he
  · exact h
  · intro i hi hfree
    dsimp only at hfree
    split_ifs at hfree
    exact h i hi hfree

lemma pageReservePhysicalRange_watermark (physical size : ℕ) (h : s.Watermark) :
    (s.pageReservePhysicalRange physical size).Watermark := by
  unfold pageReservePhysicalRange
  simp only
  split_ifs
  · exact h
  · intro i hi hfree
    dsimp only at hfree
    split_ifs at hfree
    · exact absurd hfree (by decide)
    · exact h i hi hfree

/-- The loop goes down from `n`, with no free page from there on. -/
lemma userPageFrom_spec (n : ℕ) (h : ∀ i < s.pageCount, s.references i = 0 → i < n) :
    (s.userPageFrom n).1.Watermark ∧
      ((s.userPageFrom n).2 = none → ∀ i < s.pageCount, s.references i ≠ 0) := by
  induction n with
  | zero => exact ⟨h, fun _ i hi hfree => absurd (h i hi hfree) (Nat.not_lt_zero i)⟩
  | succ n ih =>
    unfold userPageFrom
    split_ifs with hused
    · refine ih ?_
      intro i hi hfree
      have hne : i ≠ n := by
        rintro rfl
        exact hused hfree
      have := h i hi hfree
      omega
    · refine ⟨?_, False.elim⟩
      intro i hi hfree
      dsimp only at hfree ⊢
      split_ifs at hfree with heq
      have := h i hi hfree
      omega

/-- **The watermark of the pages of programs.** No free page is at or above it, and `user_page_allocate` returns `NULL`
only when there is no free page. -/
theorem user_hint_above_free (hs : pageSystem.Reachable s) :
    (∀ i < s.pageCount, s.references i = 0 → i < s.userHint) ∧
      (s.userPageAllocate.2 = none → ∀ i < s.pageCount, s.references i ≠ 0) := by
  have hwatermark : s.Watermark := by
    refine invariant ?_ ?_ ?_ ?_ ?_ ?_ ?_ hs
    · intro s hinit i hi _
      rw [hinit.userHint]
      exact hi
    · exact fun _ size hi => pageMalloc_watermark size hi
    · exact fun _ _ _ hi he => pageRelease_watermark hi he
    · exact fun _ _ _ hi he => pageRetain_watermark hi he
    · exact fun s hi => (userPageFrom_spec s.userHint hi).1
    · exact fun _ physical size hi => pageReservePhysicalRange_watermark physical size hi
    · exact fun _ _ hi => hi
  exact ⟨hwatermark, (userPageFrom_spec s.userHint hwatermark).2⟩

/-! ### The allocation -/

/-- What a caller relies on: `NULL` only if there is no run of free pages of the size, and else such a run. -/
structure Answers (s : PhysicalPages) (size : ℤ) : Prop where
  null : (s.pageMalloc size).2 = none → ∀ f, ¬s.FreeRun f (pagesFor size)
  found : ∀ f, (s.pageMalloc size).2 = some f → s.FreeRun f (pagesFor size)

lemma pagesFor_of_nonpos {size : ℤ} (h : size ≤ 0) : pagesFor size = 0 := by
  have : size.toNat = 0 := by omega
  unfold pagesFor pageBytes
  omega

lemma pagesFor_pos {size : ℤ} (h : ¬size ≤ 0) : 0 < pagesFor size := by
  have : 0 < size.toNat := by omega
  unfold pagesFor pageBytes
  omega

/-- **The allocation answers as it should exactly where some run of free pages, if there is one, does not straddle the
hint.** The second pass stops at the hint, also inside a run. -/
theorem pageMalloc_answers_iff (hs : pageSystem.Reachable s) (size : ℤ) :
    s.Answers size ↔
      ((∃ f, s.FreeRun f (pagesFor size)) →
        ∃ f, s.FreeRun f (pagesFor size) ∧ (s.allocationHint ≤ f ∨ f + pagesFor size ≤ s.allocationHint)) := by
  by_cases hsize : size ≤ 0
  · have hnone : ∀ f, ¬s.FreeRun f (pagesFor size) := fun f hf => by
      have hpos := hf.pos
      rw [pagesFor_of_nonpos hsize] at hpos
      exact absurd hpos (Nat.lt_irrefl 0)
    have hnull : (s.pageMalloc size).2 = none := by
      unfold pageMalloc
      rw [if_pos hsize]
    exact ⟨fun _ hex => (hnone _ hex.choose_spec).elim,
      fun _ => ⟨fun _ => hnone, fun f hf => by rw [hnull] at hf; cases hf⟩⟩
  · have hsearch := search_spec (pagesFor_pos hsize) (hint_reachable hs)
    cases hfound : s.search (pagesFor size) with
    | none =>
      have hnull : (s.pageMalloc size).2 = none := by
        unfold pageMalloc
        rw [if_neg hsize]
        simp only [hfound]
      rw [hfound] at hsearch
      constructor
      · intro h hex
        obtain ⟨f, hf⟩ := hex
        exact (h.null hnull f hf).elim
      · intro h
        refine ⟨fun _ f hf => ?_, fun f hf => by rw [hnull] at hf; cases hf⟩
        obtain ⟨g, hg, haside⟩ := h ⟨f, hf⟩
        have := hsearch g hg
        omega
    | some last =>
      rw [hfound] at hsearch
      obtain ⟨f, hlast, hfree, haside⟩ := hsearch
      have hresult : (s.pageMalloc size).2 = some f := by
        unfold pageMalloc
        rw [if_neg hsize]
        simp only [hfound, Option.some.injEq]
        omega
      have hanswer : s.Answers size := by
        refine ⟨fun h => ?_, fun g hg => ?_⟩
        · rw [hresult] at h
          cases h
        · rw [hresult] at hg
          cases hg
          exact hfree
      exact ⟨fun _ _ => ⟨f, hfree, haside⟩, fun _ => hanswer⟩

def sixPages : PhysicalPages where
  references j := if j = 0 then uintMax else 0
  pageCount := 6
  allocationHint := 0
  userHint := 6
  zeroPage := 0

lemma sixPages_init : pageSystem.init sixPages := ⟨rfl, rfl, rfl⟩

/-- After the first allocation there are free pages behind the hint. -/
theorem pageMalloc_answers_sixPages : (pageSystem.replay sixPages [.malloc 4096]).Answers 8192 := by
  refine (pageMalloc_answers_iff (System.replay_reachable (.init sixPages_init) _) 8192).mpr
    fun _ => ⟨2, ⟨by decide, by decide +kernel, fun j h1 h2 => ?_⟩, .inl (by decide +kernel)⟩
  have hj : j = 2 ∨ j = 3 := by
    have : pagesFor 8192 = 2 := by decide
    omega
  rcases hj with rfl | rfl <;> decide +kernel

theorem user_hint_above_free_sixPages :
    5 < (pageSystem.replay sixPages [.userAllocate, .release 20480]).userHint :=
  (user_hint_above_free (System.replay_reachable (.init sixPages_init) _)).1 5 (by decide +kernel) (by decide +kernel)

/-- The pages 1 and 2 are released in this order, with an allocation between them that moves the hint to the end. -/
def astride : List PageEvent :=
  [.userAllocate, .malloc 4096, .malloc 4096, .release 4096, .malloc 8192, .release 8192]

/-- The hint is in the middle of the only run of two free pages: it is not found. -/
theorem run_astride_hint_missed :
    pageSystem.Reachable (pageSystem.replay sixPages astride) ∧
      ((pageSystem.replay sixPages astride).pageMalloc 8192).2 = none ∧
      (pageSystem.replay sixPages astride).FreeRun 1 (pagesFor 8192) := by
  refine ⟨System.replay_reachable (.init sixPages_init) _, by decide +kernel, by decide, by decide +kernel,
    fun j h1 h2 => ?_⟩
  have hj : j = 1 ∨ j = 2 := by
    have : pagesFor 8192 = 2 := by decide
    omega
  rcases hj with rfl | rfl <;> decide +kernel

end PhysicalPages

end PlantOS.Mm.PageSearch
