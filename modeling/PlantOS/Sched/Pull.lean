import Mathlib.Algebra.BigOperators.Ring.Finset
import Mathlib.Algebra.Order.BigOperators.Group.Finset
import Mathlib.Tactic.Ring
import PlantOS.Lib.Best
import PlantOS.Sched.Balanced

/-!
# Balancing the load

`scheduler_pull` moves the task to a CPU that brings its load closest to that of the CPU the task comes from. Every move
lowers the sum of the squares of the loads, so the moves come to an end.
-/

namespace PlantOS.Sched

open Lib
open Function (comp_update update update_eq_self update_of_ne update_self)

namespace Kernel

variable {k k' : Kernel} {r : Option ℕ} {t u c target source : ℕ}

/-- `D`: how much heavier the load of `source` is -/
def surplus (k : Kernel) (target source : ℕ) : ℤ := (k.cpu source).load - (k.cpu target).load

/-- A task of another CPU that may move to `target`, and lighter than what that CPU has more. -/
structure Candidate (k : Kernel) (target source t : ℕ) : Prop where
  source_lt : source < k.cpuTotal
  ne : source ≠ target
  runnable : t ∈ k.runnableList source
  offCpu : (k.slot t).onCpu = false
  pinned : (k.slot t).pinned = false
  pending : (k.slot t).terminatePending = false
  weight_pos : 0 < (k.slot t).share
  weight_lt : (k.slot t).share < k.surplus target source

/-- `min(W, D - W)` -/
def gain (k : Kernel) (target source t : ℕ) : ℤ := min (k.slot t).share (k.surplus target source - (k.slot t).share)

/-- A task that a CPU runs, and that is in a list and may move, is in the list of that CPU. -/
def AtHome (k : Kernel) : Prop :=
  ∀ c t, (k.cpu c).current = some t → (k.slot t).onCpu = true → (k.slot t).runPrevious.isSome →
    (k.slot t).pinned = false → (k.slot t).cpu = c

lemma share_pos (task : Mtask) : 0 < task.share := by
  unfold Mtask.share
  split <;> omega

/-! ### The selection -/

/-- The CPUs that `scheduler_pull` does not look into -/
def pullSkips (k : Kernel) (target index : ℕ) : Prop :=
  index = target ∨ (k.cpu index).load ≤ (k.cpu target).load ∨ (k.cpu index).movable = 0 ∨
    ((k.cpu index).movable = 1 ∧ (k.cpu index).current.any fun running =>
      (k.slot running).onCpu && (k.slot running).runPrevious.isSome && !(k.slot running).pinned)

/-- **The task that is selected is one of those that were looked at, and the best of them.** -/
lemma schedulerPullSelected_spec (k : Kernel) (target : ℕ) : ∃ best,
    IsBest (fun t g => ∃ index ∈ List.range k.cpuTotal, ¬k.pullSkips target index ∧ t ∈ k.runnableList index ∧
      g = k.pullGain t (k.surplus target index)) (k.schedulerPullSelected target, best) := by
  unfold schedulerPullSelected
  dsimp only
  refine ⟨_, (IsBest.foldl_lists (fun P best index hbest => ?_) isBest_start _).congr fun t g => by rw [false_or]⟩
  have hskipp (h : k.pullSkips target index) : IsBest (fun t g => P t g ∨ (¬k.pullSkips target index ∧
      t ∈ k.runnableList index ∧ g = k.pullGain t (k.surplus target index))) best :=
    hbest.congr fun t g => ⟨.inl, fun hor => hor.resolve_right fun hand => hand.1 h⟩
  split
  · next hskip => exact hskipp (hskip.imp id (Or.imp id .inl))
  · next hskip =>
    split
    · next hcur => exact hskipp (.inr (.inr (.inr hcur)))
    · next hcur =>
      refine (hbest.foldl (k.runnableList index)).congr fun t g => or_congr_right ?_
      refine ⟨fun ⟨ht, hg⟩ => ⟨?_, ht, hg⟩, fun ⟨_, ht, hg⟩ => ⟨ht, hg⟩⟩
      rintro (h | h | h | h)
      · exact hskip (.inl h)
      · exact hskip (.inr (.inl h))
      · exact hskip (.inr (.inr h))
      · exact hcur h

lemma pullGain_pos_iff {difference : ℤ} : 0 < k.pullGain t difference ↔ (k.slot t).onCpu = false ∧
    (k.slot t).pinned = false ∧ (k.slot t).terminatePending = false ∧ (k.slot t).share < difference := by
  have := share_pos (k.slot t)
  unfold pullGain
  dsimp only
  split
  · next h =>
    refine ⟨fun h => absurd h (lt_irrefl 0), fun ⟨hon, hpin, hpend, hlt⟩ => ?_⟩
    rw [hon, hpin, hpend] at h
    simp only [Bool.false_eq_true, false_or] at h
    omega
  · next h =>
    simp only [not_or, Bool.not_eq_true, not_le] at h
    exact ⟨fun _ => ⟨h.1, h.2.2.1, h.2.1, h.2.2.2⟩, fun _ => by omega⟩

lemma pullGain_eq {difference : ℤ} (h : 0 < k.pullGain t difference) :
    k.pullGain t difference = min (k.slot t).share (difference - (k.slot t).share) := by
  unfold pullGain at h ⊢
  dsimp only at h ⊢
  split at h
  · cases h
  · next hno => rw [if_neg hno]

/-- **A CPU that is skipped has no candidate**: its counters say so. -/
lemma no_candidate (h : k.Balanced) (hhome : k.AtHome) (hskip : k.pullSkips target source) :
    ¬k.Candidate target source t := by
  intro hc
  have hmovb := h.movable source
  have hcnt : 0 < (k.runnableList source).countP fun t => !(k.slot t).pinned :=
    List.countP_pos_iff.mpr ⟨t, hc.runnable, by rw [hc.pinned]; rfl⟩
  rcases hskip with heq | hload | hzero | ⟨hone, hcur⟩
  · exact hc.ne heq
  · have hlt := hc.weight_lt
    have hpos := hc.weight_pos
    unfold surplus at hlt
    omega
  · omega
  · -- the running task is the only one that may move, and it is not the candidate
    obtain ⟨running, hrun, hruns⟩ := (Option.any_eq_true _ _).mp hcur
    simp only [Bool.and_eq_true, Bool.not_eq_true'] at hruns
    obtain ⟨⟨hon, hlnk⟩, hfree⟩ := hruns
    have hmem : running ∈ k.runnableList source := by
      obtain ⟨e, he⟩ := (h.linked running).mp hlnk
      rwa [← hhome source running hrun hon hlnk hfree, ((h.member e running).mp he).2.2]
    have hne : t ≠ running := by
      rintro rfl
      rw [hc.offCpu] at hon
      cases hon
    have htwo : 0 < ((k.runnableList source).erase running).countP fun t => !(k.slot t).pinned :=
      List.countP_pos_iff.mpr ⟨t, (List.mem_erase_of_ne hne).mpr hc.runnable, by rw [hc.pinned]; rfl⟩
    have hspl := (List.perm_cons_erase hmem).countP_eq fun t => !(k.slot t).pinned
    rw [List.countP_cons, hfree] at hspl
    simp only [Bool.not_false, if_true] at hspl
    omega

/-! ### A move -/

/-- The run queues are in order: the lists, the loads and the numbers of tasks that may move are exact, and a task has
a slot. -/
structure RunQueues (k : Kernel) : Prop extends k.Balanced where
  beyond : ∀ t, k.slotCount ≤ t → (k.slot t).state = .empty

lemma InOrder.runQueues (h : k.InOrder ∅ r) : k.RunQueues := by
  obtain ⟨lists, hq⟩ := id h
  exact ⟨h.balanced, hq.beyond⟩

@[simp] lemma schedulerRemove_cpuTotal (k : Kernel) (t : ℕ) : (k.schedulerRemove t).cpuTotal = k.cpuTotal := by
  unfold schedulerRemove setPrevious setLink
  split
  · rfl
  · dsimp only
    split <;> split <;> rfl

@[simp] lemma schedulerInsert_cpuTotal (k : Kernel) (t : ℕ) : (k.schedulerInsert t).cpuTotal = k.cpuTotal := by
  unfold schedulerInsert setPrevious
  dsimp only
  split
  · rfl
  · split <;> rfl

@[simp] lemma schedulerPlaceTask_cpuTotal (k : Kernel) (t c : ℕ) : (k.schedulerPlaceTask t c).cpuTotal = k.cpuTotal := by
  simp [schedulerPlaceTask, schedulerRequest]

/-- The lists after the task `t` of `source` was put in front of the tasks of `target` -/
def moveLists (lists : ℕ → List ℕ) (target source t : ℕ) : ℕ → List ℕ :=
  update (update lists source ((lists source).erase t)) target (t :: lists target)

/-- What `scheduler_place_task` does to a task in the list of another CPU -/
structure Moved (k k' : Kernel) (target source t : ℕ) : Prop where
  lists : k'.runnableList = moveLists k.runnableList target source t
  slot : ∀ u, (k'.slot u).bare = { (k.slot u).bare with cpu := if u = t then target else (k.slot u).cpu }
  load : ∀ c, (k'.cpu c).load =
    (k.cpu c).load - (if c = source then (k.slot t).share else 0) + if c = target then (k.slot t).share else 0
  cpuTotal : k'.cpuTotal = k.cpuTotal
  current : ∀ c, (k'.cpu c).current = (k.cpu c).current

lemma mem_moveLists {lists : ℕ → List ℕ} (hnd : (lists source).Nodup) (huniq : ∀ c, t ∈ lists c → c = source)
    (hne : source ≠ target) : u ∈ moveLists lists target source t c ↔ if u = t then c = target else u ∈ lists c := by
  unfold moveLists
  by_cases hct : c = target
  · subst hct
    rw [update_self, List.mem_cons]
    split
    · next hu => exact ⟨fun _ => rfl, fun _ => .inl hu⟩
    · next hu => exact or_iff_right hu
  rw [update_of_ne hct]
  by_cases hcs : c = source
  · subst hcs
    rw [update_self]
    split
    · next hu => exact ⟨fun hmem => absurd (hu ▸ hmem) hnd.not_mem_erase, fun h => absurd h hct⟩
    · next hu => exact List.mem_erase_of_ne hu
  · rw [update_of_ne hcs]
    split
    · next hu => exact ⟨fun hmem => absurd (huniq c (hu ▸ hmem)) hcs, fun h => absurd h hct⟩
    · exact Iff.rfl

lemma sum_moveLists {lists : ℕ → List ℕ} (hmem : t ∈ lists source) (hne : source ≠ target) (f : ℕ → ℤ) (c : ℕ) :
    ((moveLists lists target source t c).map f).sum =
      ((lists c).map f).sum - (if c = source then f t else 0) + if c = target then f t else 0 := by
  unfold moveLists
  by_cases hct : c = target
  · subst hct
    rw [update_self, List.map_cons, List.sum_cons, if_neg hne.symm, if_pos rfl]
    omega
  rw [update_of_ne hct, if_neg hct]
  by_cases hcs : c = source
  · subst hcs
    have hsum := ((List.perm_cons_erase hmem).map f).sum_eq
    rw [List.map_cons, List.sum_cons] at hsum
    rw [update_self, if_pos rfl]
    omega
  · rw [update_of_ne hcs, if_neg hcs]
    omega

lemma countP_eq_sum (l : List ℕ) (p : ℕ → Bool) : (l.countP p : ℤ) = (l.map fun t => if p t then 1 else 0).sum := by
  induction l with
  | nil => rfl
  | cons t l ih =>
    rw [List.countP_cons, List.map_cons, List.sum_cons, ← ih]
    push_cast
    omega

lemma moved_fields {task task' : Mtask} {cpu : ℕ} (h : task'.bare = { task.bare with cpu := cpu }) :
    task'.state = task.state ∧ task'.idle = task.idle ∧ task'.cpu = cpu ∧ task'.share = task.share ∧
      task'.pinned = task.pinned := by
  have hfld {β : Type} (P : Mtask → β) : P task'.bare = P { task.bare with cpu := cpu } := congrArg P h
  exact ⟨hfld Mtask.state, hfld Mtask.idle, hfld Mtask.cpu, hfld Mtask.share, hfld Mtask.pinned⟩

/-- **`scheduler_place_task` moves the task, and nothing else.** -/
theorem RunQueues.schedulerPlaceTask (h : k.RunQueues) (ht : t ∈ k.runnableList source) (hne : source ≠ target) :
    k.Moved (k.schedulerPlaceTask t target) target source t ∧ (k.schedulerPlaceTask t target).RunQueues := by
  obtain ⟨hst, hidle, hcpu⟩ := (h.member source t).mp ht
  obtain ⟨link, hlink⟩ := Option.isSome_iff_exists.mp ((h.linked t).mpr ⟨source, ht⟩)
  have hls : HeadedList.IsLists k.links k.runnableList := ⟨h.isList, h.linked⟩
  have huniq : ∀ c, t ∈ k.runnableList c → c = source := fun c hc => hls.unique hc ht
  have hnd := (h.isList source).nodup
  -- the task is taken out, its CPU changes, and it is put back
  obtain ⟨hlks₁, hbare₁, hcpus₁, hcnt₁, -⟩ := schedulerRemove_spec hlink
  set k₁ := k.schedulerRemove t with hk₁
  set k₂ := k₁.setSlot t ({ · with cpu := target }) with hk₂
  have hlks₂ : k₂.links = HeadedList.unlink k.links t := by
    rw [← hlks₁, hk₂]
    simp only [links, setSlot_cpu]
    congr 1
    · exact (comp_update Mtask.runNext k₁.slot t _).trans (update_eq_self t _)
    · exact (comp_update Mtask.runPrevious k₁.slot t _).trans (update_eq_self t _)
  have hls₂ := hls.unlink ht
  rw [← hlks₂] at hls₂
  have hloos : ∀ c, t ∉ update k.runnableList source ((k.runnableList source).erase t) c := by
    intro c hmem
    by_cases hc : c = source
    · subst hc
      rw [update_self] at hmem
      exact hnd.not_mem_erase hmem
    · rw [update_of_ne hc] at hmem
      exact hc (huniq c hmem)
  have hfree : (k₂.slot t).runPrevious = none := hls₂.prev_eq_none hloos
  have hbare₂ : ∀ u, (k₂.slot u).bare = { (k.slot u).bare with cpu := if u = t then target else (k.slot u).cpu } := by
    intro u
    by_cases hu : u = t
    · subst hu
      rw [hk₂, setSlot_self, if_pos rfl, ← hbare₁ u]
      rfl
    · rw [hk₂, setSlot_of_ne hu, if_neg hu, hbare₁ u]
      rfl
  have hself := moved_fields (hbare₂ t)
  rw [if_pos rfl, hst, hidle] at hself
  obtain ⟨hlks₃, hbare₃, hcpus₃, hcnt₃, -⟩ := schedulerInsert_spec hself.1 hself.2.1 hfree
  have hplc : k.schedulerPlaceTask t target = (k₂.schedulerInsert t).schedulerRequest target := rfl
  rw [hplc]
  set k₃ := k₂.schedulerInsert t with hk₃
  have hslot : ∀ u, ((k₃.schedulerRequest target).slot u).bare =
      { (k.slot u).bare with cpu := if u = t then target else (k.slot u).cpu } := fun u => (hbare₃ u).trans (hbare₂ u)
  have hlks : (k₃.schedulerRequest target).links = HeadedList.pushFront k₂.links target t := by
    rw [schedulerRequest, links_setCpu rfl, hlks₃, hself.2.2.1]
  have hqus := hls₂.pushFront hfree target
  rw [← hlks, update_of_ne hne.symm] at hqus
  have hcpus : ∀ c, ((k₃.schedulerRequest target).cpu c).load = (k₃.cpu c).load ∧
      ((k₃.schedulerRequest target).cpu c).movable = (k₃.cpu c).movable ∧
      ((k₃.schedulerRequest target).cpu c).current = (k₃.cpu c).current := by
    intro c
    unfold schedulerRequest
    rw [setCpu_apply]
    split <;> simp [*]
  have hload : ∀ c, ((k₃.schedulerRequest target).cpu c).load = (k.cpu c).load -
      (if c = source then (k.slot t).share else 0) + if c = target then (k.slot t).share else 0 := by
    intro c
    have h₁ := congrArg SchedulerCpu.load (hcpus₁ c)
    have h₃ := congrArg SchedulerCpu.load (hcpus₃ c)
    dsimp only at h₁ h₃
    rw [(hcpus c).1, h₃, hself.2.2.1, hself.2.2.2.1, hk₂, setSlot_cpu, h₁, hcpu]
  have hmovb : ∀ c, ((k₃.schedulerRequest target).cpu c).movable = (k.cpu c).movable -
      (if c = source then (if !(k.slot t).pinned then 1 else 0) else 0) +
        if c = target then (if !(k.slot t).pinned then 1 else 0) else 0 := by
    intro c
    have h₁ := congrArg SchedulerCpu.movable (hcpus₁ c)
    have h₃ := congrArg SchedulerCpu.movable (hcpus₃ c)
    dsimp only at h₁ h₃
    rw [(hcpus c).2.1, h₃, hself.2.2.1, hself.2.2.2.2, hk₂, setSlot_cpu, h₁, hcpu]
    cases (k.slot t).pinned <;> simp
  have hcur : ∀ c, ((k₃.schedulerRequest target).cpu c).current = (k.cpu c).current := fun c => by
    have h₁ := congrArg SchedulerCpu.current (hcpus₁ c)
    have h₃ := congrArg SchedulerCpu.current (hcpus₃ c)
    exact (hcpus c).2.2.trans (h₃.trans h₁)
  have hmemb : ∀ c u, u ∈ moveLists k.runnableList target source t c ↔
      ((k₃.schedulerRequest target).slot u).state = .running ∧ ((k₃.schedulerRequest target).slot u).idle = false ∧
        ((k₃.schedulerRequest target).slot u).cpu = c := by
    intro c u
    obtain ⟨hs, hi, hc, -⟩ := moved_fields (hslot u)
    rw [mem_moveLists hnd huniq hne, hs, hi, hc]
    split
    · next hu =>
      subst hu
      exact ⟨fun heq => ⟨hst, hidle, heq.symm⟩, fun hall => hall.2.2.symm⟩
    · exact h.member c u
  have hbey : ∀ u, (k₃.schedulerRequest target).slotCount ≤ u →
      ((k₃.schedulerRequest target).slot u).state = .empty := by
    intro u hu
    rw [(moved_fields (hslot u)).1]
    exact h.beyond u (by rwa [schedulerRequest, setCpu_slotCount, hcnt₃, hk₂, setSlot_slotCount, hcnt₁] at hu)
  have hrunn : (k₃.schedulerRequest target).runnableList = moveLists k.runnableList target source t := by
    funext c
    refine runnableList_of_isList (hqus.isList c) fun u hu => ?_
    by_contra hge
    have hrun := ((hmemb c u).mp hu).1
    rw [hbey u (by omega)] at hrun
    cases hrun
  refine ⟨⟨hrunn, hslot, hload, ?_, hcur⟩, ⟨fun c => ?_, fun u => ?_, fun c u => ?_, fun c => ?_, fun c => ?_⟩, hbey⟩
  · rw [← hplc, schedulerPlaceTask_cpuTotal]
  · rw [hrunn]
    exact hqus.isList c
  · rw [hrunn]
    exact hqus.linked u
  · rw [hrunn]
    exact hmemb c u
  · rw [hload, hrunn, h.load]
    simp only [(moved_fields (hslot _)).2.2.2.1]
    exact (sum_moveLists ht hne (fun u => (k.slot u).share) c).symm
  · rw [hmovb, hrunn, h.movable, countP_eq_sum, countP_eq_sum]
    simp only [(moved_fields (hslot _)).2.2.2.2]
    exact (sum_moveLists ht hne (fun u => if !(k.slot u).pinned then 1 else 0) c).symm

/-! ### A pull -/

lemma pullGain_candidate (hc : k.Candidate target source t) :
    k.pullGain t (k.surplus target source) = k.gain target source t :=
  pullGain_eq (pullGain_pos_iff.mpr ⟨hc.offCpu, hc.pinned, hc.pending, hc.weight_lt⟩)

lemma selected_candidate (h : k.schedulerPullSelected target = some t) :
    ∃ source, k.Candidate target source t ∧ (k.Balanced → k.AtHome → ∀ source' t', k.Candidate target source' t' →
      k.gain target source' t' ≤ k.gain target source t) := by
  obtain ⟨best, hbest⟩ := k.schedulerPullSelected_spec target
  rw [h] at hbest
  have hpos : 0 < best := hbest.kept.mp rfl
  obtain ⟨source, hsrc, hlook, ht, hgain⟩ := hbest.seen t rfl
  dsimp only at hgain
  obtain ⟨hon, hpin, hpend, hlt⟩ := pullGain_pos_iff.mp (hgain ▸ hpos)
  have hc : k.Candidate target source t :=
    ⟨List.mem_range.mp hsrc, fun heq => hlook (.inl heq), ht, hon, hpin, hpend, share_pos _, hlt⟩
  refine ⟨source, hc, fun hbal hhome source' t' hc' => ?_⟩
  rw [← pullGain_candidate hc, ← pullGain_candidate hc', ← hgain]
  exact hbest.most t' _ ⟨source', List.mem_range.mpr hc'.source_lt,
    fun hskip => no_candidate hbal hhome hskip hc', hc'.runnable, rfl⟩

lemma schedulerPull_false (h : k.schedulerPull target = (k', false)) : k' = k := by
  unfold schedulerPull at h
  split at h
  · cases h
  · exact (Prod.mk.inj h).1.symm

lemma schedulerPull_true (h : k.schedulerPull target = (k', true)) :
    ∃ t, k.schedulerPullSelected target = some t ∧ k' = k.schedulerPlaceTask t target := by
  unfold schedulerPull at h
  split at h
  · next t ht => exact ⟨t, ht, (Prod.mk.inj h).1.symm⟩
  · cases h

/-- **A pull finds a task exactly when there is a candidate**: no counter hides one. -/
theorem schedulerPull_iff (h : k.Balanced) (hhome : k.AtHome) :
    (k.schedulerPull target).2 = true ↔ ∃ source t, k.Candidate target source t := by
  constructor
  · intro htrue
    obtain ⟨t, ht, -⟩ := schedulerPull_true (Prod.ext rfl htrue)
    obtain ⟨source, hc, -⟩ := selected_candidate ht
    exact ⟨source, t, hc⟩
  · rintro ⟨source, t, hc⟩
    obtain ⟨best, hbest⟩ := k.schedulerPullSelected_spec target
    have hmost := hbest.most t _ ⟨source, List.mem_range.mpr hc.source_lt,
      fun hskip => no_candidate h hhome hskip hc, hc.runnable, rfl⟩
    have hpos := pullGain_pos_iff.mpr ⟨hc.offCpu, hc.pinned, hc.pending, hc.weight_lt⟩
    obtain ⟨u, hu⟩ := Option.isSome_iff_exists.mp (hbest.kept.mpr (hpos.trans_le hmost))
    unfold schedulerPull
    rw [show k.schedulerPullSelected target = some u from hu]

lemma Moved.surplus_lt (h : k.Moved k' target source t) (hc : k.Candidate target source t) :
    |k'.surplus target source| < |k.surplus target source| := by
  have hpos := hc.weight_pos
  have hlt := hc.weight_lt
  have hnew : k'.surplus target source = k.surplus target source - 2 * (k.slot t).share := by
    unfold surplus
    rw [h.load, h.load, if_pos rfl, if_neg hc.ne, if_neg hc.ne.symm, if_pos rfl]
    omega
  rw [hnew, abs_of_pos (hpos.trans hlt), abs_lt]
  omega

/-! ### Pull after pull -/

/-- Pulls to the CPUs of a list, one after the other: the state, and how many moved a task -/
def pulls (k : Kernel) : List ℕ → Kernel × ℕ
  | [] => (k, 0)
  | target :: targets =>
    let (k, moved) := k.schedulerPull target
    let (k, moves) := k.pulls targets
    (k, moves + if moved then 1 else 0)

def imbalance (k : Kernel) : ℤ := ∑ c ∈ Finset.range k.cpuTotal, (k.cpu c).load ^ 2

lemma imbalance_nonneg (k : Kernel) : 0 ≤ k.imbalance := Finset.sum_nonneg fun _ _ => sq_nonneg _

/-- **A move lowers the sum of the squares**, by `2 W (D - W)`. -/
lemma Moved.imbalance_eq (h : k.Moved k' target source t) (hc : k.Candidate target source t) (ht : target < k.cpuTotal) :
    k'.imbalance = k.imbalance - 2 * ((k.slot t).share * (k.surplus target source - (k.slot t).share)) := by
  set W := (k.slot t).share with hW
  have hterm (c : ℕ) : (k'.cpu c).load ^ 2 = (k.cpu c).load ^ 2 +
      ((if c = source then W ^ 2 - 2 * W * (k.cpu source).load else 0) +
        if c = target then W ^ 2 + 2 * W * (k.cpu target).load else 0) := by
    rw [h.load, ← hW]
    by_cases hs : c = source
    · subst hs
      rw [if_pos rfl, if_pos rfl, if_neg hc.ne, if_neg hc.ne]
      ring
    · rw [if_neg hs, if_neg hs]
      by_cases hct : c = target
      · subst hct
        rw [if_pos rfl, if_pos rfl]
        ring
      · rw [if_neg hct, if_neg hct]
        ring
  unfold imbalance surplus
  rw [h.cpuTotal, Finset.sum_congr rfl fun c _ => hterm c, Finset.sum_add_distrib, Finset.sum_add_distrib,
    Finset.sum_ite_eq', Finset.sum_ite_eq', if_pos (Finset.mem_range.mpr hc.source_lt), if_pos (Finset.mem_range.mpr ht)]
  ring

lemma Moved.imbalance_lt (h : k.Moved k' target source t) (hc : k.Candidate target source t) (ht : target < k.cpuTotal) :
    k'.imbalance + 2 ≤ k.imbalance := by
  have hmul : 0 < (k.slot t).share * (k.surplus target source - (k.slot t).share) :=
    mul_pos hc.weight_pos (sub_pos.mpr hc.weight_lt)
  rw [h.imbalance_eq hc ht]
  omega

/-- **There are at most half as many moves as the sum of the squares at the start.** -/
theorem RunQueues.pulls_le (h : k.RunQueues) {targets : List ℕ} (ht : ∀ c ∈ targets, c < k.cpuTotal) :
    2 * ((k.pulls targets).2 : ℤ) + (k.pulls targets).1.imbalance ≤ k.imbalance := by
  induction targets generalizing k with
  | nil => simp [pulls]
  | cons target targets ih =>
    have hrest := fun c hc => ht c (List.mem_cons_of_mem target hc)
    rcases hpull : k.schedulerPull target with ⟨k', moved⟩
    cases moved with
    | false =>
      have hsame := schedulerPull_false hpull
      have hind := ih h hrest
      simp only [pulls, hpull, hsame]
      simpa using hind
    | true =>
      obtain ⟨t, hsel, rfl⟩ := schedulerPull_true hpull
      obtain ⟨source, hc, -⟩ := selected_candidate hsel
      obtain ⟨hmov, hqus⟩ := h.schedulerPlaceTask hc.runnable hc.ne
      have hlo := hmov.imbalance_lt hc (ht target List.mem_cons_self)
      have hind := ih hqus fun c hc => hmov.cpuTotal ▸ hrest c hc
      simp only [pulls, hpull, if_true]
      push_cast
      omega

/-- **A pull moves no task that a CPU runs.** -/
theorem AtHome.schedulerPull (hhome : k.AtHome) (h : k.RunQueues) : (k.schedulerPull target).1.AtHome := by
  rcases hpull : k.schedulerPull target with ⟨k', moved⟩
  cases moved with
  | false => exact schedulerPull_false hpull ▸ hhome
  | true =>
    obtain ⟨t, hsel, rfl⟩ := schedulerPull_true hpull
    obtain ⟨source, hc, -⟩ := selected_candidate hsel
    obtain ⟨hmov, hqus⟩ := h.schedulerPlaceTask hc.runnable hc.ne
    intro c u hcur hon hlink hpin
    have honk : (k.slot u).onCpu = true := (congrArg Mtask.onCpu (hmov.slot u)).symm.trans hon
    have hne : u ≠ t := fun heq => absurd hc.offCpu (by rw [← heq, honk]; nofun)
    obtain ⟨hst, hidle, hcpu, -, hpink⟩ := moved_fields (hmov.slot u)
    obtain ⟨d, hd⟩ := (hqus.linked u).mp hlink
    have hmem := (hqus.member d u).mp hd
    rw [hst, hidle, hcpu, if_neg hne] at hmem
    rw [hcpu, if_neg hne]
    exact hhome c u ((hmov.current c).symm.trans hcur) honk ((h.linked u).mpr ⟨d, (h.member d u).mpr hmem⟩)
      (hpink.symm.trans hpin)

/-- **`scheduler_pull`** finds a task exactly when there is a candidate; it moves the best of them, and nothing else, and
brings the two loads closer together; and pulls alone come to an end. -/
theorem schedulerPull_best (h : k.RunQueues) (hhome : k.AtHome) (htarget : target < k.cpuTotal) :
    ((k.schedulerPull target).2 = true ↔ ∃ source t, k.Candidate target source t) ∧
      (∀ k', k.schedulerPull target = (k', true) → ∃ source t, k.Candidate target source t ∧
        k.Moved k' target source t ∧ k'.imbalance < k.imbalance ∧
        (∀ source' t', k.Candidate target source' t' → k.gain target source' t' ≤ k.gain target source t) ∧
        |k'.surplus target source| < |k.surplus target source|) ∧
      ∃ bound, ∀ targets : List ℕ, (∀ c ∈ targets, c < k.cpuTotal) → (k.pulls targets).2 ≤ bound := by
  refine ⟨schedulerPull_iff h.toBalanced hhome, fun k' hk => ?_, k.imbalance.toNat, fun targets ht => ?_⟩
  · obtain ⟨t, hselected, rfl⟩ := schedulerPull_true hk
    obtain ⟨source, hc, hbest⟩ := selected_candidate hselected
    obtain ⟨hmoved, -⟩ := h.schedulerPlaceTask hc.runnable hc.ne
    exact ⟨source, t, hc, hmoved, by have := hmoved.imbalance_lt hc htarget; omega, hbest h.toBalanced hhome,
      hmoved.surplus_lt hc⟩
  · have hle := h.pulls_le ht
    have := (k.pulls targets).1.imbalance_nonneg
    omega

/-! ### A running task in the list of another CPU -/

/-- Four slots with tasks that run, in no list yet: the first is an idle task, and the last one is on a CPU. -/
def strewn (cpus : Fin 4 → ℕ) (pinned : Fin 4 → Bool) (weights : Fin 4 → ℕ) (current : ℕ → Option ℕ) : Kernel where
  slotCount := 4
  freeHint := 4
  chunkCount := 0
  chunkCapacity := 0
  slot t :=
    if ht : t < 4 then
      { taskSlotReset t 1 with
        state := .running, idle := t == 0, onCpu := t == 3, cpu := cpus ⟨t, ht⟩, pinned := pinned ⟨t, ht⟩
        weight := weights ⟨t, ht⟩ }
    else taskSlotReset t 0
  cpu c := ⟨current c, none, none, none, 0, 0, false⟩
  cpuTotal := 2
  retired := none

def arranged (cpus : Fin 4 → ℕ) (pinned : Fin 4 → Bool) (weights : Fin 4 → ℕ) (current : ℕ → Option ℕ) : Kernel :=
  (((strewn cpus pinned weights current).schedulerInsert 3).schedulerInsert 2).schedulerInsert 1

lemma arranged_runQueues (cpus : Fin 4 → ℕ) (pinned : Fin 4 → Bool) (weights : Fin 4 → ℕ) {current : ℕ → Option ℕ}
    (hcur : ∀ c t, current c = some t → t < 4) : (arranged cpus pinned weights current).RunQueues := by
  have hstr : (strewn cpus pinned weights current).Queued (fun _ => []) (insert 3 (insert 2 (insert 1 ∅))) none := by
    refine ⟨⟨fun c => ⟨List.nodup_nil, rfl, by simp, by simp⟩, fun t => ?_⟩, fun c t => ?_, fun c => rfl, fun c => rfl,
      fun t ht => ?_, ⟨rfl, (by intros; contradiction)⟩, fun c t ht => ?_⟩
    · show ((strewn cpus pinned weights current).slot t).runPrevious.isSome ↔ _
      dsimp only [strewn]
      split <;> simp [taskSlotReset]
    · refine iff_of_false List.not_mem_nil ?_
      rintro ⟨hs, hi, -, hout⟩
      dsimp only [strewn] at hs hi
      split at hs
      · next ht =>
        rw [dif_pos ht] at hi
        simp only [beq_eq_false_iff_ne, Set.mem_insert_iff, Set.mem_empty_iff_false, or_false] at hi hout
        omega
      · cases hs
    · dsimp only [strewn] at ht ⊢
      rw [dif_neg (by omega)]
      rfl
    · exact hcur c t (ht.resolve_right (by rintro ⟨⟩))
  have h : (arranged cpus pinned weights current).InOrder ∅ none := by
    refine InOrder.schedulerInsert (InOrder.schedulerInsert (InOrder.schedulerInsert ⟨_, hstr⟩ ?_) ?_) ?_ <;> simp
  exact h.runQueues

lemma schedulerInsert_current (k : Kernel) (t c : ℕ) : ((k.schedulerInsert t).cpu c).current = (k.cpu c).current := by
  unfold schedulerInsert
  dsimp only
  split
  · rfl
  · rw [setCpu_field (P := SchedulerCpu.current), setPrevious_cpu, setSlot_cpu]
    split
    · next hc => rw [hc]
    · rfl

lemma arranged_current (cpus : Fin 4 → ℕ) (pinned : Fin 4 → Bool) (weights : Fin 4 → ℕ) (current : ℕ → Option ℕ) (c : ℕ) :
    ((arranged cpus pinned weights current).cpu c).current = current c := by
  unfold arranged
  rw [schedulerInsert_current, schedulerInsert_current, schedulerInsert_current]
  rfl

def running (c : ℕ) : Option ℕ := if c = 1 then some 3 else none

def lopsided : Kernel := arranged (fun t => if t = 3 then 1 else 0) (fun _ => false) (fun t => if t = 3 then 1 else 2)
  running

/-- A pull to the second CPU finds one of them, and pulls alone end. -/
theorem lopsided_pull : (lopsided.schedulerPull 1).2 = true ∧
    ∃ bound, ∀ targets : List ℕ, (∀ c ∈ targets, c < 2) → (lopsided.pulls targets).2 ≤ bound := by
  have hqueues : lopsided.RunQueues := arranged_runQueues _ _ _ fun c t h => by
    unfold running at h
    split at h
    · cases h
      decide
    · cases h
  have hhome : lopsided.AtHome := fun c t h _ _ _ => by
    unfold lopsided at h
    rw [arranged_current, running] at h
    split at h
    · next hc =>
      cases h
      subst hc
      decide +kernel
    · cases h
  have h := schedulerPull_best hqueues hhome (show 1 < lopsided.cpuTotal by decide)
  have hc : lopsided.Candidate 1 0 1 := ⟨by decide, by decide, by decide +kernel, by decide +kernel, by decide +kernel,
    by decide +kernel, by decide +kernel, by decide +kernel⟩
  exact ⟨h.1.mpr ⟨0, 1, hc⟩, h.2.2⟩

/-- The task 1 waits on the first CPU beside a heavy task that is pinned, and the first CPU runs the task 3, which may
move and is in the list of the second CPU. -/
def strayed : Kernel :=
  arranged (fun t => if t = 3 then 1 else 0) (fun t => t = 2) (fun t => if t = 2 then 5 else 1)
    fun c => if c = 0 then some 3 else none

/-- **The counter hides the task 1**: the only task that may move is taken for the running one. -/
theorem stray_hides_candidate : ∃ (k : Kernel) (target : ℕ), k.RunQueues ∧ target < k.cpuTotal ∧
    (∃ source t, k.Candidate target source t) ∧ (k.schedulerPull target).2 = false := by
  refine ⟨strayed, 1, arranged_runQueues _ _ _ fun c t h => ?_, by decide, ⟨0, 1, ?_⟩, by decide +kernel⟩
  · split at h
    · cases h
      decide
    · cases h
  · exact ⟨by decide, by decide, by decide +kernel, by decide +kernel, by decide +kernel, by decide +kernel,
      by decide +kernel, by decide +kernel⟩

end Kernel

end PlantOS.Sched
