import PlantOS.Task.System

/-!
# The hand-over of a lock

A sleeping lock has a living owner or a living task that `unlock` has woken for it, and one task at a
time between its `lock` and its `unlock`, as long as no `finish_task` ends the owner of a lock or the
last task woken for it, and no task that another one is finishing tests a lock (`Spares`):
`lock_cancel_task` takes a task out of the waiter queue, hands nothing on, and does not hold for the
rest of `finish_task`.
-/

namespace PlantOS.Task

open Function (update update_apply update_of_ne update_self)

open Kernel Lib

namespace Sys

/-- **What a lock promises.** -/
structure HandsOn (s : Sys) (key : LockId) : Prop where
  owner : (s.kernel.lock key).value = .locked → ∃ t, (s.kernel.lock key).owner = some t ∧
    (s.kernel.task t).state ≠ .died ∧ (s.kernel.task t).state ≠ .willEmpty ∧
    (s.kernel.task t).state ≠ .ready ∧ (s.kernel.task t).state ≠ .empty
  woken : (s.kernel.lock key).value = .unlocked → (s.kernel.lock key).waiter ≠ none →
    ∃ t, s.dequeued t key ∧ (s.kernel.task t).Alive
  exclusive : ∀ t u, s.between t key → s.between u key → t = u

/-- No finished task, and none that another one is finishing, tests a lock; the end of a `finish_task`
is not that of the owner of a lock, and with a task woken for a free lock that has waiters it leaves
another one. -/
structure Spares (s : Sys) (e : Event) : Prop where
  tests : ∀ t key, e = .lock t key → (s.kernel.task t).Alive ∧ ∀ c, s.Releases c t → c = t
  owner : ∀ t key, s.Ends e t → (s.kernel.lock key).value = .locked →
    (s.kernel.lock key).owner ≠ some t
  woken : ∀ t key, s.Ends e t → (s.kernel.task t).Alive → s.dequeued t key →
    (s.kernel.lock key).value = .unlocked → (∃ w, (s.kernel.task w).waitingLock = some key) →
    ∃ v ≠ t, s.dequeued v key ∧ (s.kernel.task v).Alive

structure Inv (s : Sys) : Prop where
  wf : s.kernel.Wf
  /-- who is being finished waits for a lock only inside of its own end -/
  released : ∀ c t key, s.Releases c t → (s.kernel.task t).waitingLock = some key →
    c = t ∧ s.pc t = .inLock key
  locked : ∀ key, (s.kernel.lock key).value = .locked →
    ∃ t, (s.kernel.lock key).owner = some t ∧ (s.kernel.task t).Alive ∧ s.between t key
  between : ∀ t key, s.between t key →
    (s.kernel.lock key).value = .locked ∧ (s.kernel.lock key).owner = some t
  woken : ∀ key w, (s.kernel.lock key).value = .unlocked →
    (s.kernel.task w).waitingLock = some key → ∃ v, s.dequeued v key ∧ (s.kernel.task v).Alive

variable {s : Sys}

/-- A call of a script that ends nobody meets the condition. -/
lemma Spares.goOn {c : Tid} {call : Call} {script : List Call} (hs : s.script c = call :: script)
    (hc : ∀ t, call.releases t = false) : s.Spares (.goOn c) := by
  have hn : ∀ t, ¬ s.Ends (.goOn c) t := by
    rintro t ⟨c', call', script', he, hs', ht⟩
    obtain rfl := Event.goOn.inj he
    obtain ⟨rfl, -⟩ := List.cons.inj (hs.symm.trans hs')
    simp [hc t] at ht
  refine ⟨fun t key he => ?_, fun t key he => absurd he (hn t), fun t key he => absurd he (hn t)⟩
  cases he

lemma Spares.quiet {e : Event} (hl : ∀ t key, e ≠ .lock t key) (hg : ∀ c, e ≠ .goOn c) : s.Spares e where
  tests t key he := absurd he (hl t key)
  owner t key he := by
    obtain ⟨c, _, _, he, -⟩ := he
    exact absurd he (hg c)
  woken t key he := by
    obtain ⟨c, _, _, he, -⟩ := he
    exact absurd he (hg c)

theorem Inv.handsOn (h : s.Inv) (key : LockId) : s.HandsOn key where
  owner hv := by
    obtain ⟨t, ho, ha, -⟩ := h.locked key hv
    refine ⟨t, ho, ?_, ?_, ?_, ?_⟩ <;> rcases ha with e | e | e <;> simp [e]
  woken hv hw := by
    obtain ⟨l, hl⟩ := h.wf.queue key
    have hne : l ≠ [] := fun e => hw (hl.1.eq_nil_iff.mp e)
    obtain ⟨w, hmem⟩ := List.exists_mem_of_ne_nil l hne
    exact h.woken key w hv ((hl.2 w).mp hmem)
  exclusive t u ht hu := by
    have e := (h.between t key ht).2.symm.trans (h.between u key hu).2
    exact Option.some.inj e

theorem Init.inv (h : s.Init) : s.Inv where
  wf := by
    refine ⟨fun key => ⟨[], ?_, fun t => by simp [h.waiting t]⟩, fun t key hw => ?_⟩
    · simpa [ends, h.lock key, lockInit] using IntrusiveQueue.isQueue_nil _
    · simp [h.waiting t] at hw
  released c t key hr := by simp [Releases, h.script c] at hr
  locked key hv := by simp [h.lock key, lockInit] at hv
  between t key hb := by simp [h.between t key] at hb
  woken key w _ hw := by simp [h.waiting w] at hw

/-! ### Steps of the kernel that test no lock -/

variable {t c : Tid}
variable {k k' : Kernel}

/-- A step of the kernel that ends the tasks of `D` -/
theorem Inv.frame {D : Tid → Prop} {s' : Sys} (h : s.Inv) (hf : Frame D s.kernel s'.kernel)
    (hb : s'.between = s.between) (hd : s'.dequeued = s.dequeued)
    (hr : ∀ c t key, s'.Releases c t → (s'.kernel.task t).waitingLock = some key →
      c = t ∧ s'.pc t = .inLock key)
    (hownr : ∀ t key, D t → (s.kernel.lock key).value = .locked → (s.kernel.lock key).owner ≠ some t)
    (hwok : ∀ t key, D t → (s.kernel.task t).Alive → s.dequeued t key →
      (s.kernel.lock key).value = .unlocked → (∃ w, (s.kernel.task w).waitingLock = some key) →
      ∃ v, ¬ D v ∧ s.dequeued v key ∧ (s.kernel.task v).Alive) : s'.Inv where
  wf := hf.wf h.wf
  released := hr
  locked key hv := by
    rw [hf.value] at hv
    obtain ⟨t, ho, ha, hbt⟩ := h.locked key hv
    have ht : ¬ D t := fun ht => hownr t key ht hv ho
    exact ⟨t, (hf.owner key).trans ho, hf.survive t ht ha, hb ▸ hbt⟩
  between t key hbt := by
    obtain ⟨hv, ho⟩ := h.between t key (hb ▸ hbt)
    exact ⟨(hf.value key).trans hv, (hf.owner key).trans ho⟩
  woken key w hv hw := by
    rw [hf.value] at hv
    have hw₀ := hf.waiting_some hw
    obtain ⟨v, hdv, hav⟩ := h.woken key w hv hw₀
    rw [hd]
    by_cases hDv : D v
    · obtain ⟨u, hDu, hdu, hau⟩ := hwok v key hDv hav hdv hv ⟨w, hw₀⟩
      exact ⟨u, hdu, hf.survive u hDu hau⟩
    · exact ⟨v, hdv, hf.survive v hDv hav⟩

/-- A step that ends nobody and has no script go on -/
theorem Inv.quiet (h : s.Inv) (hf : Frame (fun _ => False) s.kernel k') : (s.withKernel k').Inv :=
  h.frame hf rfl rfl (fun c t key hr hw => h.released c t key hr (hf.waiting_some hw))
    (fun _ _ => False.elim) fun _ _ => False.elim

lemma releases_push {r : Kernel × List Call} {c' : Tid} :
    (s.push c r).Releases c' t ↔ (c' = c ∧ r.2.any (·.releases t)) ∨ s.Releases c' t := by
  by_cases hc : c' = c
  · subst hc
    simp [Releases, push, List.any_append]
  · simp [Releases, push, hc]

/-- The beginning of a termination -/
theorem Inv.push {r : Kernel × List Call} (h : s.Inv) (hr : Begins s.kernel r) :
    (s.push c r).Inv := by
  refine h.frame hr.frame rfl rfl (fun c' t key hrel hw => ?_) (fun _ _ => False.elim)
    fun _ _ => False.elim
  change (r.1.task t).waitingLock = some key at hw
  have hnew : r.2.any (·.releases t) = false := by
    by_contra hn
    simp [hr.cancelled t (by simpa using hn)] at hw
  have hold : s.Releases c' t := by
    rcases releases_push.mp hrel with ⟨-, hn⟩ | ho
    · rw [hnew] at hn; cases hn
    · exact ho
  obtain ⟨rfl, hpc⟩ := h.released c' t key hold (hr.frame.waiting_some hw)
  refine ⟨rfl, ?_⟩
  -- the end that has begun is not that of a task that waits
  by_cases hc : c' = c
  · subst hc
    simpa [Sys.push, hnew] using hpc
  · simp only [Sys.push]
    split_ifs <;> simp [hc, hpc]

/-- A call of the script is taken off. -/
theorem Inv.pop {call : Call} {script : List Call} (h : s.Inv) (hs : s.script c = call :: script) :
    ({ s with script := update s.script c script } : Sys).Inv := by
  refine { h with released := fun c' t key hrel => h.released c' t key ?_ }
  by_cases hc : c' = c
  · subst hc
    simp only [Releases, update_self] at hrel
    simp [Releases, hs, hrel]
  · simpa [Releases, hc] using hrel

/-- The task goes on with a termination. -/
private lemma Inv.goOn {call : Call} {script : List Call} (h : s.Inv) (hg : s.Spares (.goOn c))
    (hs : s.script c = call :: script) (hpc : call.releases c → s.pc c = .run) :
    ({ s with script := update s.script c script }.push c (s.kernel.run c call)).Inv := by
  by_cases hcall : ∃ t, call.releases t
  case neg =>
    exact (h.pop hs).push (Begins.run h.wf fun t => by simpa using not_exists.mp hcall t)
  case pos =>
    obtain ⟨t, ht⟩ := hcall
    have hends : s.Ends (.goOn c) t := ⟨c, call, script, rfl, hs, ht⟩
    have hrel : s.Releases c t := by simp [Releases, hs, ht]
    obtain ⟨status, waitable, rfl⟩ : ∃ status waitable, call = .released t status waitable := by
      cases call <;> simp_all [Call.releases]
    -- the task is in no queue: another one's end keeps it out, and its own end is not inside `lock`
    have hw : (s.kernel.task t).waitingLock = none := by
      by_contra hw
      obtain ⟨key, hw⟩ := Option.ne_none_iff_exists'.mp hw
      obtain ⟨rfl, hin⟩ := h.released c t key hrel hw
      simp [hpc ht] at hin
    have hf : Frame (fun u => u = t) s.kernel (s.kernel.finishTaskEnd c t status waitable) :=
      Frame.finishTaskEnd h.wf hw
    refine h.frame hf rfl rfl (fun c' u key hrel' hwu => ?_) ?_ ?_
    · have hpop := (h.pop hs).released c' u key
      rcases releases_push.mp hrel' with ⟨-, hn⟩ | ho
      · cases hn
      · exact hpop ho (hf.waiting_some hwu)
    · rintro u key rfl
      exact hg.owner u key hends
    · rintro u key rfl ha hd hv hwait
      exact hg.woken u key hends ha hd hv hwait

/-! ### `lock` and `unlock` -/

lemma setFlag_apply (f : Tid → LockId → Bool) (t u : Tid) (key key' : LockId) (b : Bool) :
    setFlag f t key b u key' = if u = t ∧ key' = key then b else f u key' := by
  by_cases hu : u = t
  · subst hu
    simp [setFlag, update_apply]
  · simp [setFlag, hu]

lemma releases_of_script {s' : Sys} (h : s'.script = s.script) : s'.Releases c t ↔ s.Releases c t := by
  simp [Releases, h]

private lemma Inv.acquire {key : LockId} (h : s.Inv) (hg : s.Spares (.lock t key))
    (hv : (s.kernel.lock key).value = .unlocked) : (s.testLock t key).Inv := by
  set k := (s.kernel.lockWaiterRemove t).setLock key ({ · with value := .locked, owner := some t })
    with hk
  have hf : Frame (fun _ => False) s.kernel (s.kernel.lockWaiterRemove t) :=
    Frame.lockCancelTask s.kernel t
  have hal : ∀ u, (k.task u).Alive ↔ (s.kernel.task u).Alive := fun u => by simp [hk, Mtask.Alive]
  have hoth : ∀ key', key' ≠ key → (k.lock key').value = (s.kernel.lock key').value ∧
      (k.lock key').owner = (s.kernel.lock key').owner := fun key' hne => by simp [hk, hne]
  have hwait : ∀ u, (k.task u).waitingLock = if u = t then none else (s.kernel.task u).waitingLock :=
    fun u => by rw [hk, setLock_task, lockWaiterRemove_waitingLock]
  have hs : s.testLock t key =
      { s with
        kernel := k
        pc := update s.pc t .run
        between := setFlag s.between t key true
        dequeued := setFlag s.dequeued t key false } := by
    simp [testLock, lockPass, hv, hk]
  rw [hs]
  constructor <;> dsimp only
  case wf =>
    rw [hk]
    exact Wf.setLock (hf.wf h.wf) (by rfl) (by rfl)
  case released =>
    intro c u key' hr hw
    rw [hwait] at hw
    split_ifs at hw with hu
    simpa [hu] using h.released c u key' ((releases_of_script rfl).mp hr) hw
  case locked =>
    intro key' hv'
    by_cases hne : key' = key
    · subst hne
      exact ⟨t, by simp [hk], (hal t).mpr (hg.tests t key' rfl).1, by simp [setFlag_apply]⟩
    · rw [(hoth key' hne).1] at hv'
      obtain ⟨u, ho, ha, hb⟩ := h.locked key' hv'
      exact ⟨u, (hoth key' hne).2.trans ho, (hal u).mpr ha, by simp [setFlag_apply, hne, hb]⟩
  case between =>
    intro u key' hb
    rw [setFlag_apply] at hb
    split_ifs at hb with hu
    · obtain ⟨rfl, rfl⟩ := hu
      simp [hk]
    · obtain ⟨hv', ho⟩ := h.between u key' hb
      have hne : key' ≠ key := by
        rintro rfl
        simp [hv] at hv'
      exact ⟨(hoth key' hne).1.trans hv', (hoth key' hne).2.trans ho⟩
  case woken =>
    intro key' w hv' hw
    have hne : key' ≠ key := by
      rintro rfl
      simp [hk] at hv'
    rw [(hoth key' hne).1] at hv'
    rw [hwait] at hw
    split_ifs at hw with hwt
    obtain ⟨v, hd, ha⟩ := h.woken key' w hv' hw
    exact ⟨v, by simp [setFlag_apply, hne, hd], (hal v).mpr ha⟩

private lemma Inv.enqueue {key : LockId} (h : s.Inv) (hg : s.Spares (.lock t key))
    (hv : (s.kernel.lock key).value = .locked) : (s.testLock t key).Inv := by
  obtain ⟨hat, hself⟩ := hg.tests t key rfl
  set k := ((s.kernel.lockWaiterAdd key t).taskFallBlockedReason t .waiting .lock).1 with hk
  have hf : Frame (fun _ => False) (s.kernel.lockWaiterAdd key t) k :=
    Frame.taskFallBlockedReason (.inl rfl)
  have hwait : ∀ u, (k.task u).waitingLock =
      if u = t then some key else (s.kernel.task u).waitingLock := fun u => by
    rw [hk, taskFallBlockedReason_waitingLock, lockWaiterAdd_waitingLock]
  have hal : ∀ u, (s.kernel.task u).Alive → (k.task u).Alive := fun u ha =>
    hf.survive u id (by simpa [Mtask.Alive] using ha)
  have hlock : ∀ key', (k.lock key').value = (s.kernel.lock key').value ∧
      (k.lock key').owner = (s.kernel.lock key').owner := fun key' =>
    ⟨(hf.value key').trans (by simp), (hf.owner key').trans (by simp)⟩
  have hs : s.testLock t key =
      { s with
        kernel := k
        pc := update s.pc t (.inLock key)
        dequeued := setFlag s.dequeued t key false } := by
    simp [testLock, lockPass, hv, hk]
  rw [hs]
  constructor <;> dsimp only
  case wf => exact hf.wf (h.wf.lockWaiterAdd hat)
  case released =>
    intro c u key' hr hw
    have hr' : s.Releases c u := (releases_of_script rfl).mp hr
    rw [hwait] at hw
    split_ifs at hw with hu
    · subst hu
      exact ⟨hself c hr', by simp [Option.some.inj hw]⟩
    · simpa [hu] using h.released c u key' hr' hw
  case locked =>
    intro key' hv'
    obtain ⟨u, ho, ha, hb⟩ := h.locked key' ((hlock key').1.symm.trans hv')
    exact ⟨u, (hlock key').2.trans ho, hal u ha, hb⟩
  case between =>
    intro u key' hb
    rw [(hlock key').1, (hlock key').2]
    exact h.between u key' hb
  case woken =>
    intro key' w hv' hw
    rw [(hlock key').1] at hv'
    have hne : key' ≠ key := by
      rintro rfl
      simp [hv] at hv'
    rw [hwait] at hw
    split_ifs at hw with hwt
    · exact absurd (Option.some.inj hw).symm hne
    obtain ⟨v, hd, ha⟩ := h.woken key' w hv' hw
    exact ⟨v, by simp [setFlag_apply, hne, hd], hal v ha⟩

/-- `unlock` of the owner: the lock is free, and its first waiter is awake and out of the queue. -/
private lemma unlock_of_owner {key : LockId} (hq : k.Wf)
    (ho : (k.lock key).owner = some t) :
    (k.unlock t key).Wf ∧
    (∀ key', ((k.unlock t key).lock key').value =
      if key' = key then .unlocked else (k.lock key').value) ∧
    (∀ key', key' ≠ key → ((k.unlock t key).lock key').owner = (k.lock key').owner) ∧
    (∀ u, ((k.unlock t key).task u).waitingLock =
      if (k.lock key).waiter = some u then none else (k.task u).waitingLock) ∧
    ∀ u, (k.task u).Alive → ((k.unlock t key).task u).Alive := by
  unfold Kernel.unlock
  rw [if_neg (not_not.mpr ho)]
  set k₀ := k.setLock key ({ · with value := .unlocked, owner := none }) with hk₀
  have hwf : k₀.Wf := by
    rw [hk₀]
    exact hq.setLock (by rfl) (by rfl)
  have hv : ∀ key', (k₀.lock key').value = if key' = key then .unlocked else (k.lock key').value :=
    fun key' => setLock_field _ _ _ _ LockT.value
  have hown : ∀ key', key' ≠ key → (k₀.lock key').owner = (k.lock key').owner := fun key' hne => by
    simp [hk₀, hne]
  have hwtr : (k₀.lock key).waiter = (k.lock key).waiter := by simp [hk₀]
  dsimp only
  split
  case h_1 hnone => exact ⟨hwf, hv, hown, fun u => by simp [hwtr ▸ hnone, hk₀], fun u => id⟩
  case h_2 w hw =>
    have h₁ : Frame (fun _ => False) k₀ (k₀.lockWaiterRemove w) := Frame.lockCancelTask k₀ w
    have h₂ : Frame (fun _ => False) (k₀.lockWaiterRemove w) ((k₀.lockWaiterRemove w).taskRun w) :=
      Frame.taskRun _ _
    refine ⟨h₂.wf (h₁.wf hwf), fun key' => ?_, fun key' hne => ?_, fun u => ?_, fun u ha => ?_⟩
    · rw [h₂.value, h₁.value, hv]
    · rw [h₂.owner, h₁.owner, hown key' hne]
    · rw [taskRun_waitingLock, lockWaiterRemove_waitingLock, ← hwtr, hw]
      rw [hk₀, setLock_task]
      by_cases hu : u = w
      · rw [if_pos hu, if_pos (by rw [hu])]
      · rw [if_neg hu, if_neg fun e => hu (Option.some.inj e).symm]
    · exact h₂.survive u id (h₁.survive u id ha)

private lemma Inv.unlock {key : LockId} (h : s.Inv) : (s.releaseLock t key).Inv := by
  by_cases ho : (s.kernel.lock key).owner = some t
  case neg =>
    -- the task is not the owner, so it was not between `lock` and `unlock`
    have hb : ∀ key', s.between t key' → key' ≠ key := by
      rintro key' hb rfl
      exact ho (h.between t key' hb).2
    have hs : s.releaseLock t key = { s with between := setFlag s.between t key false } := by
      simp [releaseLock, wakes, ho, Kernel.unlock]
    rw [hs]
    refine { h with locked := fun key' hv => ?_, between := fun u key' hb' => ?_ }
    · obtain ⟨u, hou, ha, hbu⟩ := h.locked key' hv
      refine ⟨u, hou, ha, ?_⟩
      dsimp only
      rw [setFlag_apply, if_neg, hbu]
      rintro ⟨rfl, rfl⟩
      exact ho hou
    · dsimp only at hb'
      rw [setFlag_apply] at hb'
      split_ifs at hb'
      exact h.between u key' hb'
  case pos =>
    obtain ⟨hwf, hval, hown, hwait, hal⟩ := unlock_of_owner h.wf ho
    set w := (s.kernel.lock key).waiter with hw
    -- the task that is woken waited for this lock
    have hwkey : ∀ u, w = some u → (s.kernel.task u).waitingLock = some key := by
      intro u hu
      obtain ⟨l, hl⟩ := h.wf.queue key
      refine (hl.2 u).mp (List.mem_of_mem_head? ?_)
      rw [← hl.1.head]
      exact hw.symm.trans hu
    have hdeq : ∀ u key', (s.releaseLock t key).dequeued u key' =
        if w = some u ∧ key' = key then true else s.dequeued u key' := by
      intro u key'
      simp only [releaseLock, wakes, if_pos ho, ← hw]
      cases hc : w with
      | none => simp
      | some v =>
        dsimp only
        rw [setFlag_apply]
        simp only [Option.some.injEq, eq_comm]
    constructor
    case wf => exact hwf
    case released =>
      intro c u key' hr hu
      change ((s.kernel.unlock t key).task u).waitingLock = _ at hu
      rw [hwait] at hu
      split_ifs at hu
      exact h.released c u key' hr hu
    case locked =>
      intro key' hv
      change ((s.kernel.unlock t key).lock key').value = _ at hv
      rw [hval] at hv
      split_ifs at hv with hne
      obtain ⟨u, hou, ha, hb⟩ := h.locked key' hv
      exact ⟨u, (hown key' hne).trans hou, hal u ha, by simp [releaseLock, setFlag_apply, hne, hb]⟩
    case between =>
      intro u key' hb
      simp only [releaseLock, setFlag_apply] at hb
      split_ifs at hb with hc
      obtain ⟨hv, hou⟩ := h.between u key' hb
      have hne : key' ≠ key := by
        rintro rfl
        exact hc ⟨Option.some.inj (hou.symm.trans ho), rfl⟩
      exact ⟨by simpa [releaseLock, hval, hne] using hv, (hown key' hne).trans hou⟩
    case woken =>
      intro key' u hv hu
      change ((s.kernel.unlock t key).lock key').value = _ at hv
      change ((s.kernel.unlock t key).task u).waitingLock = _ at hu
      rw [hwait] at hu
      split_ifs at hu
      by_cases hne : key' = key
      · subst hne
        -- the queue had `u`, so it had a first task
        cases hc : w with
        | none =>
          obtain ⟨l, hl⟩ := h.wf.queue key'
          have : l = [] := hl.1.eq_nil_iff.mpr (hw.symm.trans hc)
          simpa [this] using (hl.2 u).mpr hu
        | some v => exact ⟨v, by simp [hdeq, hc], hal v (h.wf.waiting v key' (hwkey v hc))⟩
      · rw [hval, if_neg hne] at hv
        obtain ⟨v, hd, ha⟩ := h.woken key' u hv hu
        exact ⟨v, by simp [hdeq, hne, hd], hal v ha⟩

/-! ### The other steps -/

private lemma Inv.start (h : s.Inv) (ht : (s.kernel.task t).state = .allocating) :
    (s.start t).Inv := by
  have hdead : ¬ (s.kernel.task t).Alive := by simp [Mtask.Alive, ht]
  have hne : ∀ u, (s.kernel.task u).Alive → u ≠ t := by
    rintro u ha rfl
    exact hdead ha
  -- what is known of the slot is forgotten while it is dead
  have h₁ : ({ s with
      current := update s.current t false
      script := update s.script t []
      pc := update s.pc t .run
      between := update s.between t fun _ => false
      dequeued := update s.dequeued t fun _ => false } : Sys).Inv := by
    constructor <;> dsimp only
    case wf => exact h.wf
    case released =>
      intro c u key hr hw
      have hu := hne u (h.wf.waiting u key hw)
      by_cases hc : c = t
      · subst hc
        simp [Releases] at hr
      · simpa [hu] using h.released c u key (by simpa [Releases, hc] using hr) hw
    case locked =>
      intro key hv
      obtain ⟨u, ho, ha, hb⟩ := h.locked key hv
      exact ⟨u, ho, ha, by simp [hne u ha, hb]⟩
    case between =>
      intro u key hb
      refine h.between u key ?_
      by_cases hu : u = t
      · simp [hu] at hb
      · simpa [hu] using hb
    case woken =>
      intro key w hv hw
      obtain ⟨v, hd, ha⟩ := h.woken key w hv hw
      exact ⟨v, by simp [hne v ha, hd], ha⟩
  have hf : Frame (fun _ => False) s.kernel (s.kernel.taskPublish t) := by
    rw [Kernel.taskPublish, if_pos ht]
    exact Frame.setState (fun _ => rfl) (fun _ => rfl) (fun _ => rfl) (.inr hdead)
  exact h₁.quiet hf

lemma Frame.claim {D : Tid → Prop} {kind : TaskKind} {tgid ptid : ℕ} {joinable : Bool}
    (ha : ¬ (k.task t).Alive) (hq : k.Wf) : Frame D k (claim k t kind tgid ptid joinable) := by
  have hw := hq.dead ha
  have h₁ : Frame D k (k.taskSlotClaim t) :=
    Frame.write (by simp [slotReset, hw]) (fun h => absurd hw h) fun h => absurd h ha
  exact h₁.trans (Frame.inert (fun _ => rfl) (fun _ => rfl) (fun _ => rfl) fun _ => rfl)

lemma Frame.releaseDead {D : Tid → Prop} (hq : k.Wf) (ha : ¬ (k.task t).Alive) :
    Frame D k (k.taskSlotRelease t) := Frame.taskSlotRelease (.inr ha) (hq.dead ha)

lemma Frame.detachThread {D : Tid → Prop} (hq : k.Wf) : Frame D k (detachThread k t) := by
  have h₁ : Frame D k (k.setTask t ({ · with joinable := false })) :=
    Frame.inert (fun _ => rfl) (fun _ => rfl) (fun _ => rfl) fun _ => rfl
  unfold Sys.detachThread
  dsimp only
  split
  case isTrue hd => exact h₁.trans (Frame.releaseDead (h₁.wf hq) (by rw [Mtask.Alive, hd]; simp))
  case isFalse => exact h₁

/-- **Every step that meets the condition keeps the invariant.** -/
theorem Inv.step {s' : Sys} {e : Event} (h : s.Inv) (hg : s.Spares e) (hs : s.step e = some s') :
    s'.Inv := by
  cases e <;> simp only [Sys.step, Option.ite_none_right_eq_some, Option.some.injEq] at hs
  case create t kind tgid ptid joinable =>
    obtain ⟨⟨hc, -⟩, rfl⟩ := hs
    exact h.quiet (Frame.claim (by simp [Mtask.Alive, hc]) h.wf)
  case publish t =>
    obtain ⟨hc, rfl⟩ := hs
    exact h.start hc
  case abortCreation t =>
    obtain ⟨hc, rfl⟩ := hs
    have h₁ : Frame (fun _ => False) s.kernel (s.kernel.taskReleaseResources t) := by
      unfold taskReleaseResources taskClear
      exact (Frame.lockCancelTask s.kernel t).trans
        (Frame.inert (fun _ => rfl) (fun _ => rfl) (fun _ => rfl) fun _ => rfl)
    refine h.quiet (h₁.trans (Frame.releaseDead (h₁.wf h.wf) ?_))
    simp [Mtask.Alive, taskReleaseResources, taskClear, lockCancelTask, hc]
  case registryGrow =>
    subst hs
    exact { h with wf := ⟨h.wf.queue, h.wf.waiting⟩ }
  case dispatch t =>
    obtain ⟨-, rfl⟩ := hs
    have hf : Frame (fun _ => False) s.kernel
        (s.kernel.setTask t ({ · with onCpu := true, ready := false })) :=
      Frame.inert (fun _ => rfl) (fun _ => rfl) (fun _ => rfl) fun _ => rfl
    exact { h.quiet hf with }
  case switch t =>
    obtain ⟨-, rfl⟩ := hs
    exact h.push Begins.taskNext
  case leave t =>
    obtain ⟨-, rfl⟩ := hs
    exact { h with }
  case lock t key =>
    obtain ⟨-, rfl⟩ := hs
    cases hv : (s.kernel.lock key).value with
    | unlocked => exact h.acquire hg hv
    | locked => exact h.enqueue hg hv
  case unlock t key =>
    obtain ⟨-, rfl⟩ := hs
    exact h.unlock
  case block t reason =>
    obtain ⟨-, rfl⟩ := hs
    exact h.quiet (Frame.taskFallBlockedReason (.inl rfl))
  case wake t =>
    subst hs
    exact h.quiet (Frame.taskRun s.kernel t)
  case kill cur t =>
    obtain ⟨-, rfl⟩ := hs
    exact h.push Begins.taskKill
  case exit cur status =>
    obtain ⟨-, rfl⟩ := hs
    exact h.push Begins.taskExit
  case exitProcess cur status =>
    obtain ⟨-, rfl⟩ := hs
    exact h.push Begins.taskExitProcess
  case reap cur t =>
    obtain ⟨-, rfl⟩ := hs
    exact h.push Begins.taskFinishPending
  case goOn cur =>
    split at hs
    case h_1 => cases hs
    case h_2 call script hscript =>
      simp only [Option.ite_none_right_eq_some, Option.some.injEq] at hs
      obtain ⟨⟨-, hpc⟩, rfl⟩ := hs
      exact h.goOn hg hscript hpc
  case release t =>
    obtain ⟨hc, rfl⟩ := hs
    have hdead : ¬ (s.kernel.task t).Alive := by rcases hc with hc | hc <;> simp [Mtask.Alive, hc]
    exact h.quiet (Frame.releaseDead h.wf hdead)
  case detach t =>
    obtain ⟨-, rfl⟩ := hs
    exact h.quiet (Frame.detachThread h.wf)

end Sys

/-- **A lock is handed on** in every run in which no `finish_task` ends the owner of a lock, or the last
task that was woken for a free lock with waiters left, and no task that is finished, or that another
one is finishing, tests a lock. -/
theorem handsOn_of_spares {s : Sys} (h : system.Guarded Sys.Spares s) (key : LockId) :
    s.HandsOn key :=
  (h.invariant (fun _ => Sys.Init.inv) fun _ _ _ => Sys.Inv.step : s.Inv).handsOn key

def threeProcesses : Sys where
  kernel :=
    { slotCount := 4
      task := fun t => { slotReset t 1 with
        state := if t = 1 ∨ t = 2 ∨ t = 3 then .running else .empty, addressSpace := true }
      lock := fun _ => lockInit }
  current _ := false
  script _ := []
  pc _ := .run
  between _ _ := false
  dequeued _ _ := false

lemma threeProcesses_init : system.init threeProcesses := by
  refine ⟨?_, ?_, ?_, ?_⟩ <;> intros <;> rfl

def after (es : List Event) : Sys := system.replay threeProcesses es

lemma after_reachable (es : List Event) : system.Reachable (after es) :=
  System.replay_reachable (.init threeProcesses_init) es

/-- `task_kill` of a process without threads in a registry of four slots, up to the sleep of
`finish_task` -/
def killing (cur t : Tid) : List Event :=
  [.kill cur t, .goOn cur, .goOn cur, .goOn cur, .goOn cur, .goOn cur, .goOn cur]

/-- `task_next` of a task whose end is not requested, with the switch -/
def switching (t : Tid) : List Event := [.switch t, .goOn t, .leave t]

/-- The owner of a lock kills a process that has nothing to do with it. -/
theorem handsOn_killed_bystander :
    (after (.dispatch 1 :: .lock 1 0 :: killing 1 2 ++ [.goOn 1])).HandsOn 0 := by
  have h₁ : system.Guarded Sys.Spares (after [.dispatch 1]) :=
    .step (e := .dispatch 1) (.init threeProcesses_init) (.quiet (by simp) (by simp))
      (rfl : _ = some _)
  have h₂ : system.Guarded Sys.Spares (after [.dispatch 1, .lock 1 0]) := by
    refine .step h₁ (e := .lock 1 0) ⟨fun t key he => ?_, ?_, ?_⟩ (rfl : _ = some _)
    · obtain ⟨rfl, rfl⟩ := Event.lock.inj he
      exact ⟨by decide, fun c hc => by cases hc⟩
    all_goals
      rintro t key ⟨_, _, _, he, -⟩
      cases he
  have h₃ : system.Guarded Sys.Spares (after [.dispatch 1, .lock 1 0, .kill 1 2]) :=
    .step (e := .kill 1 2) h₂ (.quiet (by simp) (by simp)) (rfl : _ = some _)
  -- the loop over the threads, with four passes and its end, and the beginning of `finish_task`
  have h₄ := h₃.step (e := Event.goOn 1) (.goOn (rfl : _ = _ :: _) fun _ => rfl) (rfl : _ = some _)
  have h₅ := h₄.step (e := Event.goOn 1) (.goOn (rfl : _ = _ :: _) fun _ => rfl) (rfl : _ = some _)
  have h₆ := h₅.step (e := Event.goOn 1) (.goOn (rfl : _ = _ :: _) fun _ => rfl) (rfl : _ = some _)
  have h₇ := h₆.step (e := Event.goOn 1) (.goOn (rfl : _ = _ :: _) fun _ => rfl) (rfl : _ = some _)
  have h₈ := h₇.step (e := Event.goOn 1) (.goOn (rfl : _ = _ :: _) fun _ => rfl) (rfl : _ = some _)
  have h₉ : system.Guarded Sys.Spares (after (.dispatch 1 :: .lock 1 0 :: killing 1 2)) :=
    h₈.step (e := Event.goOn 1) (.goOn (rfl : _ = _ :: _) fun _ => rfl) (rfl : _ = some _)
  have hends : ∀ t, (after (.dispatch 1 :: .lock 1 0 :: killing 1 2)).Ends (.goOn 1) t → t = 2 := by
    rintro t ⟨c, call, script, he, hs, hcall⟩
    obtain rfl := Event.goOn.inj he
    cases hs
    exact (eq_of_beq hcall).symm
  refine handsOn_of_spares (h₉.step (e := Event.goOn 1) ⟨fun t key he => ?_,
    fun t key ht hv ho => ?_, fun t key ht _ hd => ?_⟩ (rfl : _ = some _)) 0
  · cases he
  · obtain rfl := hends t ht
    by_cases hk : key = 0
    · subst hk
      exact absurd ho (by decide)
    · have : (after (.dispatch 1 :: .lock 1 0 :: killing 1 2)).kernel.lock key = lockInit :=
        update_of_ne hk _ _
      simp [this, lockInit] at hv
  · obtain rfl := hends t ht
    exact absurd (hd : false = true) Bool.false_ne_true

def killedOwner : List Event :=
  .dispatch 1 :: .lock 1 0 :: .block 1 .other :: switching 1 ++ .dispatch 2 :: killing 2 1 ++ [.goOn 2]

/-- The task that `unlock` has woken is killed before it is on a CPU. -/
def killedWaiter : List Event :=
  .dispatch 1 :: .lock 1 0 :: .block 1 .other :: switching 1 ++ .dispatch 2 :: .lock 2 0 ::
    switching 2 ++ .dispatch 3 :: .lock 3 0 :: switching 3 ++ .wake 1 :: .dispatch 1 ::
    .unlock 1 0 :: killing 1 2 ++ [.goOn 1]

/-- The owner kills a waiter and sleeps in `finish_task`; a key wakes the waiter, which tests the lock
again, and another task queues up behind it. -/
def wokenVictim : List Event :=
  .dispatch 1 :: .lock 1 0 :: .dispatch 2 :: .lock 2 0 :: switching 2 ++ killing 1 2 ++
    .block 1 .other :: switching 1 ++ .wake 2 :: .dispatch 2 :: .lock 2 0 :: switching 2 ++
    .dispatch 3 :: .lock 3 0 :: switching 3 ++ [.wake 1, .dispatch 1, .goOn 1, .unlock 1 0]

lemma not_handsOn_of_freed {s : Sys} (t : Tid) {key : LockId}
    (hv : (s.kernel.lock key).value = .locked) (ho : (s.kernel.lock key).owner = some t)
    (ht : (s.kernel.task t).state = .empty) : ¬ s.HandsOn key := by
  intro h
  obtain ⟨u, hu, -, -, -, he⟩ := h.owner hv
  obtain rfl := Option.some.inj (hu.symm.trans ho)
  exact he ht

lemma not_handsOn_of_stranded {s : Sys} (t : Tid) {key : LockId}
    (hv : (s.kernel.lock key).value = .unlocked) (hw : (s.kernel.lock key).waiter ≠ none)
    (hd : ∀ u, s.dequeued u key → u = t) (ht : (s.kernel.task t).state = .empty) :
    ¬ s.HandsOn key := by
  intro h
  obtain ⟨u, hu, ha⟩ := h.woken hv hw
  obtain rfl := hd u hu
  simp [Mtask.Alive, ht] at ha

/-- One termination leaves a lock locked by a slot that is free; another leaves a waiter of a free lock
with nobody to wake it; a third one leaves its own task in the queue. -/
theorem termination_loses_lock :
    (∃ s, system.Reachable s ∧ ¬ s.HandsOn 0 ∧ (s.kernel.lock 0).value = .locked ∧
      (s.kernel.lock 0).owner = some 1 ∧ (s.kernel.task 1).state = .empty) ∧
    (∃ s, system.Reachable s ∧ ¬ s.HandsOn 0 ∧ (s.kernel.lock 0).value = .unlocked ∧
      (s.kernel.lock 0).waiter = some 3 ∧ (s.kernel.task 2).state = .empty) ∧
    ∃ s, system.Reachable s ∧ ¬ s.HandsOn 0 ∧ (s.kernel.lock 0).value = .unlocked ∧
      (s.kernel.lock 0).waiter = some 2 ∧ (s.kernel.task 2).state = .empty := by
  refine ⟨⟨after killedOwner, after_reachable _, ?_, by decide, by decide, by decide⟩,
    ⟨after killedWaiter, after_reachable _, ?_, by decide, by decide, by decide⟩,
    ⟨after wokenVictim, after_reachable _, ?_, by decide, by decide, by decide⟩⟩
  · exact not_handsOn_of_freed 1 (by decide) (by decide) (by decide)
  · refine not_handsOn_of_stranded 2 (by decide) (by decide) (fun u hu => ?_) (by decide)
    have hd : (after killedWaiter).dequeued =
        Sys.setFlag (Sys.setFlag (Sys.setFlag (Sys.setFlag (fun _ _ => false) 1 0 false) 2 0 false)
          3 0 false) 2 0 true := rfl
    by_contra hne
    simp [hd, Sys.setFlag_apply, hne] at hu
  · refine not_handsOn_of_stranded 2 (by decide) (by decide) (fun u hu => ?_) (by decide)
    have hd : (after wokenVictim).dequeued =
        Sys.setFlag (Sys.setFlag (Sys.setFlag (Sys.setFlag (Sys.setFlag (fun _ _ => false) 1 0 false)
          2 0 false) 2 0 false) 3 0 false) 2 0 true := rfl
    by_contra hne
    simp [hd, Sys.setFlag_apply, hne] at hu

end PlantOS.Task
