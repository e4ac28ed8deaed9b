import Mathlib.Algebra.Group.Nat.Defs
import PlantOS.Lib.Run
import PlantOS.Task.Lock

/-!
# Creation and termination of tasks

The life of a registry slot in `mtask.c`: `task_slot_claim` and `task_publish` bring a task up,
`request_task_termination` and `task_finish_pending` take it down, with its thread group if it is a
process. `finish_task` sleeps in `task_release_resources` once the task is out of the queues
(`user_vm_lock`, `vfs_mapping_sync`), so a termination is not one step: what is left of it waits in
the script of the task that terminates. Of `task_release_resources` the model has `lock_cancel_task`
and the writes to the modelled fields; the wakeups among its other calls are wakeups of the
environment.
-/

namespace PlantOS.Task

/-- What a task that finishes others, or itself, has still to do -/
inductive Call
  /-- `terminate_thread_group` from the slot `next` on -/
  | terminateThreadGroup (tgid : ℕ) (except next : Tid)
  /-- `task_finish_pending` of the process `t` past `terminate_thread_group` -/
  | groupTerminated (t : Tid) (status : ℕ)
  /-- `finish_task` of `t` past `task_clear_external_refs` -/
  | released (t : Tid) (status : ℕ) (waitable : Bool)
  /-- `task_exit_process` past `terminate_thread_group` -/
  | exitLeader (status : ℕ)
  /-- `task_exit_process` past the termination of the leader -/
  | exitSelf (status : ℕ)
  /-- `task_next` past `task_finish_pending` -/
  | left
  deriving DecidableEq, Repr

/-- The call ends the task `t`: it is what is left of its `finish_task`. -/
def Call.releases (t : Tid) : Call → Bool
  | .released u _ _ => u == t
  | _ => false

namespace Kernel

/-! ### Slots -/

/-- What `task_slot_reset` leaves in the slot `t`. -/
def slotReset (t : Tid) (generation : ℕ) : Mtask where
  state := .empty
  kind := .process
  tgid := t
  ptid := taskIdNone
  generation := generation
  joinable := false
  onCpu := false
  addressSpace := false
  waitReason := .none
  waittid := taskIdNone
  waitGeneration := 0
  ready := false
  status := 0
  terminateStatus := 0
  terminatePending := false
  waitingLock := none
  lockNext := none
  lockPrevious := none

def taskSlotRelease (k : Kernel) (t : Tid) : Kernel :=
  k.setTask t fun task => slotReset t task.generation

/-- `task_slot_claim` of the slot `t` -/
def taskSlotClaim (k : Kernel) (t : Tid) : Kernel :=
  k.setTask t fun task =>
    { slotReset t (if task.generation + 1 = 2 ^ 32 then 1 else task.generation + 1) with
      state := .allocating }

def taskPublish (k : Kernel) (t : Tid) : Kernel :=
  if (k.task t).state = .allocating then k.setTask t ({ · with state := .running }) else k

/-- The slots `0, …, slotCount - 1` in the order of the loops over the registry. -/
def forSlots (k : Kernel) (f : Kernel → Tid → Kernel) : Kernel :=
  (List.range k.slotCount).foldl f k

def wakeChildWaiter (k : Kernel) (child : Tid) : Kernel :=
  let c := k.task child
  let owner := if c.kind = .thread then c.tgid else c.ptid
  if owner = taskIdNone ∨ owner = reaperTid then k
  else
    k.forSlots fun k w =>
      let waiter := k.task w
      if !taskSlotInUse waiter ∨ waiter.tgid ≠ owner ∨ waiter.state ≠ .waiting ∨
          waiter.waitReason ≠ .child ∨ (waiter.waittid ≠ taskIdNone ∧
            (waiter.waittid ≠ child ∨ waiter.waitGeneration ≠ (k.task child).generation)) then k
      else k.taskRun w

/-- The writes of `task_release_resources` past its last sleep -/
def taskClear (k : Kernel) (t : Tid) : Kernel :=
  k.setTask t
    ({ · with waittid := taskIdNone, waitGeneration := 0, waitReason := .none, ready := false,
              addressSpace := false })

def taskReleaseResources (k : Kernel) (t : Tid) : Kernel := (k.lockCancelTask t).taskClear t

/-- `finish_task` up to the first sleep of `task_release_resources` -/
def finishTask (k : Kernel) (t : Tid) (status : ℕ) (waitable : Bool) : Kernel × List Call :=
  (k.lockCancelTask t, [.released t status waitable])

/-- The rest of `finish_task` -/
def finishTaskEnd (k : Kernel) (cur t : Tid) (status : ℕ) (waitable : Bool) : Kernel :=
  let k := k.taskClear t
  let k := k.setTask t ({ · with status := status })
  let k := k.wakeChildWaiter t
  if waitable then k.setTask t ({ · with state := .died })
  else if t = cur then k.setTask t ({ · with state := .willEmpty })
  else k.taskSlotRelease t

/-- The end of `task_finish_pending`: whether somebody waits for the task, and `finish_task`. -/
def finishPendingTask (k : Kernel) (t : Tid) (status : ℕ) : Kernel × List Call :=
  let task := k.task t
  k.finishTask t status (task.joinable ||
    (task.kind == .process && task.ptid != taskIdNone && task.ptid != reaperTid))

/-! ### Thread groups -/

def taskFinishPending (k : Kernel) (t : Tid) : Kernel × List Call :=
  let status := (k.task t).terminateStatus
  let k := k.setTask t ({ · with terminatePending := false })
  if (k.task t).kind = .process then
    (k, [.terminateThreadGroup (k.task t).tgid t 0, .groupTerminated t status])
  else k.finishPendingTask t status

def requestTaskTermination (k : Kernel) (cur t : Tid) (status : ℕ) : Kernel × List Call :=
  let k := k.setTask t ({ · with terminateStatus := status, terminatePending := true })
  if (k.task t).onCpu ∧ t ≠ cur then (k, []) else k.taskFinishPending t

/-- One pass of the loop of `terminate_thread_group`. -/
def terminateThread (k : Kernel) (cur : Tid) (tgid : ℕ) (except t : Tid) : Kernel × List Call :=
  let thread := k.task t
  if t = except ∨ !taskSlotInUse thread ∨ thread.kind ≠ .thread ∨ thread.tgid ≠ tgid then (k, [])
  else
    let k := k.setTask t ({ · with joinable := false })
    if thread.state = .died then (k.taskSlotRelease t, [])
    else k.requestTaskTermination cur t taskKilledStatus

def terminateThreadGroup (k : Kernel) (cur : Tid) (tgid : ℕ) (except next : Tid) :
    Kernel × List Call :=
  if next < k.slotCount then
    let r := k.terminateThread cur tgid except next
    (r.1, r.2 ++ [.terminateThreadGroup tgid except (next + 1)])
  else (k, [])

def taskGroupHasThreads (k : Kernel) (self : Tid) : Bool :=
  (List.range k.slotCount).any fun t =>
    taskSlotInUse (k.task t) && t != self && (k.task t).kind == .thread &&
      (k.task t).tgid == (k.task self).tgid && (k.task t).addressSpace

def reparentChildren (k : Kernel) (oldParent newParent : ℕ) : Kernel :=
  k.forSlots fun k c =>
    let child := k.task c
    if !taskSlotInUse child ∨ child.kind ≠ .process ∨ child.ptid ≠ oldParent then k
    else
      let k := k.setTask c ({ · with ptid := newParent })
      let k := k.forSlots fun k t =>
        if taskSlotInUse (k.task t) ∧ (k.task t).kind = .thread ∧ (k.task t).tgid = child.tgid then
          k.setTask t ({ · with ptid := newParent })
        else k
      if child.state = .died ∧ newParent = reaperTid then k.taskSlotRelease c else k

/-- The rest of `task_finish_pending` of a process. A thread on another CPU still holds the resources of
the group: its end wakes the deferred one. -/
def groupTerminated (k : Kernel) (t : Tid) (status : ℕ) : Kernel × List Call :=
  if k.taskGroupHasThreads t then
    (k.setTask t ({ · with terminatePending := true, state := .waiting, waitReason := .child,
                           waittid := taskIdNone, waitGeneration := 0 }), [])
  else (k.reparentChildren (k.task t).tgid reaperTid).finishPendingTask t status

/-- `task_kill` up to the `task_next` of a task that kills itself -/
def taskKill (k : Kernel) (cur t : Tid) : Kernel × List Call :=
  if !taskSlotInUse (k.task t) ∨ (k.task t).state = .died then (k, [])
  else k.requestTaskTermination cur t taskKilledStatus

/-- `task_exit` up to its `task_next` -/
def taskExit (k : Kernel) (cur : Tid) (status : ℕ) : Kernel × List Call :=
  (k.setTask cur ({ · with terminateStatus := status })).taskFinishPending cur

/-- `task_exit_process` up to its `task_next` -/
def taskExitProcess (k : Kernel) (cur : Tid) (status : ℕ) : Kernel × List Call :=
  (k, [.terminateThreadGroup (k.task cur).tgid cur 0, .exitLeader status])

def exitLeader (k : Kernel) (cur : Tid) (status : ℕ) : Kernel × List Call :=
  let leader := (k.task cur).tgid
  let k := k.reparentChildren leader reaperTid
  let r := if taskSlotInUse (k.task leader) ∧ leader ≠ cur then
      k.requestTaskTermination cur leader status
    else (k, [])
  (r.1, r.2 ++ [.exitSelf status])

/-- `task_next` of the task `cur` up to the choice of the next task -/
def taskNext (k : Kernel) (cur : Tid) : Kernel × List Call :=
  let k := k.setTask cur ({ · with onCpu := false })
  let r := if (k.task cur).terminatePending then k.taskFinishPending cur else (k, [])
  (r.1, r.2 ++ [.left])

def taskLeft (k : Kernel) (cur : Tid) : Kernel :=
  if (k.task cur).state = .willEmpty then k.setTask cur ({ · with state := .ready }) else k

/-- `cur` goes on with a call of its script. -/
def run (k : Kernel) (cur : Tid) : Call → Kernel × List Call
  | .terminateThreadGroup tgid except next => k.terminateThreadGroup cur tgid except next
  | .groupTerminated t status => k.groupTerminated t status
  | .released t status waitable => (k.finishTaskEnd cur t status waitable, [])
  | .exitLeader status => k.exitLeader cur status
  | .exitSelf status => k.taskExit cur status
  | .left => (k.taskLeft cur, [])

end Kernel

/-! ## What a termination leaves alone -/

namespace Kernel

/-- From `k` to `k'` the invariant is kept, the locks are not touched, no task comes into a queue, and
only tasks of `D` end. -/
structure Frame (D : Tid → Prop) (k k' : Kernel) : Prop where
  value : ∀ key, (k'.lock key).value = (k.lock key).value
  owner : ∀ key, (k'.lock key).owner = (k.lock key).owner
  wf : k.Wf → k'.Wf
  waiting : ∀ t, (k'.task t).waitingLock = (k.task t).waitingLock ∨ (k'.task t).waitingLock = none
  survive : ∀ t, ¬ D t → (k.task t).Alive → (k'.task t).Alive

variable {D : Tid → Prop} {k k' k'' : Kernel} {t cur : Tid}

theorem Frame.refl (D : Tid → Prop) (k : Kernel) : Frame D k k :=
  ⟨fun _ => rfl, fun _ => rfl, id, fun _ => .inl rfl, fun _ _ => id⟩

theorem Frame.trans (h : Frame D k k') (h' : Frame D k' k'') : Frame D k k'' where
  value key := (h'.value key).trans (h.value key)
  owner key := (h'.owner key).trans (h.owner key)
  wf := h'.wf ∘ h.wf
  waiting t := by
    rcases h'.waiting t with e | e
    · rw [e]; exact h.waiting t
    · exact .inr e
  survive t hd := h'.survive t hd ∘ h.survive t hd

lemma Frame.waiting_some {key : LockId} (h : Frame D k k') (hw : (k'.task t).waitingLock = some key) :
    (k.task t).waitingLock = some key := by
  rcases h.waiting t with e | e
  · exact e.symm.trans hw
  · exact absurd (e.symm.trans hw) (by simp)

lemma Frame.waiting_none (h : Frame D k k') (hw : (k.task t).waitingLock = none) :
    (k'.task t).waitingLock = none := by
  rcases h.waiting t with e | e
  · rw [e, hw]
  · exact e

lemma Wf.dead (hq : k.Wf) (ha : ¬ (k.task t).Alive) : (k.task t).waitingLock = none := by
  cases h : (k.task t).waitingLock with
  | none => rfl
  | some key => exact absurd (hq.waiting t key h) ha

/-! ### Writes to one task -/

theorem Frame.write {f : Mtask → Mtask}
    (hw : (f (k.task t)).waitingLock = (k.task t).waitingLock)
    (hl : (k.task t).waitingLock ≠ none → (f (k.task t)).lockNext = (k.task t).lockNext ∧
      (f (k.task t)).lockPrevious = (k.task t).lockPrevious)
    (hd : (k.task t).Alive → (f (k.task t)).Alive ∨ D t ∧ (k.task t).waitingLock = none) :
    Frame D k (k.setTask t f) := by
  have hw' : ∀ u, ((k.setTask t f).task u).waitingLock = (k.task u).waitingLock := fun u => by
    rw [setTask_field _ _ _ _ Mtask.waitingLock]
    split_ifs with hu
    · rw [hw, hu]
    · rfl
  refine ⟨fun _ => rfl, fun _ => rfl, fun hq => ⟨fun key => ?_, fun u key h => ?_⟩,
    fun u => .inl (hw' u), fun u hu hau => ?_⟩
  · obtain ⟨l, hl'⟩ := hq.queue key
    refine ⟨l, hl'.congr rfl hw' (fun u hu => ?_) fun u hu => ?_⟩ <;>
      rw [setTask_apply] <;> split_ifs with e
    · subst e
      exact (hl (by simp [(hl'.2 u).mp hu])).1
    · rfl
    · subst e
      exact (hl (by simp [(hl'.2 u).mp hu])).2
    · rfl
  · rw [hw'] at h
    have := hq.waiting u key h
    rw [setTask_apply]
    split_ifs with e
    · subst e
      exact (hd this).resolve_right fun hn => by simp [hn.2] at h
    · exact this
  · rw [setTask_apply]
    split_ifs with e
    · subst e
      exact (hd hau).resolve_right fun hn => hu hn.1
    · exact hau

theorem Frame.inert {f : Mtask → Mtask} (hw : ∀ task, (f task).waitingLock = task.waitingLock)
    (hn : ∀ task, (f task).lockNext = task.lockNext)
    (hp : ∀ task, (f task).lockPrevious = task.lockPrevious)
    (hs : ∀ task, (f task).state = task.state) : Frame D k (k.setTask t f) :=
  Frame.write (hw _) (fun _ => ⟨hn _, hp _⟩) fun h => .inl (by simpa [Mtask.Alive, hs] using h)

theorem Frame.setState {f : Mtask → Mtask} (hw : ∀ task, (f task).waitingLock = task.waitingLock)
    (hn : ∀ task, (f task).lockNext = task.lockNext)
    (hp : ∀ task, (f task).lockPrevious = task.lockPrevious)
    (hs : (f (k.task t)).Alive ∨ ¬ (k.task t).Alive) : Frame D k (k.setTask t f) :=
  Frame.write (hw _) (fun _ => ⟨hn _, hp _⟩) fun h => .inl (hs.resolve_right fun hn => hn h)

theorem Frame.endTask {s : STATE} (ht : D t) (hw : (k.task t).waitingLock = none) :
    Frame D k (k.setTask t ({ · with state := s })) :=
  Frame.write rfl (fun _ => ⟨rfl, rfl⟩) fun _ => .inr ⟨ht, hw⟩

theorem Frame.taskSlotRelease (ht : D t ∨ ¬ (k.task t).Alive) (hw : (k.task t).waitingLock = none) :
    Frame D k (k.taskSlotRelease t) :=
  Frame.write (by simp [slotReset, hw]) (fun h => absurd hw h)
    fun h => .inr ⟨ht.resolve_right fun hn => hn h, hw⟩

theorem Frame.taskRun (k : Kernel) (t : Tid) : Frame D k (k.taskRun t) := by
  unfold Kernel.taskRun
  split
  case h_6 | h_7 =>
    exact Frame.setState (fun _ => rfl) (fun _ => rfl) (fun _ => rfl) (.inl (by simp [Mtask.Alive]))
  case h_8 => exact Frame.inert (fun _ => rfl) (fun _ => rfl) (fun _ => rfl) fun _ => rfl
  all_goals exact Frame.refl D k

@[simp] lemma taskRun_waitingLock (k : Kernel) (t u : Tid) :
    ((k.taskRun t).task u).waitingLock = (k.task u).waitingLock := by
  unfold Kernel.taskRun
  split
  case h_6 | h_7 | h_8 =>
    rw [setTask_field _ _ _ _ Mtask.waitingLock]
    split_ifs with hu <;> simp [hu]
  all_goals rfl

theorem Frame.taskFallBlockedReason {s : STATE} {reason : WaitReason}
    (hs : s = .waiting ∨ s = .sleeping) :
    Frame D k (k.taskFallBlockedReason t s reason).1 := by
  unfold Kernel.taskFallBlockedReason
  split <;> dsimp only
  · exact Frame.inert (fun _ => rfl) (fun _ => rfl) (fun _ => rfl) fun _ => rfl
  · exact Frame.setState (fun _ => rfl) (fun _ => rfl) (fun _ => rfl)
      (.inl (by rcases hs with rfl | rfl <;> simp [Mtask.Alive]))

@[simp] lemma taskFallBlockedReason_waitingLock (k : Kernel) (t u : Tid) (s : STATE)
    (reason : WaitReason) :
    ((k.taskFallBlockedReason t s reason).1.task u).waitingLock = (k.task u).waitingLock := by
  unfold Kernel.taskFallBlockedReason
  split <;> rw [setTask_field _ _ _ _ Mtask.waitingLock] <;> split_ifs with hu <;> simp [hu]

@[simp] lemma lockCancelTask_waitingLock (k : Kernel) (t : Tid) :
    ((k.lockCancelTask t).task t).waitingLock = none := by
  simp [Kernel.lockCancelTask, lockWaiterRemove_waitingLock]

theorem Frame.lockCancelTask (k : Kernel) (t : Tid) : Frame D k (k.lockCancelTask t) := by
  unfold Kernel.lockCancelTask
  have hal : ∀ u, ((k.lockWaiterRemove t).task u).Alive ↔ (k.task u).Alive := fun u => by
    simp [Mtask.Alive]
  have hw : ∀ u, ((k.lockWaiterRemove t).task u).waitingLock =
      if u = t then none else (k.task u).waitingLock := lockWaiterRemove_waitingLock k t
  refine ⟨lockWaiterRemove_value _ _, lockWaiterRemove_owner _ _,
    fun hq => ⟨fun key => ?_, fun u key h => ?_⟩, fun u => ?_, fun u _ => (hal u).mpr⟩
  · obtain ⟨l, hl⟩ := hq.queue key
    exact ⟨_, hl.lockWaiterRemove hq.queue⟩
  · rw [hw] at h
    split_ifs at h
    exact (hal u).mpr (hq.waiting u key h)
  · rw [hw]
    split_ifs
    · exact .inr rfl
    · exact .inl rfl

/-! ### Loops over the registry -/

/-- What every pass keeps, the loop keeps. -/
lemma forSlots_keeps {f : Kernel → Tid → Kernel} {P : Kernel → Prop} (hk : P k)
    (h : ∀ k' t, P k' → P (f k' t)) : P (k.forSlots f) := by
  have : ∀ l : List Tid, ∀ k', P k' → P (l.foldl f k') := by
    intro l
    induction l with
    | nil => exact fun _ h => h
    | cons t l ih => exact fun k' hk' => ih _ (h k' t hk')
  exact this _ k hk

theorem Frame.forSlots {f : Kernel → Tid → Kernel} (hq : k.Wf)
    (h : ∀ k' : Kernel, k'.Wf → ∀ t, Frame D k' (f k' t)) : Frame D k (k.forSlots f) :=
  forSlots_keeps (Frame.refl D k) fun k' t hk' => hk'.trans (h k' (hk'.wf hq) t)

theorem Frame.wakeChildWaiter (hq : k.Wf) : Frame D k (k.wakeChildWaiter t) := by
  unfold Kernel.wakeChildWaiter
  extract_lets _ owner
  split
  · exact Frame.refl D k
  · refine Frame.forSlots hq fun k' _ w => ?_
    dsimp only
    split
    · exact Frame.refl D k'
    · exact Frame.taskRun k' w

theorem Frame.reparentChildren {old new : ℕ} (hq : k.Wf) :
    Frame D k (k.reparentChildren old new) := by
  refine Frame.forSlots hq fun k' hk' c => ?_
  dsimp only
  split
  · exact Frame.refl D k'
  · set k₁ := k'.setTask c ({ · with ptid := new }) with hk₁
    set k₂ := k₁.forSlots fun k t =>
      if taskSlotInUse (k.task t) ∧ (k.task t).kind = .thread ∧
        (k.task t).tgid = (k'.task c).tgid then k.setTask t ({ · with ptid := new }) else k
    -- only parents change, so a dead child is dead past the loop
    let P (k : Kernel) : Prop := Frame D k' k ∧ (k.task c).state = (k'.task c).state
    have h₁ : P k₁ :=
      ⟨Frame.inert (fun _ => rfl) (fun _ => rfl) (fun _ => rfl) fun _ => rfl, by simp [hk₁]⟩
    obtain ⟨h₂, hstate⟩ : P k₂ := by
      refine forSlots_keeps h₁ fun k₃ t h₃ => ?_
      split
      · refine ⟨h₃.1.trans ?_, ?_⟩
        · exact Frame.inert (fun _ => rfl) (fun _ => rfl) (fun _ => rfl) fun _ => rfl
        · rw [setTask_field _ _ _ _ Mtask.state]
          split_ifs with e
          · rw [← e, h₃.2]
          · exact h₃.2
      · exact h₃
    split
    case isTrue hd =>
      have hdead : ¬ (k₂.task c).Alive := by simp [Mtask.Alive, hstate, hd.1]
      exact h₂.trans (Frame.taskSlotRelease (.inr hdead) ((h₂.wf hk').dead hdead))
    case isFalse => exact h₂

/-! ### Terminations -/

/-- A call that begins the end of tasks takes them out of the queues and ends none. -/
structure Begins (k : Kernel) (r : Kernel × List Call) : Prop where
  frame : Frame (fun _ => False) k r.1
  cancelled : ∀ t, r.2.any (·.releases t) → (r.1.task t).waitingLock = none

lemma Begins.of_frame (h : Frame (fun _ => False) k k') {calls : List Call}
    (hc : ∀ t, calls.any (·.releases t) = false) : Begins k (k', calls) :=
  ⟨h, fun t ht => by simp [hc t] at ht⟩

lemma Begins.trans (h : Frame (fun _ => False) k k') {r : Kernel × List Call} (h' : Begins k' r) :
    Begins k r := ⟨h.trans h'.frame, h'.cancelled⟩

lemma Begins.append {r : Kernel × List Call} (h : Begins k r) {calls : List Call}
    (hc : ∀ t, calls.any (·.releases t) = false) : Begins k (r.1, r.2 ++ calls) :=
  ⟨h.frame, fun t ht => h.cancelled t (by simpa [List.any_append, hc t] using ht)⟩

theorem Begins.finishPendingTask {status : ℕ} : Begins k (k.finishPendingTask t status) := by
  refine ⟨Frame.lockCancelTask k t, fun u hu => ?_⟩
  simp only [Kernel.finishPendingTask, Kernel.finishTask, List.any_cons, List.any_nil, Bool.or_false,
    Call.releases, beq_iff_eq] at hu
  subst hu
  exact lockCancelTask_waitingLock k t

theorem Begins.taskFinishPending : Begins k (k.taskFinishPending t) := by
  unfold Kernel.taskFinishPending
  extract_lets status k₁
  have h₁ : Frame (fun _ => False) k k₁ :=
    Frame.inert (fun _ => rfl) (fun _ => rfl) (fun _ => rfl) fun _ => rfl
  split
  · exact Begins.of_frame h₁ fun _ => rfl
  · exact Begins.trans h₁ Begins.finishPendingTask

theorem Begins.requestTaskTermination {status : ℕ} :
    Begins k (k.requestTaskTermination cur t status) := by
  unfold Kernel.requestTaskTermination
  extract_lets k₁
  have h₁ : Frame (fun _ => False) k k₁ :=
    Frame.inert (fun _ => rfl) (fun _ => rfl) (fun _ => rfl) fun _ => rfl
  split
  · exact Begins.of_frame h₁ fun _ => rfl
  · exact Begins.trans h₁ Begins.taskFinishPending

theorem Begins.terminateThread {tgid : ℕ} {except : Tid} (hq : k.Wf) :
    Begins k (k.terminateThread cur tgid except t) := by
  unfold Kernel.terminateThread
  extract_lets thread k₁
  have h₁ : Frame (fun _ => False) k k₁ :=
    Frame.inert (fun _ => rfl) (fun _ => rfl) (fun _ => rfl) fun _ => rfl
  split
  · exact Begins.of_frame (Frame.refl _ k) fun _ => rfl
  · split
    case isTrue hd =>
      have hd' : (k.task t).state = .died := hd
      have hdead : ¬ (k₁.task t).Alive := by simp [k₁, Mtask.Alive, hd']
      exact Begins.of_frame (h₁.trans (Frame.taskSlotRelease (.inr hdead) ((h₁.wf hq).dead hdead)))
        fun _ => rfl
    case isFalse => exact Begins.trans h₁ Begins.requestTaskTermination

theorem Begins.terminateThreadGroup {tgid : ℕ} {except next : Tid} (hq : k.Wf) :
    Begins k (k.terminateThreadGroup cur tgid except next) := by
  unfold Kernel.terminateThreadGroup
  split
  · exact (Begins.terminateThread hq).append fun _ => rfl
  · exact Begins.of_frame (Frame.refl _ k) fun _ => rfl

theorem Begins.groupTerminated {status : ℕ} (hq : k.Wf) : Begins k (k.groupTerminated t status) := by
  unfold Kernel.groupTerminated
  split
  · refine Begins.of_frame (Frame.setState ?_ ?_ ?_ (.inl ?_)) fun _ => rfl
    · exact fun _ => rfl
    · exact fun _ => rfl
    · exact fun _ => rfl
    · simp [Mtask.Alive]
  · exact Begins.trans (Frame.reparentChildren hq) Begins.finishPendingTask

theorem Begins.taskKill : Begins k (k.taskKill cur t) := by
  unfold Kernel.taskKill
  split
  · exact Begins.of_frame (Frame.refl _ k) fun _ => rfl
  · exact Begins.requestTaskTermination

theorem Begins.taskExit {status : ℕ} : Begins k (k.taskExit cur status) := by
  have h₁ : Frame (fun _ => False) k (k.setTask cur ({ · with terminateStatus := status })) :=
    Frame.inert (fun _ => rfl) (fun _ => rfl) (fun _ => rfl) fun _ => rfl
  exact Begins.trans h₁ Begins.taskFinishPending

theorem Begins.taskExitProcess {status : ℕ} : Begins k (k.taskExitProcess cur status) :=
  Begins.of_frame (Frame.refl _ k) fun _ => rfl

theorem Begins.exitLeader {status : ℕ} (hq : k.Wf) : Begins k (k.exitLeader cur status) := by
  unfold Kernel.exitLeader
  extract_lets leader k₁ r
  have h₁ : Frame (fun _ => False) k k₁ := Frame.reparentChildren hq
  refine Begins.append (Begins.trans h₁ ?_) fun _ => rfl
  simp only [r]
  split
  · exact Begins.requestTaskTermination
  · exact Begins.of_frame (Frame.refl _ k₁) fun _ => rfl

theorem Begins.taskNext : Begins k (k.taskNext cur) := by
  unfold Kernel.taskNext
  extract_lets k₁ r
  have h₁ : Frame (fun _ => False) k k₁ :=
    Frame.inert (fun _ => rfl) (fun _ => rfl) (fun _ => rfl) fun _ => rfl
  refine Begins.append (Begins.trans h₁ ?_) fun _ => rfl
  simp only [r]
  split
  · exact Begins.taskFinishPending
  · exact Begins.of_frame (Frame.refl _ k₁) fun _ => rfl

lemma Frame.taskLeft : Frame D k (k.taskLeft cur) := by
  unfold Kernel.taskLeft
  split
  case isTrue h =>
    exact Frame.setState (fun _ => rfl) (fun _ => rfl) (fun _ => rfl) (.inr (by simp [Mtask.Alive, h]))
  case isFalse => exact Frame.refl D k

/-- **The end of `finish_task`** ends its task, which waits for no lock. -/
theorem Frame.finishTaskEnd {status : ℕ} {waitable : Bool} (hq : k.Wf)
    (hw : (k.task t).waitingLock = none) :
    Frame (fun u => u = t) k (k.finishTaskEnd cur t status waitable) := by
  unfold Kernel.finishTaskEnd
  extract_lets k₁ k₂ k₃
  have h₁ : Frame (fun u => u = t) k k₁ :=
    Frame.inert (fun _ => rfl) (fun _ => rfl) (fun _ => rfl) fun _ => rfl
  have h₂ : Frame (fun u => u = t) k k₂ :=
    h₁.trans (Frame.inert (fun _ => rfl) (fun _ => rfl) (fun _ => rfl) fun _ => rfl)
  have h₃ : Frame (fun u => u = t) k k₃ := h₂.trans (Frame.wakeChildWaiter (h₂.wf hq))
  have hw₃ : (k₃.task t).waitingLock = none := h₃.waiting_none hw
  split_ifs
  · exact h₃.trans (Frame.endTask rfl hw₃)
  · exact h₃.trans (Frame.endTask rfl hw₃)
  · exact h₃.trans (Frame.taskSlotRelease (.inl rfl) hw₃)

/-- What a call that is not the end of a `finish_task` does -/
theorem Begins.run {call : Call} (hq : k.Wf) (h : ∀ t, call.releases t = false) :
    Begins k (k.run cur call) := by
  cases call with
  | terminateThreadGroup => exact Begins.terminateThreadGroup hq
  | groupTerminated => exact Begins.groupTerminated hq
  | released t => simpa [Call.releases] using h t
  | exitLeader => exact Begins.exitLeader hq
  | exitSelf => exact Begins.taskExit
  | left => exact Begins.of_frame Frame.taskLeft fun _ => rfl

end Kernel

/-! ## The tasks and their locks as a step system -/

open Function (update)

/-- Whether a task is inside a call of `lock`. -/
inductive Pc
  | run | inLock (key : LockId)
  deriving DecidableEq, Repr

structure Sys where
  kernel : Kernel
  /-- The task is the current one of a CPU. -/
  current : Tid → Bool
  /-- what the task has still to do of the terminations it is in -/
  script : Tid → List Call
  pc : Tid → Pc
  /-- The task is between a returned `lock` and its `unlock`. -/
  between : Tid → LockId → Bool
  /-- `unlock` has removed the task from the queue of this lock and woken it, and the task has not tested
  the lock since. -/
  dequeued : Tid → LockId → Bool

def taskSlotChunkSize : ℕ := 64

inductive Event
  /-- `task_slot_claim` and what `create_task` writes to the slot -/
  | create (t : Tid) (kind : TaskKind) (tgid ptid : ℕ) (joinable : Bool)
  | publish (t : Tid)
  | abortCreation (t : Tid)
  | registryGrow
  /-- the scheduler puts the task on a CPU -/
  | dispatch (t : Tid)
  /-- `task_next` of the task -/
  | switch (t : Tid)
  /-- `arch_task_switch` to another task -/
  | leave (t : Tid)
  /-- a test of the lock: the call of `lock`, or its next pass in a task that is back on a CPU -/
  | lock (t : Tid) (key : LockId)
  | unlock (t : Tid) (key : LockId)
  /-- `task_fall_blocked_reason` for something that is not a lock: disk I/O, a child, a timer -/
  | block (t : Tid) (reason : WaitReason)
  /-- `task_run` by an interrupt or by another task -/
  | wake (t : Tid)
  | kill (cur t : Tid)
  | exit (cur : Tid) (status : ℕ)
  | exitProcess (cur : Tid) (status : ℕ)
  /-- the scheduler of the CPU of `cur` meets a task off its CPU whose end is requested -/
  | reap (cur t : Tid)
  /-- the task goes on with a termination -/
  | goOn (cur : Tid)
  /-- the slot of a finished task is released: by its parent, or once its stack is left -/
  | release (t : Tid)
  | detach (t : Tid)
  deriving DecidableEq, Repr

namespace Sys

/-- The code of `t` goes on: on its CPU, or inside of `task_next` in a termination. -/
def Executes (s : Sys) (t : Tid) : Prop :=
  s.current t ∧ ((s.kernel.task t).onCpu ∨ s.script t ≠ [])

instance (s : Sys) (t : Tid) : Decidable (s.Executes t) := by unfold Executes; infer_instance

/-- The task `c` is inside of `finish_task` of `t`, past the cancellations. -/
def Releases (s : Sys) (c t : Tid) : Prop := (s.script c).any (·.releases t)

def setFlag (f : Tid → LockId → Bool) (t : Tid) (key : LockId) (b : Bool) : Tid → LockId → Bool :=
  update f t (update (f t) key b)

/-- `t` tests `key`. -/
def testLock (s : Sys) (t : Tid) (key : LockId) : Sys :=
  match s.kernel.lockPass t key with
  | (k, true) =>
    { s with
      kernel := k
      pc := update s.pc t .run
      between := setFlag s.between t key true
      dequeued := setFlag s.dequeued t key false }
  | (k, false) =>
    { s with
      kernel := k
      pc := update s.pc t (.inLock key)
      dequeued := setFlag s.dequeued t key false }

/-- The task that `unlock` of `t` wakes. -/
def wakes (s : Sys) (t : Tid) (key : LockId) : Option Tid :=
  if (s.kernel.lock key).owner = some t then (s.kernel.lock key).waiter else none

/-- `t` unlocks `key`. -/
def releaseLock (s : Sys) (t : Tid) (key : LockId) : Sys :=
  { s with
    kernel := s.kernel.unlock t key
    between := setFlag s.between t key false
    dequeued := match s.wakes t key with
      | some w => setFlag s.dequeued w key true
      | none => s.dequeued }

/-- A published task starts outside of `lock`. -/
def start (s : Sys) (t : Tid) : Sys where
  kernel := s.kernel.taskPublish t
  current := update s.current t false
  script := update s.script t []
  pc := update s.pc t .run
  between := update s.between t fun _ => false
  dequeued := update s.dequeued t fun _ => false

def withKernel (s : Sys) (k : Kernel) : Sys := { s with kernel := k }

/-- `c` is at the calls of `r`. A call of `lock` that it was in does not go on once its own end has
begun. -/
def push (s : Sys) (c : Tid) (r : Kernel × List Call) : Sys :=
  { s with
    kernel := r.1
    script := update s.script c (r.2 ++ s.script c)
    pc := if r.2.any (·.releases c) then update s.pc c .run else s.pc }

/-- What the slot `t` has for the task that `create_task` makes. -/
def claim (k : Kernel) (t : Tid) (kind : TaskKind) (tgid ptid : ℕ) (joinable : Bool) : Kernel :=
  (k.taskSlotClaim t).setTask t
    ({ · with kind := kind, tgid := tgid, ptid := ptid, joinable := joinable, addressSpace := true })

/-- `task_detach_thread`, past its checks -/
def detachThread (k : Kernel) (t : Tid) : Kernel :=
  let k := k.setTask t ({ · with joinable := false })
  if (k.task t).state = .died then k.taskSlotRelease t else k

def step (s : Sys) : Event → Option Sys
  | .create t kind tgid ptid joinable =>
    if (s.kernel.task t).state = .empty ∧ t < s.kernel.slotCount then
      some (s.withKernel (claim s.kernel t kind tgid ptid joinable))
    else none
  | .publish t => if (s.kernel.task t).state = .allocating then some (s.start t) else none
  | .abortCreation t =>
    if (s.kernel.task t).state = .allocating then
      some (s.withKernel ((s.kernel.taskReleaseResources t).taskSlotRelease t))
    else none
  | .registryGrow =>
    some (s.withKernel { s.kernel with slotCount := s.kernel.slotCount + taskSlotChunkSize })
  | .dispatch t =>
    let task := s.kernel.task t
    if task.state = .running ∧ !task.terminatePending ∧ !task.onCpu then
      some { s with
        kernel := s.kernel.setTask t ({ · with onCpu := true, ready := false })
        current := update s.current t true }
    else none
  | .switch t => if s.Executes t then some (s.push t (s.kernel.taskNext t)) else none
  | .leave t =>
    if s.current t ∧ !(s.kernel.task t).onCpu then
      some { s with current := update s.current t false }
    else none
  -- a call of `lock` that a requested end has cut off may be the place of another one
  | .lock t key =>
    if s.Executes t ∧ (s.pc t = .run ∨ s.pc t = .inLock key ∨ s.script t ≠ []) then
      some (s.testLock t key)
    else none
  | .unlock t key =>
    if s.Executes t ∧ (s.pc t = .run ∨ s.script t ≠ []) then some (s.releaseLock t key) else none
  | .block t reason =>
    if s.Executes t ∧ (s.pc t = .run ∨ s.script t ≠ []) ∧ reason ≠ .lock then
      some (s.withKernel (s.kernel.taskFallBlockedReason t .waiting reason).1)
    else none
  | .wake t => some (s.withKernel (s.kernel.taskRun t))
  | .kill cur t => if s.Executes cur then some (s.push cur (s.kernel.taskKill cur t)) else none
  | .exit cur status =>
    if s.Executes cur then some (s.push cur (s.kernel.taskExit cur status)) else none
  | .exitProcess cur status =>
    if s.Executes cur then some (s.push cur (s.kernel.taskExitProcess cur status)) else none
  | .reap cur t =>
    let task := s.kernel.task t
    if s.current cur ∧ task.terminatePending ∧ !task.onCpu ∧ t ≠ cur then
      some (s.push cur (s.kernel.taskFinishPending t))
    else none
  | .goOn cur =>
    match s.script cur with
    | [] => none
    | call :: script =>
      if s.current cur ∧ (call.releases cur → s.pc cur = .run) then
        some ({ s with script := update s.script cur script }.push cur (s.kernel.run cur call))
      else none
  | .release t =>
    if (s.kernel.task t).state = .died ∨ (s.kernel.task t).state = .ready then
      some (s.withKernel (s.kernel.taskSlotRelease t))
    else none
  | .detach t =>
    if taskSlotInUse (s.kernel.task t) then some (s.withKernel (detachThread s.kernel t)) else none

structure Init (s : Sys) : Prop where
  lock : ∀ key, s.kernel.lock key = lockInit
  waiting : ∀ t, (s.kernel.task t).waitingLock = none
  script : ∀ t, s.script t = []
  between : ∀ t key, s.between t key = false

/-- The step is the end of `finish_task` of `t`. -/
def Ends (s : Sys) (e : Event) (t : Tid) : Prop :=
  ∃ cur call script, e = .goOn cur ∧ s.script cur = call :: script ∧ call.releases t

end Sys

def system : Lib.System Sys Event := ⟨Sys.Init, Sys.step⟩

end PlantOS.Task
