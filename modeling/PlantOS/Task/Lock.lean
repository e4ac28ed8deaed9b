import PlantOS.Lib.IntrusiveQueue

/-!
# Tasks, sleeping locks and the kernel state

The part of `mtask`, `lock_t` and the task registry that the sleeping lock and the termination of
tasks read and write. A task is named by its slot in the registry, which is also its `tid`.
-/

namespace PlantOS.Task

abbrev Tid := ℕ

/-- The name of a `lock_t`. -/
abbrev LockId := ℕ

/-- `enum STATE` -/
inductive STATE
  | empty | running | waiting | sleeping | willEmpty | ready | allocating | died
  deriving DecidableEq, Repr

/-- `enum TASK_KIND` -/
inductive TaskKind
  | process | thread
  deriving DecidableEq, Repr

/-- `enum WAIT_REASON`, as far as the modelled code tells the reasons apart: `other` are the reasons
of the waits outside this model. -/
inductive WaitReason
  | none | child | lock | other
  deriving DecidableEq, Repr

def taskIdNone : ℕ := 0xffffffff

def reaperTid : ℕ := 0

def taskKilledStatus : ℕ := 0xffffffff

structure Mtask where
  state : STATE
  kind : TaskKind
  tgid : ℕ
  ptid : ℕ
  generation : ℕ
  joinable : Bool
  onCpu : Bool
  /-- whether `address_space` is not 0 -/
  addressSpace : Bool
  waitReason : WaitReason
  waittid : ℕ
  waitGeneration : ℕ
  ready : Bool
  status : ℕ
  terminateStatus : ℕ
  terminatePending : Bool
  waitingLock : Option LockId
  lockNext : Option Tid
  lockPrevious : Option Tid
  deriving DecidableEq, Repr

/-- `LOCK_UNLOCKED` and `LOCK_LOCKED` -/
inductive LockValue
  | unlocked | locked
  deriving DecidableEq, Repr

structure LockT where
  owner : Option Tid
  value : LockValue
  waiter : Option Tid
  waiterTail : Option Tid
  deriving DecidableEq, Repr

def lockInit : LockT := ⟨none, .unlocked, none, none⟩

structure Kernel where
  slotCount : ℕ
  task : Tid → Mtask
  lock : LockId → LockT

namespace Kernel

/-- Write to the task `t`. -/
def setTask (k : Kernel) (t : Tid) (f : Mtask → Mtask) : Kernel :=
  { k with task := Function.update k.task t (f (k.task t)) }

/-- Write to the lock `key`. -/
def setLock (k : Kernel) (key : LockId) (f : LockT → LockT) : Kernel :=
  { k with lock := Function.update k.lock key (f (k.lock key)) }

variable (k : Kernel) (t u : Tid) (key key' : LockId) (f : Mtask → Mtask) (g : LockT → LockT)

@[simp] lemma setTask_lock : (k.setTask t f).lock = k.lock := rfl
@[simp] lemma setTask_self : (k.setTask t f).task t = f (k.task t) := by simp [setTask]
@[simp] lemma setLock_task : (k.setLock key g).task = k.task := rfl
@[simp] lemma setLock_self : (k.setLock key g).lock key = g (k.lock key) := by simp [setLock]

lemma setTask_apply : (k.setTask t f).task u = if u = t then f (k.task t) else k.task u := by
  simp [setTask, Function.update_apply]

lemma setLock_apply :
    (k.setLock key g).lock key' = if key' = key then g (k.lock key) else k.lock key' := by
  simp [setLock, Function.update_apply]

lemma setTask_field {β : Type*} (P : Mtask → β) :
    P ((k.setTask t f).task u) = if u = t then P (f (k.task t)) else P (k.task u) := by
  rw [setTask_apply, apply_ite P]

lemma setLock_field {β : Type*} (P : LockT → β) :
    P ((k.setLock key g).lock key') = if key' = key then P (g (k.lock key)) else P (k.lock key') := by
  rw [setLock_apply, apply_ite P]

variable {k t u key key' f g}

@[simp] lemma setLock_of_ne (h : key' ≠ key) : (k.setLock key g).lock key' = k.lock key' := by
  rw [setLock_apply, if_neg h]

end Kernel

def taskSlotInUse (task : Mtask) : Bool :=
  task.state != .empty && task.state != .willEmpty && task.state != .ready && task.state != .allocating

/-- A task that runs or waits: it is in use and not a zombie. -/
def Mtask.Alive (task : Mtask) : Prop :=
  task.state = .running ∨ task.state = .waiting ∨ task.state = .sleeping

instance (task : Mtask) : Decidable task.Alive := by unfold Mtask.Alive; infer_instance

/-! ## The sleeping lock and the scheduler calls under it -/

namespace Kernel

/-- The successor of the node `o`, or the head of the queue of `key` where there is no node. -/
def storeNext (k : Kernel) (key : LockId) (o v : Option Tid) : Kernel :=
  match o with
  | some p => k.setTask p ({ · with lockNext := v })
  | none => k.setLock key ({ · with waiter := v })

/-- The predecessor of the node `o`, or the tail of the queue of `key` where there is no node. -/
def storePrevious (k : Kernel) (key : LockId) (o v : Option Tid) : Kernel :=
  match o with
  | some n => k.setTask n ({ · with lockPrevious := v })
  | none => k.setLock key ({ · with waiterTail := v })

def lockWaiterRemove (k : Kernel) (t : Tid) : Kernel :=
  match (k.task t).waitingLock with
  | none => k
  | some key =>
    let k := k.storeNext key (k.task t).lockPrevious (k.task t).lockNext
    let k := k.storePrevious key (k.task t).lockNext (k.task t).lockPrevious
    k.setTask t ({ · with waitingLock := none, lockNext := none, lockPrevious := none })

def lockWaiterAdd (k : Kernel) (key : LockId) (t : Tid) : Kernel :=
  if (k.task t).waitingLock = some key then k
  else
    let k := if (k.task t).waitingLock.isSome then k.lockWaiterRemove t else k
    let tail := (k.lock key).waiterTail
    let k := k.setTask t
      ({ · with waitingLock := some key, lockNext := none, lockPrevious := tail })
    let k := k.storeNext key tail (some t)
    k.setLock key ({ · with waiterTail := some t })

def lockCancelTask (k : Kernel) (t : Tid) : Kernel := k.lockWaiterRemove t

def taskRun (k : Kernel) (t : Tid) : Kernel :=
  match (k.task t).state with
  | .empty | .willEmpty | .ready | .allocating | .died => k
  | .waiting | .sleeping =>
    k.setTask t ({ · with state := .running, waitReason := .none, ready := false })
  | .running => k.setTask t ({ · with ready := true })

/-- `task_fall_blocked_reason` up to its `task_next`; the second component says whether the task is
to leave its CPU. -/
def taskFallBlockedReason (k : Kernel) (cur : Tid) (state : STATE) (reason : WaitReason) :
    Kernel × Bool :=
  if (k.task cur).ready then
    (k.setTask cur ({ · with ready := false, waitReason := .none }), false)
  else
    (k.setTask cur ({ · with state := state, waitReason := reason, ready := false }), true)

/-- One pass of the loop of `lock`: the test of `value` and what follows it. The second component
says whether the task has the lock. -/
def lockPass (k : Kernel) (self : Tid) (key : LockId) : Kernel × Bool :=
  if (k.lock key).value = .unlocked then
    ((k.lockWaiterRemove self).setLock key ({ · with value := .locked, owner := some self }), true)
  else
    (((k.lockWaiterAdd key self).taskFallBlockedReason self .waiting .lock).1, false)

/-- `unlock` up to the `task_next` that follows the wakeup -/
def unlock (k : Kernel) (self : Tid) (key : LockId) : Kernel :=
  if (k.lock key).owner ≠ some self then k
  else
    let k := k.setLock key ({ · with value := .unlocked, owner := none })
    match (k.lock key).waiter with
    | none => k
    | some w => (k.lockWaiterRemove w).taskRun w

end Kernel

/-! ## The waiter queue of a lock -/

open Lib.IntrusiveQueue

namespace Kernel

def links (k : Kernel) : Links Tid := ⟨fun t => (k.task t).lockNext, fun t => (k.task t).lockPrevious⟩

/-- The two ends of the queue of `key`. -/
def ends (k : Kernel) (key : LockId) : Ends Tid := ⟨(k.lock key).waiter, (k.lock key).waiterTail⟩

/-- The waiters of `key` are the list `l`. -/
def Waiters (k : Kernel) (key : LockId) (l : List Tid) : Prop :=
  IsQueue k.links (k.ends key) l ∧ ∀ t, t ∈ l ↔ (k.task t).waitingLock = some key

/-- **The invariant of the kernel state**: every lock has the queue of the tasks that name it, and the
tasks that wait for a lock are alive. -/
structure Wf (k : Kernel) : Prop where
  queue : ∀ key, ∃ l, k.Waiters key l
  waiting : ∀ t key, (k.task t).waitingLock = some key → (k.task t).Alive

lemma Waiters.congr {k k' : Kernel} {key : LockId} {l : List Tid} (h : k.Waiters key l)
    (hl : k'.ends key = k.ends key)
    (hw : ∀ t, (k'.task t).waitingLock = (k.task t).waitingLock)
    (hn : ∀ t ∈ l, (k'.task t).lockNext = (k.task t).lockNext)
    (hp : ∀ t ∈ l, (k'.task t).lockPrevious = (k.task t).lockPrevious) : k'.Waiters key l := by
  refine ⟨?_, fun t => by rw [hw, h.2]⟩
  rw [hl]
  exact h.1.congr hn hp

lemma Waiters.not_mem {k : Kernel} {key : LockId} {l : List Tid} {t : Tid} (hl : k.Waiters key l)
    (ht : (k.task t).waitingLock ≠ some key) : t ∉ l := fun h => ht ((hl.2 t).mp h)

lemma Wf.setLock {k : Kernel} {key : LockId} {f : LockT → LockT} (h : k.Wf)
    (hw : (f (k.lock key)).waiter = (k.lock key).waiter)
    (ht : (f (k.lock key)).waiterTail = (k.lock key).waiterTail) : (k.setLock key f).Wf := by
  refine ⟨fun key' => ?_, h.waiting⟩
  obtain ⟨l, hl⟩ := h.queue key'
  refine ⟨l, hl.congr ?_ (fun _ => rfl) (fun _ _ => rfl) fun _ _ => rfl⟩
  unfold ends
  rw [setLock_field _ _ _ _ LockT.waiter, setLock_field _ _ _ _ LockT.waiterTail]
  split_ifs with e
  · rw [hw, ht, e]
  · rfl

/-! ### `lockWaiterRemove` and `lockWaiterAdd` are the queue operations -/

section Stores

variable (k : Kernel) (key key' : LockId) (o v : Option Tid) (u : Tid)

lemma storeNext_links : (k.storeNext key o v).links = (setNext k.links (k.ends key) o v).1 := by
  cases o with
  | none => rfl
  | some p =>
    ext1 <;> funext u <;> simp only [storeNext, setNext, links, setTask_field _ _ _ _ Mtask.lockNext,
      setTask_field _ _ _ _ Mtask.lockPrevious, Function.update_apply]
    split_ifs with h <;> simp [h]

lemma storeNext_ends : (k.storeNext key o v).ends key = (setNext k.links (k.ends key) o v).2 := by
  cases o <;> simp [storeNext, setNext, ends]

lemma storePrevious_links :
    (k.storePrevious key o v).links = (setPrev k.links (k.ends key) o v).1 := by
  cases o with
  | none => rfl
  | some p =>
    ext1 <;> funext u <;> simp only [storePrevious, setPrev, links,
      setTask_field _ _ _ _ Mtask.lockNext, setTask_field _ _ _ _ Mtask.lockPrevious,
      Function.update_apply]
    split_ifs with h <;> simp [h]

lemma storePrevious_ends :
    (k.storePrevious key o v).ends key = (setPrev k.links (k.ends key) o v).2 := by
  cases o <;> simp [storePrevious, setPrev, ends]

lemma storeNext_field {β : Type*} (P : Mtask → β)
    (hP : ∀ task v, P { task with lockNext := v } = P task) :
    P ((k.storeNext key o v).task u) = P (k.task u) := by
  cases o with
  | none => rfl
  | some p =>
    simp only [storeNext, setTask_field _ _ _ _ P]
    split_ifs with h
    · rw [hP, h]
    · rfl

lemma storePrevious_field {β : Type*} (P : Mtask → β)
    (hP : ∀ task v, P { task with lockPrevious := v } = P task) :
    P ((k.storePrevious key o v).task u) = P (k.task u) := by
  cases o with
  | none => rfl
  | some p =>
    simp only [storePrevious, setTask_field _ _ _ _ P]
    split_ifs with h
    · rw [hP, h]
    · rfl

/-- A store to the queue of `key` writes no field of a lock but the two ends of that queue. -/
lemma storeNext_lockField {β : Type*} (P : LockT → β)
    (hP : key' = key → ∀ lock v, P { lock with waiter := v } = P lock) :
    P ((k.storeNext key o v).lock key') = P (k.lock key') := by
  cases o with
  | none =>
    simp only [storeNext, setLock_field _ _ _ _ P]
    split_ifs with h
    · rw [hP h, h]
    · rfl
  | some p => rfl

lemma storePrevious_lockField {β : Type*} (P : LockT → β)
    (hP : key' = key → ∀ lock v, P { lock with waiterTail := v } = P lock) :
    P ((k.storePrevious key o v).lock key') = P (k.lock key') := by
  cases o with
  | none =>
    simp only [storePrevious, setLock_field _ _ _ _ P]
    split_ifs with h
    · rw [hP h, h]
    · rfl
  | some p => rfl

end Stores

section Remove

variable {k : Kernel} {t : Tid} {key : LockId}

/-- The kernel after the two stores of `lockWaiterRemove`. -/
private def unlinked (k : Kernel) (key : LockId) (t : Tid) : Kernel :=
  let k := k.storeNext key (k.links.prev t) (k.links.next t)
  k.storePrevious key (k.links.next t) (k.links.prev t)

private lemma unlinked_links (k : Kernel) (key : LockId) (t : Tid) :
    (k.unlinked key t).links = (setPrev (setNext k.links (k.ends key) (k.links.prev t)
      (k.links.next t)).1 (setNext k.links (k.ends key) (k.links.prev t) (k.links.next t)).2
      ((setNext k.links (k.ends key) (k.links.prev t) (k.links.next t)).1.next t)
      ((setNext k.links (k.ends key) (k.links.prev t) (k.links.next t)).1.prev t)).1 := by
  unfold unlinked
  rw [storePrevious_links, storeNext_links, storeNext_ends]

private lemma unlinked_ends (k : Kernel) (key : LockId) (t : Tid) :
    (k.unlinked key t).ends key = (remove k.links (k.ends key) t).2 := by
  unfold unlinked remove
  rw [storePrevious_ends, storeNext_links, storeNext_ends]

lemma lockWaiterRemove_of_none (h : (k.task t).waitingLock = none) : k.lockWaiterRemove t = k := by
  simp [lockWaiterRemove, h]

lemma lockWaiterRemove_of_some (h : (k.task t).waitingLock = some key) :
    k.lockWaiterRemove t = (k.unlinked key t).setTask t
      ({ · with waitingLock := none, lockNext := none, lockPrevious := none }) := by
  simp only [lockWaiterRemove, h]
  rfl

lemma lockWaiterRemove_links (h : (k.task t).waitingLock = some key) :
    (k.lockWaiterRemove t).links = (remove k.links (k.ends key) t).1 := by
  have hl := k.unlinked_links key t
  rw [lockWaiterRemove_of_some h, remove]
  ext1 <;> funext u <;> simp only [Function.update_apply, ← hl] <;>
    simp only [links, setTask_field _ _ _ _ Mtask.lockNext, setTask_field _ _ _ _ Mtask.lockPrevious]

lemma lockWaiterRemove_ends (h : (k.task t).waitingLock = some key) :
    (k.lockWaiterRemove t).ends key = (remove k.links (k.ends key) t).2 := by
  rw [lockWaiterRemove_of_some h, ← k.unlinked_ends key t]
  rfl

lemma lockWaiterRemove_field {β : Type*} (P : Mtask → β)
    (hP : ∀ task w n p, P { task with waitingLock := w, lockNext := n, lockPrevious := p } = P task)
    (k : Kernel) (t u : Tid) : P ((k.lockWaiterRemove t).task u) = P (k.task u) := by
  cases h : (k.task t).waitingLock with
  | none => rw [lockWaiterRemove_of_none h]
  | some key =>
    have hU : ∀ u, P ((k.unlinked key t).task u) = P (k.task u) := fun u => by
      unfold unlinked
      rw [storePrevious_field _ _ _ _ _ P fun task v => hP task _ _ _,
        storeNext_field _ _ _ _ _ P fun task v => hP task _ _ _]
    rw [lockWaiterRemove_of_some h, setTask_field _ _ _ _ P]
    split_ifs with hu
    · rw [hP, hU, hu]
    · exact hU u

lemma lockWaiterRemove_waitingLock (k : Kernel) (t u : Tid) :
    ((k.lockWaiterRemove t).task u).waitingLock = if u = t then none else (k.task u).waitingLock := by
  cases h : (k.task t).waitingLock with
  | none =>
    rw [lockWaiterRemove_of_none h]
    split_ifs with hu <;> simp_all
  | some key =>
    rw [lockWaiterRemove_of_some h, setTask_field _ _ _ _ Mtask.waitingLock]
    split_ifs with hu
    · rfl
    · unfold unlinked
      rw [storePrevious_field _ _ _ _ _ Mtask.waitingLock fun _ _ => rfl,
        storeNext_field _ _ _ _ _ Mtask.waitingLock fun _ _ => rfl]

lemma lockWaiterRemove_lockField {β : Type*} (P : LockT → β) (key' : LockId)
    (hP : (k.task t).waitingLock = some key' →
      ∀ lock v w, P { lock with waiter := v, waiterTail := w } = P lock) :
    P ((k.lockWaiterRemove t).lock key') = P (k.lock key') := by
  cases h : (k.task t).waitingLock with
  | none => rw [lockWaiterRemove_of_none h]
  | some key =>
    rw [lockWaiterRemove_of_some h, setTask_lock]
    unfold unlinked
    rw [storePrevious_lockField _ _ _ _ _ P fun e lock v => hP (by rw [h, e]) lock _ v,
      storeNext_lockField _ _ _ _ _ P fun e lock v => hP (by rw [h, e]) lock v _]

@[simp] lemma lockWaiterRemove_value (k : Kernel) (t : Tid) (key : LockId) :
    ((k.lockWaiterRemove t).lock key).value = (k.lock key).value :=
  lockWaiterRemove_lockField _ _ fun _ _ _ _ => rfl

@[simp] lemma lockWaiterRemove_owner (k : Kernel) (t : Tid) (key : LockId) :
    ((k.lockWaiterRemove t).lock key).owner = (k.lock key).owner :=
  lockWaiterRemove_lockField _ _ fun _ _ _ _ => rfl

@[simp] lemma lockWaiterRemove_state (k : Kernel) (t u : Tid) :
    ((k.lockWaiterRemove t).task u).state = (k.task u).state :=
  lockWaiterRemove_field _ (fun _ _ _ _ => rfl) _ _ _

lemma lockWaiterRemove_ends_of_ne {key' : LockId} (h : (k.task t).waitingLock = some key)
    (hk : key' ≠ key) : (k.lockWaiterRemove t).ends key' = k.ends key' := by
  unfold ends
  rw [lockWaiterRemove_lockField LockT.waiter, lockWaiterRemove_lockField LockT.waiterTail]
  all_goals
    intro e
    rw [h] at e
    exact absurd (Option.some.inj e).symm hk

theorem Waiters.lockWaiterRemove {l : List Tid} (hq : ∀ key, ∃ l, k.Waiters key l)
    (hl : k.Waiters key l) :
    (k.lockWaiterRemove t).Waiters key (l.erase t) := by
  have hmem : ∀ u, u ∈ l.erase t ↔ ((k.lockWaiterRemove t).task u).waitingLock = some key := by
    intro u
    rw [hl.1.nodup.mem_erase_iff, lockWaiterRemove_waitingLock, hl.2]
    split_ifs with hu <;> simp [hu]
  refine ⟨?_, hmem⟩
  cases h : (k.task t).waitingLock with
  | none =>
    have ht : t ∉ l := hl.not_mem (by simp [h])
    rw [lockWaiterRemove_of_none h, List.erase_of_not_mem ht]
    exact hl.1
  | some key₀ =>
    rw [lockWaiterRemove_links h]
    by_cases hk : key = key₀
    · subst hk
      obtain ⟨a, b, rfl⟩ := List.append_of_mem ((hl.2 t).mpr h)
      have ha : t ∉ a := fun ha => (List.disjoint_of_nodup_append hl.1.nodup) ha (by simp)
      rw [lockWaiterRemove_ends h, List.erase_append_right _ ha, List.erase_cons_head]
      exact hl.1.remove
    · -- another queue: the node and its neighbours are not in it
      have ht : t ∉ l := hl.not_mem fun e => hk (Option.some.inj (e.symm.trans h))
      rw [lockWaiterRemove_ends_of_ne h hk, List.erase_of_not_mem ht]
      obtain ⟨l₀, hl₀⟩ := hq key₀
      obtain ⟨a, b, rfl⟩ := List.append_of_mem ((hl₀.2 t).mpr h)
      have hfr : ∀ u ∈ l, u ∉ a ++ t :: b := fun u hu hu₀ =>
        hk (Option.some.inj (((hl.2 u).mp hu).symm.trans ((hl₀.2 u).mp hu₀)))
      exact hl.1.congr (fun u hu => (hl₀.1.remove_frame (hfr u hu)).1)
        (fun u hu => (hl₀.1.remove_frame (hfr u hu)).2)

end Remove

section Add

variable {k : Kernel} {t : Tid} {key : LockId}

/-- `lockWaiterAdd` to the tail of the queue of `key`, once the task is in no queue. -/
private def enqueued (k : Kernel) (key : LockId) (t : Tid) : Kernel :=
  let tail := (k.lock key).waiterTail
  let k := k.setTask t ({ · with waitingLock := some key, lockNext := none, lockPrevious := tail })
  (k.storeNext key tail (some t)).setLock key ({ · with waiterTail := some t })

lemma lockWaiterAdd_of_eq (h : (k.task t).waitingLock = some key) : k.lockWaiterAdd key t = k := by
  simp [lockWaiterAdd, h]

lemma lockWaiterAdd_of_ne (h : (k.task t).waitingLock ≠ some key) :
    k.lockWaiterAdd key t = (k.lockWaiterRemove t).enqueued key t := by
  unfold lockWaiterAdd
  rw [if_neg h]
  cases hw : (k.task t).waitingLock with
  | none =>
    rw [lockWaiterRemove_of_none hw, if_neg (by simp)]
    rfl
  | some _ =>
    rw [if_pos (by simp)]
    rfl

private lemma enqueued_links (k : Kernel) (key : LockId) (t : Tid) :
    (k.enqueued key t).links = (pushBack k.links (k.ends key) t).1 := by
  have h : ∀ p, (k.setTask t
      ({ · with waitingLock := some key, lockNext := none, lockPrevious := p })).links =
      ⟨Function.update k.links.next t none, Function.update k.links.prev t p⟩ := by
    intro p
    ext1 <;> funext u <;> simp only [links, setTask_field _ _ _ _ Mtask.lockNext,
      setTask_field _ _ _ _ Mtask.lockPrevious, Function.update_apply]
  unfold enqueued pushBack
  rw [← h]
  exact storeNext_links _ _ _ _

private lemma enqueued_ends (k : Kernel) (key : LockId) (t : Tid) :
    (k.enqueued key t).ends key = (pushBack k.links (k.ends key) t).2 := by
  unfold enqueued ends pushBack
  cases h : (k.lock key).waiterTail <;> simp [storeNext, setNext]

lemma lockWaiterAdd_field {β : Type*} (P : Mtask → β)
    (hP : ∀ task w n p, P { task with waitingLock := w, lockNext := n, lockPrevious := p } = P task)
    (k : Kernel) (key : LockId) (t u : Tid) : P ((k.lockWaiterAdd key t).task u) = P (k.task u) := by
  by_cases h : (k.task t).waitingLock = some key
  · rw [lockWaiterAdd_of_eq h]
  · rw [lockWaiterAdd_of_ne h, ← lockWaiterRemove_field P hP k t u]
    unfold enqueued
    rw [setLock_task, storeNext_field _ _ _ _ _ P fun task v => hP task _ _ _, setTask_field _ _ _ _ P]
    split_ifs with hu
    · rw [hP, hu]
    · rfl

lemma lockWaiterAdd_waitingLock (k : Kernel) (key : LockId) (t u : Tid) :
    ((k.lockWaiterAdd key t).task u).waitingLock = if u = t then some key else (k.task u).waitingLock := by
  by_cases h : (k.task t).waitingLock = some key
  · rw [lockWaiterAdd_of_eq h]
    split_ifs with hu <;> simp_all
  · rw [lockWaiterAdd_of_ne h]
    unfold enqueued
    rw [setLock_task, storeNext_field _ _ _ _ _ Mtask.waitingLock fun _ _ => rfl,
      setTask_field _ _ _ _ Mtask.waitingLock, lockWaiterRemove_waitingLock]
    split_ifs <;> rfl

@[simp] lemma lockWaiterAdd_value (k : Kernel) (key key' : LockId) (t : Tid) :
    ((k.lockWaiterAdd key t).lock key').value = (k.lock key').value := by
  by_cases h : (k.task t).waitingLock = some key
  · rw [lockWaiterAdd_of_eq h]
  · rw [lockWaiterAdd_of_ne h, ← lockWaiterRemove_value k t key']
    unfold enqueued
    rw [setLock_field _ _ _ _ LockT.value, storeNext_lockField _ _ _ _ _ LockT.value fun _ _ _ => rfl,
      storeNext_lockField _ _ _ _ _ LockT.value fun _ _ _ => rfl]
    split_ifs with hk <;> simp [hk]

@[simp] lemma lockWaiterAdd_owner (k : Kernel) (key key' : LockId) (t : Tid) :
    ((k.lockWaiterAdd key t).lock key').owner = (k.lock key').owner := by
  by_cases h : (k.task t).waitingLock = some key
  · rw [lockWaiterAdd_of_eq h]
  · rw [lockWaiterAdd_of_ne h, ← lockWaiterRemove_owner k t key']
    unfold enqueued
    rw [setLock_field _ _ _ _ LockT.owner, storeNext_lockField _ _ _ _ _ LockT.owner fun _ _ _ => rfl,
      storeNext_lockField _ _ _ _ _ LockT.owner fun _ _ _ => rfl]
    split_ifs with hk <;> simp [hk]

@[simp] lemma lockWaiterAdd_state (k : Kernel) (key : LockId) (t u : Tid) :
    ((k.lockWaiterAdd key t).task u).state = (k.task u).state :=
  lockWaiterAdd_field _ (fun _ _ _ _ => rfl) _ _ _ _

private lemma enqueued_waitingLock (k : Kernel) (key : LockId) (t u : Tid) :
    ((k.enqueued key t).task u).waitingLock = if u = t then some key else (k.task u).waitingLock := by
  unfold enqueued
  rw [setLock_task, storeNext_field _ _ _ _ _ Mtask.waitingLock fun _ _ => rfl,
    setTask_field _ _ _ _ Mtask.waitingLock]

private lemma Waiters.enqueued_self {l : List Tid} (hl : k.Waiters key l)
    (ht : (k.task t).waitingLock = none) : (k.enqueued key t).Waiters key (l ++ [t]) := by
  have htl : t ∉ l := hl.not_mem (by simp [ht])
  refine ⟨?_, fun u => ?_⟩
  · rw [enqueued_links, enqueued_ends]
    exact hl.1.pushBack htl
  · rw [enqueued_waitingLock, List.mem_append, List.mem_singleton, hl.2]
    split_ifs with hu <;> simp [hu]

private lemma Waiters.enqueued_of_ne {l : List Tid} (hl : k.Waiters key l)
    (ht : (k.task t).waitingLock = none) {key' : LockId} (hk : key' ≠ key) {l' : List Tid}
    (hl' : k.Waiters key' l') : (k.enqueued key t).Waiters key' l' := by
  have htl : t ∉ l := hl.not_mem (by simp [ht])
  refine ⟨?_, fun u => ?_⟩
  · have he : (k.enqueued key t).ends key' = k.ends key' := by
      unfold enqueued ends
      dsimp only
      rw [setLock_of_ne hk, storeNext_lockField _ _ _ _ _ LockT.waiter fun e => absurd e hk,
        storeNext_lockField _ _ _ _ _ LockT.waiterTail fun e => absurd e hk]
      rfl
    have hfr : ∀ u ∈ l', u ∉ l ∧ u ≠ t := fun u hu => by
      have hw := (hl'.2 u).mp hu
      exact ⟨hl.not_mem (by simpa [hw] using hk), by rintro rfl; simp [ht] at hw⟩
    rw [enqueued_links, he]
    exact hl'.1.congr (fun u hu => (hl.1.pushBack_frame htl (hfr u hu).1 (hfr u hu).2).1)
      (fun u hu => (hl.1.pushBack_frame htl (hfr u hu).1 (hfr u hu).2).2)
  · rw [enqueued_waitingLock, hl'.2]
    split_ifs with hu
    · subst hu
      simp [ht, Ne.symm hk]
    · rfl

theorem Waiters.lockWaiterAdd (hq : ∀ key, ∃ l, k.Waiters key l) (key' : LockId) :
    ∃ l, (k.lockWaiterAdd key t).Waiters key' l := by
  by_cases h : (k.task t).waitingLock = some key
  · rw [lockWaiterAdd_of_eq h]
    exact hq key'
  · rw [lockWaiterAdd_of_ne h]
    obtain ⟨l, hl⟩ := hq key
    obtain ⟨l', hl'⟩ := hq key'
    have ht : ((k.lockWaiterRemove t).task t).waitingLock = none := by
      simp [lockWaiterRemove_waitingLock]
    by_cases hk : key' = key
    · subst hk
      exact ⟨_, (hl.lockWaiterRemove hq).enqueued_self ht⟩
    · exact ⟨_, (hl.lockWaiterRemove hq).enqueued_of_ne ht hk (hl'.lockWaiterRemove hq)⟩

theorem Wf.lockWaiterAdd (h : k.Wf) (ht : (k.task t).Alive) : (k.lockWaiterAdd key t).Wf := by
  refine ⟨fun key' => Waiters.lockWaiterAdd h.queue key', fun u key' hw => ?_⟩
  rw [lockWaiterAdd_waitingLock] at hw
  simp only [Mtask.Alive, lockWaiterAdd_state]
  split_ifs at hw with hu
  · exact hu ▸ ht
  · exact h.waiting u key' hw

end Add

end Kernel

end PlantOS.Task
