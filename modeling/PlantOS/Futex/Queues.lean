import Mathlib.Data.List.Perm.Subperm
import Mathlib.Data.Nat.Bitwise
import PlantOS.Lib.HeadedList
import PlantOS.Lib.Run

/-!
# Futexes

`futex_operation`, `futex_tick` and `futex_cancel_task`, and what the rest of the kernel does to a task that waits. A
step is the code between two points at which another task can run; the kernel lock is held throughout. A wait record
lives on the kernel stack of its task, so it is named by the task.
-/

namespace PlantOS.Futex

open Lib.HeadedList

abbrev futexBucketCount : ℕ := 64

/-- `UINT64_MAX`: no deadline -/
abbrev uint64Max : ℕ := 18446744073709551615

abbrev intMax : ℕ := 2147483647

/-- `FUTEX_WAIT` and `FUTEX_WAKE`, and what is no operation -/
inductive Operation
  | wait | wake | other
  deriving DecidableEq, Repr

/-- The results of `futex_operation` but for the number of waiters woken. -/
inductive Result
  | ok | interrupted | changed | fault | invalid | timedOut
  deriving DecidableEq, Repr

/-- `futex_request_t` -/
structure Request where
  deadlineNs : ℕ
  address : ℕ
  value : ℕ
  deriving DecidableEq, Repr

/-- `futex_waiter_t`, but for its links -/
structure Waiter where
  address : ℕ
  deadlineNs : ℕ
  result : Result
  deriving DecidableEq, Repr

/-- `mtask`, as far as a wait depends on it -/
structure Task where
  /-- the slot has a task that has not been finished -/
  live : Bool
  tgid : ℕ
  /-- the state is `WAITING` or `SLEEPING` -/
  waiting : Bool
  /-- the reason is `WAIT_REASON_FUTEX` -/
  futexReason : Bool
  ready : Bool
  /-- `task_fall_blocked_reason` of `futex_operation` has been called and the wait has not returned; no code reads it -/
  inWait : Bool
  /-- how many calls of `finish_task` are releasing the task: they may sleep there, and keep their pointer to the slot -/
  finishers : ℕ
  deriving DecidableEq, Repr

structure FutexState where
  /-- `task_registry.slot_count` -/
  slotCount : ℕ
  task : ℕ → Task
  waiter : ℕ → Waiter
  buckets : Links (Fin futexBucketCount) ℕ
  deadlines : Links Unit ℕ
  /-- the latest value of `monotonic_time_ns` -/
  now : ℕ
  /-- what the last call of the task has returned, a result or a number of waiters; no code reads it -/
  returned : ℕ → Option (Result ⊕ ℕ)

def bucketOf (tgid address : ℕ) : Fin futexBucketCount :=
  let hash := (address >>> 2) ^^^ (tgid * 2654435761 % (uint64Max + 1))
  ⟨(hash ^^^ (hash >>> 16)) % futexBucketCount, Nat.mod_lt _ (by decide)⟩

namespace FutexState

variable (s : FutexState)

def setTask (t : ℕ) (f : Task → Task) : FutexState := { s with task := Function.update s.task t (f (s.task t)) }

def setResult (t : ℕ) (result : Result) : FutexState :=
  { s with waiter := Function.update s.waiter t { s.waiter t with result := result } }

def answer (t : ℕ) (a : Result ⊕ ℕ) : FutexState := { s with returned := Function.update s.returned t (some a) }

def taskRun (t : ℕ) : FutexState :=
  if !(s.task t).live then s
  else if (s.task t).waiting then
    s.setTask t fun task => { task with waiting := false, futexReason := false, ready := false }
  else s.setTask t fun task => { task with ready := true }

def futexRemove (t : ℕ) : FutexState :=
  { s with buckets := detach s.buckets t, deadlines := detach s.deadlines t }

/-! ### `FUTEX_WAKE` -/

/-- The loop of `FUTEX_WAKE` from the record on; `now` is the time, which it reads once. -/
def wakeLoop (tgid address value now : ℕ) : ℕ → Option ℕ → ℕ → FutexState → FutexState × ℕ
  | 0, _, woken, s => (s, woken)
  | _, none, woken, s => (s, woken)
  | fuel + 1, some t, woken, s =>
    if value ≤ woken then (s, woken)
    else
      let next := s.buckets.next t
      if (s.task t).tgid = tgid ∧ (s.waiter t).address = address then
        let s := s.futexRemove t
        let expired := (s.waiter t).deadlineNs ≠ uint64Max ∧ (s.waiter t).deadlineNs ≤ now
        let s := s.setResult t (if expired then .timedOut else .ok)
        wakeLoop tgid address value now fuel next (if expired then woken else woken + 1) (s.taskRun t)
      else wakeLoop tgid address value now fuel next woken s

/-- `FUTEX_WAKE` of a thread group: the number of the waiters woken -/
def futexWake (tgid address value now : ℕ) : FutexState × ℕ :=
  wakeLoop tgid address value now s.slotCount (s.buckets.head (bucketOf tgid address)) 0 s

/-! ### `FUTEX_WAIT` -/

/-- The loop that finds the place in the list of the deadlines -/
def seek (deadlineNs : ℕ) : ℕ → Unit ⊕ ℕ → Unit ⊕ ℕ
  | 0, position => position
  | fuel + 1, position =>
    match s.deadlines.read position with
    | none => position
    | some t => if (s.waiter t).deadlineNs ≤ deadlineNs then seek deadlineNs fuel (.inr t) else position

def enqueue (t : ℕ) (request : Request) : FutexState :=
  let s : FutexState :=
    { s with
      waiter := Function.update s.waiter t ⟨request.address, request.deadlineNs, .interrupted⟩
      buckets := pushFront s.buckets (bucketOf (s.task t).tgid request.address) t }
  if request.deadlineNs ≠ uint64Max then
    { s with deadlines := insertAt s.deadlines (s.seek request.deadlineNs s.slotCount (.inl ())) t }
  else s

/-- What `FUTEX_WAIT` returns without a record: `word` is what the address holds, `pending` whether a signal is. -/
def waitRefused (request : Request) (word : ℕ) (pending : Bool) : Option Result :=
  if word ≠ request.value then some .changed
  else if request.deadlineNs ≠ uint64Max ∧ request.deadlineNs ≤ s.now then some .timedOut
  else if pending then some .interrupted
  else none

/-- `FUTEX_WAIT`: `task_fall_blocked_reason` returns at once where `ready` is set. -/
def futexWait (t : ℕ) (request : Request) (word : ℕ) (pending : Bool) : FutexState :=
  match s.waitRefused request word pending with
  | some result => s.answer t (.inl result)
  | none =>
    let s := s.enqueue t request
    if (s.task t).ready then
      let s := (s.setTask t fun task => { task with ready := false, futexReason := false }).futexRemove t
      s.answer t (.inl (s.waiter t).result)
    else s.setTask t fun task => { task with waiting := true, futexReason := true, inWait := true }

/-- `futex_operation` up to the point where the task blocks or returns -/
def futexOperation (t : ℕ) (operation : Operation) (request : Request) (readable : Bool) (word : ℕ) (pending : Bool) :
    FutexState :=
  if operation = .other ∨ request.address &&& 3 ≠ 0 ∨
      (operation = .wake ∧ (request.value > intMax ∨ request.deadlineNs ≠ 0)) then s.answer t (.inl .invalid)
  else if !readable then s.answer t (.inl .fault)
  else if operation = .wake then
    let (s, woken) := s.futexWake (s.task t).tgid request.address request.value s.now
    s.answer t (.inr woken)
  else s.futexWait t request word pending

/-- The rest of `FUTEX_WAIT`, when the task runs again -/
def futexResume (t : ℕ) : FutexState :=
  let s := (s.futexRemove t).setTask t fun task => { task with inWait := false }
  s.answer t (.inl (s.waiter t).result)

/-- The loop of `futex_tick` -/
def tickLoop : ℕ → FutexState → FutexState
  | 0, s => s
  | fuel + 1, s =>
    match s.deadlines.head () with
    | none => s
    | some t =>
      if (s.waiter t).deadlineNs ≤ s.now then tickLoop fuel (((s.futexRemove t).setResult t .timedOut).taskRun t)
      else s

def futexTick : FutexState := tickLoop s.slotCount s

/-- The search of `futex_cancel_task` in the list from the record on -/
def findTask (t : ℕ) : ℕ → Option ℕ → Bool
  | 0, _ => false
  | _, none => false
  | fuel + 1, some x => if x = t then true else findTask t fuel (s.buckets.next x)

def futexCancelTask (t : ℕ) : FutexState :=
  if (List.finRange futexBucketCount).any fun b => s.findTask t s.slotCount (s.buckets.head b) then s.futexRemove t
  else s

/-- `finish_task` to the end of `task_clear_external_refs`; what it releases then may sleep (`user_vm_lock`,
`vfs_mapping_sync`), with the task still in use. -/
def finishTask (t : ℕ) : FutexState :=
  (s.futexCancelTask t).setTask t fun task => { task with finishers := task.finishers + 1 }

/-- The rest of `finish_task`: the task is no longer in use. -/
def finishTaskEnd (t : ℕ) : FutexState :=
  s.setTask t fun task =>
    { task with live := false, waiting := false, inWait := false, finishers := task.finishers - 1 }

end FutexState

/-! ### Runs -/

inductive FutexEvent
  /-- a task is created in a free slot, or in a new one -/
  | create (t tgid : ℕ)
  /-- a running task calls `futex_operation` -/
  | operation (t : ℕ) (operation : Operation) (request : Request) (readable : Bool) (word : ℕ) (pending : Bool)
  /-- a task in `FUTEX_WAIT` runs again -/
  | resume (t : ℕ)
  /-- the clock goes on -/
  | clock (now : ℕ)
  /-- the timer interrupt -/
  | tick
  /-- `task_run` of anything else: a signal, or any other wakeup -/
  | run (t : ℕ)
  /-- a running task blocks for another reason -/
  | block (t : ℕ)
  /-- the finish of a task begins: `task_exit`, `task_kill`, the end of its thread group or a deferred termination -/
  | finish (t : ℕ)
  /-- a `finish_task` has released the task, and ends it -/
  | finishEnd (t : ℕ)
  /-- `task_finish_pending` of a process that has to wait for its threads -/
  | defer (t : ℕ)

namespace FutexState

variable (s : FutexState)

def step : FutexEvent → Option FutexState
  | .create t tgid =>
    if t ≤ s.slotCount ∧ !(t < s.slotCount ∧ (s.task t).live) then
      some ({ s with slotCount := max s.slotCount (t + 1) }.setTask t fun task =>
        ⟨true, tgid, false, false, false, false, task.finishers⟩)
    else none
  | .operation t operation request readable word pending =>
    if t < s.slotCount ∧ (s.task t).live ∧ !(s.task t).waiting ∧ !(s.task t).inWait then
      some (s.futexOperation t operation request readable word pending)
    else none
  | .resume t =>
    if (s.task t).live ∧ (s.task t).inWait ∧ !(s.task t).waiting then some (s.futexResume t) else none
  | .clock now => if s.now ≤ now then some { s with now := now } else none
  | .tick => some s.futexTick
  | .run t => some (s.taskRun t)
  | .block t =>
    if (s.task t).live ∧ !(s.task t).waiting ∧ !(s.task t).inWait then
      some (s.setTask t fun task =>
        if task.ready then { task with ready := false } else { task with waiting := true, futexReason := false })
    else none
  | .finish t => if (s.task t).live then some (s.finishTask t) else none
  | .finishEnd t => if 0 < (s.task t).finishers then some (s.finishTaskEnd t) else none
  | .defer t =>
    if (s.task t).live then some (s.setTask t fun task => { task with waiting := true, futexReason := false }) else none

def initial (s : FutexState) : Prop :=
  (∀ t, (s.task t).live = false ∧ (s.task t).inWait = false) ∧ (∀ b, s.buckets.head b = none) ∧ s.deadlines.head () = none ∧
    (∀ t, s.buckets.prev t = none) ∧ ∀ t, s.deadlines.prev t = none

def sys : Lib.System FutexState FutexEvent := ⟨initial, step⟩

end FutexState

/-! ## The queues of the waiters -/

open Function (update update_of_ne update_self)

/-- The records in the buckets are `B`, those with a deadline are `D` in the order of their deadlines, and all are
records of tasks in `FUTEX_WAIT`. -/
structure Queues (s : FutexState) (B : Fin futexBucketCount → List ℕ) (D : List ℕ) : Prop where
  buckets : IsLists s.buckets B
  deadlines : IsLists s.deadlines fun _ => D
  inRange : ∀ b, ∀ t ∈ B b, t < s.slotCount
  live : ∀ b, ∀ t ∈ B b, (s.task t).live = true ∧ (s.task t).inWait = true
  placed : ∀ b, ∀ t ∈ B b, bucketOf (s.task t).tgid (s.waiter t).address = b
  fresh : ∀ b, ∀ t ∈ B b, (s.waiter t).result = .interrupted
  timed : ∀ t, t ∈ D ↔ (∃ b, t ∈ B b) ∧ (s.waiter t).deadlineNs ≠ uint64Max
  sorted : D.Pairwise fun x y => (s.waiter x).deadlineNs ≤ (s.waiter y).deadlineNs

def Queued (s : FutexState) (t : ℕ) : Prop := (s.buckets.prev t).isSome = true

/-- The task is blocked in `FUTEX_WAIT`, and no `finish_task` has taken it out of the wait. -/
def Blocked (s : FutexState) (t : ℕ) : Prop :=
  (s.task t).live = true ∧ (s.task t).waiting = true ∧ (s.task t).futexReason = true ∧ (s.task t).finishers = 0

variable {s s' : FutexState} {B : Fin futexBucketCount → List ℕ} {D : List ℕ} {t : ℕ}

lemma length_le_of_lt {l : List ℕ} {n : ℕ} (hnd : l.Nodup) (hlt : ∀ x ∈ l, x < n) : l.length ≤ n := by
  have hsub : l ⊆ List.range n := fun x hx => List.mem_range.mpr (hlt x hx)
  simpa using (List.subperm_of_subset hnd hsub).length_le

namespace Queues

variable (h : Queues s B D)

include h

lemma queued_iff (t : ℕ) : Queued s t ↔ ∃ b, t ∈ B b := h.buckets.linked t

lemma nodup (b : Fin futexBucketCount) : (B b).Nodup := (h.buckets.isList b).nodup

lemma nodup_deadlines : D.Nodup := (h.deadlines.isList ()).nodup

lemma length_le (b : Fin futexBucketCount) : (B b).length ≤ s.slotCount := length_le_of_lt (h.nodup b) (h.inRange b)

lemma length_deadlines_le : D.length ≤ s.slotCount :=
  length_le_of_lt h.nodup_deadlines fun t ht => by
    obtain ⟨b, hb⟩ := ((h.timed t).mp ht).1
    exact h.inRange b t hb

/-- **Frame.** The queues only depend on the lists, and on the records and the tasks that are in them. -/
theorem relink (hbkts : IsLists s'.buckets B) (hdls : IsLists s'.deadlines fun _ => D)
    (hcnt : s.slotCount ≤ s'.slotCount)
    (htsk : ∀ b, ∀ t ∈ B b, (s'.task t).live = true ∧ (s'.task t).inWait = true ∧ (s'.task t).tgid = (s.task t).tgid)
    (hwtr : ∀ b, ∀ t ∈ B b, s'.waiter t = s.waiter t) : Queues s' B D := by
  have hsame : ∀ t ∈ D, s'.waiter t = s.waiter t := fun t ht => by
    obtain ⟨b, hb⟩ := ((h.timed t).mp ht).1
    exact hwtr b t hb
  refine ⟨hbkts, hdls, fun b t ht => (h.inRange b t ht).trans_le hcnt,
    fun b t ht => ⟨(htsk b t ht).1, (htsk b t ht).2.1⟩, fun b t ht => ?_, fun b t ht => ?_, fun t => ?_, ?_⟩
  · rw [(htsk b t ht).2.2, hwtr b t ht]
    exact h.placed b t ht
  · rw [hwtr b t ht]
    exact h.fresh b t ht
  · rw [h.timed t]
    refine and_congr_right fun ⟨b, hb⟩ => ?_
    rw [hwtr b t hb]
  · refine h.sorted.imp_of_mem fun hx hy hle => ?_
    rwa [hsame _ hx, hsame _ hy]

lemma frame (hbkts : s'.buckets = s.buckets) (hdls : s'.deadlines = s.deadlines)
    (hcnt : s.slotCount ≤ s'.slotCount)
    (htsk : ∀ b, ∀ t ∈ B b, (s'.task t).live = true ∧ (s'.task t).inWait = true ∧ (s'.task t).tgid = (s.task t).tgid)
    (hwtr : ∀ b, ∀ t ∈ B b, s'.waiter t = s.waiter t) : Queues s' B D :=
  h.relink (hbkts ▸ h.buckets) (hdls ▸ h.deadlines) hcnt htsk hwtr

/-- **Removal.** -/
theorem remove (t : ℕ) : Queues (s.futexRemove t) (fun b => (B b).erase t) (D.erase t) := by
  refine ⟨h.buckets.detach_erase t, h.deadlines.detach_erase t, fun b x hx => h.inRange b x (List.mem_of_mem_erase hx),
    fun b x hx => h.live b x (List.mem_of_mem_erase hx), fun b x hx => h.placed b x (List.mem_of_mem_erase hx),
    fun b x hx => h.fresh b x (List.mem_of_mem_erase hx), fun x => ?_, h.sorted.sublist List.erase_sublist⟩
  rw [h.nodup_deadlines.mem_erase_iff, h.timed x]
  constructor
  · rintro ⟨hne, ⟨b, hb⟩, hdl⟩
    exact ⟨⟨b, (h.nodup b).mem_erase_iff.mpr ⟨hne, hb⟩⟩, hdl⟩
  · rintro ⟨⟨b, hb⟩, hdl⟩
    obtain ⟨hne, hb⟩ := (h.nodup b).mem_erase_iff.mp hb
    exact ⟨hne, ⟨b, hb⟩, hdl⟩

lemma ne_of_mem_erase {b : Fin futexBucketCount} {x : ℕ} (hx : x ∈ (B b).erase t) : x ≠ t :=
  ((h.nodup b).mem_erase_iff.mp hx).1

end Queues

/-! ### Release -/

namespace FutexState

variable (s) (t : ℕ)

def release (result : Result) : FutexState := ((s.futexRemove t).setResult t result).taskRun t

lemma taskRun_links : (s.taskRun t).buckets = s.buckets ∧ (s.taskRun t).deadlines = s.deadlines ∧
    (s.taskRun t).slotCount = s.slotCount ∧ (s.taskRun t).waiter = s.waiter ∧ (s.taskRun t).now = s.now ∧
      (s.taskRun t).returned = s.returned := by
  unfold taskRun
  split
  · exact ⟨rfl, rfl, rfl, rfl, rfl, rfl⟩
  split <;> exact ⟨rfl, rfl, rfl, rfl, rfl, rfl⟩

variable {t}

lemma taskRun_task_of_ne {x : ℕ} (hx : x ≠ t) : (s.taskRun t).task x = s.task x := by
  unfold taskRun
  split
  · rfl
  split <;> exact update_of_ne hx ..

lemma taskRun_kept (x : ℕ) : ((s.taskRun t).task x).live = (s.task x).live ∧
    ((s.taskRun t).task x).tgid = (s.task x).tgid ∧ ((s.taskRun t).task x).inWait = (s.task x).inWait ∧
      ((s.taskRun t).task x).finishers = (s.task x).finishers := by
  by_cases hx : x = t
  · subst hx
    unfold taskRun setTask
    split
    · exact ⟨rfl, rfl, rfl, rfl⟩
    split <;> dsimp only <;> rw [update_self] <;> exact ⟨rfl, rfl, rfl, rfl⟩
  · rw [taskRun_task_of_ne s hx]
    exact ⟨rfl, rfl, rfl, rfl⟩

lemma taskRun_waiting (hlive : (s.task t).live = true) : ((s.taskRun t).task t).waiting = false := by
  unfold taskRun setTask
  rw [hlive]
  dsimp only [Bool.not_true]
  split
  · cases ‹false = true›
  split
  · dsimp only
    rw [update_self]
  · rename_i hwtg
    dsimp only
    rw [update_self]
    simpa using hwtg

lemma blocked_of_taskRun {x : ℕ} (hx : Blocked (s.taskRun t) x) : x ≠ t ∧ Blocked s x := by
  by_cases hxt : x = t
  · subst hxt
    obtain ⟨hlive, hwtg, -⟩ := hx
    rw [(taskRun_kept s x).1] at hlive
    rw [taskRun_waiting s hlive] at hwtg
    cases hwtg
  · unfold Blocked at hx
    rw [taskRun_task_of_ne s hxt] at hx
    exact ⟨hxt, hx⟩

end FutexState

open FutexState

theorem Queues.release (h : Queues s B D) (t : ℕ) (result : Result) :
    Queues (s.release t result) (fun b => (B b).erase t) (D.erase t) := by
  obtain ⟨hbkts, hdls, hcnt, hwtr, -, -⟩ := taskRun_links ((s.futexRemove t).setResult t result) t
  refine (h.remove t).frame hbkts hdls hcnt.ge (fun b x hx => ?_) fun b x hx => ?_
  · obtain ⟨hlive, htgid, hwait, -⟩ := taskRun_kept (t := t) ((s.futexRemove t).setResult t result) x
    have hmemb := h.live b x (List.mem_of_mem_erase hx)
    exact ⟨hlive.trans hmemb.1, hwait.trans hmemb.2, htgid⟩
  · refine (congrFun hwtr x).trans ?_
    exact update_of_ne (h.ne_of_mem_erase hx) ..

/-! ### Publication -/

lemma seek_spec (s : FutexState) (deadline fuel : ℕ) {a c : List ℕ} (hlist : IsList s.deadlines () (a ++ c))
    (hfuel : c.length ≤ fuel) :
    s.seek deadline fuel (cell () a) =
      cell () (a ++ c.takeWhile fun x => decide ((s.waiter x).deadlineNs ≤ deadline)) := by
  induction c generalizing a fuel with
  | nil =>
    rw [List.takeWhile_nil, List.append_nil]
    cases fuel with
    | zero => rfl
    | succ fuel =>
      unfold FutexState.seek
      rw [hlist.read]
      rfl
  | cons x c ih =>
    cases fuel with
    | zero => cases hfuel
    | succ fuel =>
      unfold FutexState.seek
      rw [hlist.read, List.head?_cons]
      dsimp only
      split
      · rename_i hle
        have hnext := ih (a := a ++ [x]) fuel (by rwa [List.append_assoc, List.singleton_append])
          (Nat.le_of_succ_le_succ hfuel)
        rw [cell_concat] at hnext
        rw [hnext, List.takeWhile_cons_of_pos (by simpa using hle), List.append_assoc, List.singleton_append]
      · rename_i hle
        rw [List.takeWhile_cons_of_neg (by simpa using hle), List.append_nil]

/-- The lists after the publication of a record -/
structure Published (s s' : FutexState) (B : Fin futexBucketCount → List ℕ) (D D' : List ℕ) (t : ℕ)
    (request : Request) : Prop where
  buckets : IsLists s'.buckets (update B (bucketOf (s.task t).tgid request.address)
    (t :: B (bucketOf (s.task t).tgid request.address)))
  deadlines : IsLists s'.deadlines fun _ => D'
  erase : D'.erase t = D
  mem : t ∈ D' ↔ request.deadlineNs ≠ uint64Max
  sorted : D'.Pairwise fun x y => (s'.waiter x).deadlineNs ≤ (s'.waiter y).deadlineNs
  waiter : s'.waiter = update s.waiter t ⟨request.address, request.deadlineNs, .interrupted⟩
  task : s'.task = s.task
  slotCount : s'.slotCount = s.slotCount
  now : s'.now = s.now

lemma Queues.not_mem_deadlines (h : Queues s B D) (hfree : ∀ b, t ∉ B b) : t ∉ D := fun ht => by
  obtain ⟨b, hb⟩ := ((h.timed t).mp ht).1
  exact hfree b hb

theorem Queues.enqueue (h : Queues s B D) (hfree : ∀ b, t ∉ B b) (request : Request) :
    ∃ D', Published s (s.enqueue t request) B D D' t request := by
  have htD := h.not_mem_deadlines hfree
  have hbkts := h.buckets.pushFront (h.buckets.prev_eq_none hfree) (bucketOf (s.task t).tgid request.address)
  have hsame : ∀ x ∈ D, (update s.waiter t ⟨request.address, request.deadlineNs, .interrupted⟩ x) = s.waiter x :=
    fun x hx => update_of_ne (fun heq : x = t => htD (heq ▸ hx)) ..
  have hsort : D.Pairwise fun x y =>
      (update s.waiter t ⟨request.address, request.deadlineNs, .interrupted⟩ x).deadlineNs ≤
        (update s.waiter t ⟨request.address, request.deadlineNs, .interrupted⟩ y).deadlineNs :=
    h.sorted.imp_of_mem fun hx hy hle => by rwa [hsame _ hx, hsame _ hy]
  unfold FutexState.enqueue
  dsimp only
  split
  · rename_i hfin
    set w := update s.waiter t ⟨request.address, request.deadlineNs, .interrupted⟩ with hw
    have htw : (w t).deadlineNs = request.deadlineNs := by rw [hw, update_self]
    have hspl : D = (D.takeWhile fun x => decide ((w x).deadlineNs ≤ request.deadlineNs)) ++
        D.dropWhile fun x => decide ((w x).deadlineNs ≤ request.deadlineNs) := List.takeWhile_append_dropWhile.symm
    have hseek := seek_spec
      { s with waiter := w, buckets := pushFront s.buckets (bucketOf (s.task t).tgid request.address) t }
      request.deadlineNs s.slotCount (a := []) (h.deadlines.isList ()) h.length_deadlines_le
    rw [List.nil_append, cell_nil] at hseek
    rw [hseek]
    have hins := h.deadlines.insertAt (h.deadlines.prev_eq_none fun _ => htD) (h := ()) hspl
    have hcon : ∀ l : List ℕ, update (fun _ : Unit => D) () l = fun _ => l := fun l =>
      funext fun u => update_self ..
    rw [hcon] at hins
    have hsort' := pairwise_insert (fun x => (w x).deadlineNs) hsort t
    simp only [htw] at hsort'
    refine ⟨_, hbkts, hins, ?_, ⟨fun _ => hfin, fun _ => by simp⟩, hsort', rfl, rfl, rfl, rfl⟩
    rw [List.erase_append_right _ fun hmem => htD ((List.takeWhile_sublist _).subset hmem), List.erase_cons_head]
    exact hspl.symm
  · rename_i hinf
    exact ⟨D, hbkts, h.deadlines, List.erase_of_not_mem htD, ⟨fun hmem => absurd hmem htD, fun hne => absurd hne hinf⟩,
      hsort, rfl, rfl, rfl, rfl⟩

section Published

variable {D' : List ℕ} {request : Request} (hp : Published s s' B D D' t request)

include hp

lemma Published.mem_of_ne {x : ℕ} (hx : x ≠ t) : x ∈ D' ↔ x ∈ D := by
  rw [← hp.erase, List.mem_erase_of_ne hx]

variable (h : Queues s B D) (hfree : ∀ b, t ∉ B b)

include h hfree

theorem Published.blocks (hlive : (s.task t).live = true) (hcnt : t < s.slotCount) :
    Queues (s'.setTask t fun task => { task with waiting := true, futexReason := true, inWait := true })
      (update B (bucketOf (s.task t).tgid request.address) (t :: B (bucketOf (s.task t).tgid request.address)))
      D' := by
  have hself : s'.waiter t = ⟨request.address, request.deadlineNs, .interrupted⟩ := by
    rw [hp.waiter, update_self]
  have hwtr : ∀ x, x ≠ t → s'.waiter x = s.waiter x := fun x hx => by rw [hp.waiter, update_of_ne hx]
  -- a record in a bucket is the new one, or an old one of another task
  have hmem : ∀ {P : Fin futexBucketCount → ℕ → Prop}, P (bucketOf (s.task t).tgid request.address) t →
      (∀ b, ∀ x ∈ B b, x ≠ t → P b x) → ∀ b,
        ∀ x ∈ update B (bucketOf (s.task t).tgid request.address)
          (t :: B (bucketOf (s.task t).tgid request.address)) b, P b x := by
    intro P hnew hold b x hx
    have hne : ∀ {b}, x ∈ B b → x ≠ t := fun hmem heq => hfree _ (heq ▸ hmem)
    by_cases hb : b = bucketOf (s.task t).tgid request.address
    · subst hb
      rw [update_self] at hx
      rcases List.mem_cons.mp hx with rfl | hx
      · exact hnew
      · exact hold _ x hx (hne hx)
    · rw [update_of_ne hb] at hx
      exact hold b x hx (hne hx)
  have htsk : ∀ x, x ≠ t → (s'.setTask t fun task =>
      { task with waiting := true, futexReason := true, inWait := true }).task x = s.task x := fun x hx => by
    refine (update_of_ne hx ..).trans ?_
    rw [hp.task]
  have htask_self : (s'.setTask t fun task => { task with waiting := true, futexReason := true, inWait := true }).task t =
      { s.task t with waiting := true, futexReason := true, inWait := true } := by
    refine (update_self ..).trans ?_
    rw [hp.task]
  refine ⟨hp.buckets, hp.deadlines, ?_, ?_, ?_, ?_, fun x => ?_, hp.sorted⟩
  · refine hmem (P := fun _ x => x < s'.slotCount) (by rwa [hp.slotCount]) fun b x hx _ => ?_
    rw [hp.slotCount]
    exact h.inRange b x hx
  · refine hmem (P := fun _ x => (FutexState.task _ x).live = true ∧ (FutexState.task _ x).inWait = true) ?_
      fun b x hx hne => ?_
    · rw [htask_self]
      exact ⟨hlive, rfl⟩
    · rw [htsk x hne]
      exact h.live b x hx
  · refine hmem (P := fun b x => bucketOf (FutexState.task _ x).tgid (s'.waiter x).address = b) ?_ fun b x hx hne => ?_
    · rw [htask_self, hself]
    · rw [htsk x hne, hwtr x hne]
      exact h.placed b x hx
  · refine hmem (P := fun _ x => (s'.waiter x).result = .interrupted) (by rw [hself]) fun b x hx hne => ?_
    rw [hwtr x hne]
    exact h.fresh b x hx
  · by_cases hx : x = t
    · subst hx
      rw [hp.mem]
      refine ⟨fun hne => ⟨⟨_, by rw [update_self]; exact List.mem_cons_self⟩, ?_⟩, fun hboth => ?_⟩
      · exact fun heq => hne (by rw [← heq]; exact congrArg Waiter.deadlineNs hself.symm)
      · exact fun heq => hboth.2 (by rw [← heq]; exact congrArg Waiter.deadlineNs hself)
    · rw [hp.mem_of_ne hx, h.timed x]
      refine and_congr ?_ (by change _ ↔ (s'.waiter x).deadlineNs ≠ _; rw [hwtr x hx])
      refine exists_congr fun b => ?_
      by_cases hb : b = bucketOf (s.task t).tgid request.address
      · subst hb
        rw [update_self, List.mem_cons, or_iff_right hx]
      · rw [update_of_ne hb]

theorem Published.withdrawn (f : Task → Task) : Queues ((s'.setTask t f).futexRemove t) B D := by
  have hne : ∀ {b x}, x ∈ B b → x ≠ t := fun hx heq => hfree _ (heq ▸ hx)
  have hbkts := hp.buckets.detach_erase t
  have hsame : (fun b => (update B (bucketOf (s.task t).tgid request.address)
      (t :: B (bucketOf (s.task t).tgid request.address)) b).erase t) = B := by
    funext b
    by_cases hb : b = bucketOf (s.task t).tgid request.address
    · subst hb
      rw [update_self, List.erase_cons_head]
    · rw [update_of_ne hb, List.erase_of_not_mem (hfree b)]
  rw [hsame] at hbkts
  have hdls := hp.deadlines.detach_erase t
  rw [hp.erase] at hdls
  refine h.relink hbkts hdls hp.slotCount.ge (fun b x hx => ?_) fun b x hx => ?_
  · have htsk : (((s'.setTask t f).futexRemove t).task x) = s.task x := by
      refine (update_of_ne (hne hx) ..).trans ?_
      rw [hp.task]
    rw [htsk]
    exact ⟨(h.live b x hx).1, (h.live b x hx).2, rfl⟩
  · change s'.waiter x = s.waiter x
    rw [hp.waiter, update_of_ne (hne hx)]

end Published

/-! ## What a wake and the timer release -/

open Lib.HeadedList FutexState
open List (mem_cons mem_cons_of_mem mem_cons_self mem_singleton)

variable {s s' s'' : FutexState} {B : Fin futexBucketCount → List ℕ} {D : List ℕ} {t : ℕ}

/-- The waiters `ts` have been released with their results, and nothing else has happened. -/
structure Released (s s' : FutexState) (ts : List ℕ) (result : ℕ → Result) : Prop where
  queued : ∀ x, Queued s' x ↔ Queued s x ∧ x ∉ ts
  waiter : ∀ x, x ∉ ts → s'.waiter x = s.waiter x
  done : ∀ x ∈ ts, s'.waiter x = { s.waiter x with result := result x }
  task : ∀ x, x ∉ ts → s'.task x = s.task x
  kept : ∀ x, (s'.task x).live = (s.task x).live ∧ (s'.task x).tgid = (s.task x).tgid ∧
    (s'.task x).inWait = (s.task x).inWait
  running : ∀ x ∈ ts, (s.task x).live = true → (s'.task x).waiting = false
  slotCount : s'.slotCount = s.slotCount
  now : s'.now = s.now
  returned : s'.returned = s.returned

lemma Released.nil (s : FutexState) (result : ℕ → Result) : Released s s [] result :=
  ⟨fun x => by simp, fun _ _ => rfl, nofun, fun _ _ => rfl, fun _ => ⟨rfl, rfl, rfl⟩, nofun, rfl, rfl, rfl⟩

lemma Queues.released_one (h : Queues s B D) (t : ℕ) (result : ℕ → Result) :
    Released s (s.release t (result t)) [t] result := by
  obtain ⟨-, -, hcnt, hwtr, hnow, hret⟩ := taskRun_links ((s.futexRemove t).setResult t (result t)) t
  have hkept := taskRun_kept (t := t) ((s.futexRemove t).setResult t (result t))
  refine ⟨fun x => ?_, fun x hx => ?_, fun x hx => ?_, fun x hx => ?_,
    fun x => ⟨(hkept x).1, (hkept x).2.1, (hkept x).2.2.1⟩, fun x hx hlive => ?_, hcnt, hnow, hret⟩
  · rw [(h.release t (result t)).queued_iff, h.queued_iff, mem_singleton]
    constructor
    · rintro ⟨b, hb⟩
      exact ⟨⟨b, List.mem_of_mem_erase hb⟩, h.ne_of_mem_erase hb⟩
    · rintro ⟨⟨b, hb⟩, hne⟩
      exact ⟨b, (List.mem_erase_of_ne hne).mpr hb⟩
  · exact (congrFun hwtr x).trans (Function.update_of_ne (fun heq => hx (mem_singleton.mpr heq)) ..)
  · obtain rfl := mem_singleton.mp hx
    exact (congrFun hwtr x).trans (Function.update_self ..)
  · exact taskRun_task_of_ne _ fun heq => hx (mem_singleton.mpr heq)
  · obtain rfl := mem_singleton.mp hx
    exact taskRun_waiting ((s.futexRemove x).setResult x (result x)) hlive

lemma Released.congr {ts : List ℕ} {result result' : ℕ → Result} (h : Released s s' ts result)
    (heq : ∀ x ∈ ts, result' x = result x) : Released s s' ts result' :=
  { h with done := fun x hx => by rw [h.done x hx, heq x hx] }

lemma Released.cons {ts : List ℕ} {result : ℕ → Result} (ht : t ∉ ts) (h : Released s s' [t] result)
    (h' : Released s' s'' ts result) : Released s s'' (t :: ts) result := by
  have hne : ∀ x ∈ ts, x ∉ [t] := fun x hx hmem => ht (mem_singleton.mp hmem ▸ hx)
  refine ⟨fun x => ?_, fun x hx => ?_, fun x hx => ?_, fun x hx => ?_, fun x => ?_, fun x hx hlive => ?_,
    h'.slotCount.trans h.slotCount, h'.now.trans h.now, h'.returned.trans h.returned⟩
  · rw [h'.queued, h.queued, and_assoc, show t :: ts = [t] ++ ts from rfl, List.mem_append, not_or]
  · rw [mem_cons, not_or] at hx
    exact (h'.waiter x hx.2).trans (h.waiter x (by simpa using hx.1))
  · rcases mem_cons.mp hx with rfl | hx
    · exact (h'.waiter x ht).trans (h.done x (List.mem_singleton_self x))
    · rw [h'.done x hx, h.waiter x (hne x hx)]
  · rw [mem_cons, not_or] at hx
    exact (h'.task x hx.2).trans (h.task x (by simpa using hx.1))
  · exact ⟨(h'.kept x).1.trans (h.kept x).1, (h'.kept x).2.1.trans (h.kept x).2.1,
      (h'.kept x).2.2.trans (h.kept x).2.2⟩
  · rcases mem_cons.mp hx with rfl | hx
    · rw [h'.task x ht]
      exact h.running x (List.mem_singleton_self x) hlive
    · exact h'.running x hx ((h.kept x).1.trans hlive)

/-! ### The loop of a wake, on lists -/

/-- The waiters that a wake takes out of the list: those that match, until `value` of them have not expired. -/
def picks (matching expired : ℕ → Bool) (value : ℕ) : List ℕ → ℕ → List ℕ
  | [], _ => []
  | t :: rest, woken =>
    if value ≤ woken then []
    else if matching t then t :: picks matching expired value rest (if expired t then woken else woken + 1)
    else picks matching expired value rest woken

section Picks

variable {matching expired matching' expired' : ℕ → Bool} {value : ℕ}

lemma picks_congr {l : List ℕ} (h : ∀ x ∈ l, matching x = matching' x ∧ expired x = expired' x) (woken : ℕ) :
    picks matching expired value l woken = picks matching' expired' value l woken := by
  induction l generalizing woken with
  | nil => rfl
  | cons t rest ih =>
    obtain ⟨hmat, hexp⟩ := h t mem_cons_self
    have ih := ih fun x hx => h x (mem_cons_of_mem _ hx)
    simp only [picks, hmat, hexp, ih]

variable (matching expired value) in
lemma picks_sublist (l : List ℕ) (woken : ℕ) : (picks matching expired value l woken).Sublist l := by
  induction l generalizing woken with
  | nil => exact List.Sublist.refl _
  | cons t rest ih =>
    unfold picks
    split
    · exact List.nil_sublist _
    split
    · exact (ih _).cons_cons t
    · exact (ih _).cons t

lemma matching_of_picks {l : List ℕ} {woken x : ℕ} (hx : x ∈ picks matching expired value l woken) :
    matching x = true := by
  induction l generalizing woken with
  | nil => cases hx
  | cons t rest ih =>
    unfold picks at hx
    split at hx
    · cases hx
    split at hx
    · rename_i hmat
      rcases mem_cons.mp hx with rfl | hx
      · exact hmat
      · exact ih hx
    · exact ih hx

variable (matching expired) in
/-- **A wake takes at most `value` waiters that have not expired, and all that match if it takes less.** -/
lemma picks_count (l : List ℕ) (woken : ℕ) (hwok : woken ≤ value) :
    woken + ((picks matching expired value l woken).filter (!expired ·)).length ≤ value ∧
      (woken + ((picks matching expired value l woken).filter (!expired ·)).length < value →
        ∀ x ∈ l, matching x = true → x ∈ picks matching expired value l woken) := by
  induction l generalizing woken with
  | nil => exact ⟨hwok, fun _ => nofun⟩
  | cons t rest ih =>
    unfold picks
    split
    · rename_i hdone
      exact ⟨hwok, fun hlt => absurd hlt (by simpa using hdone)⟩
    rename_i hmore
    split
    · rename_i hmat
      cases hexp : expired t with
      | true =>
        obtain ⟨hle, hall⟩ := ih _ hwok
        simp only [if_true, List.filter_cons, hexp, Bool.not_true, Bool.false_eq_true, if_false]
        refine ⟨hle, fun hlt x hx hm => ?_⟩
        rcases mem_cons.mp hx with rfl | hx
        · exact mem_cons_self
        · exact mem_cons_of_mem _ (hall hlt x hx hm)
      | false =>
        obtain ⟨hle, hall⟩ := ih (woken + 1) (by omega)
        simp only [Bool.false_eq_true, if_false, List.filter_cons, hexp, Bool.not_false, if_true, List.length_cons]
        refine ⟨by omega, fun hlt x hx hm => ?_⟩
        rcases mem_cons.mp hx with rfl | hx
        · exact mem_cons_self
        · exact mem_cons_of_mem _ (hall (by omega) x hx hm)
    · rename_i hmat
      obtain ⟨hle, hall⟩ := ih _ hwok
      refine ⟨hle, fun hlt x hx hm => ?_⟩
      rcases mem_cons.mp hx with rfl | hx
      · exact absurd hm hmat
      · exact hall hlt x hx hm

end Picks

/-! ### The loops on the links -/

namespace FutexState

variable (s)

def matching (tgid address t : ℕ) : Bool := (s.task t).tgid = tgid ∧ (s.waiter t).address = address

def expired (now t : ℕ) : Bool := (s.waiter t).deadlineNs ≠ uint64Max ∧ (s.waiter t).deadlineNs ≤ now

def verdict (now t : ℕ) : Result := if s.expired now t then .timedOut else .ok

end FutexState

lemma verdict_congr {now : ℕ} (h : s'.expired now t = s.expired now t) : s'.verdict now t = s.verdict now t := by
  unfold FutexState.verdict
  rw [h]

lemma wakeLoop_some {tgid address value now fuel woken : ℕ} (hmore : ¬value ≤ woken) :
    FutexState.wakeLoop tgid address value now (fuel + 1) (some t) woken s =
      if s.matching tgid address t then
        FutexState.wakeLoop tgid address value now fuel (s.buckets.next t)
          (if s.expired now t then woken else woken + 1) (s.release t (s.verdict now t))
      else FutexState.wakeLoop tgid address value now fuel (s.buckets.next t) woken s := by
  have hmat : s.matching tgid address t = true ↔ (s.task t).tgid = tgid ∧ (s.waiter t).address = address := by
    simp [FutexState.matching]
  have hexp : s.expired now t = true ↔ (s.waiter t).deadlineNs ≠ uint64Max ∧ (s.waiter t).deadlineNs ≤ now := by
    simp [FutexState.expired]
  rw [FutexState.wakeLoop, if_neg hmore]
  simp only [hmat, hexp, FutexState.verdict, FutexState.release]
  rfl

theorem Queues.wakeLoop (h : Queues s B D) (tgid address value now : ℕ) {fuel : ℕ} {b : Fin futexBucketCount}
    (pre : List ℕ) {rest : List ℕ} (hspl : B b = pre ++ rest) (hfuel : rest.length ≤ fuel) (woken : ℕ) :
    let ts := picks (s.matching tgid address) (s.expired now) value rest woken
    let result := FutexState.wakeLoop tgid address value now fuel rest.head? woken s
    Released s result.1 ts (s.verdict now) ∧ result.2 = woken + (ts.filter (!s.expired now ·)).length ∧
      ∃ B' D', Queues result.1 B' D' := by
  induction rest generalizing s B D pre fuel woken with
  | nil =>
    have hdone : FutexState.wakeLoop tgid address value now fuel ([] : List ℕ).head? woken s = (s, woken) := by
      cases fuel <;> rfl
    dsimp only
    rw [hdone]
    exact ⟨.nil s _, rfl, B, D, h⟩
  | cons t rest ih =>
    cases fuel with
    | zero => cases hfuel
    | succ fuel =>
    have hnd := h.nodup b
    rw [hspl] at hnd
    have htpre : t ∉ pre := fun hmem => (List.nodup_append.mp hnd).2.2 _ hmem _ mem_cons_self rfl
    have htres : t ∉ rest := (List.nodup_cons.mp (List.nodup_append.mp hnd).2.1).1
    have hnext : s.buckets.next t = rest.head? := (h.buckets.isList b).next pre t rest hspl
    have hfuel : rest.length ≤ fuel := Nat.le_of_succ_le_succ hfuel
    rw [List.head?_cons]
    dsimp only
    unfold picks
    by_cases hdone : value ≤ woken
    · rw [FutexState.wakeLoop, if_pos hdone, if_pos hdone]
      exact ⟨.nil s _, rfl, B, D, h⟩
    rw [wakeLoop_some hdone, if_neg hdone, hnext]
    by_cases hmat : s.matching tgid address t = true
    · rw [if_pos hmat, if_pos hmat]
      generalize hmore : (if s.expired now t = true then woken else woken + 1) = more
      -- the loop goes on behind the released waiter
      have hone := h.released_one t (s.verdict now)
      have hsame : ∀ x ∈ rest, (s.release t (s.verdict now t)).matching tgid address x = s.matching tgid address x ∧
          (s.release t (s.verdict now t)).expired now x = s.expired now x := fun x hx => by
        have hwtr := hone.waiter x fun hmem => htres (mem_singleton.mp hmem ▸ hx)
        unfold FutexState.matching FutexState.expired
        rw [hwtr, (hone.kept x).2.1]
        exact ⟨rfl, rfl⟩
      have hers : (fun b => (B b).erase t) b = pre ++ rest := by
        dsimp only
        rw [hspl, List.erase_append_right _ htpre, List.erase_cons_head]
      obtain ⟨hrel, hcnt, hqus⟩ := ih (h.release t (s.verdict now t)) _ hers hfuel more
      rw [picks_congr hsame] at hrel hcnt
      have hsub := (picks_sublist (s.matching tgid address) (s.expired now) value rest more).subset
      refine ⟨hone.cons (fun hmem => htres (hsub hmem)) (hrel.congr fun x hx => ?_), ?_, hqus⟩
      · exact (verdict_congr (hsame x (hsub hx)).2).symm
      · rw [hcnt, List.filter_congr fun x hx => by rw [(hsame x (hsub hx)).2], ← hmore]
        cases hexp : s.expired now t with
        | true => simp [hexp]
        | false =>
          simp [hexp]
          omega
    · rw [if_neg hmat, if_neg hmat]
      exact ih h (pre ++ [t]) (by rw [hspl, List.append_assoc, List.singleton_append]) hfuel woken

/-- **What a wake does**: it releases the waiters that it picks from the bucket, and counts those that have not
expired. -/
theorem Queues.futexWake (h : Queues s B D) (tgid address value now : ℕ) :
    let ts := picks (s.matching tgid address) (s.expired now) value (B (bucketOf tgid address)) 0
    let result := s.futexWake tgid address value now
    Released s result.1 ts (s.verdict now) ∧ result.2 = (ts.filter (!s.expired now ·)).length ∧
      ∃ B' D', Queues result.1 B' D' := by
  have hloop := h.wakeLoop tgid address value now []
    (List.nil_append (B (bucketOf tgid address))).symm (h.length_le _) 0
  rw [← (h.buckets.isList (bucketOf tgid address)).head] at hloop
  dsimp only at hloop
  rw [Nat.zero_add] at hloop
  exact hloop

lemma takeWhile_congr {α : Type} {p q : α → Bool} {l : List α} (h : ∀ x ∈ l, p x = q x) :
    l.takeWhile p = l.takeWhile q := by
  induction l with
  | nil => rfl
  | cons x l ih =>
    rw [List.takeWhile_cons, List.takeWhile_cons, h x mem_cons_self,
      ih fun y hy => h y (mem_cons_of_mem _ hy)]

theorem Queues.tickLoop (h : Queues s B D) {fuel : ℕ} (hfuel : D.length ≤ fuel) :
    Released s (FutexState.tickLoop fuel s) (D.takeWhile fun t => decide ((s.waiter t).deadlineNs ≤ s.now))
        (fun _ => .timedOut) ∧
      ∃ B' D', Queues (FutexState.tickLoop fuel s) B' D' := by
  induction D generalizing s B fuel with
  | nil =>
    have hhead : s.deadlines.head () = none := (h.deadlines.isList ()).head
    have hdone : FutexState.tickLoop fuel s = s := by
      cases fuel with
      | zero => rfl
      | succ fuel =>
        unfold FutexState.tickLoop
        rw [hhead]
    rw [hdone]
    exact ⟨.nil s _, B, [], h⟩
  | cons t D ih =>
    cases fuel with
    | zero => cases hfuel
    | succ fuel =>
    have hhead : s.deadlines.head () = some t := (h.deadlines.isList ()).head
    have htD : t ∉ D := (List.nodup_cons.mp h.nodup_deadlines).1
    unfold FutexState.tickLoop
    rw [hhead]
    dsimp only
    by_cases hdue : (s.waiter t).deadlineNs ≤ s.now
    · rw [if_pos hdue, List.takeWhile_cons_of_pos (by simpa using hdue)]
      have hone := h.released_one t fun _ => .timedOut
      have hqus := h.release t .timedOut
      rw [List.erase_cons_head] at hqus
      obtain ⟨hrest, haft⟩ := ih hqus (Nat.le_of_succ_le_succ hfuel)
      have hnow : (s.release t .timedOut).now = s.now := hone.now
      have hsame : (D.takeWhile fun x => decide (((s.release t .timedOut).waiter x).deadlineNs ≤
          (s.release t .timedOut).now)) = D.takeWhile fun x => decide ((s.waiter x).deadlineNs ≤ s.now) := by
        rw [hnow]
        refine takeWhile_congr fun x hx => ?_
        rw [hone.waiter x fun hmem => htD (mem_singleton.mp hmem ▸ hx)]
      rw [hsame] at hrest
      exact ⟨hone.cons (fun hmem => htD ((List.takeWhile_sublist _).subset hmem)) hrest, haft⟩
    · rw [if_neg hdue, List.takeWhile_cons_of_neg (by simpa using hdue)]
      exact ⟨.nil s _, B, t :: D, h⟩

end PlantOS.Futex
