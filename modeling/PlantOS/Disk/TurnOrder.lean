import Mathlib.Data.Int.Notation
import PlantOS.Disk.Vdisk
import PlantOS.Lib.Ring
import PlantOS.Lib.Run

/-!
# The queue of a drive

`drive_wait_queue_t` of `vdisk.c`: a ring of task ids that grows. `malloc` answers with the contents of the new cells, or
with `NULL`.
-/

namespace PlantOS.Disk

open Lib

/-- `drive_wait_queue_t` -/
structure DriveQueue where
  tids : ℕ → ℕ
  head : ℕ
  count : ℕ
  capacity : ℕ

namespace DriveQueue

variable (q : DriveQueue) (tid : ℕ)

def content : List ℕ := Ring.content q.capacity q.tids q.head q.count

/-- The capacity that a full queue grows to, modulo `2 ^ 32` -/
def grown : ℕ := if q.capacity = 0 then Vdisk.driveWaitInitialCapacity else q.capacity * 2 % (uintMax + 1)

/-- `drive_queue_push` in a queue with room -/
def append : DriveQueue :=
  { q with tids := Function.update q.tids ((q.head + q.count) % q.capacity) tid, count := q.count + 1 }

def driveQueuePush (malloc : Option (ℕ → ℕ)) : DriveQueue × Bool :=
  if q.count = q.capacity then
    if q.grown < q.capacity ∨ q.grown > uintMax / 4 then (q, false)
    else
      match malloc with
      | none => (q, false)
      | some fresh =>
        let tids i := if i < q.count then q.tids ((q.head + i) % q.capacity) else fresh i
        (append { q with tids := tids, head := 0, capacity := q.grown } tid, true)
  else (q.append tid, true)

def driveQueueFront : ℕ := if q.count = 0 then uintMax else q.tids q.head

def driveQueuePop : DriveQueue × ℕ :=
  (if q.count ≠ 0 then { q with head := (q.head + 1) % q.capacity, count := q.count - 1 } else q, q.driveQueueFront)

/-- The loop of `drive_queue_remove`, with the number of rounds that are left -/
def removeLoop : ℕ → DriveQueue → Bool → DriveQueue × Bool
  | 0, q, removed => (q, removed)
  | n + 1, q, removed =>
    let (rest, queued) := q.driveQueuePop
    if queued = tid then removeLoop n rest true
    -- the cell that was popped is free: nothing grows here
    else removeLoop n (rest.driveQueuePush queued none).1 removed

def driveQueueRemove : DriveQueue × Bool := removeLoop tid q.count q false

/-- The count is in the bounds of the cells, and the cells are in those of `malloc`. -/
structure WellFormed : Prop where
  count : q.count ≤ q.capacity
  head : q.capacity ≠ 0 → q.head < q.capacity
  capacity : q.capacity ≤ uintMax / 4

variable {q tid}

@[simp] lemma content_length : q.content.length = q.count := Ring.content_length

lemma WellFormed.front (h : q.WellFormed) (hcnt : q.count ≠ 0) : q.content.head? = some q.driveQueueFront := by
  have hcap := h.count
  unfold driveQueueFront
  rw [if_neg hcnt]
  exact Ring.content_head (h.head (by omega)) hcnt

lemma WellFormed.append (h : q.WellFormed) (tid : ℕ) (hroom : q.count < q.capacity) :
    (q.append tid).WellFormed ∧ (q.append tid).content = q.content ++ [tid] :=
  ⟨⟨hroom, h.head, h.capacity⟩, Ring.content_update (h.head (by omega)) hroom tid⟩

lemma WellFormed.grown (h : q.WellFormed) : q.capacity < q.grown := by
  have hcap := h.capacity
  unfold DriveQueue.grown
  split_ifs with hzero
  · rw [hzero]
    exact Nat.zero_lt_succ _
  · unfold uintMax at hcap ⊢
    omega

/-- **A push adds to the end or changes nothing.** -/
theorem WellFormed.push (h : q.WellFormed) (tid : ℕ) (malloc : Option (ℕ → ℕ)) :
    ((q.driveQueuePush tid malloc).2 = false → (q.driveQueuePush tid malloc).1 = q) ∧
    ((q.driveQueuePush tid malloc).2 = true → (q.driveQueuePush tid malloc).1.WellFormed ∧
      (q.driveQueuePush tid malloc).1.content = q.content ++ [tid]) := by
  unfold driveQueuePush
  split_ifs with hfull hlim
  · exact ⟨fun _ => rfl, nofun⟩
  · cases malloc with
    | none => exact ⟨fun _ => rfl, nofun⟩
    | some fresh =>
      refine ⟨nofun, fun _ => ?_⟩
      have hgrn := h.grown
      have hroom : q.count < q.grown := hfull ▸ hgrn
      have hcopy : (⟨fun i => if i < q.count then q.tids ((q.head + i) % q.capacity) else fresh i, 0, q.count, q.grown⟩ :
          DriveQueue).WellFormed := ⟨(Nat.le_of_lt hroom), fun _ => Nat.zero_lt_of_lt hroom,
          Nat.le_of_not_lt fun hlt => hlim (.inr hlt)⟩
      obtain ⟨hwf, hcont⟩ := hcopy.append tid hroom
      refine ⟨hwf, hcont.trans ?_⟩
      congr 1
      exact Ring.content_copy (Nat.le_of_lt hroom) fresh
  · have hcnt := h.count
    exact ⟨nofun, fun _ => h.append tid (by omega)⟩

/-- **A pop takes the first tid.** -/
theorem WellFormed.pop (h : q.WellFormed) :
    q.driveQueuePop.1.WellFormed ∧ q.driveQueuePop.1.content = q.content.tail := by
  unfold driveQueuePop
  split_ifs with hcnt
  · have hcap := h.count
    have hpos : 0 < q.capacity := by omega
    refine ⟨⟨Nat.le_trans (Nat.sub_le ..) hcap, fun _ => Nat.mod_lt _ hpos, h.capacity⟩, ?_⟩
    rw [← List.drop_one]
    exact Ring.content_pop
  · refine ⟨h, ?_⟩
    rw [not_not] at hcnt
    rw [List.length_eq_zero_iff.mp (content_length.trans hcnt), List.tail_nil]

/-- The rounds of `drive_queue_remove` take the tids off the front and put those that stay behind the others. -/
lemma WellFormed.removeLoop (h : q.WellFormed) (tid : ℕ) (removed : Bool) {front back : List ℕ}
    (hcont : q.content = front ++ back) :
    (DriveQueue.removeLoop tid front.length q removed).1.WellFormed ∧
    (DriveQueue.removeLoop tid front.length q removed).1.content = back ++ front.filter (· ≠ tid) ∧
    (DriveQueue.removeLoop tid front.length q removed).2 = (removed || decide (tid ∈ front)) := by
  induction front generalizing q back removed with
  | nil =>
    refine ⟨h, ?_, by simp [DriveQueue.removeLoop]⟩
    simpa [DriveQueue.removeLoop] using hcont
  | cons first front ih =>
    have hlen := content_length (q := q)
    rw [hcont, List.cons_append, List.length_cons] at hlen
    have hfst : q.driveQueueFront = first := by
      have hft := h.front (by omega)
      rw [hcont] at hft
      exact (Option.some.inj hft).symm
    obtain ⟨hrest, hpop⟩ := h.pop
    rw [hcont, List.cons_append, List.tail_cons] at hpop
    have hroom : q.driveQueuePop.1.count < q.driveQueuePop.1.capacity := by
      have hcnt := h.count
      unfold driveQueuePop
      rw [if_pos (by omega)]
      dsimp only
      omega
    rw [List.length_cons, DriveQueue.removeLoop]
    dsimp only
    rw [show q.driveQueuePop.2 = first from hfst]
    split_ifs with heq
    · obtain ⟨hwf, hfin, hflag⟩ := ih hrest true hpop
      refine ⟨hwf, by rw [hfin]; simp [heq], by rw [hflag]; simp [heq]⟩
    · have hpush : q.driveQueuePop.1.driveQueuePush first none = (q.driveQueuePop.1.append first, true) := by
        unfold driveQueuePush
        rw [if_neg (Nat.ne_of_lt hroom)]
      obtain ⟨happ, hadd⟩ := hrest.append first hroom
      rw [hpop, List.append_assoc] at hadd
      rw [hpush]
      obtain ⟨hwf, hfin, hflag⟩ := ih happ removed hadd
      refine ⟨hwf, by rw [hfin]; simp [heq], by rw [hflag]; simp [Ne.symm heq]⟩

/-- **A removal keeps the other tids and their order.** -/
theorem WellFormed.remove (h : q.WellFormed) (tid : ℕ) :
    (q.driveQueueRemove tid).1.WellFormed ∧
    (q.driveQueueRemove tid).1.content = q.content.filter (· ≠ tid) ∧
    (q.driveQueueRemove tid).2 = decide (tid ∈ q.content) := by
  have hloop := h.removeLoop tid false (List.append_nil q.content).symm
  rw [content_length, List.nil_append, Bool.false_or] at hloop
  exact hloop

end DriveQueue

end PlantOS.Disk

/-! ## Turns on a drive -/

namespace PlantOS.Disk.Turns

open Lib

def nullTid : ℕ := 11459810

/-- An entry of `vdisk_ctl`, as far as `disk_drive_slot` reads it -/
structure DriveEntry where
  flag : VdiskType
  ownsSerialization : Bool
  driveName : List UInt8

/-- `vdisk_ctl` and `drive_name` -/
structure Drives where
  vdiskCtl : ℕ → DriveEntry
  driveName : ℕ → Option (List UInt8)

def Drives.getDriveCode (d : Drives) (name : List UInt8) : ℕ :=
  ((List.range 16).find? fun i => d.driveName i = some name).getD 16

/-- `"DISK_DRIVE"` -/
def diskDrive : List UInt8 := [68, 73, 83, 75, 95, 68, 82, 73, 86, 69]

def Drives.diskDriveSlot (d : Drives) (drive : ℤ) : ℕ :=
  let index := drive - 65
  let entry := d.vdiskCtl index.toNat
  if index < 0 ∨ index ≥ 26 ∨ entry.flag = .none then 16
  else if entry.ownsSerialization then 16
  else if entry.driveName ≠ [] ∧ d.getDriveCode entry.driveName < 16 then d.getDriveCode entry.driveName
  else d.getDriveCode diskDrive

/-- Where a task is: outside, in `drive_wait_turn`, or between `DriveSemaphoreTake` and `DriveSemaphoreGive` -/
inductive Phase
  | idle
  | waits (code : ℕ)
  | drives (code : ℕ)
  deriving DecidableEq, Repr

/-- `enum WAIT_REASON`, as far as the modelled code tells the reasons apart -/
inductive WaitReason
  | none | disk | child | other
  deriving DecidableEq, Repr

/-- `mtask`, as far as its turns depend on it -/
structure Task where
  /-- the slot has a task that has not been finished -/
  live : Bool
  /-- the state is `WAITING` or `SLEEPING` -/
  waiting : Bool
  reason : WaitReason
  ready : Bool
  phase : Phase
  /-- the number of its latest push; no code reads it -/
  ticket : ℕ
  /-- how many calls of `finish_task` in other tasks are releasing the task: they may sleep there, and keep their
  pointer to the slot -/
  finishers : ℕ
  deriving DecidableEq, Repr

structure TurnState where
  task : ℕ → Task
  queue : ℕ → DriveQueue
  drives : Drives
  /-- the number of all pushes; no code reads it -/
  tickets : ℕ

namespace TurnState

variable (s : TurnState)

def setTask (t : ℕ) (f : Task → Task) : TurnState := { s with task := Function.update s.task t (f (s.task t)) }

def setQueue (code : ℕ) (q : DriveQueue) : TurnState := { s with queue := Function.update s.queue code q }

/-- `drive_can_skip_sync` in the task `t` -/
def driveCanSkipSync (t : ℕ) : Bool := t = nullTid

/-- `task_fall_blocked_reason` -/
def taskFallBlocked (t : ℕ) (reason : WaitReason) : TurnState :=
  s.setTask t fun x =>
    if x.ready then { x with ready := false, reason := .none } else { x with waiting := true, reason := reason, ready := false }

def taskRun (t : ℕ) : TurnState :=
  s.setTask t fun x =>
    if !x.live then x
    else if x.waiting then { x with waiting := false, reason := .none, ready := false }
    else { x with ready := true }

/-- `drive_wait_turn` up to the point at which the task has its turn or blocks. A wake from before lets the first call of
`task_fall_blocked_reason` return; the second one blocks. -/
def driveWaitTurn (t code : ℕ) : TurnState :=
  if code ≥ 16 ∨ driveCanSkipSync t then s.setTask t fun x => { x with phase := .drives code }
  else if (s.queue code).driveQueueFront = t then s.setTask t fun x => { x with phase := .drives code }
  else
    let s := s.setTask t fun x => { x with phase := .waits code }
    let s := s.taskFallBlocked t .disk
    if (s.task t).waiting then s else s.taskFallBlocked t .disk

/-- `DriveSemaphoreTake`: the task is back in `Phase.idle` if it returns `false`. -/
def driveSemaphoreTake (t code : ℕ) (malloc : Option (ℕ → ℕ)) : TurnState :=
  if code ≥ 16 ∨ driveCanSkipSync t then s.setTask t fun x => { x with phase := .drives code }
  else
    let (q, pushed) := (s.queue code).driveQueuePush t malloc
    let s := s.setQueue code q
    if pushed then
      let s := s.setTask t fun x => { x with phase := .waits code, ticket := s.tickets }
      { s with tickets := s.tickets + 1 }.driveWaitTurn t code
    else s

def driveSemaphoreGive (t code : ℕ) : TurnState :=
  if code ≥ 16 ∨ driveCanSkipSync t then s
  else if (s.queue code).driveQueueFront ≠ t then s
  else
    let q := (s.queue code).driveQueuePop.1
    let s := s.setQueue code q
    if q.count > 0 then s.taskRun q.driveQueueFront else s

/-- One round of `vdisk_remove_task` -/
def removeFrom (t : ℕ) (s : TurnState) (code : ℕ) : TurnState :=
  let (q, removed) := (s.queue code).driveQueueRemove t
  let s := s.setQueue code q
  if removed ∧ q.count > 0 then s.taskRun q.driveQueueFront else s

def vdiskRemoveTask (t : ℕ) : TurnState := (List.range 16).foldl (removeFrom t) s

end TurnState

/-- What happens between two points at which tasks can be switched -/
inductive Event
  /-- `disk_transfer` or `disk_sync` of a drive, up to its turn; with the answer of `malloc` to a queue that grows -/
  | access (t : ℕ) (drive : ℤ) (malloc : Option (ℕ → ℕ))
  /-- a task goes on in `drive_wait_turn` -/
  | resume (t : ℕ)
  /-- the transfer is over -/
  | give (t : ℕ)
  /-- a wait outside `drive_wait_turn`, of the driver for example -/
  | block (t : ℕ) (reason : WaitReason)
  /-- `task_run` for any reason -/
  | run (t : ℕ)
  /-- `task_next` gives a CPU to the task -/
  | switch (t : ℕ)
  /-- `task_finish_pending` puts the end of a process off until its threads have left their CPUs -/
  | defer (t : ℕ)
  /-- `finish_task` in another task begins, wherever the task is; after `vdisk_remove_task` it may sleep (`user_vm_lock`,
  `vfs_mapping_sync`), with the task still in use -/
  | finish (t : ℕ)
  /-- a `finish_task` in another task has released the task, and ends it -/
  | finishEnd (t : ℕ)
  /-- a task finishes itself (`task_exit`, or in `task_next`, wherever that was called); from then on its code is that
  of the release, which may access disks -/
  | exit (t : ℕ)
  | exitEnd (t : ℕ)
  /-- a new task in a free slot -/
  | create (t : ℕ)
  /-- disks are registered or logged out -/
  | configure (drives : Drives)

def Task.fresh : Task := ⟨true, false, .none, false, .idle, 0, 0⟩

/-- One step. Any task that does not wait may run, on any CPU. -/
def step (s : TurnState) : Event → Option TurnState
  | .access t drive malloc =>
    if (s.task t).live ∧ (s.task t).waiting = false ∧ (s.task t).phase = .idle then
      some (s.driveSemaphoreTake t (s.drives.diskDriveSlot drive) malloc)
    else none
  | .resume t =>
    match (s.task t).phase with
    | .waits code => if (s.task t).live ∧ (s.task t).waiting = false then some (s.driveWaitTurn t code) else none
    | _ => none
  | .give t =>
    match (s.task t).phase with
    | .drives code =>
      if (s.task t).live ∧ (s.task t).waiting = false then
        some ((s.driveSemaphoreGive t code).setTask t fun x => { x with phase := .idle })
      else none
    | _ => none
  | .block t reason =>
    match (s.task t).phase with
    | .waits _ => none
    | _ => if (s.task t).live ∧ (s.task t).waiting = false then some (s.taskFallBlocked t reason) else none
  | .run t => some (s.taskRun t)
  | .switch t => if (s.task t).live then some (s.setTask t fun x => { x with ready := false }) else none
  | .defer t =>
    if (s.task t).live then some (s.setTask t fun x => { x with waiting := true, reason := .child }) else none
  | .finish t =>
    if (s.task t).live then some ((s.vdiskRemoveTask t).setTask t fun x => { x with finishers := x.finishers + 1 })
    else none
  | .finishEnd t =>
    if 0 < (s.task t).finishers then
      some (s.setTask t fun x => { x with live := false, phase := .idle, finishers := x.finishers - 1 })
    else none
  | .exit t =>
    if (s.task t).live ∧ (s.task t).waiting = false then
      some ((s.vdiskRemoveTask t).setTask t fun x => { x with phase := .idle })
    else none
  | .exitEnd t =>
    if (s.task t).live ∧ (s.task t).waiting = false ∧ (s.task t).phase = .idle then
      some (s.setTask t fun x => { x with live := false })
    else none
  | .create t =>
    if (s.task t).live then none
    else some (s.setTask t fun x => { Task.fresh with ticket := x.ticket, finishers := x.finishers })
  | .configure drives => some { s with drives }

def sys : System TurnState Event where
  init s := (∀ t, (s.task t).phase = .idle) ∧ ∀ code, (s.queue code).count = 0 ∧ (s.queue code).capacity = 0
  step := step

end PlantOS.Disk.Turns

/-! ## Who has the turn -/

namespace PlantOS.Disk.Turns

open Lib
open Function (update update_of_ne update_self)

def Phase.code : Phase → Option ℕ
  | .idle => none
  | .waits code => some code
  | .drives code => some code

/-- The queue that a task has a place in; `vdisk_remove_task` takes it from a task that is being finished. -/
def Task.code (x : Task) : Option ℕ := if x.finishers = 0 then x.phase.code else none

lemma Task.code_eq_some {x : Task} {code : ℕ} : x.code = some code ↔ x.finishers = 0 ∧ x.phase.code = some code := by
  unfold Task.code
  split
  · rename_i hfin
    simp [hfin]
  · rename_i hfin
    simp [hfin]

lemma Task.code_congr {x y : Task} (hph : y.phase = x.phase) (hfin : y.finishers = x.finishers) : y.code = x.code := by
  unfold Task.code
  rw [hph, hfin]

lemma Task.code_of_idle {x : Task} (h : x.phase = .idle) : x.code = none := by
  unfold Task.code
  rw [h]
  split <;> rfl

def Task.Blocked (x : Task) : Prop := x.waiting = true ∧ x.reason = .disk

def TurnState.queued (s : TurnState) (code : ℕ) : List ℕ := (s.queue code).content

structure Inv (s : TurnState) : Prop where
  wellFormed : ∀ code, (s.queue code).WellFormed
  queued : ∀ code t, t ∈ s.queued code ↔ (t ≠ nullTid ∧ code < 16) ∧ (s.task t).code = some code
  waits : ∀ t code, (s.task t).phase = .waits code → t ≠ nullTid ∧ code < 16
  live : ∀ t, (s.task t).live = false → (s.task t).phase = .idle
  turn : ∀ t code, (s.task t).phase = .drives code → (s.task t).finishers = 0 → t ≠ nullTid → code < 16 →
    (s.queued code).head? = some t
  awake : ∀ t code, (s.task t).phase = .waits code → (s.queued code).head? = some t → ¬(s.task t).Blocked
  order : ∀ code, (s.queued code).Pairwise fun t u => (s.task t).ticket < (s.task u).ticket
  tickets : ∀ code, ∀ t ∈ s.queued code, (s.task t).ticket < s.tickets

variable {s s' : TurnState} {t code : ℕ}

/-- The tasks are the same but for wakes. -/
structure Woken (s s' : TurnState) : Prop where
  tickets : s'.tickets = s.tickets
  live : ∀ t, (s'.task t).live = (s.task t).live
  phase : ∀ t, (s'.task t).phase = (s.task t).phase
  ticket : ∀ t, (s'.task t).ticket = (s.task t).ticket
  finishers : ∀ t, (s'.task t).finishers = (s.task t).finishers
  blocked : ∀ t, (s'.task t).Blocked → (s.task t).Blocked

lemma Woken.trans {s'' : TurnState} (h : Woken s s') (h' : Woken s' s'') : Woken s s'' :=
  ⟨h'.tickets.trans h.tickets, fun t => (h'.live t).trans (h.live t), fun t => (h'.phase t).trans (h.phase t),
    fun t => (h'.ticket t).trans (h.ticket t), fun t => (h'.finishers t).trans (h.finishers t),
      fun t hb => h.blocked t (h'.blocked t hb)⟩

lemma setQueue_woken (s : TurnState) (code : ℕ) (q : DriveQueue) : Woken s (s.setQueue code q) :=
  ⟨rfl, fun _ => rfl, fun _ => rfl, fun _ => rfl, fun _ => rfl, fun _ => id⟩

@[simp] lemma setTask_self (s : TurnState) (t : ℕ) (f : Task → Task) : (s.setTask t f).task t = f (s.task t) :=
  update_self ..

lemma setTask_of_ne (s : TurnState) {t u : ℕ} (hne : u ≠ t) (f : Task → Task) : (s.setTask t f).task u = s.task u :=
  update_of_ne hne ..

lemma taskRun_woken (s : TurnState) (t : ℕ) : Woken s (s.taskRun t) := by
  have hself : ∀ u, u ≠ t → (s.taskRun t).task u = s.task u := fun u hne => setTask_of_ne s hne _
  have hrun : ((s.taskRun t).task t).live = (s.task t).live ∧ ((s.taskRun t).task t).phase = (s.task t).phase ∧
      ((s.taskRun t).task t).ticket = (s.task t).ticket ∧ ((s.taskRun t).task t).finishers = (s.task t).finishers ∧
      (((s.taskRun t).task t).Blocked → (s.task t).Blocked) := by
    unfold TurnState.taskRun Task.Blocked
    rw [setTask_self]
    split_ifs <;> simp_all
  have hall : ∀ u, ((s.taskRun t).task u).live = (s.task u).live ∧ ((s.taskRun t).task u).phase = (s.task u).phase ∧
      ((s.taskRun t).task u).ticket = (s.task u).ticket ∧ ((s.taskRun t).task u).finishers = (s.task u).finishers ∧
      (((s.taskRun t).task u).Blocked → (s.task u).Blocked) := fun u => by
    by_cases hu : u = t
    · exact hu ▸ hrun
    · rw [hself u hu]
      exact ⟨rfl, rfl, rfl, rfl, id⟩
  exact ⟨rfl, fun u => (hall u).1, fun u => (hall u).2.1, fun u => (hall u).2.2.1, fun u => (hall u).2.2.2.1,
    fun u => (hall u).2.2.2.2⟩

lemma taskRun_awake (hlive : (s.task t).live = true) : ¬((s.taskRun t).task t).Blocked := by
  unfold TurnState.taskRun Task.Blocked
  rw [setTask_self, hlive]
  split_ifs <;> simp_all

/-! ### The invariant along the steps -/

namespace Inv

lemma live_of_queued (h : Inv s) (ht : t ∈ s.queued code) : (s.task t).live = true := by
  by_contra hdead
  have hcode := ((h.queued code t).mp ht).2
  rw [Task.code_of_idle (h.live t (Bool.eq_false_iff.mpr hdead))] at hcode
  cases hcode

lemma nodup (h : Inv s) (code : ℕ) : (s.queued code).Nodup := by
  refine (h.order code).imp fun hlt heq => ?_
  rw [heq] at hlt
  exact Nat.lt_irrefl _ hlt

lemma front (h : Inv s) (ht : t ∈ s.queued code) : (s.queued code).head? = some (s.queue code).driveQueueFront := by
  refine (h.wellFormed code).front fun hzero => ?_
  have hnil : s.queued code = [] := List.length_eq_zero_iff.mp (DriveQueue.content_length.trans hzero)
  rw [hnil] at ht
  cases ht

/-- **A step that changes only waits keeps the invariant**, if it blocks nobody at the front. -/
theorem frame (h : Inv s) (hqu : s'.queue = s.queue) (htks : s'.tickets = s.tickets)
    (htsk : ∀ u, (s'.task u).live = (s.task u).live ∧ (s'.task u).phase = (s.task u).phase ∧
      (s'.task u).ticket = (s.task u).ticket ∧ (s'.task u).finishers = (s.task u).finishers)
    (hawak : ∀ u code, (s.task u).phase = .waits code → (s.queued code).head? = some u →
      ¬(s.task u).Blocked → ¬(s'.task u).Blocked) : Inv s' := by
  have hqud : s'.queued = s.queued := by
    unfold TurnState.queued
    rw [hqu]
  constructor
  · rw [hqu]
    exact h.wellFormed
  · intro code u
    rw [hqud, Task.code_congr (htsk u).2.1 (htsk u).2.2.2]
    exact h.queued code u
  · intro u code hph
    exact h.waits u code ((htsk u).2.1 ▸ hph)
  · intro u hlive
    rw [(htsk u).2.1]
    exact h.live u ((htsk u).1 ▸ hlive)
  · intro u code hph hfin
    rw [hqud]
    exact h.turn u code ((htsk u).2.1 ▸ hph) ((htsk u).2.2.2 ▸ hfin)
  · intro u code hph hhead
    rw [(htsk u).2.1] at hph
    rw [hqud] at hhead
    exact hawak u code hph hhead (h.awake u code hph hhead)
  · intro code
    rw [hqud]
    simp only [(htsk _).2.2.1]
    exact h.order code
  · intro code u hu
    rw [hqud] at hu
    rw [(htsk u).2.2.1, htks]
    exact h.tickets code u hu

lemma frameTask (h : Inv s) {f : Task → Task} (hf : (f (s.task t)).live = (s.task t).live ∧
      (f (s.task t)).phase = (s.task t).phase ∧ (f (s.task t)).ticket = (s.task t).ticket ∧
      (f (s.task t)).finishers = (s.task t).finishers)
    (hawak : ∀ code, (s.task t).phase = .waits code → (s.queued code).head? = some t →
      ¬(s.task t).Blocked → ¬(f (s.task t)).Blocked) : Inv (s.setTask t f) := by
  refine h.frame rfl rfl (fun u => ?_) fun u code hph hhead => ?_
  · by_cases hu : u = t
    · rw [hu, setTask_self]
      exact hf
    · rw [setTask_of_ne s hu]
      exact ⟨rfl, rfl, rfl, rfl⟩
  · by_cases hu : u = t
    · subst hu
      rw [setTask_self]
      exact hawak code hph hhead
    · rw [setTask_of_ne s hu]
      exact id

lemma outside (h : Inv s) (f : Task → Task) (htick : (f (s.task t)).ticket = (s.task t).ticket)
    (hlive : (f (s.task t)).live = false → (f (s.task t)).phase = .idle)
    (hbef : ∀ code, (s.task t).code = some code → t = nullTid ∨ 16 ≤ code)
    (haft : (f (s.task t)).phase = .idle ∨ ∃ code, (f (s.task t)).phase = .drives code ∧ (t = nullTid ∨ 16 ≤ code)) :
    Inv (s.setTask t f) := by
  have hout : ∀ code, t ∉ s.queued code := fun code hmem => by
    obtain ⟨⟨hne, hlt⟩, hcode⟩ := (h.queued code t).mp hmem
    rcases hbef code hcode with hnull | hle
    · exact hne hnull
    · omega
  have hoth : ∀ u code, u ∈ s.queued code → (s.setTask t f).task u = s.task u := fun u code hu =>
    setTask_of_ne s (fun heq : u = t => hout code (heq ▸ hu)) f
  constructor
  · exact h.wellFormed
  · intro code u
    by_cases hu : u = t
    · subst hu
      rw [setTask_self]
      refine iff_of_false (hout code) ?_
      rintro ⟨⟨hne, hlt⟩, hcode⟩
      replace hcode := (Task.code_eq_some.mp hcode).2
      rcases haft with hidle | ⟨code', hdrvs, hskip⟩
      · rw [hidle] at hcode
        cases hcode
      · rw [hdrvs] at hcode
        cases hcode
        rcases hskip with hnull | hle
        · exact hne hnull
        · omega
    · rw [setTask_of_ne s hu]
      exact h.queued code u
  · intro u code hph
    by_cases hu : u = t
    · subst hu
      rw [setTask_self] at hph
      rcases haft with hidle | ⟨code', hdrvs, -⟩
      · rw [hidle] at hph
        cases hph
      · rw [hdrvs] at hph
        cases hph
    · rw [setTask_of_ne s hu] at hph
      exact h.waits u code hph
  · intro u hdead
    by_cases hu : u = t
    · subst hu
      rw [setTask_self] at hdead ⊢
      exact hlive hdead
    · rw [setTask_of_ne s hu] at hdead ⊢
      exact h.live u hdead
  · intro u code hph hfin hne hlt
    by_cases hu : u = t
    · subst hu
      rw [setTask_self] at hph
      rcases haft with hidle | ⟨code', hdrvs, hskip⟩
      · rw [hidle] at hph
        cases hph
      · rw [hdrvs] at hph
        cases hph
        rcases hskip with hnull | hle
        · exact absurd hnull hne
        · omega
    · rw [setTask_of_ne s hu] at hph hfin
      exact h.turn u code hph hfin hne hlt
  · intro u code hph hhead
    rw [hoth u code (List.mem_of_mem_head? hhead)] at hph ⊢
    exact h.awake u code hph hhead
  · intro code
    refine (h.order code).imp_of_mem fun hu hv hlt => ?_
    rwa [hoth _ code hu, hoth _ code hv]
  · intro code u hu
    rw [hoth u code hu]
    exact h.tickets code u hu

/-- **The turn comes**: a task in `drive_wait_turn` that finds itself at the front drives. -/
lemma advance (h : Inv s) (hph : (s.task t).phase = .waits code) (hft : (s.queued code).head? = some t) :
    Inv (s.setTask t fun x => { x with phase := .drives code }) := by
  obtain ⟨hne, hlt⟩ := h.waits t code hph
  have hcode : ∀ u, ((s.setTask t fun x => { x with phase := .drives code }).task u).code = (s.task u).code := fun u => by
    by_cases hu : u = t
    · rw [hu, setTask_self]
      unfold Task.code
      rw [hph]
      rfl
    · rw [setTask_of_ne s hu]
  have hsame : ∀ u, ((s.setTask t fun x => { x with phase := .drives code }).task u).live = (s.task u).live ∧
      ((s.setTask t fun x => { x with phase := .drives code }).task u).ticket = (s.task u).ticket := fun u => by
    by_cases hu : u = t
    · rw [hu, setTask_self]
      exact ⟨rfl, rfl⟩
    · rw [setTask_of_ne s hu]
      exact ⟨rfl, rfl⟩
  constructor
  · exact h.wellFormed
  · intro code' u
    rw [hcode u]
    exact h.queued code' u
  · intro u code' hwts
    by_cases hu : u = t
    · subst hu
      exact ⟨hne, by rw [setTask_self] at hwts; cases hwts⟩
    · rw [setTask_of_ne s hu] at hwts
      exact h.waits u code' hwts
  · intro u hdead
    by_cases hu : u = t
    · subst hu
      rw [(hsame u).1, h.live_of_queued (List.mem_of_mem_head? hft)] at hdead
      cases hdead
    · rw [setTask_of_ne s hu] at hdead ⊢
      exact h.live u hdead
  · intro u code' hdrvs hfin hnull hbd
    by_cases hu : u = t
    · subst hu
      rw [setTask_self] at hdrvs
      cases hdrvs
      exact hft
    · rw [setTask_of_ne s hu] at hdrvs hfin
      exact h.turn u code' hdrvs hfin hnull hbd
  · intro u code' hwts hhead
    by_cases hu : u = t
    · subst hu
      rw [setTask_self] at hwts
      cases hwts
    · rw [setTask_of_ne s hu] at hwts ⊢
      exact h.awake u code' hwts hhead
  · intro code'
    simp only [(hsame _).2]
    exact h.order code'
  · intro code' u hu
    rw [(hsame u).2]
    exact h.tickets code' u hu

theorem driveWaitTurn (h : Inv s) (hph : (s.task t).phase = .waits code) (hfin : (s.task t).finishers = 0) :
    Inv (s.driveWaitTurn t code) := by
  obtain ⟨hne, hlt⟩ := h.waits t code hph
  have hmem : t ∈ s.queued code :=
    (h.queued code t).mpr ⟨⟨hne, hlt⟩, Task.code_eq_some.mpr ⟨hfin, by rw [hph]; rfl⟩⟩
  have hhead := h.front hmem
  unfold TurnState.driveWaitTurn TurnState.driveCanSkipSync
  rw [if_neg (by simp only [decide_eq_true_eq]; omega)]
  split_ifs with hft
  · exact h.advance hph (hhead.trans (congrArg some hft))
  · -- the task stays in the loop, and it is not at the front
    have hoth : ∀ code', (s.task t).phase = .waits code' → (s.queued code').head? ≠ some t := fun code' hcode heq => by
      rw [hph] at hcode
      cases hcode
      rw [hhead] at heq
      exact hft (Option.some.inj heq)
    have hsty : Inv (s.setTask t fun x => { x with phase := .waits code }) :=
      h.frameTask ⟨rfl, hph.symm, rfl, rfl⟩ fun code' hcode heq => absurd heq (hoth code' hcode)
    have hfal : ∀ {s₁ : TurnState} {reason : WaitReason}, Inv s₁ → (s₁.task t).phase = (s.task t).phase →
        s₁.queue = s.queue → Inv (s₁.taskFallBlocked t reason) := fun {s₁ reason} h₁ hph₁ hqu => by
      have hqud : s₁.queued = s.queued := by
        unfold TurnState.queued
        rw [hqu]
      refine h₁.frameTask (by split_ifs <;> exact ⟨rfl, rfl, rfl, rfl⟩) fun code' hcode heq => ?_
      rw [hqud] at heq
      exact absurd heq (hoth code' (hph₁ ▸ hcode))
    dsimp only
    split_ifs
    · exact hfal hsty (by rw [setTask_self, hph]) rfl
    · refine hfal (hfal hsty (by rw [setTask_self, hph]) rfl) ?_ rfl
      unfold TurnState.taskFallBlocked
      rw [setTask_self, setTask_self, hph]
      split_ifs <;> rfl

/-- **A task outside all calls is put at the end of a queue.** -/
theorem enqueue (h : Inv s) (hidle : (s.task t).phase = .idle) (hlive : (s.task t).live = true)
    (hwait : (s.task t).waiting = false) (hfin : (s.task t).finishers = 0) (hne : t ≠ nullTid)
    (hlt : code < 16) {q : DriveQueue} (hq : q.WellFormed)
    (hcont : q.content = s.queued code ++ [t]) :
    Inv { (s.setQueue code q).setTask t (fun x => { x with phase := .waits code, ticket := s.tickets }) with
      tickets := s.tickets + 1 } := by
  have hout : ∀ code', t ∉ s.queued code' := fun code' hmem => by
    have hcode := ((h.queued code' t).mp hmem).2
    rw [Task.code_of_idle hidle] at hcode
    cases hcode
  generalize hs' : { (s.setQueue code q).setTask t (fun x => { x with phase := .waits code, ticket := s.tickets }) with
      tickets := s.tickets + 1 } = s'
  have hself : s'.task t = { s.task t with phase := .waits code, ticket := s.tickets } := by
    rw [← hs']
    exact update_self ..
  have hoth : ∀ u, u ≠ t → s'.task u = s.task u := fun u hu => by
    rw [← hs']
    exact update_of_ne hu ..
  have htks : s'.tickets = s.tickets + 1 := by rw [← hs']
  have hqu : s'.queue code = q := by
    rw [← hs']
    exact update_self ..
  have hqus : ∀ code', code' ≠ code → s'.queue code' = s.queue code' := fun code' hcode => by
    rw [← hs']
    exact update_of_ne hcode ..
  have hqud : s'.queued code = s.queued code ++ [t] := by
    unfold TurnState.queued
    rw [hqu]
    exact hcont
  have hqueued : ∀ code', code' ≠ code → s'.queued code' = s.queued code' := fun code' hcode => by
    unfold TurnState.queued
    rw [hqus code' hcode]
  have hmem : ∀ code' u, u ≠ t → (u ∈ s'.queued code' ↔ u ∈ s.queued code') := fun code' u hu => by
    by_cases hcode : code' = code
    · rw [hcode, hqud, List.mem_append, List.mem_singleton]
      exact or_iff_left hu
    · rw [hqueued code' hcode]
  -- who is at the front does not change, unless the queue was empty
  have hhead : ∀ code' u, u ≠ t → (s'.queued code').head? = some u → (s.queued code').head? = some u :=
    fun code' u hu hfst => by
    by_cases hcode : code' = code
    · subst hcode
      rw [hqud, List.head?_append] at hfst
      cases hcase : (s.queued code').head? with
      | none =>
        rw [hcase] at hfst
        exact absurd (Option.some.inj hfst).symm hu
      | some first =>
        rw [hcase] at hfst
        exact hfst
    · rwa [hqueued code' hcode] at hfst
  constructor
  · intro code'
    by_cases hcode : code' = code
    · rw [hcode, hqu]
      exact hq
    · rw [hqus code' hcode]
      exact h.wellFormed code'
  · intro code' u
    by_cases hu : u = t
    · subst hu
      rw [hself]
      by_cases hcode : code' = code
      · rw [hcode, hqud]
        exact iff_of_true (List.mem_append_right _ (List.mem_singleton_self u))
          ⟨⟨hne, hlt⟩, Task.code_eq_some.mpr ⟨hfin, rfl⟩⟩
      · rw [hqueued code' hcode]
        exact iff_of_false (hout code') fun hin =>
          hcode (Option.some.inj (Task.code_eq_some.mp hin.2).2).symm
    · rw [hmem code' u hu, hoth u hu]
      exact h.queued code' u
  · intro u code' hwts
    by_cases hu : u = t
    · subst hu
      rw [hself] at hwts
      cases hwts
      exact ⟨hne, hlt⟩
    · rw [hoth u hu] at hwts
      exact h.waits u code' hwts
  · intro u hdead
    by_cases hu : u = t
    · subst hu
      rw [hself] at hdead
      exact absurd hlive (Bool.eq_false_iff.mp hdead)
    · rw [hoth u hu] at hdead ⊢
      exact h.live u hdead
  · intro u code' hdrvs hfin' hnull hbd
    by_cases hu : u = t
    · subst hu
      rw [hself] at hdrvs
      cases hdrvs
    · rw [hoth u hu] at hdrvs hfin'
      have hfst := h.turn u code' hdrvs hfin' hnull hbd
      by_cases hcode : code' = code
      · subst hcode
        rw [hqud, List.head?_append, hfst]
        rfl
      · rwa [hqueued code' hcode]
  · intro u code' hwts hfst
    by_cases hu : u = t
    · subst hu
      rw [hself]
      exact fun hblk => absurd hblk.1 (Bool.eq_false_iff.mp hwait)
    · rw [hoth u hu] at hwts ⊢
      exact h.awake u code' hwts (hhead code' u hu hfst)
  · intro code'
    have hkept : ((s.queued code').Pairwise fun u v => (s'.task u).ticket < (s'.task v).ticket) :=
      (h.order code').imp_of_mem fun hu hv hlt => by
        rwa [hoth _ fun heq => hout code' (heq ▸ hu), hoth _ fun heq => hout code' (heq ▸ hv)]
    by_cases hcode : code' = code
    · subst hcode
      rw [hqud, List.pairwise_append]
      refine ⟨hkept, List.pairwise_singleton .., fun u hu v hv => ?_⟩
      rw [List.mem_singleton.mp hv, hself, hoth u fun heq => hout code' (heq ▸ hu)]
      exact h.tickets code' u hu
    · rwa [hqueued code' hcode]
  · intro code' u hu
    rw [htks]
    by_cases heq : u = t
    · subst heq
      rw [hself]
      exact Nat.lt_succ_self _
    · rw [hoth u heq]
      refine Nat.lt_succ_of_lt (h.tickets code' u ?_)
      exact (hmem code' u heq).mp hu

/-- **A task leaves all queues**, and the one that follows it is woken. -/
theorem leave (h : Inv s) (hwellFormed : ∀ code, (s'.queue code).WellFormed)
    (hqud : ∀ code, s'.queued code = (s.queued code).filter (· ≠ t)) (htks : s'.tickets = s.tickets)
    (hoth : ∀ u, u ≠ t → (s'.task u).live = (s.task u).live ∧ (s'.task u).phase = (s.task u).phase ∧
      (s'.task u).ticket = (s.task u).ticket ∧ (s'.task u).finishers = (s.task u).finishers ∧
      ((s'.task u).Blocked → (s.task u).Blocked))
    (hself : (s'.task t).phase = .idle ∨ (s'.task t).finishers ≠ 0 ∧ (s'.task t).phase = (s.task t).phase ∧
      (s'.task t).live = (s.task t).live)
    (hnext : ∀ code, t ∈ s.queued code → ∀ u, (s'.queued code).head? = some u → ¬(s'.task u).Blocked) : Inv s' := by
  have hmem : ∀ code u, u ∈ s'.queued code ↔ u ∈ s.queued code ∧ u ≠ t := fun code u => by
    rw [hqud, List.mem_filter]
    simp
  have hnone : (s'.task t).code = none := by
    rcases hself with hidle | ⟨hfin, -⟩
    · exact Task.code_of_idle hidle
    · exact if_neg hfin
  have hsame : ∀ code, t ∉ s.queued code → s'.queued code = s.queued code := fun code hout => by
    rw [hqud]
    exact List.filter_eq_self.mpr fun u hu => by simpa using fun heq : u = t => hout (heq ▸ hu)
  constructor
  · exact hwellFormed
  · intro code u
    rw [hmem, h.queued]
    by_cases hu : u = t
    · subst hu
      rw [hnone]
      exact iff_of_false (fun hin => hin.2 rfl) nofun
    · rw [Task.code_congr (hoth u hu).2.1 (hoth u hu).2.2.2.1]
      exact and_iff_left hu
  · intro u code hwts
    by_cases hu : u = t
    · subst hu
      rcases hself with hidle | ⟨-, hph, -⟩
      · rw [hidle] at hwts
        cases hwts
      · exact h.waits u code (hph ▸ hwts)
    · exact h.waits u code ((hoth u hu).2.1 ▸ hwts)
  · intro u hdead
    by_cases hu : u = t
    · subst hu
      rcases hself with hidle | ⟨-, hph, hlive⟩
      · exact hidle
      · exact hph.trans (h.live u (hlive ▸ hdead))
    · rw [(hoth u hu).2.1]
      exact h.live u ((hoth u hu).1 ▸ hdead)
  · intro u code hdrvs hfin hne hlt
    by_cases hu : u = t
    · subst hu
      rw [Task.code_eq_some.mpr ⟨hfin, by rw [hdrvs]; rfl⟩] at hnone
      cases hnone
    · have hfst := h.turn u code ((hoth u hu).2.1 ▸ hdrvs) ((hoth u hu).2.2.2.1 ▸ hfin) hne hlt
      obtain ⟨rest, hcont⟩ := List.head?_eq_some_iff.mp hfst
      rw [hqud, hcont, List.filter_cons_of_pos (by simpa using hu)]
      rfl
  · intro u code hwts hfst
    by_cases hin : t ∈ s.queued code
    · exact hnext code hin u hfst
    · rw [hsame code hin] at hfst
      have hu : u ≠ t := fun heq => hin (heq ▸ List.mem_of_mem_head? hfst)
      obtain ⟨-, hph, -, -, hblk⟩ := hoth u hu
      exact fun hb => h.awake u code (hph ▸ hwts) hfst (hblk hb)
  · intro code
    rw [hqud]
    refine ((h.order code).filter _).imp_of_mem fun hu hv hlt => ?_
    rwa [(hoth _ (by simpa using (List.mem_filter.mp hu).2)).2.2.1,
      (hoth _ (by simpa using (List.mem_filter.mp hv).2)).2.2.1]
  · intro code u hu
    obtain ⟨hin, hne⟩ := (hmem code u).mp hu
    rw [(hoth u hne).2.2.1, htks]
    exact h.tickets code u hin

lemma filter_front (h : Inv s) {rest : List ℕ} (hcont : s.queued code = t :: rest) :
    (s.queued code).filter (· ≠ t) = rest ∧ ∀ code', code' ≠ code → (s.queued code').filter (· ≠ t) = s.queued code' := by
  have hnd := h.nodup code
  rw [hcont] at hnd ⊢
  have hmem : t ∈ s.queued code := hcont ▸ List.mem_cons_self
  constructor
  · rw [List.filter_cons_of_neg (by simp)]
    exact List.filter_eq_self.mpr fun u hu => by
      simpa using fun heq : u = t => (List.nodup_cons.mp hnd).1 (heq ▸ hu)
  · intro code' hcode
    refine List.filter_eq_self.mpr fun u hu => ?_
    have hout : u ≠ t := fun heq => by
      have hin := ((h.queued code' u).mp hu).2
      rw [heq, ((h.queued code t).mp hmem).2] at hin
      exact hcode (Option.some.inj hin).symm
    simpa using hout

/-- **`DriveSemaphoreGive`** of a task that drives -/
theorem give (h : Inv s) (hph : (s.task t).phase = .drives code) (hfin : (s.task t).finishers = 0) :
    Inv ((s.driveSemaphoreGive t code).setTask t fun x => { x with phase := .idle }) ∧
    ∀ code', ((s.driveSemaphoreGive t code).setTask t fun x => { x with phase := .idle }).queued code' =
      (s.queued code').filter (· ≠ t) := by
  unfold TurnState.driveSemaphoreGive TurnState.driveCanSkipSync
  by_cases hskip : code ≥ 16 ∨ decide (t = nullTid) = true
  · have hskip' : t = nullTid ∨ 16 ≤ code := by simpa [or_comm] using hskip
    rw [if_pos hskip]
    refine ⟨h.outside _ rfl (fun _ => rfl) (fun code' hcode => ?_) (.inl rfl), fun code' => ?_⟩
    · replace hcode := (Task.code_eq_some.mp hcode).2
      rw [hph] at hcode
      cases hcode
      exact hskip'
    · refine (List.filter_eq_self.mpr fun u hu => ?_).symm
      have hout : u ≠ t := fun heq => by
        obtain ⟨⟨hne, hlt⟩, hcode⟩ := (h.queued code' u).mp hu
        replace hcode := (Task.code_eq_some.mp hcode).2
        rw [heq, hph] at hcode
        cases hcode
        rw [heq] at hne
        omega
      simpa using hout
  · have hbds : t ≠ nullTid ∧ code < 16 := by simpa [and_comm] using hskip
    have hhead := h.turn t code hph hfin hbds.1 hbds.2
    have hft : (s.queue code).driveQueueFront = t :=
      Option.some.inj ((h.front (List.mem_of_mem_head? hhead)).symm.trans hhead)
    obtain ⟨rest, hcont⟩ := List.head?_eq_some_iff.mp hhead
    obtain ⟨hfilt, hfil⟩ := h.filter_front hcont
    obtain ⟨hwf, hpop⟩ := (h.wellFormed code).pop
    have htail : (s.queue code).driveQueuePop.1.content = rest := hpop.trans (congrArg List.tail hcont)
    rw [if_neg hskip, if_neg (not_not.mpr hft)]
    dsimp only
    generalize (s.queue code).driveQueuePop.1 = q at hwf htail
    generalize hs₁ : (if q.count > 0 then (s.setQueue code q).taskRun q.driveQueueFront else s.setQueue code q) = s₁
    have hqu : s₁.queue = update s.queue code q := by
      rw [← hs₁]
      split_ifs <;> rfl
    have hwok : Woken s s₁ := by
      rw [← hs₁]
      split_ifs
      · exact (setQueue_woken s code q).trans (taskRun_woken _ _)
      · exact setQueue_woken s code q
    have hqud : ∀ code', s₁.queued code' = (s.queued code').filter (· ≠ t) := fun code' => by
      unfold TurnState.queued at hfilt hfil ⊢
      rw [hqu]
      by_cases hcode : code' = code
      · rw [hcode, update_self, hfilt, htail]
      · rw [update_of_ne hcode, hfil code' hcode]
    refine ⟨h.leave (fun code' => ?_) hqud hwok.tickets (fun u hu => ?_) ?_ fun code' hin u hfst => ?_, hqud⟩
    · show (s₁.queue code').WellFormed
      rw [hqu]
      by_cases hcode : code' = code
      · rw [hcode, update_self]
        exact hwf
      · rw [update_of_ne hcode]
        exact h.wellFormed code'
    · rw [setTask_of_ne _ hu]
      exact ⟨hwok.live u, hwok.phase u, hwok.ticket u, hwok.finishers u, hwok.blocked u⟩
    · rw [setTask_self]
      exact .inl rfl
    · -- the queue is that of the call, and its new front is the one that runs
      have hcode : code' = code := by
        have hthis := (Task.code_eq_some.mp ((h.queued code' t).mp hin).2).2
        rw [hph] at hthis
        exact (Option.some.inj hthis).symm
      subst hcode
      have hfst' : rest.head? = some u := by
        rw [← hfilt, ← hqud]
        exact hfst
      have hu : u ∈ s.queued code' := hcont ▸ List.mem_cons_of_mem t (List.mem_of_mem_head? hfst')
      have hne : u ≠ t := fun heq => by
        have hnd := hcont ▸ h.nodup code'
        exact (List.nodup_cons.mp hnd).1 (heq ▸ List.mem_of_mem_head? hfst')
      have hcnt : q.count ≠ 0 := fun hzero => by
        rw [List.length_eq_zero_iff.mp (DriveQueue.content_length.trans hzero)] at htail
        rw [← htail] at hfst'
        cases hfst'
      have hruns : q.driveQueueFront = u := by
        have hq := hwf.front hcnt
        rw [htail, hfst'] at hq
        exact (Option.some.inj hq).symm
      rw [setTask_of_ne _ hne, ← hs₁, if_pos (Nat.pos_of_ne_zero hcnt), hruns]
      exact taskRun_awake (h.live_of_queued hu)

end Inv

/-! ### The end of a task -/

/-- What some rounds of `vdisk_remove_task` leave -/
structure Removed (t : ℕ) (codes : List ℕ) (s s' : TurnState) : Prop where
  wellFormed : ∀ code, (s'.queue code).WellFormed
  queued : ∀ code ∈ codes, s'.queued code = (s.queued code).filter (· ≠ t)
  others : ∀ code, code ∉ codes → s'.queued code = s.queued code
  woken : Woken s s'
  next : ∀ code ∈ codes, t ∈ s.queued code → ∀ u, (s'.queued code).head? = some u → (s.task u).live = true →
    ¬(s'.task u).Blocked

lemma removeFrom_spec (h : ∀ code, (s.queue code).WellFormed) (t code : ℕ) :
    Removed t [code] s (TurnState.removeFrom t s code) := by
  obtain ⟨hwf, hfilt, hflag⟩ := (h code).remove t
  unfold TurnState.removeFrom
  generalize (s.queue code).driveQueueRemove t = r at hwf hfilt hflag
  obtain ⟨q, removed⟩ := r
  dsimp only at hwf hfilt hflag ⊢
  generalize hs' : (if removed = true ∧ q.count > 0 then (s.setQueue code q).taskRun q.driveQueueFront
    else s.setQueue code q) = s'
  have hqu : s'.queue = update s.queue code q := by
    rw [← hs']
    split_ifs <;> rfl
  have hself : s'.queue code = q := hqu ▸ update_self ..
  have hoth : ∀ code', code' ≠ code → s'.queue code' = s.queue code' := fun code' hcode =>
    hqu ▸ update_of_ne hcode ..
  refine ⟨fun code' => ?_, fun code' hcode => ?_, fun code' hcode => ?_, ?_, fun code' hcode hin u hfst hlive => ?_⟩
  · by_cases hcode : code' = code
    · rw [hcode, hself]
      exact hwf
    · rw [hoth code' hcode]
      exact h code'
  · rw [List.mem_singleton.mp hcode]
    unfold TurnState.queued
    rw [hself]
    exact hfilt
  · unfold TurnState.queued
    rw [hoth code' fun heq => hcode (heq ▸ List.mem_singleton_self _)]
  · rw [← hs']
    split_ifs
    · exact (setQueue_woken s code q).trans (taskRun_woken _ _)
    · exact setQueue_woken s code q
  · rw [List.mem_singleton.mp hcode] at hin hfst
    unfold TurnState.queued at hin hfst
    rw [hself] at hfst
    have hcnt : q.count ≠ 0 := fun hzero => by
      rw [List.length_eq_zero_iff.mp (DriveQueue.content_length.trans hzero)] at hfst
      cases hfst
    have hruns : q.driveQueueFront = u := Option.some.inj ((hwf.front hcnt).symm.trans hfst)
    rw [← hs', if_pos ⟨hflag.trans (decide_eq_true hin), Nat.pos_of_ne_zero hcnt⟩, hruns]
    exact taskRun_awake hlive

/-- **All rounds of `vdisk_remove_task`** -/
theorem foldl_removeFrom (t : ℕ) (codes : List ℕ) (h : ∀ code, (s.queue code).WellFormed) :
    Removed t codes s (codes.foldl (TurnState.removeFrom t) s) := by
  induction codes generalizing s with
  | nil => exact ⟨h, nofun, fun _ _ => rfl, ⟨rfl, fun _ => rfl, fun _ => rfl, fun _ => rfl, fun _ => rfl, fun _ => id⟩, nofun⟩
  | cons code codes ih =>
    have hone := removeFrom_spec h t code
    rw [List.foldl_cons]
    generalize TurnState.removeFrom t s code = s₁ at hone
    have hrest := ih hone.wellFormed
    generalize codes.foldl (TurnState.removeFrom t) s₁ = s' at hrest
    have hself : s₁.queued code = (s.queued code).filter (· ≠ t) := hone.queued code (List.mem_singleton_self _)
    have hfst : s'.queued code = s₁.queued code := by
      by_cases hcode : code ∈ codes
      · rw [hrest.queued code hcode, hself, List.filter_filter]
        simp
      · exact hrest.others code hcode
    have hoths : ∀ code', code' ≠ code → s₁.queued code' = s.queued code' := fun code' hcode =>
      hone.others code' fun hmem => hcode (List.mem_singleton.mp hmem)
    refine ⟨hrest.wellFormed, fun code' hmem => ?_, fun code' hmem => ?_, hone.woken.trans hrest.woken,
      fun code' hmem hin u hhead hlive => ?_⟩
    · by_cases hcode : code' = code
      · rw [hcode, hfst, hself]
      · rw [hrest.queued code' ((List.mem_cons.mp hmem).resolve_left hcode), hoths code' hcode]
    · rw [List.mem_cons, not_or] at hmem
      rw [hrest.others code' hmem.2, hoths code' hmem.1]
    · by_cases hcode : code' = code
      · subst hcode
        rw [hfst] at hhead
        exact fun hblk => hone.next code' (List.mem_singleton_self _) hin u hhead hlive (hrest.woken.blocked u hblk)
      · refine hrest.next code' ((List.mem_cons.mp hmem).resolve_left hcode) ?_ u hhead ((hone.woken.live u).trans hlive)
        rwa [hoths code' hcode]

lemma setTask_ticket {f : Task → Task} (hf : (f (s.task t)).ticket = (s.task t).ticket) (u : ℕ) :
    ((s.setTask t f).task u).ticket = (s.task u).ticket := by
  by_cases hu : u = t
  · rw [hu, setTask_self, hf]
  · rw [setTask_of_ne s hu]

/-- **`vdisk_remove_task`** of a task that is being finished, or that leaves its call -/
theorem Inv.finish (h : Inv s) (t : ℕ) (f : Task → Task)
    (hf : ∀ x, (f x).phase = .idle ∨ (f x).finishers ≠ 0 ∧ (f x).phase = x.phase ∧ (f x).live = x.live)
    (hticket : ∀ x, (f x).ticket = x.ticket) :
    Inv ((s.vdiskRemoveTask t).setTask t f) ∧
    (∀ code, ((s.vdiskRemoveTask t).setTask t f).queued code = (s.queued code).filter (· ≠ t)) ∧
    ∀ u, (((s.vdiskRemoveTask t).setTask t f).task u).ticket = (s.task u).ticket := by
  have hrem := foldl_removeFrom t (List.range 16) h.wellFormed
  unfold TurnState.vdiskRemoveTask
  generalize (List.range 16).foldl (TurnState.removeFrom t) s = s₁ at hrem
  have hqud : ∀ code, s₁.queued code = (s.queued code).filter (· ≠ t) := fun code => by
    by_cases hcode : code ∈ List.range 16
    · exact hrem.queued code hcode
    · rw [hrem.others code hcode, eq_comm]
      refine List.filter_eq_self.mpr fun u hu => absurd ((h.queued code u).mp hu).1.2 ?_
      rwa [List.mem_range] at hcode
  refine ⟨h.leave hrem.wellFormed hqud hrem.woken.tickets (fun u hu => ?_) ?_ fun code hin u hfst => ?_,
    hqud, fun u => (setTask_ticket (hticket _) u).trans (hrem.woken.ticket u)⟩
  · rw [setTask_of_ne _ hu]
    exact ⟨hrem.woken.live u, hrem.woken.phase u, hrem.woken.ticket u, hrem.woken.finishers u, hrem.woken.blocked u⟩
  · rw [setTask_self, ← hrem.woken.phase t, ← hrem.woken.live t]
    exact hf _
  · have hmem : u ∈ s.queued code ∧ u ≠ t := by
      have hu := List.mem_of_mem_head? hfst
      change u ∈ s₁.queued code at hu
      rw [hqud, List.mem_filter] at hu
      simpa using hu
    rw [setTask_of_ne _ hmem.2]
    exact hrem.next code (List.mem_range.mpr ((h.queued code t).mp hin).1.2) hin u hfst (h.live_of_queued hmem.1)

end PlantOS.Disk.Turns

/-! ## The drives are serialized -/

namespace PlantOS.Disk.Turns

open Lib

variable {s s' : TurnState} {t u code : ℕ} {e : Event}

/-- A living task that no other one is finishing -/
def Task.Stays (x : Task) : Prop := x.live = true ∧ x.finishers = 0

/-- A living task is between `DriveSemaphoreTake` and `DriveSemaphoreGive`. -/
def TurnState.Drives (s : TurnState) (t code : ℕ) : Prop := (s.task t).Stays ∧ (s.task t).phase = .drives code

/-- A living task is in `drive_wait_turn`. -/
def TurnState.Waits (s : TurnState) (t code : ℕ) : Prop := (s.task t).Stays ∧ (s.task t).phase = .waits code

/-- No task that another one is finishing goes on in a transfer or begins one. -/
def Spares (s : TurnState) : Event → Prop
  | .access t _ _ | .resume t | .give t => (s.task t).finishers = 0
  | _ => True

instance : ∀ s e, Decidable (Spares s e) := fun s e => by
  unfold Spares
  split <;> infer_instance

structure Contract (s : TurnState) : Prop where
  /-- at most one task drives -/
  exclusive : ∀ code < 16, ∀ t u, t ≠ nullTid → u ≠ nullTid → s.Drives t code → s.Drives u code → t = u
  /-- who drives has queued before those that wait -/
  ordered : ∀ code < 16, ∀ t u, t ≠ nullTid → s.Drives t code → s.Waits u code → (s.task t).ticket < (s.task u).ticket
  /-- the queue has the order of the tickets -/
  tickets : ∀ code, (s.queued code).Pairwise fun t u => (s.task t).ticket < (s.task u).ticket
  /-- who is in the queue lives and is in a call -/
  queued : ∀ code, ∀ t ∈ s.queued code, s.Waits t code ∨ s.Drives t code
  /-- who is in a call is in the queue -/
  calls : ∀ code < 16, ∀ t, t ≠ nullTid → s.Waits t code ∨ s.Drives t code → t ∈ s.queued code
  /-- who waits at the front is not blocked, and drives as soon as it goes on -/
  front : ∀ code t, (s.queued code).head? = some t → s.Waits t code → ¬(s.task t).Blocked ∧
    ((s.task t).waiting = false → ∃ s', step s (.resume t) = some s' ∧ s'.Drives t code)

structure StepContract (s : TurnState) (e : Event) (s' : TurnState) : Prop where
  /-- a queue gets the caller at its end, or loses the caller or the task that ends; nothing else changes -/
  queues : ∀ code, match e with
    | .access t drive _ => s'.queued code = s.queued code ∨
      code = s.drives.diskDriveSlot drive ∧ s'.queued code = s.queued code ++ [t] ∧ (s'.task t).ticket = s.tickets ∧
        s'.tickets = s.tickets + 1
    | .give t | .finish t | .exit t => s'.queued code = (s.queued code).filter (· ≠ t)
    | _ => s'.queued code = s.queued code
  /-- no other ticket is given out -/
  tickets : ∀ u, (s'.task u).ticket = (s.task u).ticket ∨ ∃ drive malloc, e = .access u drive malloc

/-! ### The steps -/

lemma driveWaitTurn_queue (s : TurnState) (t code : ℕ) : (s.driveWaitTurn t code).queue = s.queue := by
  unfold TurnState.driveWaitTurn
  dsimp only
  split_ifs <;> rfl

lemma driveWaitTurn_tickets (s : TurnState) (t code : ℕ) : (s.driveWaitTurn t code).tickets = s.tickets := by
  unfold TurnState.driveWaitTurn
  dsimp only
  split_ifs <;> rfl

lemma taskFallBlocked_ticket (s : TurnState) (t : ℕ) (reason : WaitReason) (u : ℕ) :
    ((s.taskFallBlocked t reason).task u).ticket = (s.task u).ticket :=
  setTask_ticket (by split_ifs <;> rfl) u

lemma driveWaitTurn_ticket (s : TurnState) (t code u : ℕ) :
    ((s.driveWaitTurn t code).task u).ticket = (s.task u).ticket := by
  unfold TurnState.driveWaitTurn
  dsimp only
  split_ifs
  · exact setTask_ticket (by rfl) u
  · exact setTask_ticket (by rfl) u
  · exact (taskFallBlocked_ticket _ t .disk u).trans (setTask_ticket (by rfl) u)
  · exact ((taskFallBlocked_ticket _ t .disk u).trans (taskFallBlocked_ticket _ t .disk u)).trans (setTask_ticket (by rfl) u)

lemma Inv.driveSemaphoreTake (h : Inv s) (hlive : (s.task t).live = true) (hwait : (s.task t).waiting = false)
    (hidle : (s.task t).phase = .idle) (hfin : (s.task t).finishers = 0) (code : ℕ) (malloc : Option (ℕ → ℕ)) :
    Inv (s.driveSemaphoreTake t code malloc) ∧
    (∀ code', (s.driveSemaphoreTake t code malloc).queued code' = s.queued code' ∨
      code' = code ∧ (s.driveSemaphoreTake t code malloc).queued code' = s.queued code' ++ [t] ∧
        ((s.driveSemaphoreTake t code malloc).task t).ticket = s.tickets ∧
        (s.driveSemaphoreTake t code malloc).tickets = s.tickets + 1) ∧
    ∀ u, u ≠ t → ((s.driveSemaphoreTake t code malloc).task u).ticket = (s.task u).ticket := by
  unfold TurnState.driveSemaphoreTake TurnState.driveCanSkipSync
  by_cases hskip : code ≥ 16 ∨ decide (t = nullTid) = true
  · rw [if_pos hskip]
    have hskip' : t = nullTid ∨ 16 ≤ code := by simpa [or_comm] using hskip
    refine ⟨h.outside _ rfl (fun hdead => ?_) (fun code' hcode => ?_) (.inr ⟨code, rfl, hskip'⟩), fun _ => .inl rfl,
      fun u hu => by rw [setTask_of_ne s hu]⟩
    · exact absurd hlive (Bool.eq_false_iff.mp hdead)
    · rw [Task.code_of_idle hidle] at hcode
      cases hcode
  · have hbds : t ≠ nullTid ∧ code < 16 := by simpa [and_comm] using hskip
    rw [if_neg hskip]
    obtain ⟨href, hpus⟩ := (h.wellFormed code).push t malloc
    generalize (s.queue code).driveQueuePush t malloc = r at href hpus
    obtain ⟨q, pushed⟩ := r
    dsimp only at href hpus ⊢
    cases pushed with
    | false =>
      have hsame : s.setQueue code q = s := by
        unfold TurnState.setQueue
        rw [href rfl, Function.update_eq_self]
      rw [if_neg (by decide), hsame]
      exact ⟨h, fun _ => .inl rfl, fun _ _ => rfl⟩
    | true =>
      obtain ⟨hq, hcont⟩ := hpus rfl
      rw [if_pos rfl]
      -- the state in which the caller is in the queue
      suffices hent : ∀ s₁ : TurnState, Inv s₁ → s₁.task = Function.update s.task t { s.task t with
            phase := .waits code, ticket := s.tickets } → s₁.queue = Function.update s.queue code q →
          s₁.tickets = s.tickets + 1 → Inv (s₁.driveWaitTurn t code) ∧
          (∀ code', (s₁.driveWaitTurn t code).queued code' = s.queued code' ∨
            code' = code ∧ (s₁.driveWaitTurn t code).queued code' = s.queued code' ++ [t] ∧
              ((s₁.driveWaitTurn t code).task t).ticket = s.tickets ∧ (s₁.driveWaitTurn t code).tickets = s.tickets + 1) ∧
          ∀ u, u ≠ t → ((s₁.driveWaitTurn t code).task u).ticket = (s.task u).ticket from
        hent _ (h.enqueue hidle hlive hwait hfin hbds.1 hbds.2 hq hcont) rfl rfl rfl
      intro s₁ hent htsk hqu htks
      have hself : s₁.task t = { s.task t with phase := .waits code, ticket := s.tickets } := by
        rw [htsk, Function.update_self]
      refine ⟨hent.driveWaitTurn (by rw [hself]) (by rw [hself]; exact hfin), fun code' => ?_, fun u hu => ?_⟩
      · unfold TurnState.queued
        rw [driveWaitTurn_queue, driveWaitTurn_ticket, driveWaitTurn_tickets, hqu, hself, htks]
        by_cases hcode : code' = code
        · rw [hcode, Function.update_self]
          exact .inr ⟨rfl, hcont, rfl, rfl⟩
        · rw [Function.update_of_ne hcode]
          exact .inl rfl
      · rw [driveWaitTurn_ticket, htsk, Function.update_of_ne hu]

/-! ### Every step -/

lemma Inv.of_init (hs : sys.init s) : Inv s := by
  obtain ⟨hidle, hemp⟩ := hs
  have hnil : ∀ code, s.queued code = [] := fun code =>
    List.length_eq_zero_iff.mp (DriveQueue.content_length.trans (hemp code).1)
  constructor
  · intro code
    obtain ⟨hcnt, hcap⟩ := hemp code
    exact ⟨Nat.le_of_eq (hcnt.trans hcap.symm), fun hne => absurd hcap hne, hcap ▸ Nat.zero_le _⟩
  · intro code t
    rw [hnil, Task.code_of_idle (hidle t)]
    exact iff_of_false nofun nofun
  · intro t code hwts
    rw [hidle] at hwts
    cases hwts
  · exact fun t _ => hidle t
  · intro t code hdrvs
    rw [hidle] at hdrvs
    cases hdrvs
  · intro t code hwts
    rw [hidle] at hwts
    cases hwts
  · intro code
    rw [hnil]
    exact .nil
  · intro code t ht
    rw [hnil] at ht
    cases ht

/-- **What one step preserves, and what it does.** -/
theorem Inv.step (h : Inv s) (hspare : Spares s e) (he : step s e = some s') : Inv s' ∧ StepContract s e s' := by
  cases e with
  | access t drive malloc =>
    simp only [Turns.step, Option.ite_none_right_eq_some] at he
    obtain ⟨⟨hlive, hwait, hidle⟩, he⟩ := he
    cases he
    obtain ⟨hinv, hqus, htks⟩ := h.driveSemaphoreTake hlive hwait hidle hspare (s.drives.diskDriveSlot drive) malloc
    refine ⟨hinv, hqus, fun u => ?_⟩
    by_cases hu : u = t
    · exact .inr ⟨drive, malloc, by rw [hu]⟩
    · exact .inl (htks u hu)
  | resume t =>
    simp only [Turns.step] at he
    split at he
    · rename_i code hph
      rw [Option.ite_none_right_eq_some] at he
      cases he.2
      exact ⟨h.driveWaitTurn hph hspare, fun code' => by unfold TurnState.queued; rw [driveWaitTurn_queue],
        fun u => .inl (driveWaitTurn_ticket s t code u)⟩
    · cases he
  | give t =>
    simp only [Turns.step] at he
    split at he
    · rename_i code hph
      rw [Option.ite_none_right_eq_some] at he
      cases he.2
      obtain ⟨hinv, hqus⟩ := h.give hph hspare
      refine ⟨hinv, hqus, fun u => .inl ((setTask_ticket rfl u).trans ?_)⟩
      unfold TurnState.driveSemaphoreGive
      dsimp only
      split_ifs
      · rfl
      · rfl
      · exact ((setQueue_woken ..).trans (taskRun_woken ..)).ticket u
      · rfl
    · cases he
  | block t reason =>
    simp only [Turns.step] at he
    split at he
    · cases he
    · rename_i hph
      rw [Option.ite_none_right_eq_some] at he
      cases he.2
      refine ⟨h.frameTask (by split_ifs <;> exact ⟨rfl, rfl, rfl, rfl⟩) fun code hwts => absurd hwts (hph code),
        fun _ => rfl, fun u => .inl (taskFallBlocked_ticket s t reason u)⟩
  | run t =>
    cases he
    have hwok := taskRun_woken s t
    exact ⟨h.frame rfl hwok.tickets (fun u => ⟨hwok.live u, hwok.phase u, hwok.ticket u, hwok.finishers u⟩)
      fun u _ _ _ hawak hblk => hawak (hwok.blocked u hblk), fun _ => rfl, fun u => .inl (hwok.ticket u)⟩
  | switch t =>
    simp only [Turns.step, Option.ite_none_right_eq_some] at he
    cases he.2
    exact ⟨h.frameTask ⟨rfl, rfl, rfl, rfl⟩ fun _ _ _ => id, fun _ => rfl, fun u => .inl (setTask_ticket rfl u)⟩
  | defer t =>
    simp only [Turns.step, Option.ite_none_right_eq_some] at he
    cases he.2
    exact ⟨h.frameTask ⟨rfl, rfl, rfl, rfl⟩ fun _ _ _ _ hblk => (nomatch hblk.2), fun _ => rfl,
      fun u => .inl (setTask_ticket rfl u)⟩
  | finish t =>
    simp only [Turns.step, Option.ite_none_right_eq_some] at he
    cases he.2
    obtain ⟨hinv, hqus, htick⟩ := h.finish t (fun x => { x with finishers := x.finishers + 1 })
      (fun x => .inr ⟨Nat.succ_ne_zero x.finishers, rfl, rfl⟩) fun _ => rfl
    exact ⟨hinv, hqus, fun u => .inl (htick u)⟩
  | exit t =>
    simp only [Turns.step, Option.ite_none_right_eq_some] at he
    cases he.2
    obtain ⟨hinv, hqus, htick⟩ := h.finish t (fun x => { x with phase := .idle }) (fun _ => .inl rfl) fun _ => rfl
    exact ⟨hinv, hqus, fun u => .inl (htick u)⟩
  | finishEnd t =>
    simp only [Turns.step, Option.ite_none_right_eq_some] at he
    obtain ⟨hfin, he⟩ := he
    cases he
    refine ⟨h.outside _ rfl (fun _ => rfl) (fun code hcode => ?_) (.inl rfl), fun _ => rfl,
      fun u => .inl (setTask_ticket rfl u)⟩
    exact absurd (Task.code_eq_some.mp hcode).1 (Nat.ne_of_gt hfin)
  | exitEnd t =>
    simp only [Turns.step, Option.ite_none_right_eq_some] at he
    obtain ⟨⟨-, -, hidle⟩, he⟩ := he
    cases he
    refine ⟨h.outside _ rfl (fun _ => hidle) (fun code hcode => ?_) (.inl hidle), fun _ => rfl,
      fun u => .inl (setTask_ticket rfl u)⟩
    rw [Task.code_of_idle hidle] at hcode
    cases hcode
  | create t =>
    simp only [Turns.step, Option.ite_none_left_eq_some] at he
    cases he.2
    have hidle := h.live t (Bool.eq_false_iff.mpr he.1)
    refine ⟨h.outside _ rfl (fun _ => rfl) (fun code hcode => ?_) (.inl rfl), fun _ => rfl,
      fun u => .inl (setTask_ticket rfl u)⟩
    rw [Task.code_of_idle hidle] at hcode
    cases hcode
  | configure drives =>
    cases he
    exact ⟨h.frame rfl rfl (fun _ => ⟨rfl, rfl, rfl, rfl⟩) fun _ _ _ _ => id, fun _ => rfl, fun _ => .inl rfl⟩

lemma Inv.contract (h : Inv s) : Contract s := by
  have hcll : ∀ code < 16, ∀ t, t ≠ nullTid → s.Waits t code ∨ s.Drives t code → t ∈ s.queued code :=
    fun code hlt t hne hcall => (h.queued code t).mpr ⟨⟨hne, hlt⟩, by
      rcases hcall with ⟨⟨-, hfin⟩, hph⟩ | ⟨⟨-, hfin⟩, hph⟩ <;> exact Task.code_eq_some.mpr ⟨hfin, by rw [hph]; rfl⟩⟩
  constructor
  · intro code hlt t u ht hu hdrvs hdrvs'
    exact Option.some.inj ((h.turn t code hdrvs.2 hdrvs.1.2 ht hlt).symm.trans
      (h.turn u code hdrvs'.2 hdrvs'.1.2 hu hlt))
  · intro code hlt t u ht hdrvs hwts
    obtain ⟨rest, hcont⟩ := List.head?_eq_some_iff.mp (h.turn t code hdrvs.2 hdrvs.1.2 ht hlt)
    have hmem := hcll code hlt u (h.waits u code hwts.2).1 (.inl hwts)
    have hord := h.order code
    rw [hcont] at hmem hord
    rcases List.mem_cons.mp hmem with heq | hrest
    · rw [heq] at hwts
      cases hwts.2.symm.trans hdrvs.2
    · exact (List.pairwise_cons.mp hord).1 u hrest
  · exact h.order
  · intro code t ht
    have hlive := h.live_of_queued ht
    obtain ⟨hfin, hcode⟩ := Task.code_eq_some.mp ((h.queued code t).mp ht).2
    cases hph : (s.task t).phase with
    | idle =>
      rw [hph] at hcode
      cases hcode
    | waits code' =>
      rw [hph] at hcode
      cases hcode
      exact .inl ⟨⟨hlive, hfin⟩, hph⟩
    | drives code' =>
      rw [hph] at hcode
      cases hcode
      exact .inr ⟨⟨hlive, hfin⟩, hph⟩
  · exact hcll
  · intro code t hhead hwts
    refine ⟨h.awake t code hwts.2 hhead, fun hwait => ⟨s.driveWaitTurn t code, ?_, ?_⟩⟩
    · simp only [Turns.step, hwts.2, hwts.1.1, hwait, and_self, if_true]
    · obtain ⟨hne, hlt⟩ := h.waits t code hwts.2
      have hft : (s.queue code).driveQueueFront = t :=
        Option.some.inj ((h.front (List.mem_of_mem_head? hhead)).symm.trans hhead)
      unfold TurnState.driveWaitTurn TurnState.driveCanSkipSync TurnState.Drives
      rw [if_neg (by simp only [decide_eq_true_eq]; omega), if_pos hft, setTask_self]
      exact ⟨hwts.1, rfl⟩

lemma guarded_inv (h : sys.Guarded Spares s) : Inv s :=
  h.invariant (fun _ => .of_init) fun _ _ _ hinv hspare he => (hinv.step hspare he).1

/-- **The tasks take their turns on the drives**, whatever happens to any of them, as long as no task goes on that another
one is finishing. -/
theorem drives_take_turns (h : sys.Guarded Spares s) :
    Contract s ∧ ∀ e s', Spares s e → step s e = some s' → StepContract s e s' :=
  ⟨(guarded_inv h).contract, fun _ _ hspare he => ((guarded_inv h).step hspare he).2⟩

/-- One disk, and the tasks with the tids up to `NULL_TID`. -/
def oneDisk : TurnState where
  task t := { Task.fresh with live := decide (t ≤ nullTid) }
  queue _ := ⟨fun _ => 0, 0, 0, 0⟩
  drives := ⟨fun _ => ⟨.block, false, []⟩, fun i => if i = 0 then some diskDrive else none⟩
  tickets := 0

lemma oneDisk_init : sys.init oneDisk := ⟨fun _ => rfl, fun _ => ⟨rfl, rfl⟩⟩

/-- The task that drives is killed, and the release sleeps. -/
def handedOn : List Event :=
  [.access 1 65 (some fun _ => 0), .access 2 65 none, .access 3 65 none, .finish 1]

/-- The one that has queued first is woken and drives when it goes on. -/
theorem drives_take_turns_finished :
    ((sys.after oneDisk handedOn).task 1).finishers = 1 ∧ (sys.after oneDisk handedOn).queued 0 = [2, 3] ∧
      ¬((sys.after oneDisk handedOn).task 2).Blocked ∧
      ∃ s', step (sys.after oneDisk handedOn) (.resume 2) = some s' ∧ s'.Drives 2 0 := by
  have hguarded : sys.Guarded Spares (sys.after oneDisk handedOn) :=
    System.after_guarded (.init oneDisk_init) ⟨rfl, rfl, rfl, trivial, trivial⟩
  have hfront := (drives_take_turns hguarded).1.front 0 2 rfl ⟨⟨rfl, rfl⟩, rfl⟩
  exact ⟨rfl, rfl, hfront.1, hfront.2 rfl⟩

/-- **The task whose tid is `NULL_TID` does not queue**: it drives with another one. -/
theorem null_tid_takes_no_turn : ∃ s, sys.Reachable s ∧ ∃ code < 16, ∃ t u, t ≠ u ∧ s.Drives t code ∧ s.Drives u code :=
  ⟨_, System.replay_reachable (.init oneDisk_init) [.access 1 65 (some fun _ => 0), .access nullTid 65 none], 0, by decide,
    1, nullTid, by decide, ⟨⟨rfl, rfl⟩, rfl⟩, ⟨⟨rfl, rfl⟩, rfl⟩⟩

end PlantOS.Disk.Turns
