import PlantOS.Lib.HeadedList
import PlantOS.Pipe.Sound

/-!
# Waiting for several descriptors

`io_poll` and `io_poll_wait`, what wakes their waiters, and what the rest of the kernel does to a task that waits. A
step is the code between two points at which another task can run; the kernel lock is held throughout. A record is
named by its address.
-/

namespace PlantOS.Poll

open Lib Lib.HeadedList

/-- `UINT64_MAX`: no deadline -/
abbrev uint64Max : ℕ := 18446744073709551615

abbrev intMax : ℕ := 2147483647

/-- `(SIZE_MAX - sizeof(io_poll_waiter_t)) / (sizeof(io_poll_watch_t) + sizeof(struct pollfd))` -/
abbrev maxWatches : ℕ := (18446744073709551615 - 56) / (24 + 8)

/-- `POLLIN`, `POLLOUT`, `POLLERR`, `POLLHUP` and `POLLNVAL` -/
abbrev pollin : BitVec 16 := 1
abbrev pollout : BitVec 16 := 4
abbrev pollerr : BitVec 16 := 8
abbrev pollhup : BitVec 16 := 16
abbrev pollnval : BitVec 16 := 32

/-- The queues that there are: two of a pipe, and one of a socket -/
inductive Queue
  | readers (pipe : ℕ)
  | writers (pipe : ℕ)
  | socket (slot : ℕ)
  deriving DecidableEq, Repr

/-- `struct pollfd`, but for `revents` -/
structure Pollfd where
  fd : BitVec 32
  events : BitVec 16
  deriving DecidableEq, Repr

/-- What a descriptor stands for: the end of a pipe with what the pipe holds and which ends are open, or a socket and what
`net_socket_poll` finds ready of it -/
inductive Descriptor
  | none
  | file
  | pipe (pipe : ℕ) (read : Bool) (used : ℕ) (readOpen writeOpen : Bool)
  | socket (slot : ℕ) (ready : BitVec 16)

/-- What a call finds: the descriptors, and whether the array of the program may be written -/
structure Env where
  look : BitVec 32 → Descriptor
  writable : Bool

/-- `vfs_fd_poll`: the events, and the queue that the watch is put into -/
def vfsFdPoll (d : Descriptor) (fd : BitVec 32) (events : BitVec 16) : BitVec 16 × Option Queue :=
  if fd = 1 ∨ fd = 2 then (events &&& pollout, none)
  else if fd = 0 then (pollerr, none)
  else
    match d with
    | .file => (events &&& (pollin ||| pollout), none)
    | .pipe p true used _ writeOpen =>
      ((if used ≠ 0 then events &&& pollin else 0) ||| (if writeOpen then 0 else pollhup), some (.readers p))
    | .pipe p false used readOpen _ =>
      ((if Pipe.vfsPipeCapacity - used ≥ Pipe.vfsPipeAtomic then events &&& pollout else 0) |||
        (if readOpen then 0 else pollerr), some (.writers p))
    | .none | .socket _ _ => (pollnval, none)

def netSocketPoll : Descriptor → BitVec 16 × Option Queue
  | .socket slot ready => (ready, some (.socket slot))
  | _ => (pollnval, none)

def Pollfd.test (p : Pollfd) (env : Env) : BitVec 16 × Option Queue :=
  if p.fd.msb then (0, none)
  else if p.fd &&& 0xc0000000 = 0x40000000 then netSocketPoll (env.look p.fd)
  else vfsFdPoll (env.look p.fd) p.fd p.events

/-- `io_poll_waiter_t`, but for its links -/
structure Waiter where
  task : ℕ
  deadline : ℕ
  count : ℕ
  deriving DecidableEq, Repr

/-- The arguments of `io_poll` -/
structure PollCall where
  fds : List Pollfd
  timeout : ℤ
  user : Bool

/-- A call that waits: its record, and the arguments of `io_poll`, which those of `io_poll_wait` lack -/
structure Call where
  record : ℕ
  poll : Option PollCall
  /-- the queues of its descriptors at the last test; no code reads it -/
  asked : List (Option Queue)

/-- `mtask`, as far as a wait depends on it -/
structure Task where
  /-- the slot has a task that has not been finished -/
  live : Bool
  /-- the state is `WAITING` or `SLEEPING` -/
  waiting : Bool
  /-- the reason is `WAIT_REASON_IO` -/
  ioReason : Bool
  ready : Bool
  /-- a signal is pending that is not blocked -/
  interrupted : Bool
  call : Option Call
  /-- how many calls of `finish_task` are releasing the task: they may sleep there, and keep their pointer to the slot -/
  finishers : ℕ

/-- The task is in use, and not being finished. -/
def Task.Stays (task : Task) : Prop := task.live = true ∧ task.finishers = 0

structure PollState where
  task : ℕ → Task
  /-- the addresses of all records are below -/
  records : ℕ
  record : ℕ → Option Waiter
  /-- the lists of all records, of those with a deadline, and of the watches -/
  waiters : Links Unit ℕ
  timers : Links Unit ℕ
  watches : Links Queue (ℕ × ℕ)
  /-- the queue is one of a pipe or of a socket that there is -/
  usable : Queue → Bool
  /-- the latest value of `monotonic_time_ns` -/
  now : ℕ
  /-- what the last call of the task has returned, and the events that it has found; no code reads it -/
  returned : ℕ → Option (ℤ × List (BitVec 16))

namespace PollState

variable (s : PollState)

def setTask (t : ℕ) (f : Task → Task) : PollState := { s with task := Function.update s.task t (f (s.task t)) }

def answer (t : ℕ) (result : ℤ) (revents : List (BitVec 16)) : PollState :=
  { s with returned := Function.update s.returned t (some (result, revents)) }

def taskRun (t : ℕ) : PollState :=
  if !(s.task t).live then s
  else if (s.task t).waiting then
    s.setTask t fun task => { task with waiting := false, ioReason := false, ready := false }
  else s.setTask t fun task => { task with ready := true }

/-- `task_fall_blocked_reason` up to the point where another task runs -/
def fallBlocked (t : ℕ) : PollState :=
  s.setTask t fun task =>
    if task.ready then { task with ready := false, ioReason := false }
    else { task with waiting := true, ioReason := true, ready := false }

/-! ### Records -/

def deadline (id : ℕ) : ℕ := ((s.record id).map (·.deadline)).getD uint64Max

def nodes (id count : ℕ) : List (ℕ × ℕ) := (List.range count).map (id, ·)

def detach (id : ℕ) : PollState :=
  match s.record id with
  | none => s
  | some w =>
    { s with
      watches := (nodes id w.count).foldl (fun L x => HeadedList.detach L x) s.watches
      timers := HeadedList.detach s.timers id }

def ioPollWatch (queue : Option Queue) (watch : ℕ × ℕ) : PollState :=
  match queue with
  | none => s
  | some queue => { s with watches := pushFront s.watches queue watch }

/-- The loop of `io_poll_wake` -/
def wakeLoop (queue : Queue) : ℕ → PollState → PollState
  | 0, s => s
  | fuel + 1, s =>
    match s.watches.head queue with
    | none => s
    | some (id, _) =>
      match s.record id with
      | none => s
      | some w => wakeLoop queue fuel ((s.detach id).taskRun w.task)

def ioPollWake (queue : Queue) : PollState := wakeLoop queue s.records s

def destroy (id : ℕ) : PollState :=
  let s := s.detach id
  { s with waiters := HeadedList.detach s.waiters id, record := Function.update s.record id none }

/-- `create`, with the memory that `malloc` has found: it is cleared. -/
def create (t id count : ℕ) : PollState :=
  { s with
    records := max s.records (id + 1)
    record := Function.update s.record id (some ⟨t, 0, count⟩)
    waiters := pushFront s.waiters () id
    timers :=
      { s.timers with
        next := fun x => if decide (x = id) then none else s.timers.next x
        prev := fun x => if decide (x = id) then none else s.timers.prev x }
    watches :=
      { s.watches with
        next := fun x => if decide (x.1 = id) then none else s.watches.next x
        prev := fun x => if decide (x.1 = id) then none else s.watches.prev x } }

/-! ### Calls -/

/-- `io_poll_wait` up to the point where the task blocks or returns; `memory` is what `malloc` has found. -/
def ioPollWait (t : ℕ) (queue : Queue) (memory : Option ℕ) : PollState :=
  if (s.task t).interrupted then s.answer t (-4) []
  else
    match memory with
    | none => s.answer t (-12) []
    | some id =>
      let s := (s.create t id 1).ioPollWatch (some queue) (id, 0)
      (s.setTask t fun task => { task with call := some ⟨id, none, [some queue]⟩ }).fallBlocked t

def leave (t id : ℕ) (result : ℤ) (revents : List (BitVec 16)) : PollState :=
  ((s.destroy id).setTask t fun task => { task with call := none }).answer t result revents

/-- The end of `io_poll` with a result -/
def pollLeave (t id : ℕ) (call : PollCall) (env : Env) (result : ℤ) : PollState :=
  if result ≥ 0 ∧ call.fds ≠ [] then
    if call.user ∧ !env.writable then s.leave t id (-14) []
    else s.leave t id result (call.fds.map fun p => (p.test env).1)
  else s.leave t id result []

def timerInsert (id : ℕ) : PollState :=
  let position := HeadedList.seek s.timers (fun x => decide (s.deadline x ≤ s.deadline id)) s.records (.inl ())
  { s with timers := insertAt s.timers position id }

/-- One pass of the loop of `io_poll`, up to the point where the task blocks or returns -/
def pollPass (t id : ℕ) (call : PollCall) (env : Env) : PollState :=
  let s := call.fds.zipIdx.foldl (fun s p => s.ioPollWatch (p.1.test env).2 (id, p.2)) s
  let result := call.fds.countP fun p => decide ((p.test env).1 ≠ 0)
  if result ≠ 0 ∨ call.timeout = 0 ∨ (s.deadline id ≠ uint64Max ∧ s.now ≥ s.deadline id) then s.pollLeave t id call env result
  else if (s.task t).interrupted then s.pollLeave t id call env (-4)
  else
    let s := if s.deadline id ≠ uint64Max then s.timerInsert id else s
    (s.setTask t fun task =>
      { task with call := some ⟨id, some call, call.fds.map fun p => (p.test env).2⟩ }).fallBlocked t

def deadlineOf (timeout : ℤ) : ℕ :=
  if timeout < 0 then uint64Max else (s.now + timeout.toNat * 1000000) % (uint64Max + 1)

/-- `io_poll` up to the point where the task blocks or returns; `accessible` is whether the array of the program may
be read and written. -/
def ioPoll (t : ℕ) (call : PollCall) (accessible : Bool) (memory : Option ℕ) (env : Env) : PollState :=
  if call.fds.length > intMax ∨ call.fds.length > maxWatches then s.answer t (-22) []
  else if call.user ∧ call.fds ≠ [] ∧ !accessible then s.answer t (-14) []
  else
    match memory with
    | none => s.answer t (-12) []
    | some id =>
      let s := s.create t id call.fds.length
      let s := { s with record := Function.update s.record id (some ⟨t, s.deadlineOf call.timeout, call.fds.length⟩) }
      s.pollPass t id call env

/-- The rest of a call, when the task runs again: `io_poll` tests all its descriptors once more. -/
def resume (t : ℕ) (call : Call) (env : Env) : PollState :=
  match call.poll with
  | some poll => (s.detach call.record).pollPass t call.record poll env
  | none => s.leave t call.record (if (s.task t).interrupted then -4 else 0) []

/-- The loop of `io_poll_tick` -/
def tickLoop : ℕ → PollState → PollState
  | 0, s => s
  | fuel + 1, s =>
    match s.timers.head () with
    | none => s
    | some id =>
      match s.record id with
      | none => s
      | some w => if w.deadline ≤ s.now then tickLoop fuel ((s.detach id).taskRun w.task) else s

def ioPollTick : PollState := tickLoop s.records s

/-- The loop of `io_poll_cancel_task` from the record on -/
def cancelLoop (t : ℕ) : ℕ → Option ℕ → PollState → PollState
  | 0, _, s => s
  | _, none, s => s
  | fuel + 1, some id, s =>
    let next := s.waiters.next id
    cancelLoop t fuel next (if (s.record id).any fun w => decide (w.task = t) then s.destroy id else s)

def ioPollCancelTask (t : ℕ) : PollState := cancelLoop t s.records (s.waiters.head ()) s

/-- `finish_task` to the end of `task_clear_external_refs`; what it releases then may sleep (`user_vm_lock`,
`vfs_mapping_sync`), with the task still in use and its call where it was. -/
def finishTask (t : ℕ) : PollState :=
  (s.ioPollCancelTask t).setTask t fun task => { task with finishers := task.finishers + 1 }

/-- The rest of `finish_task`: the task is no longer in use. -/
def finishTaskEnd (t : ℕ) : PollState :=
  s.setTask t fun task =>
    { task with live := false, waiting := false, call := none, finishers := task.finishers - 1 }

end PollState

/-! ### Runs -/

inductive PollEvent
  /-- a task is created in a free slot -/
  | create (t : ℕ)
  /-- a pipe or a socket is created, with this queue -/
  | start (queue : Queue)
  /-- anything that `io_poll_wake` is called for -/
  | wake (queue : Queue)
  /-- the pipe or the socket is released -/
  | release (queue : Queue)
  /-- a running task calls `io_poll`, or `io_poll_wait` for a pipe -/
  | poll (t : ℕ) (call : PollCall) (accessible : Bool) (memory : Option ℕ) (env : Env)
  | wait (t : ℕ) (queue : Queue) (memory : Option ℕ)
  /-- a task in a call runs again -/
  | resume (t : ℕ) (env : Env)
  /-- the clock goes on -/
  | clock (now : ℕ)
  /-- the timer interrupt -/
  | tick
  /-- a signal is sent to a task, which it does not block -/
  | signal (t : ℕ)
  /-- the signals of a task change in any other way -/
  | mask (t : ℕ) (interrupted : Bool)
  /-- `task_run` of anything else -/
  | run (t : ℕ)
  /-- a running task blocks for another reason -/
  | block (t : ℕ)
  /-- the finish of a task begins: `task_exit`, `task_kill`, the end of its thread group or a deferred termination -/
  | finish (t : ℕ)
  /-- a `finish_task` has released the task, and ends it -/
  | finishEnd (t : ℕ)
  /-- `task_finish_pending` of a process that has to wait for its threads -/
  | defer (t : ℕ)

namespace PollState

variable (s : PollState)

/-- The queues that a call finds are those of pipes and sockets that there are. -/
def finds (call : PollCall) (env : Env) : Bool := call.fds.all fun p => ((p.test env).2).all s.usable

/-- `malloc` finds memory that is not in use. -/
def fresh (memory : Option ℕ) : Bool := memory.all fun id => (s.record id).isNone

def idle (t : ℕ) : Bool := (s.task t).live && !(s.task t).waiting && (s.task t).call.isNone

def step : PollEvent → Option PollState
  | .create t =>
    if !(s.task t).live then some (s.setTask t fun task => ⟨true, false, false, false, false, none, task.finishers⟩) else none
  | .start queue =>
    if !s.usable queue then
      some { s with
        usable := Function.update s.usable queue true
        watches := { s.watches with head := Function.update s.watches.head queue none } }
    else none
  | .wake queue => if s.usable queue then some (s.ioPollWake queue) else none
  | .release queue =>
    if s.usable queue then
      let s := s.ioPollWake queue
      some { s with usable := Function.update s.usable queue false }
    else none
  | .poll t call accessible memory env =>
    if s.idle t ∧ s.fresh memory ∧ s.finds call env then some (s.ioPoll t call accessible memory env) else none
  | .wait t queue memory =>
    if s.idle t ∧ s.fresh memory ∧ s.usable queue then some (s.ioPollWait t queue memory) else none
  | .resume t env =>
    if (s.task t).live ∧ !(s.task t).waiting then
      match (s.task t).call with
      | none => none
      | some call => if call.poll.all fun poll => s.finds poll env then some (s.resume t call env) else none
    else none
  | .clock now => if s.now ≤ now then some { s with now := now } else none
  | .tick => some s.ioPollTick
  | .signal t =>
    let s := s.setTask t fun task => { task with interrupted := true }
    some (if (s.task t).ioReason then s.taskRun t else s)
  | .mask t interrupted => some (s.setTask t fun task => { task with interrupted := interrupted })
  | .run t => some (s.taskRun t)
  | .block t =>
    if s.idle t then
      some (s.setTask t fun task =>
        if task.ready then { task with ready := false } else { task with waiting := true, ioReason := false })
    else none
  | .finish t => if (s.task t).live then some (s.finishTask t) else none
  | .finishEnd t => if 0 < (s.task t).finishers then some (s.finishTaskEnd t) else none
  | .defer t =>
    if (s.task t).live then some (s.setTask t fun task => { task with waiting := true, ioReason := false }) else none

def initial (s : PollState) : Prop :=
  (∀ t, (s.task t).live = false ∧ (s.task t).call = none) ∧ (∀ id, s.record id = none) ∧ s.waiters.head () = none ∧
    s.timers.head () = none ∧ (∀ q, s.watches.head q = none) ∧ (∀ id, s.waiters.prev id = none) ∧
      (∀ id, s.timers.prev id = none) ∧ ∀ x, s.watches.prev x = none

def sys : System PollState PollEvent := ⟨initial, step⟩

end PollState

/-! ## The lists of watches and records -/

open Lib.HeadedList PollState
open Function (update update_of_ne update_self)

/-- The watches in the queues are `W`, the records with a deadline are `T` in the order of their deadlines, and all
records are `A`. -/
structure Lists (s : PollState) (W : Queue → List (ℕ × ℕ)) (T A : List ℕ) : Prop where
  watches : IsLists s.watches W
  timers : IsLists s.timers fun _ => T
  waiters : IsLists s.waiters fun _ => A
  record : ∀ id, id ∈ A ↔ (s.record id).isSome = true
  bound : ∀ id, (s.record id).isSome = true → id < s.records
  usable : ∀ q, ∀ x ∈ W q, s.usable q = true
  watch : ∀ q, ∀ x ∈ W q, ∃ w, s.record x.1 = some w ∧ x.2 < w.count
  timed : ∀ id ∈ T, ∃ w, s.record id = some w ∧ w.deadline ≠ uint64Max
  sorted : T.Pairwise fun x y => s.deadline x ≤ s.deadline y

variable {s s' : PollState} {W W' : Queue → List (ℕ × ℕ)} {T T' A A' : List ℕ} {t id : ℕ}

/-! ### What the operations leave alone -/

section Frame

variable (s) (t id)

@[simp] lemma detach_task : (s.detach id).task = s.task := by unfold PollState.detach; split <;> rfl
@[simp] lemma detach_record : (s.detach id).record = s.record := by unfold PollState.detach; split <;> rfl
@[simp] lemma detach_records : (s.detach id).records = s.records := by unfold PollState.detach; split <;> rfl
@[simp] lemma detach_waiters : (s.detach id).waiters = s.waiters := by unfold PollState.detach; split <;> rfl
@[simp] lemma detach_usable : (s.detach id).usable = s.usable := by unfold PollState.detach; split <;> rfl
@[simp] lemma detach_now : (s.detach id).now = s.now := by unfold PollState.detach; split <;> rfl

structure SameLists (s s' : PollState) : Prop where
  records : s'.records = s.records
  record : s'.record = s.record
  waiters : s'.waiters = s.waiters
  timers : s'.timers = s.timers
  watches : s'.watches = s.watches
  usable : s'.usable = s.usable
  now : s'.now = s.now

lemma taskRun_same : SameLists s (s.taskRun t) := by
  unfold PollState.taskRun
  split
  · exact ⟨rfl, rfl, rfl, rfl, rfl, rfl, rfl⟩
  split <;> exact ⟨rfl, rfl, rfl, rfl, rfl, rfl, rfl⟩

lemma setTask_same (f : Task → Task) : SameLists s (s.setTask t f) := ⟨rfl, rfl, rfl, rfl, rfl, rfl, rfl⟩

lemma fallBlocked_same : SameLists s (s.fallBlocked t) := setTask_same s t _

lemma answer_same (result : ℤ) (revents : List (BitVec 16)) : SameLists s (s.answer t result revents) :=
  ⟨rfl, rfl, rfl, rfl, rfl, rfl, rfl⟩

@[simp] lemma setTask_task_self (f : Task → Task) : (s.setTask t f).task t = f (s.task t) := update_self ..

variable {t} in
@[simp] lemma setTask_task_of_ne {x : ℕ} (f : Task → Task) (hx : x ≠ t) : (s.setTask t f).task x = s.task x :=
  update_of_ne hx ..

variable {t} in
lemma taskRun_task_of_ne {x : ℕ} (hx : x ≠ t) : (s.taskRun t).task x = s.task x := by
  unfold PollState.taskRun
  split
  · rfl
  split <;> exact setTask_task_of_ne s _ hx

lemma taskRun_kept (x : ℕ) : ((s.taskRun t).task x).live = (s.task x).live ∧ ((s.taskRun t).task x).call = (s.task x).call ∧
    ((s.taskRun t).task x).finishers = (s.task x).finishers := by
  by_cases hx : x = t
  · subst hx
    unfold PollState.taskRun
    split
    · exact ⟨rfl, rfl, rfl⟩
    split <;> rw [setTask_task_self] <;> exact ⟨rfl, rfl, rfl⟩
  · rw [taskRun_task_of_ne s hx]
    exact ⟨rfl, rfl, rfl⟩

variable {t} in
lemma taskRun_waiting (hlive : (s.task t).live = true) : ((s.taskRun t).task t).waiting = false := by
  unfold PollState.taskRun
  simp only [hlive, Bool.not_true, Bool.false_eq_true, if_false]
  split
  · rw [setTask_task_self]
  · rename_i hwait
    rw [setTask_task_self]
    simpa using hwait

end Frame

namespace Lists

variable (h : Lists s W T A)

include h

lemma congr (hsame : SameLists s s') : Lists s' W T A := by
  have hdl : ∀ x, s'.deadline x = s.deadline x := fun x => by
    unfold PollState.deadline
    rw [hsame.record]
  refine ⟨hsame.watches ▸ h.watches, hsame.timers ▸ h.timers, hsame.waiters ▸ h.waiters, fun x => ?_, fun x => ?_,
    fun q x => ?_, fun q x => ?_, fun x => ?_, ?_⟩
  · rw [hsame.record]
    exact h.record x
  · rw [hsame.record, hsame.records]
    exact h.bound x
  · rw [hsame.usable]
    exact h.usable q x
  · rw [hsame.record]
    exact h.watch q x
  · rw [hsame.record]
    exact h.timed x
  · simpa only [hdl] using h.sorted

lemma length_le : A.length ≤ s.records := by
  have hsub : A ⊆ List.range s.records := fun x hx => List.mem_range.mpr (h.bound x ((h.record x).mp hx))
  simpa using (List.subperm_of_subset (h.waiters.isList ()).nodup hsub).length_le

lemma length_timers_le : T.length ≤ s.records := by
  have hsub : T ⊆ List.range s.records := fun x hx => by
    obtain ⟨w, hw, -⟩ := h.timed x hx
    exact List.mem_range.mpr (h.bound x (by rw [hw]; rfl))
  simpa using (List.subperm_of_subset (h.timers.isList ()).nodup hsub).length_le

/-- **`detach`** takes all watches of the record out of their queues, and the record out of the list of the deadlines. -/
theorem detach (id : ℕ) : Lists (s.detach id) (fun q => (W q).filter fun x => decide (x.1 ≠ id)) (T.erase id) A := by
  have hwatc : IsLists (s.detach id).watches fun q => (W q).filter fun x => decide (x.1 ≠ id) := by
    unfold PollState.detach
    split
    · rename_i hnone
      have hsame : (fun q => (W q).filter fun x => decide (x.1 ≠ id)) = W := funext fun q =>
        List.filter_eq_self.mpr fun x hx => by
          obtain ⟨w, hw, -⟩ := h.watch q x hx
          refine decide_eq_true fun heq => ?_
          rw [heq, hnone] at hw
          cases hw
      rw [hsame]
      exact h.watches
    · rename_i w hw
      refine h.watches.detach_all (nodes id w.count) fun q x hx => ?_
      rw [decide_eq_true_iff]
      refine not_congr ⟨fun heq => ?_, fun hmem => ?_⟩
      · obtain ⟨w', hw', hlt⟩ := h.watch q x hx
        rw [heq, hw] at hw'
        cases hw'
        exact List.mem_map.mpr ⟨x.2, List.mem_range.mpr hlt, Prod.ext heq.symm rfl⟩
      · obtain ⟨i, -, rfl⟩ := List.mem_map.mp hmem
        rfl
  have htmrs : IsLists (s.detach id).timers fun _ => T.erase id := by
    unfold PollState.detach
    split
    · rename_i hnone
      have hid : id ∉ T := fun hmem => by
        obtain ⟨w, hw, -⟩ := h.timed id hmem
        rw [hnone] at hw
        cases hw
      rw [List.erase_of_not_mem hid]
      exact h.timers
    · exact h.timers.detach_erase id
  refine ⟨hwatc, htmrs, ?_, ?_, ?_, fun q x hx => ?_, fun q x hx => ?_, fun x hx => ?_, ?_⟩
  · rw [detach_waiters]
    exact h.waiters
  · rw [detach_record]
    exact h.record
  · rw [detach_record, detach_records]
    exact h.bound
  · rw [detach_usable]
    exact h.usable q x (List.mem_of_mem_filter hx)
  · rw [detach_record]
    exact h.watch q x (List.mem_of_mem_filter hx)
  · rw [detach_record]
    exact h.timed x (List.mem_of_mem_erase hx)
  · unfold PollState.deadline
    rw [detach_record]
    exact h.sorted.sublist List.erase_sublist

/-- **`destroy`.** -/
theorem destroy (id : ℕ) :
    Lists (s.destroy id) (fun q => (W q).filter fun x => decide (x.1 ≠ id)) (T.erase id) (A.erase id) := by
  have hdet := h.detach id
  have hoth : ∀ x, x ≠ id → (s.destroy id).record x = s.record x := fun x hx => by
    unfold PollState.destroy
    dsimp only
    rw [update_of_ne hx, detach_record]
  have hself : (s.destroy id).record id = none := update_self ..
  have hwatch : ∀ q, ∀ x ∈ (W q).filter fun x => decide (x.1 ≠ id), x ∈ W q ∧ x.1 ≠ id := fun q x hx => by
    simpa using hx
  have htmr : ∀ x ∈ T.erase id, x ∈ T ∧ x ≠ id := fun x hx =>
    ((h.timers.isList ()).nodup.mem_erase_iff.mp hx).symm
  refine ⟨hdet.watches, hdet.timers, hdet.waiters.detach_erase id, fun x => ?_, fun x hx => ?_,
    fun q x hx => ?_, fun q x hx => ?_, fun x hx => ?_, ?_⟩
  · rw [(h.waiters.isList ()).nodup.mem_erase_iff]
    by_cases hx : x = id
    · rw [hx, hself]
      simp
    · rw [hoth x hx, h.record x]
      simp [hx]
  · by_cases hid : x = id
    · rw [hid, hself] at hx
      cases hx
    · rw [hoth x hid] at hx
      change x < (s.detach id).records
      rw [detach_records]
      exact h.bound x hx
  · exact hdet.usable q x hx
  · obtain ⟨hmem, hne⟩ := hwatch q x hx
    rw [hoth x.1 hne]
    exact h.watch q x hmem
  · obtain ⟨hmem, hne⟩ := htmr x hx
    rw [hoth x hne]
    exact h.timed x hmem
  · refine (h.sorted.sublist List.erase_sublist).imp_of_mem fun hx hy hle => ?_
    unfold PollState.deadline at hle ⊢
    rwa [hoth _ (htmr _ hx).2, hoth _ (htmr _ hy).2]

lemma not_timed (hfree : s.record id = none) : id ∉ T := fun hmem => by
  obtain ⟨w, hw, -⟩ := h.timed id hmem
  rw [hfree] at hw
  cases hw

lemma not_watched (hfree : s.record id = none) {q : Queue} {x : ℕ × ℕ} (hx : x ∈ W q) : x.1 ≠ id := fun heq => by
  obtain ⟨w, hw, -⟩ := h.watch q x hx
  rw [heq, hfree] at hw
  cases hw

/-- **`create`.** The new record is in no list but that of the records. -/
theorem create (hfree : s.record id = none) (t count : ℕ) : Lists (s.create t id count) W T (id :: A) := by
  have hoth : ∀ x, x ≠ id → (s.create t id count).record x = s.record x := fun x hx => update_of_ne hx ..
  have hself : (s.create t id count).record id = some ⟨t, 0, count⟩ := update_self ..
  have hT := h.not_timed hfree
  have hA : id ∉ A := fun hmem => by
    have hsome := (h.record id).mp hmem
    rw [hfree] at hsome
    cases hsome
  have hwtrs : IsLists (s.create t id count).waiters fun _ => id :: A := by
    have hpush := h.waiters.pushFront (h.waiters.prev_eq_none fun _ => hA) ()
    have hcon : update (fun _ : Unit => A) () (id :: A) = fun _ => id :: A :=
      funext fun u => update_self ..
    rw [hcon] at hpush
    exact hpush
  have hwatc : IsLists (s.create t id count).watches W :=
    h.watches.clear (fun x => decide (x.1 = id)) fun x hx =>
      h.watches.prev_eq_none fun q hmem => h.not_watched hfree hmem (of_decide_eq_true hx)
  have htmrs : IsLists (s.create t id count).timers fun _ => T :=
    h.timers.clear (fun x => decide (x = id)) fun x hx =>
      h.timers.prev_eq_none fun _ hmem => hT (of_decide_eq_true hx ▸ hmem)
  refine ⟨hwatc, htmrs, hwtrs, fun x => ?_, fun x hx => ?_, h.usable, fun q x hx => ?_, fun x hx => ?_, ?_⟩
  · rw [List.mem_cons]
    by_cases hx : x = id
    · rw [hx, hself]
      simp
    · rw [hoth x hx, h.record x]
      simp [hx]
  · change x < max s.records (id + 1)
    by_cases hid : x = id
    · omega
    · rw [hoth x hid] at hx
      have hlt := h.bound x hx
      omega
  · rw [hoth x.1 (h.not_watched hfree hx)]
    exact h.watch q x hx
  · rw [hoth x fun heq => hT (heq ▸ hx)]
    exact h.timed x hx
  · refine h.sorted.imp_of_mem fun {x y} hx hy hle => ?_
    unfold PollState.deadline at hle ⊢
    rwa [hoth x fun heq => hT (heq ▸ hx), hoth y fun heq => hT (heq ▸ hy)]

theorem setDeadline {w : Waiter} (w' : Waiter) (hT : id ∉ T) (hw : s.record id = some w) (hcnt : w'.count = w.count) :
    Lists { s with record := update s.record id (some w') } W T A := by
  have hoth : ∀ x, x ≠ id → update s.record id (some w') x = s.record x := fun x hx => update_of_ne hx ..
  have hsome : ∀ x, (update s.record id (some w') x).isSome = (s.record x).isSome := fun x => by
    by_cases hx : x = id
    · rw [hx, update_self, hw]
      rfl
    · rw [hoth x hx]
  refine ⟨h.watches, h.timers, h.waiters, fun x => ?_, fun x hx => ?_, h.usable, fun q x hx => ?_, fun x hx => ?_, ?_⟩
  · dsimp only
    rw [hsome]
    exact h.record x
  · dsimp only at hx
    rw [hsome] at hx
    exact h.bound x hx
  · obtain ⟨v, hv, hlt⟩ := h.watch q x hx
    by_cases hid : x.1 = id
    · rw [hid] at hv ⊢
      rw [hw] at hv
      cases hv
      exact ⟨w', update_self .., hcnt ▸ hlt⟩
    · exact ⟨v, (hoth x.1 hid).trans hv, hlt⟩
  · dsimp only
    rw [hoth x fun heq => hT (heq ▸ hx)]
    exact h.timed x hx
  · refine h.sorted.imp_of_mem fun {x y} hx hy hle => ?_
    unfold PollState.deadline at hle ⊢
    dsimp only
    rwa [hoth x fun heq => hT (heq ▸ hx), hoth y fun heq => hT (heq ▸ hy)]

/-- **`io_poll_watch`** of a watch that is in no queue -/
theorem watchOne {x : ℕ × ℕ} {queue : Queue} {w : Waiter} (hfree : ∀ q, x ∉ W q) (husab : s.usable queue = true)
    (hw : s.record x.1 = some w) (hlt : x.2 < w.count) :
    Lists (s.ioPollWatch (some queue) x) (update W queue (x :: W queue)) T A := by
  have hmem : ∀ q y, y ∈ update W queue (x :: W queue) q → (q = queue ∧ y = x) ∨ y ∈ W q := fun q y hy => by
    by_cases hq : q = queue
    · subst hq
      rw [update_self, List.mem_cons] at hy
      exact hy.imp (fun heq => ⟨rfl, heq⟩) id
    · rw [update_of_ne hq] at hy
      exact .inr hy
  refine { h with
    watches := h.watches.pushFront (h.watches.prev_eq_none hfree) queue, usable := fun q y hy => ?_,
    watch := fun q y hy => ?_ }
  · rcases hmem q y hy with ⟨rfl, -⟩ | hold
    · exact husab
    · exact h.usable q y hold
  · rcases hmem q y hy with ⟨-, rfl⟩ | hold
    · exact ⟨w, hw, hlt⟩
    · exact h.watch q y hold

/-- **A record gets its place in the list of the deadlines.** -/
theorem timerInsert (hT : id ∉ T) {w : Waiter} (hw : s.record id = some w) (hdl : w.deadline ≠ uint64Max) :
    ∃ T', Lists (s.timerInsert id) W T' A ∧ ∀ x, x ∈ T' ↔ x = id ∨ x ∈ T := by
  have hspl : T = (T.takeWhile fun x => decide (s.deadline x ≤ s.deadline id)) ++
      T.dropWhile fun x => decide (s.deadline x ≤ s.deadline id) := List.takeWhile_append_dropWhile.symm
  have hseek := IsList.seek (a := []) (fun x => decide (s.deadline x ≤ s.deadline id)) s.records (h.timers.isList ())
    h.length_timers_le
  rw [List.nil_append, cell_nil] at hseek
  have hins := h.timers.insertAt (h.timers.prev_eq_none fun _ => hT) (h := ()) hspl
  have hcon : ∀ l : List ℕ, update (fun _ : Unit => T) () l = fun _ => l := fun l =>
    funext fun u => update_self ..
  rw [hcon] at hins
  refine ⟨(T.takeWhile fun x => decide (s.deadline x ≤ s.deadline id)) ++
    id :: T.dropWhile fun x => decide (s.deadline x ≤ s.deadline id), ?_, fun x => ?_⟩
  · unfold PollState.timerInsert
    dsimp only
    rw [hseek]
    refine { h with timers := hins, timed := fun x hx => ?_, sorted := pairwise_insert s.deadline h.sorted id }
    rw [List.mem_append, List.mem_cons] at hx
    rcases hx with hx | rfl | hx
    · exact h.timed x ((List.takeWhile_sublist _).subset hx)
    · exact ⟨w, hw, hdl⟩
    · exact h.timed x ((List.dropWhile_sublist _).subset hx)
  · conv_rhs => rw [hspl]
    simp only [List.mem_append, List.mem_cons]
    tauto

end Lists

/-- What the watches of a pass are: those of before, and one in the queue of each descriptor that has one -/
structure Watched (s s' : PollState) (W W' : Queue → List (ℕ × ℕ)) (id : ℕ) (l : List (Pollfd × ℕ)) (env : Env) : Prop where
  mem : ∀ q x, x ∈ W' q ↔ x ∈ W q ∨ x.1 = id ∧ ∃ p, (p, x.2) ∈ l ∧ (p.test env).2 = some q
  task : s'.task = s.task
  record : s'.record = s.record
  records : s'.records = s.records
  now : s'.now = s.now
  usable : s'.usable = s.usable
  returned : s'.returned = s.returned

/-- **The loop over the descriptors** -/
theorem Lists.watchAll {w : Waiter} {env : Env} (h : Lists s W T A) (hw : s.record id = some w) (l : List (Pollfd × ℕ))
    (hnd : (l.map (·.2)).Nodup) (hlt : ∀ p ∈ l, p.2 < w.count) (hfree : ∀ p ∈ l, ∀ q, (id, p.2) ∉ W q)
    (husab : ∀ p ∈ l, ∀ q, (p.1.test env).2 = some q → s.usable q = true) :
    ∃ W', Lists (l.foldl (fun s p => s.ioPollWatch (p.1.test env).2 (id, p.2)) s) W' T A ∧
      Watched s (l.foldl (fun s p => s.ioPollWatch (p.1.test env).2 (id, p.2)) s) W W' id l env := by
  induction l generalizing s W with
  | nil => exact ⟨W, h, fun q x => by simp, rfl, rfl, rfl, rfl, rfl, rfl⟩
  | cons p l ih =>
    rw [List.map_cons, List.nodup_cons] at hnd
    rw [List.foldl_cons]
    cases hq : (p.1.test env).2 with
    | none =>
      obtain ⟨W', hls, hwat⟩ := ih h hw hnd.2 (fun p hp => hlt p (.tail _ hp)) (fun p hp => hfree p (.tail _ hp))
        fun p hp => husab p (.tail _ hp)
      refine ⟨W', hls, { hwat with mem := fun q x => ?_ }⟩
      rw [hwat.mem q x]
      refine or_congr_right (and_congr_right fun _ => exists_congr fun r => and_congr_left fun hr => ?_)
      rw [List.mem_cons, or_iff_right]
      rintro rfl
      rw [hq] at hr
      cases hr
    | some queue =>
      have hone := h.watchOne (x := (id, p.2)) (hfree p (.head _)) (husab p (.head _) queue hq) hw (hlt p (.head _))
      have hmem : ∀ q x, x ∈ update W queue ((id, p.2) :: W queue) q ↔ x ∈ W q ∨ (x = (id, p.2) ∧ q = queue) := by
        intro q x
        by_cases hqq : q = queue
        · subst hqq
          rw [update_self, List.mem_cons]
          simp [or_comm]
        · rw [update_of_ne hqq]
          simp [hqq]
      obtain ⟨W', hls, hwat⟩ := ih hone hw hnd.2 (fun p hp => hlt p (.tail _ hp)) (fun r hr q hmem' => by
          rcases (hmem q _).mp hmem' with hold | ⟨heq, -⟩
          · exact hfree r (.tail _ hr) q hold
          · exact hnd.1 (List.mem_map.mpr ⟨r, hr, (Prod.mk.inj heq).2⟩))
        fun p hp => husab p (.tail _ hp)
      refine ⟨W', hls, { hwat with mem := fun q x => ?_ }⟩
      rw [hwat.mem q x, hmem q x, or_assoc]
      refine or_congr_right ⟨?_, ?_⟩
      · rintro (⟨rfl, rfl⟩ | ⟨hid, r, hr, htest⟩)
        · exact ⟨rfl, p.1, .head _, hq⟩
        · exact ⟨hid, r, .tail _ hr, htest⟩
      · rintro ⟨hid, r, hr, htest⟩
        rcases List.mem_cons.mp hr with heq | hr
        · have hidx : x.2 = p.2 := congrArg (fun y : Pollfd × ℕ => y.2) heq
          refine .inl ⟨Prod.ext hid hidx, ?_⟩
          rw [← heq] at hq
          exact Option.some.inj (htest.symm.trans hq)
        · exact .inr ⟨hid, r, hr, htest⟩

/-! ## The calls that wait -/

/-- The task is blocked in `io_poll` or in `io_poll_wait`, and no `finish_task` has cancelled its call. -/
def Blocked (s : PollState) (t : ℕ) : Prop :=
  (s.task t).Stays ∧ (s.task t).waiting = true ∧ (s.task t).ioReason = true

/-- The call has a watch in every queue that it asked about, and its deadline is noted. -/
structure Subscribed (s : PollState) (W : Queue → List (ℕ × ℕ)) (T : List ℕ) (c : Call) : Prop where
  watched : ∀ i q, c.asked[i]? = some (some q) → (c.record, i) ∈ W q
  timed : c.poll.isSome = true → s.deadline c.record ≠ uint64Max → c.record ∈ T

/-- The record is the one of the call of the task. -/
structure Owned (s : PollState) (t : ℕ) (c : Call) (w : Waiter) : Prop where
  record : s.record c.record = some w
  task : w.task = t
  count : ∀ p, c.poll = some p → w.count = p.fds.length ∧ c.asked.length = p.fds.length

/-- The tasks but `t`, and the records but `id` -/
structure Others (s : PollState) (W : Queue → List (ℕ × ℕ)) (T : List ℕ) (t id : ℕ) : Prop where
  owner : ∀ x w, s.record x = some w → x ≠ id → w.task ≠ t ∧ (s.task w.task).Stays ∧
    ∃ c, (s.task w.task).call = some c ∧ c.record = x
  called : ∀ u c, (s.task u).call = some c → (s.task u).finishers = 0 → u ≠ t → c.record ≠ id ∧ ∃ w, Owned s u c w
  blocked : ∀ u, Blocked s u → u ≠ t → ∃ c, (s.task u).call = some c ∧ Subscribed s W T c

/-- **The invariant of the calls** -/
structure Calls (s : PollState) (W : Queue → List (ℕ × ℕ)) (T : List ℕ) : Prop where
  owner : ∀ x w, s.record x = some w → (s.task w.task).Stays ∧ ∃ c, (s.task w.task).call = some c ∧ c.record = x
  called : ∀ u c, (s.task u).call = some c → (s.task u).finishers = 0 → ∃ w, Owned s u c w
  blocked : ∀ u, Blocked s u → ∃ c, (s.task u).call = some c ∧ Subscribed s W T c

namespace Calls

variable (h : Calls s W T)

include h

lemma record_unique {x w} {c : Call} (hw : s.record x = some w) (hc : (s.task w.task).call = some c) : c.record = x := by
  obtain ⟨-, c', hc', hx⟩ := h.owner x w hw
  rw [hc] at hc'
  rw [Option.some.inj hc', hx]

lemma congr (hrec : s'.record = s.record)
    (hkept : ∀ x, (s'.task x).live = (s.task x).live ∧ (s'.task x).call = (s.task x).call ∧
      (s'.task x).finishers = (s.task x).finishers) (hblk : ∀ x, Blocked s' x → Blocked s x) : Calls s' W T := by
  have hdl : ∀ x, s'.deadline x = s.deadline x := fun x => by
    unfold PollState.deadline
    rw [hrec]
  refine ⟨fun x w hw => ?_, fun u c hc hfin => ?_, fun u hu => ?_⟩
  · rw [hrec] at hw
    unfold Task.Stays
    rw [(hkept w.task).1, (hkept w.task).2.1, (hkept w.task).2.2]
    exact h.owner x w hw
  · rw [(hkept u).2.1] at hc
    rw [(hkept u).2.2] at hfin
    obtain ⟨w, hw, htsk, hcnt⟩ := h.called u c hc hfin
    exact ⟨w, by rw [hrec]; exact hw, htsk, hcnt⟩
  · obtain ⟨c, hc, hsub⟩ := h.blocked u (hblk u hu)
    rw [(hkept u).2.1]
    refine ⟨c, hc, hsub.watched, fun hp hd => hsub.timed hp ?_⟩
    rwa [hdl] at hd

lemma others {c : Call} (hc : (s.task t).call = some c) (hfin : (s.task t).finishers = 0) :
    Others s W T t c.record := by
  obtain ⟨v, hv⟩ := h.called t c hc hfin
  refine ⟨fun x w hw hx => ?_, fun u c' hc' hfin' hu => ⟨fun heq => ?_, h.called u c' hc' hfin'⟩,
    fun u hu _ => h.blocked u hu⟩
  · refine ⟨fun heq => hx ?_, h.owner x w hw⟩
    rw [← h.record_unique hw (heq ▸ hc)]
  · obtain ⟨w, hw⟩ := h.called u c' hc' hfin'
    have hsame := hw.record
    rw [heq, hv.record] at hsame
    exact hu (hw.task.symm.trans ((congrArg Waiter.task (Option.some.inj hsame)).symm.trans hv.task))

lemma others_idle (hidle : (s.task t).call = none) (hfree : s.record id = none) : Others s W T t id := by
  refine ⟨fun x w hw _ => ⟨fun heq => ?_, h.owner x w hw⟩, fun u c hc hfin _ => ?_, fun u hu _ => h.blocked u hu⟩
  · obtain ⟨-, c, hc, -⟩ := h.owner x w hw
    rw [heq, hidle] at hc
    cases hc
  · obtain ⟨w, hw⟩ := h.called u c hc hfin
    refine ⟨fun heq => ?_, w, hw⟩
    have hrec := hw.record
    rw [heq, hfree] at hrec
    cases hrec

end Calls

namespace Others

variable (h : Others s W T t id)

include h

/-- **Frame.** What happens to the task and to its record does not concern the others. -/
lemma mono (hrec : ∀ x, x ≠ id → s'.record x = s.record x) (htsk : ∀ u, u ≠ t → s'.task u = s.task u)
    (hwat : ∀ q x, x ∈ W q → x.1 ≠ id → x ∈ W' q) (htmrs : ∀ x ∈ T, x ≠ id → x ∈ T') : Others s' W' T' t id := by
  refine ⟨fun x w hw hx => ?_, fun u c hc hfin hu => ?_, fun u hu hne => ?_⟩
  · rw [hrec x hx] at hw
    obtain ⟨hne, hlive, hcall⟩ := h.owner x w hw hx
    rw [htsk w.task hne]
    exact ⟨hne, hlive, hcall⟩
  · rw [htsk u hu] at hc hfin
    obtain ⟨hx, w, hw, hwt, hcnt⟩ := h.called u c hc hfin hu
    exact ⟨hx, w, (hrec c.record hx).trans hw, hwt, hcnt⟩
  · unfold Blocked at hu
    rw [htsk u hne] at hu ⊢
    obtain ⟨c, hc, hsub⟩ := h.blocked u hu hne
    have hx := (h.called u c hc hu.1.2 hne).1
    refine ⟨c, hc, fun i q hq => hwat q _ (hsub.watched i q hq) hx, fun hp hd => htmrs _ (hsub.timed hp ?_) hx⟩
    unfold PollState.deadline at hd ⊢
    rwa [hrec c.record hx] at hd

lemma calls {c : Call} {w : Waiter} (hid : c.record = id) (hstay : (s.task t).Stays) (hc : (s.task t).call = some c)
    (hw : Owned s t c w) (hblk : Blocked s t → Subscribed s W T c) : Calls s W T := by
  refine ⟨fun x v hv => ?_, fun u c' hc' hfin => ?_, fun u hu => ?_⟩
  · by_cases hx : x = id
    · have hrec := hw.record
      rw [hid, ← hx, hv] at hrec
      have htsk : v.task = t := (congrArg Waiter.task (Option.some.inj hrec)).trans hw.task
      rw [htsk]
      exact ⟨hstay, c, hc, hid.trans hx.symm⟩
    · exact (h.owner x v hv hx).2
  · by_cases hu : u = t
    · rw [hu, hc] at hc'
      rw [hu, ← Option.some.inj hc']
      exact ⟨w, hw⟩
    · exact (h.called u c' hc' hfin hu).2
  · by_cases hut : u = t
    · rw [hut] at hu ⊢
      exact ⟨c, hc, hblk hu⟩
    · exact h.blocked u hu hut

lemma calls_left (hfree : s.record id = none) (hidle : (s.task t).call = none) (hblk : ¬Blocked s t) : Calls s W T := by
  refine ⟨fun x v hv => ?_, fun u c' hc' hfin => ?_, fun u hu => ?_⟩
  · refine (h.owner x v hv fun hx => ?_).2
    rw [hx, hfree] at hv
    cases hv
  · refine (h.called u c' hc' hfin fun hu => ?_).2
    rw [hu, hidle] at hc'
    cases hc'
  · refine h.blocked u hu fun hut => hblk (hut ▸ hu)

end Others

/-! ### Waking -/

structure Inv (s : PollState) (W : Queue → List (ℕ × ℕ)) (T A : List ℕ) : Prop where
  lists : Lists s W T A
  calls : Calls s W T

structure Woken (s s' : PollState) : Prop where
  kept : ∀ x, (s'.task x).live = (s.task x).live ∧ (s'.task x).call = (s.task x).call ∧
    (s'.task x).finishers = (s.task x).finishers
  blocked : ∀ x, Blocked s' x → Blocked s x
  waiting : ∀ x, (s'.task x).waiting = true → s'.task x = s.task x
  record : s'.record = s.record
  records : s'.records = s.records
  usable : s'.usable = s.usable
  now : s'.now = s.now

lemma Woken.refl (s : PollState) : Woken s s :=
  ⟨fun _ => ⟨rfl, rfl, rfl⟩, fun _ h => h, fun _ _ => rfl, rfl, rfl, rfl, rfl⟩

lemma Woken.trans {s₁ s₂ : PollState} (h : Woken s s₁) (h' : Woken s₁ s₂) : Woken s s₂ := by
  refine ⟨fun x => ?_, fun x hx => h.blocked x (h'.blocked x hx),
    fun x hx => (h'.waiting x hx).trans (h.waiting x (h'.waiting x hx ▸ hx)), h'.record.trans h.record,
      h'.records.trans h.records, h'.usable.trans h.usable, h'.now.trans h.now⟩
  obtain ⟨hlive, hcall, hint⟩ := h.kept x
  obtain ⟨hlive', hcall', hint'⟩ := h'.kept x
  exact ⟨hlive'.trans hlive, hcall'.trans hcall, hint'.trans hint⟩

lemma blocked_taskRun {x : ℕ} (h : Blocked (s.taskRun t) x) : x ≠ t ∧ Blocked s x := by
  by_cases hx : x = t
  · subst hx
    obtain ⟨⟨hlive, -⟩, hwait, -⟩ := h
    rw [(taskRun_kept s x x).1] at hlive
    rw [taskRun_waiting s hlive] at hwait
    cases hwait
  · unfold Blocked at h
    rw [taskRun_task_of_ne s hx] at h
    exact ⟨hx, h⟩

lemma waiting_taskRun {x : ℕ} (h : ((s.taskRun t).task x).waiting = true) : (s.taskRun t).task x = s.task x := by
  by_cases hx : x = t
  · subst hx
    by_cases hlive : (s.task x).live = true
    · rw [taskRun_waiting s hlive] at h
      cases h
    · unfold PollState.taskRun
      rw [(Bool.not_eq_true _).mp hlive]
      rfl
  · exact taskRun_task_of_ne s hx

lemma taskRun_woken (s : PollState) (t : ℕ) : Woken s (s.taskRun t) :=
  ⟨taskRun_kept s t, fun _ hx => (blocked_taskRun hx).2, fun _ hx => waiting_taskRun hx, (taskRun_same s t).record,
    (taskRun_same s t).records, (taskRun_same s t).usable, (taskRun_same s t).now⟩

lemma release_woken (s : PollState) (id t : ℕ) : Woken s ((s.detach id).taskRun t) := by
  have hdet : Woken s (s.detach id) :=
    ⟨fun x => by simp, fun x hx => by simpa [Blocked] using hx, fun x _ => by simp, by simp, by simp, by simp, by simp⟩
  exact hdet.trans (taskRun_woken _ t)

namespace Inv

variable (h : Inv s W T A)

include h

lemma taskRun (t : ℕ) : Inv (s.taskRun t) W T A :=
  ⟨h.lists.congr (taskRun_same s t), h.calls.congr (taskRun_same s t).record
    (taskRun_kept s t) fun _ hx => (blocked_taskRun hx).2⟩

/-- **A waiter is released**: its watches are gone, and its task runs. -/
theorem release {w : Waiter} (hw : s.record id = some w) :
    Inv ((s.detach id).taskRun w.task) (fun q => (W q).filter fun x => decide (x.1 ≠ id)) (T.erase id) A := by
  refine ⟨(h.lists.detach id).congr (taskRun_same _ _), ?_⟩
  have hwok := release_woken s id w.task
  have hdl : ∀ x, ((s.detach id).taskRun w.task).deadline x = s.deadline x := fun x => by
    unfold PollState.deadline
    rw [hwok.record]
  refine ⟨fun x v hv => ?_, fun u c hc hfin => ?_, fun u hu => ?_⟩
  · rw [hwok.record] at hv
    unfold Task.Stays
    rw [(hwok.kept v.task).1, (hwok.kept v.task).2.1, (hwok.kept v.task).2.2]
    exact h.calls.owner x v hv
  · rw [(hwok.kept u).2.1] at hc
    rw [(hwok.kept u).2.2] at hfin
    obtain ⟨v, hv, htsk, hcnt⟩ := h.calls.called u c hc hfin
    exact ⟨v, by rw [hwok.record]; exact hv, htsk, hcnt⟩
  · obtain ⟨hne, hold⟩ := blocked_taskRun hu
    obtain ⟨c, hc, hsub⟩ := h.calls.blocked u (hwok.blocked u hu)
    rw [(hwok.kept u).2.1]
    have hid : c.record ≠ id := fun heq => by
      obtain ⟨v, hv⟩ := h.calls.called u c hc (hwok.blocked u hu).1.2
      have hrec := hv.record
      rw [heq, hw] at hrec
      exact hne (hv.task.symm.trans (congrArg Waiter.task (Option.some.inj hrec).symm))
    refine ⟨c, hc, fun i q hq => ?_, fun hp hd => ?_⟩
    · exact List.mem_filter.mpr ⟨hsub.watched i q hq, decide_eq_true hid⟩
    · rw [hdl] at hd
      exact (List.mem_erase_of_ne hid).mpr (hsub.timed hp hd)

omit h in
/-- **The loop of a wake** leaves no watch in the queue. -/
theorem wakeLoop (q : Queue) {fuel : ℕ} (S : Finset ℕ) (h : Inv s W T A) (hS : ∀ x ∈ W q, x.1 ∈ S) (hfuel : S.card ≤ fuel) :
    ∃ W' T', Inv (PollState.wakeLoop q fuel s) W' T' A ∧ W' q = [] ∧ Woken s (PollState.wakeLoop q fuel s) := by
  induction fuel generalizing s W T S with
  | zero =>
    have hemp : W q = [] := List.eq_nil_iff_forall_not_mem.mpr fun x hx => by
      have hin := hS x hx
      rw [Finset.card_eq_zero.mp (Nat.le_zero.mp hfuel)] at hin
      simp at hin
    exact ⟨W, T, h, hemp, .refl s⟩
  | succ fuel ih =>
    have hhead := (h.lists.watches.isList q).head
    unfold PollState.wakeLoop
    cases hlist : W q with
    | nil =>
      rw [hlist] at hhead
      rw [hhead]
      exact ⟨W, T, h, hlist, .refl s⟩
    | cons x rest =>
      rw [hlist] at hhead
      obtain ⟨id, i⟩ := x
      rw [hhead]
      have hmem : (id, i) ∈ W q := by rw [hlist]; exact List.mem_cons_self
      obtain ⟨w, hw, -⟩ := h.lists.watch q (id, i) hmem
      have hin : id ∈ S := hS (id, i) hmem
      dsimp only [List.head?_cons]
      rw [hw]
      obtain ⟨W', T', hinv, hemp, hwok⟩ := ih (S.erase id) (h.release hw) (fun x hx => by
          obtain ⟨hx, hne⟩ := List.mem_filter.mp hx
          exact Finset.mem_erase.mpr ⟨of_decide_eq_true hne, hS x hx⟩)
        (by rw [Finset.card_erase_of_mem hin]; omega)
      exact ⟨W', T', hinv, hemp, (release_woken s id w.task).trans hwok⟩

/-- **`io_poll_wake`.** -/
theorem ioPollWake (q : Queue) :
    ∃ W' T', Inv (s.ioPollWake q) W' T' A ∧ W' q = [] ∧ Woken s (s.ioPollWake q) := by
  refine wakeLoop q (Finset.range s.records) h (fun x hx => ?_) (Finset.card_range _).le
  obtain ⟨w, hw, -⟩ := h.lists.watch q x hx
  exact Finset.mem_range.mpr (h.lists.bound x.1 (by rw [hw]; rfl))

omit h in
theorem tickLoop (fuel : ℕ) (h : Inv s W T A) :
    ∃ W' T', Inv (PollState.tickLoop fuel s) W' T' A ∧ Woken s (PollState.tickLoop fuel s) := by
  induction fuel generalizing s W T with
  | zero => exact ⟨W, T, h, .refl s⟩
  | succ fuel ih =>
    unfold PollState.tickLoop
    split
    · exact ⟨W, T, h, .refl s⟩
    · rename_i id hid
      split
      · exact ⟨W, T, h, .refl s⟩
      · rename_i w hw
        split
        · obtain ⟨W', T', hinv, hwok⟩ := ih (h.release hw)
          exact ⟨W', T', hinv, (release_woken s id w.task).trans hwok⟩
        · exact ⟨W, T, h, .refl s⟩

end Inv

end PlantOS.Poll
