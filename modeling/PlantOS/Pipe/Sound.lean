import Mathlib.Algebra.BigOperators.Group.Finset.Basic
import Mathlib.Data.List.ReduceOption
import PlantOS.Lib.Ring
import PlantOS.Lib.Run
import PlantOS.Vfs.Defs

/-!
# Pipes

The descriptors, handles and pipes of `vfs.c` and the queues of `io_poll.c` that calls of `vfs_fd_io` wait in.
Handles of files have no pipe, and what the filesystem does with them is left out. A pass of the loop of
`vfs_fd_io` runs under the kernel lock, so that it is one step.
-/

namespace PlantOS.Pipe

open PlantOS.Vfs (VfsError)
open Lib
open Function (update)

def vfsPipeCapacity : ℕ := 65536

def vfsPipeAtomic : ℕ := 4096

def vfsInitialFdCapacity : ℕ := 16

/-- `UINT_MAX / 2 / sizeof(vfs_descriptor_t)` -/
def maxDescriptors : ℕ := 4294967295 / 2 / 16

/-! ### The state -/

/-- `vfs_pipe_t`; a queue is the list of the tasks whose waiters are in it, the latest first. -/
structure VfsPipe where
  readers : List ℕ
  writers : List ℕ
  identity : ℕ
  head : ℕ
  used : ℕ
  readOpen : Bool
  writeOpen : Bool
  data : ℕ → UInt8

/-- `vfs_handle_t`: the address of its pipe, its flags and its references. -/
structure VfsHandle where
  pipe : Option ℕ
  read : Bool
  write : Bool
  nonblock : Bool
  references : ℕ

/-- `vfs_context_t`: the handles of its descriptors and its references. -/
structure VfsContext where
  entries : List (Option ℕ)
  references : ℕ

/-- A call of `vfs_fd_io` that waits. -/
structure Io where
  descriptor : ℕ
  length : ℕ
  write : Bool
  identity : ℕ

/-- What a task has to do with files; `waiting` is the state `WAITING`. -/
structure Task where
  context : Option ℕ
  io : Option Io
  waiting : Bool
  ready : Bool

/-- The chunks that writes have put into a pipe and those that reads have returned, in order. -/
structure Log where
  accepted : List (List UInt8)
  returned : List (List UInt8)

structure State where
  pipe : ℕ → Option VfsPipe
  handle : ℕ → Option VfsHandle
  context : ℕ → VfsContext
  /-- `vfs_contexts` -/
  contexts : Finset ℕ
  task : ℕ → Task
  tasks : Finset ℕ
  /-- `vfs_identity_sequence` -/
  identitySequence : ℕ
  /-- a ghost, by the identity of the pipe -/
  log : ℕ → Log

/-- An error of `vfs_fd_io`; `fault` is -14. -/
inductive IoError
  | vfs (error : VfsError)
  | fault
  deriving DecidableEq, Repr

namespace State

variable (s : State)

def setPipe (p : ℕ) (q : Option VfsPipe) : State := { s with pipe := update s.pipe p q }

def setHandle (h : ℕ) (handle : Option VfsHandle) : State := { s with handle := update s.handle h handle }

def setContext (c : ℕ) (context : VfsContext) : State := { s with context := update s.context c context }

def setTask (t : ℕ) (task : Task) : State := { s with task := update s.task t task }

def queue (p : ℕ) (write : Bool) : List ℕ :=
  match s.pipe p with
  | none => []
  | some q => if write then q.writers else q.readers

/-- `detach` of the waiter of a task -/
def detach (t : ℕ) : State :=
  { s with
    pipe := fun p => (s.pipe p).map fun q =>
      { q with readers := q.readers.filter (· ≠ t), writers := q.writers.filter (· ≠ t) } }

/-- `task_run`, as far as it ends a wait -/
def taskRun (t : ℕ) : State :=
  if (s.task t).waiting then s.setTask t { s.task t with waiting := false, ready := false }
  else s.setTask t { s.task t with ready := true }

/-- The loop of `io_poll_wake`, for at most `fuel` waiters. -/
def wakeLoop (p : ℕ) (write : Bool) : ℕ → State → State
  | 0, s => s
  | fuel + 1, s =>
    match s.queue p write with
    | [] => s
    | t :: _ => wakeLoop p write fuel ((s.detach t).taskRun t)

def ioPollWake (p : ℕ) (write : Bool) : State := wakeLoop p write (s.queue p write).length s

def ioPollWatch (p : ℕ) (q : VfsPipe) (write : Bool) (t : ℕ) : State :=
  s.setPipe p (some (if write then { q with writers := t :: q.writers } else { q with readers := t :: q.readers }))

/-! ### Descriptors -/

def vfsFdGet (c descriptor : ℕ) : Option ℕ :=
  if descriptor < 3 then none else (s.context c).entries.getD descriptor none

/-- The loop of `vfs_fd_reserve`. -/
def firstFree (entries : List (Option ℕ)) (minimum : ℕ) : Option ℕ :=
  (List.range' minimum (entries.length - minimum)).find? fun descriptor => (entries.getD descriptor none).isNone

/-- `vfs_fd_reserve`: the table and the descriptor; `memory`: `realloc` succeeds. -/
def vfsFdReserve (entries : List (Option ℕ)) (minimum : ℕ) (memory : Bool) :
    List (Option ℕ) × Except VfsError ℕ :=
  match firstFree entries minimum with
  | some descriptor => (entries, .ok descriptor)
  | none =>
    if entries.length < minimum then (entries, .ok minimum)
    else if entries.length > maxDescriptors then (entries, .error .tooManyFiles)
    else if !memory then (entries, .error .noMemory)
    else (entries ++ List.replicate entries.length none, .ok entries.length)

/-- What the allocator gives to `vfs_fd_pipe`. -/
structure PipeMemory where
  readTable : Bool
  reader : Option ℕ
  writeTable : Bool
  writer : Option ℕ
  pipe : Option ℕ

def vfsFdPipe (c : ℕ) (nonblock : Bool) (memory : PipeMemory) : State :=
  let context := s.context c
  let (entries, readFd) := vfsFdReserve context.entries 3 memory.readTable
  match readFd, memory.reader with
  | .ok readFd, some reader =>
    let (entries, writeFd) := vfsFdReserve entries (readFd + 1) memory.writeTable
    match writeFd, memory.writer, memory.pipe with
    | .ok writeFd, some writer, some p =>
      let identity := s.identitySequence + 1
      { s with
        pipe := update s.pipe p (some ⟨[], [], identity, 0, 0, true, true, fun _ => 0⟩)
        handle := update (update s.handle reader (some ⟨some p, true, false, nonblock, 1⟩)) writer
          (some ⟨some p, false, true, nonblock, 1⟩)
        context := update s.context c
          { context with entries := (entries.set readFd (some reader)).set writeFd (some writer) }
        identitySequence := identity }
    | _, _, _ => s.setContext c { context with entries := entries }
  | _, _ => s.setContext c { context with entries := entries }

/-- `vfs_fd_open`, when it opens a file: the handle has no pipe. -/
def vfsFdOpen (c handle : ℕ) (read write nonblock memory : Bool) : State :=
  let context := s.context c
  match vfsFdReserve context.entries 3 memory with
  | (entries, .error _) => s.setContext c { context with entries := entries }
  | (entries, .ok descriptor) =>
    { s with
      handle := update s.handle handle (some ⟨none, read, write, nonblock, 1⟩)
      context := update s.context c { context with entries := entries.set descriptor (some handle) } }

def vfsClose (h : ℕ) : State :=
  match s.handle h with
  | none => s
  | some handle =>
    if handle.references = 0 then s
    else if handle.references - 1 ≠ 0 then s.setHandle h (some { handle with references := handle.references - 1 })
    else
      match handle.pipe.bind fun p => (s.pipe p).map (p, ·) with
      | none => s.setHandle h none
      | some (p, q) =>
        let q := if handle.read then { q with readOpen := false } else { q with writeOpen := false }
        let s := (((s.setPipe p (some q)).ioPollWake p false).ioPollWake p true)
        let s := if !q.readOpen ∧ !q.writeOpen then s.setPipe p none else s
        s.setHandle h none

def pipeOf (h : ℕ) : Option ℕ := (s.handle h).bind VfsHandle.pipe

def vfsFdClose (c descriptor : ℕ) : State :=
  match s.vfsFdGet c descriptor with
  | none => s
  | some h =>
    let s := s.setContext c { s.context c with entries := (s.context c).entries.set descriptor none }
    let s :=
      match s.pipeOf h with
      | none => s
      | some p => (s.ioPollWake p false).ioPollWake p true
    s.vfsClose h

/-- `F_SETFL` of `vfs_fd_fcntl` -/
def setStatusFlags (c descriptor : ℕ) (nonblock : Bool) : State :=
  match s.vfsFdGet c descriptor with
  | none => s
  | some h => { s with handle := update s.handle h ((s.handle h).map ({ · with nonblock := nonblock })) }

def heldBy (entries : List (Option ℕ)) : List ℕ := (entries.drop 3).reduceOption

def vfsHandleRetain (h : ℕ) : State :=
  { s with handle := update s.handle h ((s.handle h).map fun handle =>
      { handle with references := handle.references + 1 }) }

/-- `vfs_context_fork`: the new context is `d`. -/
def vfsContextFork (c d : ℕ) : State :=
  let s' := (heldBy (s.context c).entries).foldl vfsHandleRetain s
  { s' with
    context := update s.context d ⟨(s.context c).entries, 1⟩
    contexts := insert d s.contexts }

def vfsContextRelease (c : ℕ) : State :=
  let context := s.context c
  if context.references = 0 then s
  else if context.references - 1 ≠ 0 then s.setContext c { context with references := context.references - 1 }
  else (heldBy context.entries).foldl vfsClose { s with contexts := s.contexts.erase c }

/-! ### Reading and writing -/

/-- `vfs_pipe_io` on the pipe `q` at the address `p`: what it returns, what it has read, and the state. -/
def vfsPipeIo (handle : VfsHandle) (p : ℕ) (q : VfsPipe) (source : ℕ → UInt8) (length : ℕ) (write : Bool) :
    Except VfsError ℕ × List UInt8 × State :=
  if !(if write then handle.write else handle.read) then (.error .badDescriptor, [], s)
  else if length = 0 then (.ok 0, [], s)
  else if write ∧ !q.readOpen then (.error .pipe, [], s)
  else
    let available := if write then vfsPipeCapacity - q.used else q.used
    if available = 0 ∨ (write ∧ length ≤ vfsPipeAtomic ∧ length > available) then
      (if !write ∧ !q.writeOpen then .ok 0 else .error .again, [], s)
    else
      let n := min length available
      if write then
        let q := { q with data := Ring.push vfsPipeCapacity q.data q.head q.used source n, used := q.used + n }
        (.ok n, [], (s.setPipe p (some q)).ioPollWake p false)
      else
        let q' := { q with head := (q.head + n) % vfsPipeCapacity, used := q.used - n }
        (.ok n, Ring.front vfsPipeCapacity q.data q.head n, (s.setPipe p (some q')).ioPollWake p true)

/-- A chunk is added to what has gone into the pipe or come out of it. -/
def record (identity : ℕ) (write : Bool) (chunk : List UInt8) : State :=
  { s with
    log := update s.log identity
      (if write then { s.log identity with accepted := (s.log identity).accepted ++ [chunk] }
        else { s.log identity with returned := (s.log identity).returned ++ [chunk] }) }

/-- What happens around a pass: the buffer is not there, `malloc` of the waiter succeeds, a signal is pending,
and what the filesystem answers for a file. -/
structure Around where
  fault : Bool
  memory : Bool
  signal : Bool
  file : Except VfsError ℕ

/-- A pass of the loop of `vfs_fd_io`: what it returns, unless it waits. `identity` is 0 in the first pass. -/
def vfsFdIo (t c : ℕ) (io : Io) (source : ℕ → UInt8) (around : Around) : Option (Except IoError ℕ) × State :=
  match (s.vfsFdGet c io.descriptor).bind fun h => (s.handle h).map (h, ·) with
  | none => (some (.error (.vfs .badDescriptor)), s)
  | some (_, handle) =>
    match handle.pipe.bind fun p => (s.pipe p).map (p, ·) with
    | none =>
      if io.identity ≠ 0 then (some (.error (.vfs .badDescriptor)), s)
      else (some (around.file.mapError .vfs), s)
    | some (p, q) =>
      if io.identity ≠ 0 ∧ io.identity ≠ q.identity then (some (.error (.vfs .badDescriptor)), s)
      else if io.length ≠ 0 ∧ around.fault then (some (.error .fault), s)
      else
        match s.vfsPipeIo handle p q source io.length io.write with
        | (.ok n, chunk, s') =>
          (some (.ok n), s'.record q.identity io.write (if io.write then (List.range n).map source else chunk))
        | (.error e, _, s') =>
          if e ≠ .again ∨ handle.nonblock then (some (.error (.vfs e)), s')
          else if around.signal then (some (.error (.vfs .interrupted)), s')
          else if !around.memory then (some (.error (.vfs .noMemory)), s')
          else
            -- `io_poll_wait` up to the switch to another task
            let task := s'.task t
            let io := { io with identity := q.identity }
            (none,
              (s'.ioPollWatch p q io.write t).setTask t
                { task with io := some io, waiting := !task.ready, ready := false })

end State

/-! ## Processes that share pipes -/

inductive PipeEvent
  /-- a process starts with an empty table -/
  | create (t c : ℕ)
  /-- `task_fork`: the child `u` gets the context `d` -/
  | fork (t u d : ℕ)
  /-- a thread `u` shares the context of `t` -/
  | thread (t u : ℕ)
  | exit (t : ℕ)
  | pipe (t : ℕ) (nonblock : Bool) (memory : State.PipeMemory)
  | open_ (t handle : ℕ) (read write nonblock memory : Bool)
  | close (t descriptor : ℕ)
  | setFlags (t descriptor : ℕ) (nonblock : Bool)
  /-- `vfs_fd_read` or `vfs_fd_write`, up to its end or its first wait -/
  | io (t descriptor length : ℕ) (write : Bool) (source : ℕ → UInt8) (around : State.Around)
  /-- a task that waits no longer makes its next pass; `interrupted`: a signal has come -/
  | resume (t : ℕ) (interrupted : Bool) (source : ℕ → UInt8) (around : State.Around)
  /-- anything else ends the wait of the task -/
  | wake (t : ℕ)

namespace State

variable (s : State)

def runs (t : ℕ) : Option ℕ :=
  if t ∈ s.tasks ∧ (s.task t).io.isNone ∧ !(s.task t).waiting then (s.task t).context else none

def freshMemory (memory : PipeMemory) : Bool :=
  (memory.reader.bind s.handle).isNone && (memory.writer.bind s.handle).isNone &&
    (memory.reader.isNone || memory.reader ≠ memory.writer) && (memory.pipe.bind s.pipe).isNone

def pass (t c : ℕ) (io : Io) (source : ℕ → UInt8) (around : Around) : State := (s.vfsFdIo t c io source around).2

def step (s : State) : PipeEvent → Option State
  | .create t c =>
    if t ∉ s.tasks ∧ c ∉ s.contexts then
      some
        { s with
          tasks := insert t s.tasks
          contexts := insert c s.contexts
          task := Function.update s.task t ⟨some c, none, false, false⟩
          context := Function.update s.context c ⟨List.replicate vfsInitialFdCapacity none, 1⟩ }
    else none
  | .fork t u d =>
    match s.runs t with
    | none => none
    | some c =>
      if u ∉ s.tasks ∧ d ∉ s.contexts then
        let s' := s.vfsContextFork c d
        some
          { s' with
            tasks := insert u s'.tasks
            task := Function.update s'.task u ⟨some d, none, false, false⟩ }
      else none
  | .thread t u =>
    match s.runs t with
    | none => none
    | some c =>
      if u ∉ s.tasks then
        some
          { s.setContext c { s.context c with references := (s.context c).references + 1 } with
            tasks := insert u s.tasks
            task := Function.update s.task u ⟨some c, none, false, false⟩ }
      else none
  | .exit t =>
    if t ∈ s.tasks then
      match (s.task t).context with
      | none => none
      | some c =>
        let s' := s.detach t
        some
          (State.vfsContextRelease
            { s' with
              tasks := s'.tasks.erase t
              task := Function.update s'.task t ⟨none, none, false, false⟩ } c)
    else none
  | .pipe t nonblock memory =>
    if s.freshMemory memory then (s.runs t).map fun c => s.vfsFdPipe c nonblock memory else none
  | .open_ t handle read write nonblock memory =>
    if (s.handle handle).isNone then (s.runs t).map fun c => s.vfsFdOpen c handle read write nonblock memory else none
  | .close t descriptor => (s.runs t).map fun c => s.vfsFdClose c descriptor
  | .setFlags t descriptor nonblock => (s.runs t).map fun c => s.setStatusFlags c descriptor nonblock
  | .io t descriptor length write source around =>
    (s.runs t).map fun c => s.pass t c ⟨descriptor, length, write, 0⟩ source around
  | .resume t interrupted source around =>
    match (s.task t).io, (s.task t).context with
    | some io, some c =>
      if (s.task t).waiting then none
      else
        let s' := (s.detach t).setTask t { s.task t with io := none }
        if interrupted then some s' else some (s'.pass t c io source around)
    | _, _ => none
  | .wake t => some (s.taskRun t)

structure Init (s : State) : Prop where
  pipe : ∀ p, s.pipe p = none
  handle : ∀ h, s.handle h = none
  contexts : s.contexts = ∅
  tasks : s.tasks = ∅
  task : ∀ t, s.task t = ⟨none, none, false, false⟩
  log : ∀ identity, s.log identity = ⟨[], []⟩

end State

def pipeSystem : Lib.System State PipeEvent := ⟨State.Init, State.step⟩

end PlantOS.Pipe

/-! ## What holds of handles and pipes -/

namespace PlantOS.Pipe.State

open Lib
open Function (comp update update_of_ne update_self)

def held (s : State) (h : ℕ) : ℕ := ∑ c ∈ s.contexts, ((s.context c).entries.drop 3).count (some h)

def users (s : State) (c : ℕ) : ℕ := (s.tasks.filter fun t => (s.task t).context = some c).card

/-- What holds in every run; `extra` are references that are about to be given back. -/
structure Sound (s : State) (extra : List ℕ) : Prop where
  references : ∀ h handle, s.handle h = some handle →
    handle.references = s.held h + extra.count h ∧ 0 < handle.references
  live : ∀ h, 0 < s.held h + extra.count h → ∃ handle, s.handle h = some handle
  ends : ∀ h handle p, s.handle h = some handle → handle.pipe = some p → handle.write = !handle.read ∧
    ∃ q, s.pipe p = some q ∧ (if handle.read then q.readOpen else q.writeOpen) = true
  unique : ∀ h handle h' handle' p, s.handle h = some handle → s.handle h' = some handle' →
    handle.pipe = some p → handle'.pipe = some p → handle.read = handle'.read → h = h'
  identity : ∀ p q, s.pipe p = some q → 0 < q.identity ∧ q.identity ≤ s.identitySequence
  identity_inj : ∀ p q p' q', s.pipe p = some q → s.pipe p' = some q' → q.identity = q'.identity → p = p'
  unused : ∀ identity, s.identitySequence < identity → s.log identity = ⟨[], []⟩
  ring : ∀ p q, s.pipe p = some q → q.head < vfsPipeCapacity ∧ q.used ≤ vfsPipeCapacity ∧
    (s.log q.identity).accepted.flatten =
      (s.log q.identity).returned.flatten ++ Ring.content vfsPipeCapacity q.data q.head q.used
  prefix_ : ∀ identity, (s.log identity).returned.flatten <+: (s.log identity).accepted.flatten
  table : ∀ c ∈ s.contexts, 3 ≤ (s.context c).entries.length ∧ (s.context c).references = s.users c
  member : ∀ t ∈ s.tasks, ∃ c ∈ s.contexts, (s.task t).context = some c
  gone : ∀ t, t ∉ s.tasks → (s.task t).context = none ∧ (s.task t).io = none ∧ (s.task t).waiting = false

variable {s s' : State} {extra : List ℕ}

/-! ### Waking -/

/-- The waiters of the tasks in `woken` are detached, and none of these tasks waits any longer. -/
structure Woken (s s' : State) (woken : List ℕ) : Prop where
  pipe : ∀ p, s'.pipe p = (s.pipe p).map fun q =>
    { q with readers := q.readers.filter (· ∉ woken), writers := q.writers.filter (· ∉ woken) }
  task : ∀ t, (s'.task t).io = (s.task t).io ∧ (s'.task t).context = (s.task t).context ∧
    ((s'.task t).waiting = true → (s.task t).waiting = true ∧ t ∉ woken)
  handle : s'.handle = s.handle
  context : s'.context = s.context
  contexts : s'.contexts = s.contexts
  tasks : s'.tasks = s.tasks
  identitySequence : s'.identitySequence = s.identitySequence
  log : s'.log = s.log

namespace Woken

variable {s'' : State} {woken woken' : List ℕ}

lemma refl (s : State) : Woken s s [] :=
  ⟨fun p => by cases s.pipe p <;> simp, fun t => ⟨rfl, rfl, fun h => ⟨h, by simp⟩⟩, rfl, rfl, rfl, rfl, rfl, rfl⟩

lemma trans (h : Woken s s' woken) (h' : Woken s' s'' woken') : Woken s s'' (woken ++ woken') := by
  refine ⟨fun p => ?_, fun t => ?_, h'.handle.trans h.handle, h'.context.trans h.context,
    h'.contexts.trans h.contexts, h'.tasks.trans h.tasks, h'.identitySequence.trans h.identitySequence,
    h'.log.trans h.log⟩
  · rw [h'.pipe, h.pipe, Option.map_map]
    congr 1
    funext q
    simp only [comp, List.filter_filter, List.mem_append, not_or]
    have hand : (fun t => decide (t ∉ woken') && decide (t ∉ woken)) = fun t => decide (t ∉ woken ∧ t ∉ woken') := by
      funext t
      simp [Bool.and_comm]
    rw [hand]
  · obtain ⟨hio, hctx, hwait⟩ := h.task t
    obtain ⟨hio', hctx', hwait'⟩ := h'.task t
    refine ⟨hio'.trans hio, hctx'.trans hctx, fun hw => ?_⟩
    obtain ⟨hw', hnot'⟩ := hwait' hw
    obtain ⟨hw'', hnot⟩ := hwait hw'
    exact ⟨hw'', by simp [hnot, hnot']⟩

lemma taskRun (s : State) (t : ℕ) : Woken s (s.taskRun t) [] := by
  have hset : ∀ task : Task, task.io = (s.task t).io → task.context = (s.task t).context → task.waiting = false →
      Woken s (s.setTask t task) [] := by
    intro task hio hctx hwait
    refine ⟨fun p => by show s.pipe p = _; cases s.pipe p <;> simp, fun u => ?_, rfl, rfl, rfl, rfl, rfl, rfl⟩
    by_cases hu : u = t
    · subst hu
      simp [setTask, hio, hctx, hwait]
    · simp [setTask, hu]
  unfold State.taskRun
  split
  · exact hset _ rfl rfl rfl
  case isFalse h => exact hset _ rfl rfl (by simpa using h)

lemma detach_taskRun (s : State) (t : ℕ) : Woken s ((s.detach t).taskRun t) [t] := by
  have hrun := taskRun (s.detach t) t
  refine { hrun with pipe := fun p => ?_, task := fun u => ?_ }
  · rw [hrun.pipe]
    simp only [List.not_mem_nil, not_false_eq_true, decide_true, List.filter_true, List.mem_singleton]
    show Option.map _ ((s.pipe p).map _) = _
    rw [Option.map_map]
    rfl
  · obtain ⟨hio, hctx, -⟩ := hrun.task u
    refine ⟨hio, hctx, fun hw => ?_⟩
    unfold State.taskRun at hw
    by_cases hu : u = t
    · subst hu
      split at hw
      · simp [setTask] at hw
      case isFalse h => simp [setTask] at hw; exact absurd hw h
    · split at hw
      · simpa [setTask, hu, detach] using hw
      · simpa [setTask, hu, detach] using hw

lemma queue_eq (h : Woken s s' woken) (p : ℕ) (write : Bool) :
    s'.queue p write = (s.queue p write).filter (· ∉ woken) := by
  unfold queue
  rw [h.pipe]
  cases s.pipe p with
  | none => rfl
  | some q => cases write <;> rfl

end Woken

lemma ioPollWake_woken (s : State) (p : ℕ) (write : Bool) :
    ∃ woken, Woken s (s.ioPollWake p write) woken ∧ ∀ t ∈ s.queue p write, t ∈ woken := by
  have hloop : ∀ (fuel : ℕ) (s : State), (s.queue p write).length ≤ fuel →
      ∃ woken, Woken s (wakeLoop p write fuel s) woken ∧ ∀ t ∈ s.queue p write, t ∈ woken := by
    intro fuel
    induction fuel with
    | zero =>
      intro s hlen
      have hnil : s.queue p write = [] := List.length_eq_zero_iff.mp (Nat.le_zero.mp hlen)
      exact ⟨[], .refl s, by simp [hnil]⟩
    | succ fuel ih =>
      intro s hlen
      unfold wakeLoop
      cases hqu : s.queue p write with
      | nil => exact ⟨[], .refl s, by simp⟩
      | cons t rest =>
        have hone := Woken.detach_taskRun s t
        have hrest : ((s.detach t).taskRun t).queue p write = rest.filter (· ∉ [t]) := by
          rw [hone.queue_eq, hqu, List.filter_cons_of_neg (by simp)]
        rw [hqu, List.length_cons] at hlen
        obtain ⟨woken, hwok, hall⟩ := ih ((s.detach t).taskRun t) (by
          rw [hrest]
          exact (List.length_filter_le _ _).trans (by omega))
        refine ⟨[t] ++ woken, hone.trans hwok, fun u hu => ?_⟩
        rw [List.mem_append, List.mem_singleton]
        by_cases hut : u = t
        · exact .inl hut
        · refine .inr (hall u ?_)
          rw [hrest, List.mem_filter]
          exact ⟨(List.mem_cons.mp hu).resolve_left hut, by simp [hut]⟩
  exact hloop _ s le_rfl

/-! ### Waking keeps the invariant -/

lemma Woken.pipe_some {woken : List ℕ} {p : ℕ} {q' : VfsPipe} (hw : Woken s s' woken) (h : s'.pipe p = some q') :
    ∃ q, s.pipe p = some q ∧
      q' = { q with readers := q.readers.filter (· ∉ woken), writers := q.writers.filter (· ∉ woken) } := by
  rw [hw.pipe] at h
  obtain ⟨q, hq, rfl⟩ := Option.map_eq_some_iff.mp h
  exact ⟨q, hq, rfl⟩

def VfsPipe.bare (q : VfsPipe) : VfsPipe := { q with readers := [], writers := [] }

lemma VfsPipe.bare_eq {q q' : VfsPipe} (h : VfsPipe.bare q = VfsPipe.bare q') : q.identity = q'.identity ∧
    q.head = q'.head ∧ q.used = q'.used ∧ q.readOpen = q'.readOpen ∧ q.writeOpen = q'.writeOpen ∧ q.data = q'.data := by
  simpa [VfsPipe.bare] using h

lemma Sound.queues {pipes : ℕ → Option VfsPipe} (hs : s.Sound extra)
    (hpipe : ∀ p, (pipes p).map VfsPipe.bare = (s.pipe p).map VfsPipe.bare) :
    ({ s with pipe := pipes } : State).Sound extra := by
  have hold : ∀ {p : ℕ} {q : VfsPipe}, pipes p = some q →
      ∃ q', s.pipe p = some q' ∧ VfsPipe.bare q' = VfsPipe.bare q := by
    intro p q hq
    have hp := hpipe p
    rw [hq, Option.map_some] at hp
    exact Option.map_eq_some_iff.mp hp.symm
  refine { hs with
    ends := fun u hd p hu hp => ?_, identity := fun p q hq => ?_, identity_inj := ?_,
    ring := fun p q hq => ?_ }
  · obtain ⟨hwr, q, hq, hopen⟩ := hs.ends u hd p hu hp
    have hp := hpipe p
    rw [hq, Option.map_some] at hp
    obtain ⟨q', hq', heq⟩ := Option.map_eq_some_iff.mp hp
    obtain ⟨-, -, -, hread, hwr', -⟩ := VfsPipe.bare_eq heq
    exact ⟨hwr, q', hq', by rw [hread, hwr']; exact hopen⟩
  · obtain ⟨q', hq', heq⟩ := hold hq
    rw [← (VfsPipe.bare_eq heq).1]
    exact hs.identity p q' hq'
  · intro p q p' q' hq hq' hsame
    obtain ⟨r, hr, heq⟩ := hold hq
    obtain ⟨r', hr', heq'⟩ := hold hq'
    refine hs.identity_inj p r p' r' hr hr' ?_
    rw [(VfsPipe.bare_eq heq).1, (VfsPipe.bare_eq heq').1, hsame]
  · obtain ⟨q', hq', heq⟩ := hold hq
    obtain ⟨hiden, hhead, hused, -, -, hdata⟩ := VfsPipe.bare_eq heq
    rw [← hiden, ← hhead, ← hused, ← hdata]
    exact hs.ring p q' hq'

lemma Sound.setTasks (task : ℕ → Task) (hs : s.Sound extra) (hctx : ∀ t, (task t).context = (s.task t).context)
    (hgone : ∀ t, t ∉ s.tasks → (task t).io = none ∧ (task t).waiting = false) :
    ({ s with task := task } : State).Sound extra := by
  refine { hs with table := fun c hc => ?_, member := fun t ht => ?_, gone := fun t ht => ?_ }
  · have hus : users { s with task := task } c = s.users c := by
      unfold users
      simp only [hctx]
    rw [hus]
    exact hs.table c hc
  · rw [hctx]
    exact hs.member t ht
  · rw [hctx]
    exact ⟨(hs.gone t ht).1, hgone t ht⟩

lemma Sound.woken {woken : List ℕ} (hs : s.Sound extra) (hw : Woken s s' woken) : s'.Sound extra := by
  have hqus : ({ s with pipe := s'.pipe } : State).Sound extra := by
    refine hs.queues fun p => ?_
    rw [hw.pipe, Option.map_map]
    rfl
  have htsk := hqus.setTasks s'.task (fun t => (hw.task t).2.1) fun t ht => by
    obtain ⟨-, hio, hwait⟩ := hs.gone t ht
    refine ⟨(hw.task t).1.trans hio, ?_⟩
    by_contra hnot
    rw [((hw.task t).2.2 (by simpa using hnot)).1] at hwait
    cases hwait
  obtain ⟨pipe, handle, context, contexts, task, tasks, identitySequence, log⟩ := s'
  obtain ⟨-, -, rfl, rfl, rfl, rfl, rfl, rfl⟩ := hw
  exact htsk

def wakeBoth (s : State) (p : ℕ) : State := (s.ioPollWake p false).ioPollWake p true

lemma wakeBoth_woken (s : State) (p : ℕ) :
    ∃ woken, Woken s (s.wakeBoth p) woken ∧ ∀ write, ∀ t ∈ s.queue p write, t ∈ woken := by
  obtain ⟨readers, hrdrs, hall⟩ := ioPollWake_woken s p false
  obtain ⟨writers, hwtrs, hall'⟩ := ioPollWake_woken (s.ioPollWake p false) p true
  refine ⟨readers ++ writers, hrdrs.trans hwtrs, fun write t ht => ?_⟩
  rw [List.mem_append]
  by_cases hmem : t ∈ readers
  · exact .inl hmem
  · cases write with
    | false => exact .inl (hall t ht)
    | true =>
      refine .inr (hall' t ?_)
      rw [hrdrs.queue_eq, List.mem_filter]
      exact ⟨ht, by simpa using hmem⟩

/-! ### Handles -/

lemma Sound.sameEnds {extra' : List ℕ} {handles : ℕ → Option VfsHandle} (hs : s.Sound extra)
    (hold : ∀ h handle, handles h = some handle → ∃ handle', s.handle h = some handle' ∧
      handle.pipe = handle'.pipe ∧ handle.read = handle'.read ∧ handle.write = handle'.write)
    (hcnt : ∀ h handle, handles h = some handle →
      handle.references = s.held h + extra'.count h ∧ 0 < handle.references)
    (hlive : ∀ h, 0 < s.held h + extra'.count h → ∃ handle, handles h = some handle) :
    ({ s with handle := handles } : State).Sound extra' := by
  refine { hs with references := hcnt, live := hlive, ends := fun h handle p hh hp => ?_, unique := ?_ }
  · obtain ⟨handle', hh', hpipe, hread, hwr⟩ := hold h handle hh
    rw [hread, hwr]
    exact hs.ends h handle' p hh' (hpipe ▸ hp)
  · intro h handle k handle' p hh hk hp hp' hread
    obtain ⟨hd, hh', hpipe, hread₁, -⟩ := hold h handle hh
    obtain ⟨hd', hk', hpipe', hread₂, -⟩ := hold k handle' hk
    exact hs.unique h hd k hd' p hh' hk' (hpipe ▸ hp) (hpipe' ▸ hp') (hread₁.symm.trans (hread.trans hread₂))

lemma Sound.decrement {h : ℕ} {handle : VfsHandle} (hs : s.Sound (h :: extra)) (hhd : s.handle h = some handle)
    (hmore : handle.references - 1 ≠ 0) :
    (s.setHandle h (some { handle with references := handle.references - 1 })).Sound extra := by
  obtain ⟨hcnt, hpos⟩ := hs.references h handle hhd
  rw [List.count_cons_self] at hcnt
  refine hs.sameEnds (fun u hd hu => ?_) (fun u hd hu => ?_) fun u hu => ?_
  all_goals by_cases heq : u = h
  · subst heq
    rw [update_self, Option.some.injEq] at hu
    exact ⟨handle, hhd, by rw [← hu], by rw [← hu], by rw [← hu]⟩
  · rw [update_of_ne heq] at hu
    exact ⟨hd, hu, rfl, rfl, rfl⟩
  · subst heq
    rw [update_self, Option.some.injEq] at hu
    subst hu
    dsimp only
    omega
  · rw [update_of_ne heq] at hu
    have hrefs := hs.references u hd hu
    rwa [List.count_cons_of_ne (Ne.symm heq)] at hrefs
  · subst heq
    exact ⟨_, update_self ..⟩
  · rw [update_of_ne heq]
    refine hs.live u ?_
    rwa [List.count_cons_of_ne (Ne.symm heq)]

lemma Sound.dropHandle {h : ℕ} {handle : VfsHandle} (hs : s.Sound (h :: extra)) (hhd : s.handle h = some handle)
    (hlast : handle.references = 1) : (s.setHandle h none).Sound extra := by
  obtain ⟨hcnt, -⟩ := hs.references h handle hhd
  rw [List.count_cons_self] at hcnt
  have hold : ∀ {u : ℕ} {hd : VfsHandle}, update s.handle h none u = some hd → u ≠ h ∧ s.handle u = some hd := by
    intro u hd hu
    by_cases heq : u = h
    · subst heq
      simp at hu
    · exact ⟨heq, by rwa [update_of_ne heq] at hu⟩
  refine hs.sameEnds (fun u hd hu => ⟨hd, (hold hu).2, rfl, rfl, rfl⟩) (fun u hd hu => ?_) fun u hu => ?_
  · obtain ⟨hne, hu⟩ := hold hu
    have hrefs := hs.references u hd hu
    rwa [List.count_cons_of_ne (Ne.symm hne)] at hrefs
  · have hne : u ≠ h := by
      rintro rfl
      omega
    rw [update_of_ne hne]
    refine hs.live u ?_
    rwa [List.count_cons_of_ne (Ne.symm hne)]

lemma Sound.shutEnd {p : ℕ} {q q' : VfsPipe} (read : Bool) (hs : s.Sound extra) (hq : s.pipe p = some q)
    (hnone : ∀ h handle, s.handle h = some handle → handle.pipe = some p → handle.read ≠ read)
    (hq' : q' = if read then { q with readOpen := false } else { q with writeOpen := false }) :
    (s.setPipe p (some q')).Sound extra := by
  have hsame : q'.identity = q.identity ∧ q'.head = q.head ∧ q'.used = q.used ∧ q'.data = q.data := by
    subst hq'
    cases read <;> exact ⟨rfl, rfl, rfl, rfl⟩
  obtain ⟨hiden, hhead, hused, hdata⟩ := hsame
  have hold : ∀ {v : ℕ} {r : VfsPipe}, (s.setPipe p (some q')).pipe v = some r →
      ∃ r', s.pipe v = some r' ∧ r.identity = r'.identity ∧ r.head = r'.head ∧ r.used = r'.used ∧ r.data = r'.data := by
    intro v r hv
    by_cases heq : v = p
    · subst heq
      simp only [setPipe, update_self, Option.some.injEq] at hv
      subst hv
      exact ⟨q, hq, hiden, hhead, hused, hdata⟩
    · simp only [setPipe, update_of_ne heq] at hv
      exact ⟨r, hv, rfl, rfl, rfl, rfl⟩
  refine { hs with
    ends := fun u hd v hu hv => ?_, identity := fun v r hv => ?_, identity_inj := ?_,
    ring := fun v r hv => ?_ }
  · obtain ⟨hwr, r, hr, hopen⟩ := hs.ends u hd v hu hv
    refine ⟨hwr, ?_⟩
    by_cases heq : v = p
    · subst heq
      refine ⟨q', by simp [setPipe], ?_⟩
      have hne := hnone u hd hu hv
      obtain rfl : r = q := Option.some.inj (hr.symm.trans hq)
      subst hq'
      cases read <;> cases hr : hd.read <;> simp_all
    · exact ⟨r, by simpa only [setPipe, update_of_ne heq] using hr, hopen⟩
  · obtain ⟨r', hr', hid, -⟩ := hold hv
    rw [hid]
    exact hs.identity v r' hr'
  · intro v r v' r' hv hv' heq
    obtain ⟨r₁, hr₁, hid, -⟩ := hold hv
    obtain ⟨r₂, hr₂, hid', -⟩ := hold hv'
    exact hs.identity_inj v r₁ v' r₂ hr₁ hr₂ (hid.symm.trans (heq.trans hid'))
  · obtain ⟨r', hr', hid, hhead, hused, hdata⟩ := hold hv
    rw [hid, hhead, hused, hdata]
    exact hs.ring v r' hr'

lemma Sound.dropPipe {p : ℕ} (hs : s.Sound extra)
    (hnone : ∀ h handle, s.handle h = some handle → handle.pipe ≠ some p) : (s.setPipe p none).Sound extra := by
  have hold : ∀ {v : ℕ} {r : VfsPipe}, (s.setPipe p none).pipe v = some r → s.pipe v = some r := by
    intro v r hv
    by_cases heq : v = p
    · subst heq
      simp [setPipe] at hv
    · simpa only [setPipe, update_of_ne heq] using hv
  refine { hs with
    ends := fun u hd v hu hv => ?_, identity := fun v r hv => ?_, identity_inj := ?_,
    ring := fun v r hv => ?_ }
  · obtain ⟨hwr, r, hr, hopen⟩ := hs.ends u hd v hu hv
    have hne : v ≠ p := by
      rintro rfl
      exact hnone u hd hu hv
    exact ⟨hwr, r, by simpa only [setPipe, update_of_ne hne] using hr, hopen⟩
  · exact hs.identity v r (hold hv)
  · intro v r v' r' hv hv'
    exact hs.identity_inj v r v' r' (hold hv) (hold hv')
  · exact hs.ring v r (hold hv)

lemma Woken.setHandle {woken : List ℕ} (hw : Woken s s' woken) (h : ℕ) (handle : Option VfsHandle) :
    Woken (s.setHandle h handle) (s'.setHandle h handle) woken := by
  refine { hw with handle := ?_ }
  show update s'.handle h handle = update s.handle h handle
  rw [hw.handle]

/-- **Closing a reference keeps the invariant.** -/
theorem Sound.vfsClose {h : ℕ} (hs : s.Sound (h :: extra)) : (s.vfsClose h).Sound extra := by
  obtain ⟨handle, hhd⟩ := hs.live h (by rw [List.count_cons_self]; omega)
  obtain ⟨hcnt, hpos⟩ := hs.references h handle hhd
  rw [List.count_cons_self] at hcnt
  unfold State.vfsClose
  rw [hhd]
  dsimp only
  rw [if_neg (by omega)]
  by_cases hmore : handle.references - 1 ≠ 0
  · rw [if_pos hmore]
    exact hs.decrement hhd hmore
  rw [if_neg hmore]
  have hdrop := hs.dropHandle hhd (by omega)
  cases hpipe : handle.pipe with
  | none => exact hdrop
  | some p =>
    obtain ⟨-, q, hq, -⟩ := hs.ends h handle p hhd hpipe
    simp only [Option.bind_some, hq, Option.map_some]
    set q' := if handle.read then { q with readOpen := false } else { q with writeOpen := false } with hq'
    -- no other handle is the same end of the pipe
    have hends : ∀ u hd, (s.setHandle h none).handle u = some hd → hd.pipe = some p → hd.read ≠ handle.read := by
      intro u hd hu hp hread
      by_cases heq : u = h
      · subst heq
        simp [State.setHandle] at hu
      · simp only [State.setHandle, update_of_ne heq] at hu
        exact heq (hs.unique u hd h handle p hu hhd hp hpipe hread)
    have hshut : ((s.setHandle h none).setPipe p (some q')).Sound extra := hdrop.shutEnd handle.read hq hends hq'
    obtain ⟨woken, hw, -⟩ := (s.setPipe p (some q')).wakeBoth_woken p
    have hwok := hshut.woken (hw.setHandle h none)
    show (State.setHandle (if _ then ((s.setPipe p (some q')).wakeBoth p).setPipe p none
      else (s.setPipe p (some q')).wakeBoth p) h none).Sound extra
    split
    case isFalse => exact hwok
    case isTrue hshut' =>
      -- both ends are closed
      refine hwok.dropPipe fun u hd hu hp => ?_
      obtain ⟨-, r, hr, hopen⟩ := hwok.ends u hd p hu hp
      have hr : (((s.setPipe p (some q')).wakeBoth p).pipe p) = some r := hr
      obtain ⟨r', hr', rfl⟩ := hw.pipe_some hr
      obtain rfl : q' = r' := by simpa [setPipe] using hr'
      simp only [Bool.not_eq_eq_eq_not, Bool.not_true] at hshut'
      rw [hshut'.1, hshut'.2, ite_self] at hopen
      cases hopen

end PlantOS.Pipe.State
