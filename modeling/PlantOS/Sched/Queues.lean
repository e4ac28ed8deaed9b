import Mathlib.Algebra.Order.BigOperators.Group.List
import PlantOS.Lib.HeadedList
import PlantOS.Lib.Resumption
import PlantOS.Sched.Identity

/-!
# The end of tasks and the switch between them

`finish_task`, the deferred termination of a task that runs on another CPU, and `task_next`, which retires slots,
finishes tasks and moves others between the CPUs before it switches. Of `task_release_resources` the model has
the writes to the slot and, as an input, the tasks that other subsystems wake while they forget the task.

`task_release_resources` may sleep once the task is out of its list and of all queues (`user_vm_lock`,
`vfs_mapping_sync`). The functions of `Kernel` are those of a release that does not sleep, the functions of
`Stepwise` the same ones as resumptions, which stop inside every release.
-/

namespace PlantOS.Sched

open PlantOS.Task (STATE taskIdNone reaperTid taskKilledStatus)

structure World where
  /-- `smp_cpu_online` -/
  online : ℕ → Bool
  /-- the tasks that are woken while `task_release_resources` releases a task; it cancels the waits of the task
  itself first -/
  wakes : ℕ → List ℕ

namespace Kernel

variable (w : World) (k : Kernel) (c t : ℕ)

/-- `task == current_task()` on the CPU `c` -/
def isCurrent : Bool := (k.cpu c).current = some t

def getTask (tid : ℕ) : Option ℕ := if tid < k.slotCount ∧ taskSlotInUse (k.slot tid) then some tid else none

/-! ### The end of one task -/

def wakeChildWaiter (child : ℕ) : Kernel :=
  let task := k.slot child
  let owner := if task.kind = .thread then task.tgid else task.ptid
  if owner = taskIdNone ∨ owner = reaperTid then k
  else
    k.forSlots fun k i =>
      let waiter := k.slot i
      if !taskSlotInUse waiter ∨ waiter.tgid ≠ owner ∨ waiter.state ≠ .waiting ∨ waiter.waitReason ≠ .child ∨
          (waiter.waittid ≠ taskIdNone ∧ (waiter.waittid ≠ (k.slot child).tid ∨
            waiter.waitGeneration ≠ (k.slot child).generation)) then k
      else k.taskRun w.online i

/-- The threads of the group get the parent: the inner loop of `reparent_children`. -/
def reparentThreads (tgid newParent : ℕ) : Kernel :=
  k.forSlots fun k j =>
    let thread := k.slot j
    if taskSlotInUse thread ∧ thread.kind = .thread ∧ thread.tgid = tgid then
      k.setSlot j ({ · with ptid := newParent })
    else k

def reparentChildren (oldParent newParent : ℕ) : Kernel :=
  k.forSlots fun k i =>
    let child := k.slot i
    if !taskSlotInUse child ∨ child.kind ≠ .process ∨ child.ptid ≠ oldParent then k
    else
      let k := (k.setSlot i ({ · with ptid := newParent })).reparentThreads child.tgid newParent
      if (k.slot i).state = .died ∧ newParent = reaperTid then k.taskSlotRelease i else k

def forgetNext : Kernel :=
  { k with cpu := fun c => if (k.cpu c).next = some t then { k.cpu c with next := none } else k.cpu c }

def taskClearExternalRefs : Kernel :=
  ((w.wakes t).filter (· ≠ t)).foldl (fun k u => k.taskRun w.online u) (k.forgetNext t)

def taskReleaseResources : Kernel := (k.taskClearExternalRefs w t).releaseResources t

/-- The part of `finish_task` behind `task_release_resources`. -/
def finishReleased (isCurrent : Bool) (status : ℕ) (waitable : Bool) : Kernel :=
  let k := (k.setSlot t ({ · with status := status })).wakeChildWaiter w t
  if waitable then k.setSlot t ({ · with state := .died })
  else if isCurrent then k.setSlot t ({ · with state := .willEmpty })
  else k.taskSlotRelease t

/-- `finish_task` on the CPU `c` -/
def finishTask (status : ℕ) (waitable : Bool) : Kernel :=
  ((k.schedulerRemove t).taskReleaseResources w t).finishReleased w t (k.isCurrent c t) status waitable

/-- Whether somebody can wait for the task: `waitable` of `task_finish_pending`. -/
def waitable : Bool :=
  let task := k.slot t
  task.joinable || (task.kind = .process ∧ task.ptid ≠ taskIdNone ∧ task.ptid ≠ reaperTid)

/-! ### Termination -/

/-- `task_finish_pending` of a thread -/
def finishPendingThread : Kernel :=
  let status := (k.slot t).terminateStatus
  let k := k.setSlot t ({ · with terminatePending := false })
  k.finishTask w c t status (k.waitable t)

/-- `request_task_termination` of a thread -/
def requestThreadTermination (status : ℕ) : Kernel :=
  let k := k.setSlot t ({ · with terminateStatus := status, terminatePending := true })
  if (k.slot t).onCpu ∧ !k.isCurrent c t then k.schedulerRequest (k.slot t).cpu else k.finishPendingThread w c t

def terminateThreadGroup (tgid except : ℕ) : Kernel :=
  k.forSlots fun k i =>
    let thread := k.slot i
    if i = except ∨ !taskSlotInUse thread ∨ thread.kind ≠ .thread ∨ thread.tgid ≠ tgid then k
    else
      let k := k.setSlot i ({ · with joinable := false })
      if (k.slot i).state = .died then k.taskSlotRelease i
      else k.requestThreadTermination w c i taskKilledStatus

def taskGroupHasThreads : Bool :=
  (List.range k.slotCount).any fun i =>
    let thread := k.slot i
    taskSlotInUse thread && i != t && thread.kind == .thread && thread.tgid == (k.slot t).tgid &&
      thread.addressSpace != 0

/-- `task_finish_pending` of a process past `terminate_thread_group`, and whether it goes on: a process whose threads
still run on other CPUs is parked. -/
def parkGroup : Kernel × Bool :=
  if k.taskGroupHasThreads t then
    let k := (k.setSlot t ({ · with terminatePending := true })).taskSetState t .waiting
    (k.setSlot t ({ · with waitReason := .child, waittid := taskIdNone, waitGeneration := 0 }), false)
  else (k.reparentChildren (k.slot t).tgid reaperTid, true)

/-- `task_finish_pending` before `finish_task`, and whether it goes on. -/
def prepareFinish : Kernel × Bool :=
  let k := k.setSlot t ({ · with terminatePending := false })
  if (k.slot t).kind = .process then (k.terminateThreadGroup w c (k.slot t).tgid t).parkGroup t else (k, true)

def taskFinishPending : Kernel :=
  match k.prepareFinish w c t with
  | (k', true) => k'.finishTask w c t (k.slot t).terminateStatus (k'.waitable t)
  | (k', false) => k'

def requestTaskTermination (status : ℕ) : Kernel :=
  let k := k.setSlot t ({ · with terminateStatus := status, terminatePending := true })
  if (k.slot t).onCpu ∧ !k.isCurrent c t then k.schedulerRequest (k.slot t).cpu else k.taskFinishPending w c t

/-! ### Choosing the next task -/

/-- The successors of a task in a list, at most `fuel` tasks. -/
def walk : ℕ → Option ℕ → List ℕ
  | 0, _ => []
  | _ + 1, none => []
  | fuel + 1, some t => t :: walk fuel (k.slot t).runNext

/-- The tasks that the loops over `runnable` of a CPU meet. -/
def runnableList : List ℕ := k.walk k.slotCount (k.cpu c).runnable

def schedulerTaskEligible : Bool :=
  let task := k.slot t
  task.state == .running && task.cpu == c && !task.terminatePending && !task.idle &&
    (!task.onCpu || k.isCurrent c t)

/-- The first task in the list that `scheduler_pick_next` finishes. -/
def firstPending : Option ℕ :=
  (k.runnableList c).find? fun t => (k.slot t).terminatePending && !(k.slot t).onCpu && !k.isCurrent c t

/-- The loop of `scheduler_pick_next` as far as it finishes tasks; `finished` are these, one after the other. -/
def finishPicked : List ℕ → Kernel → Option Kernel
  | [], k => if k.firstPending c = none then some k else none
  | t :: finished, k =>
    if k.firstPending c = some t then finishPicked finished (k.taskFinishPending w c t) else none

/-- What `scheduler_pick_next` takes: `choice` is the eligible task that its clock prefers. -/
def choose (hint choice : Option ℕ) : Option (Kernel × Option ℕ) :=
  let candidates := (hint.toList ++ k.runnableList c).filter fun t => k.schedulerTaskEligible c t
  match choice with
  | some t => if t ∈ candidates then some (k, some t) else none
  | none => if candidates = [] then some (k, (k.cpu c).idle) else none

/-- `scheduler_pick_next`: the state and the next task. -/
def schedulerPickNext (finished : List ℕ) (choice : Option ℕ) : Option (Kernel × Option ℕ) :=
  (finishPicked w c finished (k.setCpu c ({ · with next := none }))).bind fun k' =>
    k'.choose c (k.cpu c).next choice

/-- What `scheduler_pull` gains by the task `t`; the load differs by `difference`. -/
def pullGain (difference : ℤ) : ℤ :=
  let task := k.slot t
  if task.onCpu ∨ task.terminatePending ∨ task.pinned ∨ difference ≤ task.share then 0
  else min task.share (difference - task.share)

/-- `scheduler_pull`: the task that moves to the CPU `target`. -/
def schedulerPullSelected (target : ℕ) : Option ℕ :=
  let best := (List.range k.cpuTotal).foldl (fun best index =>
    let source := k.cpu index
    let load := (k.cpu target).load
    if index = target ∨ source.load ≤ load ∨ source.movable = 0 then best
    else if source.movable = 1 ∧ source.current.any (fun running =>
        (k.slot running).onCpu && (k.slot running).runPrevious.isSome && !(k.slot running).pinned) then best
    else
      (k.runnableList index).foldl (fun best t =>
        if k.pullGain t (source.load - load) > best.2 then (some t, k.pullGain t (source.load - load)) else best) best)
    ((none, 0) : Option ℕ × ℤ)
  best.1

def schedulerPull (target : ℕ) : Kernel × Bool :=
  match k.schedulerPullSelected target with
  | some t => (k.schedulerPlaceTask t target, true)
  | none => (k, false)

def schedulerBalance (online : ℕ → Bool) : Kernel :=
  let least := (List.range k.cpuTotal).foldl
    (fun least cpu => if online cpu ∧ (k.cpu cpu).load < (k.cpu least).load then cpu else least) 0
  (k.schedulerPull least).1

def schedulerTick (online : ℕ → Bool) (balance : Bool) : Kernel :=
  let k := k.schedulerRequest c
  if c = 0 ∧ balance then k.schedulerBalance online else k

def mtaskRunNow : Kernel :=
  if (k.slot t).cpu ≥ k.cpuTotal then k
  else (k.setCpu (k.slot t).cpu ({ · with next := some t })).schedulerRequest (k.slot t).cpu

/-! ### `task_next` -/

/-- The choices of the clock in `task_next`: the tasks that the two picks finish, and those they choose. -/
structure Picks where
  first : List ℕ
  choice : Option ℕ
  second : List ℕ
  choice' : Option ℕ

/-- The loop over `retired_tasks`, at most `fuel` tasks. -/
def releaseRetired : ℕ → Kernel → Kernel
  | 0, k => k
  | fuel + 1, k =>
    match k.retired with
    | none => k
    | some t =>
      releaseRetired fuel
        (({ k with retired := (k.slot t).runNext }.setSlot t ({ · with runNext := none })).taskSlotRelease t)

/-- A task that has ended itself leaves its stack. -/
def leaveStack : Kernel := if (k.slot t).state = .willEmpty then k.taskSetState t .ready else k

/-- `task_next` before it picks: the current task is `t`. -/
def leaveCpu : Kernel :=
  let k := (releaseRetired k.slotCount k).setSlot t ({ · with onCpu := false })
  (if (k.slot t).terminatePending then k.taskFinishPending w c t else k).leaveStack t

/-- The two picks of `task_next`. -/
def pickNext (picks : Picks) : Option (Kernel × Option ℕ) :=
  (k.schedulerPickNext w c picks.first picks.choice).bind fun (k, next) =>
    if next = (k.cpu c).idle then
      match k.schedulerPull c with
      | (k, true) => k.schedulerPickNext w c picks.second picks.choice'
      | (k, false) => some (k, next)
    else some (k, next)

/-- The switch from `t` to `next`. -/
def switchTo (next : ℕ) : Kernel :=
  let k := (k.setSlot next ({ · with onCpu := true, urgent := false, ready := false })).setCpu c
    ({ · with needResched := false })
  if next = t then k
  else
    let k :=
      if (k.slot t).state = .ready then
        { k.setSlot t ({ · with runNext := k.retired }) with retired := some t }
      else k
    k.setCpu c ({ · with current := some next })

/-- The end of `task_next` of `t`, which stays where there is no other task. -/
def switch : Option ℕ → Kernel
  | none => k.setSlot t ({ · with onCpu := true })
  | some next => k.switchTo c t next

/-- `task_next` on the CPU `c`, which holds the kernel lock once. -/
def taskNext (picks : Picks) : Option Kernel :=
  match (k.cpu c).current with
  | none => some k
  | some t => ((k.leaveCpu w c t).pickNext w c picks).map fun (k, next) => k.switch c t next

/-! ### Calls of the current task -/

/-- `task_fall_blocked_reason` of the current task `t` up to the switch. -/
def fallBlocked (state : STATE) (reason : WaitReason) : Kernel :=
  (k.taskSetState t state).setSlot t ({ · with waitReason := reason, ready := false })

def taskFallBlockedReason (state : STATE) (reason : WaitReason) (picks : Picks) : Option Kernel :=
  if (k.slot t).ready then some (k.setSlot t ({ · with ready := false, waitReason := .none }))
  else (k.fallBlocked t state reason).taskNext w c picks

def taskExit (status : ℕ) (picks : Picks) : Option Kernel :=
  ((k.setSlot t ({ · with terminateStatus := status })).taskFinishPending w c t).taskNext w c picks

/-- `task_exit_process`; the thread `t` may be finished twice, the second time in the world `w'`. -/
def taskExitProcess (w' : World) (status : ℕ) (picks : Picks) : Option Kernel :=
  let tgid := (k.slot t).tgid
  let leader := k.getTask tgid
  let k := (k.terminateThreadGroup w c tgid t).reparentChildren (k.slot t).tgid reaperTid
  let k :=
    match leader with
    | some leader => if leader ≠ t then k.requestTaskTermination w c leader status else k
    | none => k
  ((k.setSlot t ({ · with terminateStatus := status })).taskFinishPending w' c t).taskNext w c picks

def taskKill (tid : ℕ) (picks : Picks) : Option Kernel :=
  match k.getTask tid with
  | none => some k
  | some t =>
    if (k.slot t).state = .died then some k
    else
      let isCurrent := k.isCurrent c t
      let k := k.requestTaskTermination w c t taskKilledStatus
      if isCurrent then k.taskNext w c picks else some k

/-- A call of `waittid` or `task_join_thread`: the task it waits for. -/
structure WaitCall where
  tid : ℕ
  generation : ℕ
  thread : Bool
  deriving DecidableEq, Repr

def taskCanJoin (self target : ℕ) (thread : Bool) : Bool :=
  let task := k.slot target
  target != self &&
    if thread then task.kind == .thread && task.joinable && task.tgid == (k.slot self).tgid
    else task.kind == .process && task.ptid == (k.slot self).tgid

/-- The child that a pass of `task_wait` finds. -/
def waitTarget (self : ℕ) (call : WaitCall) : Option ℕ :=
  (k.getTask call.tid).filter fun child =>
    k.taskCanJoin self child call.thread && (k.slot child).generation == call.generation

def endWait (self : ℕ) : Kernel :=
  k.setSlot self ({ · with waittid := taskIdNone, waitGeneration := 0, waitReason := .none })

def waitFor (call : WaitCall) : Kernel :=
  let k := k.setSlot t ({ · with waittid := call.tid, waitGeneration := call.generation, waitReason := .child })
  (k.taskSetState t .waiting).setSlot t ({ · with ready := false })

/-- A pass of the loop of `task_wait` of the current task `t`: what it returns, unless it waits. -/
def taskWaitPass (call : WaitCall) (picks : Picks) : Option (Option (Option ℕ) × Kernel) :=
  match k.waitTarget t call with
  | none => some (some none, k.endWait t)
  | some child =>
    if (k.slot child).state = .died then
      some (some (some (k.slot child).status), (k.endWait t).taskSlotRelease child)
    else
      ((k.waitFor t call).taskNext w c picks).map (none, ·)

/-- The start of `task_wait`: the generation that it waits for. -/
def taskWaitStart (self tid generation : ℕ) (thread : Bool) : Option WaitCall :=
  ((k.getTask tid).filter fun child =>
    k.taskCanJoin self child thread && (generation == 0 || (k.slot child).generation == generation)).map
      fun child => ⟨tid, (k.slot child).generation, thread⟩

/-- `task_detach_thread` of the current task `t` -/
def taskDetachThread (tid generation : ℕ) : Kernel :=
  match k.getTask tid with
  | none => k
  | some thread =>
    let task := k.slot thread
    if generation = 0 ∨ task.generation ≠ generation ∨ task.kind ≠ .thread ∨ task.tgid ≠ (k.slot t).tgid ∨
        !task.joinable then k
    else
      let k := k.setSlot thread ({ · with joinable := false })
      if (k.slot thread).state = .died then k.taskSlotRelease thread else k

/-- `task_terminate_thread` of the current task `t` -/
def taskTerminateThread (tid generation : ℕ) (picks : Picks) : Option Kernel :=
  match k.getTask tid with
  | none => some k
  | some thread =>
    let task := k.slot thread
    if generation = 0 ∨ task.generation ≠ generation ∨ task.kind ≠ .thread ∨ task.tgid ≠ (k.slot t).tgid then some k
    else k.taskKill w c tid picks

/-- A pass of the loop of `task_wait_threads`. -/
def taskWaitThreads (picks : Picks) : Option Kernel :=
  if k.taskGroupHasThreads t then
    (k.setSlot t ({ · with waittid := taskIdNone, waitGeneration := 0 })).taskFallBlockedReason w c t .waiting .child
      picks
  else some k

/-! ### New tasks -/

/-- What `create_task_impl` gets: a kernel stack, an address space, and the file descriptors. -/
structure CreateMemory where
  stack : Option ℕ
  space : Option ℕ
  files : Bool
  deriving DecidableEq, Repr

/-- The slot that `create_task_impl` fills; `parent` is the current task, once the scheduler runs. -/
def createImage (child : Mtask) (parent : Option Mtask) (share : Bool) (pin : Option ℕ) : Mtask :=
  { child with
    kind := if share then .thread else .process
    tgid := if share then (parent.map (·.tgid)).getD child.tid else child.tid
    ptid := if share then (parent.map (·.ptid)).getD taskIdNone else taskIdNone
    cpu := pin.getD child.cpu
    pinned := pin.isSome || child.pinned }

/-- `create_task_impl` behind the claim of the slot; `kernelSpace` is `arch_address_space_kernel()`. -/
def createInto (kernelSpace : ℕ) (parent : Option ℕ) (child weight : ℕ) (share : Bool) (pin : Option ℕ)
    (memory : CreateMemory) : Kernel × Option ℕ :=
  let k := k.setSlot child fun task => createImage task (parent.map k.slot) share pin
  match memory.stack with
  | none => (k.taskSlotRelease child, none)
  | some stack =>
    let k := k.setSlot child ({ · with top := some stack })
    let space :=
      match parent with
      | none => some kernelSpace
      | some parent => if share then some (k.slot parent).addressSpace else memory.space
    match space with
    | none => (k.taskSlotRelease child, none)
    | some space =>
      let k := k.setSlot child ({ · with addressSpace := space, weight := weight })
      if memory.files then (k, some child) else (k.taskSlotRelease child, none)

/-- `create_task_impl` on the CPU `c`; `parent` is the current task, once the scheduler runs, and `sharedSmp` is
`ARCH_SHARED_ADDRESS_SPACE_SMP`. -/
def createTaskImpl (kernelSpace : ℕ) (sharedSmp : Bool) (parent : Option ℕ) (weight : ℕ) (share : Bool)
    (grow : ℕ → GrowMemory) (memory : CreateMemory) : Kernel × Option ℕ :=
  let pins := share && parent.isSome && !sharedSmp
  let pinned := if pins then k.taskPinAddressSpace (parent.getD 0) (k.slot (parent.getD 0)).addressSpace c else some k
  match pinned with
  | none => (k, none)
  | some k =>
    match k.taskSlotClaim grow parent.isNone with
    | (k, none) => (k, none)
    | (k, some child) => k.createInto kernelSpace parent child weight share (if pins then some c else none) memory

end Kernel

/-! ## The functions that end tasks, with the sleeps of the release -/

open Lib (Resumption)

namespace Stepwise

variable (w : World) (c t : ℕ) (k : Kernel)

/-- A loop over the registry, which may grow while a pass sleeps -/
def forSlots (f : ℕ → Kernel → Resumption Kernel Kernel) : Resumption Kernel Kernel :=
  .loop (·.slotCount) f (k.slotCount + uintMax) 0 k

/-- `finish_task`: whether the task is the current one is read before the release. -/
def finishTask (status : ℕ) (waitable : Bool) : Resumption Kernel Kernel :=
  .pause ((k.schedulerRemove t).taskClearExternalRefs w t) fun k' =>
    .done ((k'.releaseResources t).finishReleased w t (k.isCurrent c t) status waitable)

def finishPendingThread : Resumption Kernel Kernel :=
  let status := (k.slot t).terminateStatus
  let k := k.setSlot t ({ · with terminatePending := false })
  finishTask w c t k status (k.waitable t)

def requestThreadTermination (status : ℕ) : Resumption Kernel Kernel :=
  let k := k.setSlot t ({ · with terminateStatus := status, terminatePending := true })
  if (k.slot t).onCpu ∧ !k.isCurrent c t then .done (k.schedulerRequest (k.slot t).cpu)
  else finishPendingThread w c t k

def terminateThreadGroup (tgid except : ℕ) : Resumption Kernel Kernel :=
  forSlots k fun i k =>
    let thread := k.slot i
    if i = except ∨ !taskSlotInUse thread ∨ thread.kind ≠ .thread ∨ thread.tgid ≠ tgid then .done k
    else
      let k := k.setSlot i ({ · with joinable := false })
      if (k.slot i).state = .died then .done (k.taskSlotRelease i)
      else requestThreadTermination w c i k taskKilledStatus

def prepareFinish : Resumption Kernel (Kernel × Bool) :=
  let k := k.setSlot t ({ · with terminatePending := false })
  if (k.slot t).kind = .process then
    (terminateThreadGroup w c k (k.slot t).tgid t).bind fun k => .done (k.parkGroup t)
  else .done (k, true)

def taskFinishPending : Resumption Kernel Kernel :=
  (prepareFinish w c t k).bind fun
    | (k', true) => finishTask w c t k' (k.slot t).terminateStatus (k'.waitable t)
    | (k', false) => .done k'

def requestTaskTermination (status : ℕ) : Resumption Kernel Kernel :=
  let k := k.setSlot t ({ · with terminateStatus := status, terminatePending := true })
  if (k.slot t).onCpu ∧ !k.isCurrent c t then .done (k.schedulerRequest (k.slot t).cpu)
  else taskFinishPending w c t k

def finishPicked : List ℕ → Kernel → Resumption Kernel Kernel
  | [], k => if k.firstPending c = none then .done k else .fail
  | t :: finished, k =>
    if k.firstPending c = some t then (taskFinishPending w c t k).bind (finishPicked finished) else .fail

def schedulerPickNext (finished : List ℕ) (choice : Option ℕ) : Resumption Kernel (Kernel × Option ℕ) :=
  (finishPicked w c finished (k.setCpu c ({ · with next := none }))).bind fun k' =>
    .ofOption (k'.choose c (k.cpu c).next choice)

def leaveCpu : Resumption Kernel Kernel :=
  let k := (Kernel.releaseRetired k.slotCount k).setSlot t ({ · with onCpu := false })
  (if (k.slot t).terminatePending then taskFinishPending w c t k else .done k).bind fun k =>
    .done (k.leaveStack t)

def pickNext (picks : Kernel.Picks) : Resumption Kernel (Kernel × Option ℕ) :=
  (schedulerPickNext w c k picks.first picks.choice).bind fun (k, next) =>
    if next = (k.cpu c).idle then
      match k.schedulerPull c with
      | (k, true) => schedulerPickNext w c k picks.second picks.choice'
      | (k, false) => .done (k, next)
    else .done (k, next)

def taskNext (picks : Kernel.Picks) : Resumption Kernel Kernel :=
  match (k.cpu c).current with
  | none => .done k
  | some t =>
    (leaveCpu w c t k).bind fun k => (pickNext w c k picks).bind fun (k, next) => .done (k.switch c t next)

def taskFallBlockedReason (state : STATE) (reason : WaitReason) (picks : Kernel.Picks) :
    Resumption Kernel Kernel :=
  if (k.slot t).ready then .done (k.setSlot t ({ · with ready := false, waitReason := .none }))
  else taskNext w c (k.fallBlocked t state reason) picks

def taskExit (status : ℕ) (picks : Kernel.Picks) : Resumption Kernel Kernel :=
  (taskFinishPending w c t (k.setSlot t ({ · with terminateStatus := status }))).bind fun k =>
    taskNext w c k picks

def taskExitProcess (w' : World) (status : ℕ) (picks : Kernel.Picks) : Resumption Kernel Kernel :=
  let tgid := (k.slot t).tgid
  let leader := k.getTask tgid
  (terminateThreadGroup w c k tgid t).bind fun k' =>
    let k' := k'.reparentChildren (k.slot t).tgid reaperTid
    let led : Resumption Kernel Kernel :=
      match leader with
      | some leader => if leader ≠ t then requestTaskTermination w c leader k' status else .done k'
      | none => .done k'
    led.bind fun k =>
      (taskFinishPending w' c t (k.setSlot t ({ · with terminateStatus := status }))).bind fun k =>
        taskNext w c k picks

def taskKill (tid : ℕ) (picks : Kernel.Picks) : Resumption Kernel Kernel :=
  match k.getTask tid with
  | none => .done k
  | some t =>
    if (k.slot t).state = .died then .done k
    else
      (requestTaskTermination w c t k taskKilledStatus).bind fun k' =>
        if k.isCurrent c t then taskNext w c k' picks else .done k'

def taskTerminateThread (tid generation : ℕ) (picks : Kernel.Picks) : Resumption Kernel Kernel :=
  match k.getTask tid with
  | none => .done k
  | some thread =>
    let task := k.slot thread
    if generation = 0 ∨ task.generation ≠ generation ∨ task.kind ≠ .thread ∨ task.tgid ≠ (k.slot t).tgid then .done k
    else taskKill w c k tid picks

/-- The wait of a pass of `task_wait`, where there is one -/
def taskWaitPass (call : Kernel.WaitCall) (picks : Kernel.Picks) : Option (Resumption Kernel Kernel) :=
  match k.waitTarget t call with
  | none => none
  | some child => if (k.slot child).state = .died then none else some (taskNext w c (k.waitFor t call) picks)

def taskWaitThreads (picks : Kernel.Picks) : Resumption Kernel Kernel :=
  if k.taskGroupHasThreads t then
    taskFallBlockedReason w c t (k.setSlot t ({ · with waittid := taskIdNone, waitGeneration := 0 })) .waiting .child
      picks
  else .done k

end Stepwise

/-! ## The scheduler as a step system -/

/-- What is fixed: the address space of the kernel, and `ARCH_SHARED_ADDRESS_SPACE_SMP`. -/
structure Config where
  kernelSpace : ℕ
  sharedSmp : Bool

structure SchedState where
  kernel : Kernel
  /-- `scheduler_active` -/
  active : Bool
  /-- what a task has still to do of the functions in which it sleeps inside of a release, the innermost first -/
  rests : ℕ → List (Kernel → Resumption Kernel Kernel)
  /-- the call of `task_wait` that a task is in -/
  call : ℕ → Option Kernel.WaitCall

inductive SchedEvent
  | grow (memory : GrowMemory)
  /-- `create_task` or `create_thread_task` on the CPU `c` -/
  | create (c weight : ℕ) (share : Bool) (grow : ℕ → GrowMemory) (memory : Kernel.CreateMemory)
  /-- the creator writes to its new task -/
  | setup (t cpu : ℕ) (idle pinned joinable : Bool)
  | publish (w : World) (t : ℕ)
  | abort (t : ℕ)
  | fork (w : World) (c : ℕ) (grow : ℕ → GrowMemory) (memory : ForkMemory)
  /-- `arch_task_start` of the first task of a CPU -/
  | start (c t : ℕ)
  | setWeight (t weight : ℕ)
  /-- `task_run` from an interrupt or from another subsystem -/
  | run (w : World) (t : ℕ)
  /-- `task_sleep` -/
  | sleep (t : ℕ)
  /-- `mtask_run_now` -/
  | runNow (t : ℕ)
  | tick (w : World) (c : ℕ) (balance : Bool)
  /-- `task_next` from `scheduler_preempt_if_needed` or the reschedule interrupt -/
  | next (w : World) (c : ℕ) (picks : Kernel.Picks)
  /-- `task_fall_blocked_reason` -/
  | block (w : World) (c : ℕ) (state : STATE) (reason : WaitReason) (picks : Kernel.Picks)
  /-- `task_pin_current` -/
  | pin (w : World) (c target : ℕ) (picks : Kernel.Picks)
  | kill (w : World) (c tid : ℕ) (picks : Kernel.Picks)
  | exit (w : World) (c status : ℕ) (picks : Kernel.Picks)
  | exitProcess (w w' : World) (c status : ℕ) (picks : Kernel.Picks)
  /-- `waittid` or `task_join_thread`, up to the first pass -/
  | wait (w : World) (c tid generation : ℕ) (thread : Bool) (picks : Kernel.Picks)
  /-- another pass -/
  | waitAgain (w : World) (c : ℕ) (picks : Kernel.Picks)
  | detach (c tid generation : ℕ)
  | terminateThread (w : World) (c tid generation : ℕ) (picks : Kernel.Picks)
  /-- a pass of `task_wait_threads` -/
  | waitThreads (w : World) (c : ℕ) (picks : Kernel.Picks)
  /-- one of the events above up to its release number `n`, which sleeps -/
  | sleeps (e : SchedEvent) (n : ℕ)
  /-- the current task of the CPU goes on behind such a sleep: to the end, or up to the next release that sleeps -/
  | resumes (c : ℕ) (n : Option ℕ)

namespace SchedState

variable (s : SchedState)

/-- The task that executes on the CPU: inside of a release its state may be any. -/
def executing (c : ℕ) : Option ℕ :=
  (s.kernel.cpu c).current.filter fun t => (s.kernel.slot t).state = .running || !(s.rests t).isEmpty

/-- The task that executes on the CPU, and that is neither inside of a release nor in a call of `task_wait`. -/
def caller (c : ℕ) : Option ℕ := (s.executing c).filter fun t => (s.rests t).isEmpty && (s.call t).isNone

def withKernel (k : Kernel) : SchedState := { s with kernel := k }

def withNew : Kernel × Option ℕ → SchedState
  | (k, none) => { s with kernel := k }
  | (k, some t) =>
    { s with kernel := k, rests := Function.update s.rests t [], call := Function.update s.call t none }

def calls (c : ℕ) (f : ℕ → Option Kernel) : Option SchedState :=
  (s.caller c).bind fun t => (f t).map s.withKernel

/-- A pass of `task_wait` of the task `t`. -/
def waitPass (w : World) (c t : ℕ) (call : Kernel.WaitCall) (picks : Kernel.Picks) : Option SchedState :=
  (s.kernel.taskWaitPass w c t call picks).map fun (result, k) =>
    { s with kernel := k, call := Function.update s.call t (if result.isSome then none else some call) }

/-- `task_pin_current` of the task `t` -/
def pinCurrent (w : World) (c t target : ℕ) (picks : Kernel.Picks) : Option Kernel :=
  if target ≥ s.kernel.cpuTotal ∨ !w.online target then some s.kernel
  else
    match s.kernel.taskPinAddressSpace t (s.kernel.slot t).addressSpace target with
    | none => some s.kernel
    | some k => if target ≠ c then (k.schedulerRequest target).taskNext w c picks else some k

/-- `task_pin_current` with the sleeps of the release -/
def pinCurrentStepwise (w : World) (c t target : ℕ) (picks : Kernel.Picks) : Resumption Kernel Kernel :=
  if target ≥ s.kernel.cpuTotal ∨ !w.online target then .done s.kernel
  else
    match s.kernel.taskPinAddressSpace t (s.kernel.slot t).addressSpace target with
    | none => .done s.kernel
    | some k => if target ≠ c then Stepwise.taskNext w c (k.schedulerRequest target) picks else .done k

/-- A pass of `task_wait` that waits. -/
def waits (w : World) (c t : ℕ) (call : Kernel.WaitCall) (picks : Kernel.Picks) :
    Option (SchedState × ℕ × Resumption Kernel Kernel) :=
  (Stepwise.taskWaitPass w c t s.kernel call picks).map fun p =>
    ({ s with call := Function.update s.call t (some call) }, t, p)

/-- What an event that ends tasks does, with its sleeps: the task that executes it, and the function. -/
def program : SchedEvent → Option (SchedState × ℕ × Resumption Kernel Kernel)
  | .next w c picks => (s.kernel.cpu c).current.map fun t => (s, t, Stepwise.taskNext w c s.kernel picks)
  | .block w c state reason picks =>
    if state = .waiting ∨ state = .sleeping then
      (s.executing c).map fun t => (s, t, Stepwise.taskFallBlockedReason w c t s.kernel state reason picks)
    else none
  | .pin w c target picks => (s.caller c).map fun t => (s, t, s.pinCurrentStepwise w c t target picks)
  | .kill w c tid picks => (s.caller c).map fun t => (s, t, Stepwise.taskKill w c s.kernel tid picks)
  | .exit w c status picks => (s.caller c).map fun t => (s, t, Stepwise.taskExit w c t s.kernel status picks)
  | .exitProcess w w' c status picks =>
    (s.caller c).map fun t => (s, t, Stepwise.taskExitProcess w c t s.kernel w' status picks)
  | .wait w c tid generation thread picks =>
    (s.caller c).bind fun t =>
      (s.kernel.taskWaitStart t tid generation thread).bind fun call => s.waits w c t call picks
  | .waitAgain w c picks =>
    (s.executing c).bind fun t => (s.call t).bind fun call => s.waits w c t call picks
  | .terminateThread w c tid generation picks =>
    (s.caller c).map fun t => (s, t, Stepwise.taskTerminateThread w c t s.kernel tid generation picks)
  | .waitThreads w c picks => (s.caller c).map fun t => (s, t, Stepwise.taskWaitThreads w c t s.kernel picks)
  | _ => none

def step (config : Config) : SchedEvent → Option SchedState
  | .grow memory => (s.kernel.taskRegistryGrow memory).map s.withKernel
  | .create c weight share grow memory =>
    if s.active then
      (s.caller c).map fun t =>
        s.withNew (s.kernel.createTaskImpl c config.kernelSpace config.sharedSmp (some t) weight share grow memory)
    else some (s.withNew (s.kernel.createTaskImpl c config.kernelSpace config.sharedSmp none weight share grow memory))
  | .setup t cpu idle pinned joinable =>
    if (s.kernel.slot t).state = .allocating then
      let k := s.kernel.setSlot t ({ · with cpu := cpu, idle := idle, pinned := pinned, joinable := joinable })
      some (s.withKernel (if idle then k.setCpu cpu ({ · with idle := some t }) else k))
    else none
  | .publish w t => some (s.withKernel (s.kernel.taskPublish w.online t).1)
  | .abort t => some (s.withKernel (s.kernel.taskAbortCreation t))
  | .fork w c grow memory => (s.caller c).map fun t => s.withNew (s.kernel.taskFork w.online t grow memory)
  | .start c t =>
    if (s.kernel.cpu c).current = none ∧ (s.kernel.slot t).state = .running ∧ (s.kernel.slot t).cpu = c then
      some { s with
        active := true
        kernel := (s.kernel.setSlot t ({ · with onCpu := true })).setCpu c ({ · with current := some t }) }
    else none
  | .setWeight t weight => some (s.withKernel (s.kernel.taskSetWeight t weight))
  | .run w t => some (s.withKernel (s.kernel.taskRun w.online t))
  | .sleep t =>
    if (s.kernel.getTask t).isSome ∧ (s.kernel.slot t).state ≠ .died then
      some (s.withKernel ((s.kernel.taskSetState t .sleeping).setSlot t ({ · with waitReason := .other })))
    else none
  | .runNow t => some (s.withKernel (s.kernel.mtaskRunNow t))
  | .tick w c balance => some (s.withKernel (s.kernel.schedulerTick c w.online balance))
  | .next w c picks => (s.kernel.taskNext w c picks).map s.withKernel
  | .block w c state reason picks =>
    if state = .waiting ∨ state = .sleeping then
      (s.executing c).bind fun t => (s.kernel.taskFallBlockedReason w c t state reason picks).map s.withKernel
    else none
  | .pin w c target picks => s.calls c fun t => s.pinCurrent w c t target picks
  | .kill w c tid picks => s.calls c fun _ => s.kernel.taskKill w c tid picks
  | .exit w c status picks => s.calls c fun t => s.kernel.taskExit w c t status picks
  | .exitProcess w w' c status picks => s.calls c fun t => s.kernel.taskExitProcess w c t w' status picks
  | .wait w c tid generation thread picks =>
    (s.caller c).bind fun t =>
      match s.kernel.taskWaitStart t tid generation thread with
      | none => some s
      | some call => s.waitPass w c t call picks
  | .waitAgain w c picks =>
    (s.executing c).bind fun t => (s.call t).bind fun call => s.waitPass w c t call picks
  | .detach c tid generation => s.calls c fun t => some (s.kernel.taskDetachThread t tid generation)
  | .terminateThread w c tid generation picks =>
    s.calls c fun t => s.kernel.taskTerminateThread w c t tid generation picks
  | .waitThreads w c picks => s.calls c fun t => s.kernel.taskWaitThreads w c t picks
  | .sleeps e n =>
    (s.program e).bind fun (s, t, p) =>
      (p.stopAt n).map fun (k, rest) =>
        { s with kernel := k, rests := Function.update s.rests t (rest :: s.rests t) }
  | .resumes c n =>
    (s.kernel.cpu c).current.bind fun t =>
      match s.rests t, n with
      | [], _ => none
      | rest :: rests, none =>
        (rest s.kernel).atOnce.map fun k => { s with kernel := k, rests := Function.update s.rests t rests }
      | rest :: rests, some n =>
        ((rest s.kernel).stopAt n).map fun (k, rest) =>
          { s with kernel := k, rests := Function.update s.rests t (rest :: rests) }

/-- `init_task` and the start of `into_mtask`: no slots, and CPUs without tasks. -/
structure Init (s : SchedState) : Prop where
  slotCount : s.kernel.slotCount = 0
  freeHint : s.kernel.freeHint = 0
  slot : ∀ t, s.kernel.slot t = taskSlotReset t 0
  cpu : ∀ c, s.kernel.cpu c = ⟨none, none, none, none, 0, 0, false⟩
  retired : s.kernel.retired = none
  active : s.active = false
  rests : ∀ t, s.rests t = []
  call : ∀ t, s.call t = none

end SchedState

def schedSystem (config : Config) : Lib.System SchedState SchedEvent := ⟨SchedState.Init, fun s => s.step config⟩

/-! ## The lists of runnable tasks are what the states of the tasks say -/

open Lib
open Function (comp_update update update_eq_self update_of_ne update_self)

def Mtask.bare (task : Mtask) : Mtask := { task with runNext := none, runPrevious := none }

namespace Kernel

def links (k : Kernel) : HeadedList.Links ℕ ℕ where
  head := fun c => (k.cpu c).runnable
  next := fun t => (k.slot t).runNext
  prev := fun t => (k.slot t).runPrevious

/-- The lists are `lists`; the tasks `out` are taken out for a while, and `r` is the slot that waits to be released. -/
structure Queued (k : Kernel) (lists : ℕ → List ℕ) (out : Set ℕ) (r : Option ℕ) : Prop where
  isLists : HeadedList.IsLists k.links lists
  member : ∀ c t, t ∈ lists c ↔ (k.slot t).state = .running ∧ (k.slot t).idle = false ∧ (k.slot t).cpu = c ∧ t ∉ out
  load : ∀ c, (k.cpu c).load = ((lists c).map fun t => (k.slot t).share).sum
  movable : ∀ c, (k.cpu c).movable = ((lists c).countP fun t => !(k.slot t).pinned : ℕ)
  beyond : ∀ t, k.slotCount ≤ t → (k.slot t).state = .empty
  retired : k.retired = r ∧ ∀ t, r = some t → (k.slot t).state = .ready ∧ (k.slot t).runNext = none
  bounded : ∀ c t, (k.cpu c).current = some t ∨ (k.cpu c).idle = some t → t < k.slotCount

/-- The lists are in order but for the tasks `out`. -/
def InOrder (k : Kernel) (out : Set ℕ) (r : Option ℕ) : Prop := ∃ lists, k.Queued lists out r

/-! ### Writes -/

variable {k k' : Kernel} {lists : ℕ → List ℕ} {out : Set ℕ} {r : Option ℕ} {t u c : ℕ}
variable {f : Mtask → Mtask} {g : SchedulerCpu → SchedulerCpu}

namespace Queued

lemma notMem_of_out (h : k.Queued lists out r) (ht : t ∈ out) (c : ℕ) : t ∉ lists c := fun hmem =>
  ((h.member c t).mp hmem).2.2.2 ht

lemma notMem_of_state (h : k.Queued lists out r) (ht : (k.slot t).state ≠ .running) (c : ℕ) : t ∉ lists c := fun hmem =>
  ht ((h.member c t).mp hmem).1

lemma lt (h : k.Queued lists out r) (ht : (k.slot t).state ≠ .empty) : t < k.slotCount := by
  by_contra hle
  exact ht (h.beyond t (by omega))

lemma ne_retired (h : k.Queued lists out r) (ht : (k.slot t).state ≠ .ready) : r ≠ some t := fun hr =>
  ht (h.retired.2 t hr).1

lemma relabel (h : k.Queued lists out r) (hcpu : ∀ c, (k'.cpu c).runnable = (k.cpu c).runnable ∧
      (k'.cpu c).current = (k.cpu c).current ∧ (k'.cpu c).idle = (k.cpu c).idle)
    (hslot : ∀ t, (k'.slot t).runNext = (k.slot t).runNext ∧ (k'.slot t).runPrevious = (k.slot t).runPrevious ∧
      (k'.slot t).state = (k.slot t).state ∧ (k'.slot t).idle = (k.slot t).idle ∧ (k'.slot t).cpu = (k.slot t).cpu)
    (hload : ∀ c, (k'.cpu c).load = ((lists c).map fun t => (k'.slot t).share).sum)
    (hmovb : ∀ c, (k'.cpu c).movable = ((lists c).countP fun t => !(k'.slot t).pinned : ℕ))
    (hcnt : k.slotCount ≤ k'.slotCount) (hretd : k'.retired = k.retired) : k'.Queued lists out r := by
  have hlks : k'.links = k.links := by
    unfold links
    congr 1
    · funext c
      exact (hcpu c).1
    · funext t
      exact (hslot t).1
    · funext t
      exact (hslot t).2.1
  refine ⟨hlks ▸ h.isLists, fun c t => ?_, hload, hmovb, fun t ht => ?_,
    ⟨hretd.trans h.retired.1, fun t ht => ?_⟩, fun c t ht => ?_⟩
  · rw [(hslot t).2.2.1, (hslot t).2.2.2.1, (hslot t).2.2.2.2]
    exact h.member c t
  · rw [(hslot t).2.2.1]
    exact h.beyond t (hcnt.trans ht)
  · rw [(hslot t).2.2.1, (hslot t).1]
    exact h.retired.2 t ht
  · rw [(hcpu c).2.1, (hcpu c).2.2] at ht
    exact (h.bounded c t ht).trans_le hcnt

lemma congr (h : k.Queued lists out r) (hcpu : ∀ c, (k'.cpu c).runnable = (k.cpu c).runnable ∧
      (k'.cpu c).load = (k.cpu c).load ∧ (k'.cpu c).movable = (k.cpu c).movable ∧
      (k'.cpu c).current = (k.cpu c).current ∧ (k'.cpu c).idle = (k.cpu c).idle)
    (hslot : ∀ t, (k'.slot t).runNext = (k.slot t).runNext ∧ (k'.slot t).runPrevious = (k.slot t).runPrevious ∧
      (k'.slot t).state = (k.slot t).state ∧ (k'.slot t).idle = (k.slot t).idle ∧ (k'.slot t).cpu = (k.slot t).cpu ∧
      (k'.slot t).weight = (k.slot t).weight ∧ (k'.slot t).pinned = (k.slot t).pinned)
    (hcnt : k.slotCount ≤ k'.slotCount) (hretd : k'.retired = k.retired) : k'.Queued lists out r := by
  have hshar : ∀ t, (k'.slot t).share = (k.slot t).share := by
    intro t
    unfold Mtask.share
    rw [(hslot t).2.2.2.2.2.1]
  refine h.relabel (fun c => ⟨(hcpu c).1, (hcpu c).2.2.2⟩) (fun t => ?_) (fun c => ?_) (fun c => ?_) hcnt hretd
  · obtain ⟨hnext, hprev, hst, hidle, hcpu', -, -⟩ := hslot t
    exact ⟨hnext, hprev, hst, hidle, hcpu'⟩
  · rw [(hcpu c).2.1, h.load]
    simp only [hshar]
  · rw [(hcpu c).2.2.1, h.movable]
    simp only [(hslot _).2.2.2.2.2.2]

lemma inert (h : k.Queued lists out r) (hf : ∀ task, (f task).runNext = task.runNext ∧
      (f task).runPrevious = task.runPrevious ∧ (f task).state = task.state ∧ (f task).idle = task.idle ∧
      (f task).cpu = task.cpu ∧ (f task).weight = task.weight ∧ (f task).pinned = task.pinned) :
    (k.setSlot t f).Queued lists out r := by
  refine h.congr (fun _ => ⟨rfl, rfl, rfl, rfl, rfl⟩) (fun u => ?_) le_rfl rfl
  by_cases hu : u = t
  · subst hu
    rw [setSlot_self]
    exact hf _
  · rw [setSlot_of_ne hu]
    exact ⟨rfl, rfl, rfl, rfl, rfl, rfl, rfl⟩

lemma writeCpu (h : k.Queued lists out r) (hg : (g (k.cpu c)).runnable = (k.cpu c).runnable ∧
      (g (k.cpu c)).load = (k.cpu c).load ∧ (g (k.cpu c)).movable = (k.cpu c).movable)
    (hbdd : ∀ t, (g (k.cpu c)).current = some t ∨ (g (k.cpu c)).idle = some t → t < k.slotCount) :
    (k.setCpu c g).Queued lists out r := by
  have hsame : ∀ e, ((k.setCpu c g).cpu e).runnable = (k.cpu e).runnable ∧
      ((k.setCpu c g).cpu e).load = (k.cpu e).load ∧ ((k.setCpu c g).cpu e).movable = (k.cpu e).movable := by
    intro e
    by_cases he : e = c
    · subst he
      rw [setCpu_self]
      exact hg
    · rw [setCpu_of_ne he]
      exact ⟨rfl, rfl, rfl⟩
  have hlks : (k.setCpu c g).links = k.links := by
    unfold links
    congr 1
    funext e
    exact (hsame e).1
  refine { h with isLists := hlks ▸ h.isLists, load := fun e => ?_, movable := fun e => ?_, bounded := fun e t ht => ?_ }
  · exact (hsame e).2.1.trans (h.load e)
  · exact (hsame e).2.2.trans (h.movable e)
  · by_cases he : e = c
    · subst he
      rw [setCpu_self] at ht
      exact hbdd t ht
    · rw [setCpu_of_ne he] at ht
      exact h.bounded e t ht

lemma inertCpu (h : k.Queued lists out r) (hg : ∀ cpu, (g cpu).runnable = cpu.runnable ∧ (g cpu).load = cpu.load ∧
      (g cpu).movable = cpu.movable ∧ (g cpu).current = cpu.current ∧ (g cpu).idle = cpu.idle) :
    (k.setCpu c g).Queued lists out r := by
  obtain ⟨hrunn, hload, hmovb, hcur, hidle⟩ := hg (k.cpu c)
  refine h.writeCpu ⟨hrunn, hload, hmovb⟩ fun t ht => ?_
  rw [hcur, hidle] at ht
  exact h.bounded c t ht

lemma rewrites (h : k.Queued lists out r) (hcpu : k'.cpu = k.cpu)
    (hlst : ∀ c, ∀ t ∈ lists c, k'.slot t = k.slot t)
    (hloos : ∀ t, (∀ c, t ∉ lists c) → (k'.slot t).runPrevious = none ∧
      ((k'.slot t).state = .running → (k'.slot t).idle = false → t ∈ out))
    (hbey : ∀ t, k'.slotCount ≤ t → (k'.slot t).state = .empty) (hcnt : k.slotCount ≤ k'.slotCount)
    (hretd : k'.retired = k.retired)
    (hr : ∀ t, r = some t → (k'.slot t).state = .ready ∧ (k'.slot t).runNext = none) : k'.Queued lists out r := by
  refine ⟨⟨fun c => ?_, fun t => ?_⟩, fun c t => ?_, fun c => ?_, fun c => ?_, hbey, ⟨hretd.trans h.retired.1, hr⟩,
    fun c t ht => ?_⟩
  · refine (h.isLists.isList c).congr ?_ (fun t ht => ?_) fun t ht => ?_
    · show (k'.cpu c).runnable = _
      rw [hcpu]
      rfl
    · show (k'.slot t).runNext = _
      rw [hlst c t ht]
      rfl
    · show (k'.slot t).runPrevious = _
      rw [hlst c t ht]
      rfl
  · show (k'.slot t).runPrevious.isSome ↔ _
    by_cases ht : ∃ c, t ∈ lists c
    · obtain ⟨c, hc⟩ := ht
      rw [hlst c t hc]
      exact h.isLists.linked t
    · rw [(hloos t (not_exists.mp ht)).1]
      exact ⟨nofun, fun h => absurd h ht⟩
  · by_cases ht : ∃ e, t ∈ lists e
    · obtain ⟨e, he⟩ := ht
      rw [hlst e t he]
      exact h.member c t
    · obtain ⟨-, hrun⟩ := hloos t (not_exists.mp ht)
      exact ⟨fun hmem => absurd ⟨c, hmem⟩ ht, fun ⟨hs, hi, _, hnot⟩ => absurd (hrun hs hi) hnot⟩
  · rw [hcpu, h.load]
    exact congrArg List.sum (List.map_congr_left fun t ht => by rw [hlst c t ht])
  · rw [hcpu, h.movable]
    congr 1
    exact List.countP_congr fun t ht => by rw [hlst c t ht]
  · rw [hcpu] at ht
    exact (h.bounded c t ht).trans_le hcnt

lemma write (h : k.Queued lists out r) (ht : ∀ c, t ∉ lists c) (hprev : (f (k.slot t)).runPrevious = none)
    (hout : (f (k.slot t)).state = .running → (f (k.slot t)).idle = false → t ∈ out)
    (hbey : t < k.slotCount ∨ (f (k.slot t)).state = .empty)
    (hr : r = some t → (f (k.slot t)).state = .ready ∧ (f (k.slot t)).runNext = none) :
    (k.setSlot t f).Queued lists out r := by
  refine h.rewrites rfl (fun c u hu => ?_) (fun u hu => ?_) (fun u hu => ?_) le_rfl rfl fun u hu => ?_
  · refine setSlot_of_ne ?_
    rintro rfl
    exact ht c hu
  all_goals by_cases hut : u = t
  · subst hut
    rw [setSlot_self]
    exact ⟨hprev, hout⟩
  · rw [setSlot_of_ne hut]
    exact ⟨h.isLists.prev_eq_none hu, fun hs hi => by_contra fun hnot => hu _ ((h.member _ u).mpr ⟨hs, hi, rfl, hnot⟩)⟩
  · subst hut
    rw [setSlot_self]
    exact hbey.resolve_left (by simpa using hu)
  · rw [setSlot_of_ne hut]
    exact h.beyond u hu
  · subst hut
    rw [setSlot_self]
    exact hr hu
  · rw [setSlot_of_ne hut]
    exact h.retired.2 u hu

lemma widen (h : k.Queued lists out r) (ht : ∀ c, t ∉ lists c) : k.Queued lists (insert t out) r := by
  refine { h with member := fun c u => ?_ }
  by_cases hu : u = t
  · subst hu
    exact ⟨fun hmem => absurd hmem (ht c), fun hall => absurd (Set.mem_insert u out) hall.2.2.2⟩
  · rw [h.member, Set.mem_insert_iff, or_iff_right hu]

lemma narrow (h : k.Queued lists (insert t out) r)
    (ht : (k.slot t).state ≠ .running ∨ (k.slot t).idle = true) : k.Queued lists out r := by
  refine { h with member := fun c u => ?_ }
  by_cases hu : u = t
  · subst hu
    refine ⟨fun hmem => absurd (Set.mem_insert u out) ((h.member c u).mp hmem).2.2.2, fun ⟨hs, hi, _⟩ => ?_⟩
    rcases ht with ht | ht
    · exact absurd hs ht
    · rw [hi] at ht
      cases ht
  · rw [h.member, Set.mem_insert_iff, or_iff_right hu]

end Queued

/-! ### Linking -/

lemma links_setLink (link : Link) (value : Option ℕ) :
    (k.setLink link value).links = HeadedList.setCell k.links link value := by
  cases link with
  | inl c =>
    simp only [links, setLink_inl, HeadedList.setCell, setCpu_slot]
    congr 1
    exact comp_update SchedulerCpu.runnable k.cpu c _
  | inr p =>
    simp only [links, setLink_inr, HeadedList.setCell, setSlot_cpu]
    congr 1
    · exact comp_update Mtask.runNext k.slot p _
    · exact (comp_update Mtask.runPrevious k.slot p _).trans (update_eq_self p _)

lemma links_setPrevious (next : Option ℕ) (link : Option Link) :
    (k.setPrevious next link).links = HeadedList.setPrev k.links next link := by
  cases next with
  | none => rfl
  | some n =>
    simp only [links, setPrevious_some, HeadedList.setPrev, setSlot_cpu]
    congr 1
    · exact (comp_update Mtask.runNext k.slot n _).trans (update_eq_self n _)
    · exact comp_update Mtask.runPrevious k.slot n _

lemma links_setCpu (hg : (g (k.cpu c)).runnable = (k.cpu c).runnable) : (k.setCpu c g).links = k.links := by
  simp only [links, setCpu_slot]
  congr 1
  exact (comp_update SchedulerCpu.runnable k.cpu c _).trans
    ((congrArg _ hg).trans (update_eq_self c (SchedulerCpu.runnable ∘ k.cpu)))

lemma setLink_bare (link : Link) (value : Option ℕ) (u : ℕ) :
    ((k.setLink link value).slot u).bare = (k.slot u).bare := by
  cases link with
  | inl c => rfl
  | inr p =>
    by_cases hu : u = p
    · subst hu
      simp [Mtask.bare]
    · simp [hu]

lemma setPrevious_bare (next : Option ℕ) (link : Option Link) (u : ℕ) :
    ((k.setPrevious next link).slot u).bare = (k.slot u).bare := by
  cases next with
  | none => rfl
  | some n =>
    by_cases hu : u = n
    · subst hu
      simp [Mtask.bare]
    · simp [hu]

lemma setLink_cpu (link : Link) (value : Option ℕ) (e : ℕ) : (k.setLink link value).cpu e =
    { k.cpu e with runnable := ((k.setLink link value).cpu e).runnable } := by
  cases link with
  | inl c =>
    by_cases he : e = c
    · subst he
      simp
    · simp [he]
  | inr p => rfl

@[simp] lemma setPrevious_cpu (next : Option ℕ) (link : Option Link) : (k.setPrevious next link).cpu = k.cpu := by
  cases next <;> rfl

lemma bare_eq {task task' : Mtask} (h : task'.bare = task.bare) : task'.state = task.state ∧ task'.idle = task.idle ∧
    task'.cpu = task.cpu ∧ task'.weight = task.weight ∧ task'.pinned = task.pinned := by
  have hall := h
  simp only [Mtask.bare, Mtask.mk.injEq] at hall
  tauto

@[simp] lemma setPrevious_slotCount (next : Option ℕ) (link : Option Link) :
    (k.setPrevious next link).slotCount = k.slotCount := by
  cases next <;> rfl

@[simp] lemma setPrevious_retired (next : Option ℕ) (link : Option Link) :
    (k.setPrevious next link).retired = k.retired := by
  cases next <;> rfl

@[simp] lemma setLink_slotCount (link : Link) (value : Option ℕ) : (k.setLink link value).slotCount = k.slotCount := by
  cases link <;> rfl

@[simp] lemma setLink_retired (link : Link) (value : Option ℕ) : (k.setLink link value).retired = k.retired := by
  cases link <;> rfl

lemma links_clear (t : ℕ) : (k.setSlot t ({ · with runPrevious := none, runNext := none })).links =
    { k.links with next := update k.links.next t none, prev := update k.links.prev t none } := by
  simp only [links, setSlot_cpu]
  congr 1
  · exact comp_update Mtask.runNext k.slot t _
  · exact comp_update Mtask.runPrevious k.slot t _

lemma schedulerRemove_spec {link : Link} (hlink : (k.slot t).runPrevious = some link) :
    (k.schedulerRemove t).links = HeadedList.unlink k.links t ∧
      (∀ u, ((k.schedulerRemove t).slot u).bare = (k.slot u).bare) ∧
      (∀ c, (k.schedulerRemove t).cpu c = { k.cpu c with
        runnable := ((k.schedulerRemove t).cpu c).runnable
        load := (k.cpu c).load - if c = (k.slot t).cpu then (k.slot t).share else 0
        movable := (k.cpu c).movable - if c = (k.slot t).cpu ∧ (k.slot t).pinned = false then 1 else 0 }) ∧
      (k.schedulerRemove t).slotCount = k.slotCount ∧ (k.schedulerRemove t).retired = k.retired := by
  unfold schedulerRemove
  rw [hlink]
  dsimp only
  set k₁ := k.setLink link (k.slot t).runNext with hk₁
  set k₂ := k₁.setPrevious (k₁.slot t).runNext (k₁.slot t).runPrevious with hk₂
  have hbare : ∀ u, (k₂.slot u).bare = (k.slot u).bare := fun u =>
    (setPrevious_bare _ _ u).trans (setLink_bare link _ u)
  obtain ⟨-, -, hcpu, hweig, hpin⟩ := bare_eq (hbare t)
  have hshar : (k₂.slot t).share = (k.slot t).share := by
    unfold Mtask.share
    rw [hweig]
  refine ⟨?_, fun u => ?_, fun c => ?_, ?_, ?_⟩
  · rw [links_clear, links_setCpu rfl, links_setPrevious, links_setLink]
    have hnext : (k₁.slot t).runNext = (HeadedList.setCell k.links link (k.slot t).runNext).next t := by
      rw [← links_setLink]
      rfl
    have hprev : (k₁.slot t).runPrevious = (HeadedList.setCell k.links link (k.slot t).runNext).prev t := by
      rw [← links_setLink]
      rfl
    unfold HeadedList.unlink
    rw [hnext, hprev, show k.links.prev t = some link from hlink]
    rfl
  · by_cases hu : u = t
    · subst hu
      rw [setSlot_self, ← hbare u]
      rfl
    · rw [setSlot_of_ne hu]
      exact hbare u
  · have hcpus : k₂.cpu c = { k.cpu c with runnable := (k₂.cpu c).runnable } := by
      rw [hk₂, setPrevious_cpu]
      exact setLink_cpu link _ c
    rw [setSlot_cpu, hcpu, hshar, hpin]
    by_cases hc : c = (k.slot t).cpu
    · rw [← hc, setCpu_self, hcpus]
      cases (k.slot t).pinned <;> simp
    · rw [setCpu_of_ne hc, hcpus]
      simp [hc]
  · rw [setSlot_slotCount, setCpu_slotCount, hk₂, setPrevious_slotCount, hk₁, setLink_slotCount]
  · rw [setSlot_retired, setCpu_retired, hk₂, setPrevious_retired, hk₁, setLink_retired]

/-- What `scheduler_insert` does to a task that belongs into a list and is in none. -/
lemma schedulerInsert_spec (hst : (k.slot t).state = .running) (hidle : (k.slot t).idle = false)
    (hfree : (k.slot t).runPrevious = none) :
    (k.schedulerInsert t).links = HeadedList.pushFront k.links (k.slot t).cpu t ∧
      (∀ u, ((k.schedulerInsert t).slot u).bare = (k.slot u).bare) ∧
      (∀ c, (k.schedulerInsert t).cpu c = { k.cpu c with
        runnable := ((k.schedulerInsert t).cpu c).runnable
        load := (k.cpu c).load + if c = (k.slot t).cpu then (k.slot t).share else 0
        movable := (k.cpu c).movable + if c = (k.slot t).cpu ∧ (k.slot t).pinned = false then 1 else 0 }) ∧
      (k.schedulerInsert t).slotCount = k.slotCount ∧ (k.schedulerInsert t).retired = k.retired := by
  unfold schedulerInsert
  dsimp only
  rw [if_neg (by simp [hst, hidle, hfree])]
  set k₁ := k.setSlot t ({ · with runNext := (k.cpu (k.slot t).cpu).runnable, runPrevious := some (.inl (k.slot t).cpu) })
    with hk₁
  set k₂ := k₁.setPrevious (k₁.slot t).runNext (some (.inr t)) with hk₂
  have hlks₁ : k₁.links = { k.links with
      next := update k.links.next t (k.links.head (k.slot t).cpu)
      prev := update k.links.prev t (some (.inl (k.slot t).cpu)) } := by
    simp only [hk₁, links, setSlot_cpu]
    congr 1
    · exact comp_update Mtask.runNext k.slot t _
    · exact comp_update Mtask.runPrevious k.slot t _
  have hbare₁ : ∀ u, (k₁.slot u).bare = (k.slot u).bare := by
    intro u
    by_cases hu : u = t
    · subst hu
      rw [hk₁, setSlot_self]
      rfl
    · rw [hk₁, setSlot_of_ne hu]
  have hcpus : k₂.cpu = k.cpu := by rw [hk₂, setPrevious_cpu, hk₁, setSlot_cpu]
  refine ⟨?_, fun u => ?_, fun c => ?_, ?_, ?_⟩
  · have hlks₂ : k₂.links = HeadedList.setPrev k₁.links (k₁.links.next t) (some (.inr t)) := links_setPrevious _ _
    unfold HeadedList.pushFront
    rw [← hlks₁]
    dsimp only
    rw [← hlks₂]
    simp only [links, setCpu_slot]
    congr 1
    exact comp_update SchedulerCpu.runnable k₂.cpu _ _
  · exact (setPrevious_bare _ _ u).trans (hbare₁ u)
  · by_cases hc : c = (k.slot t).cpu
    · rw [← hc, setCpu_self, hcpus]
      cases (k.slot t).pinned <;> simp
    · rw [setCpu_of_ne hc, hcpus]
      simp [hc]
  · rw [setCpu_slotCount, hk₂, setPrevious_slotCount, hk₁, setSlot_slotCount]
  · rw [setCpu_retired, hk₂, setPrevious_retired, hk₁, setSlot_retired]

/-! ### `scheduler_remove` and `scheduler_insert` -/

namespace Queued

lemma schedulerRemove (h : k.Queued lists out r) (t : ℕ) :
    ∃ lists', (k.schedulerRemove t).Queued lists' (insert t out) r ∧ ∀ c, t ∉ lists' c := by
  cases hlink : (k.slot t).runPrevious with
  | none =>
    have hloos : ∀ c, t ∉ lists c := fun c hmem => by
      have hsome := (h.isLists.linked t).mpr ⟨c, hmem⟩
      rw [show k.links.prev t = none from hlink] at hsome
      cases hsome
    have hsame : k.schedulerRemove t = k := by
      unfold Kernel.schedulerRemove
      rw [hlink]
    rw [hsame]
    exact ⟨lists, h.widen hloos, hloos⟩
  | some link =>
    obtain ⟨c, hmem⟩ := (h.isLists.linked t).mp (by rw [show k.links.prev t = some link from hlink]; rfl)
    obtain ⟨hlks, hbare, hcpus, hcnt, hretd⟩ := schedulerRemove_spec hlink
    obtain ⟨hst, hidle, hcpu, hout⟩ := (h.member c t).mp hmem
    have hshar : ∀ u, ((k.schedulerRemove t).slot u).share = (k.slot u).share := fun u => by
      unfold Mtask.share
      rw [(bare_eq (hbare u)).2.2.2.1]
    have hnd := (h.isLists.isList c).nodup
    have hperm := List.perm_cons_erase hmem
    have hgone : ∀ e, t ∉ update lists c ((lists c).erase t) e := by
      intro e hmem'
      by_cases he : e = c
      · subst he
        rw [update_self] at hmem'
        exact hnd.not_mem_erase hmem'
      · rw [update_of_ne he] at hmem'
        exact he (h.isLists.unique hmem' hmem)
    refine ⟨update lists c ((lists c).erase t), ⟨?_, fun e u => ?_, fun e => ?_, fun e => ?_, fun u hu => ?_,
      ⟨hretd.trans h.retired.1, fun u hu => ?_⟩, fun e u hu => ?_⟩, hgone⟩
    · rw [hlks]
      exact h.isLists.unlink hmem
    · obtain ⟨hs, hi, hc, -⟩ := bare_eq (hbare u)
      rw [hs, hi, hc, Set.mem_insert_iff, not_or]
      by_cases hut : u = t
      · exact ⟨fun hmem' => absurd (hut ▸ hmem') (hgone e), fun hall => absurd hut hall.2.2.2.1⟩
      · rw [and_iff_right hut, ← h.member]
        by_cases he : e = c
        · subst he
          rw [update_self, List.mem_erase_of_ne hut]
        · rw [update_of_ne he]
    · have hload := congrArg SchedulerCpu.load (hcpus e)
      dsimp only at hload
      rw [hload, hcpu, h.load]
      simp only [hshar]
      by_cases he : e = c
      · subst he
        have hsum := (hperm.map fun u => (k.slot u).share).sum_eq
        rw [List.map_cons, List.sum_cons] at hsum
        rw [update_self, if_pos rfl, hsum]
        omega
      · rw [update_of_ne he, if_neg he, sub_zero]
    · have hmovb := congrArg SchedulerCpu.movable (hcpus e)
      dsimp only at hmovb
      rw [hmovb, hcpu, h.movable]
      simp only [(bare_eq (hbare _)).2.2.2.2]
      by_cases he : e = c
      · subst he
        have hcountP := hperm.countP_eq fun u => !(k.slot u).pinned
        rw [List.countP_cons] at hcountP
        rw [update_self, hcountP]
        cases hpin : (k.slot t).pinned <;> simp
      · rw [update_of_ne he, if_neg (fun hand => he hand.1), sub_zero]
    · rw [(bare_eq (hbare u)).1]
      exact h.beyond u (hcnt ▸ hu)
    · obtain ⟨hrdy, hnext⟩ := h.retired.2 u hu
      have hut : u ≠ t := by
        rintro rfl
        rw [hrdy] at hst
        cases hst
      refine ⟨(bare_eq (hbare u)).1.trans hrdy, ?_⟩
      show (k.schedulerRemove t).links.next u = none
      rw [hlks, HeadedList.unlink_next hlink, if_neg hut, if_neg]
      · exact hnext
      · -- what points to `t` is not a slot that is ready
        rintro rfl
        obtain ⟨a, b, hab⟩ := List.append_of_mem hmem
        have hcell := (h.isLists.isList c).prev a t b hab
        rw [show k.links.prev t = some (.inr u) from hlink, Option.some.injEq] at hcell
        have hu' : u ∈ lists c := by
          rw [hab]
          exact List.mem_append_left _ (List.mem_of_getLast? (HeadedList.cell_eq_inr.mp hcell.symm))
        have hrun := ((h.member c u).mp hu').1
        rw [hrdy] at hrun
        cases hrun
    · have hcur := congrArg SchedulerCpu.current (hcpus e)
      have hidle' := congrArg SchedulerCpu.idle (hcpus e)
      dsimp only at hcur hidle'
      rw [hcur, hidle'] at hu
      exact (h.bounded e u hu).trans_eq hcnt.symm

/-- **`scheduler_insert` puts the task into the list of its CPU.** -/
lemma schedulerInsert (h : k.Queued lists (insert t out) r) (hout : t ∉ out) :
    ∃ lists', (k.schedulerInsert t).Queued lists' out r := by
  have hloos : ∀ c, t ∉ lists c := h.notMem_of_out (Set.mem_insert t out)
  have hfree : (k.slot t).runPrevious = none := h.isLists.prev_eq_none hloos
  by_cases hsty : (k.slot t).state ≠ .running ∨ (k.slot t).idle = true
  · have hsame : k.schedulerInsert t = k := by
      unfold Kernel.schedulerInsert
      rw [if_pos (by tauto)]
    rw [hsame]
    exact ⟨lists, h.narrow hsty⟩
  rw [not_or, not_not, Bool.not_eq_true] at hsty
  obtain ⟨hst, hidle⟩ := hsty
  obtain ⟨hlks, hbare, hcpus, hcnt, hretd⟩ := schedulerInsert_spec hst hidle hfree
  have hshar : ∀ u, ((k.schedulerInsert t).slot u).share = (k.slot u).share := fun u => by
    unfold Mtask.share
    rw [(bare_eq (hbare u)).2.2.2.1]
  set c := (k.slot t).cpu with hc
  refine ⟨update lists c (t :: lists c), ?_, fun e u => ?_, fun e => ?_, fun e => ?_, fun u hu => ?_,
    ⟨hretd.trans h.retired.1, fun u hu => ?_⟩, fun e u hu => ?_⟩
  · rw [hlks]
    exact h.isLists.pushFront hfree c
  · obtain ⟨hs, hi, hcpu, -⟩ := bare_eq (hbare u)
    rw [hs, hi, hcpu]
    by_cases hut : u = t
    · subst hut
      by_cases he : e = c
      · subst he
        rw [update_self]
        exact ⟨fun _ => ⟨hst, hidle, rfl, hout⟩, fun _ => List.mem_cons_self ..⟩
      · rw [update_of_ne he]
        exact ⟨fun hmem => absurd hmem (hloos e), fun hall => absurd hall.2.2.1.symm he⟩
    · have hmemb := h.member e u
      rw [Set.mem_insert_iff, or_iff_right hut] at hmemb
      rw [← hmemb]
      by_cases he : e = c
      · subst he
        rw [update_self, List.mem_cons, or_iff_right hut]
      · rw [update_of_ne he]
  · have hload := congrArg SchedulerCpu.load (hcpus e)
    dsimp only at hload
    rw [hload, h.load]
    simp only [hshar]
    by_cases he : e = c
    · subst he
      rw [update_self, if_pos rfl, List.map_cons, List.sum_cons, add_comm]
    · rw [update_of_ne he, if_neg he, add_zero]
  · have hmovb := congrArg SchedulerCpu.movable (hcpus e)
    dsimp only at hmovb
    rw [hmovb, h.movable]
    simp only [(bare_eq (hbare _)).2.2.2.2]
    by_cases he : e = c
    · subst he
      rw [update_self, List.countP_cons]
      cases (k.slot t).pinned <;> simp
    · rw [update_of_ne he, if_neg (fun hand => he hand.1), add_zero]
  · rw [(bare_eq (hbare u)).1]
    exact h.beyond u (hcnt ▸ hu)
  · obtain ⟨hrdy, hnext⟩ := h.retired.2 u hu
    have hut : u ≠ t := by
      rintro rfl
      rw [hrdy] at hst
      cases hst
    refine ⟨(bare_eq (hbare u)).1.trans hrdy, ?_⟩
    show (k.schedulerInsert t).links.next u = none
    rw [hlks, HeadedList.pushFront_next, if_neg hut]
    exact hnext
  · have hcur := congrArg SchedulerCpu.current (hcpus e)
    have hidle' := congrArg SchedulerCpu.idle (hcpus e)
    dsimp only at hcur hidle'
    rw [hcur, hidle'] at hu
    exact (h.bounded e u hu).trans_eq hcnt.symm

/-- **`task_set_weight`** adjusts the load of the list that the task is in. -/
lemma taskSetWeight (h : k.Queued lists out r) (t weight : ℕ) : (k.taskSetWeight t weight).Queued lists out r := by
  unfold Kernel.taskSetWeight
  dsimp only
  split
  · exact h
  set k₁ := if (k.slot t).runPrevious.isSome then k.setCpu (k.slot t).cpu fun cpu =>
      { cpu with load := cpu.load - (k.slot t).share + if weight = 0 then 1 else weight } else k with hk₁
  have hslot : k₁.slot = k.slot := by
    rw [hk₁]
    split <;> rfl
  have hsl : ∀ u, (k₁.setSlot t ({ · with weight := weight })).slot u =
      { k.slot u with weight := if u = t then weight else (k.slot u).weight } := by
    intro u
    rw [setSlot_apply, hslot]
    split <;> simp [*]
  have hoth : ∀ {c}, t ∉ lists c → ((lists c).map fun u =>
      ((k₁.setSlot t ({ · with weight := weight })).slot u).share).sum = (k.cpu c).load := by
    intro c hc
    rw [h.load]
    refine congrArg List.sum (List.map_congr_left fun u hu => ?_)
    have hut : u ≠ t := fun hut => hc (hut ▸ hu)
    rw [hsl, if_neg hut]
  have hlnk : (k.slot t).runPrevious.isSome ↔ ∃ c, t ∈ lists c := h.isLists.linked t
  refine h.relabel (fun c => ?_) (fun u => ?_) (fun c => ?_) (fun c => ?_) ?_ ?_
  · rw [setSlot_cpu, hk₁]
    split
    · rw [setCpu_apply]
      split <;> simp [*]
    · exact ⟨rfl, rfl, rfl⟩
  · rw [hsl]
    exact ⟨rfl, rfl, rfl, rfl, rfl⟩
  · rw [setSlot_cpu]
    by_cases hmem : t ∈ lists c
    · have hcpu : (k.slot t).cpu = c := ((h.member c t).mp hmem).2.2.1
      have hperm := List.perm_cons_erase hmem
      have hsum := (hperm.map fun u => (k.slot u).share).sum_eq
      have hsum' := (hperm.map fun u => ((k₁.setSlot t ({ · with weight := weight })).slot u).share).sum_eq
      rw [List.map_cons, List.sum_cons] at hsum hsum'
      have hrest : ((lists c).erase t).map (fun u => ((k₁.setSlot t ({ · with weight := weight })).slot u).share) =
          ((lists c).erase t).map fun u => (k.slot u).share := by
        refine List.map_congr_left fun u hu => ?_
        have hut : u ≠ t := fun hut => (h.isLists.isList c).nodup.not_mem_erase (hut ▸ hu)
        rw [hsl, if_neg hut]
      have hnew : ((k₁.setSlot t ({ · with weight := weight })).slot t).share =
          ((if weight = 0 then 1 else weight : ℕ) : ℤ) := by
        rw [hsl, if_pos rfl]
        show (if weight = 0 then (1 : ℤ) else weight) = _
        split <;> rfl
      have hload := h.load c
      rw [hsum', hrest, hnew, hk₁, if_pos (hlnk.mpr ⟨c, hmem⟩), hcpu, setCpu_self]
      dsimp only
      omega
    · rw [hoth hmem, hk₁]
      split
      · rename_i hsome
        obtain ⟨e, he⟩ := hlnk.mp hsome
        rw [setCpu_of_ne]
        rintro rfl
        exact hmem (((h.member e t).mp he).2.2.1 ▸ he)
      · rfl
  · rw [setSlot_cpu]
    simp only [hsl]
    rw [← h.movable, hk₁]
    split
    · rw [setCpu_apply]
      split <;> simp [*]
    · rfl
  · rw [setSlot_slotCount, hk₁]
    split <;> exact le_rfl
  · rw [setSlot_retired, hk₁]
    split <;> rfl

end Queued

end Kernel

end PlantOS.Sched
