import Mathlib.Algebra.Order.Ring.Int
import PlantOS.Lib.Run
import PlantOS.Task.Lock

/-!
# The scheduler and the task registry

`mtask`, `scheduler_cpu_t` and `task_registry_t` of `mtask.c`, as far as the membership in the lists of
runnable tasks, the life cycle of a slot and its identity depend on them. A pointer to an `mtask` is the
index of its slot. Which of several tasks a CPU takes next depends on clocks that are not modelled.
-/

namespace PlantOS.Sched

open PlantOS.Task (STATE TaskKind taskIdNone)

/-- `enum WAIT_REASON`: `other` are the waits whose reason the modelled code does not look at. -/
inductive WaitReason
  | none | child | other
  deriving DecidableEq, Repr

/-- What `run_previous` points to: the head of the list of a CPU, or the `run_next` of a task. -/
abbrev Link := ℕ ⊕ ℕ

structure Mtask where
  tid : ℕ
  ptid : ℕ
  tgid : ℕ
  generation : ℕ
  kind : TaskKind
  state : STATE
  joinable : Bool
  /-- 0 if there is none -/
  addressSpace : ℕ
  /-- the kernel stack -/
  top : Option ℕ
  weight : ℕ
  runNext : Option ℕ
  runPrevious : Option Link
  cpu : ℕ
  onCpu : Bool
  /-- the flags `TASK_SCHED_IDLE` and `TASK_SCHED_PINNED` -/
  idle : Bool
  pinned : Bool
  urgent : Bool
  ready : Bool
  waitReason : WaitReason
  waittid : ℕ
  waitGeneration : ℕ
  status : ℕ
  terminateStatus : ℕ
  terminatePending : Bool
  deriving DecidableEq, Repr

/-- `scheduler_cpu_t` -/
structure SchedulerCpu where
  current : Option ℕ
  idle : Option ℕ
  next : Option ℕ
  runnable : Option ℕ
  load : ℤ
  movable : ℤ
  needResched : Bool
  deriving DecidableEq, Repr

/-- `task_registry`, `scheduler_cpus` and the list of retired tasks. -/
structure Kernel where
  slotCount : ℕ
  freeHint : ℕ
  chunkCount : ℕ
  chunkCapacity : ℕ
  slot : ℕ → Mtask
  cpu : ℕ → SchedulerCpu
  cpuTotal : ℕ
  retired : Option ℕ

def taskSlotInUse (task : Mtask) : Bool :=
  task.state != .empty && task.state != .willEmpty && task.state != .ready && task.state != .allocating

def Mtask.share (task : Mtask) : ℤ := if task.weight = 0 then 1 else task.weight

namespace Kernel

/-- Write to the slot `t`. -/
def setSlot (k : Kernel) (t : ℕ) (f : Mtask → Mtask) : Kernel :=
  { k with slot := Function.update k.slot t (f (k.slot t)) }

/-- Write to the CPU `c`. -/
def setCpu (k : Kernel) (c : ℕ) (f : SchedulerCpu → SchedulerCpu) : Kernel :=
  { k with cpu := Function.update k.cpu c (f (k.cpu c)) }

variable (k : Kernel) (t u : ℕ) (c e : ℕ) (f : Mtask → Mtask) (g : SchedulerCpu → SchedulerCpu)

@[simp] lemma setSlot_slotCount : (k.setSlot t f).slotCount = k.slotCount := rfl
@[simp] lemma setSlot_cpu : (k.setSlot t f).cpu = k.cpu := rfl
@[simp] lemma setSlot_cpuTotal : (k.setSlot t f).cpuTotal = k.cpuTotal := rfl
@[simp] lemma setSlot_retired : (k.setSlot t f).retired = k.retired := rfl
@[simp] lemma setSlot_self : (k.setSlot t f).slot t = f (k.slot t) := by simp [setSlot]
@[simp] lemma setCpu_slotCount : (k.setCpu c g).slotCount = k.slotCount := rfl
@[simp] lemma setCpu_slot : (k.setCpu c g).slot = k.slot := rfl
@[simp] lemma setCpu_cpuTotal : (k.setCpu c g).cpuTotal = k.cpuTotal := rfl
@[simp] lemma setCpu_retired : (k.setCpu c g).retired = k.retired := rfl
@[simp] lemma setCpu_self : (k.setCpu c g).cpu c = g (k.cpu c) := by simp [setCpu]

lemma setSlot_apply : (k.setSlot t f).slot u = if u = t then f (k.slot t) else k.slot u := by
  simp [setSlot, Function.update_apply]

lemma setCpu_apply : (k.setCpu c g).cpu e = if e = c then g (k.cpu c) else k.cpu e := by
  simp [setCpu, Function.update_apply]

lemma setCpu_field {β : Type*} (P : SchedulerCpu → β) :
    P ((k.setCpu c g).cpu e) = if e = c then P (g (k.cpu c)) else P (k.cpu e) := by
  rw [setCpu_apply, apply_ite P]

variable {k t u c e f g}

@[simp] lemma setSlot_of_ne (h : u ≠ t) : (k.setSlot t f).slot u = k.slot u := by
  rw [setSlot_apply, if_neg h]

@[simp] lemma setCpu_of_ne (h : e ≠ c) : (k.setCpu c g).cpu e = k.cpu e := by
  rw [setCpu_apply, if_neg h]

end Kernel

/-! ## The lists of runnable tasks -/

namespace Kernel

/-- `*link = value` -/
def setLink (k : Kernel) (link : Link) (value : Option ℕ) : Kernel :=
  match link with
  | .inl c => k.setCpu c ({ · with runnable := value })
  | .inr p => k.setSlot p ({ · with runNext := value })

/-- `run_previous` of the task that follows, if there is one -/
def setPrevious (k : Kernel) (next : Option ℕ) (link : Option Link) : Kernel :=
  match next with
  | some n => k.setSlot n ({ · with runPrevious := link })
  | none => k

@[simp] lemma setLink_inl (k : Kernel) (c : ℕ) (value : Option ℕ) :
    k.setLink (.inl c) value = k.setCpu c ({ · with runnable := value }) := rfl

@[simp] lemma setLink_inr (k : Kernel) (p : ℕ) (value : Option ℕ) :
    k.setLink (.inr p) value = k.setSlot p ({ · with runNext := value }) := rfl

@[simp] lemma setPrevious_some (k : Kernel) (n : ℕ) (link : Option Link) :
    k.setPrevious (some n) link = k.setSlot n ({ · with runPrevious := link }) := rfl

def schedulerRemove (k : Kernel) (t : ℕ) : Kernel :=
  match (k.slot t).runPrevious with
  | none => k
  | some link =>
    let k := k.setLink link (k.slot t).runNext
    let k := k.setPrevious (k.slot t).runNext (k.slot t).runPrevious
    let task := k.slot t
    let k := k.setCpu task.cpu fun cpu =>
      { cpu with load := cpu.load - task.share, movable := cpu.movable - if task.pinned then 0 else 1 }
    k.setSlot t ({ · with runPrevious := none, runNext := none })

def schedulerInsert (k : Kernel) (t : ℕ) : Kernel :=
  let task := k.slot t
  if task.state ≠ .running ∨ task.idle ∨ task.runPrevious.isSome then k
  else
    let k := k.setSlot t ({ · with runNext := (k.cpu task.cpu).runnable, runPrevious := some (.inl task.cpu) })
    let k := k.setPrevious (k.slot t).runNext (some (.inr t))
    k.setCpu task.cpu fun cpu =>
      { cpu with runnable := some t, load := cpu.load + task.share,
                 movable := cpu.movable + if task.pinned then 0 else 1 }

/-! ### State, weight and CPU of a task -/

def taskSetState (k : Kernel) (t : ℕ) (state : STATE) : Kernel :=
  ((k.schedulerRemove t).setSlot t ({ · with state := state })).schedulerInsert t

def schedulerRequest (k : Kernel) (c : ℕ) : Kernel := k.setCpu c ({ · with needResched := true })

def taskSetWeight (k : Kernel) (t : ℕ) (weight : ℕ) : Kernel :=
  let task := k.slot t
  if task.weight = weight then k
  else
    let k :=
      if task.runPrevious.isSome then
        k.setCpu task.cpu fun cpu =>
          { cpu with load := cpu.load - task.share + if weight = 0 then 1 else weight }
      else k
    k.setSlot t ({ · with weight := weight })

def schedulerLoad (k : Kernel) (c : ℕ) (exclude : ℕ) : ℤ :=
  let task := k.slot exclude
  (k.cpu c).load - if task.cpu = c ∧ task.runPrevious.isSome then task.share else 0

/-- `scheduler_least_loaded_cpu`; `online` is `smp_cpu_online`. -/
def schedulerLeastLoadedCpu (online : ℕ → Bool) (k : Kernel) (t : ℕ) : ℕ :=
  (List.range k.cpuTotal).foldl
    (fun selected c => if online c ∧ k.schedulerLoad c t < k.schedulerLoad selected t then c else selected)
    (k.slot t).cpu

def schedulerPlaceTask (k : Kernel) (t : ℕ) (c : ℕ) : Kernel :=
  (((k.schedulerRemove t).setSlot t ({ · with cpu := c })).schedulerInsert t).schedulerRequest c

/-- The slots `0, …, slotCount - 1` in the order of the loops over the registry. -/
def forSlots (k : Kernel) (f : Kernel → ℕ → Kernel) : Kernel := (List.range k.slotCount).foldl f k

def taskPinAddressSpace (k : Kernel) (current : ℕ) (space c : ℕ) : Option Kernel :=
  if (List.range k.slotCount).any fun t =>
      taskSlotInUse (k.slot t) && (k.slot t).addressSpace == space && (k.slot t).onCpu && t != current then none
  else
    some (k.forSlots fun k t =>
      if !taskSlotInUse (k.slot t) ∨ (k.slot t).addressSpace ≠ space then k
      else
        let k := (k.schedulerRemove t).setSlot t ({ · with pinned := true })
        if (k.slot t).cpu ≠ c then k.schedulerPlaceTask t c else k.schedulerInsert t)

def taskRun (online : ℕ → Bool) (k : Kernel) (t : ℕ) : Kernel :=
  let state := (k.slot t).state
  if state = .empty ∨ state = .willEmpty ∨ state = .ready ∨ state = .allocating ∨ state = .died then k
  else
    let k := k.setSlot t ({ · with urgent := true })
    if state = .waiting ∨ state = .sleeping then
      let k := (k.taskSetState t .running).setSlot t ({ · with waitReason := .none, ready := false })
      if !(k.slot t).pinned ∧ !(k.slot t).onCpu then
        k.schedulerPlaceTask t (schedulerLeastLoadedCpu online k t)
      else k.schedulerRequest (k.slot t).cpu
    else (k.setSlot t ({ · with ready := true })).schedulerRequest (k.slot t).cpu

def taskPublish (online : ℕ → Bool) (k : Kernel) (t : ℕ) : Kernel × Bool :=
  if (k.slot t).state = .allocating then
    let c := if (k.slot t).pinned then (k.slot t).cpu else schedulerLeastLoadedCpu online k t
    ((k.schedulerPlaceTask t c).taskSetState t .running, true)
  else (k, false)

end Kernel

/-! ## The slots of the task registry -/

open PlantOS.Task (taskIdNone)

def uintMax : ℕ := 4294967295

def taskSlotChunkSize : ℕ := 64

/-- What the memory allocator answers to `task_registry_grow`: a chunk of slots, and a larger table of
chunks where one is needed. -/
structure GrowMemory where
  chunk : Bool
  table : Bool
  deriving DecidableEq, Repr

/-- What `task_fork` gets: a kernel stack, the copies of the allocations, the queues and the file
descriptors, and a copy of the address space, by its name. -/
structure ForkMemory where
  stack : Option ℕ
  copies : Bool
  space : Option ℕ
  deriving DecidableEq, Repr

/-- What `task_slot_reset` makes of a slot with the generation. -/
def taskSlotReset (tid generation : ℕ) : Mtask where
  tid := tid
  ptid := taskIdNone
  tgid := tid
  generation := generation
  kind := .process
  state := .empty
  joinable := false
  addressSpace := 0
  top := none
  weight := 0
  runNext := none
  runPrevious := none
  cpu := 0
  onCpu := false
  idle := false
  pinned := false
  urgent := false
  ready := false
  waitReason := .none
  waittid := taskIdNone
  waitGeneration := 0
  status := 0
  terminateStatus := 0
  terminatePending := false

/-- `sizeof(*task_registry.chunks)` -/
def pointerSize : ℕ := 8

/-- The generation that `task_slot_claim` gives the slot. -/
def nextGeneration (generation : ℕ) : ℕ :=
  if (generation + 1) % (uintMax + 1) = 0 then 1 else (generation + 1) % (uintMax + 1)

/-- The slot of the child of `task_fork` before its own memory is allocated. -/
def forkImage (child parent : Mtask) : Mtask :=
  { parent with
    tid := child.tid
    generation := child.generation
    kind := .process
    joinable := false
    tgid := child.tid
    ptid := parent.tgid
    state := .allocating
    onCpu := false
    runNext := none
    runPrevious := none
    idle := false
    pinned := false
    terminatePending := false
    terminateStatus := 0
    top := none
    addressSpace := 0
    waittid := taskIdNone
    waitGeneration := 0
    waitReason := .none
    ready := false
    urgent := false }

namespace Kernel

/-- `task_registry_grow`. The chunk is zeroed memory, so that a new slot has the generation 0. -/
def taskRegistryGrow (k : Kernel) (memory : GrowMemory) : Option Kernel :=
  if k.slotCount > uintMax - taskSlotChunkSize ∨ !memory.chunk then none
  else
    let first := k.slotCount
    let grown (capacity : ℕ) : Kernel :=
      { k with slotCount := k.slotCount + taskSlotChunkSize
               freeHint := if first < k.freeHint then first else k.freeHint
               chunkCount := k.chunkCount + 1
               chunkCapacity := capacity
               slot := fun t => if first ≤ t ∧ t < first + taskSlotChunkSize then taskSlotReset t 0 else k.slot t }
    if k.chunkCount = k.chunkCapacity then
      let capacity := if k.chunkCapacity = 0 then 1 else k.chunkCapacity * 2 % (uintMax + 1)
      if capacity < k.chunkCapacity ∨ capacity > uintMax / pointerSize ∨ !memory.table then none
      else some (grown capacity)
    else some (grown k.chunkCapacity)

/-- The first slot from `free_hint` on that is empty: the loop of `task_slot_claim`. -/
def firstEmpty (k : Kernel) (allowZero : Bool) : Option ℕ :=
  let first := if !allowZero ∧ k.freeHint = 0 then 1 else k.freeHint
  (List.range' first (k.slotCount - first)).find? fun t => (k.slot t).state = .empty

lemma taskRegistryGrow_slotCount {k k' : Kernel} {memory : GrowMemory}
    (h : k.taskRegistryGrow memory = some k') :
    k'.slotCount = k.slotCount + taskSlotChunkSize ∧ k.slotCount ≤ uintMax - taskSlotChunkSize := by
  unfold taskRegistryGrow at h
  extract_lets first grown capacity at h
  split_ifs at h with h₁ h₂ h₃
  · cases h
    exact ⟨rfl, by omega⟩
  · cases h
    exact ⟨rfl, by omega⟩

/-- `task_slot_claim`: the registry behind it and the slot. `memory` is what the allocator answers when
the registry has so many slots. -/
def taskSlotClaim (k : Kernel) (memory : ℕ → GrowMemory) (allowZero : Bool) : Kernel × Option ℕ :=
  match k.firstEmpty allowZero with
  | some t =>
    let generation := nextGeneration (k.slot t).generation
    ({ k.setSlot t fun _ => { taskSlotReset t generation with state := .allocating } with freeHint := t + 1 },
      some t)
  | none =>
    match _h : k.taskRegistryGrow (memory k.slotCount) with
    | none => (k, none)
    | some k' => k'.taskSlotClaim memory allowZero
termination_by uintMax - k.slotCount
decreasing_by
  have := taskRegistryGrow_slotCount _h
  unfold taskSlotChunkSize uintMax at *
  omega

def taskSlotRelease (k : Kernel) (t : ℕ) : Kernel :=
  let tid := (k.slot t).tid
  let k := (k.schedulerRemove t).setSlot t fun task => taskSlotReset tid task.generation
  { k with freeHint := if tid < k.freeHint then tid else k.freeHint }

/-- `task_release_resources`, as far as it writes the slot. -/
def releaseResources (k : Kernel) (t : ℕ) : Kernel :=
  k.setSlot t fun task =>
    { task with urgent := false, waittid := taskIdNone, waitGeneration := 0, waitReason := .none, ready := false,
                addressSpace := 0 }

def taskAbortCreation (k : Kernel) (t : ℕ) : Kernel :=
  if (k.slot t).state ≠ .allocating then k else (k.releaseResources t).taskSlotRelease t

/-- `task_fork` behind the claim of the slot -/
def forkInto (online : ℕ → Bool) (k : Kernel) (parent child : ℕ) (memory : ForkMemory) : Kernel × Option ℕ :=
  let k := k.setSlot child fun task => forkImage task (k.slot parent)
  match memory.stack with
  | none => (k.taskAbortCreation child, none)
  | some stack =>
    let k := k.setSlot child ({ · with top := some stack })
    match memory.copies, memory.space with
    | true, some space =>
      let k := k.setSlot child ({ · with addressSpace := space, weight := 1 })
      ((k.taskPublish online child).1, some child)
    | _, _ => (k.taskAbortCreation child, none)

def taskFork (online : ℕ → Bool) (k : Kernel) (parent : ℕ) (grow : ℕ → GrowMemory) (memory : ForkMemory) :
    Kernel × Option ℕ :=
  match k.taskSlotClaim grow false with
  | (k, none) => (k, none)
  | (k, some child) => k.forkInto online parent child memory

end Kernel

/-! ## A slot of the registry never has one identity twice -/

open Function (update update_of_ne update_self)

/-- The registry and the pairs of `tid` and generation that it has handed out. -/
structure Registry where
  kernel : Kernel
  handed : List (ℕ × ℕ)
  /-- how often a slot has been claimed -/
  claims : ℕ → ℕ

inductive RegistryEvent
  | claim (allowZero : Bool) (memory : ℕ → GrowMemory)
  | release (t : ℕ)
  | grow (memory : GrowMemory)
  | fork (parent : ℕ) (grow : ℕ → GrowMemory) (memory : ForkMemory)
  /-- any other code writes to a slot: not to its identity, and it neither empties nor fills it -/
  | write (t : ℕ) (task : Mtask)
  | writeCpu (c : ℕ) (cpu : SchedulerCpu)

namespace Registry

def record (s : Registry) : Kernel × Option ℕ → Registry
  | (k, none) => { s with kernel := k }
  | (k, some t) =>
    { kernel := k
      handed := ((k.slot t).tid, (k.slot t).generation) :: s.handed
      claims := update s.claims t (s.claims t + 1) }

/-- The steps of the registry; `online` is `smp_cpu_online`. -/
def step (online : ℕ → Bool) (s : Registry) : RegistryEvent → Option Registry
  | .claim allowZero memory => some (s.record (s.kernel.taskSlotClaim memory allowZero))
  | .release t => if t < s.kernel.slotCount then some { s with kernel := s.kernel.taskSlotRelease t } else none
  | .grow memory => (s.kernel.taskRegistryGrow memory).map fun k => { s with kernel := k }
  | .fork parent grow memory =>
    let claimed := s.kernel.taskSlotClaim grow false
    some { s.record claimed with kernel := (s.kernel.taskFork online parent grow memory).1 }
  | .write t task =>
    if task.tid = (s.kernel.slot t).tid ∧ task.generation = (s.kernel.slot t).generation ∧
        (task.state = .empty ↔ (s.kernel.slot t).state = .empty) then
      some { s with kernel := s.kernel.setSlot t fun _ => task }
    else none
  | .writeCpu c cpu => some { s with kernel := s.kernel.setCpu c fun _ => cpu }

/-- `init_task`: the registry has no slots. -/
structure Init (s : Registry) : Prop where
  slotCount : s.kernel.slotCount = 0
  freeHint : s.kernel.freeHint = 0
  handed : s.handed = []
  claims : ∀ t, s.claims t = 0

end Registry

def registrySystem (online : ℕ → Bool) : Lib.System Registry RegistryEvent :=
  ⟨Registry.Init, Registry.step online⟩

/-! ### What leaves the identities alone -/

structure SameIdentity (k k' : Kernel) : Prop where
  slotCount : k'.slotCount = k.slotCount
  freeHint : k'.freeHint = k.freeHint
  tid : ∀ t, (k'.slot t).tid = (k.slot t).tid
  generation : ∀ t, (k'.slot t).generation = (k.slot t).generation
  empty : ∀ t, (k'.slot t).state = .empty ↔ (k.slot t).state = .empty

namespace SameIdentity

variable {k k' k'' : Kernel} {t : ℕ} {c : ℕ}

lemma refl (k : Kernel) : SameIdentity k k := ⟨rfl, rfl, fun _ => rfl, fun _ => rfl, fun _ => .rfl⟩

lemma trans (h : SameIdentity k k') (h' : SameIdentity k' k'') : SameIdentity k k'' :=
  ⟨h'.slotCount.trans h.slotCount, h'.freeHint.trans h.freeHint, fun t => (h'.tid t).trans (h.tid t),
    fun t => (h'.generation t).trans (h.generation t), fun t => (h'.empty t).trans (h.empty t)⟩

lemma setCpu (g : SchedulerCpu → SchedulerCpu) : SameIdentity k (k.setCpu c g) :=
  ⟨rfl, rfl, fun _ => rfl, fun _ => rfl, fun _ => .rfl⟩

lemma setSlot {f : Mtask → Mtask} (htid : (f (k.slot t)).tid = (k.slot t).tid)
    (hgener : (f (k.slot t)).generation = (k.slot t).generation)
    (hemp : (f (k.slot t)).state = .empty ↔ (k.slot t).state = .empty) : SameIdentity k (k.setSlot t f) := by
  refine ⟨rfl, rfl, fun u => ?_, fun u => ?_, fun u => ?_⟩
  all_goals by_cases h : u = t
  · rw [h, Kernel.setSlot_self, htid]
  · rw [Kernel.setSlot_of_ne h]
  · rw [h, Kernel.setSlot_self, hgener]
  · rw [Kernel.setSlot_of_ne h]
  · rw [h, Kernel.setSlot_self, hemp]
  · rw [Kernel.setSlot_of_ne h]

lemma inert {f : Mtask → Mtask}
    (h : ∀ task, (f task).tid = task.tid ∧ (f task).generation = task.generation ∧ (f task).state = task.state) :
    SameIdentity k (k.setSlot t f) :=
  setSlot (h _).1 (h _).2.1 (by rw [(h _).2.2])

lemma setLink (link : Link) (value : Option ℕ) : SameIdentity k (k.setLink link value) := by
  cases link with
  | inl c =>
    rw [Kernel.setLink_inl]
    exact setCpu _
  | inr p =>
    rw [Kernel.setLink_inr]
    exact inert fun _ => ⟨rfl, rfl, rfl⟩

lemma setPrevious (next : Option ℕ) (link : Option Link) : SameIdentity k (k.setPrevious next link) := by
  cases next with
  | none => exact refl k
  | some n =>
    rw [Kernel.setPrevious_some]
    exact inert fun _ => ⟨rfl, rfl, rfl⟩

lemma schedulerRemove : SameIdentity k (k.schedulerRemove t) := by
  unfold Kernel.schedulerRemove
  cases (k.slot t).runPrevious with
  | none => exact refl k
  | some link =>
    refine SameIdentity.trans ?_ (inert fun _ => ⟨rfl, rfl, rfl⟩)
    exact ((setLink _ _).trans (setPrevious _ _)).trans (setCpu _)

lemma schedulerInsert : SameIdentity k (k.schedulerInsert t) := by
  unfold Kernel.schedulerInsert
  dsimp only
  split
  · exact refl k
  · refine SameIdentity.trans ?_ (setCpu _)
    refine SameIdentity.trans ?_ (setPrevious _ _)
    exact inert fun _ => ⟨rfl, rfl, rfl⟩

lemma schedulerPlaceTask : SameIdentity k (k.schedulerPlaceTask t c) := by
  unfold Kernel.schedulerPlaceTask Kernel.schedulerRequest
  refine SameIdentity.trans ?_ (setCpu _)
  refine SameIdentity.trans ?_ schedulerInsert
  refine SameIdentity.trans ?_ (inert fun _ => ⟨rfl, rfl, rfl⟩)
  exact schedulerRemove

lemma taskSetState {state : STATE} (h : state = .empty ↔ (k.slot t).state = .empty) :
    SameIdentity k (k.taskSetState t state) := by
  have hwr : SameIdentity (k.schedulerRemove t)
      ((k.schedulerRemove t).setSlot t ({ · with state := state })) := by
    apply setSlot
    · rfl
    · rfl
    · exact h.trans (schedulerRemove.empty t).symm
  exact (schedulerRemove.trans hwr).trans schedulerInsert

lemma taskPublish {online : ℕ → Bool} : SameIdentity k (k.taskPublish online t).1 := by
  unfold Kernel.taskPublish
  split
  case isTrue h =>
    refine SameIdentity.trans schedulerPlaceTask (taskSetState ?_)
    rw [schedulerPlaceTask.empty, h]
    decide
  case isFalse => exact refl k

end SameIdentity

/-! ### Growing and claiming -/

/-- The generation of a slot that has been claimed so often. -/
def generationOf (claims : ℕ) : ℕ := if claims = 0 then 0 else (claims - 1) % uintMax + 1

lemma generationOf_succ (n : ℕ) : generationOf (n + 1) = n % uintMax + 1 := by simp [generationOf]

lemma nextGeneration_generationOf (n : ℕ) : nextGeneration (generationOf n) = generationOf (n + 1) := by
  rw [generationOf_succ]
  cases n with
  | zero => rfl
  | succ n =>
    rw [generationOf_succ]
    unfold nextGeneration uintMax
    split_ifs
    · omega
    · omega

section

variable {k k' : Kernel} {t u : ℕ} {allowZero : Bool} {memory : ℕ → GrowMemory}

/-- What `task_registry_grow` does. -/
structure Grows (k k' : Kernel) : Prop where
  slotCount : k'.slotCount = k.slotCount + taskSlotChunkSize
  freeHint : k'.freeHint = if k.slotCount < k.freeHint then k.slotCount else k.freeHint
  old : ∀ t < k.slotCount, k'.slot t = k.slot t
  new : ∀ t, k.slotCount ≤ t → t < k'.slotCount → k'.slot t = taskSlotReset t 0

lemma taskRegistryGrow_grows {m : GrowMemory} (h : k.taskRegistryGrow m = some k') : Grows k k' := by
  have hgrn : ∃ capacity, k' =
      { k with slotCount := k.slotCount + taskSlotChunkSize
               freeHint := if k.slotCount < k.freeHint then k.slotCount else k.freeHint
               chunkCount := k.chunkCount + 1
               chunkCapacity := capacity
               slot := fun t => if k.slotCount ≤ t ∧ t < k.slotCount + taskSlotChunkSize then taskSlotReset t 0
                else k.slot t } := by
    unfold Kernel.taskRegistryGrow at h
    extract_lets first grown capacity at h
    split_ifs at h with h₁ h₂ h₃
    · exact ⟨_, (Option.some.inj h).symm⟩
    · exact ⟨_, (Option.some.inj h).symm⟩
  obtain ⟨capacity, rfl⟩ := hgrn
  refine ⟨rfl, rfl, fun t ht => ?_, fun t h₁ h₂ => if_pos ⟨h₁, h₂⟩⟩
  exact if_neg (by omega)

lemma firstEmpty_some (h : k.firstEmpty allowZero = some t) :
    t < k.slotCount ∧ k.freeHint ≤ t ∧ (k.slot t).state = .empty ∧
      ∀ u, k.freeHint ≤ u → u < t → u ≠ 0 → (k.slot u).state ≠ .empty := by
  unfold Kernel.firstEmpty at h
  extract_lets first at h
  have hfst : first = k.freeHint ∨ first = 1 ∧ k.freeHint = 0 := by
    have hif : first = if !allowZero ∧ k.freeHint = 0 then 1 else k.freeHint := rfl
    split_ifs at hif with hz
    · exact .inr ⟨hif, hz.2⟩
    · exact .inl hif
  clear_value first
  rw [List.find?_range'_eq_some] at h
  obtain ⟨hemp, hmem, hbef⟩ := h
  rw [List.mem_range'_1] at hmem
  refine ⟨by omega, by omega, by simpa using hemp, fun u h₁ h₂ h₃ => ?_⟩
  simpa using hbef u (by omega) h₂

lemma firstEmpty_none (h : k.firstEmpty allowZero = none) :
    ∀ u, k.freeHint ≤ u → u < k.slotCount → u ≠ 0 → (k.slot u).state ≠ .empty := by
  unfold Kernel.firstEmpty at h
  extract_lets first at h
  intro u h₁ h₂ h₃
  have hfst : first ≤ u := by
    have hif : first = if !allowZero ∧ k.freeHint = 0 then 1 else k.freeHint := rfl
    split_ifs at hif with hz
    · omega
    · omega
  clear_value first
  rw [List.find?_eq_none] at h
  simpa using h u (by rw [List.mem_range'_1]; omega)

lemma Grows.firstEmpty (h : Grows k k') (allowZero : Bool) (hhint : k.freeHint ≤ k.slotCount) :
    ∃ t, k'.firstEmpty allowZero = some t := by
  have hcnt := h.slotCount
  unfold taskSlotChunkSize at hcnt
  by_contra hnone
  have hnone := firstEmpty_none (Option.eq_none_iff_forall_not_mem.mpr fun t ht => hnone ⟨t, ht⟩)
  have hfree : k'.freeHint ≤ k.slotCount + 1 := by
    rw [h.freeHint]
    split_ifs <;> omega
  refine hnone (k.slotCount + 1) hfree (by omega) (by omega) ?_
  rw [h.new _ (by omega) (by omega)]
  rfl

/-- The slot `t` of the registry is given away. -/
def Kernel.claimSlot (k : Kernel) (t : ℕ) : Kernel :=
  { k.setSlot t fun _ => { taskSlotReset t (nextGeneration (k.slot t).generation) with state := .allocating } with
    freeHint := t + 1 }

/-- What `task_slot_claim` does: at most one growth, and the first empty slot from the hint on. -/
inductive ClaimResult (k : Kernel) (memory : ℕ → GrowMemory) (allowZero : Bool) : Kernel × Option ℕ → Prop
  | here {t : ℕ} (first : k.firstEmpty allowZero = some t) : ClaimResult k memory allowZero (k.claimSlot t, some t)
  | grown {k₁ : Kernel} {t : ℕ} (grows : Grows k k₁) (first : k₁.firstEmpty allowZero = some t) :
    ClaimResult k memory allowZero (k₁.claimSlot t, some t)
  | full (first : k.firstEmpty allowZero = none) (grow : k.taskRegistryGrow (memory k.slotCount) = none) :
    ClaimResult k memory allowZero (k, none)

/-- **`task_slot_claim` claims.** -/
theorem taskSlotClaim_result (memory : ℕ → GrowMemory) (allowZero : Bool) (hhint : k.freeHint ≤ k.slotCount) :
    ClaimResult k memory allowZero (k.taskSlotClaim memory allowZero) := by
  rw [Kernel.taskSlotClaim]
  cases hfst : k.firstEmpty allowZero with
  | some t => exact .here hfst
  | none =>
    dsimp only
    split
    case h_1 hgrow => exact .full hfst hgrow
    case h_2 k₁ hgrow =>
      have hgrw := taskRegistryGrow_grows hgrow
      obtain ⟨t, ht⟩ := hgrw.firstEmpty allowZero hhint
      rw [Kernel.taskSlotClaim, ht]
      exact .grown hgrw ht

end

/-! ### The invariant -/

structure Registry.Sound (s : Registry) : Prop where
  tid : ∀ t < s.kernel.slotCount, (s.kernel.slot t).tid = t
  hint_le : s.kernel.freeHint ≤ s.kernel.slotCount
  hint : ∀ t < s.kernel.slotCount, (s.kernel.slot t).state = .empty → t = 0 ∨ s.kernel.freeHint ≤ t
  generation : ∀ t < s.kernel.slotCount, (s.kernel.slot t).generation = generationOf (s.claims t)
  live : ∀ t < s.kernel.slotCount, (s.kernel.slot t).state ≠ .empty → 0 < s.claims t
  fresh : ∀ t, s.kernel.slotCount ≤ t → s.claims t = 0
  handed : ∀ t g, (t, g) ∈ s.handed ↔ ∃ n < s.claims t, g = generationOf (n + 1)
  nodup : (∀ t, s.claims t ≤ uintMax) → s.handed.Nodup

namespace Registry.Sound

variable {s : Registry} {k k' : Kernel} {t : ℕ}

lemma init (h : s.Init) : s.Sound := by
  refine ⟨?_, ?_, ?_, ?_, ?_, fun t _ => h.claims t, ?_, fun _ => ?_⟩
  · rw [h.slotCount]
    omega
  · rw [h.slotCount, h.freeHint]
  · rw [h.slotCount]
    omega
  · rw [h.slotCount]
    omega
  · rw [h.slotCount]
    omega
  · simp [h.handed, h.claims]
  · rw [h.handed]
    exact List.nodup_nil

lemma same (h : s.Sound) (hs : SameIdentity s.kernel k') : { s with kernel := k' }.Sound := by
  refine ⟨?_, ?_, ?_, ?_, ?_, ?_, h.handed, h.nodup⟩
  · intro t ht
    rw [hs.tid]
    exact h.tid t (hs.slotCount ▸ ht)
  · rw [hs.freeHint, hs.slotCount]
    exact h.hint_le
  · intro t ht he
    rw [hs.freeHint]
    exact h.hint t (hs.slotCount ▸ ht) ((hs.empty t).mp he)
  · intro t ht
    rw [hs.generation]
    exact h.generation t (hs.slotCount ▸ ht)
  · intro t ht he
    exact h.live t (hs.slotCount ▸ ht) fun he' => he ((hs.empty t).mpr he')
  · intro t ht
    exact h.fresh t (hs.slotCount ▸ ht)

lemma grow (h : s.Sound) (hg : Grows s.kernel k') : { s with kernel := k' }.Sound := by
  have hcnt := hg.slotCount
  have hle := h.hint_le
  have hhint : k'.freeHint = s.kernel.freeHint := by
    rw [hg.freeHint, if_neg (by omega)]
  refine ⟨fun t ht => ?_, ?_, fun t ht he => ?_, fun t ht => ?_, fun t ht he => ?_, fun t ht => ?_, h.handed,
    h.nodup⟩
  · rcases Nat.lt_or_ge t s.kernel.slotCount with hlt | hge
    · rw [hg.old t hlt]
      exact h.tid t hlt
    · rw [hg.new t hge ht]
      rfl
  · show k'.freeHint ≤ k'.slotCount
    omega
  · show t = 0 ∨ k'.freeHint ≤ t
    rcases Nat.lt_or_ge t s.kernel.slotCount with hlt | hge
    · rw [hhint]
      exact h.hint t hlt (by rw [← hg.old t hlt]; exact he)
    · exact .inr (by omega)
  · rcases Nat.lt_or_ge t s.kernel.slotCount with hlt | hge
    · rw [hg.old t hlt]
      exact h.generation t hlt
    · rw [hg.new t hge ht, h.fresh t hge]
      rfl
  · rcases Nat.lt_or_ge t s.kernel.slotCount with hlt | hge
    · exact h.live t hlt (by rwa [← hg.old t hlt])
    · rw [hg.new t hge ht] at he
      exact absurd rfl he
  · exact h.fresh t (le_trans (by omega) (show k'.slotCount ≤ t from ht))

attribute [local simp] Kernel.claimSlot

lemma claimSlot (h : s.Sound) {allowZero : Bool} (hfst : s.kernel.firstEmpty allowZero = some t) :
    (s.record (s.kernel.claimSlot t, some t)).Sound := by
  obtain ⟨hlt, hle, hemp, hbef⟩ := firstEmpty_some hfst
  have htid : ((s.kernel.claimSlot t).slot t).tid = t := by simp [taskSlotReset]
  have hst : ((s.kernel.claimSlot t).slot t).state = .allocating := by simp
  have hgener : ((s.kernel.claimSlot t).slot t).generation = generationOf (s.claims t + 1) := by
    rw [← nextGeneration_generationOf, ← h.generation t hlt]
    simp [taskSlotReset]
  have hoth : ∀ u ≠ t, (s.kernel.claimSlot t).slot u = s.kernel.slot u := by
    intro u hu
    simp [hu]
  refine ⟨fun u hu => ?_, hlt, fun u hu he => ?_, fun u hu => ?_, fun u hu he => ?_, fun u hu => ?_, fun u g => ?_,
    fun hcls => ?_⟩
  · by_cases hut : u = t
    · subst hut
      exact htid
    · show ((s.kernel.claimSlot t).slot u).tid = u
      rw [hoth u hut]
      exact h.tid u hu
  · by_cases hut : u = t
    · subst hut
      rw [show ((s.record (s.kernel.claimSlot u, some u)).kernel.slot u).state = _ from hst] at he
      cases he
    · rw [show ((s.record (s.kernel.claimSlot t, some t)).kernel.slot u) = _ from hoth u hut] at he
      by_contra hnot
      simp only [not_or] at hnot
      have hhint := (h.hint u hu he).resolve_left hnot.1
      refine hbef u hhint ?_ hnot.1 he
      have hu1 : ¬ t + 1 ≤ u := hnot.2
      omega
  · by_cases hut : u = t
    · subst hut
      show ((s.kernel.claimSlot u).slot u).generation = generationOf (update s.claims u _ u)
      rw [hgener, update_self]
    · show ((s.kernel.claimSlot t).slot u).generation = generationOf (update s.claims t _ u)
      rw [hoth u hut, update_of_ne hut]
      exact h.generation u hu
  · show 0 < update s.claims t (s.claims t + 1) u
    by_cases hut : u = t
    · rw [hut, update_self]
      exact Nat.succ_pos _
    · rw [update_of_ne hut]
      exact h.live u hu (by rw [← hoth u hut]; exact he)
  · show update s.claims t _ u = 0
    have hu : s.kernel.slotCount ≤ u := hu
    rw [update_of_ne (by omega)]
    exact h.fresh u hu
  · show (u, g) ∈ (((s.kernel.claimSlot t).slot t).tid, ((s.kernel.claimSlot t).slot t).generation) :: s.handed ↔
      ∃ n < update s.claims t (s.claims t + 1) u, g = generationOf (n + 1)
    rw [htid, hgener, List.mem_cons, Prod.mk.injEq, h.handed]
    by_cases hut : u = t
    · subst hut
      rw [update_self]
      constructor
      · rintro (⟨-, hg⟩ | ⟨n, hn, hg⟩)
        · exact ⟨_, Nat.lt_succ_self _, hg⟩
        · exact ⟨n, by omega, hg⟩
      · rintro ⟨n, hn, hg⟩
        rcases Nat.lt_succ_iff_lt_or_eq.mp hn with hn | rfl
        · exact .inr ⟨n, hn, hg⟩
        · exact .inl ⟨rfl, hg⟩
    · rw [update_of_ne hut]
      simp [hut]
  · have hle : ∀ u, s.claims u ≤ uintMax := by
      intro u
      have hu : update s.claims t (s.claims t + 1) u ≤ uintMax := hcls u
      by_cases hut : u = t
      · rw [hut, update_self] at hu
        rw [hut]
        omega
      · rwa [update_of_ne hut] at hu
    have hlt : s.claims t + 1 ≤ uintMax := by
      have ht : update s.claims t (s.claims t + 1) t ≤ uintMax := hcls t
      rwa [update_self] at ht
    show ((((s.kernel.claimSlot t).slot t).tid, ((s.kernel.claimSlot t).slot t).generation) :: s.handed).Nodup
    rw [htid, hgener, List.nodup_cons]
    refine ⟨fun hmem => ?_, h.nodup hle⟩
    rw [h.handed] at hmem
    obtain ⟨n, hn, hg⟩ := hmem
    rw [generationOf_succ, generationOf_succ] at hg
    unfold uintMax at *
    omega

lemma release (h : s.Sound) (ht : t < s.kernel.slotCount) :
    { s with kernel := s.kernel.taskSlotRelease t }.Sound := by
  have hrem : SameIdentity s.kernel (s.kernel.schedulerRemove t) := .schedulerRemove
  have hr := h.same hrem
  have htid : (s.kernel.slot t).tid = t := h.tid t ht
  have hself : (s.kernel.taskSlotRelease t).slot t =
      taskSlotReset t ((s.kernel.schedulerRemove t).slot t).generation := by
    simp [Kernel.taskSlotRelease, htid]
  have hoth : ∀ u ≠ t, (s.kernel.taskSlotRelease t).slot u = (s.kernel.schedulerRemove t).slot u := by
    intro u hu
    simp [Kernel.taskSlotRelease, hu]
  have hcnt : (s.kernel.taskSlotRelease t).slotCount = s.kernel.slotCount := hrem.slotCount
  have hhint : (s.kernel.taskSlotRelease t).freeHint = min t s.kernel.freeHint := by
    show (if (s.kernel.slot t).tid < (s.kernel.schedulerRemove t).freeHint then _ else _) = _
    rw [htid, hrem.freeHint]
    split_ifs with hlt
    · rw [min_eq_left hlt.le]
    · rw [min_eq_right (by omega)]
      exact hrem.freeHint
  have hgen := hr.generation
  have htids := hr.tid
  have hemp := hr.hint
  have hlive := hr.live
  dsimp only at hgen htids hemp hlive
  rw [hrem.slotCount] at hgen htids hemp hlive
  refine ⟨fun u hu => ?_, ?_, fun u hu he => ?_, fun u hu => ?_, fun u hu he => ?_, fun u hu => h.fresh u (hcnt ▸ hu),
    h.handed, h.nodup⟩
  · by_cases hut : u = t
    · rw [hut, hself]
      rfl
    · rw [hoth u hut]
      exact htids u (hcnt ▸ hu)
  · rw [hhint, hcnt]
    omega
  · rw [hhint]
    by_cases hut : u = t
    · omega
    · rw [hoth u hut] at he
      have := hemp u (hcnt ▸ hu) he
      rw [hrem.freeHint] at this
      omega
  · by_cases hut : u = t
    · rw [hut, hself]
      exact hgen t ht
    · rw [hoth u hut]
      exact hgen u (hcnt ▸ hu)
  · by_cases hut : u = t
    · rw [hut, hself] at he
      exact absurd rfl he
    · exact hlive u (hcnt ▸ hu) (by rwa [← hoth u hut])

end Registry.Sound

/-! ### Runs of the registry -/

section

variable {online : ℕ → Bool} {s s' : Registry} {k : Kernel}

lemma Registry.Sound.claim (h : s.Sound) (memory : ℕ → GrowMemory) (allowZero : Bool) :
    (s.record (s.kernel.taskSlotClaim memory allowZero)).Sound := by
  have hres := taskSlotClaim_result memory allowZero h.hint_le
  generalize s.kernel.taskSlotClaim memory allowZero = result at hres
  cases hres with
  | here first => exact h.claimSlot first
  | grown grows first => exact (h.grow grows).claimSlot first
  | full => exact h

variable {t : ℕ}

lemma taskSlotClaim_allocating {k k' : Kernel} {memory : ℕ → GrowMemory} {allowZero : Bool}
    (hhint : k.freeHint ≤ k.slotCount) (h : k.taskSlotClaim memory allowZero = (k', some t)) :
    t < k'.slotCount ∧ (k'.slot t).state = .allocating := by
  have hres := taskSlotClaim_result memory allowZero hhint
  rw [h] at hres
  cases hres with
  | here first => exact ⟨(firstEmpty_some first).1, by simp [Kernel.claimSlot]⟩
  | grown grows first => exact ⟨(firstEmpty_some first).1, by simp [Kernel.claimSlot]⟩

lemma taskAbortCreation_eq (h : (k.slot t).state = .allocating) :
    k.taskAbortCreation t = (k.releaseResources t).taskSlotRelease t := by
  unfold Kernel.taskAbortCreation
  rw [if_neg (not_not.mpr h)]

/-- `task_fork` behind the claim leaves the identity alone, or releases the slot again. -/
lemma forkInto_cases (online : ℕ → Bool) (parent : ℕ) (memory : ForkMemory) {child : ℕ}
    (h : (k.slot child).state = .allocating) :
    SameIdentity k (k.forkInto online parent child memory).1 ∨
      ∃ k', SameIdentity k k' ∧ (k.forkInto online parent child memory).1 = k'.taskSlotRelease child := by
  have himg : SameIdentity k (k.setSlot child fun task => forkImage task (k.slot parent)) := by
    apply SameIdentity.setSlot
    · rfl
    · rfl
    · rw [h]
      exact .rfl
  have habor : ∀ k' : Kernel, SameIdentity k k' → (k'.slot child).state = .allocating →
      ∃ k'', SameIdentity k k'' ∧ k'.taskAbortCreation child = k''.taskSlotRelease child := by
    intro k' hk' hst
    refine ⟨_, hk'.trans ?_, taskAbortCreation_eq hst⟩
    unfold Kernel.releaseResources
    exact .inert fun _ => ⟨rfl, rfl, rfl⟩
  unfold Kernel.forkInto
  dsimp only
  generalize hk₁ : (k.setSlot child fun task => forkImage task (k.slot parent)) = k₁ at himg
  have hst : (k₁.slot child).state = .allocating := by
    rw [← hk₁, Kernel.setSlot_self]
    rfl
  cases memory.stack with
  | none => exact .inr (habor k₁ himg hst)
  | some stack =>
    have hstk : SameIdentity k (k₁.setSlot child ({ · with top := some stack })) :=
      himg.trans (.inert fun _ => ⟨rfl, rfl, rfl⟩)
    have hst : ((k₁.setSlot child ({ · with top := some stack })).slot child).state = .allocating := by
      rw [Kernel.setSlot_self]
      exact hst
    dsimp only
    split
    · refine .inl (SameIdentity.trans ?_ .taskPublish)
      refine hstk.trans ?_
      exact .inert fun _ => ⟨rfl, rfl, rfl⟩
    · exact .inr (habor _ hstk hst)

lemma Registry.Sound.step {e : RegistryEvent} (h : s.Sound) (hs : Registry.step online s e = some s') :
    s'.Sound := by
  cases e with
  | claim allowZero memory =>
    cases hs
    exact h.claim memory allowZero
  | release t =>
    simp only [Registry.step] at hs
    split_ifs at hs with ht
    cases hs
    exact h.release ht
  | grow memory =>
    obtain ⟨k', hgrow, rfl⟩ := Option.map_eq_some_iff.mp hs
    exact h.grow (taskRegistryGrow_grows hgrow)
  | fork parent grow memory =>
    cases hs
    have hcl := h.claim grow false
    show Registry.Sound { s.record (s.kernel.taskSlotClaim grow false) with
      kernel := (s.kernel.taskFork online parent grow memory).1 }
    unfold Kernel.taskFork
    rcases hres : s.kernel.taskSlotClaim grow false with ⟨k, _ | child⟩
    · rw [hres] at hcl
      exact hcl
    · obtain ⟨hlt, hst⟩ := taskSlotClaim_allocating h.hint_le hres
      rw [hres] at hcl
      rcases forkInto_cases online parent memory hst with hsame | ⟨k', hsame, heq⟩
      · exact hcl.same hsame
      · dsimp only
        rw [heq]
        exact (hcl.same hsame).release (hsame.slotCount ▸ hlt)
  | write t task =>
    simp only [Registry.step] at hs
    split_ifs at hs with hsame
    cases hs
    exact h.same (.setSlot hsame.1 hsame.2.1 hsame.2.2)
  | writeCpu c cpu =>
    cases hs
    exact h.same (.setCpu _)

/-- The slots that a step resets, and those behind the registry. -/
def Registry.resets (s : Registry) (e : RegistryEvent) (t : ℕ) : Bool :=
  match e with
  | .claim allowZero memory =>
    s.kernel.slotCount ≤ t || (s.kernel.taskSlotClaim memory allowZero).2 = some t
  | .fork _ grow _ => s.kernel.slotCount ≤ t || (s.kernel.taskSlotClaim grow false).2 = some t
  | .grow _ => s.kernel.slotCount ≤ t
  | .release u => t = u
  | .write _ _ => false
  | .writeCpu _ _ => false

structure SameTask (k k' : Kernel) (t : ℕ) : Prop where
  lt : t < k'.slotCount
  generation : (k'.slot t).generation = (k.slot t).generation
  empty : (k'.slot t).state = .empty ↔ (k.slot t).state = .empty

lemma SameIdentity.sameTask {k k' : Kernel} (h : SameIdentity k k') (ht : t < k.slotCount) : SameTask k k' t :=
  ⟨h.slotCount ▸ ht, h.generation t, h.empty t⟩

lemma SameTask.trans {k k' k'' : Kernel} (h : SameTask k k' t) (h' : SameTask k' k'' t) : SameTask k k'' t :=
  ⟨h'.lt, h'.generation.trans h.generation, h'.empty.trans h.empty⟩

lemma sameTask_of_eq {k k' : Kernel} (hlt : t < k'.slotCount) (h : k'.slot t = k.slot t) : SameTask k k' t :=
  ⟨hlt, by rw [h], by rw [h]⟩

lemma sameTask_release {k : Kernel} {u : ℕ} (ht : t < k.slotCount) (hne : t ≠ u) :
    SameTask k (k.taskSlotRelease u) t := by
  have hrem : SameIdentity k (k.schedulerRemove u) := .schedulerRemove
  refine (hrem.sameTask ht).trans (sameTask_of_eq ?_ ?_)
  · exact hrem.slotCount ▸ ht
  · simp [Kernel.taskSlotRelease, hne]

lemma claimSlot_of_ne {k : Kernel} {u : ℕ} (h : t ≠ u) : (k.claimSlot u).slot t = k.slot t := by
  simp [Kernel.claimSlot, h]

lemma taskSlotClaim_kept (memory : ℕ → GrowMemory) (allowZero : Bool) {t : ℕ} (hhint : k.freeHint ≤ k.slotCount)
    (ht : t < k.slotCount) :
    ((k.taskSlotClaim memory allowZero).2 = some t → (k.slot t).state = .empty) ∧
      ((k.taskSlotClaim memory allowZero).2 ≠ some t → SameTask k (k.taskSlotClaim memory allowZero).1 t) := by
  have hres := taskSlotClaim_result memory allowZero hhint
  generalize k.taskSlotClaim memory allowZero = result at hres
  cases hres with
  | here first =>
    refine ⟨fun h => ?_, fun h => sameTask_of_eq ht ?_⟩
    · cases h
      exact (firstEmpty_some first).2.2.1
    · exact claimSlot_of_ne fun heq => h (congrArg some heq.symm)
  | @grown k₁ u grows first =>
    have hlt : t < k₁.slotCount := by
      rw [grows.slotCount]
      omega
    refine ⟨fun h => ?_, fun h => sameTask_of_eq hlt ?_⟩
    · cases h
      rw [← grows.old _ ht]
      exact (firstEmpty_some first).2.2.1
    · rw [← grows.old _ ht]
      exact claimSlot_of_ne fun heq => h (congrArg some heq.symm)
  | full => exact ⟨nofun, fun _ => sameTask_of_eq ht rfl⟩

/-- **A step leaves every task alone whose slot it does not reset, and resets empty slots only, unless it
releases them.** -/
lemma Registry.step_kept {e : RegistryEvent} (h : s.Sound) (hs : Registry.step online s e = some s') {t : ℕ}
    (ht : t < s.kernel.slotCount) :
    (s.resets e t = false → SameTask s.kernel s'.kernel t) ∧
      (s.resets e t = true → (s.kernel.slot t).state = .empty ∨ e = .release t) := by
  have hnot : ¬s.kernel.slotCount ≤ t := by omega
  cases e with
  | claim allowZero memory =>
    cases hs
    have hkept := taskSlotClaim_kept memory allowZero h.hint_le ht
    have hrec : (s.record (s.kernel.taskSlotClaim memory allowZero)).kernel =
        (s.kernel.taskSlotClaim memory allowZero).1 := by
      rcases s.kernel.taskSlotClaim memory allowZero with ⟨k, _ | u⟩ <;> rfl
    rw [hrec]
    simp only [Registry.resets, hnot, decide_false, Bool.false_or, decide_eq_false_iff_not, decide_eq_true_eq]
    exact ⟨hkept.2, fun hreset => .inl (hkept.1 hreset)⟩
  | release u =>
    simp only [Registry.step] at hs
    split_ifs at hs with hu
    cases hs
    simp only [Registry.resets, decide_eq_false_iff_not, decide_eq_true_eq]
    exact ⟨sameTask_release ht, fun heq => .inr (by rw [heq])⟩
  | grow memory =>
    obtain ⟨k', hgrow, rfl⟩ := Option.map_eq_some_iff.mp hs
    have hgrw := taskRegistryGrow_grows hgrow
    simp only [Registry.resets, hnot, decide_false]
    refine ⟨fun _ => sameTask_of_eq ?_ (hgrw.old t ht), nofun⟩
    show t < k'.slotCount
    rw [hgrw.slotCount]
    omega
  | fork parent grow memory =>
    cases hs
    have hkept := taskSlotClaim_kept grow false h.hint_le ht
    simp only [Registry.resets, hnot, decide_false, Bool.false_or, decide_eq_false_iff_not, decide_eq_true_eq]
    refine ⟨fun hne => ?_, fun hreset => .inl (hkept.1 hreset)⟩
    have hkept := hkept.2 hne
    show SameTask s.kernel (s.kernel.taskFork online parent grow memory).1 t
    unfold Kernel.taskFork
    rcases hres : s.kernel.taskSlotClaim grow false with ⟨k, _ | child⟩
    · rw [hres] at hkept
      exact hkept
    · obtain ⟨-, hst⟩ := taskSlotClaim_allocating h.hint_le hres
      rw [hres] at hkept hne
      refine hkept.trans ?_
      rcases forkInto_cases online parent memory hst with hsame | ⟨k', hsame, heq⟩
      · exact hsame.sameTask hkept.lt
      · dsimp only
        rw [heq]
        refine (hsame.sameTask hkept.lt).trans (sameTask_release (hsame.slotCount ▸ hkept.lt) ?_)
        rintro rfl
        exact hne rfl
  | write u task =>
    simp only [Registry.step] at hs
    split_ifs at hs with hsame
    cases hs
    have hwr : SameIdentity s.kernel (s.kernel.setSlot u fun _ => task) := .setSlot hsame.1 hsame.2.1 hsame.2.2
    exact ⟨fun _ => hwr.sameTask ht, nofun⟩
  | writeCpu c cpu =>
    cases hs
    have hwr : SameIdentity s.kernel (s.kernel.setCpu c fun _ => cpu) := .setCpu _
    exact ⟨fun _ => hwr.sameTask ht, nofun⟩

lemma registry_sound (hs : (registrySystem online).Reachable s) : s.Sound :=
  Lib.System.Reachable.invariant (fun _ => Registry.Sound.init) (fun _ _ _ h hstep => h.step hstep) hs

/-- **The registry hands out empty slots, under an identity that it has not handed out before, and fails
only when there is none and it cannot grow.** -/
theorem registry_identities (hs : (registrySystem online).Reachable s) :
    (∀ t < s.kernel.slotCount, (s.kernel.slot t).state = .empty → t = 0 ∨ s.kernel.freeHint ≤ t) ∧
      ((∀ t, s.claims t < 2 ^ 32 - 1) → s.handed.Nodup) ∧
      (∀ pair ∈ s.handed, pair.2 ≠ 0) ∧
      (∀ t < s.kernel.slotCount, (s.kernel.slot t).state ≠ .empty →
        (s.kernel.slot t).tid = t ∧ (t, (s.kernel.slot t).generation) ∈ s.handed) ∧
      ∀ memory allowZero,
        (∀ k t, s.kernel.taskSlotClaim memory allowZero = (k, some t) →
          t < s.kernel.slotCount → (s.kernel.slot t).state = .empty) ∧
        (∀ k, s.kernel.taskSlotClaim memory allowZero = (k, none) →
          (∀ t, 1 ≤ t → t < s.kernel.slotCount → (s.kernel.slot t).state ≠ .empty) ∧
            s.kernel.taskRegistryGrow (memory s.kernel.slotCount) = none) := by
  have h := registry_sound hs
  refine ⟨h.hint, fun hclaims => h.nodup fun t => ?_, ?_, fun t ht hlive => ⟨h.tid t ht, ?_⟩, fun memory allowZero => ?_⟩
  · have := hclaims t
    unfold uintMax
    omega
  · rintro ⟨t, g⟩ hmem
    obtain ⟨n, -, rfl⟩ := (h.handed t g).mp hmem
    rw [generationOf_succ]
    exact Nat.succ_ne_zero _
  · have hpos := h.live t ht hlive
    rw [h.handed, h.generation t ht]
    exact ⟨s.claims t - 1, by omega, by congr 1; omega⟩
  · have hresult := taskSlotClaim_result memory allowZero h.hint_le
    constructor
    · intro k t hclaim hlt
      rw [hclaim] at hresult
      cases hresult with
      | here first => exact (firstEmpty_some first).2.2.1
      | grown grows first =>
        rw [← grows.old t hlt]
        exact (firstEmpty_some first).2.2.1
    · intro k hclaim
      rw [hclaim] at hresult
      cases hresult with
      | full first grow =>
        refine ⟨fun t h₁ h₂ he => ?_, grow⟩
        have hhint := (h.hint t h₂ he).resolve_left (by omega)
        exact firstEmpty_none first t hhint h₂ (by omega) he

lemma step_claim {memory : ℕ → GrowMemory} {allowZero : Bool} (h : s.kernel.firstEmpty allowZero = some t) :
    (registrySystem online).step s (.claim allowZero memory) = some (s.record (s.kernel.claimSlot t, some t)) := by
  show some (s.record (s.kernel.taskSlotClaim memory allowZero)) = _
  rw [Kernel.taskSlotClaim, h]
  rfl

/-- The registry before `init_task`. -/
def noSlots : Registry where
  kernel :=
    { slotCount := 0, freeHint := 0, chunkCount := 0, chunkCapacity := 0, slot := fun _ => taskSlotReset 0 0
      cpu := fun _ => ⟨none, none, none, none, 0, 0, false⟩, cpuTotal := 1, retired := none }
  handed := []
  claims := fun _ => 0

/-- Slot 1 is claimed, released and claimed again: it has another generation. -/
theorem registry_identities_reuse : ∃ s, (registrySystem fun _ => true).Reachable s ∧
    s.handed = [(1, 2), (1, 1)] ∧ s.handed.Nodup := by
  have hinit : noSlots.Init := ⟨rfl, rfl, rfl, fun _ => rfl⟩
  let memory : ℕ → GrowMemory := fun _ => ⟨true, true⟩
  let s₁ : Registry := { noSlots with kernel := (noSlots.kernel.taskRegistryGrow ⟨true, true⟩).getD noSlots.kernel }
  let s₂ := s₁.record (s₁.kernel.claimSlot 1, some 1)
  let s₃ : Registry := { s₂ with kernel := s₂.kernel.taskSlotRelease 1 }
  let s₄ := s₃.record (s₃.kernel.claimSlot 1, some 1)
  have hgrow : (registrySystem fun _ => true).step noSlots (.grow ⟨true, true⟩) = some s₁ := rfl
  have hclaim : (registrySystem fun _ => true).step s₁ (.claim false memory) = some s₂ := step_claim rfl
  have hrelease : (registrySystem fun _ => true).step s₂ (.release 1) = some s₃ := rfl
  have hagain : (registrySystem fun _ => true).step s₃ (.claim false memory) = some s₄ := step_claim rfl
  have hs : (registrySystem fun _ => true).Reachable s₄ :=
    .step (.step (.step (.step (.init hinit) trivial hgrow) trivial hclaim) trivial hrelease) trivial hagain
  refine ⟨s₄, hs, rfl, (registry_identities hs).2.1 fun t => ?_⟩
  have hclaims : s₄.claims t ≤ 2 := by
    by_cases ht : t = 1
    · subst ht
      exact le_rfl
    · have : s₄.claims t = 0 := by simp [s₄, s₃, s₂, s₁, Registry.record, noSlots, ht]
      omega
  omega

end

end PlantOS.Sched
