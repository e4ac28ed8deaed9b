import Mathlib.Algebra.Group.Nat.Defs
import PlantOS.Lib.Run

/-!
# Threads and their handles

`pthread_create`, the end of a thread, `pthread_join` and `pthread_detach`, one access of the handle after the other, and
what the kernel keeps of the thread meanwhile. Each system call is one step, as it holds the lock of the kernel.
-/

namespace PlantOS.Libp.Thread

open Lib
open Function (update)

/-! ### The kernel's side -/

/-- A slot of the task registry, as far as `task_wait` and `task_detach_thread` read it -/
structure Slot where
  inUse : Bool
  generation : ℕ
  /-- the thread of this process that it runs; `kind` and `tgid` say whether there is one -/
  thread : Option ℕ
  joinable : Bool
  /-- `state == DIED` -/
  died : Bool
  deriving DecidableEq

/-- The generation that `task_slot_claim` gives -/
def nextGeneration (generation : ℕ) : ℕ := if (generation + 1) % 2 ^ 32 = 0 then 1 else (generation + 1) % 2 ^ 32

namespace Slot

variable (slot : Slot)

/-- `task_slot_release` -/
def release : Slot := { slot with inUse := false }

/-- `user_thread_create` -/
def create (thread : ℕ) (joinable : Bool) : Slot := ⟨true, nextGeneration slot.generation, some thread, joinable, false⟩

/-- `task_can_join` of a thread -/
def canJoin (self : Option ℕ) : Bool := slot.inUse && slot.thread.isSome && decide (slot.thread ≠ self) && slot.joinable

inductive WaitAnswer
  | refused | waits | joined
  deriving DecidableEq, Repr

/-- `task_join_thread`, up to `task_next` or to its end, and each time that it is woken -/
def wait (self : Option ℕ) (generation : ℕ) : Slot × WaitAnswer :=
  if generation = 0 ∨ !slot.canJoin self ∨ slot.generation ≠ generation then (slot, .refused)
  else if slot.died then (slot.release, .joined)
  else (slot, .waits)

/-- `task_detach_thread`: whether it succeeds -/
def detach (generation : ℕ) : Slot × Bool :=
  if generation = 0 ∨ !slot.inUse ∨ slot.generation ≠ generation ∨ slot.thread = none ∨ !slot.joinable then (slot, false)
  else if slot.died then ({ slot with joinable := false }.release, true)
  else ({ slot with joinable := false }, true)

/-- `task_exit` of a thread, up to the switch to another task -/
def exit : Slot := if slot.joinable then { slot with died := true } else slot.release

end Slot

/-! ### The handle -/

/-- The bits of `state` in `struct __pthread` -/
structure Flags where
  detached : Bool
  finished : Bool
  joining : Bool
  external : Bool
  main : Bool
  deriving DecidableEq, Repr

/-- `state & (THREAD_EXTERNAL | THREAD_DETACHED | THREAD_JOINING)` -/
def Flags.taken (state : Flags) : Bool := state.external || state.detached || state.joining

/-- `struct __pthread`, but for what only the start of the thread reads -/
structure Handle where
  tid : ℕ
  generation : ℕ
  state : Flags
  published : Bool
  result : ℕ
  deriving DecidableEq

/-- `calloc(1, sizeof(*handle))` -/
def Handle.zero : Handle := ⟨0, 0, ⟨false, false, false, false, false⟩, false, 0⟩

/-- Where `pthread_create` is, for each handle -/
inductive CreatePhase
  | absent
  | allocated
  /-- after `THREAD_CREATE`, which has filled in the request -/
  | created (tid generation : ℕ)
  /-- `tid` and `generation` are stored. -/
  | stored
  /-- `published` is 1, and its waiter is not woken yet. -/
  | published
  | returned
  | failed
  deriving DecidableEq, Repr

inductive ThreadPhase
  | absent
  /-- `thread_entry` waits for `published`. -/
  | entering
  | running
  /-- `pthread_exit` has stored the result. -/
  | resulted
  /-- `_exit` has seen that it is not the main thread. -/
  | checked
  /-- after the exchange of `_exit`; what the flags were before it -/
  | marked (previous : Flags)
  | leaving (previous : Flags)
  /-- after `api_exit` -/
  | gone (previous : Flags)
  deriving DecidableEq, Repr

/-- Where a call of `pthread_join` or `pthread_detach` is -/
inductive CallPhase
  | join
  | joinLoaded (state : Flags)
  /-- `THREAD_JOINING` is set. -/
  | joinClaimed
  | joinWaits (tid generation : ℕ)
  | joinRefused
  | joinReturned
  | joinRead (value : Option ℕ)
  /-- returned 0, with `*result` if there is a pointer -/
  | joined (value : Option ℕ)
  | detach
  | detachRequested (tid generation : ℕ)
  | detachLoaded (tid generation : ℕ) (state : Flags)
  /-- `THREAD_DETACHED` is set; what the flags were before -/
  | detachClaimed (tid generation : ℕ) (state : Flags)
  | detachAnswered (state : Flags) (success : Bool)
  /-- returned 0 or `EINVAL` -/
  | detached (state : Flags) (success : Bool)
  /-- returned `EINVAL` without the handle -/
  | invalid
  /-- returned `EDEADLK` -/
  | deadlock
  deriving DecidableEq, Repr

structure Call where
  handle : ℕ
  /-- `pthread_self()` of the caller, if it is a thread with a handle -/
  self : Option ℕ
  /-- whether `pthread_join` has a pointer for the result -/
  result : Bool
  phase : CallPhase
  deriving DecidableEq

inductive Freer
  | creator | thread | joiner | detacher
  deriving DecidableEq, Repr

structure ThreadState where
  handle : ℕ → Handle
  /-- `attributes->detached` of `pthread_create` -/
  attrDetached : ℕ → Bool
  creator : ℕ → CreatePhase
  thread : ℕ → ThreadPhase
  /-- `current_task()` of the thread -/
  task : ℕ → ℕ
  slot : ℕ → Slot
  call : ℕ → Option Call
  /-- with what the thread has ended, the call whose exchange has changed the flags, who has freed the handle, and whether
  one was read or written after that; no code reads them -/
  value : ℕ → ℕ
  claim : ℕ → Option ℕ
  freed : ℕ → List Freer
  touched : Bool

namespace ThreadState

variable (s : ThreadState)

def touch (h : ℕ) : ThreadState := { s with touched := s.touched || !(s.freed h).isEmpty }

def setHandle (h : ℕ) (handle : Handle) : ThreadState := { s with handle := update s.handle h handle }

def setState (h : ℕ) (state : Flags) : ThreadState := s.setHandle h { s.handle h with state }

def setCreator (h : ℕ) (phase : CreatePhase) : ThreadState := { s with creator := update s.creator h phase }

def setThread (h : ℕ) (phase : ThreadPhase) : ThreadState := { s with thread := update s.thread h phase }

def setSlot (tid : ℕ) (slot : Slot) : ThreadState := { s with slot := update s.slot tid slot }

def setCall (k : ℕ) (call : Call) : ThreadState := { s with call := update s.call k (some call) }

def setClaim (h : ℕ) (k : Option ℕ) : ThreadState := { s with claim := update s.claim h k }

/-- `free` of the handle -/
def free (h : ℕ) (who : Freer) : ThreadState :=
  { s.touch h with freed := update s.freed h (who :: s.freed h) }

/-! ### The steps of the parties -/

/-- The next step of `pthread_create`; `kernel` is the slot that `THREAD_CREATE` finds, if it succeeds. -/
def createStep (h : ℕ) (kernel : Option ℕ) : Option ThreadState :=
  match s.creator h with
  | .allocated =>
    match kernel with
    | none => some ((s.free h .creator).setCreator h .failed)
    | some tid =>
      if (s.slot tid).inUse then none
      else
        let slot := (s.slot tid).create h (!s.attrDetached h)
        some { (((s.setSlot tid slot).setThread h .entering).setCreator h (.created tid slot.generation)) with
          task := update s.task h tid }
  | .created tid generation =>
    some (((s.touch h).setHandle h { s.handle h with tid, generation }).setCreator h .stored)
  | .stored => some (((s.touch h).setHandle h { s.handle h with published := true }).setCreator h .published)
  | .published => some (s.setCreator h .returned)
  | _ => none

/-- The next step of a thread; `value` is what it returns or gives to `pthread_exit`. -/
def threadStep (h value : ℕ) : Option ThreadState :=
  match s.thread h with
  | .entering => some (if (s.handle h).published then (s.touch h).setThread h .running else s.touch h)
  | .running =>
    some { (((s.touch h).setHandle h { s.handle h with result := value }).setThread h .resulted) with
      value := update s.value h value }
  | .resulted =>
    some ((s.touch h).setThread h (if (s.handle h).state.main then .leaving (s.handle h).state else .checked))
  | .checked =>
    let previous := (s.handle h).state
    some (((s.touch h).setState h { previous with finished := true }).setThread h (.marked previous))
  | .marked previous =>
    some ((if !previous.external && previous.detached then s.free h .thread else s).setThread h (.leaving previous))
  | .leaving previous => some ((s.setSlot (s.task h) (s.slot (s.task h)).exit).setThread h (.gone previous))
  | _ => none

def callStep (k : ℕ) (c : Call) : Option ThreadState :=
  let h := c.handle
  let goto (s : ThreadState) (phase : CallPhase) : ThreadState := s.setCall k { c with phase }
  match c.phase with
  | .join => some (goto (s.touch h) (.joinLoaded (s.handle h).state))
  | .joinLoaded state =>
    if state.taken then some (goto s .invalid)
    else if (s.handle h).state = state then
      some (goto (((s.touch h).setState h { state with joining := true }).setClaim h (some k)) .joinClaimed)
    else some (goto (s.touch h) (.joinLoaded (s.handle h).state))
  | .joinClaimed => some (goto (s.touch h) (.joinWaits (s.handle h).tid (s.handle h).generation))
  | .joinWaits tid generation =>
    match (s.slot tid).wait c.self generation with
    | (slot, .refused) => some (goto (s.setSlot tid slot) .joinRefused)
    | (slot, .waits) => some (s.setSlot tid slot)
    | (slot, .joined) => some (goto (s.setSlot tid slot) .joinReturned)
  | .joinRefused =>
    some (goto (((s.touch h).setState h { (s.handle h).state with joining := false }).setClaim h none) .invalid)
  | .joinReturned =>
    some (if c.result then goto (s.touch h) (.joinRead (some (s.handle h).result)) else goto s (.joinRead none))
  | .joinRead value => some (goto (s.free h .joiner) (.joined value))
  | .detach => some (goto (s.touch h) (.detachRequested (s.handle h).tid (s.handle h).generation))
  | .detachRequested tid generation => some (goto (s.touch h) (.detachLoaded tid generation (s.handle h).state))
  | .detachLoaded tid generation state =>
    if state.taken then some (goto s .invalid)
    else if (s.handle h).state = state then
      some (goto (((s.touch h).setState h { state with detached := true }).setClaim h (some k))
        (.detachClaimed tid generation state))
    else some (goto (s.touch h) (.detachLoaded tid generation (s.handle h).state))
  | .detachClaimed tid generation state =>
    let (slot, success) := (s.slot tid).detach generation
    some (goto (s.setSlot tid slot) (.detachAnswered state success))
  | .detachAnswered state success =>
    some (goto (if state.finished then s.free h .detacher else s) (.detached state success))
  | _ => none

end ThreadState

inductive ThreadEvent
  /-- `pthread_create` allocates a handle. -/
  | allocate (h : ℕ) (detached : Bool)
  | create (h : ℕ) (kernel : Option ℕ)
  | thread (h value : ℕ)
  | join (k h : ℕ) (self : Option ℕ) (result : Bool)
  | detach (k h : ℕ)
  | call (k : ℕ)
  /-- A slot that runs no thread with a handle changes. -/
  | other (tid : ℕ) (slot : Slot)

def ThreadState.step (s : ThreadState) : ThreadEvent → Option ThreadState
  | .allocate h detached =>
    if s.creator h = .absent then
      some { ((s.setHandle h { Handle.zero with state := { Handle.zero.state with detached } }).setCreator h .allocated) with
        attrDetached := update s.attrDetached h detached }
    else none
  | .create h kernel => s.createStep h kernel
  | .thread h value => s.threadStep h value
  | .join k h self result =>
    if s.call k = none then some (s.setCall k ⟨h, self, result, if self = some h then .deadlock else .join⟩) else none
  | .detach k h => if s.call k = none then some (s.setCall k ⟨h, none, false, .detach⟩) else none
  | .call k => (s.call k).bind (s.callStep k)
  | .other tid slot =>
    if ((s.slot tid).inUse = false ∨ (s.slot tid).thread = none) ∧ slot.thread = none then some (s.setSlot tid slot)
    else none

def threadSystem : System ThreadState ThreadEvent where
  init s := s.handle = (fun _ => Handle.zero) ∧ s.attrDetached = (fun _ => false) ∧ s.creator = (fun _ => .absent) ∧
    s.thread = (fun _ => .absent) ∧ (∀ tid, (s.slot tid).thread = none) ∧ s.call = (fun _ => none) ∧
    s.claim = (fun _ => none) ∧ s.freed = (fun _ => []) ∧ s.touched = false
  step := ThreadState.step

/-! ## One handle at a time -/

open Option (any any_some isSome_iff_exists mem_def)

/-! ### What a phase means -/

namespace ThreadPhase

/-- The flags before the exchange of `_exit`, after it -/
def previous : ThreadPhase → Option Flags
  | .marked previous => some previous
  | .leaving previous => some previous
  | .gone previous => some previous
  | _ => none

def isGone : ThreadPhase → Bool
  | .gone _ => true
  | _ => false

def hasFreed : ThreadPhase → Bool
  | .leaving previous => !previous.external && previous.detached
  | .gone previous => !previous.external && previous.detached
  | _ => false

def exited : ThreadPhase → Bool
  | .absent => false
  | .entering => false
  | .running => false
  | _ => true

end ThreadPhase

namespace CallPhase

/-- A join that has set `THREAD_JOINING` -/
def joins : CallPhase → Bool
  | .joinClaimed => true
  | .joinWaits .. => true
  | .joinReturned => true
  | .joinRead _ => true
  | .joined _ => true
  | _ => false

/-- The flags before the exchange of `pthread_detach`, after it -/
def captured : CallPhase → Option Flags
  | .detachClaimed _ _ state => some state
  | .detachAnswered state _ => some state
  | .detached state _ => some state
  | _ => none

def asked : CallPhase → Bool
  | .detachAnswered .. => true
  | .detached .. => true
  | _ => false

def reaped : CallPhase → Bool
  | .joinReturned => true
  | .joinRead _ => true
  | .joined _ => true
  | _ => false

def value : CallPhase → Option ℕ
  | .joinRead value => value
  | .joined value => value
  | _ => none

def request : CallPhase → Option (ℕ × ℕ)
  | .joinWaits tid generation => some (tid, generation)
  | .detachRequested tid generation => some (tid, generation)
  | .detachLoaded tid generation _ => some (tid, generation)
  | .detachClaimed tid generation _ => some (tid, generation)
  | _ => none

def granted : CallPhase → Bool
  | .detachAnswered _ success => success
  | .detached _ success => success
  | _ => true

/-- The call has seen that another one has the handle, or that the thread was created detached. -/
def late : CallPhase → Bool
  | .joinLoaded state => state.taken
  | .detachLoaded _ _ state => state.taken
  | .invalid => true
  | _ => false

def claimed (phase : CallPhase) : Bool := phase.joins || phase.captured.isSome

lemma value_of_not_reaped {p : CallPhase} (h : p.reaped = false) : p.value = none := by
  cases p <;> first | rfl | cases h

lemma late_of_claimed {p : CallPhase} (h : p.claimed = true) : p.late = false := by
  cases p <;> first | rfl | cases h

end CallPhase

/-! ### The view of a handle -/

structure View where
  handle : Handle
  attrDetached : Bool
  creator : CreatePhase
  thread : ThreadPhase
  task : ℕ
  /-- the slot of the task, as long as it is the thread's -/
  slot : Option Slot
  value : ℕ
  /-- the call that has claimed the handle -/
  holder : Option CallPhase
  freed : List Freer

namespace View

variable {v : View}

def freer (v : View) : List Freer :=
  if v.creator = .failed then [.creator]
  else if v.thread.hasFreed then [.thread]
  else
    match v.holder with
    | some (.joined _) => [.joiner]
    | some (.detached state _) => if state.finished then [.detacher] else []
    | _ => []

attribute [local simp] freer

structure Ok (v : View) : Prop where
  plain : v.handle.state.external = false ∧ v.handle.state.main = false
  published : v.handle.published = true ↔ v.creator = .published ∨ v.creator = .returned
  absent : v.thread = .absent ↔ v.creator = .absent ∨ v.creator = .allocated ∨ v.creator = .failed
  unborn : v.thread = .absent → v.slot = none
  entering : v.handle.published = false → v.thread = .absent ∨ v.thread = .entering
  created : ∀ tid generation, v.creator = .created tid generation →
    tid = v.task ∧ ∀ slot ∈ v.slot, slot.generation = generation
  stored : v.creator = .stored ∨ v.creator = .published ∨ v.creator = .returned →
    v.handle.tid = v.task ∧ ∀ slot ∈ v.slot, slot.generation = v.handle.generation
  generation : ∀ slot ∈ v.slot, slot.generation ≠ 0
  alive : v.thread ≠ .absent → v.thread.isGone = false → ∃ slot, v.slot = some slot ∧ slot.died = false
  dead : v.thread.isGone = true → ∀ slot ∈ v.slot, slot.died = true
  joinable : ∀ slot ∈ v.slot, slot.joinable = (!v.attrDetached && !v.holder.any CallPhase.asked)
  /-- The slot of a joinable thread stays until a join or a detach lets go of it. -/
  kept : v.thread ≠ .absent → v.attrDetached = false → v.holder.any CallPhase.asked = false →
    v.holder.any CallPhase.reaped = false → v.slot.isSome = true
  request : ∀ p ∈ v.holder, ∀ r ∈ p.request, r = (v.handle.tid, v.handle.generation)
  holder : ∀ p ∈ v.holder, p.claimed = true ∧ p.granted = true
  joining : v.handle.state.joining = v.holder.any CallPhase.joins
  detached : v.handle.state.detached = (v.attrDetached || v.holder.any fun p => p.captured.isSome)
  /-- Nobody claims the handle of a thread that was created detached. -/
  sole : v.attrDetached = true → v.holder = none
  known : v.holder ≠ none → v.handle.published = true
  finished : v.handle.state.finished = v.thread.previous.isSome
  previous : ∀ state ∈ v.thread.previous, state.external = false ∧ (state.detached = true → v.handle.state.detached = true) ∧
    (v.attrDetached = true → state.detached = true)
  /-- Either the detacher sees that the thread has finished, or the thread sees that it is detached. -/
  captured : ∀ p ∈ v.holder, ∀ state ∈ p.captured,
    state.finished = v.thread.previous.any fun previous => !previous.detached
  freed : v.freed = v.freer
  result : v.thread.exited = true → v.handle.result = v.value
  reaped : ∀ p ∈ v.holder, p.reaped = true → v.thread.isGone = true
  read : ∀ p ∈ v.holder, ∀ x ∈ p.value, x = v.value

/-! ### Nobody has freed it -/

lemma Ok.present (hv : v.Ok) (hthr : v.thread ≠ .absent) : v.creator ≠ .failed := fun hc =>
  hthr (hv.absent.mpr (.inr (.inr hc)))

lemma Ok.unheld (hv : v.Ok) (hpub : v.handle.published = false) : v.holder = none :=
  by_contra fun hheld => by
    rw [hv.known hheld] at hpub
    cases hpub

lemma Ok.freed_creator (hv : v.Ok) (hpub : v.handle.published = false) (hc : v.creator ≠ .failed) : v.freed = [] := by
  rw [hv.freed, freer, if_neg hc, hv.unheld hpub]
  rcases hv.entering hpub with hthr | hthr <;> rw [hthr] <;> rfl

lemma Ok.freed_thread (hv : v.Ok) (hthr : v.thread ≠ .absent) (hprev : v.thread.previous = none) : v.freed = [] := by
  have hfrd : v.thread.hasFreed = false := by
    cases ht : v.thread <;> rw [ht] at hprev <;> first | rfl | cases hprev
  have hgone : v.thread.isGone = false := by
    cases ht : v.thread <;> rw [ht] at hprev <;> first | rfl | cases hprev
  rw [hv.freed, freer, if_neg (hv.present hthr), hfrd, if_neg Bool.false_ne_true]
  split
  · next value hhold =>
    have := hv.reaped _ hhold rfl
    rw [hgone] at this
    cases this
  · next state success hhold =>
    have hstt := hv.captured _ hhold state rfl
    rw [hprev, Option.any_none] at hstt
    rw [hstt, if_neg Bool.false_ne_true]
  · rfl

lemma Ok.not_hasFreed (hv : v.Ok) {p : CallPhase} (hhold : v.holder = some p)
    (hseen : ∀ state ∈ p.captured, state.finished = true) : v.thread.hasFreed = false := by
  have hattr : v.attrDetached = false := Bool.eq_false_iff.mpr fun hattr => by
    rw [hv.sole hattr] at hhold
    cases hhold
  have hno : ∀ state ∈ v.thread.previous, state.detached = false := by
    intro state hstt
    by_contra hdet
    have hset := (hv.previous state hstt).2.1 (by simpa using hdet)
    rw [hv.detached, hattr, hhold] at hset
    simp only [Bool.false_or, any_some] at hset
    obtain ⟨st, hst⟩ := isSome_iff_exists.mp hset
    have hfin := hv.captured p hhold st hst
    rw [hseen st hst, hstt] at hfin
    simp only [any_some, Bool.true_eq, Bool.not_eq_true'] at hfin
    exact hdet (by simp [hfin])
  cases ht : v.thread <;> rw [ht] at hno <;> first | rfl | simp [ThreadPhase.hasFreed, hno _ rfl]

lemma Ok.freed_holder (hv : v.Ok) {p : CallPhase} (hhold : v.holder = some p)
    (hseen : ∀ state ∈ p.captured, state.finished = true)
    (hlast : ∀ value, p ≠ .joined value) (hlast' : ∀ state success, p ≠ .detached state success) : v.freed = [] := by
  have hcreat : v.creator ≠ .failed := fun hc => by
    have := hv.published.mp (hv.known (by simp [hhold]))
    simp [hc] at this
  rw [hv.freed, freer, if_neg hcreat, hv.not_hasFreed hhold hseen, if_neg Bool.false_ne_true, hhold]
  cases p <;> first | rfl | exact absurd rfl (hlast _) | exact absurd rfl (hlast' _ _)

lemma Ok.freed_le (hv : v.Ok) : v.freed.length ≤ 1 := by
  rw [hv.freed, freer]
  split
  · exact Nat.le_refl 1
  split
  · exact Nat.le_refl 1
  split
  · exact Nat.le_refl 1
  · split <;> simp
  · simp

/-! ### The steps of the creator -/

lemma Ok.allocate (hv : v.Ok) (hc : v.creator = .absent) (detached : Bool) :
    Ok { v with
      handle := { Handle.zero with state := { Handle.zero.state with detached } }
      attrDetached := detached
      creator := .allocated } := by
  have hthr : v.thread = .absent := hv.absent.mpr (.inl hc)
  have hpub : v.handle.published = false := Bool.eq_false_iff.mpr fun h => by simpa [hc] using hv.published.mp h
  have hhold := hv.unheld hpub
  have hslot := hv.unborn hthr
  refine { hv with
    plain := ⟨rfl, rfl⟩
    published := by simp [Handle.zero]
    absent := by simp [hthr]
    entering := fun _ => .inl hthr
    created := by simp
    stored := by simp
    joinable := by simp [hslot]
    kept := fun h => absurd hthr h
    request := by simp [hhold]
    joining := by simp [hhold, Handle.zero]
    detached := by simp [hhold]
    sole := fun _ => hhold
    known := fun h => absurd hhold h
    finished := by simp [hthr, ThreadPhase.previous, Handle.zero]
    previous := by simp [hthr, ThreadPhase.previous]
    freed := ?_
    result := by simp [hthr, ThreadPhase.exited] }
  rw [hv.freed_creator hpub (by simp [hc])]
  simp [hthr, hhold, ThreadPhase.hasFreed]

lemma Ok.create_fails (hv : v.Ok) (hc : v.creator = .allocated) :
    Ok { v with creator := .failed, freed := .creator :: v.freed } := by
  have hthr : v.thread = .absent := hv.absent.mpr (.inr (.inl hc))
  have hpub : v.handle.published = false := Bool.eq_false_iff.mpr fun h => by simpa [hc] using hv.published.mp h
  refine { hv with
    published := by simp [hpub]
    absent := by simp [hthr]
    created := by simp
    stored := by simp
    freed := ?_ }
  rw [hv.freed_creator hpub (by simp [hc])]
  rfl

lemma Ok.create (hv : v.Ok) (hc : v.creator = .allocated) (tid : ℕ) {slot : Slot} (hslot : slot.died = false)
    (hjoin : slot.joinable = !v.attrDetached) (hgen : slot.generation ≠ 0) :
    Ok { v with creator := .created tid slot.generation, thread := .entering, task := tid, slot := some slot } := by
  have hthr : v.thread = .absent := hv.absent.mpr (.inr (.inl hc))
  have hpub : v.handle.published = false := Bool.eq_false_iff.mpr fun h => by simpa [hc] using hv.published.mp h
  have hhold := hv.unheld hpub
  have hfin := hv.finished
  rw [hthr] at hfin
  refine { hv with
    published := by simp [hpub]
    absent := by simp
    unborn := nofun
    entering := fun _ => .inr rfl
    created := by simp
    stored := by simp
    generation := by simpa using hgen
    alive := fun _ _ => ⟨slot, rfl, hslot⟩
    dead := nofun
    joinable := by simp [hjoin, hhold]
    kept := fun _ _ _ _ => rfl
    finished := hfin
    previous := by simp [ThreadPhase.previous]
    captured := by simp [hhold]
    freed := ?_
    result := nofun
    reaped := by simp [hhold] }
  rw [hv.freed_creator hpub (by simp [hc])]
  simp [hhold, ThreadPhase.hasFreed]

lemma Ok.store (hv : v.Ok) {tid generation : ℕ} (hc : v.creator = .created tid generation) :
    Ok { v with handle := { v.handle with tid, generation }, creator := .stored } := by
  have hthr : v.thread ≠ .absent := fun h => by simpa [hc] using hv.absent.mp h
  have hpub : v.handle.published = false := Bool.eq_false_iff.mpr fun h => by simpa [hc] using hv.published.mp h
  have hhold := hv.unheld hpub
  refine { hv with
    published := by simp [hpub]
    absent := by simp [hthr]
    created := by simp
    stored := fun _ => hv.created tid generation hc
    request := by simp [hhold]
    freed := ?_ }
  rw [hv.freed]
  simp [hc]

lemma Ok.publish (hv : v.Ok) (hc : v.creator = .stored) :
    Ok { v with handle := { v.handle with published := true }, creator := .published } := by
  have hthr : v.thread ≠ .absent := fun h => by simpa [hc] using hv.absent.mp h
  refine { hv with
    published := by simp
    absent := by simp [hthr]
    entering := nofun
    created := by simp
    stored := fun _ => hv.stored (.inl hc)
    known := fun _ => rfl
    freed := ?_ }
  rw [hv.freed]
  simp [hc]

lemma Ok.create_returns (hv : v.Ok) (hc : v.creator = .published) : Ok { v with creator := .returned } := by
  have hthr : v.thread ≠ .absent := fun h => by simpa [hc] using hv.absent.mp h
  refine { hv with
    published := by simp [hv.published, hc]
    absent := by simp [hthr]
    created := by simp
    stored := fun _ => hv.stored (.inr (.inl hc))
    freed := ?_ }
  rw [hv.freed]
  simp [hc]

/-! ### The steps of the thread -/

lemma Ok.move (hv : v.Ok) {phase : ThreadPhase} (hpub : v.handle.published = true) (habs : phase ≠ .absent)
    (hprev : phase.previous = v.thread.previous) (hgone : phase.isGone = v.thread.isGone)
    (hfrd : phase.hasFreed = v.thread.hasFreed) (hexit : phase.exited = v.thread.exited) :
    Ok { v with thread := phase } := by
  have hthr : v.thread ≠ .absent := fun h => by
    have := hv.absent.mp h
    rcases hv.published.mp hpub with hc | hc <;> simp [hc] at this
  refine { hv with
    absent := iff_of_false habs fun h => hthr (hv.absent.mpr h)
    unborn := fun h => absurd h habs
    entering := fun h => by simp [hpub] at h
    alive := fun _ h => hv.alive hthr (hgone ▸ h)
    dead := fun h => hv.dead (hgone ▸ h)
    kept := fun _ => hv.kept hthr
    finished := ?_
    previous := ?_
    captured := ?_
    freed := ?_
    result := fun h => hv.result (hexit ▸ h)
    reaped := fun p hp h => (hgone.trans (hv.reaped p hp h) : phase.isGone = true) }
  · exact hv.finished.trans (congrArg Option.isSome hprev.symm)
  · intro state hstt
    exact hv.previous state (hprev ▸ hstt)
  · intro p hp state hstt
    rw [hv.captured p hp state hstt]
    exact congrArg (any _) hprev.symm
  · rw [hv.freed]
    simp only [freer, hfrd]

lemma Ok.not_reaped (hv : v.Ok) (hgone : v.thread.isGone = false) {p : CallPhase} (hp : p ∈ v.holder) : p.reaped = false :=
  Bool.eq_false_iff.mpr fun h => by
    rw [hv.reaped p hp h] at hgone
    cases hgone

lemma Ok.published_of_running (hv : v.Ok) (habs : v.thread ≠ .absent) (hent : v.thread ≠ .entering) :
    v.handle.published = true := by
  by_contra h
  exact (hv.entering (by simpa using h)).elim habs hent

lemma Ok.exit (hv : v.Ok) (ht : v.thread = .running) (value : ℕ) :
    Ok { v with handle := { v.handle with result := value }, thread := .resulted, value := value } := by
  have hpub := hv.published_of_running (by simp [ht]) (by simp [ht])
  have hthr : v.thread ≠ .absent := by simp [ht]
  have hgone : v.thread.isGone = false := by rw [ht]; rfl
  refine { hv with
    absent := iff_of_false nofun fun h => hthr (hv.absent.mpr h)
    unborn := nofun
    entering := fun h => by simp [hpub] at h
    alive := fun _ _ => hv.alive hthr hgone
    dead := nofun
    kept := fun _ => hv.kept hthr
    finished := by rw [hv.finished, ht]; rfl
    previous := nofun
    captured := fun p hp state hstt => by rw [hv.captured p hp state hstt, ht]; rfl
    freed := by rw [hv.freed]; simp [ht, ThreadPhase.hasFreed]
    result := fun _ => rfl
    reaped := fun p hp h => by simp [hv.not_reaped hgone hp] at h
    read := fun p hp x hx => by simp [CallPhase.value_of_not_reaped (hv.not_reaped hgone hp)] at hx }

lemma Ok.mark (hv : v.Ok) (ht : v.thread = .checked) :
    Ok { v with
      handle := { v.handle with state := { v.handle.state with finished := true } }
      thread := .marked v.handle.state } := by
  have hpub := hv.published_of_running (by simp [ht]) (by simp [ht])
  have hthr : v.thread ≠ .absent := by simp [ht]
  have hgone : v.thread.isGone = false := by rw [ht]; rfl
  refine { hv with
    absent := iff_of_false nofun fun h => hthr (hv.absent.mpr h)
    unborn := nofun
    entering := fun h => by simp [hpub] at h
    alive := fun _ _ => hv.alive hthr hgone
    dead := nofun
    kept := fun _ => hv.kept hthr
    finished := rfl
    previous := ?_
    captured := fun p hp state hstt => ?_
    freed := by rw [hv.freed]; simp [ht, ThreadPhase.hasFreed]
    result := fun _ => hv.result (by rw [ht]; rfl)
    reaped := fun p hp h => by simp [hv.not_reaped hgone hp] at h }
  · rintro state ⟨⟩
    exact ⟨hv.plain.1, id, fun h => by rw [hv.detached, h, Bool.true_or]⟩
  · -- the call has set the flag before
    have hdet : v.handle.state.detached = true := by
      rw [hv.detached, mem_def.mp hp, any_some, mem_def.mp hstt]
      simp
    rw [hv.captured p hp state hstt, ht]
    simp [ThreadPhase.previous, hdet]

lemma Ok.leave (hv : v.Ok) {previous : Flags} (ht : v.thread = .marked previous) :
    Ok { v with
      thread := .leaving previous
      freed := if !previous.external && previous.detached then .thread :: v.freed else v.freed } := by
  have hpub := hv.published_of_running (by simp [ht]) (by simp [ht])
  have hthr : v.thread ≠ .absent := by simp [ht]
  have hgone : v.thread.isGone = false := by rw [ht]; rfl
  have hext := (hv.previous previous (by rw [ht]; rfl)).1
  refine { hv with
    absent := iff_of_false nofun fun h => hthr (hv.absent.mpr h)
    unborn := nofun
    entering := fun h => by simp [hpub] at h
    alive := fun _ _ => hv.alive hthr hgone
    dead := nofun
    kept := fun _ => hv.kept hthr
    finished := by rw [hv.finished, ht]; rfl
    previous := fun state hstt => hv.previous state (by rw [ht]; exact hstt)
    captured := fun p hp state hstt => by rw [hv.captured p hp state hstt, ht]; rfl
    freed := ?_
    result := fun _ => hv.result (by rw [ht]; rfl)
    reaped := fun p hp h => by simp [hv.not_reaped hgone hp] at h }
  have hfrd := hv.freed
  rw [freer, if_neg (hv.present hthr), ht] at hfrd
  rw [freer, if_neg (hv.present hthr)]
  simp only [ThreadPhase.hasFreed, hext, Bool.not_false, Bool.true_and, Bool.false_eq_true, if_false] at hfrd ⊢
  split
  · next hdet =>
    rw [hfrd]
    split
    · next value hhold =>
      have := hv.reaped _ hhold rfl
      rw [hgone] at this
      cases this
    · next state success hhold =>
      have hstt := hv.captured _ hhold state rfl
      rw [ht] at hstt
      simp only [ThreadPhase.previous, any_some, hdet, Bool.not_true] at hstt
      rw [hstt, if_neg Bool.false_ne_true]
    · rfl
  · exact hfrd

/-- What `task_exit` leaves of the slot -/
def exitSlot (slot : Option Slot) : Option Slot :=
  slot.bind fun slot => if slot.joinable then some { slot with died := true } else none

lemma mem_exitSlot {slot : Option Slot} {slot' : Slot} (h : slot' ∈ exitSlot slot) :
    ∃ old ∈ slot, slot' = { old with died := true } := by
  obtain ⟨old, hold, h⟩ := Option.bind_eq_some_iff.mp h
  split at h
  · exact ⟨old, hold, (Option.some.inj h).symm⟩
  · cases h

lemma Ok.gone (hv : v.Ok) {previous : Flags} (ht : v.thread = .leaving previous) :
    Ok { v with
      thread := .gone previous
      slot := exitSlot v.slot } := by
  have hpub := hv.published_of_running (by simp [ht]) (by simp [ht])
  have hthr : v.thread ≠ .absent := by simp [ht]
  refine { hv with
    absent := iff_of_false nofun fun h => hthr (hv.absent.mpr h)
    unborn := nofun
    entering := fun h => by simp [hpub] at h
    created := fun tid generation hc => by
      rcases hv.published.mp hpub with h | h <;> rw [show v.creator = _ from hc] at h <;> cases h
    stored := fun hc => ⟨(hv.stored hc).1, fun slot' h => ?_⟩
    generation := fun slot' h => ?_
    alive := nofun
    dead := fun _ slot' h => ?_
    joinable := fun slot' h => ?_
    kept := fun _ hattr hasked hreaped => ?_
    finished := by rw [hv.finished, ht]; rfl
    previous := fun state hstt => hv.previous state (by rw [ht]; exact hstt)
    captured := fun p hp state hstt => by rw [hv.captured p hp state hstt, ht]; rfl
    freed := by rw [hv.freed]; simp [ht, ThreadPhase.hasFreed]
    result := fun _ => hv.result (by rw [ht]; rfl)
    reaped := fun _ _ _ => rfl }
  · obtain ⟨slot, hold, rfl⟩ := mem_exitSlot h
    exact (hv.stored hc).2 slot hold
  · obtain ⟨slot, hold, rfl⟩ := mem_exitSlot h
    exact hv.generation slot hold
  · obtain ⟨slot, hold, rfl⟩ := mem_exitSlot h
    rfl
  · obtain ⟨slot, hold, rfl⟩ := mem_exitSlot h
    exact hv.joinable slot hold
  · obtain ⟨slot, hold⟩ := isSome_iff_exists.mp (hv.kept hthr hattr hasked hreaped)
    have hjoin := hv.joinable slot hold
    rw [hattr, hasked] at hjoin
    show (exitSlot v.slot).isSome = true
    rw [exitSlot, hold, Option.bind_some, if_pos (by simpa using hjoin)]
    rfl

/-! ### The steps of the call that claims the handle -/

lemma Ok.unclaimed (hv : v.Ok) (htk : v.handle.state.taken = false) : v.attrDetached = false ∧ v.holder = none := by
  simp only [Flags.taken, Bool.or_eq_false_iff] at htk
  obtain ⟨⟨-, hdet⟩, hjoinin⟩ := htk
  rw [hv.detached, Bool.or_eq_false_iff] at hdet
  rw [hv.joining] at hjoinin
  refine ⟨hdet.1, Option.eq_none_iff_forall_ne_some.mpr fun p hp => ?_⟩
  have hcl := (hv.holder p hp).1
  rw [hp, any_some] at hdet hjoinin
  rw [CallPhase.claimed, hjoinin, hdet.2] at hcl
  cases hcl

lemma Ok.thread_ne (hv : v.Ok) (hpub : v.handle.published = true) : v.thread ≠ .absent := fun h => by
  have := hv.absent.mp h
  rcases hv.published.mp hpub with hc | hc <;> simp [hc] at this

lemma Ok.creator_ne (hv : v.Ok) (hpub : v.handle.published = true) : v.creator ≠ .failed :=
  hv.present (hv.thread_ne hpub)

lemma Ok.claim_join (hv : v.Ok) (hpub : v.handle.published = true) (htk : v.handle.state.taken = false) :
    Ok { v with
      handle := { v.handle with state := { v.handle.state with joining := true } }
      holder := some .joinClaimed } := by
  obtain ⟨hattr, hhold⟩ := hv.unclaimed htk
  have hdet := hv.detached
  rw [hattr, hhold] at hdet
  refine { hv with
    joinable := fun slot h => by rw [hv.joinable slot h, hhold]; rfl
    kept := fun h h' _ _ => hv.kept h h' (by rw [hhold]; rfl) (by rw [hhold]; rfl)
    request := by simp [CallPhase.request]
    holder := by simp [CallPhase.claimed, CallPhase.joins, CallPhase.granted]
    joining := rfl
    detached := by rw [hdet, hattr]; rfl
    sole := fun h => by rw [hattr] at h; cases h
    known := fun _ => hpub
    captured := by simp [CallPhase.captured]
    freed := by rw [hv.freed]; simp [hhold]
    reaped := by simp [CallPhase.reaped]
    read := by simp [CallPhase.value] }

lemma Ok.claim_detach (hv : v.Ok) (hpub : v.handle.published = true) (htk : v.handle.state.taken = false) :
    Ok { v with
      handle := { v.handle with state := { v.handle.state with detached := true } }
      holder := some (.detachClaimed v.handle.tid v.handle.generation v.handle.state) } := by
  obtain ⟨hattr, hhold⟩ := hv.unclaimed htk
  have hjoinin := hv.joining
  rw [hhold] at hjoinin
  refine { hv with
    joinable := fun slot h => by rw [hv.joinable slot h, hhold]; rfl
    kept := fun h h' _ _ => hv.kept h h' (by rw [hhold]; rfl) (by rw [hhold]; rfl)
    request := by simp [CallPhase.request]
    holder := by simp [CallPhase.claimed, CallPhase.captured, CallPhase.granted]
    joining := hjoinin
    detached := by simp [CallPhase.captured]
    sole := fun h => by rw [hattr] at h; cases h
    known := fun _ => hpub
    previous := fun state h => ⟨(hv.previous state h).1, fun _ => rfl, (hv.previous state h).2.2⟩
    captured := ?_
    freed := by rw [hv.freed]; simp [hhold]
    reaped := by simp [CallPhase.reaped]
    read := by simp [CallPhase.value] }
  rintro p ⟨⟩ state ⟨⟩
  simp only [Flags.taken, Bool.or_eq_false_iff] at htk
  rw [hv.finished]
  cases hprev : v.thread.previous with
  | none => rfl
  | some previous =>
    have hset := (hv.previous previous hprev).2.1
    rw [htk.1.2] at hset
    simpa using hset

lemma Ok.advance (hv : v.Ok) (p' : CallPhase) (freed : List Freer) {p : CallPhase} (hhold : v.holder = some p)
    (hjoins : p'.joins = p.joins) (hcapt : p'.captured = p.captured) (hasked : p'.asked = p.asked)
    (hreaped : p'.reaped = p.reaped)
    (hgran : p'.granted = true) (hreq : ∀ r ∈ p'.request, r = (v.handle.tid, v.handle.generation))
    (hval : ∀ x ∈ p'.value, x = v.value) (hfrd : freed = View.freer { v with holder := some p' }) :
    Ok { v with holder := some p', freed } := by
  refine { hv with
    joinable := fun slot h => by rw [hv.joinable slot h, hhold, any_some, any_some, hasked]
    kept := fun h h' h₁ h₂ => hv.kept h h' ?_ ?_
    request := by rintro q ⟨⟩; exact hreq
    holder := ?_
    joining := by rw [hv.joining, hhold, any_some, any_some, hjoins]
    detached := by rw [hv.detached, hhold, any_some, any_some, hcapt]
    sole := fun h => by have := hv.sole h; rw [hhold] at this; cases this
    known := fun _ => hv.known (by simp [hhold])
    captured := by rintro q ⟨⟩ state h; exact hv.captured p hhold state (hcapt ▸ h)
    freed := hfrd
    reaped := by rintro q ⟨⟩ h; exact hv.reaped p hhold (hreaped ▸ h)
    read := by rintro q ⟨⟩; exact hval }
  · rw [hhold, any_some, ← hasked]
    exact h₁
  · rw [hhold, any_some, ← hreaped]
    exact h₂
  · rintro q ⟨⟩
    refine ⟨?_, hgran⟩
    have hcl := (hv.holder p hhold).1
    rw [CallPhase.claimed] at hcl ⊢
    rwa [hjoins, hcapt]

lemma Ok.join_waits (hv : v.Ok) (hhold : v.holder = some .joinClaimed) :
    Ok { v with holder := some (.joinWaits v.handle.tid v.handle.generation) } :=
  hv.advance (.joinWaits v.handle.tid v.handle.generation) v.freed hhold rfl rfl rfl rfl rfl
    (by simp [CallPhase.request]) nofun (by rw [hv.freed]; simp [hhold])

lemma Ok.slot_of_request (hv : v.Ok) {p : CallPhase} {tid generation : ℕ} (hhold : v.holder = some p)
    (hreq : p.request = some (tid, generation)) (hasked : p.asked = false) (hreaped : p.reaped = false) :
    tid = v.task ∧ ∃ slot, v.slot = some slot ∧ slot.generation = generation ∧ generation ≠ 0 ∧ slot.joinable = true := by
  have hpub := hv.known (by simp [hhold])
  have hattr : v.attrDetached = false := Bool.eq_false_iff.mpr fun h => by
    rw [hv.sole h] at hhold
    cases hhold
  have hask : v.holder.any CallPhase.asked = false := by rw [hhold, any_some, hasked]
  have hreap : v.holder.any CallPhase.reaped = false := by rw [hhold, any_some, hreaped]
  obtain ⟨slot, hslot⟩ := isSome_iff_exists.mp (hv.kept (hv.thread_ne hpub) hattr hask hreap)
  obtain ⟨htid, hgen⟩ := hv.stored (.inr (hv.published.mp hpub))
  have hr := Prod.mk.inj (hv.request p hhold _ hreq)
  have hjoin := hv.joinable slot hslot
  rw [hattr, hask] at hjoin
  have heq := hgen slot hslot
  exact ⟨hr.1.trans htid, slot, hslot, heq.trans hr.2.symm, hr.2 ▸ heq ▸ hv.generation slot hslot, by simpa using hjoin⟩

lemma Ok.join_returns (hv : v.Ok) {tid generation : ℕ} (hhold : v.holder = some (.joinWaits tid generation)) {slot : Slot}
    (hslot : v.slot = some slot) (hdied : slot.died = true) : Ok { v with slot := none, holder := some .joinReturned } := by
  have hpub := hv.known (by simp [hhold])
  have hthr := hv.thread_ne hpub
  have hgone : v.thread.isGone = true := by
    by_contra h
    obtain ⟨slot', hslot', haliv⟩ := hv.alive hthr (by simpa using h)
    rw [hslot] at hslot'
    cases hslot'
    rw [hdied] at haliv
    cases haliv
  refine { hv with
    unborn := fun _ => rfl
    created := fun tid generation hc => ⟨(hv.created tid generation hc).1, nofun⟩
    stored := fun hc => ⟨(hv.stored hc).1, nofun⟩
    generation := nofun
    alive := fun _ h => absurd (hgone.symm.trans h) (by simp)
    dead := nofun
    joinable := nofun
    kept := fun _ _ _ h => by cases h
    request := by simp [CallPhase.request]
    holder := by simp [CallPhase.claimed, CallPhase.joins, CallPhase.granted]
    joining := by rw [hv.joining, hhold]; rfl
    detached := by rw [hv.detached, hhold]; rfl
    sole := fun h => by have := hv.sole h; rw [hhold] at this; cases this
    known := fun _ => hpub
    captured := by simp [CallPhase.captured]
    freed := by rw [hv.freed]; simp [hhold]
    reaped := fun _ _ _ => hgone
    read := by simp [CallPhase.value] }

lemma exited_of_isGone {phase : ThreadPhase} (h : phase.isGone = true) : phase.exited = true := by
  cases phase <;> first | rfl | cases h

lemma Ok.join_read (hv : v.Ok) (hhold : v.holder = some .joinReturned) {value : Option ℕ}
    (hval : ∀ x ∈ value, x = v.handle.result) : Ok { v with holder := some (.joinRead value) } := by
  refine hv.advance (.joinRead value) v.freed hhold rfl rfl rfl rfl rfl nofun (fun x hx => ?_)
    (by rw [hv.freed]; simp [hhold])
  rw [hval x hx, hv.result (exited_of_isGone (hv.reaped _ hhold rfl))]

lemma Ok.joined (hv : v.Ok) {value : Option ℕ} (hhold : v.holder = some (.joinRead value)) :
    Ok { v with holder := some (.joined value), freed := .joiner :: v.freed } := by
  refine hv.advance (.joined value) _ hhold rfl rfl rfl rfl rfl nofun (fun x hx => hv.read _ hhold x hx) ?_
  rw [hv.freed_holder hhold nofun nofun nofun, freer, if_neg (hv.creator_ne (hv.known (by simp [hhold]))),
    hv.not_hasFreed hhold nofun, if_neg Bool.false_ne_true]

lemma Ok.detach_asks (hv : v.Ok) {tid generation : ℕ} {state : Flags}
    (hhold : v.holder = some (.detachClaimed tid generation state)) {slot : Slot} (hslot : v.slot = some slot) :
    Ok { v with
      slot := if slot.died then none else some { slot with joinable := false }
      holder := some (.detachAnswered state true) } := by
  have hpub := hv.known (by simp [hhold])
  have hthr := hv.thread_ne hpub
  have hkept : ∀ slot' ∈ (if slot.died then none else some { slot with joinable := false } : Option Slot),
      slot' = { slot with joinable := false } ∧ slot.died = false := by
    intro slot' h
    split at h
    · cases h
    · next hdied => exact ⟨(Option.some.inj h).symm, by simpa using hdied⟩
  refine { hv with
    unborn := fun h => absurd h hthr
    created := fun tid generation hc => ⟨(hv.created tid generation hc).1, fun slot' h => ?_⟩
    stored := fun hc => ⟨(hv.stored hc).1, fun slot' h => ?_⟩
    generation := fun slot' h => ?_
    alive := fun _ haliv => ?_
    dead := fun hgone slot' h => ?_
    joinable := fun slot' h => ?_
    kept := fun _ _ h _ => by cases h
    request := by simp [CallPhase.request]
    holder := by simp [CallPhase.claimed, CallPhase.captured, CallPhase.granted]
    joining := by rw [hv.joining, hhold]; rfl
    detached := by rw [hv.detached, hhold]; rfl
    sole := fun h => by have := hv.sole h; rw [hhold] at this; cases this
    known := fun _ => hpub
    captured := ?_
    freed := by rw [hv.freed]; simp [hhold]
    reaped := by simp [CallPhase.reaped]
    read := by simp [CallPhase.value] }
  · rw [(hkept slot' h).1]
    exact (hv.created tid generation hc).2 slot hslot
  · rw [(hkept slot' h).1]
    exact (hv.stored hc).2 slot hslot
  · rw [(hkept slot' h).1]
    exact hv.generation slot hslot
  · obtain ⟨slot', hslot', hdied⟩ := hv.alive hthr haliv
    rw [hslot] at hslot'
    cases hslot'
    exact ⟨{ slot with joinable := false }, by rw [hdied]; rfl, hdied⟩
  · have := hv.dead hgone slot hslot
    rw [(hkept slot' h).2] at this
    cases this
  · rw [(hkept slot' h).1]
    simp [CallPhase.asked]
  · rintro p ⟨⟩ st hst
    exact hv.captured _ hhold st hst

lemma Ok.detach_returns (hv : v.Ok) {state : Flags} {success : Bool}
    (hhold : v.holder = some (.detachAnswered state success)) :
    Ok { v with
      holder := some (.detached state success)
      freed := if state.finished then .detacher :: v.freed else v.freed } := by
  have hcreat := hv.creator_ne (hv.known (by simp [hhold]))
  refine hv.advance (.detached state success) _ hhold rfl rfl rfl rfl (hv.holder _ hhold).2 nofun nofun ?_
  split
  · next hfin =>
    have hseen : ∀ st ∈ (CallPhase.detachAnswered state success).captured, st.finished = true := by
      rintro st ⟨⟩
      exact hfin
    rw [hv.freed_holder hhold hseen nofun nofun, freer, if_neg hcreat, hv.not_hasFreed hhold hseen,
      if_neg Bool.false_ne_true]
    exact (if_pos hfin).symm
  · next hfin =>
    rw [hv.freed]
    simp [hhold, hfin]

end View

end PlantOS.Libp.Thread
