import Mathlib.Data.List.Count
import PlantOS.Lib.Run

/-!
# The work list of the USB service

`usb_work_submit`, `usb_service_work`, `usb_cancel_task` and `usb_work_release` of `usb.c`, with the references that
`usb_storage.c` counts: `storage_io`, `storage_work_destroy`, `storage_detach` and `storage_release`. A step is the code
between two points at which another task can run; the kernel lock is held throughout.
-/

namespace PlantOS.Usb.Service

open Lib
open Function (update)

/-- `UINT32_MAX`, the `tid` of a work item whose submitter is gone -/
abbrev noTask : ℕ := 4294967295

/-- `usb_work_t.state` -/
inductive WorkState
  | queued | active | done
  deriving DecidableEq, Repr

/-- `usb_work_t` in a `usb_storage_work_t`, with the storage of its volume -/
structure Work where
  tid : ℕ
  generation : ℕ
  state : WorkState
  storage : ℕ
  deriving DecidableEq, Repr

inductive Phase
  | idle
  /-- in the loop of `usb_work_submit` -/
  | submits (w : ℕ)
  /-- the service task: `work->execute` in `usb_service_work` -/
  | serves (w : ℕ)
  /-- the service task: `work->execute` in `usb_work_submit` -/
  | executes (w : ℕ)
  /-- between the return of `usb_work_submit` and `usb_work_release` in `storage_io` -/
  | holds (w : ℕ)
  /-- `DIED`, still found by `get_task` -/
  | died
  /-- anywhere in its own code, while another task finishes it: `usb_cancel_task` has been called for it, and what
  `finish_task` releases then may sleep (`user_vm_lock`, `vfs_mapping_sync`) -/
  | cancelled (phase : Phase)
  deriving DecidableEq, Repr

namespace Phase

/-- Where the code of the task is -/
def here : Phase → Phase
  | .cancelled phase => phase.here
  | phase => phase

def goOn : Phase → Phase → Phase
  | .cancelled phase, next => .cancelled (phase.goOn next)
  | _, next => next

def isCancelled : Phase → Bool
  | .cancelled _ => true
  | _ => false

end Phase

structure Task where
  generation : ℕ
  phase : Phase
  deriving DecidableEq, Repr

/-- Work items and storages are numbered in the order of their allocation; `executed`, `destroyed` and `freed` count what
happened to them, and `fault` records a use of what is gone. -/
structure State where
  /-- `usb_work_list` -/
  list : List ℕ
  works : ℕ → Option Work
  created : ℕ
  tasks : ℕ → Option Task
  /-- `usb_storage_t.references` -/
  references : ℕ → Option ℕ
  /-- whether `interface->data` is the storage -/
  attached : ℕ → Bool
  storagesCreated : ℕ
  executed : ℕ → ℕ
  destroyed : ℕ → ℕ
  freed : ℕ → ℕ
  fault : Bool

namespace State

variable (s : State)

def count (f : ℕ → ℕ) (i : ℕ) : ℕ → ℕ := update f i (f i + 1)

def getTask (tid : ℕ) : Option Task := s.tasks tid

def setPhase (tid : ℕ) (phase : Phase) : State :=
  { s with tasks := update s.tasks tid ((s.tasks tid).map fun task => { task with phase := task.phase.goOn phase }) }

def position (tid : ℕ) : Option Phase := (s.tasks tid).map fun task => task.phase.here

/-- An assignment to a work item, which must still be there -/
def setWork (w : ℕ) (f : Work → Work) : State :=
  match s.works w with
  | none => { s with fault := true }
  | some work => { s with works := update s.works w (some (f work)) }

/-- `work->execute`: the item and its storage are used. -/
def use (w : ℕ) : State :=
  match (s.works w).bind fun work => s.references work.storage with
  | none => { s with fault := true }
  | some _ => s

/-! ### Storages -/

def storageRelease (storage : ℕ) : State :=
  match s.references storage with
  | none => { s with fault := true }
  | some n =>
    if n - 1 ≠ 0 then { s with references := update s.references storage (some (n - 1)) }
    else { s with references := update s.references storage none, freed := count s.freed storage }

/-- `usb_storage_bind` makes a storage. -/
def attach : State :=
  { s with
    references := update s.references s.storagesCreated (some 1)
    attached := update s.attached s.storagesCreated true
    storagesCreated := s.storagesCreated + 1 }

/-- `storage_detach` -/
def detach (storage : ℕ) : State :=
  ({ s with attached := update s.attached storage false }).storageRelease storage

/-! ### Work items -/

/-- `usb_work_release`, with `storage_work_destroy`; the walk through the list reads every item up to the one. -/
def workRelease (w : ℕ) : State :=
  match s.works w with
  | none => { s with fault := true }
  | some work =>
    { s with
      fault := s.fault || s.list.any fun v => (s.works v).isNone
      list := s.list.erase w
      works := update s.works w none
      destroyed := count s.destroyed w }.storageRelease work.storage

/-- One turn of the loop of `usb_cancel_task` -/
def cancelOne (tid generation w : ℕ) : State :=
  match s.works w with
  | none => { s with fault := true }
  | some work =>
    if work.tid = tid ∧ work.generation = generation then
      let s := s.setWork w fun work => { work with tid := noTask }
      if work.state ≠ .active then s.workRelease w else s
    else s

/-- The loop, over the items that the list had; `next` is read before an item is released. -/
def cancelLoop (tid generation : ℕ) : List ℕ → State → State
  | [], s => s
  | w :: rest, s => cancelLoop tid generation rest (s.cancelOne tid generation w)

def usbCancelTask (tid generation : ℕ) : State := cancelLoop tid generation s.list s

/-- `storage_io` up to the wait of `usb_work_submit` -/
def submit (serviceTid tid : ℕ) (generation storage : ℕ) : State :=
  let w := s.created
  let s' : State :=
    { s with
      fault := s.fault || (s.references storage).isNone || s.list.any fun v => (s.works v).isNone
      references := update s.references storage ((s.references storage).map (· + 1))
      works := update s.works w (some ⟨tid, generation, .queued, storage⟩)
      created := w + 1
      list := s.list ++ [w] }
  if tid = serviceTid then
    (({ (s'.setWork w fun work => { work with state := .active }) with
      executed := count s.executed w }).use w).setPhase tid (.executes w)
  else s'.setPhase tid (.submits w)

def firstQueued : Option ℕ := s.list.find? fun w => (s.works w).any fun work => work.state = .queued

/-- `usb_service_work` up to `work->execute` -/
def serviceStart (serviceTid : ℕ) : State :=
  let s' := { s with fault := s.fault || s.list.any fun v => (s.works v).isNone }
  match s.firstQueued with
  | none => s'
  | some w =>
    (({ (s'.setWork w fun work => { work with state := .active }) with
      executed := count s.executed w }).use w).setPhase serviceTid (.serves w)

/-- The rest of `usb_service_work` -/
def serviceFinish (serviceTid w : ℕ) : State :=
  match s.works w with
  | none => { s with fault := true }
  | some work =>
    let s := (s.setWork w fun work => { work with state := .done }).setPhase serviceTid .idle
    match s.getTask work.tid with
    | none => s.workRelease w
    | some waiter => if waiter.generation = work.generation then s else s.workRelease w

end State

/-! ### Events -/

/-- Tasks, storages and `storage_io`, and what the service task does. `finish_task` begins and ends, of a task that
another one kills, and of a task that exits, whose code from then on is that of its own release. -/
inductive Event
  | spawn (tid generation : ℕ)
  | reap (tid : ℕ)
  | attach
  | detach (storage : ℕ)
  | submit (tid storage : ℕ)
  | resume (tid : ℕ)
  | release (tid : ℕ)
  | serve
  | work
  | finish
  | kill (tid : ℕ)
  | killed (tid : ℕ) (zombie : Bool)
  | exit (tid : ℕ)
  | exited (tid : ℕ) (zombie : Bool)
  deriving DecidableEq, Repr

/-- The slot at the end of `finish_task`: the task is `DIED`, or its slot is free. -/
def ended (generation : ℕ) (zombie : Bool) : Option Task := if zombie then some ⟨generation, .died⟩ else none

/-- One step, `none` where the event cannot happen; the service task does not end. -/
def step (serviceTid : ℕ) (s : State) : Event → Option State
  | .spawn tid generation =>
    if s.tasks tid = none ∧ tid < noTask then
      some { s with tasks := update s.tasks tid (some ⟨generation, .idle⟩) }
    else none
  | .reap tid =>
    match s.tasks tid with
    | some ⟨_, .died⟩ => some { s with tasks := update s.tasks tid none }
    | _ => none
  | .attach => some s.attach
  | .detach storage => if s.attached storage then some (s.detach storage) else none
  | .submit tid storage =>
    match s.tasks tid with
    | some task =>
      if task.phase.here = .idle ∧ s.attached storage then some (s.submit serviceTid tid task.generation storage) else none
    | none => none
  | .resume tid =>
    match s.position tid with
    | some (.submits w) =>
      match s.works w with
      | none => some { s with fault := true }
      | some work => some (if work.state = .done then s.setPhase tid (.holds w) else s)
    | _ => none
  | .serve =>
    match s.tasks serviceTid with
    | some ⟨_, .idle⟩ => some (s.serviceStart serviceTid)
    | _ => none
  | .work =>
    match s.tasks serviceTid with
    | some ⟨_, .serves w⟩ => some (s.use w)
    | some ⟨_, .executes w⟩ => some (s.use w)
    | _ => none
  | .finish =>
    match s.tasks serviceTid with
    | some ⟨_, .serves w⟩ => some (s.serviceFinish serviceTid w)
    | some ⟨_, .executes w⟩ =>
      some ((s.setWork w fun work => { work with state := .done }).setPhase serviceTid (.holds w))
    | _ => none
  | .release tid =>
    match s.position tid with
    | some (.holds w) => some ((s.workRelease w).setPhase tid .idle)
    | _ => none
  | .kill tid =>
    match s.tasks tid with
    | none => none
    | some task =>
      if tid = serviceTid ∨ task.phase = .died then none
      else
        let s := s.usbCancelTask tid task.generation
        some { s with tasks := update s.tasks tid (some { task with phase := .cancelled task.phase }) }
  | .exit tid =>
    match s.tasks tid with
    | none => none
    | some task =>
      if tid = serviceTid ∨ task.phase = .died then none
      else
        let s := s.usbCancelTask tid task.generation
        some { s with tasks := update s.tasks tid (some { task with phase := task.phase.goOn .idle }) }
  | .killed tid zombie =>
    match s.tasks tid with
    | some ⟨generation, .cancelled _⟩ => some { s with tasks := update s.tasks tid (ended generation zombie) }
    | _ => none
  | .exited tid zombie =>
    match s.tasks tid with
    | some task =>
      if tid ≠ serviceTid ∧ task.phase.here = .idle then
        some { s with tasks := update s.tasks tid (ended task.generation zombie) }
      else none
    | none => none

structure Init (serviceTid : ℕ) (s : State) : Prop where
  service : serviceTid < noTask ∧ ∃ generation, s.tasks serviceTid = some ⟨generation, .idle⟩
  others : ∀ tid task, s.tasks tid = some task → tid < noTask ∧ task.phase = .idle
  list : s.list = []
  works : s.works = fun _ => none
  created : s.created = 0
  references : s.references = fun _ => none
  attached : s.attached = fun _ => false
  storagesCreated : s.storagesCreated = 0
  executed : s.executed = fun _ => 0
  destroyed : s.destroyed = fun _ => 0
  freed : s.freed = fun _ => 0
  fault : s.fault = false

def system (serviceTid : ℕ) : System State Event where
  init := Init serviceTid
  step := step serviceTid

/-! ## Who owns a work item -/

open Function (update_of_ne update_self)

/-! ### What the parts of a step leave -/

namespace State

variable {s : State} {w tid storage : ℕ}

@[simp] lemma setPhase_list (phase : Phase) : (s.setPhase tid phase).list = s.list := rfl
@[simp] lemma setPhase_works (phase : Phase) : (s.setPhase tid phase).works = s.works := rfl
@[simp] lemma setPhase_created (phase : Phase) : (s.setPhase tid phase).created = s.created := rfl
@[simp] lemma setPhase_executed (phase : Phase) : (s.setPhase tid phase).executed = s.executed := rfl
@[simp] lemma setPhase_destroyed (phase : Phase) : (s.setPhase tid phase).destroyed = s.destroyed := rfl
@[simp] lemma setPhase_fault (phase : Phase) : (s.setPhase tid phase).fault = s.fault := rfl

lemma setPhase_tasks {t : Task} (h : s.tasks tid = some t) (phase : Phase) (ht : t.phase.goOn phase = phase) :
    (s.setPhase tid phase).tasks = update s.tasks tid (some { t with phase := phase }) := by
  unfold setPhase
  rw [h, Option.map_some, ht]

lemma setWork_eq {a : Work} (h : s.works w = some a) (f : Work → Work) :
    s.setWork w f = { s with works := update s.works w (some (f a)) } := by
  unfold setWork
  rw [h]

lemma use_eq {work : Work} {n : ℕ} (h : s.works w = some work) (hn : s.references work.storage = some n) :
    s.use w = s := by
  unfold use
  rw [h, Option.bind_some, hn]

section Release

variable {α : Type} (f : State → α)

lemma storageRelease_field (hfld : ∀ (t : State) references freed fault,
    f { t with references := references, freed := freed, fault := fault } = f t) : f (s.storageRelease storage) = f s := by
  unfold storageRelease
  cases s.references storage with
  | none => exact hfld s s.references s.freed true
  | some n =>
    dsimp only
    by_cases hn : n - 1 ≠ 0
    · rw [if_pos hn]
      exact hfld s _ s.freed s.fault
    · rw [if_neg hn]
      exact hfld s _ _ s.fault

end Release

@[simp] lemma storageRelease_list : (s.storageRelease storage).list = s.list :=
  storageRelease_field State.list fun _ _ _ _ => rfl
@[simp] lemma storageRelease_works : (s.storageRelease storage).works = s.works :=
  storageRelease_field State.works fun _ _ _ _ => rfl
@[simp] lemma storageRelease_created : (s.storageRelease storage).created = s.created :=
  storageRelease_field State.created fun _ _ _ _ => rfl
@[simp] lemma storageRelease_tasks : (s.storageRelease storage).tasks = s.tasks :=
  storageRelease_field State.tasks fun _ _ _ _ => rfl
@[simp] lemma storageRelease_attached : (s.storageRelease storage).attached = s.attached :=
  storageRelease_field State.attached fun _ _ _ _ => rfl
@[simp] lemma storageRelease_storagesCreated : (s.storageRelease storage).storagesCreated = s.storagesCreated :=
  storageRelease_field State.storagesCreated fun _ _ _ _ => rfl
@[simp] lemma storageRelease_executed : (s.storageRelease storage).executed = s.executed :=
  storageRelease_field State.executed fun _ _ _ _ => rfl
@[simp] lemma storageRelease_destroyed : (s.storageRelease storage).destroyed = s.destroyed :=
  storageRelease_field State.destroyed fun _ _ _ _ => rfl

end State

open State

/-! ### References -/

/-- The interface and the items that refer to a storage, with one that is still to be given back -/
def users (s : State) (owed : Option ℕ) (storage : ℕ) : ℕ :=
  (s.attached storage).toNat + s.list.countP (fun w => (s.works w).any fun work => work.storage = storage) +
    if owed = some storage then 1 else 0

/-- Every reference is counted, and what nobody refers to has been freed, once. -/
structure Counted (owed : Option ℕ) (s : State) : Prop where
  known : ∀ storage, s.attached storage = true → storage < s.storagesCreated
  refers : ∀ w work, s.works w = some work → work.storage < s.storagesCreated
  references : ∀ storage, s.references storage =
    if storage < s.storagesCreated ∧ users s owed storage ≠ 0 then some (users s owed storage) else none
  freed : ∀ storage, s.freed storage = if storage < s.storagesCreated ∧ users s owed storage = 0 then 1 else 0

lemma Counted.congr {owed : Option ℕ} {s s' : State} (h : Counted owed s) (hlist : s'.list = s.list)
    (hwor : ∀ w, (s'.works w).map Work.storage = (s.works w).map Work.storage) (hatt : s'.attached = s.attached)
    (hcr : s'.storagesCreated = s.storagesCreated) (hrefs : s'.references = s.references)
    (hfrd : s'.freed = s.freed) : Counted owed s' := by
  have hany : ∀ w storage, ((s'.works w).any fun work => work.storage = storage) =
      (s.works w).any fun work => work.storage = storage := by
    intro w storage
    have hw := congrArg (Option.any fun n => decide (n = storage)) (hwor w)
    rwa [Option.any_map, Option.any_map] at hw
  have hus : ∀ storage, users s' owed storage = users s owed storage := by
    intro storage
    unfold users
    rw [hlist, hatt]
    simp only [hany]
  refine ⟨?_, ?_, ?_, ?_⟩
  · rw [hatt, hcr]
    exact h.known
  · intro w work hwork
    have hw := hwor w
    rw [hwork, Option.map_some] at hw
    obtain ⟨work', hwork', hstor⟩ := Option.map_eq_some_iff.mp hw.symm
    rw [hcr, ← hstor]
    exact h.refers w work' hwork'
  · intro storage
    rw [hrefs, hcr, hus]
    exact h.references storage
  · intro storage
    rw [hfrd, hcr, hus]
    exact h.freed storage

/-- **A reference is given back**: the last one frees the storage. -/
theorem Counted.release {s : State} {storage : ℕ} (h : Counted (some storage) s) (hkn : storage < s.storagesCreated) :
    Counted none (s.storageRelease storage) ∧ (s.storageRelease storage).fault = s.fault := by
  have hself : users s (some storage) storage = users s none storage + 1 := by simp [users]
  have hoth : ∀ other, other ≠ storage → users s (some storage) other = users s none other := by
    intro other hne
    have : storage ≠ other := fun heq => hne heq.symm
    simp [users, this]
  have href := h.references storage
  rw [if_pos ⟨hkn, by omega⟩, hself] at href
  have hus : ∀ other, users (s.storageRelease storage) none other = users s none other := by
    intro other
    simp [users]
  have hfiel : (s.storageRelease storage).references = update s.references storage
        (if users s none storage ≠ 0 then some (users s none storage) else none) ∧
      (s.storageRelease storage).freed =
        (if users s none storage ≠ 0 then s.freed else State.count s.freed storage) ∧
      (s.storageRelease storage).fault = s.fault := by
    unfold State.storageRelease
    rw [href]
    dsimp only
    rw [Nat.add_sub_cancel]
    by_cases hn : users s none storage ≠ 0
    · simp [hn]
    · simp [hn]
  obtain ⟨hrefs, hfrd, hflt⟩ := hfiel
  refine ⟨⟨?_, ?_, ?_, ?_⟩, hflt⟩
  · simpa using h.known
  · simpa using h.refers
  · intro other
    rw [hrefs, hus, State.storageRelease_storagesCreated]
    by_cases hne : other = storage
    · rw [hne, update_self]
      simp [hkn]
    · rw [update_of_ne hne, h.references, hoth other hne]
  · intro other
    have hold := h.freed other
    rw [hfrd, hus, State.storageRelease_storagesCreated]
    by_cases hne : other = storage
    · rw [hne] at hold ⊢
      rw [if_neg (by omega)] at hold
      by_cases hn : users s none storage ≠ 0
      · rw [if_pos hn, hold, if_neg fun hcase => hn hcase.2]
      · rw [if_neg hn, State.count, update_self, hold, if_pos ⟨hkn, not_not.mp hn⟩]
    · rw [hoth other hne] at hold
      rw [← hold]
      by_cases hn : users s none storage ≠ 0
      · rw [if_pos hn]
      · rw [if_neg hn, State.count, update_of_ne hne]

/-- **An item is released**: it leaves the list, and its storage loses a reference. -/
theorem Counted.workRelease {s : State} {w : ℕ} {a : Work} (h : Counted none s) (hwork : s.works w = some a)
    (hnd : s.list.Nodup) (hmem : ∀ v, v ∈ s.list ↔ (s.works v).isSome = true) :
    Counted none (s.workRelease w) ∧ (s.workRelease w).fault = s.fault ∧ (s.workRelease w).list = s.list.erase w ∧
      (s.workRelease w).works = update s.works w none ∧ (s.workRelease w).created = s.created ∧
      (s.workRelease w).tasks = s.tasks ∧ (s.workRelease w).executed = s.executed ∧
      (s.workRelease w).destroyed = State.count s.destroyed w := by
  have hall : (s.list.any fun v => (s.works v).isNone) = false := by
    rw [List.any_eq_false]
    intro v hv
    have hsome := (hmem v).mp hv
    cases hwor : s.works v with
    | none => simp [hwor] at hsome
    | some work => simp
  have hw : w ∈ s.list := (hmem w).mpr (by rw [hwork]; rfl)
  -- the item is gone, its reference is owed
  have howed : Counted (some a.storage) { s with
      fault := s.fault || s.list.any fun v => (s.works v).isNone
      list := s.list.erase w
      works := update s.works w none
      destroyed := State.count s.destroyed w } := by
    have heras : ∀ v ∈ s.list.erase w, update s.works w none v = s.works v := by
      intro v hv
      have hne : v ≠ w := fun heq => hnd.not_mem_erase (heq ▸ hv)
      exact update_of_ne hne _ _
    have hus : ∀ storage, users { s with
        fault := s.fault || s.list.any fun v => (s.works v).isNone
        list := s.list.erase w
        works := update s.works w none
        destroyed := State.count s.destroyed w } (some a.storage) storage = users s none storage := by
      intro storage
      have hcnt : (s.list.erase w).countP
            (fun v => (update s.works w none v).any fun work => work.storage = storage) =
          (s.list.erase w).countP fun v => (s.works v).any fun work => work.storage = storage :=
        List.countP_congr fun v hv => by rw [heras v hv]
      have hperm := (List.perm_cons_erase hw).countP_eq fun v => (s.works v).any fun work => work.storage = storage
      rw [List.countP_cons, hwork] at hperm
      simp only [users, hcnt, hperm]
      simp
      omega
    refine ⟨h.known, ?_, fun storage => ?_, fun storage => ?_⟩
    · intro v other hoth
      by_cases hne : v = w
      · rw [hne] at hoth
        simp at hoth
      · exact h.refers v other (by simpa [hne] using hoth)
    · rw [hus]
      exact h.references storage
    · rw [hus]
      exact h.freed storage
  have hrel := howed.release (h.refers w a hwork)
  unfold State.workRelease
  rw [hwork]
  dsimp only
  refine ⟨hrel.1, ?_, by simp, by simp, by simp, by simp, by simp, by simp⟩
  rw [hrel.2]
  dsimp only
  rw [hall, Bool.or_false]

/-! ## Every item is somebody's -/

open Lib State

def Phase.about : Phase → Option ℕ
  | .submits w | .serves w | .executes w | .holds w => some w
  | .idle | .died | .cancelled _ => none

variable {S : ℕ} {s s' : State}

def Serving (S : ℕ) (s : State) (w : ℕ) : Prop := ∃ generation, s.tasks S = some ⟨generation, .serves w⟩

/-- Who has an item: its submitter, or only the service task -/
def Owned (S : ℕ) (s : State) (w : ℕ) (work : Work) : Prop :=
  (work.tid = noTask ∧ work.state = .active ∧ Serving S s w) ∨
  (work.tid ≠ noTask ∧ ∃ phase, s.tasks work.tid = some ⟨work.generation, phase⟩ ∧
    ((phase = .submits w ∧ work.tid ≠ S ∧ (work.state = .active → Serving S s w)) ∨
      (phase = .executes w ∧ work.tid = S ∧ work.state = .active) ∨ (phase = .holds w ∧ work.state = .done)))

def Relies (S : ℕ) (s : State) (tid : ℕ) (task : Task) : Prop :=
  match task.phase with
  | .submits w | .executes w | .holds w => ∃ work, s.works w = some work ∧ work.tid = tid
  | .serves w => tid = S ∧ ∃ work, s.works w = some work ∧ work.state = .active
  | .idle | .died | .cancelled _ => True

def Counts (s : State) (w : ℕ) : Prop :=
  match s.works w with
  | some work => w < s.created ∧ s.destroyed w = 0 ∧ s.executed w = if work.state = .queued then 0 else 1
  | none => s.destroyed w = (if w < s.created then 1 else 0) ∧ s.executed w ≤ 1 ∧ (s.created ≤ w → s.executed w = 0)

structure Inv (S : ℕ) (s : State) : Prop where
  nodup : s.list.Nodup
  mem : ∀ w, w ∈ s.list ↔ (s.works w).isSome = true
  counts : ∀ w, Counts s w
  owned : ∀ w work, s.works w = some work → Owned S s w work
  tid : ∀ tid task, s.tasks tid = some task → tid ≠ noTask
  relies : ∀ tid task, s.tasks tid = some task → Relies S s tid task

lemma Counts.live {w : ℕ} {work : Work} (h : Counts s w) (hwork : s.works w = some work) :
    w < s.created ∧ s.destroyed w = 0 ∧ s.executed w = if work.state = .queued then 0 else 1 := by
  unfold Counts at h
  rwa [hwork] at h

lemma Counts.of_live {w : ℕ} {work : Work} (hwork : s.works w = some work) (hcr : w < s.created)
    (hdest : s.destroyed w = 0) (hexec : s.executed w = if work.state = .queued then 0 else 1) : Counts s w := by
  unfold Counts
  rw [hwork]
  exact ⟨hcr, hdest, hexec⟩

lemma Counts.gone {w : ℕ} (h : Counts s w) (hwork : s.works w = none) :
    s.destroyed w = (if w < s.created then 1 else 0) ∧ s.executed w ≤ 1 ∧ (s.created ≤ w → s.executed w = 0) := by
  unfold Counts at h
  rwa [hwork] at h

lemma Counts.of_gone {w : ℕ} (hwork : s.works w = none)
    (h : s.destroyed w = (if w < s.created then 1 else 0) ∧ s.executed w ≤ 1 ∧ (s.created ≤ w → s.executed w = 0)) :
    Counts s w := by
  unfold Counts
  rwa [hwork]

def Free (w : ℕ) (task : Task) : Prop := task.phase.about = none ∨ task.phase.about = some w

/-- Only tasks that are concerned with the item, or with none, change. -/
def Touches (w : ℕ) (tasks tasks' : ℕ → Option Task) : Prop :=
  ∀ tid, tasks' tid = tasks tid ∨
    ((∀ task, tasks tid = some task → Free w task) ∧ ∀ task, tasks' tid = some task → tid ≠ noTask ∧ Free w task)

lemma Touches.update {w tid : ℕ} {tasks : ℕ → Option Task} {new : Option Task}
    (hold : ∀ task, tasks tid = some task → Free w task) (hnew : ∀ task, new = some task → tid ≠ noTask ∧ Free w task) :
    Touches w tasks (Function.update tasks tid new) := by
  intro other
  by_cases hne : other = tid
  · subst hne
    rw [update_self]
    exact .inr ⟨hold, hnew⟩
  · exact .inl (update_of_ne hne _ _)

/-- A task goes on to another phase. -/
lemma Touches.phase {w tid generation : ℕ} {tasks : ℕ → Option Task} {phase phase' : Phase}
    (htsk : tasks tid = some ⟨generation, phase⟩) (htid : tid ≠ noTask) (hold : Free w ⟨generation, phase⟩)
    (hnew : Free w ⟨generation, phase'⟩) : Touches w tasks (Function.update tasks tid (some ⟨generation, phase'⟩)) := by
  refine .update ?_ ?_
  · intro task hsame
    cases htsk.symm.trans hsame
    exact hold
  · rintro _ ⟨⟩
    exact ⟨htid, hnew⟩

/-- **One item changes hands.** A step that changes one item, and only tasks that are concerned with that item or with
none, has to be looked at for that item only. -/
theorem Inv.change (h : Inv S s) {w : ℕ} (hnd : s'.list.Nodup) (hmem : ∀ v, v ∈ s'.list ↔ (s'.works v).isSome = true)
    (hwor : ∀ v, v ≠ w → s'.works v = s.works v) (hcnts : ∀ v, v ≠ w → Counts s v → Counts s' v)
    (hcnt : Counts s' w) (howd : ∀ work, s'.works w = some work → Owned S s' w work)
    (htas : Touches w s.tasks s'.tasks)
    (hrel : ∀ tid task, s'.tasks tid = some task → task.phase.about = some w → Relies S s' tid task) : Inv S s' := by
  have hnew : ∀ tid task, s'.tasks tid = some task → tid ≠ noTask ∧ (s.tasks tid = some task ∨ Free w task) := by
    intro tid task htsk
    rcases htas tid with hsame | ⟨_, hfree⟩
    · rw [hsame] at htsk
      exact ⟨h.tid tid task htsk, .inl htsk⟩
    · exact ⟨(hfree task htsk).1, .inr (hfree task htsk).2⟩
  -- a task that is concerned with another item is unchanged
  have hkept : ∀ tid task v, v ≠ w → s.tasks tid = some task → task.phase.about = some v → s'.tasks tid = some task := by
    intro tid task v hv htsk hab
    rcases htas tid with hsame | ⟨hold, _⟩
    · exact hsame.trans htsk
    · rcases hold task htsk with hnone | hsome
      · rw [hnone] at hab
        cases hab
      · rw [hsome] at hab
        exact absurd (Option.some.inj hab).symm hv
  refine ⟨hnd, hmem, ?_, ?_, fun tid task htsk => (hnew tid task htsk).1, ?_⟩
  · intro v
    by_cases hv : v = w
    · exact hv ▸ hcnt
    · exact hcnts v hv (h.counts v)
  · intro v work hwork
    by_cases hv : v = w
    · subst hv
      exact howd work hwork
    rw [hwor v hv] at hwork
    have hser : Serving S s v → Serving S s' v := fun ⟨generation, hS⟩ => ⟨generation, hkept S _ v hv hS rfl⟩
    rcases h.owned v work hwork with ⟨htid, hst, hserv⟩ | ⟨htid, phase, htsk, hph⟩
    · exact .inl ⟨htid, hst, hser hserv⟩
    · refine .inr ⟨htid, phase, ?_, ?_⟩
      · refine hkept _ _ v hv htsk ?_
        rcases hph with ⟨hp, _⟩ | ⟨hp, _⟩ | ⟨hp, _⟩ <;> simp [hp, Phase.about]
      · rcases hph with ⟨hp, hne, hact⟩ | hph
        · exact .inl ⟨hp, hne, fun hst => hser (hact hst)⟩
        · exact .inr hph
  · intro tid task htsk
    by_cases hab : task.phase.about = some w
    · exact hrel tid task htsk hab
    rcases (hnew tid task htsk).2 with hsame | hnone | hsome
    · have hrely := h.relies tid task hsame
      unfold Relies at hrely ⊢
      cases hph : task.phase with
      | idle | died | cancelled _ => trivial
      | submits v | executes v | holds v | serves v =>
        rw [hph] at hrely hab
        have hv : v ≠ w := fun heq => hab (by rw [heq]; rfl)
        simpa only [hwor v hv] using hrely
    · unfold Relies
      cases hph : task.phase with
      | idle | died | cancelled _ => trivial
      | submits v | executes v | holds v | serves v =>
        rw [hph] at hnone
        cases hnone
    · exact absurd hsome hab

lemma Inv.tasks (h : Inv S s) {tid : ℕ} {new : Option Task}
    (hold : ∀ task, s.tasks tid = some task → task.phase.about = none)
    (hnew : ∀ task, new = some task → tid ≠ noTask ∧ task.phase.about = none) :
    Inv S { s with tasks := Function.update s.tasks tid new } := by
  have hnone : ∀ work, s.works s.created ≠ some work := fun work hwork =>
    absurd ((h.counts _).live hwork).1 (Nat.lt_irrefl _)
  refine h.change (w := s.created) h.nodup h.mem (fun _ _ => rfl) (fun _ _ hv => hv) (h.counts _)
    (fun work hwork => absurd hwork (hnone work))
    (Touches.update (fun task htsk => .inl (hold task htsk)) fun task htsk =>
      ⟨(hnew task htsk).1, .inl (hnew task htsk).2⟩) ?_
  intro other task htsk hab
  rcases update_cases htsk with ⟨-, htsk⟩ | ⟨-, htsk⟩
  · exact absurd ((hnew task htsk).2.symm.trans hab) nofun
  · exact h.relies other task htsk

/-- An item whose submitter lives is with it. -/
lemma Inv.owner (h : Inv S s) {w tid : ℕ} {work : Work} {task : Task} (hwork : s.works w = some work)
    (htsk : s.tasks tid = some task) (htid : work.tid = tid) : task.generation = work.generation ∧
      ((task.phase = .submits w ∧ work.tid ≠ S ∧ (work.state = .active → Serving S s w)) ∨
        (task.phase = .executes w ∧ work.tid = S ∧ work.state = .active) ∨
        (task.phase = .holds w ∧ work.state = .done)) := by
  rcases h.owned w work hwork with ⟨hnone, _⟩ | ⟨_, phase, hown, hcas⟩
  · exact absurd (htid ▸ hnone) (h.tid tid _ htsk)
  · rw [htid, htsk] at hown
    cases hown
    exact ⟨rfl, hcas⟩

/-- The item of a task that holds it is done. -/
lemma Inv.held (h : Inv S s) {w tid generation : ℕ} {work : Work} (hwork : s.works w = some work)
    (htsk : s.tasks tid = some ⟨generation, .holds w⟩) (htid : work.tid = tid) : work.state = .done := by
  rcases (h.owner hwork htsk htid).2 with ⟨hp, _⟩ | ⟨hp, _⟩ | ⟨_, hdone⟩
  · cases hp
  · cases hp
  · exact hdone

lemma Inv.about (h : Inv S s) {w tid : ℕ} {work : Work} {task : Task} (hwork : s.works w = some work)
    (htsk : s.tasks tid = some task) (hab : task.phase.about = some w) :
    (tid = work.tid ∧ task.phase ≠ .serves w) ∨ (tid = S ∧ task.phase = .serves w ∧ work.state = .active) := by
  have hrely := h.relies tid task htsk
  unfold Relies at hrely
  cases hph : task.phase with
  | idle | died | cancelled _ =>
    rw [hph] at hab
    cases hab
  | submits v | executes v | holds v =>
    rw [hph] at hrely hab
    cases hab
    obtain ⟨other, hoth, htid⟩ := hrely
    rw [hwork] at hoth
    cases hoth
    exact .inl ⟨htid.symm, fun hserv => by cases hserv⟩
  | serves v =>
    rw [hph] at hrely hab
    cases hab
    obtain ⟨htid, other, hoth, hact⟩ := hrely
    rw [hwork] at hoth
    cases hoth
    exact .inr ⟨htid, rfl, hact⟩

/-- **An item is released** when nobody is concerned with it any more. -/
theorem Inv.remove (h : Inv S s) {w : ℕ} {work : Work} (hwork : s.works w = some work)
    (hlist : s'.list = s.list.erase w) (hwor : s'.works = Function.update s.works w none)
    (hcr : s'.created = s.created) (hexec : s'.executed = s.executed)
    (hdest : s'.destroyed = State.count s.destroyed w) (htas : Touches w s.tasks s'.tasks)
    (hgone : ∀ tid task, s'.tasks tid = some task → task.phase.about ≠ some w) : Inv S s' := by
  refine h.change (w := w) ?_ ?_ ?_ ?_ ?_ ?_ htas ?_
  · rw [hlist]
    exact h.nodup.erase w
  · intro v
    rw [hlist, hwor, h.nodup.mem_erase_iff, h.mem v]
    by_cases hv : v = w
    · simp [hv]
    · simp [hv]
  · intro v hv
    rw [hwor]
    exact update_of_ne hv _ _
  · intro v hv hcnts
    unfold Counts at hcnts ⊢
    rw [hwor, update_of_ne hv, hcr, hexec, hdest, State.count, update_of_ne hv]
    exact hcnts
  · obtain ⟨hlt, hzero, hone⟩ := (h.counts w).live hwork
    refine Counts.of_gone (by rw [hwor, update_self]) ?_
    rw [hcr, hexec, hdest, State.count, update_self, hzero, hone, if_pos hlt]
    refine ⟨rfl, ?_, fun hle => absurd hlt (Nat.not_lt.mpr hle)⟩
    by_cases hqud : work.state = .queued
    · exact Nat.le_trans (Nat.le_of_eq (if_pos hqud)) (Nat.zero_le 1)
    · exact Nat.le_of_eq (if_neg hqud)
  · intro other hoth
    rw [hwor, update_self] at hoth
    cases hoth
  · intro tid task htsk hab
    exact absurd hab (hgone tid task htsk)

/-- **An item stays**, in another state or with another task. -/
theorem Inv.keep (h : Inv S s) {w : ℕ} {work a : Work} (hwork : s.works w = some work)
    (hlist : s'.list = s.list) (hwor : s'.works = Function.update s.works w (some a))
    (hcr : s'.created = s.created) (hdest : s'.destroyed = s.destroyed)
    (hexec : ∀ v, v ≠ w → s'.executed v = s.executed v)
    (hself : s'.executed w = if a.state = .queued then 0 else 1) (htas : Touches w s.tasks s'.tasks)
    (howd : Owned S s' w a)
    (hrel : ∀ tid task, s'.tasks tid = some task → task.phase.about = some w → Relies S s' tid task) : Inv S s' := by
  have hnew : s'.works w = some a := by rw [hwor, update_self]
  refine h.change (w := w) ?_ ?_ ?_ ?_ ?_ ?_ htas hrel
  · rw [hlist]
    exact h.nodup
  · intro v
    rw [hlist, h.mem v, hwor]
    by_cases hv : v = w
    · simp [hv, hwork]
    · simp [hv]
  · intro v hv
    rw [hwor]
    exact update_of_ne hv _ _
  · intro v hv hcnts
    unfold Counts at hcnts ⊢
    rw [hwor, update_of_ne hv, hcr, hdest, hexec v hv]
    exact hcnts
  · obtain ⟨hlt, hzero, _⟩ := (h.counts w).live hwork
    exact Counts.of_live hnew (hcr ▸ hlt) (by rw [hdest, hzero]) hself
  · intro other hoth
    rw [hnew] at hoth
    exact Option.some.inj hoth ▸ howd

end PlantOS.Usb.Service
