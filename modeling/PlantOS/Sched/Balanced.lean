import PlantOS.Sched.Queues

/-!
# What the operations on tasks do to the lists

The functions that change a task, its slot or its life cycle leave the lists of runnable tasks in order. A task that
`finish_task` ends is out of the lists in between, and whatever is woken meanwhile is another task.
-/

namespace PlantOS.Sched

open PlantOS.Task (STATE taskIdNone reaperTid taskKilledStatus)

namespace Kernel

variable {k k' : Kernel} {out : Set ℕ} {r : Option ℕ} {t u c : ℕ} {f : Mtask → Mtask} {g : SchedulerCpu → SchedulerCpu}

/-! ### The registry stays as large as it is -/

@[simp] lemma schedulerRemove_slotCount : (k.schedulerRemove t).slotCount = k.slotCount := by
  cases hlink : (k.slot t).runPrevious with
  | none =>
    unfold schedulerRemove
    rw [hlink]
  | some link => exact (schedulerRemove_spec hlink).2.2.2.1

@[simp] lemma schedulerInsert_slotCount : (k.schedulerInsert t).slotCount = k.slotCount := by
  unfold schedulerInsert
  dsimp only
  split
  · rfl
  · rw [setCpu_slotCount, setPrevious_slotCount, setSlot_slotCount]

@[simp] lemma taskSetState_slotCount (state : STATE) : (k.taskSetState t state).slotCount = k.slotCount := by
  simp [taskSetState]

@[simp] lemma schedulerPlaceTask_slotCount : (k.schedulerPlaceTask t c).slotCount = k.slotCount := by
  simp [schedulerPlaceTask, schedulerRequest]

@[simp] lemma taskRun_slotCount (online : ℕ → Bool) : (k.taskRun online t).slotCount = k.slotCount := by
  unfold taskRun
  dsimp only
  split_ifs <;> simp [schedulerRequest]

@[simp] lemma taskSlotRelease_slotCount : (k.taskSlotRelease t).slotCount = k.slotCount := by simp [taskSlotRelease]

lemma forSlots_rec {P : Kernel → Prop} {f : Kernel → ℕ → Kernel} (h : P k)
    (hstep : ∀ k' i, P k' → P (f k' i)) : P (k.forSlots f) := by
  unfold forSlots
  generalize List.range k.slotCount = slots
  induction slots generalizing k with
  | nil => exact h
  | cons i slots ih => exact ih (hstep k i h)

lemma forSlots_slotCount {f : Kernel → ℕ → Kernel} (hf : ∀ k i, (f k i).slotCount = k.slotCount) :
    (k.forSlots f).slotCount = k.slotCount :=
  forSlots_rec (P := fun k' => k'.slotCount = k.slotCount) rfl fun k' i h => (hf k' i).trans h

lemma wakeChildWaiter_rec {P : Kernel → Prop} {w : World} (h : P k)
    (hrun : ∀ k' i, P k' → (k'.slot i).waitReason = .child → P (k'.taskRun w.online i)) : P (k.wakeChildWaiter w t) := by
  unfold Kernel.wakeChildWaiter
  dsimp only
  generalize (if (k.slot t).kind = .thread then (k.slot t).tgid else (k.slot t).ptid) = owner
  split
  · exact h
  refine forSlots_rec h fun k' i h => ?_
  split
  · exact h
  · rename_i hwts
    refine hrun k' i h ?_
    tauto

lemma wakeChildWaiter_slotCount (w : World) : (k.wakeChildWaiter w t).slotCount = k.slotCount :=
  wakeChildWaiter_rec (P := fun k' => k'.slotCount = k.slotCount) rfl fun _ _ h _ => (taskRun_slotCount _).trans h

lemma wakes_slotCount (online : ℕ → Bool) (tasks : List ℕ) :
    (tasks.foldl (fun k u => k.taskRun online u) k).slotCount = k.slotCount := by
  induction tasks generalizing k with
  | nil => rfl
  | cons u tasks ih => exact ih.trans (taskRun_slotCount online)

lemma taskReleaseResources_slotCount (w : World) : (k.taskReleaseResources w t).slotCount = k.slotCount :=
  wakes_slotCount w.online _

lemma finishReleased_slotCount (w : World) (isCurrent : Bool) (status : ℕ) (waitable : Bool) :
    (k.finishReleased w t isCurrent status waitable).slotCount = k.slotCount := by
  unfold finishReleased
  dsimp only
  split_ifs <;> simp [wakeChildWaiter_slotCount]

@[simp] lemma finishTask_slotCount (w : World) (status : ℕ) (waitable : Bool) :
    (k.finishTask w c t status waitable).slotCount = k.slotCount := by
  unfold finishTask
  rw [finishReleased_slotCount, taskReleaseResources_slotCount, schedulerRemove_slotCount]

lemma requestThreadTermination_slotCount (w : World) (status : ℕ) :
    (k.requestThreadTermination w c t status).slotCount = k.slotCount := by
  unfold requestThreadTermination finishPendingThread
  dsimp only
  split_ifs <;> simp [schedulerRequest]

@[simp] lemma terminateThreadGroup_slotCount (w : World) (tgid except : ℕ) :
    (k.terminateThreadGroup w c tgid except).slotCount = k.slotCount := by
  unfold terminateThreadGroup
  refine forSlots_slotCount fun k i => ?_
  dsimp only
  split_ifs
  · rfl
  · simp
  · rw [requestThreadTermination_slotCount, setSlot_slotCount]

@[simp] lemma reparentThreads_slotCount (tgid newParent : ℕ) :
    (k.reparentThreads tgid newParent).slotCount = k.slotCount := by
  unfold reparentThreads
  refine forSlots_slotCount fun k i => ?_
  dsimp only
  split <;> rfl

@[simp] lemma reparentChildren_slotCount (oldParent newParent : ℕ) :
    (k.reparentChildren oldParent newParent).slotCount = k.slotCount := by
  unfold reparentChildren
  refine forSlots_slotCount fun k i => ?_
  dsimp only
  split_ifs <;> simp

@[simp] lemma parkGroup_slotCount : (k.parkGroup t).1.slotCount = k.slotCount := by
  unfold parkGroup
  split <;> simp

lemma prepareFinish_slotCount (w : World) : (k.prepareFinish w c t).1.slotCount = k.slotCount := by
  unfold prepareFinish
  dsimp only
  split_ifs <;> simp

@[simp] lemma taskFinishPending_slotCount (w : World) : (k.taskFinishPending w c t).slotCount = k.slotCount := by
  have hcnt := prepareFinish_slotCount (k := k) (c := c) (t := t) w
  unfold taskFinishPending
  split
  · rename_i heq
    rw [heq] at hcnt
    simpa using hcnt
  · rename_i heq
    rw [heq] at hcnt
    exact hcnt

lemma requestTaskTermination_slotCount (w : World) (status : ℕ) :
    (k.requestTaskTermination w c t status).slotCount = k.slotCount := by
  unfold requestTaskTermination
  dsimp only
  split_ifs <;> simp [schedulerRequest]

@[simp] lemma schedulerPull_slotCount (target : ℕ) : (k.schedulerPull target).1.slotCount = k.slotCount := by
  unfold schedulerPull
  split <;> simp

/-! ### A task whose links change -/

lemma schedulerRemove_bare : ((k.schedulerRemove t).slot u).bare = (k.slot u).bare := by
  cases hlink : (k.slot t).runPrevious with
  | none =>
    unfold schedulerRemove
    rw [hlink]
  | some link => exact (schedulerRemove_spec hlink).2.1 u

lemma schedulerInsert_bare : ((k.schedulerInsert t).slot u).bare = (k.slot u).bare := by
  unfold schedulerInsert
  dsimp only
  split
  · rfl
  · rw [setCpu_slot, setPrevious_bare]
    by_cases hu : u = t
    · subst hu
      rw [setSlot_self]
      rfl
    · rw [setSlot_of_ne hu]

lemma taskSetState_bare {state : STATE} (h : u ≠ t) : ((k.taskSetState t state).slot u).bare = (k.slot u).bare := by
  unfold taskSetState
  rw [schedulerInsert_bare, setSlot_of_ne h, schedulerRemove_bare]

lemma schedulerPlaceTask_bare (h : u ≠ t) : ((k.schedulerPlaceTask t c).slot u).bare = (k.slot u).bare := by
  unfold schedulerPlaceTask schedulerRequest
  rw [setCpu_slot, schedulerInsert_bare, setSlot_of_ne h, schedulerRemove_bare]

lemma taskRun_bare {online : ℕ → Bool} (h : u ≠ t) : ((k.taskRun online t).slot u).bare = (k.slot u).bare := by
  unfold taskRun
  dsimp only
  split_ifs
  · rfl
  · rw [schedulerPlaceTask_bare h, setSlot_of_ne h, taskSetState_bare h, setSlot_of_ne h]
  · rw [schedulerRequest, setCpu_slot, setSlot_of_ne h, taskSetState_bare h, setSlot_of_ne h]
  · rw [schedulerRequest, setCpu_slot, setSlot_of_ne h, setSlot_of_ne h]

lemma field_eq {β : Type*} {task task' : Mtask} (P : Mtask → β) (hP : ∀ task, P task.bare = P task)
    (h : task'.bare = task.bare) : P task' = P task := by
  rw [← hP, h, hP]

lemma walk_eq {l : List ℕ} (hl : Lib.HeadedList.IsList k.links c l) (fuel : ℕ) :
    ∀ a b, l = a ++ b → b.length ≤ fuel → k.walk fuel b.head? = b := by
  induction fuel with
  | zero =>
    intro a b _ hlen
    rw [List.length_eq_zero_iff.mp (Nat.le_zero.mp hlen)]
    rfl
  | succ fuel ih =>
    intro a b hb hlen
    cases b with
    | nil => rfl
    | cons t b =>
      have hnext : (k.slot t).runNext = b.head? := hl.next a t b hb
      rw [List.head?_cons, walk, hnext, ih (a ++ [t]) b (by simpa using hb) (by simpa using hlen)]

lemma runnableList_of_isList {l : List ℕ} (hl : Lib.HeadedList.IsList k.links c l) (hlt : ∀ t ∈ l, t < k.slotCount) :
    k.runnableList c = l := by
  have hlen : l.length ≤ k.slotCount := by
    have hsub : l ⊆ List.range k.slotCount := fun t ht => List.mem_range.mpr (hlt t ht)
    simpa using List.Nodup.length_le_of_subset hl.nodup hsub
  have hhead : (k.cpu c).runnable = l.head? := hl.head
  unfold runnableList
  rw [hhead]
  exact walk_eq hl k.slotCount [] l rfl hlen

/-- **The loops over `runnable` of a CPU meet the tasks of its list.** -/
lemma Queued.runnableList_eq {lists : ℕ → List ℕ} (h : k.Queued lists out r) (c : ℕ) : k.runnableList c = lists c :=
  runnableList_of_isList (h.isLists.isList c) fun t ht => h.lt (by rw [((h.member c t).mp ht).1]; exact nofun)

/-! ### The lists stay in order -/

namespace InOrder

lemma inert (h : k.InOrder out r) (hf : ∀ task, (f task).runNext = task.runNext ∧
      (f task).runPrevious = task.runPrevious ∧ (f task).state = task.state ∧ (f task).idle = task.idle ∧
      (f task).cpu = task.cpu ∧ (f task).weight = task.weight ∧ (f task).pinned = task.pinned) :
    (k.setSlot t f).InOrder out r :=
  h.imp fun _ h => h.inert hf

lemma inertCpu (h : k.InOrder out r) (hg : ∀ cpu, (g cpu).runnable = cpu.runnable ∧ (g cpu).load = cpu.load ∧
      (g cpu).movable = cpu.movable ∧ (g cpu).current = cpu.current ∧ (g cpu).idle = cpu.idle) :
    (k.setCpu c g).InOrder out r :=
  h.imp fun _ h => h.inertCpu hg

lemma writeCpu (h : k.InOrder out r) (hg : ∀ cpu, (g cpu).runnable = cpu.runnable ∧ (g cpu).load = cpu.load ∧
      (g cpu).movable = cpu.movable ∧ ((g cpu).current = cpu.current ∨ (g cpu).current = some t) ∧
      ((g cpu).idle = cpu.idle ∨ (g cpu).idle = some t)) (ht : t < k.slotCount) : (k.setCpu c g).InOrder out r := by
  obtain ⟨lists, h⟩ := h
  obtain ⟨hrunnb, hload, hmovb, hcur, hidle⟩ := hg (k.cpu c)
  refine ⟨lists, h.writeCpu ⟨hrunnb, hload, hmovb⟩ fun u hu => ?_⟩
  have hbdd := h.bounded c u
  rcases hu with hu | hu
  · rcases hcur with heq | heq
    · exact hbdd (.inl (heq ▸ hu))
    · exact Option.some.inj (heq.symm.trans hu) ▸ ht
  · rcases hidle with heq | heq
    · exact hbdd (.inr (heq ▸ hu))
    · exact Option.some.inj (heq.symm.trans hu) ▸ ht

lemma schedulerRequest (h : k.InOrder out r) (c : ℕ) : (k.schedulerRequest c).InOrder out r :=
  h.inertCpu fun _ => ⟨rfl, rfl, rfl, rfl, rfl⟩

lemma lt (h : k.InOrder out r) (ht : (k.slot t).state ≠ .empty) : t < k.slotCount := by
  obtain ⟨lists, h⟩ := h
  exact h.lt ht

lemma ne_retired (h : k.InOrder out r) (ht : (k.slot t).state ≠ .ready) : r ≠ some t := by
  obtain ⟨lists, h⟩ := h
  exact h.ne_retired ht

lemma schedulerRemove (h : k.InOrder out r) (t : ℕ) : (k.schedulerRemove t).InOrder (insert t out) r := by
  obtain ⟨lists, h⟩ := h
  obtain ⟨lists', h', -⟩ := h.schedulerRemove t
  exact ⟨lists', h'⟩

lemma schedulerInsert (h : k.InOrder (insert t out) r) (hout : t ∉ out) : (k.schedulerInsert t).InOrder out r := by
  obtain ⟨lists, h⟩ := h
  exact h.schedulerInsert hout

lemma narrow (h : k.InOrder (insert t out) r) (ht : (k.slot t).state ≠ .running ∨ (k.slot t).idle = true) :
    k.InOrder out r := by
  obtain ⟨lists, h⟩ := h
  exact ⟨lists, h.narrow ht⟩

lemma write (h : k.InOrder out r) (ht : t ∈ out) (hprev : (f (k.slot t)).runPrevious = (k.slot t).runPrevious)
    (hbey : t < k.slotCount ∨ (f (k.slot t)).state = .empty)
    (hr : r = some t → (f (k.slot t)).state = .ready ∧ (f (k.slot t)).runNext = none) :
    (k.setSlot t f).InOrder out r := by
  obtain ⟨lists, h⟩ := h
  have hloos := h.notMem_of_out ht
  exact ⟨lists, h.write hloos (hprev.trans (h.isLists.prev_eq_none hloos)) (fun _ _ => ht) hbey hr⟩

lemma rewrite (h : k.InOrder out r) (ht : t ∈ out) (hf : ∀ task, (f task).runPrevious = task.runPrevious ∧
    (f task).runNext = task.runNext ∧ (f task).state = task.state) : (k.setSlot t f).InOrder out r := by
  obtain ⟨hprev, hnext, hst⟩ := hf (k.slot t)
  refine h.write ht hprev ?_ fun hr => ?_
  · by_cases hlt : t < k.slotCount
    · exact .inl hlt
    · right
      rw [hst]
      obtain ⟨lists, h⟩ := h
      exact h.beyond t (by omega)
  · rw [hst, hnext]
    obtain ⟨lists, h⟩ := h
    exact h.retired.2 t hr

lemma taskSetState (h : k.InOrder out r) (hout : t ∉ out) (hlt : t < k.slotCount) (hr : r ≠ some t) (state : STATE) :
    (k.taskSetState t state).InOrder out r := by
  refine InOrder.schedulerInsert ?_ hout
  exact (h.schedulerRemove t).write (Set.mem_insert t out) rfl (.inl (by simpa using hlt)) fun heq => absurd heq hr

lemma schedulerPlaceTask (h : k.InOrder out r) (hout : t ∉ out) (c : ℕ) : (k.schedulerPlaceTask t c).InOrder out r := by
  refine InOrder.schedulerRequest (InOrder.schedulerInsert ?_ hout) c
  exact (h.schedulerRemove t).rewrite (Set.mem_insert t out) fun _ => ⟨rfl, rfl, rfl⟩

lemma taskSetWeight (h : k.InOrder out r) (t weight : ℕ) : (k.taskSetWeight t weight).InOrder out r :=
  h.imp fun _ h => h.taskSetWeight t weight

lemma taskRun (h : k.InOrder out r) (hout : t ∉ out) (online : ℕ → Bool) : (k.taskRun online t).InOrder out r := by
  unfold Kernel.taskRun
  dsimp only
  have hiner : ∀ {k : Kernel}, k.InOrder out r → (k.setSlot t ({ · with urgent := true })).InOrder out r := fun h =>
    h.inert fun _ => ⟨rfl, rfl, rfl, rfl, rfl, rfl, rfl⟩
  by_cases hin : (k.slot t).state = .empty ∨ (k.slot t).state = .willEmpty ∨ (k.slot t).state = .ready ∨
      (k.slot t).state = .allocating ∨ (k.slot t).state = .died
  · rw [if_pos hin]
    exact h
  rw [if_neg hin]
  by_cases hwts : (k.slot t).state = .waiting ∨ (k.slot t).state = .sleeping
  · rw [if_pos hwts]
    have hlt : t < k.slotCount := h.lt fun heq => hin (.inl heq)
    have hr : r ≠ some t := h.ne_retired fun heq => hin (.inr (.inr (.inl heq)))
    have hrun := (((hiner h).taskSetState hout hlt hr .running).inert (t := t)
      (f := fun task => { task with waitReason := .none, ready := false }) fun _ => ⟨rfl, rfl, rfl, rfl, rfl, rfl, rfl⟩)
    split
    · exact hrun.schedulerPlaceTask hout _
    · exact hrun.schedulerRequest _
  · rw [if_neg hwts]
    refine InOrder.schedulerRequest (InOrder.inert (hiner h) fun _ => ?_) _
    exact ⟨rfl, rfl, rfl, rfl, rfl, rfl, rfl⟩

lemma taskPublish (h : k.InOrder out r) (hout : t ∉ out) (online : ℕ → Bool) : (k.taskPublish online t).1.InOrder out r := by
  unfold Kernel.taskPublish
  split
  · rename_i hst
    have hlt : t < k.slotCount := h.lt (by simp [hst])
    have hr : r ≠ some t := h.ne_retired (by simp [hst])
    exact (h.schedulerPlaceTask hout _).taskSetState hout (by simpa using hlt) hr .running
  · exact h

lemma taskSlotRelease_of_remove (h : (k.schedulerRemove t).InOrder (insert t out) r) (hr : r ≠ some t) :
    (k.taskSlotRelease t).InOrder out r := by
  unfold Kernel.taskSlotRelease
  dsimp only
  have hres := h.write (f := fun task => taskSlotReset (k.slot t).tid task.generation) (Set.mem_insert t out)
    (by
      obtain ⟨lists, h⟩ := h
      exact (h.isLists.prev_eq_none (h.notMem_of_out (Set.mem_insert t out))).symm)
    (.inr rfl) fun heq => absurd heq hr
  obtain ⟨lists, h⟩ := hres.narrow (.inl (by rw [setSlot_self]; exact nofun))
  exact ⟨lists, h.congr (fun _ => ⟨rfl, rfl, rfl, rfl, rfl⟩) (fun _ => ⟨rfl, rfl, rfl, rfl, rfl, rfl, rfl⟩) le_rfl rfl⟩

lemma taskSlotRelease (h : k.InOrder out r) (hr : r ≠ some t) : (k.taskSlotRelease t).InOrder out r :=
  taskSlotRelease_of_remove (h.schedulerRemove t) hr

lemma taskSlotRelease_of_out (h : k.InOrder (insert t out) r) (hr : r ≠ some t) : (k.taskSlotRelease t).InOrder out r := by
  refine taskSlotRelease_of_remove ?_ hr
  rw [← Set.insert_idem t out]
  exact h.schedulerRemove t

/-! ### Pinning, and the slots of the registry -/

lemma taskPinAddressSpace (h : k.InOrder ∅ r) {current space : ℕ} (hk : k.taskPinAddressSpace current space c = some k') :
    k'.InOrder ∅ r := by
  unfold Kernel.taskPinAddressSpace at hk
  split at hk
  · cases hk
  rw [← Option.some.inj hk]
  refine forSlots_rec (P := fun k => k.InOrder ∅ r) h fun k i h => ?_
  dsimp only
  split
  · exact h
  have hpin : ((k.schedulerRemove i).setSlot i ({ · with pinned := true })).InOrder (insert i ∅) r :=
    (h.schedulerRemove i).rewrite (Set.mem_insert i ∅) fun _ => ⟨rfl, rfl, rfl⟩
  split
  · unfold Kernel.schedulerPlaceTask
    have hagain := hpin.schedulerRemove i
    rw [Set.insert_idem] at hagain
    refine InOrder.schedulerRequest (InOrder.schedulerInsert ?_ (Set.notMem_empty i)) _
    exact hagain.rewrite (Set.mem_insert i ∅) fun _ => ⟨rfl, rfl, rfl⟩
  · exact hpin.schedulerInsert (Set.notMem_empty i)

lemma releaseResources (h : k.InOrder out r) (t : ℕ) : (k.releaseResources t).InOrder out r :=
  h.inert fun _ => ⟨rfl, rfl, rfl, rfl, rfl, rfl, rfl⟩

lemma taskAbortCreation (h : k.InOrder out r) (t : ℕ) : (k.taskAbortCreation t).InOrder out r := by
  unfold Kernel.taskAbortCreation
  split
  · exact h
  · rename_i hst
    exact (h.releaseResources t).taskSlotRelease (h.ne_retired fun heq => hst (by simp [heq]))

/-- `task_registry_grow`: the new slots are empty, as the old memory behind the registry. -/
lemma taskRegistryGrow (h : k.InOrder out r) {memory : GrowMemory} (hk : k.taskRegistryGrow memory = some k') :
    k'.InOrder out r := by
  have hgrn : ∀ capacity hint, ({ k with
      slotCount := k.slotCount + taskSlotChunkSize
      freeHint := hint
      chunkCount := k.chunkCount + 1
      chunkCapacity := capacity
      slot := fun t => if k.slotCount ≤ t ∧ t < k.slotCount + taskSlotChunkSize then taskSlotReset t 0 else k.slot t } :
      Kernel).InOrder out r := by
    intro capacity hint
    obtain ⟨lists, h⟩ := h
    have hold : ∀ t, t < k.slotCount → ¬ (k.slotCount ≤ t ∧ t < k.slotCount + taskSlotChunkSize) := by
      intro t ht hall
      omega
    refine ⟨lists, h.rewrites rfl (fun c t ht => ?_) (fun t ht => ?_) (fun t ht => ?_) (Nat.le_add_right ..) rfl
      fun t ht => ?_⟩
    · exact if_neg (hold t (h.lt (by rw [((h.member c t).mp ht).1]; exact nofun)))
    · dsimp only
      split
      · exact ⟨rfl, nofun⟩
      · exact ⟨h.isLists.prev_eq_none ht, fun hs hi =>
          by_contra fun hnot => ht _ ((h.member _ t).mpr ⟨hs, hi, rfl, hnot⟩)⟩
    · dsimp only at ht ⊢
      rw [if_neg (by omega)]
      exact h.beyond t (by omega)
    · have hlt : t < k.slotCount := h.lt (by rw [(h.retired.2 t ht).1]; exact nofun)
      dsimp only
      rw [if_neg (hold t hlt)]
      exact h.retired.2 t ht
  unfold Kernel.taskRegistryGrow at hk
  extract_lets first grown capacity at hk
  split_ifs at hk
  · rw [← Option.some.inj hk]
    exact hgrn _ _
  · rw [← Option.some.inj hk]
    exact hgrn _ _

lemma prepare (h : k.InOrder ∅ r) (ht : (k.slot t).state ≠ .running) (hlt : t < k.slotCount) (hr : r ≠ some t)
    (hprev : (f (k.slot t)).runPrevious = (k.slot t).runPrevious ∨ (f (k.slot t)).runPrevious = none)
    (hst : (f (k.slot t)).state ≠ .running) : (k.setSlot t f).InOrder ∅ r := by
  obtain ⟨lists, h⟩ := h
  have hloos := h.notMem_of_state ht
  refine ⟨lists, h.write hloos ?_ (fun hs => absurd hs hst) (.inl hlt) fun heq => absurd heq hr⟩
  rcases hprev with hprev | hprev
  · exact hprev.trans (h.isLists.prev_eq_none hloos)
  · exact hprev

lemma fill (h : k.InOrder ∅ r) (ht : (k.slot t).state = .allocating) (hst : (f (k.slot t)).state = .allocating)
    (hprev : (f (k.slot t)).runPrevious = (k.slot t).runPrevious ∨ (f (k.slot t)).runPrevious = none) :
    (k.setSlot t f).InOrder ∅ r ∧ ((k.setSlot t f).slot t).state = .allocating := by
  refine ⟨h.prepare (by simp [ht]) (h.lt (by simp [ht])) (h.ne_retired (by simp [ht])) hprev (by simp [hst]), ?_⟩
  rw [setSlot_self]
  exact hst

/-- **`task_slot_claim`** gives a slot that is being allocated. -/
lemma taskSlotClaim (h : k.InOrder ∅ r) (memory : ℕ → GrowMemory) (allowZero : Bool) :
    (k.taskSlotClaim memory allowZero).1.InOrder ∅ r ∧ ∀ t, (k.taskSlotClaim memory allowZero).2 = some t →
      ((k.taskSlotClaim memory allowZero).1.slot t).state = .allocating := by
  fun_induction Kernel.taskSlotClaim k memory allowZero with
  | case1 k t hfst generation =>
    obtain ⟨hlt, -, hemp, -⟩ := firstEmpty_some hfst
    have hcl := h.prepare (f := fun _ => { taskSlotReset t generation with state := .allocating }) (by simp [hemp])
      hlt (h.ne_retired (by simp [hemp])) (.inr rfl) (by rintro ⟨⟩)
    refine ⟨?_, fun u hu => ?_⟩
    · obtain ⟨lists, hcl⟩ := hcl
      exact ⟨lists, hcl.congr (fun _ => ⟨rfl, rfl, rfl, rfl, rfl⟩) (fun _ => ⟨rfl, rfl, rfl, rfl, rfl, rfl, rfl⟩)
        le_rfl rfl⟩
    · rw [← Option.some.inj hu]
      simp [setSlot]
  | case2 k hfst hgrow => exact ⟨h, (by intros; contradiction)⟩
  | case3 k hfst k' hgrow ih => exact ih (h.taskRegistryGrow hgrow)

lemma forkInto (h : k.InOrder ∅ r) {child : ℕ} (hchd : (k.slot child).state = .allocating) (online : ℕ → Bool) (parent : ℕ)
    (memory : ForkMemory) : (k.forkInto online parent child memory).1.InOrder ∅ r := by
  unfold Kernel.forkInto
  dsimp only
  obtain ⟨h₁, hs₁⟩ := h.fill (f := fun task => forkImage task (k.slot parent)) hchd rfl (.inr rfl)
  cases memory.stack with
  | none => exact h₁.taskAbortCreation child
  | some stack =>
    obtain ⟨h₂, hs₂⟩ := h₁.fill (f := ({ · with top := some stack })) hs₁ hs₁ (.inl rfl)
    dsimp only
    split
    · rename_i space _ _
      obtain ⟨h₃, -⟩ := h₂.fill (f := ({ · with addressSpace := space, weight := 1 })) hs₂ hs₂ (.inl rfl)
      exact h₃.taskPublish (Set.notMem_empty child) online
    · exact h₂.taskAbortCreation child

lemma taskFork (h : k.InOrder ∅ r) (online : ℕ → Bool) (parent : ℕ) (grow : ℕ → GrowMemory) (memory : ForkMemory) :
    (k.taskFork online parent grow memory).1.InOrder ∅ r := by
  unfold Kernel.taskFork
  obtain ⟨hcl, hst⟩ := h.taskSlotClaim grow false
  split
  · rename_i heq
    rw [heq] at hcl
    exact hcl
  · rename_i heq
    rw [heq] at hcl hst
    exact hcl.forkInto (hst _ rfl) online parent memory

lemma createInto (h : k.InOrder ∅ r) {child : ℕ} (hchd : (k.slot child).state = .allocating) (kernelSpace : ℕ)
    (parent : Option ℕ) (weight : ℕ) (share : Bool) (pin : Option ℕ) (memory : CreateMemory) :
    (k.createInto kernelSpace parent child weight share pin memory).1.InOrder ∅ r := by
  have hrel : ∀ {k : Kernel}, k.InOrder ∅ r → (k.slot child).state = .allocating →
      (k.taskSlotRelease child).InOrder ∅ r := fun h hs => h.taskSlotRelease (h.ne_retired (by simp [hs]))
  unfold Kernel.createInto
  dsimp only
  obtain ⟨h₁, hs₁⟩ := h.fill (f := fun task => createImage task (parent.map k.slot) share pin) hchd hchd (.inl rfl)
  cases memory.stack with
  | none => exact hrel h₁ hs₁
  | some stack =>
    obtain ⟨h₂, hs₂⟩ := h₁.fill (f := ({ · with top := some stack })) hs₁ hs₁ (.inl rfl)
    dsimp only
    split
    · exact hrel h₂ hs₂
    · rename_i space _
      obtain ⟨h₃, hs₃⟩ := h₂.fill (f := ({ · with addressSpace := space, weight := weight })) hs₂ hs₂ (.inl rfl)
      split
      · exact h₃
      · exact hrel h₃ hs₃

lemma createTaskImpl (h : k.InOrder ∅ r) (c kernelSpace : ℕ) (sharedSmp : Bool) (parent : Option ℕ) (weight : ℕ)
    (share : Bool) (grow : ℕ → GrowMemory) (memory : CreateMemory) :
    (k.createTaskImpl c kernelSpace sharedSmp parent weight share grow memory).1.InOrder ∅ r := by
  unfold Kernel.createTaskImpl
  dsimp only
  generalize (share && parent.isSome && !sharedSmp) = pins
  split
  · exact h
  · rename_i k₁ hpin
    have h₁ : k₁.InOrder ∅ r := by
      cases pins with
      | false =>
        rw [← Option.some.inj hpin]
        exact h
      | true => exact h.taskPinAddressSpace hpin
    obtain ⟨hcl, hst⟩ := h₁.taskSlotClaim grow parent.isNone
    split
    · rename_i heq
      rw [heq] at hcl
      exact hcl
    · rename_i heq
      rw [heq] at hcl hst
      exact hcl.createInto (hst _ rfl) ..

/-! ### The end of a task -/

/-- **`wake_child_waiter`** wakes no task that waits for nothing. -/
lemma wakeChildWaiter (h : k.InOrder {t} r) (hreas : (k.slot t).waitReason = .none) (w : World) :
    (k.wakeChildWaiter w t).InOrder {t} r := by
  refine (wakeChildWaiter_rec (P := fun k' => k'.InOrder {t} r ∧ (k'.slot t).waitReason = .none) ⟨h, hreas⟩ ?_).1
  rintro k' i ⟨h, hreas⟩ hchd
  have hne : t ≠ i := by
    rintro rfl
    rw [hreas] at hchd
    cases hchd
  refine ⟨h.taskRun hne.symm w.online, ?_⟩
  exact (field_eq Mtask.waitReason (fun _ => rfl) (taskRun_bare hne)).trans hreas

lemma forgetNext (h : k.InOrder out r) (t : ℕ) : (k.forgetNext t).InOrder out r := by
  obtain ⟨lists, h⟩ := h
  refine ⟨lists, h.congr (fun c => ?_) (fun _ => ⟨rfl, rfl, rfl, rfl, rfl, rfl, rfl⟩) le_rfl rfl⟩
  unfold Kernel.forgetNext
  dsimp only
  split <;> exact ⟨rfl, rfl, rfl, rfl, rfl⟩

lemma wakes (h : k.InOrder {t} r) (online : ℕ → Bool) (tasks : List ℕ) :
    ((tasks.filter (· ≠ t)).foldl (fun k u => k.taskRun online u) k).InOrder {t} r := by
  induction tasks generalizing k with
  | nil => exact h
  | cons u tasks ih =>
    by_cases hu : u = t
    · rw [List.filter_cons_of_neg (by simpa using hu)]
      exact ih h
    · rw [List.filter_cons_of_pos (by simpa using hu), List.foldl_cons]
      exact ih (h.taskRun (t := u) hu online)

lemma taskReleaseResources (h : k.InOrder {t} r) (w : World) :
    (k.taskReleaseResources w t).InOrder {t} r ∧ ((k.taskReleaseResources w t).slot t).waitReason = .none := by
  refine ⟨((h.forgetNext t).wakes w.online (w.wakes t)).releaseResources t, ?_⟩
  unfold Kernel.taskReleaseResources Kernel.releaseResources
  rw [setSlot_self]

/-- **`finish_task`** leaves the lists in order, unless the CPU is given away while it releases the task. -/
lemma finishTask (h : k.InOrder ∅ r) (hlt : t < k.slotCount) (hr : r ≠ some t) (w : World) (c status : ℕ) (waitable : Bool) :
    (k.finishTask w c t status waitable).InOrder ∅ r := by
  have hrem : (k.schedulerRemove t).InOrder {t} r := by
    simpa using h.schedulerRemove t
  obtain ⟨hreld, hreas⟩ := hrem.taskReleaseResources w
  have hcnt : ((k.schedulerRemove t).taskReleaseResources w t).slotCount = k.slotCount := by
    rw [taskReleaseResources_slotCount, schedulerRemove_slotCount]
  unfold Kernel.finishTask
  generalize (k.schedulerRemove t).taskReleaseResources w t = k₁ at *
  unfold Kernel.finishReleased
  dsimp only
  have hstatus : (k₁.setSlot t ({ · with status := status })).InOrder {t} r :=
    hreld.inert fun _ => ⟨rfl, rfl, rfl, rfl, rfl, rfl, rfl⟩
  have hwok := hstatus.wakeChildWaiter (by rw [setSlot_self]; exact hreas) w
  have hcnt₂ := (wakeChildWaiter_slotCount (k := k₁.setSlot t ({ · with status := status })) (t := t) w).trans hcnt
  generalize (k₁.setSlot t ({ · with status := status })).wakeChildWaiter w t = k₂ at *
  have hst : ∀ state, state ≠ .running → state ≠ .ready → (k₂.setSlot t ({ · with state := state })).InOrder ∅ r := by
    intro state hrunn hrdy
    refine InOrder.narrow ?_ (.inl (by rw [setSlot_self]; exact hrunn))
    simpa using hwok.write (t := t) (f := ({ · with state := state })) rfl rfl (.inl (by omega)) fun heq => absurd heq hr
  split
  · exact hst .died nofun nofun
  split
  · exact hst .willEmpty nofun nofun
  · exact taskSlotRelease_of_out (by simpa using hwok) hr

/-! ### Termination -/

lemma finishPendingThread (h : k.InOrder ∅ r) (hlt : t < k.slotCount) (hr : r ≠ some t) (w : World) (c : ℕ) :
    (k.finishPendingThread w c t).InOrder ∅ r := by
  unfold Kernel.finishPendingThread
  dsimp only
  have hclr : (k.setSlot t ({ · with terminatePending := false })).InOrder ∅ r :=
    h.inert fun _ => ⟨rfl, rfl, rfl, rfl, rfl, rfl, rfl⟩
  exact hclr.finishTask hlt hr ..

lemma requestThreadTermination (h : k.InOrder ∅ r) (hlt : t < k.slotCount) (hr : r ≠ some t) (w : World) (c status : ℕ) :
    (k.requestThreadTermination w c t status).InOrder ∅ r := by
  unfold Kernel.requestThreadTermination
  dsimp only
  have hmark : (k.setSlot t ({ · with terminateStatus := status, terminatePending := true })).InOrder ∅ r :=
    h.inert fun _ => ⟨rfl, rfl, rfl, rfl, rfl, rfl, rfl⟩
  split
  · exact hmark.schedulerRequest _
  · exact hmark.finishPendingThread hlt hr w c

lemma terminateThreadGroup (h : k.InOrder ∅ r) (w : World) (c tgid except : ℕ) :
    (k.terminateThreadGroup w c tgid except).InOrder ∅ r := by
  unfold Kernel.terminateThreadGroup
  refine forSlots_rec (P := fun k => k.InOrder ∅ r) h fun k i h => ?_
  dsimp only
  split
  · exact h
  rename_i hthr
  have huse : taskSlotInUse (k.slot i) = true := by
    by_contra hnot
    exact hthr (.inr (.inl (by simpa using hnot)))
  have hrdy : (k.slot i).state ≠ .ready := fun heq => by simp [taskSlotInUse, heq] at huse
  have hemp : (k.slot i).state ≠ .empty := fun heq => by simp [taskSlotInUse, heq] at huse
  have hdet : (k.setSlot i ({ · with joinable := false })).InOrder ∅ r :=
    h.inert fun _ => ⟨rfl, rfl, rfl, rfl, rfl, rfl, rfl⟩
  split
  · exact hdet.taskSlotRelease (h.ne_retired hrdy)
  · exact hdet.requestThreadTermination (h.lt hemp) (h.ne_retired hrdy) w c _

lemma reparentThreads (h : k.InOrder ∅ r) (tgid newParent : ℕ) : (k.reparentThreads tgid newParent).InOrder ∅ r := by
  unfold Kernel.reparentThreads
  refine forSlots_rec (P := fun k => k.InOrder ∅ r) h fun k j h => ?_
  dsimp only
  split
  · exact h.inert fun _ => ⟨rfl, rfl, rfl, rfl, rfl, rfl, rfl⟩
  · exact h

lemma reparentChildren (h : k.InOrder ∅ r) (oldParent newParent : ℕ) :
    (k.reparentChildren oldParent newParent).InOrder ∅ r := by
  unfold Kernel.reparentChildren
  refine forSlots_rec (P := fun k => k.InOrder ∅ r) h fun k i h => ?_
  dsimp only
  split
  · exact h
  have hadop : (k.setSlot i ({ · with ptid := newParent })).InOrder ∅ r :=
    h.inert fun _ => ⟨rfl, rfl, rfl, rfl, rfl, rfl, rfl⟩
  replace hadop := hadop.reparentThreads (k.slot i).tgid newParent
  split
  · rename_i hdied
    exact hadop.taskSlotRelease (hadop.ne_retired (by simp [hdied.1]))
  · exact hadop

lemma parkGroup (h : k.InOrder ∅ r) (hlt : t < k.slotCount) (hr : r ≠ some t) : (k.parkGroup t).1.InOrder ∅ r := by
  unfold Kernel.parkGroup
  split
  · have hpar : (k.setSlot t ({ · with terminatePending := true })).InOrder ∅ r :=
      h.inert fun _ => ⟨rfl, rfl, rfl, rfl, rfl, rfl, rfl⟩
    have hwait := hpar.taskSetState (Set.notMem_empty t) (by simpa using hlt) hr .waiting
    dsimp only
    exact hwait.inert fun _ => ⟨rfl, rfl, rfl, rfl, rfl, rfl, rfl⟩
  · exact h.reparentChildren _ _

lemma prepareFinish (h : k.InOrder ∅ r) (hlt : t < k.slotCount) (hr : r ≠ some t) (w : World) (c : ℕ) :
    (k.prepareFinish w c t).1.InOrder ∅ r := by
  have hclr : (k.setSlot t ({ · with terminatePending := false })).InOrder ∅ r :=
    h.inert fun _ => ⟨rfl, rfl, rfl, rfl, rfl, rfl, rfl⟩
  unfold Kernel.prepareFinish
  dsimp only
  split
  · exact (hclr.terminateThreadGroup w c _ t).parkGroup (by simpa using hlt) hr
  · exact hclr

lemma taskFinishPending (h : k.InOrder ∅ r) (hlt : t < k.slotCount) (hr : r ≠ some t) (w : World) (c : ℕ) :
    (k.taskFinishPending w c t).InOrder ∅ r := by
  have hprep := h.prepareFinish hlt hr w c
  have hcnt := prepareFinish_slotCount (k := k) (t := t) (c := c) w
  unfold Kernel.taskFinishPending
  split
  · rename_i heq
    rw [heq] at hprep hcnt
    exact hprep.finishTask (hlt.trans_eq hcnt.symm) hr ..
  · rename_i heq
    rw [heq] at hprep
    exact hprep

lemma requestTaskTermination (h : k.InOrder ∅ r) (hlt : t < k.slotCount) (hr : r ≠ some t) (w : World) (c status : ℕ) :
    (k.requestTaskTermination w c t status).InOrder ∅ r := by
  unfold Kernel.requestTaskTermination
  dsimp only
  have hmark : (k.setSlot t ({ · with terminateStatus := status, terminatePending := true })).InOrder ∅ r :=
    h.inert fun _ => ⟨rfl, rfl, rfl, rfl, rfl, rfl, rfl⟩
  split
  · exact hmark.schedulerRequest _
  · exact hmark.taskFinishPending hlt hr w c

end InOrder

end Kernel

/-! ## What the switch does to the lists -/

namespace Kernel

variable {k k' : Kernel} {out : Set ℕ} {r : Option ℕ} {t c : ℕ}

namespace InOrder

/-! ### Choosing the next task -/

lemma state_of_runnableList (h : k.InOrder out r) (ht : t ∈ k.runnableList c) :
    (k.slot t).state = .running ∧ (k.slot t).idle = false ∧ (k.slot t).cpu = c ∧ t ∉ out := by
  obtain ⟨lists, h⟩ := h
  rw [h.runnableList_eq] at ht
  exact (h.member c t).mp ht

lemma finishPicked (h : k.InOrder ∅ r) (w : World) (c : ℕ) (finished : List ℕ)
    (hk : Kernel.finishPicked w c finished k = some k') : k'.InOrder ∅ r ∧ k'.slotCount = k.slotCount := by
  induction finished generalizing k with
  | nil =>
    unfold Kernel.finishPicked at hk
    split at hk
    · exact Option.some.inj hk ▸ ⟨h, rfl⟩
    · cases hk
  | cons t finished ih =>
    unfold Kernel.finishPicked at hk
    split at hk
    · rename_i hfst
      have hmem : t ∈ k.runnableList c := List.mem_of_find?_eq_some hfst
      have hst := (h.state_of_runnableList hmem).1
      obtain ⟨h', hcnt⟩ := ih (h.taskFinishPending (h.lt (by simp [hst])) (h.ne_retired (by simp [hst])) w c) hk
      exact ⟨h', hcnt.trans (taskFinishPending_slotCount w)⟩
    · cases hk

lemma schedulerPickNext (h : k.InOrder ∅ r) (w : World) (c : ℕ) {finished : List ℕ} {choice next : Option ℕ}
    (hk : k.schedulerPickNext w c finished choice = some (k', next)) :
    k'.InOrder ∅ r ∧ k'.slotCount = k.slotCount ∧ ∀ t, next = some t → t < k.slotCount := by
  unfold Kernel.schedulerPickNext at hk
  obtain ⟨k₁, hfin, hk⟩ := Option.bind_eq_some_iff.mp hk
  unfold Kernel.choose at hk
  have hhint : (k.setCpu c ({ · with next := none })).InOrder ∅ r := h.inertCpu fun _ => ⟨rfl, rfl, rfl, rfl, rfl⟩
  obtain ⟨h₁, hcnt⟩ := hhint.finishPicked w c finished hfin
  rw [setCpu_slotCount] at hcnt
  cases choice with
  | some t =>
    dsimp only at hk
    split at hk
    · rename_i hmem
      obtain ⟨rfl, rfl⟩ := Prod.mk.inj (Option.some.inj hk)
      refine ⟨h₁, hcnt, fun u hu => hcnt ▸ ?_⟩
      cases hu
      rw [List.mem_filter] at hmem
      refine h₁.lt ?_
      have helig := hmem.2
      unfold Kernel.schedulerTaskEligible at helig
      intro hemp
      simp [hemp] at helig
    · cases hk
  | none =>
    dsimp only at hk
    split at hk
    · obtain ⟨rfl, rfl⟩ := Prod.mk.inj (Option.some.inj hk)
      refine ⟨h₁, hcnt, fun u hu => hcnt ▸ ?_⟩
      obtain ⟨lists, h₁⟩ := h₁
      exact h₁.bounded c u (.inr hu)
    · cases hk

lemma schedulerPull (h : k.InOrder ∅ r) (target : ℕ) : (k.schedulerPull target).1.InOrder ∅ r := by
  unfold Kernel.schedulerPull
  split
  · exact h.schedulerPlaceTask (Set.notMem_empty _) target
  · exact h

lemma schedulerTick (h : k.InOrder ∅ r) (c : ℕ) (online : ℕ → Bool) (balance : Bool) :
    (k.schedulerTick c online balance).InOrder ∅ r := by
  unfold Kernel.schedulerTick schedulerBalance
  dsimp only
  split
  · exact (h.schedulerRequest c).schedulerPull _
  · exact h.schedulerRequest c

lemma mtaskRunNow (h : k.InOrder ∅ r) (t : ℕ) : (k.mtaskRunNow t).InOrder ∅ r := by
  unfold Kernel.mtaskRunNow
  split
  · exact h
  · have hnext : (k.setCpu (k.slot t).cpu ({ · with next := some t })).InOrder ∅ r :=
      h.inertCpu fun _ => ⟨rfl, rfl, rfl, rfl, rfl⟩
    exact hnext.schedulerRequest _

/-! ### `task_next` -/

lemma releaseRetired (h : k.InOrder ∅ r) {fuel : ℕ} (hfuel : k.slotCount ≤ fuel) :
    (Kernel.releaseRetired fuel k).InOrder ∅ none ∧ (Kernel.releaseRetired fuel k).slotCount = k.slotCount := by
  have hdone : ∀ {fuel : ℕ} {k : Kernel}, k.retired = none → Kernel.releaseRetired fuel k = k := by
    intro fuel k hnone
    cases fuel with
    | zero => rfl
    | succ fuel =>
      unfold Kernel.releaseRetired
      rw [hnone]
  cases r with
  | none =>
    have hnone : k.retired = none := by
      obtain ⟨lists, h⟩ := h
      exact h.retired.1
    rw [hdone hnone]
    exact ⟨h, rfl⟩
  | some t =>
    obtain ⟨lists, h⟩ := h
    obtain ⟨hretd, hslot⟩ := h.retired
    obtain ⟨hrdy, hnext⟩ := hslot t rfl
    have hlt : t < k.slotCount := h.lt (by simp [hrdy])
    cases fuel with
    | zero => omega
    | succ fuel =>
      unfold Kernel.releaseRetired
      rw [hretd]
      dsimp only
      have hloos := h.notMem_of_state (t := t) (by simp [hrdy])
      -- without the slot nothing waits to be released
      have hnone : ({ k with retired := (k.slot t).runNext } : Kernel).Queued lists ∅ none :=
        { h with retired := ⟨hnext, nofun⟩ }
      have hclr := hnone.write (t := t) (f := ({ · with runNext := none })) hloos (h.isLists.prev_eq_none hloos)
        (fun hs => absurd (hrdy.symm.trans hs) nofun) (.inl hlt) nofun
      have hrel := InOrder.taskSlotRelease ⟨lists, hclr⟩ (t := t) nofun
      have hretd' : ((({ k with retired := (k.slot t).runNext } : Kernel).setSlot t
        ({ · with runNext := none })).taskSlotRelease
          t).retired = none := by
        obtain ⟨lists', hrel⟩ := hrel
        exact hrel.retired.1
      rw [hdone hretd']
      exact ⟨hrel, by simp⟩

lemma leaveStack (h : k.InOrder ∅ none) (t : ℕ) :
    (k.leaveStack t).InOrder ∅ none ∧ (k.leaveStack t).slotCount = k.slotCount := by
  unfold Kernel.leaveStack
  split
  · rename_i hst
    exact ⟨h.taskSetState (Set.notMem_empty t) (h.lt (by simp [hst])) nofun .ready, by simp⟩
  · exact ⟨h, rfl⟩

lemma leaveCpu (h : k.InOrder ∅ r) (hlt : t < k.slotCount) (w : World) (c : ℕ) :
    (k.leaveCpu w c t).InOrder ∅ none ∧ (k.leaveCpu w c t).slotCount = k.slotCount := by
  obtain ⟨hrel, hcnt⟩ := h.releaseRetired le_rfl
  unfold Kernel.leaveCpu
  dsimp only
  generalize Kernel.releaseRetired k.slotCount k = k₁ at *
  have hoff : (k₁.setSlot t ({ · with onCpu := false })).InOrder ∅ none :=
    hrel.inert fun _ => ⟨rfl, rfl, rfl, rfl, rfl, rfl, rfl⟩
  have hoffCount : (k₁.setSlot t ({ · with onCpu := false })).slotCount = k.slotCount := hcnt
  generalize k₁.setSlot t ({ · with onCpu := false }) = k₂ at *
  split
  · obtain ⟨hleft, hleftCount⟩ :=
      (hoff.taskFinishPending (hlt.trans_eq hoffCount.symm) nofun w c).leaveStack t
    exact ⟨hleft, hleftCount.trans ((taskFinishPending_slotCount w).trans hoffCount)⟩
  · obtain ⟨hleft, hleftCount⟩ := hoff.leaveStack t
    exact ⟨hleft, hleftCount.trans hoffCount⟩

lemma pickNext (h : k.InOrder ∅ r) (w : World) (c : ℕ) (picks : Picks) {next : Option ℕ}
    (hk : k.pickNext w c picks = some (k', next)) :
    k'.InOrder ∅ r ∧ k'.slotCount = k.slotCount ∧ ∀ t, next = some t → t < k.slotCount := by
  unfold Kernel.pickNext at hk
  obtain ⟨⟨k₁, next₁⟩, hfst, hk⟩ := Option.bind_eq_some_iff.mp hk
  obtain ⟨h₁, hcnt, hlt⟩ := h.schedulerPickNext w c hfst
  dsimp only at hk
  split at hk
  · have hpull := h₁.schedulerPull c
    have hpullCount := (schedulerPull_slotCount (k := k₁) c).trans hcnt
    split at hk
    · rename_i k₂ heq
      rw [heq] at hpull hpullCount
      obtain ⟨h₂, hcnt₂, hlt₂⟩ := hpull.schedulerPickNext w c hk
      exact ⟨h₂, hcnt₂.trans hpullCount, fun t ht => (hlt₂ t ht).trans_eq hpullCount⟩
    · rename_i k₂ heq
      rw [heq] at hpull hpullCount
      obtain ⟨rfl, rfl⟩ := Prod.mk.inj (Option.some.inj hk)
      exact ⟨hpull, hpullCount, hlt⟩
  · obtain ⟨rfl, rfl⟩ := Prod.mk.inj (Option.some.inj hk)
    exact ⟨h₁, hcnt, hlt⟩

lemma switchTo (h : k.InOrder ∅ none) {next : ℕ} (hlt : t < k.slotCount) (hnext : next < k.slotCount) (c : ℕ) :
    ∃ r, (k.switchTo c t next).InOrder ∅ r := by
  unfold Kernel.switchTo
  dsimp only
  have hchos : (k.setSlot next ({ · with onCpu := true, urgent := false, ready := false })).InOrder ∅ none :=
    h.inert fun _ => ⟨rfl, rfl, rfl, rfl, rfl, rfl, rfl⟩
  have hser : ((k.setSlot next ({ · with onCpu := true, urgent := false, ready := false })).setCpu c
      ({ · with needResched := false })).InOrder ∅ none := hchos.inertCpu fun _ => ⟨rfl, rfl, rfl, rfl, rfl⟩
  have hcnt : ((k.setSlot next ({ · with onCpu := true, urgent := false, ready := false })).setCpu c
      ({ · with needResched := false })).slotCount = k.slotCount := rfl
  generalize (k.setSlot next ({ · with onCpu := true, urgent := false, ready := false })).setCpu c
    ({ · with needResched := false }) = k₁ at *
  -- the CPU gets another current task
  have hcur : ∀ {k' : Kernel} {r : Option ℕ}, k'.InOrder ∅ r → next < k'.slotCount →
      (k'.setCpu c ({ · with current := some next })).InOrder ∅ r := fun h hlt =>
    h.writeCpu (fun _ => ⟨rfl, rfl, rfl, .inr rfl, .inl rfl⟩) hlt
  split
  · exact ⟨none, hser⟩
  split
  · rename_i hrdy
    refine ⟨some t, hcur ?_ (hnext.trans_eq hcnt.symm)⟩
    obtain ⟨lists, hser⟩ := hser
    have hloos := hser.notMem_of_state (t := t) (by simp [hrdy])
    have hlast := hser.write (t := t) (f := ({ · with runNext := k₁.retired })) hloos
      (hser.isLists.prev_eq_none hloos) (fun hs => absurd (hrdy.symm.trans hs) nofun)
      (.inl (hlt.trans_eq hcnt.symm)) nofun
    refine ⟨lists, { hlast with retired := ⟨rfl, fun u hu => ?_⟩ }⟩
    cases hu
    simpa [setSlot] using ⟨hrdy, hser.retired.1⟩
  · exact ⟨none, hcur hser (hnext.trans_eq hcnt.symm)⟩

lemma taskNext (h : k.InOrder ∅ r) (w : World) (c : ℕ) (picks : Picks) (hk : k.taskNext w c picks = some k') :
    ∃ r, k'.InOrder ∅ r := by
  unfold Kernel.taskNext at hk
  split at hk
  · exact ⟨r, Option.some.inj hk ▸ h⟩
  · rename_i t hcur
    have hlt : t < k.slotCount := by
      obtain ⟨lists, h⟩ := h
      exact h.bounded c t (.inl hcur)
    obtain ⟨⟨k₁, next⟩, hpick, hk⟩ := Option.map_eq_some_iff.mp hk
    obtain ⟨hleft, hleftCount⟩ := h.leaveCpu hlt w c
    obtain ⟨h₁, hcnt, hnext⟩ := hleft.pickNext w c picks hpick
    rw [hleftCount] at hcnt hnext
    rw [← hk]
    unfold Kernel.switch
    cases next with
    | none => exact ⟨none, h₁.inert fun _ => ⟨rfl, rfl, rfl, rfl, rfl, rfl, rfl⟩⟩
    | some next => exact h₁.switchTo (hlt.trans_eq hcnt.symm) ((hnext next rfl).trans_eq hcnt.symm) c

/-! ### Calls of the current task -/

lemma taskFallBlockedReason (h : k.InOrder ∅ r) (ht : (k.slot t).state = .running) (w : World) (c : ℕ) (state : STATE)
    (reason : WaitReason) (picks : Picks) (hk : k.taskFallBlockedReason w c t state reason picks = some k') :
    ∃ r, k'.InOrder ∅ r := by
  unfold Kernel.taskFallBlockedReason at hk
  split at hk
  · exact ⟨r, Option.some.inj hk ▸ h.inert fun _ => ⟨rfl, rfl, rfl, rfl, rfl, rfl, rfl⟩⟩
  · have hset := h.taskSetState (Set.notMem_empty t) (h.lt (by simp [ht])) (h.ne_retired (by simp [ht])) state
    have hblk : (k.fallBlocked t state reason).InOrder ∅ r := hset.inert fun _ => ⟨rfl, rfl, rfl, rfl, rfl, rfl, rfl⟩
    exact hblk.taskNext w c picks hk

lemma taskExit (h : k.InOrder ∅ r) (ht : (k.slot t).state = .running) (w : World) (c status : ℕ) (picks : Picks)
    (hk : k.taskExit w c t status picks = some k') : ∃ r, k'.InOrder ∅ r := by
  have hmark : (k.setSlot t ({ · with terminateStatus := status })).InOrder ∅ r :=
    h.inert fun _ => ⟨rfl, rfl, rfl, rfl, rfl, rfl, rfl⟩
  exact (hmark.taskFinishPending (h.lt (by simp [ht])) (h.ne_retired (by simp [ht])) w c).taskNext w c picks hk

lemma getTask_some (h : k.InOrder ∅ r) {tid : ℕ} (ht : k.getTask tid = some t) : t < k.slotCount ∧ r ≠ some t := by
  unfold Kernel.getTask at ht
  split at ht
  · rename_i huse
    cases ht
    refine ⟨huse.1, h.ne_retired fun heq => ?_⟩
    have := huse.2
    simp [taskSlotInUse, heq] at this
  · cases ht

lemma taskExitProcess (h : k.InOrder ∅ r) (ht : (k.slot t).state = .running) (w w' : World) (c status : ℕ) (picks : Picks)
    (hk : k.taskExitProcess w c t w' status picks = some k') : ∃ r, k'.InOrder ∅ r := by
  have hlt : t < k.slotCount := h.lt (by simp [ht])
  have hr : r ≠ some t := h.ne_retired (by simp [ht])
  unfold Kernel.taskExitProcess at hk
  dsimp only at hk
  have hgrp := (h.terminateThreadGroup w c (k.slot t).tgid t).reparentChildren (k.slot t).tgid reaperTid
  have hcnt : ((k.terminateThreadGroup w c (k.slot t).tgid t).reparentChildren (k.slot t).tgid reaperTid).slotCount =
      k.slotCount := by simp
  generalize (k.terminateThreadGroup w c (k.slot t).tgid t).reparentChildren (k.slot t).tgid reaperTid = k₁ at *
  have hlast : ∀ {k₂ : Kernel}, k₂.InOrder ∅ r → k₂.slotCount = k.slotCount →
      ((k₂.setSlot t ({ · with terminateStatus := status })).taskFinishPending w' c t).taskNext w c picks = some k' →
      ∃ r, k'.InOrder ∅ r := by
    intro k₂ h₂ hcnt₂ hk
    have hmark : (k₂.setSlot t ({ · with terminateStatus := status })).InOrder ∅ r :=
      h₂.inert fun _ => ⟨rfl, rfl, rfl, rfl, rfl, rfl, rfl⟩
    exact (hmark.taskFinishPending (hlt.trans_eq hcnt₂.symm) hr w' c).taskNext w c picks hk
  split at hk
  · rename_i leader hldr
    obtain ⟨hleaderLt, hleaderRetired⟩ := h.getTask_some hldr
    split at hk
    · refine hlast (hgrp.requestTaskTermination (hleaderLt.trans_eq hcnt.symm) hleaderRetired w c status) ?_ hk
      rw [requestTaskTermination_slotCount, hcnt]
    · exact hlast hgrp hcnt hk
  · exact hlast hgrp hcnt hk

lemma taskKill (h : k.InOrder ∅ r) (w : World) (c tid : ℕ) (picks : Picks) (hk : k.taskKill w c tid picks = some k') :
    ∃ r, k'.InOrder ∅ r := by
  unfold Kernel.taskKill at hk
  split at hk
  · exact ⟨r, Option.some.inj hk ▸ h⟩
  rename_i t hfnd
  obtain ⟨hlt, hr⟩ := h.getTask_some hfnd
  split at hk
  · exact ⟨r, Option.some.inj hk ▸ h⟩
  have hkill := h.requestTaskTermination hlt hr w c taskKilledStatus
  dsimp only at hk
  split at hk
  · exact hkill.taskNext w c picks hk
  · exact ⟨r, Option.some.inj hk ▸ hkill⟩

lemma taskWaitPass (h : k.InOrder ∅ r) (ht : (k.slot t).state = .running) (w : World) (c : ℕ) (call : WaitCall) (picks : Picks)
    {result : Option (Option ℕ)} (hk : k.taskWaitPass w c t call picks = some (result, k')) : ∃ r, k'.InOrder ∅ r := by
  have hend : (k.endWait t).InOrder ∅ r := h.inert fun _ => ⟨rfl, rfl, rfl, rfl, rfl, rfl, rfl⟩
  unfold Kernel.taskWaitPass at hk
  split at hk
  · obtain ⟨-, rfl⟩ := Prod.mk.inj (Option.some.inj hk)
    exact ⟨r, hend⟩
  rename_i child _
  split at hk
  · rename_i hdied
    obtain ⟨-, rfl⟩ := Prod.mk.inj (Option.some.inj hk)
    exact ⟨r, hend.taskSlotRelease (h.ne_retired (by simp [hdied]))⟩
  · obtain ⟨k₁, hnext, hpair⟩ := Option.map_eq_some_iff.mp hk
    obtain ⟨-, rfl⟩ := Prod.mk.inj hpair
    have hask : (k.setSlot t
        ({ · with waittid := call.tid, waitGeneration := call.generation, waitReason := .child })).InOrder ∅ r :=
      h.inert fun _ => ⟨rfl, rfl, rfl, rfl, rfl, rfl, rfl⟩
    have hset := hask.taskSetState (Set.notMem_empty t) (h.lt (by simp [ht])) (h.ne_retired (by simp [ht])) .waiting
    have hwait : (k.waitFor t call).InOrder ∅ r := by
      unfold Kernel.waitFor
      exact hset.inert fun _ => ⟨rfl, rfl, rfl, rfl, rfl, rfl, rfl⟩
    exact hwait.taskNext w c picks hnext

lemma taskDetachThread (h : k.InOrder ∅ r) (t tid generation : ℕ) : (k.taskDetachThread t tid generation).InOrder ∅ r := by
  unfold Kernel.taskDetachThread
  split
  · exact h
  rename_i thread hfnd
  have hdet : (k.setSlot thread ({ · with joinable := false })).InOrder ∅ r :=
    h.inert fun _ => ⟨rfl, rfl, rfl, rfl, rfl, rfl, rfl⟩
  dsimp only
  split
  · exact h
  split
  · exact hdet.taskSlotRelease (h.getTask_some hfnd).2
  · exact hdet

lemma taskTerminateThread (h : k.InOrder ∅ r) (w : World) (c t tid generation : ℕ) (picks : Picks)
    (hk : k.taskTerminateThread w c t tid generation picks = some k') : ∃ r, k'.InOrder ∅ r := by
  unfold Kernel.taskTerminateThread at hk
  split at hk
  · exact ⟨r, Option.some.inj hk ▸ h⟩
  dsimp only at hk
  split at hk
  · exact ⟨r, Option.some.inj hk ▸ h⟩
  · exact h.taskKill w c tid picks hk

lemma taskWaitThreads (h : k.InOrder ∅ r) (ht : (k.slot t).state = .running) (w : World) (c : ℕ) (picks : Picks)
    (hk : k.taskWaitThreads w c t picks = some k') : ∃ r, k'.InOrder ∅ r := by
  unfold Kernel.taskWaitThreads at hk
  split at hk
  · have hask : (k.setSlot t ({ · with waittid := taskIdNone, waitGeneration := 0 })).InOrder ∅ r :=
      h.inert fun _ => ⟨rfl, rfl, rfl, rfl, rfl, rfl, rfl⟩
    refine hask.taskFallBlockedReason ?_ w c _ _ picks hk
    rw [setSlot_self]
    exact ht
  · exact ⟨r, Option.some.inj hk ▸ h⟩

end InOrder

end Kernel

/-! ## A release that does not sleep -/

namespace Stepwise

open Lib

variable {w : World} {c t : ℕ} {k : Kernel}

@[simp] lemma finishTask_atOnce (status : ℕ) (waitable : Bool) :
    (finishTask w c t k status waitable).atOnce = some (k.finishTask w c t status waitable) := rfl

@[simp] lemma requestThreadTermination_atOnce (status : ℕ) :
    (requestThreadTermination w c t k status).atOnce = some (k.requestThreadTermination w c t status) := by
  unfold requestThreadTermination Kernel.requestThreadTermination
  dsimp only
  split_ifs <;> rfl

lemma forSlots_atOnce {f : ℕ → Kernel → Resumption Kernel Kernel} {g : Kernel → ℕ → Kernel}
    (hf : ∀ i k, (f i k).atOnce = some (g k i)) (hg : ∀ k i, (g k i).slotCount = k.slotCount) :
    (forSlots k f).atOnce = some (k.forSlots g) := by
  unfold forSlots
  rw [Resumption.atOnce_loop hf (fun i k => hg k i) (by omega), Nat.sub_zero, ← List.range_eq_range']
  rfl

@[simp] lemma terminateThreadGroup_atOnce (tgid except : ℕ) :
    (terminateThreadGroup w c k tgid except).atOnce = some (k.terminateThreadGroup w c tgid except) := by
  refine forSlots_atOnce (fun i k => ?_) fun k i => ?_
  · dsimp only
    split_ifs
    · rfl
    · rfl
    · exact requestThreadTermination_atOnce taskKilledStatus
  · dsimp only
    split_ifs
    · rfl
    · simp
    · rw [Kernel.requestThreadTermination_slotCount, Kernel.setSlot_slotCount]

@[simp] lemma prepareFinish_atOnce : (prepareFinish w c t k).atOnce = some (k.prepareFinish w c t) := by
  unfold prepareFinish Kernel.prepareFinish
  dsimp only
  split_ifs
  · rw [Resumption.atOnce_bind, terminateThreadGroup_atOnce]
    rfl
  · rfl

@[simp] lemma taskFinishPending_atOnce :
    (taskFinishPending w c t k).atOnce = some (k.taskFinishPending w c t) := by
  unfold taskFinishPending Kernel.taskFinishPending
  rw [Resumption.atOnce_bind, prepareFinish_atOnce, Option.bind_some]
  split <;> rfl

@[simp] lemma requestTaskTermination_atOnce (status : ℕ) :
    (requestTaskTermination w c t k status).atOnce = some (k.requestTaskTermination w c t status) := by
  unfold requestTaskTermination Kernel.requestTaskTermination
  dsimp only
  split_ifs
  · rfl
  · exact taskFinishPending_atOnce

@[simp] lemma finishPicked_atOnce (finished : List ℕ) :
    (finishPicked w c finished k).atOnce = Kernel.finishPicked w c finished k := by
  induction finished generalizing k with
  | nil =>
    unfold finishPicked Kernel.finishPicked
    split_ifs <;> rfl
  | cons u finished ih =>
    unfold finishPicked Kernel.finishPicked
    split_ifs
    · rw [Resumption.atOnce_bind, taskFinishPending_atOnce, Option.bind_some, ih]
    · rfl

@[simp] lemma schedulerPickNext_atOnce (finished : List ℕ) (choice : Option ℕ) :
    (schedulerPickNext w c k finished choice).atOnce = k.schedulerPickNext w c finished choice := by
  simp [schedulerPickNext, Kernel.schedulerPickNext]

@[simp] lemma leaveCpu_atOnce : (leaveCpu w c t k).atOnce = some (k.leaveCpu w c t) := by
  unfold leaveCpu Kernel.leaveCpu
  dsimp only
  split_ifs <;> simp

@[simp] lemma pickNext_atOnce (picks : Kernel.Picks) : (pickNext w c k picks).atOnce = k.pickNext w c picks := by
  unfold pickNext Kernel.pickNext
  rw [Resumption.atOnce_bind, schedulerPickNext_atOnce]
  refine congrArg _ (funext fun (k₁, next) => ?_)
  dsimp only
  split_ifs
  · split
    · exact schedulerPickNext_atOnce _ _
    · rfl
  · rfl

@[simp] lemma taskNext_atOnce (picks : Kernel.Picks) : (taskNext w c k picks).atOnce = k.taskNext w c picks := by
  unfold taskNext Kernel.taskNext
  split
  · rfl
  · simp [Option.map_eq_bind]

@[simp] lemma taskFallBlockedReason_atOnce (state : STATE) (reason : WaitReason) (picks : Kernel.Picks) :
    (taskFallBlockedReason w c t k state reason picks).atOnce = k.taskFallBlockedReason w c t state reason picks := by
  unfold taskFallBlockedReason Kernel.taskFallBlockedReason
  split_ifs <;> simp

lemma taskExit_atOnce (status : ℕ) (picks : Kernel.Picks) :
    (taskExit w c t k status picks).atOnce = k.taskExit w c t status picks := by
  simp [taskExit, Kernel.taskExit]

lemma taskExitProcess_atOnce (w' : World) (status : ℕ) (picks : Kernel.Picks) :
    (taskExitProcess w c t k w' status picks).atOnce = k.taskExitProcess w c t w' status picks := by
  unfold taskExitProcess Kernel.taskExitProcess
  dsimp only
  rw [Resumption.atOnce_bind, terminateThreadGroup_atOnce, Option.bind_some, Resumption.atOnce_bind]
  split
  · split_ifs <;> simp
  · simp

@[simp] lemma taskKill_atOnce (tid : ℕ) (picks : Kernel.Picks) :
    (taskKill w c k tid picks).atOnce = k.taskKill w c tid picks := by
  unfold taskKill Kernel.taskKill
  split
  · rfl
  · dsimp only
    split_ifs <;> simp_all

lemma taskTerminateThread_atOnce (tid generation : ℕ) (picks : Kernel.Picks) :
    (taskTerminateThread w c t k tid generation picks).atOnce = k.taskTerminateThread w c t tid generation picks := by
  unfold taskTerminateThread Kernel.taskTerminateThread
  split
  · rfl
  · dsimp only
    split_ifs <;> simp

lemma taskWaitPass_atOnce {call : Kernel.WaitCall} {picks : Kernel.Picks} {p : Resumption Kernel Kernel}
    (hp : taskWaitPass w c t k call picks = some p) :
    k.taskWaitPass w c t call picks = p.atOnce.map (none, ·) := by
  unfold taskWaitPass at hp
  unfold Kernel.taskWaitPass
  split at hp
  · cases hp
  · split_ifs at hp with hdied
    cases hp
    simp only [*, taskNext_atOnce, if_false]

lemma taskWaitThreads_atOnce (picks : Kernel.Picks) :
    (taskWaitThreads w c t k picks).atOnce = k.taskWaitThreads w c t picks := by
  unfold taskWaitThreads Kernel.taskWaitThreads
  split_ifs <;> simp

end Stepwise

/-! ## Membership, load and movable tasks in every run -/

open Lib

/-- A task is in the list of its own CPU if and only if it is `RUNNING` and not idle; every list is a doubly linked list
without repetition, and a task that is linked is in one of them; `load` and `movable` are those of the list. -/
structure Kernel.Balanced (k : Kernel) : Prop where
  isList : ∀ c, HeadedList.IsList k.links c (k.runnableList c)
  linked : ∀ t, (k.slot t).runPrevious.isSome ↔ ∃ c, t ∈ k.runnableList c
  member : ∀ c t, t ∈ k.runnableList c ↔ (k.slot t).state = .running ∧ (k.slot t).idle = false ∧ (k.slot t).cpu = c
  load : ∀ c, (k.cpu c).load = ((k.runnableList c).map fun t => (k.slot t).share).sum
  movable : ∀ c, (k.cpu c).movable = ((k.runnableList c).countP fun t => !(k.slot t).pinned : ℕ)

lemma Kernel.InOrder.balanced {k : Kernel} {r : Option ℕ} (h : k.InOrder ∅ r) : k.Balanced := by
  obtain ⟨lists, h⟩ := h
  have hall : k.runnableList = lists := funext h.runnableList_eq
  refine ⟨fun c => ?_, fun t => ?_, fun c t => ?_, fun c => ?_, fun c => ?_⟩ <;> rw [hall]
  · exact h.isLists.isList c
  · exact h.isLists.linked t
  · simpa using h.member c t
  · exact h.load c
  · exact h.movable c

/-- No `finish_task` sleeps in the step. -/
def SchedEvent.Calm : SchedEvent → Prop
  | .sleeps .. | .resumes .. => False
  | _ => True

namespace SchedState

variable {s s' : SchedState} {c t : ℕ}

/-- The lists are in order, and no task is inside of a release. -/
structure Ordered (s : SchedState) : Prop where
  inOrder : ∃ r, s.kernel.InOrder ∅ r
  rests : ∀ t, s.rests t = []

lemma Ordered.executing (h : s.Ordered) (ht : s.executing c = some t) : (s.kernel.slot t).state = .running := by
  unfold SchedState.executing at ht
  rw [Option.filter_eq_some_iff] at ht
  simpa [h.rests] using ht.2

lemma executing_of_caller (h : s.caller c = some t) : s.executing c = some t :=
  (Option.filter_eq_some_iff.mp h).1

lemma withNew_kernel (p : Kernel × Option ℕ) : (s.withNew p).kernel = p.1 := by
  obtain ⟨k, t⟩ := p
  cases t <;> rfl

lemma calls_some {f : ℕ → Option Kernel} (h : s.calls c f = some s') :
    ∃ t k, s.caller c = some t ∧ f t = some k ∧ s' = s.withKernel k := by
  obtain ⟨t, hcall, h⟩ := Option.bind_eq_some_iff.mp h
  obtain ⟨k, hf, rfl⟩ := Option.map_eq_some_iff.mp h
  exact ⟨t, k, hcall, hf, rfl⟩

lemma ordered_init (h : s.Init) : s.Ordered := by
  have hslot : ∀ t, s.kernel.slot t = taskSlotReset t 0 := h.slot
  refine ⟨⟨none, fun _ => [], ?_⟩, h.rests⟩
  refine ⟨⟨fun c => ?_, fun t => ?_⟩, fun c t => ?_, fun c => ?_, fun c => ?_, fun t _ => ?_,
    ⟨h.retired, nofun⟩, fun c t ht => ?_⟩
  · refine ⟨List.nodup_nil, ?_, fun a x b he => ?_, fun a x b he => ?_⟩
    · show (s.kernel.cpu c).runnable = _
      rw [h.cpu]
      rfl
    · simp at he
    · simp at he
  · show (s.kernel.slot t).runPrevious.isSome ↔ _
    rw [hslot]
    simp [taskSlotReset]
  · rw [hslot]
    simp [taskSlotReset]
  · rw [h.cpu]
    rfl
  · rw [h.cpu]
    rfl
  · rw [hslot]
    rfl
  · rw [h.cpu] at ht
    simp at ht

lemma ordered_pinCurrent {r : Option ℕ} (h : s.kernel.InOrder ∅ r) {w : World} {target : ℕ} {picks : Kernel.Picks} {k : Kernel}
    (hk : s.pinCurrent w c t target picks = some k) : ∃ r, k.InOrder ∅ r := by
  unfold pinCurrent at hk
  split at hk
  · exact ⟨r, Option.some.inj hk ▸ h⟩
  split at hk
  · exact ⟨r, Option.some.inj hk ▸ h⟩
  rename_i k₁ hpin
  have hpinn := h.taskPinAddressSpace hpin
  split at hk
  · exact (hpinn.schedulerRequest target).taskNext w c picks hk
  · exact ⟨r, Option.some.inj hk ▸ hpinn⟩

lemma ordered_waitPass {r : Option ℕ} (h : s.kernel.InOrder ∅ r) (ht : (s.kernel.slot t).state = .running) {w : World}
    {call : Kernel.WaitCall} {picks : Kernel.Picks} (hs : s.waitPass w c t call picks = some s') :
    ∃ r, s'.kernel.InOrder ∅ r := by
  obtain ⟨⟨result, k⟩, hpass, rfl⟩ := Option.map_eq_some_iff.mp hs
  exact h.taskWaitPass ht w c call picks hpass

/-- **Every step in which no release sleeps keeps the lists in order.** -/
lemma inOrder_step {config : Config} {e : SchedEvent} (hord : s.Ordered) (hcalm : e.Calm)
    (hs : s.step config e = some s') : ∃ r, s'.kernel.InOrder ∅ r := by
  obtain ⟨r, h⟩ := hord.inOrder
  cases e with
  | grow memory =>
    obtain ⟨k, hk, rfl⟩ := Option.map_eq_some_iff.mp hs
    exact ⟨r, h.taskRegistryGrow hk⟩
  | create c weight share grow memory =>
    have hcr : ∀ parent, ∃ r, (s.withNew (s.kernel.createTaskImpl c config.kernelSpace config.sharedSmp parent weight
        share grow memory)).kernel.InOrder ∅ r := by
      intro parent
      refine ⟨r, ?_⟩
      rw [withNew_kernel]
      exact h.createTaskImpl ..
    simp only [step] at hs
    split at hs
    · obtain ⟨t, -, rfl⟩ := Option.map_eq_some_iff.mp hs
      exact hcr _
    · exact Option.some.inj hs ▸ hcr _
  | setup t cpu idle pinned joinable =>
    simp only [step] at hs
    split at hs
    · rename_i hst
      obtain ⟨hfld, -⟩ := h.fill (f := ({ · with cpu := cpu, idle := idle, pinned := pinned, joinable := joinable }))
        hst hst (.inl rfl)
      rw [← Option.some.inj hs]
      refine ⟨r, ?_⟩
      show (if idle = true then _ else _ : Kernel).InOrder ∅ r
      split
      · exact hfld.writeCpu (t := t) (fun _ => ⟨rfl, rfl, rfl, .inl rfl, .inr rfl⟩) (h.lt (by simp [hst]))
      · exact hfld
    · cases hs
  | publish w t =>
    rw [← Option.some.inj hs]
    exact ⟨r, h.taskPublish (Set.notMem_empty t) w.online⟩
  | abort t =>
    rw [← Option.some.inj hs]
    exact ⟨r, h.taskAbortCreation t⟩
  | fork w c grow memory =>
    obtain ⟨t, -, rfl⟩ := Option.map_eq_some_iff.mp hs
    refine ⟨r, ?_⟩
    rw [withNew_kernel]
    exact h.taskFork ..
  | start c t =>
    simp only [step] at hs
    split at hs
    · rename_i hstar
      rw [← Option.some.inj hs]
      have hon : (s.kernel.setSlot t ({ · with onCpu := true })).InOrder ∅ r :=
        h.inert fun _ => ⟨rfl, rfl, rfl, rfl, rfl, rfl, rfl⟩
      have hlt : t < s.kernel.slotCount := h.lt (by simp [hstar.2.1])
      have hstrt : ((s.kernel.setSlot t ({ · with onCpu := true })).setCpu c ({ · with current := some t })).InOrder ∅ r :=
        hon.writeCpu (fun _ => ⟨rfl, rfl, rfl, .inr rfl, .inl rfl⟩) hlt
      exact ⟨r, hstrt⟩
    · cases hs
  | setWeight t weight =>
    rw [← Option.some.inj hs]
    exact ⟨r, h.taskSetWeight t weight⟩
  | run w t =>
    rw [← Option.some.inj hs]
    exact ⟨r, h.taskRun (Set.notMem_empty t) w.online⟩
  | sleep t =>
    simp only [step] at hs
    split at hs
    · rename_i hfnd
      obtain ⟨u, hu⟩ := Option.isSome_iff_exists.mp hfnd.1
      have hut : u = t := by
        unfold Kernel.getTask at hu
        split at hu
        · exact (Option.some.inj hu).symm
        · cases hu
      subst hut
      obtain ⟨hlt, hr⟩ := h.getTask_some hu
      rw [← Option.some.inj hs]
      have hset := h.taskSetState (Set.notMem_empty u) hlt hr .sleeping
      have hslep : ((s.kernel.taskSetState u .sleeping).setSlot u ({ · with waitReason := .other })).InOrder ∅ r :=
        hset.inert fun _ => ⟨rfl, rfl, rfl, rfl, rfl, rfl, rfl⟩
      exact ⟨r, hslep⟩
    · cases hs
  | runNow t =>
    rw [← Option.some.inj hs]
    exact ⟨r, h.mtaskRunNow t⟩
  | tick w c balance =>
    rw [← Option.some.inj hs]
    exact ⟨r, h.schedulerTick c w.online balance⟩
  | next w c picks =>
    obtain ⟨k, hk, rfl⟩ := Option.map_eq_some_iff.mp hs
    exact h.taskNext w c picks hk
  | block w c state reason picks =>
    simp only [step] at hs
    split at hs
    · obtain ⟨t, hexec, hs⟩ := Option.bind_eq_some_iff.mp hs
      obtain ⟨k, hk, rfl⟩ := Option.map_eq_some_iff.mp hs
      exact h.taskFallBlockedReason (hord.executing hexec) w c state reason picks hk
    · cases hs
  | pin w c target picks =>
    obtain ⟨t, k, -, hk, rfl⟩ := calls_some hs
    exact ordered_pinCurrent h hk
  | kill w c tid picks =>
    obtain ⟨t, k, -, hk, rfl⟩ := calls_some hs
    exact h.taskKill w c tid picks hk
  | exit w c status picks =>
    obtain ⟨t, k, hcall, hk, rfl⟩ := calls_some hs
    exact h.taskExit (hord.executing (executing_of_caller hcall)) w c status picks hk
  | exitProcess w w' c status picks =>
    obtain ⟨t, k, hcall, hk, rfl⟩ := calls_some hs
    exact h.taskExitProcess (hord.executing (executing_of_caller hcall)) w w' c status picks hk
  | wait w c tid generation thread picks =>
    obtain ⟨t, hcall, hs⟩ := Option.bind_eq_some_iff.mp hs
    split at hs
    · rw [← Option.some.inj hs]
      exact ⟨r, h⟩
    · exact ordered_waitPass h (hord.executing (executing_of_caller hcall)) hs
  | waitAgain w c picks =>
    obtain ⟨t, hexec, hs⟩ := Option.bind_eq_some_iff.mp hs
    obtain ⟨call, -, hs⟩ := Option.bind_eq_some_iff.mp hs
    exact ordered_waitPass h (hord.executing hexec) hs
  | detach c tid generation =>
    obtain ⟨t, k, -, hk, rfl⟩ := calls_some hs
    rw [← Option.some.inj hk]
    exact ⟨r, h.taskDetachThread t tid generation⟩
  | terminateThread w c tid generation picks =>
    obtain ⟨t, k, -, hk, rfl⟩ := calls_some hs
    exact h.taskTerminateThread w c t tid generation picks hk
  | waitThreads w c picks =>
    obtain ⟨t, k, hcall, hk, rfl⟩ := calls_some hs
    exact h.taskWaitThreads (hord.executing (executing_of_caller hcall)) w c picks hk
  | sleeps e n => exact hcalm.elim
  | resumes c n => exact hcalm.elim

lemma withNew_rests (hrests : ∀ t, s.rests t = []) (p : Kernel × Option ℕ) : ∀ t, (s.withNew p).rests t = [] := by
  obtain ⟨k, new⟩ := p
  intro t
  cases new with
  | none => exact hrests t
  | some new =>
    show Function.update s.rests new [] t = []
    rw [Function.update_apply]
    split_ifs
    · rfl
    · exact hrests t

lemma calls_rests {f : ℕ → Option Kernel} (h : s.calls c f = some s') : s'.rests = s.rests := by
  obtain ⟨t, k, -, -, rfl⟩ := calls_some h
  rfl

lemma waitPass_rests {w : World} {call : Kernel.WaitCall} {picks : Kernel.Picks}
    (hs : s.waitPass w c t call picks = some s') : s'.rests = s.rests := by
  obtain ⟨_, -, rfl⟩ := Option.map_eq_some_iff.mp hs
  rfl

/-- No task is inside of a release behind such a step. -/
lemma rests_step {config : Config} {e : SchedEvent} (hrests : ∀ t, s.rests t = []) (hcalm : e.Calm)
    (hs : s.step config e = some s') : ∀ t, s'.rests t = [] := by
  have hsame : s'.rests = s.rests → ∀ t, s'.rests t = [] := fun he t => he ▸ hrests t
  cases e with
  | grow memory =>
    obtain ⟨k, -, rfl⟩ := Option.map_eq_some_iff.mp hs
    exact hrests
  | create c weight share grow memory =>
    simp only [step] at hs
    split at hs
    · obtain ⟨t, -, rfl⟩ := Option.map_eq_some_iff.mp hs
      exact withNew_rests hrests _
    · exact Option.some.inj hs ▸ withNew_rests hrests _
  | fork w c grow memory =>
    obtain ⟨t, -, rfl⟩ := Option.map_eq_some_iff.mp hs
    exact withNew_rests hrests _
  | setup | start | sleep =>
    simp only [step, Option.ite_none_right_eq_some, Option.some.injEq] at hs
    obtain ⟨-, rfl⟩ := hs
    exact hrests
  | publish | abort | setWeight | run | runNow | tick =>
    rw [← Option.some.inj hs]
    exact hrests
  | next w c picks =>
    obtain ⟨k, -, rfl⟩ := Option.map_eq_some_iff.mp hs
    exact hrests
  | block w c state reason picks =>
    simp only [step, Option.ite_none_right_eq_some] at hs
    obtain ⟨t, -, hs⟩ := Option.bind_eq_some_iff.mp hs.2
    obtain ⟨k, -, rfl⟩ := Option.map_eq_some_iff.mp hs
    exact hrests
  | pin | kill | exit | exitProcess | detach | terminateThread | waitThreads => exact hsame (calls_rests hs)
  | wait w c tid generation thread picks =>
    obtain ⟨t, -, hs⟩ := Option.bind_eq_some_iff.mp hs
    split at hs
    · exact Option.some.inj hs ▸ hrests
    · exact hsame (waitPass_rests hs)
  | waitAgain w c picks =>
    obtain ⟨t, -, hs⟩ := Option.bind_eq_some_iff.mp hs
    obtain ⟨call, -, hs⟩ := Option.bind_eq_some_iff.mp hs
    exact hsame (waitPass_rests hs)
  | sleeps e n => exact hcalm.elim
  | resumes c n => exact hcalm.elim

lemma ordered_step {config : Config} {e : SchedEvent} (h : s.Ordered) (hcalm : e.Calm)
    (hs : (schedSystem config).step s e = some s') : s'.Ordered :=
  ⟨inOrder_step h hcalm hs, rests_step h.rests hcalm hs⟩

/-! ### The steps are the functions whose releases do not sleep -/

lemma pinCurrentStepwise_atOnce {w : World} {target : ℕ} {picks : Kernel.Picks} :
    (s.pinCurrentStepwise w c t target picks).atOnce = s.pinCurrent w c t target picks := by
  unfold pinCurrentStepwise pinCurrent
  split
  · rfl
  · cases s.kernel.taskPinAddressSpace t (s.kernel.slot t).addressSpace target with
    | none => rfl
    | some k =>
      dsimp only
      split_ifs
      · exact Stepwise.taskNext_atOnce picks
      · rfl

lemma waits_atOnce {w : World} {call : Kernel.WaitCall} {picks : Kernel.Picks} {s₀ : SchedState} {u : ℕ}
    {p : Resumption Kernel Kernel} (hp : s.waits w c t call picks = some (s₀, u, p)) :
    (s.waitPass w c t call picks).map (·.kernel) = p.atOnce := by
  obtain ⟨p', hp', he⟩ := Option.map_eq_some_iff.mp hp
  cases he
  rw [waitPass, Stepwise.taskWaitPass_atOnce hp']
  cases p.atOnce <;> rfl

lemma calls_kernel {f : ℕ → Option Kernel} (hc : s.caller c = some t) :
    (s.calls c f).map (·.kernel) = f t := by
  rw [calls, hc, Option.bind_some, Option.map_map]
  exact Option.map_id'

/-- **An event whose releases do not sleep is a step**: `step` runs the functions that `sleeps` stops. -/
theorem program_atOnce {config : Config} {e : SchedEvent} {s₀ : SchedState} {p : Resumption Kernel Kernel}
    (hp : s.program e = some (s₀, t, p)) : (s.step config e).map (·.kernel) = p.atOnce := by
  cases e with
  | next w c picks =>
    obtain ⟨u, -, he⟩ := Option.map_eq_some_iff.mp hp
    cases he
    rw [step, Option.map_map, Stepwise.taskNext_atOnce]
    exact Option.map_id'
  | block w c state reason picks =>
    simp only [program, Option.ite_none_right_eq_some] at hp
    obtain ⟨hst, hp⟩ := hp
    obtain ⟨u, hu, he⟩ := Option.map_eq_some_iff.mp hp
    cases he
    rw [step, if_pos hst, hu, Option.bind_some, Option.map_map, Stepwise.taskFallBlockedReason_atOnce]
    exact Option.map_id'
  | pin w c target picks =>
    obtain ⟨u, hu, he⟩ := Option.map_eq_some_iff.mp hp
    cases he
    exact (calls_kernel hu).trans pinCurrentStepwise_atOnce.symm
  | kill w c tid picks =>
    obtain ⟨u, hu, he⟩ := Option.map_eq_some_iff.mp hp
    cases he
    exact (calls_kernel hu).trans (Stepwise.taskKill_atOnce tid picks).symm
  | exit w c status picks =>
    obtain ⟨u, hu, he⟩ := Option.map_eq_some_iff.mp hp
    cases he
    exact (calls_kernel hu).trans (Stepwise.taskExit_atOnce status picks).symm
  | exitProcess w w' c status picks =>
    obtain ⟨u, hu, he⟩ := Option.map_eq_some_iff.mp hp
    cases he
    exact (calls_kernel hu).trans (Stepwise.taskExitProcess_atOnce w' status picks).symm
  | terminateThread w c tid generation picks =>
    obtain ⟨u, hu, he⟩ := Option.map_eq_some_iff.mp hp
    cases he
    exact (calls_kernel hu).trans (Stepwise.taskTerminateThread_atOnce tid generation picks).symm
  | waitThreads w c picks =>
    obtain ⟨u, hu, he⟩ := Option.map_eq_some_iff.mp hp
    cases he
    exact (calls_kernel hu).trans (Stepwise.taskWaitThreads_atOnce picks).symm
  | wait w c tid generation thread picks =>
    obtain ⟨u, hu, hp⟩ := Option.bind_eq_some_iff.mp hp
    obtain ⟨call, hcall, hp⟩ := Option.bind_eq_some_iff.mp hp
    rw [step, hu, Option.bind_some, hcall]
    exact waits_atOnce hp
  | waitAgain w c picks =>
    obtain ⟨u, hu, hp⟩ := Option.bind_eq_some_iff.mp hp
    obtain ⟨call, hcall, hp⟩ := Option.bind_eq_some_iff.mp hp
    rw [step, hu, Option.bind_some, hcall, Option.bind_some]
    exact waits_atOnce hp
  | _ => cases hp

def noTasks : SchedState where
  kernel :=
    { slotCount := 0, freeHint := 0, chunkCount := 0, chunkCapacity := 0, slot := fun t => taskSlotReset t 0
      cpu := fun _ => ⟨none, none, none, none, 0, 0, false⟩, cpuTotal := 1, retired := none }
  active := false
  rests := fun _ => []
  call := fun _ => none

lemma noTasks_init : noTasks.Init :=
  ⟨rfl, rfl, fun _ => rfl, fun _ => rfl, rfl, rfl, fun _ => rfl, fun _ => rfl⟩

def stillWorld : World := ⟨fun _ => true, fun _ => []⟩

/-- `task_next` without a task to finish switches to the task. -/
def pickOne (t : ℕ) : Kernel.Picks := ⟨[], some t, [], none⟩

/-- The idle task and `kinit` start, and `kinit` forks the process 2. -/
def boot : List SchedEvent :=
  [.create 0 1 false (fun _ => ⟨true, true⟩) ⟨some 1, none, true⟩, .setup 0 0 true true false, .publish stillWorld 0,
    .create 0 5 false (fun _ => ⟨true, true⟩) ⟨some 2, none, true⟩, .setup 1 0 false true false, .publish stillWorld 1,
    .start 0 1, .fork stillWorld 0 (fun _ => ⟨true, true⟩) ⟨some 3, true, some 1⟩]

end SchedState

end PlantOS.Sched
