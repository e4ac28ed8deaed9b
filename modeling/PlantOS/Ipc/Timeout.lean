import PlantOS.Ipc.Delivery

/-!
# Waits that expire

`ipc_wait` and `ipc_tick` over the system of messages: which tasks sleep in a call of `ipc_send` or `ipc_recv`,
and when the clock wakes them. The ticks since each call are counted in a ghost; the counter of the clock itself
has 32 bits and starts anywhere.
-/

namespace PlantOS.Ipc

open Function (update update_of_ne update_self)

open PlantOS.Task (taskIdNone)
open PlantOS.Sched (uintMax)

/-! ### Sleeping and waking -/

/-- What `ipc_wait` leaves in the task: `ipc_wait_peer`, `ipc_deadline` and `ipc_deadline_set`. -/
structure IpcWait where
  peer : ℕ
  deadline : ℕ
  deadlineSet : Bool

namespace Call

def timeoutMs : Call → ℕ
  | .send args _ => args.timeoutMs
  | .recv args _ => args.timeoutMs

def deadline : Call → ℕ
  | .send _ deadline => deadline
  | .recv _ deadline => deadline

def peer : Call → ℕ
  | .send args _ => args.toTid
  | .recv _ _ => taskIdNone

/-- `ipc_wait`, called by a pass that has to wait; a task with the flag `ready` does not fall asleep. -/
def ipcWait (c : Call) (ready : Bool) : Option IpcWait :=
  if ready then none else some ⟨c.peer, c.deadline, c.timeoutMs ≠ 0⟩

end Call

/-- `ipc_tick` runs the task. -/
def ipcTickRuns (now : ℕ) (w : IpcWait) : Bool := w.deadlineSet && ipcDeadlinePassed now w.deadline

/-- The tasks that are `WAITING` with `WAIT_REASON_IPC` before and after `ipc_tick`. -/
def ipcTick (now : ℕ) (wait : ℕ → Option IpcWait) (t : ℕ) : Option IpcWait :=
  (wait t).filter fun w => !ipcTickRuns now w

/-! ### The system -/

structure TimedState where
  base : State
  /-- the tasks that are `WAITING` with `WAIT_REASON_IPC` -/
  wait : ℕ → Option IpcWait
  /-- the ticks since the call of the task -/
  since : ℕ → ℕ

inductive TimedEvent
  /-- a step of the queues; `ready` is the flag of the task, if it is a pass that comes to `ipc_wait` -/
  | ipc (e : IpcEvent) (ready : Bool)
  /-- `task_run` by other code -/
  | run (t : ℕ)

def IpcEvent.caller : IpcEvent → Option ℕ
  | .send t _ => some t
  | .recv t _ => some t
  | .pass t _ => some t
  | _ => none

namespace TimedState

def waitAfter (s : TimedState) (base : State) (ready : Bool) : IpcEvent → ℕ → Option IpcWait
  | .tick => ipcTick base.now s.wait
  | .pass u _ => update s.wait u ((base.call u).bind fun c => c.ipcWait ready)
  | _ => s.wait

/-- The ticks that have been counted behind a step of the queues. -/
def sinceAfter (s : TimedState) : IpcEvent → ℕ → ℕ
  | .tick => fun t => s.since t + 1
  | .send u _ => update s.since u 0
  | .recv u _ => update s.since u 0
  | _ => s.since

/-- The steps of the system: a task that sleeps makes none, and one whose call is over does not sleep in it. -/
def step (online : ℕ → Bool) (s : TimedState) : TimedEvent → Option TimedState
  | .ipc e ready =>
    if (e.caller.bind s.wait).isSome then none
    else
      (s.base.step online e).map fun base =>
        { base := base
          wait := fun t => if (base.call t).isSome then s.waitAfter base ready e t else none
          since := s.sinceAfter e }
  | .run t => some { s with wait := update s.wait t none }

structure Init (s : TimedState) : Prop where
  base : s.base.Init
  wait : ∀ t, s.wait t = none

end TimedState

def timedSystem (online : ℕ → Bool) : Lib.System TimedState TimedEvent := ⟨TimedState.Init, TimedState.step online⟩

/-! ### Deadlines -/

/-- `⌈timeout_ms / IPC_TICK_MS⌉` -/
def ticksFor (timeoutMs : ℕ) : ℕ := (timeoutMs + 9) / ipcTickMs

/-- The ticks that `ipc_deadline` adds to the counter: the rounding leaves the 32 bits for the last nine
timeouts. -/
def ticksAdded (timeoutMs : ℕ) : ℕ := if timeoutMs ≤ uintMax - 9 then ticksFor timeoutMs else 1

variable {now timeoutMs : ℕ}

lemma ipcDeadline_eq (hpos : 0 < timeoutMs) (hle : timeoutMs ≤ uintMax) :
    ipcDeadline now timeoutMs = (now + ticksAdded timeoutMs) % (uintMax + 1) := by
  unfold ipcDeadline ticksAdded ticksFor ipcTickMs
  unfold uintMax at *
  dsimp only
  split_ifs <;> congr 1 <;> omega

lemma ticksAdded_pos (hpos : 0 < timeoutMs) : 0 < ticksAdded timeoutMs := by
  unfold ticksAdded ticksFor ipcTickMs
  split_ifs <;> omega

lemma ticksAdded_le (hle : timeoutMs ≤ uintMax) : ticksAdded timeoutMs ≤ 2 ^ 31 := by
  unfold ticksAdded ticksFor ipcTickMs
  unfold uintMax at *
  split_ifs <;> omega

/-- The signed difference of the counters: the deadline has passed from its tick on, for `2 ^ 31` ticks, and then
for every other `2 ^ 31`. -/
lemma ipcDeadlinePassed_iff {start ticks n : ℕ} (hpos : 0 < ticks) (hle : ticks ≤ 2 ^ 31)
    (hnow : now % (uintMax + 1) = (start + n) % (uintMax + 1)) :
    ipcDeadlinePassed now ((start + ticks) % (uintMax + 1)) = true ↔
      ticks ≤ n ∧ (n - ticks) % (uintMax + 1) < 2 ^ 31 := by
  unfold ipcDeadlinePassed
  unfold uintMax at *
  rw [decide_eq_true_iff]
  omega

/-- The tests of the deadline are right `n` ticks after the call. As long as the rounding stays within the 32 bits:
the wait is not over, or fewer than `2 ^ 31` ticks have gone since its end, up to whole turns of the counter. The last
nine timeouts overflow, and the wait is one tick long. -/
def OnTime (timeoutMs n : ℕ) : Prop :=
  if timeoutMs ≤ uintMax - 9 then n < ticksFor timeoutMs ∨ (n - ticksFor timeoutMs) % (uintMax + 1) < 2 ^ 31
  else n = 0 ∨ (ticksFor timeoutMs ≤ n ∧ (n - 1) % (uintMax + 1) < 2 ^ 31)

/-- **The test of a deadline tells whether the time is over exactly when it is on time.** -/
lemma passed_iff_onTime {start n : ℕ} (hpos : 0 < timeoutMs) (hle : timeoutMs ≤ uintMax)
    (hnow : now % (uintMax + 1) = (start + n) % (uintMax + 1)) :
    ((ipcDeadlinePassed now (ipcDeadline start timeoutMs) = true ↔ ticksFor timeoutMs ≤ n) ↔ OnTime timeoutMs n) := by
  rw [ipcDeadline_eq hpos hle, ipcDeadlinePassed_iff (ticksAdded_pos hpos) (ticksAdded_le hle) hnow]
  have htks : 0 < ticksFor timeoutMs ∧ ticksFor timeoutMs ≤ 2 ^ 31 := by
    unfold ticksFor ipcTickMs
    unfold uintMax at hle
    omega
  unfold OnTime ticksAdded
  by_cases hrd : timeoutMs ≤ uintMax - 9
  · rw [if_pos hrd, if_pos hrd]
    omega
  · -- the wait is one tick long
    rw [if_neg hrd, if_neg hrd]
    unfold uintMax at *
    omega

/-! ### What a step does to calls and to the clock -/

def IpcEvent.Starts (t : ℕ) : IpcEvent → Prop
  | .send u _ => u = t
  | .recv u _ => u = t
  | _ => False

def IpcEvent.nowAfter (now : ℕ) : IpcEvent → ℕ
  | .tick => (now + 1) % (uintMax + 1)
  | _ => now

namespace State

variable {s s' : State} {t : ℕ} {online : ℕ → Bool}

lemma sendReturns_call (s : State) (t : ℕ) (args : SendArgs) (r : Except IpcError Unit) {s₁ : State} (hcall : s₁.call = s.call)
    (hnow : s₁.now = s.now) :
    (s.sendReturns t args r s₁).call = update s.call t none ∧ (s.sendReturns t args r s₁).now = s.now := by
  unfold sendReturns
  cases r with
  | error err => exact ⟨congrArg (update · t none) hcall, hnow⟩
  | ok _ => exact ⟨congrArg (update · t none) hcall, hnow⟩

lemma recvReturns_call (s : State) (t : ℕ) (args : RecvArgs) (r : RecvResult) {s₁ : State} (hcall : s₁.call = s.call)
    (hnow : s₁.now = s.now) :
    (s.recvReturns t args r s₁).call = update s.call t none ∧ (s.recvReturns t args r s₁).now = s.now := by
  unfold recvReturns
  split <;> exact ⟨congrArg (update · t none) hcall, hnow⟩

/-- The call was there before the step, or the step makes it. -/
def Known (s : State) (e : IpcEvent) (t : ℕ) (c : Call) : Prop :=
  (s.call t = some c ∧ ¬e.Starts t) ∨ (e.Starts t ∧ (c.timeoutMs ≠ 0 → c.deadline = ipcDeadline s.now c.timeoutMs))

lemma known_of_update {e : IpcEvent} {u : ℕ} {new : Option Call} (hcall : s'.call = update s.call u new)
    (hstar : ∀ t, e.Starts t → t = u)
    (hnew : ∀ c, new = some c → e.Starts u ∧ (c.timeoutMs ≠ 0 → c.deadline = ipcDeadline s.now c.timeoutMs))
    {t : ℕ} {c : Call} (hc : s'.call t = some c) : s.Known e t c := by
  rw [hcall] at hc
  by_cases ht : t = u
  · subst ht
    rw [update_self] at hc
    exact .inr (hnew c hc)
  · rw [update_of_ne ht] at hc
    exact .inl ⟨hc, fun hstart => ht (hstar t hstart)⟩

lemma known_of_less {e : IpcEvent} {u : ℕ} (hcall : s'.call = update s.call u none)
    (hstar : ∀ t, e.Starts t → t = u) {t : ℕ} {c : Call} (hc : s'.call t = some c) : s.Known e t c :=
  known_of_update hcall hstar (fun _ hnone => nomatch hnone) hc

lemma step_calls {e : IpcEvent} (h : s.step online e = some s') :
    s'.now = e.nowAfter s.now ∧ ∀ t c, s'.call t = some c → s.Known e t c := by
  cases e with
  | registry e =>
    obtain ⟨registry, -, rfl⟩ := Option.map_eq_some_iff.mp h
    refine ⟨rfl, fun t c hc => .inl ⟨?_, id⟩⟩
    dsimp only at hc
    split_ifs at hc
    exact hc
  | send u args =>
    have hstar : ∀ t, (IpcEvent.send u args).Starts t → t = u := fun _ => Eq.symm
    simp only [step] at h
    by_cases hfree : s.canCall u ∧ (s.call u).isNone
    · rw [if_pos hfree] at h
      obtain ⟨err, heq⟩ | ⟨heq, -⟩ | ⟨header, heq, -⟩ := s.ipcSend_cases u args
      · rw [heq] at h
        cases h
        obtain ⟨hcall, hnow⟩ := sendReturns_call s u args (.error err) rfl rfl
        exact ⟨hnow, fun t c => known_of_less hcall hstar⟩
      · rw [heq] at h
        cases h
        refine ⟨rfl, fun t c => known_of_update rfl hstar fun c hc => ?_⟩
        cases hc
        exact ⟨rfl, fun htmd => if_pos (c := args.timeoutMs ≠ 0) htmd⟩
      · rw [heq] at h
        cases h
        obtain ⟨hcall, hnow⟩ := @sendReturns_call s u args (.ok ()) { s with header := header } rfl rfl
        exact ⟨hnow, fun t c => known_of_less hcall hstar⟩
    · rw [if_neg hfree] at h
      cases h
  | recv u args =>
    simp only [step] at h
    by_cases hfree : s.canCall u ∧ (s.call u).isNone
    · rw [if_pos hfree] at h
      cases h
      have hstar : ∀ t, (IpcEvent.recv u args).Starts t → t = u := fun _ => Eq.symm
      refine ⟨rfl, fun t c => known_of_update rfl hstar fun c hc => ?_⟩
      cases hc
      exact ⟨rfl, fun htmd => if_pos (c := args.timeoutMs ≠ 0) htmd⟩
    · rw [if_neg hfree] at h
      cases h
  | pass u memory =>
    have hstar : ∀ t, (IpcEvent.pass u memory).Starts t → t = u := fun _ => False.elim
    simp only [step] at h
    split_ifs at h with hcan
    cases hcall : s.call u with
    | none =>
      rw [hcall] at h
      cases h
    | some c =>
      rw [hcall] at h
      cases c with
      | send args deadline =>
        obtain heq | ⟨err, heq⟩ | ⟨i, data, heq, -⟩ := s.ipcSendPass_cases u args deadline memory
        · simp only [heq] at h
          cases h
          exact ⟨rfl, fun t c hc => .inl ⟨hc, id⟩⟩
        · simp only [heq] at h
          cases h
          obtain ⟨haft, hnow⟩ := sendReturns_call s u args (.error err) rfl rfl
          exact ⟨hnow, fun t c => known_of_less haft hstar⟩
        · simp only [heq] at h
          cases h
          obtain ⟨haft, hnow⟩ := @sendReturns_call s u args (.ok ()) (s.enqueue u args i data) rfl rfl
          exact ⟨hnow, fun t c => known_of_less haft hstar⟩
      | recv args deadline =>
        obtain heq | ⟨err, info, copied, heq⟩ | ⟨i, -, heq⟩ := s.ipcRecvPass_cases u args deadline
        · simp only [heq] at h
          cases h
          exact ⟨rfl, fun t c hc => .inl ⟨hc, id⟩⟩
        · simp only [heq] at h
          cases h
          obtain ⟨haft, hnow⟩ := recvReturns_call s u args ⟨.error err, info, copied⟩ rfl rfl
          exact ⟨hnow, fun t c => known_of_less haft hstar⟩
        · simp only [heq] at h
          cases h
          obtain ⟨haft, hnow⟩ := @recvReturns_call s u args
            ⟨.ok (s.message u i).size, some (s.message u i).info,
              if args.buffer then some (s.block (s.message u i).data) else none⟩ (s.dequeue u i) rfl rfl
          exact ⟨hnow, fun t c => known_of_less haft hstar⟩
  | peek _ _ =>
    cases h
    exact ⟨rfl, fun t c hc => .inl ⟨hc, id⟩⟩
  | cleanup u =>
    simp only [step] at h
    split_ifs at h
    cases h
    exact ⟨rfl, fun t c => known_of_less (u := u) rfl fun _ => False.elim⟩
  | rpcBegin u server opcode reply timeoutMs =>
    simp only [step] at h
    split_ifs at h
    cases h
    exact ⟨rfl, fun t c hc => .inl ⟨hc, id⟩⟩
  | rpcEnd u =>
    cases h
    exact ⟨rfl, fun t c hc => .inl ⟨hc, id⟩⟩
  | tick =>
    cases h
    exact ⟨rfl, fun t c hc => .inl ⟨hc, id⟩⟩

end State

/-! ### The invariant -/

namespace TimedState

/-- The deadlines of calls belong to a time as many ticks ago as have been counted, and a task sleeps with the
deadline of its call. -/
structure Inv (s : TimedState) : Prop where
  deadline : ∀ t c, s.base.call t = some c → c.timeoutMs ≠ 0 → ∃ start,
    c.deadline = ipcDeadline start c.timeoutMs ∧ s.base.now % (uintMax + 1) = (start + s.since t) % (uintMax + 1)
  wait : ∀ t w, s.wait t = some w → ∃ c, s.base.call t = some c ∧ c.ipcWait false = some w

variable {s s' : TimedState} {online : ℕ → Bool}

lemma since_of_starts {e : IpcEvent} {t : ℕ} (h : e.Starts t) :
    s.sinceAfter e t = 0 ∧ e.nowAfter s.base.now = s.base.now := by
  cases e with
  | send u args =>
    obtain rfl : u = t := h
    exact ⟨update_self .., rfl⟩
  | recv u args =>
    obtain rfl : u = t := h
    exact ⟨update_self .., rfl⟩
  | _ => exact h.elim

lemma since_of_not_starts {e : IpcEvent} {t : ℕ} (h : ¬e.Starts t) {start : ℕ}
    (hnow : s.base.now % (uintMax + 1) = (start + s.since t) % (uintMax + 1)) :
    e.nowAfter s.base.now % (uintMax + 1) = (start + s.sinceAfter e t) % (uintMax + 1) := by
  cases e with
  | send u args =>
    have ht : t ≠ u := fun heq => h heq.symm
    simpa [IpcEvent.nowAfter, sinceAfter, ht] using hnow
  | recv u args =>
    have ht : t ≠ u := fun heq => h heq.symm
    simpa [IpcEvent.nowAfter, sinceAfter, ht] using hnow
  | tick =>
    change (s.base.now + 1) % (uintMax + 1) % (uintMax + 1) = (start + (s.since t + 1)) % (uintMax + 1)
    unfold uintMax at *
    omega
  | _ => exact hnow

lemma waitAfter_some {base : State} {ready : Bool} {e : IpcEvent} {t : ℕ} {w : IpcWait}
    (h : s.waitAfter base ready e t = some w) :
    s.wait t = some w ∨ (e.caller = some t ∧ ∃ c, base.call t = some c ∧ c.ipcWait false = some w) := by
  cases e with
  | tick => exact .inl (Option.filter_eq_some_iff.mp h).1
  | pass u memory =>
    simp only [waitAfter] at h
    rcases Lib.update_cases h with ⟨rfl, h⟩ | ⟨-, h⟩
    · obtain ⟨c, hc, hw⟩ := Option.bind_eq_some_iff.mp h
      refine .inr ⟨rfl, c, hc, ?_⟩
      cases ready with
      | true => cases hw
      | false => exact hw
    · exact .inl h
  | _ => exact .inl h

lemma inv_init (h : s.Init) : s.Inv := by
  constructor
  · intro t c hc
    rw [h.base.call t] at hc
    cases hc
  · intro t w hw
    rw [h.wait t] at hw
    cases hw

lemma inv_step (hi : s.Inv) {e : TimedEvent} (h : s.step online e = some s') : s'.Inv := by
  cases e with
  | run u =>
    cases h
    refine ⟨hi.deadline, fun t w hw => ?_⟩
    dsimp only at hw
    rcases Lib.update_cases hw with ⟨-, ⟨⟩⟩ | ⟨-, hw⟩
    exact hi.wait t w hw
  | ipc e ready =>
    simp only [step] at h
    split_ifs at h with hasl
    obtain ⟨base, hbase, rfl⟩ := Option.map_eq_some_iff.mp h
    obtain ⟨hnow, hcll⟩ := State.step_calls hbase
    constructor
    · intro t c hc htmd
      dsimp only at hc ⊢
      rw [hnow]
      obtain ⟨hold, hstar⟩ | ⟨hstar, hdl⟩ := hcll t c hc
      · obtain ⟨start, hstart, hsin⟩ := hi.deadline t c hold htmd
        exact ⟨start, hstart, since_of_not_starts hstar hsin⟩
      · obtain ⟨hsin, hsame⟩ := since_of_starts (s := s) hstar
        refine ⟨s.base.now, hdl htmd, ?_⟩
        rw [hsin, hsame]
        rfl
    · intro t w hw
      dsimp only at hw ⊢
      split_ifs at hw with hcall
      obtain hw | ⟨-, hpass⟩ := waitAfter_some hw
      · -- the task has not moved, and its call is the one in which it sleeps
        obtain ⟨c, hc, heq⟩ := hi.wait t w hw
        obtain ⟨c', hc'⟩ := Option.isSome_iff_exists.mp hcall
        obtain ⟨hold, -⟩ | ⟨hstar, -⟩ := hcll t c' hc'
        · rw [hc] at hold
          cases hold
          exact ⟨c, hc', heq⟩
        · have hcal : e.caller = some t := by
            cases e with
            | send u args => exact congrArg some hstar
            | recv u args => exact congrArg some hstar
            | _ => exact hstar.elim
          rw [hcal, Option.bind_some, hw] at hasl
          exact absurd rfl hasl
      · exact hpass

theorem inv_of_reachable (hs : (timedSystem online).Reachable s) : s.Inv :=
  hs.invariant (P := Inv) (fun _ hinit => inv_init hinit) fun _ _ _ hi he => inv_step hi he

end TimedState

/-! ### Timeouts -/

namespace State

/-- A pass of the call finds its queue full, or empty, and gets as far as the deadline. -/
def Stuck (s : State) (t : ℕ) : Call → Prop
  | .send args _ =>
    (∃ target, s.getTask args.toTid = some target ∧ target.state ≠ .died ∧
      (args.toGeneration ≠ 0 → target.generation = args.toGeneration)) ∧
      (s.header args.toTid).ipcFindFree = none ∧ args.nowait = false
  | .recv args _ => (s.header t).ipcFindOldest args.fromFilter = none ∧ args.nowait = false

/-- A pass of the call returns `IPC_ERR_TIMEOUT`. -/
def TimesOut (s : State) (t : ℕ) (memory : Option ℕ) : Call → Prop
  | .send args deadline => (s.ipcSendPass t args deadline memory).1 = some (.error .timeout)
  | .recv args deadline => (s.ipcRecvPass t args deadline).1 = some ⟨.error .timeout, none, none⟩

lemma timesOut_iff {s : State} {t : ℕ} {memory : Option ℕ} {c : Call} (htmd : c.timeoutMs ≠ 0) :
    s.TimesOut t memory c ↔ s.Stuck t c ∧ ipcDeadlinePassed s.now c.deadline = true := by
  cases c with
  | send args deadline =>
    simp only [TimesOut, Stuck, ipcSendPass, Call.deadline]
    change args.timeoutMs ≠ 0 at htmd
    cases htgt : s.getTask args.toTid with
    | none => simp
    | some target =>
      dsimp only
      by_cases hgone : target.state = .died ∨ (args.toGeneration ≠ 0 ∧ target.generation ≠ args.toGeneration)
      · rw [if_pos hgone]
        simp only [Option.some.injEq, Except.error.injEq, reduceCtorEq, false_iff]
        rintro ⟨⟨⟨target', rfl, haliv, hgen⟩, -⟩, -⟩
        obtain hdied | ⟨hne, hoth⟩ := hgone
        · exact haliv hdied
        · exact hoth (hgen hne)
      · rw [if_neg hgone]
        have haliv : target.state ≠ .died ∧ (args.toGeneration ≠ 0 → target.generation = args.toGeneration) :=
          ⟨fun hdied => hgone (.inl hdied), fun hne => by_contra fun hoth => hgone (.inr ⟨hne, hoth⟩)⟩
        cases hfree : (s.header args.toTid).ipcFindFree with
        | some i =>
          dsimp only
          split_ifs with hsize
          · simp
          · cases memory <;> simp
        | none =>
          dsimp only
          split_ifs with hnowait hpas
          · simp [hnowait]
          · simpa [hnowait, hpas.2, haliv.1] using haliv.2
          · have hnot : ipcDeadlinePassed s.now deadline ≠ true := fun hpas' => hpas ⟨htmd, hpas'⟩
            simp [hnot]
  | recv args deadline =>
    simp only [TimesOut, Stuck, ipcRecvPass, Call.deadline]
    change args.timeoutMs ≠ 0 at htmd
    cases hold : (s.header t).ipcFindOldest args.fromFilter with
    | some i =>
      dsimp only
      split_ifs <;> simp
    | none =>
      dsimp only
      split_ifs with hnowait hpas
      · simp [hnowait]
      · simp [hnowait, hpas.2]
      · have hnot : ipcDeadlinePassed s.now deadline ≠ true := fun hpas' => hpas ⟨htmd, hpas'⟩
        simp [hnot]

end State

namespace TimedState

variable {s s' : TimedState} {online : ℕ → Bool} {t : ℕ} {c : Call}

lemma passed_iff (hs : (timedSystem online).Reachable s) (hc : s.base.call t = some c) (hpos : 0 < c.timeoutMs)
    (hle : c.timeoutMs ≤ uintMax) :
    ((ipcDeadlinePassed s.base.now c.deadline = true ↔ ticksFor c.timeoutMs ≤ s.since t) ↔
      OnTime c.timeoutMs (s.since t)) := by
  obtain ⟨start, hdl, hnow⟩ := (inv_of_reachable hs).deadline t c hc (Nat.ne_of_gt hpos)
  rw [hdl]
  exact passed_iff_onTime hpos hle hnow

/-- **A timed call takes its wait to be over, in its passes and in the scan of the clock, exactly when
`⌈timeout_ms / 10⌉` ticks have been counted since the call, if and only if the number of ticks is on time.** -/
theorem expires_iff (hs : (timedSystem online).Reachable s) (hc : s.base.call t = some c) (hpos : 0 < c.timeoutMs)
    (hle : c.timeoutMs ≤ uintMax) :
    (∀ memory, s.base.TimesOut t memory c → s.base.Stuck t c) ∧
      (s.base.Stuck t c → ∀ memory, ((s.base.TimesOut t memory c ↔ ticksFor c.timeoutMs ≤ s.since t) ↔
        OnTime c.timeoutMs (s.since t))) ∧
      (∀ ready s', (timedSystem online).step s (.ipc .tick ready) = some s' → (s.wait t).isSome →
        s'.since t = s.since t + 1 ∧
          ((s'.wait t = none ↔ ticksFor c.timeoutMs ≤ s'.since t) ↔ OnTime c.timeoutMs (s'.since t))) := by
  have htimed : c.timeoutMs ≠ 0 := Nat.ne_of_gt hpos
  refine ⟨fun memory hout => ((State.timesOut_iff htimed).mp hout).1, fun hstuck memory => ?_,
    fun ready s' h hasleep => ?_⟩
  · rw [State.timesOut_iff htimed, and_iff_right hstuck]
    exact passed_iff hs hc hpos hle
  · have hs' := hs.step trivial h
    cases h
    refine ⟨rfl, ?_⟩
    -- the task sleeps in its call, with the deadline of the call
    obtain ⟨w, hw⟩ := Option.isSome_iff_exists.mp hasleep
    obtain ⟨c', hc', heq⟩ := (inv_of_reachable hs).wait t w hw
    rw [hc] at hc'
    cases hc'
    rw [← passed_iff hs' (t := t) hc hpos hle]
    cases heq
    have hwait : ((if (s.base.call t).isSome then
        s.waitAfter { s.base with now := (s.base.now + 1) % (uintMax + 1) } ready .tick t else none) = none ↔
        ipcDeadlinePassed ((s.base.now + 1) % (uintMax + 1)) c.deadline = true) := by
      rw [hc, if_pos (Option.isSome_some), waitAfter, ipcTick, hw]
      simp [ipcTickRuns, htimed]
    exact iff_congr hwait Iff.rfl

/-! ### A wait that is over too early -/

lemma step_of_base {e : IpcEvent} {ready : Bool} {b : State} (hawak : ∀ u, e.caller = some u → s.wait u = none)
    (hb : s.base.step online e = some b) :
    (timedSystem online).step s (.ipc e ready) =
      some ⟨b, fun t => if (b.call t).isSome then s.waitAfter b ready e t else none, s.sinceAfter e⟩ := by
  have hasl : ¬(e.caller.bind s.wait).isSome = true := by
    cases hcal : e.caller with
    | none => simp
    | some u => simp [hawak u hcal]
  simp only [timedSystem, step]
  rw [if_neg hasl, hb, Option.map_some]

lemma awake_reachable {b : State} (hb : (ipcSystem online).Reachable b) :
    ∃ since, (timedSystem online).Reachable ⟨b, fun _ => none, since⟩ := by
  induction hb with
  | @init b hinit => exact ⟨fun _ => 0, .init ⟨hinit, fun _ => rfl⟩⟩
  | @step b b' e _ _ he ih =>
    obtain ⟨since, hs⟩ := ih
    refine ⟨sinceAfter ⟨b, fun _ => none, since⟩ e, hs.step trivial (e := .ipc e true) ?_⟩
    have hwait : ∀ t, waitAfter ⟨b, fun _ => none, since⟩ b' true e t = none := by
      intro t
      by_contra hsome
      obtain ⟨w, hw⟩ := Option.ne_none_iff_exists'.mp hsome
      cases e with
      | pass u memory =>
        simp only [waitAfter, Function.update_apply] at hw
        split_ifs at hw
        obtain ⟨c, -, hc⟩ := Option.bind_eq_some_iff.mp hw
        cases hc
      | _ => cases hw
    rw [step_of_base (s := ⟨b, fun _ => none, since⟩) (fun _ _ => rfl) (show State.step online b e = some b' from he)]
    simp only [hwait, ite_self]

/-- The task 2 has called `ipc_recv` at the time 0. -/
def receiving (timeoutMs deadline : ℕ) : State :=
  { State.twoTasks with
    call := update State.twoTasks.call 2 (some (.recv ⟨true, 8, ipcAnyTid, false, timeoutMs⟩ deadline)) }

/-- It sleeps in its call, and a number of ticks has been counted since the calls. -/
def asleep (timeoutMs deadline : ℕ) (since : ℕ → ℕ) : TimedState where
  base := receiving timeoutMs deadline
  wait := update (fun _ => none) 2 (some ⟨taskIdNone, deadline, true⟩)
  since := since

lemma asleep_reachable (timeoutMs deadline : ℕ) (hpos : timeoutMs ≠ 0) (hdl : ipcDeadline 0 timeoutMs = deadline)
    (hnot : ipcDeadlinePassed 0 deadline = false) :
    ∃ since, since 2 = 0 ∧ (timedSystem fun _ => true).Reachable (asleep timeoutMs deadline since) := by
  obtain ⟨since, hs⟩ := awake_reachable State.twoTasks_reachable
  have hrecv : (timedSystem fun _ => true).step ⟨State.twoTasks, fun _ => none, since⟩
      (.ipc (.recv 2 ⟨true, 8, ipcAnyTid, false, timeoutMs⟩) false) =
        some ⟨receiving timeoutMs deadline, fun _ => none, update since 2 0⟩ := by
    have hbase : State.step (fun _ => true) State.twoTasks (.recv 2 ⟨true, 8, ipcAnyTid, false, timeoutMs⟩) =
        some (receiving timeoutMs deadline) := by
      have hnow : State.twoTasks.now = 0 := rfl
      simp only [State.step]
      rw [if_pos ⟨rfl, rfl⟩, if_pos hpos, hnow, hdl]
      rfl
    rw [step_of_base (fun _ _ => rfl) hbase]
    simp only [waitAfter, ite_self]
    rfl
  have hpass : (timedSystem fun _ => true).step ⟨receiving timeoutMs deadline, fun _ => none, update since 2 0⟩
      (.ipc (.pass 2 none) false) = some (asleep timeoutMs deadline (update since 2 0)) := by
    have hbase : State.step (fun _ => true) (receiving timeoutMs deadline) (.pass 2 none) =
        some (receiving timeoutMs deadline) := by
      have hpass : (receiving timeoutMs deadline).ipcRecvPass 2 ⟨true, 8, ipcAnyTid, false, timeoutMs⟩ deadline =
          (none, receiving timeoutMs deadline) := by
        have hemp : ((receiving timeoutMs deadline).header 2).ipcFindOldest ipcAnyTid = none := rfl
        have hnow : (receiving timeoutMs deadline).now = 0 := rfl
        simp [State.ipcRecvPass, hemp, hnow, hnot]
      have hcall : (receiving timeoutMs deadline).call 2 =
          some (.recv ⟨true, 8, ipcAnyTid, false, timeoutMs⟩ deadline) := rfl
      simp only [State.step]
      rw [if_pos ⟨rfl, rfl⟩, hcall]
      simp only [hpass]
    rw [step_of_base (fun _ _ => rfl) hbase]
    refine congrArg some (congrArg (fun wait => (⟨_, wait, _⟩ : TimedState)) (funext fun t => ?_))
    by_cases ht : t = 2
    · subst ht
      simp [waitAfter, receiving, Call.ipcWait, Call.peer, Call.deadline, Call.timeoutMs, hpos]
    · simp [waitAfter, ht]
  exact ⟨_, update_self .., (hs.step trivial hrecv).step trivial hpass⟩

def ticked (s : TimedState) : TimedState where
  base := { s.base with now := (s.base.now + 1) % (uintMax + 1) }
  wait t := if (s.base.call t).isSome then ipcTick ((s.base.now + 1) % (uintMax + 1)) s.wait t else none
  since t := s.since t + 1

lemma step_tick (s : TimedState) (ready : Bool) : (timedSystem online).step s (.ipc .tick ready) = some s.ticked := rfl

lemma ticked_wait (h : (s.base.call t).isSome) : s.ticked.wait t = ipcTick s.ticked.base.now s.wait t := if_pos h

/-- A wait of 25 milliseconds is not over at the next tick. -/
theorem expires_iff_25 : ∃ s, (timedSystem fun _ => true).Reachable s ∧ (s.wait 2).isSome ∧ s.ticked.since 2 = 1 ∧
      ((s.ticked.wait 2 = none ↔ ticksFor 25 ≤ 1) ↔ OnTime 25 1) := by
  obtain ⟨since, hsince, hs⟩ := asleep_reachable 25 3 (by decide) rfl rfl
  have hcount : (asleep 25 3 since).ticked.since 2 = 1 := congrArg (· + 1) hsince
  have hwait : ((asleep 25 3 since).wait 2).isSome = true := rfl
  have hcall : (asleep 25 3 since).base.call 2 = some (.recv ⟨true, 8, ipcAnyTid, false, 25⟩ 3) := rfl
  have hscan := ((expires_iff hs hcall (by decide) (by decide)).2.2 true _ (step_tick _ true) hwait).2
  rw [hcount] at hscan
  exact ⟨_, hs, hwait, hcount, hscan⟩

/-- The longest timeout: the wait is over after one tick of the 429496730. -/
theorem longest_wait_short : ∃ s, (timedSystem fun _ => true).Reachable s ∧ s.base.now = 0 ∧
      s.base.call 2 = some (.recv ⟨true, 8, ipcAnyTid, false, 4294967295⟩ 1) ∧ (s.wait 2).isSome ∧
      (timedSystem fun _ => true).step s (.ipc .tick true) = some s.ticked ∧
      s.ticked.since 2 = 1 ∧ ticksFor 4294967295 = 429496730 ∧ s.ticked.wait 2 = none ∧
      s.ticked.base.TimesOut 2 none (.recv ⟨true, 8, ipcAnyTid, false, 4294967295⟩ 1) := by
  obtain ⟨since, hsince, hs⟩ := asleep_reachable 4294967295 1 (by decide) rfl rfl
  have hnow : (asleep 4294967295 1 since).ticked.base.now = 1 := rfl
  have hwoken : (asleep 4294967295 1 since).ticked.wait 2 = none := by
    have hcall : ((asleep 4294967295 1 since).base.call 2).isSome = true := rfl
    have htest : ipcTickRuns 1 ⟨taskIdNone, 1, true⟩ = true := by decide
    rw [ticked_wait hcall, hnow]
    simp [ipcTick, asleep, htest]
  have hout : (asleep 4294967295 1 since).ticked.base.TimesOut 2 none
      (.recv ⟨true, 8, ipcAnyTid, false, 4294967295⟩ 1) := by
    rw [State.timesOut_iff (by decide), hnow]
    exact ⟨⟨rfl, rfl⟩, by decide⟩
  exact ⟨_, hs, rfl, rfl, rfl, step_tick _ true, congrArg (· + 1) hsince, by simp [ticksFor, ipcTickMs], hwoken, hout⟩

end TimedState

end PlantOS.Ipc
