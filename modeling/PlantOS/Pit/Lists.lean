import Mathlib.Algebra.GroupWithZero.Nat
import Mathlib.Data.Fintype.Card
import Mathlib.Data.List.Pairwise
import PlantOS.Lib.Chain
import PlantOS.Lib.Run

/-!
# The timers of the PIT

A table of timers, the running ones linked by their expiry times. The list ends with a sentinel whose expiry time is
the largest 32-bit number; no loop over the list looks for its end.
-/

namespace PlantOS.Pit

abbrev maxTimer : ℕ := 500

/-- A timer, by its place in `timers0` -/
abbrev TimerId := Fin maxTimer

instance : NeZero maxTimer := ⟨by decide⟩

abbrev Tid := ℕ

def nullTid : Tid := 11459810

abbrev uintMax : ℕ := 0xffffffff

def wrap (n : ℕ) : ℕ := n % 2 ^ 32

/-- `0`, `TIMER_FLAGS_ALLOC`, `TIMER_FLAGS_USING` -/
inductive TimerFlags
  | unused
  | flagsAlloc
  | flagsUsing
  deriving DecidableEq, Repr

structure Timer where
  next : Option TimerId := none
  timeout : ℕ := 0
  flags : TimerFlags := .unused
  /-- Where the byte `data` goes at the expiry -/
  fifo : Option ℕ := none
  data : ℕ := 0
  waiter : Option Tid := none

structure TimerCtl where
  count : ℕ
  next : ℕ
  t0 : Option TimerId
  timers0 : TimerId → Timer

/-- How a loop over the list goes wrong: it follows the link of the last timer, or it goes round in a circle. -/
inductive Fault
  | nullPointer
  | forever
  deriving DecidableEq, Repr

/-- What a timer does when it expires: `task_run(timer->waiter)` and `fifo8_put(timer->fifo, timer->data)`. -/
structure Expiry where
  timer : TimerId
  waiter : Option Tid
  fifo : Option ℕ
  data : ℕ

namespace TimerCtl

def set (c : TimerCtl) (t : TimerId) (v : Timer) : TimerCtl := { c with timers0 := Function.update c.timers0 t v }

def link (c : TimerCtl) (t : TimerId) : Option TimerId := (c.timers0 t).next

/-- `*link`: the link of a timer, `none` for `timerctl.t0` -/
def deref (c : TimerCtl) : Option TimerId → Option TimerId
  | none => c.t0
  | some s => c.link s

end TimerCtl

/-! ### Allocation -/

def timerAlloc (c : TimerCtl) : Option TimerId × TimerCtl :=
  match (List.finRange maxTimer).find? fun i => (c.timers0 i).flags = .unused with
  | some i => (some i, c.set i { c.timers0 i with flags := .flagsAlloc, waiter := none })
  | none => (none, c)

/-- `init_pit`, as far as the timers go -/
def initPit : TimerCtl :=
  match timerAlloc { count := 0, next := 0, t0 := none, timers0 := fun _ => {} } with
  | (some t, c) =>
    { c.set t { c.timers0 t with timeout := uintMax, flags := .flagsUsing, next := none } with t0 := some t, next := uintMax }
  | (none, c) => c

/-- The timer that `init_pit` puts at the end of the list -/
def sentinel : TimerId := 0

def timerInit (timer : TimerId) (fifo : Option ℕ) (data : ℕ) (c : TimerCtl) : TimerCtl :=
  c.set timer { c.timers0 timer with fifo := fifo, data := data }

/-! ### Cancelling -/

/-- `*link = timer->next` and what follows -/
def unlink (timer : TimerId) (link : Option TimerId) (c : TimerCtl) : TimerCtl :=
  let c := match link with
    | none => { c with t0 := c.link timer }
    | some s => c.set s { c.timers0 s with next := c.link timer }
  let c := c.set timer { c.timers0 timer with flags := .flagsAlloc, next := none }
  { c with next := match c.t0 with
      | some t => (c.timers0 t).timeout
      | none => uintMax }

/-- The loop of `timer_cancel`, over at most as many links as there are timers -/
def cancelLoop (timer : TimerId) : ℕ → Option TimerId → TimerCtl → Bool × TimerCtl
  | 0, _, c => (false, c.set timer { c.timers0 timer with flags := .flagsAlloc, next := none })
  | i + 1, link, c =>
    match c.deref link with
    | none => (false, c.set timer { c.timers0 timer with flags := .flagsAlloc, next := none })
    | some t => if t = timer then (true, unlink timer link c) else cancelLoop timer i (some t) c

/-- `timer_cancel` of a timer -/
def cancelTimer (timer : TimerId) (c : TimerCtl) : Bool × TimerCtl :=
  if (c.timers0 timer).flags ≠ .flagsUsing then (false, c) else cancelLoop timer maxTimer none c

def timerCancel : Option TimerId → TimerCtl → Bool × TimerCtl
  | none, c => (false, c)
  | some timer, c => cancelTimer timer c

/-- `timer_free` of a timer -/
def freeTimer (timer : TimerId) (c : TimerCtl) : TimerCtl :=
  let c := (cancelTimer timer c).2
  c.set timer { c.timers0 timer with flags := .unused, waiter := none, fifo := none, next := none }

def timerFree : Option TimerId → TimerCtl → TimerCtl
  | none, c => c
  | some timer, c => freeTimer timer c

/-- One pass of the loop of `timer_cancel_for_task` -/
def cancelTaskTimer (task : Tid) (taskTimer : Option TimerId) (timer : TimerId) (c : TimerCtl) : TimerCtl :=
  if (c.timers0 timer).waiter = some task then
    let c := (cancelTimer timer c).2
    let c := c.set timer { c.timers0 timer with waiter := none }
    if some timer ≠ taskTimer then freeTimer timer c else c
  else c

/-- `timer_cancel_for_task`; `taskTimer` is the field `timer` of the task. -/
def timerCancelForTask (task : Tid) (taskTimer : Option TimerId) (c : TimerCtl) : TimerCtl :=
  (List.finRange maxTimer).foldl (fun c timer => cancelTaskTimer task taskTimer timer c) c

/-- The loop of `timer_settime`: `timer` comes behind `s` when its time is not behind that of the next one. -/
def insertLoop (timer : TimerId) : ℕ → TimerId → TimerCtl → Except Fault TimerCtl
  | 0, _, _ => .error .forever
  | n + 1, s, c =>
    match c.link s with
    | none => .error .nullPointer
    | some t =>
      if (c.timers0 timer).timeout ≤ (c.timers0 t).timeout then
        let c := c.set s { c.timers0 s with next := some timer }
        .ok (c.set timer { c.timers0 timer with next := some t })
      else insertLoop timer n t c

/-- `timer_settime` of a timer. A walk over more links than there are timers does not end. -/
def setTimer (timer : TimerId) (timeout : ℕ) (c : TimerCtl) : Except Fault TimerCtl :=
  let c := (cancelTimer timer c).2
  let c := c.set timer { c.timers0 timer with timeout := wrap (timeout + c.count), flags := .flagsUsing }
  match c.t0 with
  | none =>
    let c := c.set timer { c.timers0 timer with next := none }
    .ok { c with t0 := some timer, next := (c.timers0 timer).timeout }
  | some t =>
    if (c.timers0 timer).timeout ≤ (c.timers0 t).timeout then
      let c := c.set timer { c.timers0 timer with next := some t }
      .ok { c with t0 := some timer, next := (c.timers0 timer).timeout }
    else insertLoop timer (maxTimer + 1) t c

def timerSettime : Option TimerId → ℕ → TimerCtl → Except Fault TimerCtl
  | none, _, c => .ok c
  | some timer, timeout, c => setTimer timer timeout c

/-- The loop of `timer_interrupt` -/
def expireLoop : ℕ → Option TimerId → TimerCtl → Except Fault (TimerCtl × List Expiry)
  | 0, _, _ => .error .forever
  | _ + 1, none, _ => .error .nullPointer
  | n + 1, some t, c =>
    if (c.timers0 t).timeout > c.count then .ok ({ c with t0 := some t, next := (c.timers0 t).timeout }, [])
    else do
      let v := c.timers0 t
      let (c, out) ← expireLoop n v.next (c.set t { v with flags := .flagsAlloc })
      return (c, ⟨t, v.waiter, v.fifo, v.data⟩ :: out)

/-- `timer_interrupt` on a CPU: only the first one keeps the time. -/
def timerInterrupt (cpu : ℕ) (c : TimerCtl) : Except Fault (TimerCtl × List Expiry) :=
  if cpu ≠ 0 then .ok (c, [])
  else
    let c := { c with count := wrap (c.count + 1) }
    match c.t0 with
    | none => .ok ({ c with next := uintMax }, [])
    | some t => expireLoop (maxTimer + 1) (some t) c

/-! ## Sleeping tasks -/

open Lib

/-- The ticks of `sleep`, at most the largest 32-bit number -/
def sleepTicks (milliseconds : ℕ) : ℕ :=
  let ticks64 := milliseconds / 10 + if milliseconds % 10 ≠ 0 then 1 else 0
  if ticks64 > uintMax then uintMax else ticks64

/-- `timer_alloc` and what `sleep` sets in the timer -/
def sleepAlloc (task : Tid) (fifo : ℕ) (c : TimerCtl) : Option TimerId × TimerCtl :=
  match timerAlloc c with
  | (none, c) => (none, c)
  | (some timer, c) =>
    let c := timerInit timer (some fifo) 1 c
    (some timer, c.set timer { c.timers0 timer with waiter := some task })

/-- The end of `sleep` -/
def sleepFree (timer : TimerId) (c : TimerCtl) : TimerCtl :=
  timerFree (some timer) (c.set timer { c.timers0 timer with waiter := none })

/-- How far a call of `sleep` is: it waits for the count without a task, or it has its timer, has armed it, waits in
`task_fall_blocked_reason`, has returned from there. -/
inductive Stage
  | spinning (started : ℕ)
  | allocated (timer : TimerId)
  | armed (timer : TimerId)
  | blocked (timer : TimerId)
  | woken (timer : TimerId)
  deriving DecidableEq

def Stage.timer : Stage → Option TimerId
  | .spinning _ => none
  | .allocated t | .armed t | .blocked t | .woken t => some t

/-- A call of `sleep`. `ready` is the flag of the task, `disturbed` says that something other than its timer woke it. -/
structure Call where
  ms : ℕ
  start : ℕ
  stage : Stage
  ready : Bool
  disturbed : Bool

/-- `task_run` of the task in the call, by its own timer or by something else -/
def Call.run (own : Bool) (c : Call) : Call :=
  let c := { c with disturbed := c.disturbed || !own }
  match c.stage with
  | .blocked timer => { c with stage := .woken timer, ready := false }
  | _ => { c with ready := true }

def Call.hear (task : Tid) (out : List Expiry) (c : Call) : Call :=
  out.foldl (fun c e => if e.waiter = some task then c.run (c.stage.timer = some e.timer) else c) c

/-- A timer that was armed at a tick, and the ticks at which it fired since then -/
structure Arming where
  start : ℕ
  timeout : ℕ
  fired : List ℕ
  deriving DecidableEq

/-- A return of `sleep` -/
structure Return where
  task : Tid
  ms : ℕ
  duration : ℕ
  disturbed : Bool
  deriving DecidableEq

structure State where
  ctl : TimerCtl
  fault : Option Fault
  calls : Tid → Option Call
  /-- The timers of the calls of `sleep` -/
  sleeper : TimerId → Option Tid
  ticks : ℕ
  armed : TimerId → Option Arming
  /-- The timers that fired without being armed -/
  stray : List TimerId
  returned : List Return

inductive Event
  | alloc
  | init (timer : TimerId) (fifo : Option ℕ) (data : ℕ)
  | setWaiter (timer : TimerId) (waiter : Option Tid)
  | settime (timer : Option TimerId) (timeout : ℕ)
  | cancel (timer : Option TimerId)
  | free (timer : Option TimerId)
  /-- The task is gone; `taskTimer` is its field `timer`. -/
  | cancelForTask (task : Tid) (taskTimer : Option TimerId)
  | interrupt (cpu : ℕ)
  /-- `task_run` by something that is not a timer -/
  | wake (task : Tid)
  /-- The start of `sleep`, with the flag `ready` of the task -/
  | sleep (task : Tid) (ms fifo : ℕ) (ready : Bool)
  | sleepArm (task : Tid)
  | sleepBlock (task : Tid)
  | sleepReturn (task : Tid)

/-- A timer that callers may use: not the sentinel, and not the timer of a call of `sleep` -/
def State.Usable (s : State) (t : TimerId) : Prop := t ≠ sentinel ∧ s.sleeper t = none

instance (s : State) (t : TimerId) : Decidable (s.Usable t) := by unfold State.Usable; infer_instance

namespace State

def arm (s : State) (t : TimerId) (a : Option Arming) : State := { s with armed := Function.update s.armed t a }

def setCall (s : State) (task : Tid) (c : Option Call) : State := { s with calls := Function.update s.calls task c }

def setSleeper (s : State) (t : TimerId) (task : Option Tid) : State := { s with sleeper := Function.update s.sleeper t task }

/-- `sleep` returns. -/
def leave (s : State) (r : Return) : State := { s with returned := r :: s.returned }

/-- `timer_settime`, as a step -/
def settime (s : State) (t : TimerId) (timeout : ℕ) : State :=
  match timerSettime (some t) timeout s.ctl with
  | .error fault => { s with fault := some fault }
  | .ok c => { s with ctl := c }.arm t (some ⟨s.ticks, timeout, []⟩)

def expire (s : State) (out : List Expiry) : State :=
  let fired := out.map Expiry.timer
  { s with
    armed := fun t => if t ∈ fired then (s.armed t).map fun a => { a with fired := a.fired ++ [s.ticks] } else s.armed t
    calls := fun task => (s.calls task).map (Call.hear task out)
    stray := s.stray ++ fired.filter fun t => (s.armed t).isNone }

/-- `timer_interrupt`, as a step -/
def interrupt (s : State) (cpu : ℕ) : State :=
  match timerInterrupt cpu s.ctl with
  | .error fault => { s with fault := some fault }
  | .ok (c, out) => { s with ctl := c, ticks := if cpu = 0 then s.ticks + 1 else s.ticks }.expire out

end State

def step (s : State) (e : Event) : Option State :=
  if s.fault ≠ none then none
  else match e with
    | .alloc =>
      match timerAlloc s.ctl with
      | (none, c) => some { s with ctl := c }
      | (some t, c) => some ({ s with ctl := c }.arm t none)
    | .init t fifo data => if s.Usable t then some { s with ctl := timerInit t fifo data s.ctl } else none
    | .setWaiter t w => if s.Usable t then some { s with ctl := s.ctl.set t { s.ctl.timers0 t with waiter := w } } else none
    | .settime none _ | .cancel none | .free none => some s
    | .settime (some t) timeout => if s.Usable t then some (s.settime t timeout) else none
    | .cancel (some t) => if s.Usable t then some ({ s with ctl := (timerCancel (some t) s.ctl).2 }.arm t none) else none
    | .free (some t) => if s.Usable t then some ({ s with ctl := timerFree (some t) s.ctl }.arm t none) else none
    | .cancelForTask task taskTimer =>
      some { s with
        ctl := timerCancelForTask task taskTimer s.ctl
        armed := fun t => if (s.ctl.timers0 t).waiter = some task then none else s.armed t
        sleeper := fun t => if s.sleeper t = some task then none else s.sleeper t
        calls := Function.update s.calls task none }
    | .interrupt cpu => some (s.interrupt cpu)
    | .wake task => some (s.setCall task ((s.calls task).map (Call.run false)))
    | .sleep task ms fifo ready =>
      if s.calls task ≠ none then none
      else if sleepTicks ms = 0 then some (s.leave ⟨task, ms, 0, false⟩)
      else if task = nullTid then some (s.setCall task (some ⟨ms, s.ticks, .spinning s.ctl.count, ready, ready⟩))
      else match sleepAlloc task fifo s.ctl with
        | (none, c) => some ({ s with ctl := c }.leave ⟨task, ms, 0, false⟩)
        | (some t, c) =>
          some ((({ s with ctl := c }.arm t none).setSleeper t (some task)).setCall task
            (some ⟨ms, s.ticks, .allocated t, ready, ready⟩))
    | .sleepArm task =>
      match s.calls task with
      | some ⟨ms, start, .allocated t, ready, disturbed⟩ =>
        some ((s.settime t (sleepTicks ms)).setCall task (some ⟨ms, start, .armed t, ready, disturbed⟩))
      | _ => none
    | .sleepBlock task =>
      match s.calls task with
      | some ⟨ms, start, .armed t, ready, disturbed⟩ =>
        some (s.setCall task (some ⟨ms, start, if ready then .woken t else .blocked t, false, disturbed⟩))
      | _ => none
    | .sleepReturn task =>
      match s.calls task with
      | some ⟨ms, start, .spinning started, _, disturbed⟩ =>
        if wrap (s.ctl.count + 2 ^ 32 - started) < sleepTicks ms then none
        else some ((s.setCall task none).leave ⟨task, ms, s.ticks - start, disturbed⟩)
      | some ⟨ms, start, .woken t, _, disturbed⟩ =>
        some (((({ s with ctl := sleepFree t s.ctl }.arm t none).setSleeper t none).setCall task none).leave
          ⟨task, ms, s.ticks - start, disturbed⟩)
      | _ => none

/-- After `init_pit` -/
def boot : State :=
  { ctl := initPit, fault := none, calls := fun _ => none, sleeper := fun _ => none, ticks := 0, armed := fun _ => none,
    stray := [], returned := [] }

def system : System State Event where
  init := (· = boot)
  step := step

/-! ## The list of the running timers -/

open Lib.Chain TimerCtl
open List (append_assoc finRange length_cons mem_append mem_append_left mem_append_right mem_cons mem_singleton
    nil_append nodup_append nodup_cons pairwise_cons)

variable {c c' : TimerCtl} {l p r : List TimerId} {t u s : TimerId} {v : Timer} {n : ℕ}

def TimerCtl.timeout (c : TimerCtl) (t : TimerId) : ℕ := (c.timers0 t).timeout

@[simp] lemma set_self (c : TimerCtl) (t : TimerId) (v : Timer) : (c.set t v).timers0 t = v := Function.update_self ..

lemma set_of_ne (c : TimerCtl) (v : Timer) (h : u ≠ t) : (c.set t v).timers0 u = c.timers0 u := Function.update_of_ne h ..

@[simp] lemma set_t0 (c : TimerCtl) (t : TimerId) (v : Timer) : (c.set t v).t0 = c.t0 := rfl

@[simp] lemma set_count (c : TimerCtl) (t : TimerId) (v : Timer) : (c.set t v).count = c.count := rfl

lemma set_link (c : TimerCtl) (t : TimerId) (v : Timer) : (c.set t v).link = Function.update c.link t v.next := by
  funext u
  by_cases h : u = t
  · subst h
    simp [link]
  · rw [Function.update_of_ne h]
    exact congrArg Timer.next (set_of_ne c v h)

/-- **The running timers** `l`, in the order of the list, which the sentinel ends -/
structure Listed (c : TimerCtl) (l : List TimerId) : Prop where
  chain : IsChain c.link c.t0 (l ++ [sentinel])
  running : ∀ t, (c.timers0 t).flags = .flagsUsing ↔ t ∈ l ++ [sentinel]
  sorted : (l ++ [sentinel]).Pairwise fun a b => c.timeout a ≤ c.timeout b
  ahead : ∀ t ∈ l, c.count ≤ c.timeout t
  sentinel : c.timeout sentinel = uintMax
  waiter : (c.timers0 Pit.sentinel).waiter = none
  count : c.count < uintMax

structure Frame (t : TimerId) (c c' : TimerCtl) : Prop where
  count : c'.count = c.count
  timeout : ∀ u, u ≠ t → c'.timeout u = c.timeout u
  flags : ∀ u, u ≠ t → (c'.timers0 u).flags = (c.timers0 u).flags
  waiter : ∀ u, u ≠ t → (c'.timers0 u).waiter = (c.timers0 u).waiter

lemma Frame.trans {c'' : TimerCtl} (h : Frame t c c') (h' : Frame t c' c'') : Frame t c c'' :=
  ⟨h'.count.trans h.count, fun u hu => (h'.timeout u hu).trans (h.timeout u hu),
    fun u hu => (h'.flags u hu).trans (h.flags u hu), fun u hu => (h'.waiter u hu).trans (h.waiter u hu)⟩

lemma frame_set (c : TimerCtl) (t : TimerId) (v : Timer) : Frame t c (c.set t v) :=
  ⟨rfl, fun _ hu => congrArg Timer.timeout (set_of_ne c v hu), fun _ hu => congrArg Timer.flags (set_of_ne c v hu),
    fun _ hu => congrArg Timer.waiter (set_of_ne c v hu)⟩

lemma frame_relink (c : TimerCtl) (t s : TimerId) (x : Option TimerId) :
    Frame t c (c.set s { c.timers0 s with next := x }) := by
  refine ⟨rfl, fun u _ => ?_, fun u _ => ?_, fun u _ => ?_⟩
  all_goals
    by_cases hu : u = s
    · subst hu
      simp [TimerCtl.timeout]
    · simp [TimerCtl.timeout, set_of_ne _ _ hu]

lemma Listed.nodup (h : Listed c l) : (l ++ [Pit.sentinel]).Nodup := h.chain.nodup

lemma Listed.sentinel_notMem (h : Listed c l) : Pit.sentinel ∉ l := by
  intro hmem
  exact (nodup_append.mp h.nodup).2.2 _ hmem _ (List.mem_singleton_self _) rfl

lemma Listed.length_le (h : Listed c l) : (l ++ [Pit.sentinel]).length ≤ maxTimer := by
  have := h.nodup.length_le_card
  rwa [Fintype.card_fin] at this

lemma Listed.mem_iff (h : Listed c l) (ht : t ≠ Pit.sentinel) : t ∈ l ↔ (c.timers0 t).flags = .flagsUsing := by
  rw [h.running, mem_append, mem_singleton]
  exact ⟨.inl, fun hmem => hmem.resolve_right ht⟩

lemma Listed.set (h : Listed c l) (ht : t ∉ l ++ [Pit.sentinel]) (hv : v.flags ≠ .flagsUsing) : Listed (c.set t v) l := by
  have hne : ∀ u ∈ l ++ [Pit.sentinel], u ≠ t := fun u hu heq => ht (heq ▸ hu)
  have hsent : Pit.sentinel ≠ t := hne _ (by simp)
  have htime : ∀ u ∈ l ++ [Pit.sentinel], (c.set t v).timeout u = c.timeout u :=
    fun u hu => congrArg Timer.timeout (set_of_ne c v (hne u hu))
  refine ⟨?_, fun u => ?_, ?_, fun u hu => ?_, ?_, ?_, h.count⟩
  · rw [set_link]
    exact h.chain.update ht _
  · by_cases hu : u = t
    · subst hu
      rw [set_self]
      exact iff_of_false hv ht
    · rw [set_of_ne c v hu]
      exact h.running u
  · refine h.sorted.imp_of_mem fun {a b} ha hb hab => ?_
    rwa [htime a ha, htime b hb]
  · rw [htime u (mem_append_left _ hu)]
    exact h.ahead u hu
  · rw [htime _ (by simp)]
    exact h.sentinel
  · rw [set_of_ne c v hsent]
    exact h.waiter

/-! ### Cancelling -/

lemma deref_eq (h : IsChain c.link c.t0 (p ++ r)) : c.deref p.getLast? = r.head? := by
  rcases List.eq_nil_or_concat' p with rfl | ⟨p, s, rfl⟩
  · exact h.head
  · rw [List.getLast?_concat]
    have h : IsChain c.link c.t0 (p ++ s :: r) := by simpa using h
    exact h.suffix.head

lemma cancelLoop_spec (h : IsChain c.link c.t0 (p ++ (l ++ t :: r))) (ht : t ∉ l) (hn : l.length < n) :
    cancelLoop t n p.getLast? c = (true, unlink t (p ++ l).getLast? c) := by
  induction l generalizing p n with
  | nil =>
    obtain ⟨n, rfl⟩ := Nat.exists_eq_succ_of_ne_zero (Nat.ne_zero_of_lt hn)
    rw [cancelLoop, deref_eq h, List.append_nil]
    simp
  | cons x l ih =>
    obtain ⟨n, rfl⟩ := Nat.exists_eq_succ_of_ne_zero (Nat.ne_zero_of_lt hn)
    have hx : x ≠ t := fun heq => ht (by simp [heq])
    have hih := @ih (p ++ [x]) n (by simpa using h) (fun hmem => ht (List.mem_cons_of_mem _ hmem))
      (by rw [length_cons] at hn; omega)
    rw [cancelLoop, deref_eq h]
    rw [List.getLast?_concat, append_assoc] at hih
    simpa [hx] using hih

lemma unlink_chain (h : IsChain c.link c.t0 (p ++ t :: r)) :
    IsChain (unlink t p.getLast? c).link (unlink t p.getLast? c).t0 (p ++ r) := by
  have hnd := h.nodup
  have ht : t ∉ p ++ r := by
    rw [List.nodup_middle, nodup_cons] at hnd
    exact hnd.1
  rcases List.eq_nil_or_concat' p with rfl | ⟨p, s, rfl⟩
  · show IsChain (TimerCtl.set _ t _).link (c.link t) r
    rw [set_link]
    exact h.suffix.update ht _
  · rw [List.getLast?_concat]
    show IsChain (TimerCtl.set (c.set s _) t _).link c.t0 _
    rw [set_link, set_link]
    have h : IsChain c.link c.t0 (p ++ s :: t :: r) := by simpa using h
    have hrem := h.remove.update (x := t) (by simpa using ht) none
    rw [append_assoc]
    exact hrem

lemma unlink_eq (t : TimerId) (link : Option TimerId) (c : TimerCtl) (u : TimerId) :
    (unlink t link c).timeout u = c.timeout u ∧ ((unlink t link c).timers0 u).waiter = (c.timers0 u).waiter ∧
      ((unlink t link c).timers0 u).flags = if u = t then .flagsAlloc else (c.timers0 u).flags := by
  by_cases hu : u = t
  · subst hu
    cases link with
    | none => simp [unlink, TimerCtl.timeout]
    | some s => by_cases hs : u = s <;> simp_all [unlink, TimerCtl.timeout, TimerCtl.set]
  · cases link with
    | none => simp [unlink, TimerCtl.timeout, TimerCtl.set, hu]
    | some s => by_cases hs : u = s <;> simp_all [unlink, TimerCtl.timeout, TimerCtl.set]

/-- **`timer_cancel`** takes a running timer out of the list. -/
theorem Listed.cancel (h : Listed c l) (ht : t ≠ Pit.sentinel) :
    Listed (cancelTimer t c).2 (l.erase t) ∧ Frame t c (cancelTimer t c).2 ∧ (cancelTimer t c).1 = decide (t ∈ l) ∧
      (cancelTimer t c).2.timeout t = c.timeout t ∧ ((cancelTimer t c).2.timers0 t).waiter = (c.timers0 t).waiter ∧
      ((cancelTimer t c).2.timers0 t).flags = if t ∈ l then .flagsAlloc else (c.timers0 t).flags := by
  by_cases hmem : t ∈ l
  swap
  · have hfl : (c.timers0 t).flags ≠ .flagsUsing := fun hf => hmem ((h.mem_iff ht).mpr hf)
    rw [cancelTimer, if_pos hfl, List.erase_of_not_mem hmem, if_neg hmem]
    exact ⟨h, ⟨rfl, fun _ _ => rfl, fun _ _ => rfl, fun _ _ => rfl⟩, by simp [hmem], rfl, rfl, rfl⟩
  have hfl := (h.mem_iff ht).mp hmem
  obtain ⟨p, r, rfl⟩ := List.append_of_mem hmem
  have hnd := h.nodup
  have hlen := h.length_le
  have hch := h.chain
  simp only [append_assoc, List.cons_append] at hnd hch
  have hp : t ∉ p ++ (r ++ [Pit.sentinel]) := by
    rw [List.nodup_middle, nodup_cons] at hnd
    exact hnd.1
  have hstep : cancelTimer t c = (true, unlink t p.getLast? c) := by
    rw [cancelTimer, if_neg (by simp [hfl])]
    have hloop := cancelLoop_spec (p := []) (n := maxTimer) hch (fun hm => hp (by simp [hm])) (by simp at hlen; omega)
    rwa [nil_append] at hloop
  have heq := unlink_eq t p.getLast? c
  have hcnt : (unlink t p.getLast? c).count = c.count := by cases p.getLast? <;> rfl
  have hers : (p ++ t :: r).erase t = p ++ r := by
    rw [List.erase_append_right _ fun hm => hp (by simp [hm]), List.erase_cons_head]
  have hsub : ∀ u ∈ p ++ r ++ [Pit.sentinel], u ∈ p ++ t :: r ++ [Pit.sentinel] := by
    intro u hu
    simp only [mem_append, mem_cons] at hu ⊢
    tauto
  rw [hstep, hers]
  refine ⟨⟨?_, fun u => ?_, ?_, fun u hu => ?_, ?_, ?_, by rw [hcnt]; exact h.count⟩,
    ⟨hcnt, fun u _ => (heq u).1, fun u hu => ?_, fun u _ => (heq u).2.1⟩, by simp, (heq t).1, (heq t).2.1, ?_⟩
  · rw [append_assoc]
    exact unlink_chain hch
  · rw [(heq u).2.2]
    by_cases hu : u = t
    · subst hu
      rw [if_pos rfl, append_assoc]
      exact iff_of_false (by simp) hp
    · rw [if_neg hu, h.running]
      simp [hu]
  · have hsort := h.sorted.sublist (show List.Sublist (p ++ r ++ [Pit.sentinel]) (p ++ t :: r ++ [Pit.sentinel]) by simp)
    exact hsort.imp fun {a b} hab => by rwa [(heq a).1, (heq b).1]
  · rw [hcnt, (heq u).1]
    exact h.ahead u (by simp at hu ⊢; tauto)
  · rw [(heq _).1]
    exact h.sentinel
  · rw [(heq _).2.1]
    exact h.waiter
  · rw [(heq u).2.2, if_neg hu]
  · rw [(heq t).2.2, if_pos rfl, if_pos hmem]

/-- **`timer_free`** -/
theorem Listed.free (h : Listed c l) (ht : t ≠ Pit.sentinel) :
    Listed (freeTimer t c) (l.erase t) ∧ Frame t c (freeTimer t c) ∧ ((freeTimer t c).timers0 t).flags = .unused ∧
      ((freeTimer t c).timers0 t).waiter = none := by
  obtain ⟨hcanc, hfrm, -⟩ := h.cancel ht
  have hnot : t ∉ l.erase t ++ [Pit.sentinel] := by
    have hnd := (nodup_append.mp h.nodup).1
    simp [hnd.mem_erase_iff, ht]
  unfold freeTimer
  exact ⟨hcanc.set hnot (by simp), hfrm.trans (frame_set _ _ _), by simp, by simp⟩

lemma Listed.cancelTask (h : Listed c l) (task : Tid) (taskTimer : Option TimerId) (t : TimerId) :
    Frame t c (cancelTaskTimer task taskTimer t c) ∧
      if (c.timers0 t).waiter = some task then
        Listed (cancelTaskTimer task taskTimer t c) (l.erase t) ∧ ((cancelTaskTimer task taskTimer t c).timers0 t).waiter = none
      else cancelTaskTimer task taskTimer t c = c := by
  unfold cancelTaskTimer
  split_ifs with hw hfree
  · have ht : t ≠ Pit.sentinel := by
      rintro rfl
      rw [h.waiter] at hw
      cases hw
    obtain ⟨hcanc, hfrm, -, -, -, hfl⟩ := h.cancel ht
    have hnd := (nodup_append.mp h.nodup).1
    have hnot : t ∉ l.erase t := by simp [hnd.mem_erase_iff]
    have hset := hcanc.set (t := t) (v := { (cancelTimer t c).2.timers0 t with waiter := none }) (by simp [hnot, ht])
      (fun hf => by simpa [hnot, ht] using (hcanc.running t).mp hf)
    obtain ⟨hfrd, hfrm', -, hwtr⟩ := hset.free ht
    rw [List.erase_of_not_mem hnot] at hfrd
    exact ⟨(hfrm.trans (frame_set _ _ _)).trans hfrm', hfrd, hwtr⟩
  · have ht : t ≠ Pit.sentinel := by
      rintro rfl
      rw [h.waiter] at hw
      cases hw
    obtain ⟨hcanc, hfrm, -⟩ := h.cancel ht
    have hnd := (nodup_append.mp h.nodup).1
    have hnot : t ∉ l.erase t := by simp [hnd.mem_erase_iff]
    exact ⟨hfrm.trans (frame_set _ _ _), hcanc.set (by simp [hnot, ht])
      (fun hf => by simpa [hnot, ht] using (hcanc.running t).mp hf), by simp⟩
  · exact ⟨⟨rfl, fun _ _ => rfl, fun _ _ => rfl, fun _ _ => rfl⟩, rfl⟩

/-- **`timer_cancel_for_task`** takes the timers of the task out of the list, and no others. -/
theorem Listed.cancelForTask (h : Listed c l) (task : Tid) (taskTimer : Option TimerId) :
    ∃ l', Listed (timerCancelForTask task taskTimer c) l' ∧ (timerCancelForTask task taskTimer c).count = c.count ∧
      (∀ t, t ∈ l' ↔ t ∈ l ∧ (c.timers0 t).waiter ≠ some task) ∧
      ∀ t, (c.timers0 t).waiter ≠ some task →
        (timerCancelForTask task taskTimer c).timeout t = c.timeout t ∧
        ((timerCancelForTask task taskTimer c).timers0 t).flags = (c.timers0 t).flags ∧
        ((timerCancelForTask task taskTimer c).timers0 t).waiter = (c.timers0 t).waiter := by
  -- of the timers that were passed those of the task are gone, the others are as they were
  have hloop : ∀ ts : List TimerId, ts.Nodup → ∀ c l, Listed c l →
      ∃ l', Listed (ts.foldl (fun c timer => cancelTaskTimer task taskTimer timer c) c) l' ∧
        (ts.foldl (fun c timer => cancelTaskTimer task taskTimer timer c) c).count = c.count ∧
        (∀ t, t ∈ l' ↔ t ∈ l ∧ (t ∈ ts → (c.timers0 t).waiter ≠ some task)) ∧
        ∀ t, (t ∈ ts → (c.timers0 t).waiter ≠ some task) →
          (ts.foldl (fun c timer => cancelTaskTimer task taskTimer timer c) c).timeout t = c.timeout t ∧
          ((ts.foldl (fun c timer => cancelTaskTimer task taskTimer timer c) c).timers0 t).flags = (c.timers0 t).flags ∧
          ((ts.foldl (fun c timer => cancelTaskTimer task taskTimer timer c) c).timers0 t).waiter = (c.timers0 t).waiter := by
    intro ts
    induction ts with
    | nil => exact fun _ c l hc => ⟨l, hc, rfl, by simp, fun _ _ => ⟨rfl, rfl, rfl⟩⟩
    | cons x ts ih =>
      intro hts c l hc
      obtain ⟨hx, hts⟩ := nodup_cons.mp hts
      obtain ⟨hfrm, hpass⟩ := hc.cancelTask task taskTimer x
      have hwtr : ∀ t ∈ ts, ((cancelTaskTimer task taskTimer x c).timers0 t).waiter = (c.timers0 t).waiter :=
        fun t ht => hfrm.waiter t fun heq => hx (heq ▸ ht)
      rw [List.foldl_cons]
      by_cases hw : (c.timers0 x).waiter = some task
      · rw [if_pos hw] at hpass
        obtain ⟨l', hl', hcnt, hmem, hkept⟩ := ih hts _ _ hpass.1
        have hnd := (nodup_append.mp hc.nodup).1
        refine ⟨l', hl', hcnt.trans hfrm.count, fun t => ?_, fun t ht => ?_⟩
        · rw [hmem, hnd.mem_erase_iff, mem_cons]
          by_cases heq : t = x
          · subst heq
            simp [hw]
          · by_cases hin : t ∈ ts
            · simp [heq, hin, hwtr t hin]
            · simp [heq, hin]
        · have hne : t ≠ x := by
            rintro rfl
            exact ht List.mem_cons_self hw
          obtain ⟨h1, h2, h3⟩ := hkept t fun hin => by rw [hwtr t hin]; exact ht (List.mem_cons_of_mem _ hin)
          exact ⟨h1.trans (hfrm.timeout t hne), h2.trans (hfrm.flags t hne), h3.trans (hfrm.waiter t hne)⟩
      · rw [if_neg hw] at hpass
        rw [hpass]
        obtain ⟨l', hl', hcnt, hmem, hkept⟩ := ih hts c l hc
        refine ⟨l', hl', hcnt, fun t => ?_, fun t ht => hkept t fun hin => ht (List.mem_cons_of_mem _ hin)⟩
        rw [hmem, mem_cons]
        by_cases heq : t = x
        · subst heq
          simp [hx, hw]
        · simp [heq]
  unfold timerCancelForTask
  have hall : ∀ t, t ∈ finRange maxTimer := List.mem_finRange
  have hnd := List.nodup_finRange maxTimer
  generalize finRange maxTimer = ts at hall hnd ⊢
  obtain ⟨l', hl', hcnt, hmem, hkept⟩ := hloop ts hnd c l h
  refine ⟨l', hl', hcnt, fun t => ?_, fun t ht => hkept t fun _ => ht⟩
  rw [hmem]
  exact and_congr_right fun _ => ⟨fun hw => hw (hall t), fun hw _ => hw⟩

/-! ### Arming -/

/-- The loop of `timer_settime` finds the place of the timer, in front of the first one that does not expire before it. -/
lemma insertLoop_spec (h : IsChain c.link c.t0 (p ++ s :: r)) (hp : ∀ u ∈ p ++ [s], c.timeout u < c.timeout t)
    (hr : ∃ u ∈ r, c.timeout t ≤ c.timeout u) (ht : t ∉ p ++ s :: r) (hn : r.length ≤ n) :
    ∃ p' s' y r', p ++ s :: r = p' ++ s' :: y :: r' ∧ (∀ u ∈ p' ++ [s'], c.timeout u < c.timeout t) ∧
      c.timeout t ≤ c.timeout y ∧
      insertLoop t n s c = .ok (TimerCtl.set (c.set s' { c.timers0 s' with next := some t }) t
        { c.timers0 t with next := some y }) := by
  induction r generalizing p s n with
  | nil =>
    obtain ⟨u, hu, -⟩ := hr
    cases hu
  | cons x r ih =>
    obtain ⟨n, rfl⟩ := Nat.exists_eq_succ_of_ne_zero (Nat.ne_zero_of_lt hn)
    have hlink : c.link s = some x := h.suffix.head
    rw [insertLoop, hlink]
    dsimp only
    by_cases hx : (c.timers0 t).timeout ≤ (c.timers0 x).timeout
    · rw [if_pos hx]
      have hne : t ≠ s := fun heq => ht (by simp [heq])
      exact ⟨p, s, x, r, rfl, hp, hx, by rw [set_of_ne _ _ hne]⟩
    · rw [if_neg hx]
      obtain ⟨p', s', y, r', heq, hp', hy, hloop⟩ := @ih (p ++ [s]) x n (by simpa using h)
        (by
          intro u hu
          rcases mem_append.mp hu with hu | hu
          · exact hp u hu
          · rw [mem_singleton.mp hu]
            exact Nat.lt_of_not_le hx)
        (by
          obtain ⟨u, hu, hle⟩ := hr
          rcases mem_cons.mp hu with rfl | hu
          · exact absurd hle hx
          · exact ⟨u, hu, hle⟩)
        (by simpa using ht) (by rw [length_cons] at hn; omega)
      exact ⟨p', s', y, r', by rw [← heq]; simp, hp', hy, hloop⟩

lemma Listed.inserted (h : Listed c l) {a b : List TimerId} (hl : l ++ [Pit.sentinel] = a ++ b) (hb : b ≠ [])
    (ht : t ∉ l ++ [Pit.sentinel]) (ha : ∀ u ∈ a, c.timeout u < c'.timeout t) (hfst : ∀ u ∈ b.head?, c'.timeout t ≤ c.timeout u)
    (hnow : c.count ≤ c'.timeout t) (hch : IsChain c'.link c'.t0 (a ++ t :: b)) (hfrm : Frame t c c')
    (hfl : (c'.timers0 t).flags = .flagsUsing) :
    ∃ l', Listed c' l' ∧ ∀ u, u ∈ l' ↔ u = t ∨ u ∈ l := by
  have hne : ∀ u ∈ l ++ [Pit.sentinel], u ≠ t := fun u hu heq => ht (heq ▸ hu)
  have htime : ∀ u ∈ l ++ [Pit.sentinel], c'.timeout u = c.timeout u := fun u hu => hfrm.timeout u (hne u hu)
  have hsort := h.sorted
  rw [hl] at hsort
  obtain ⟨hsa, hsb, hab⟩ := List.pairwise_append.mp hsort
  have hbt : ∀ u ∈ b, c'.timeout t ≤ c.timeout u := by
    cases b with
    | nil => exact absurd rfl hb
    | cons y b =>
      intro u hu
      have hy := hfst y rfl
      rcases mem_cons.mp hu with rfl | hu
      · exact hy
      · exact hy.trans ((pairwise_cons.mp hsb).1 u hu)
  obtain ⟨b', z, rfl⟩ := (List.eq_nil_or_concat' b).resolve_left hb
  rw [← append_assoc] at hl
  obtain ⟨hlab, hz⟩ := List.append_inj' hl rfl
  cases hz
  have hin : ∀ u, u ∈ a ++ t :: b' ↔ u = t ∨ u ∈ l := by
    intro u
    rw [hlab]
    simp only [mem_append, mem_cons]
    tauto
  have hold : ∀ u ∈ a ++ (b' ++ [Pit.sentinel]), u ∈ l ++ [Pit.sentinel] := by
    intro u hu
    rwa [hl, append_assoc]
  refine ⟨a ++ t :: b', ⟨?_, fun u => ?_, ?_, fun u hu => ?_, ?_, ?_, by rw [hfrm.count]; exact h.count⟩, hin⟩
  · simpa using hch
  · rw [mem_append, hin, or_assoc, ← mem_append]
    by_cases hu : u = t
    · subst hu
      exact iff_of_true hfl (.inl rfl)
    · rw [hfrm.flags u hu, h.running]
      simp [hu]
  · rw [append_assoc, List.cons_append]
    refine List.pairwise_append.mpr ⟨hsa.imp_of_mem fun {x y} hx hy hxy => ?_, pairwise_cons.mpr ⟨fun u hu => ?_,
      hsb.imp_of_mem fun {x y} hx hy hxy => ?_⟩, fun x hx y hy => ?_⟩
    · rwa [htime x (hold x (by simp [hx])), htime y (hold y (by simp [hy]))]
    · rw [htime u (hold u (mem_append_right _ hu))]
      exact hbt u hu
    · rwa [htime x (hold x (mem_append_right _ hx)), htime y (hold y (mem_append_right _ hy))]
    · rw [htime x (hold x (by simp [hx]))]
      rcases mem_cons.mp hy with rfl | hy
      · exact (ha x hx).le
      · rw [htime y (hold y (mem_append_right _ hy))]
        exact hab x hx y hy
  · rw [hfrm.count]
    rcases (hin u).mp hu with rfl | hu
    · exact hnow
    · rw [htime u (mem_append_left _ hu)]
      exact h.ahead u hu
  · rw [htime _ (by simp)]
    exact h.sentinel
  · rw [hfrm.waiter _ (hne _ (by simp))]
    exact h.waiter

/-- **`timer_settime`** with an expiry time that is a 32-bit number -/
theorem Listed.settime (h : Listed c l) (ht : t ≠ Pit.sentinel) (hn : c.count + n ≤ uintMax) :
    ∃ c' l', setTimer t n c = .ok c' ∧ Listed c' l' ∧ (∀ u, u ∈ l' ↔ u = t ∨ u ∈ l) ∧ Frame t c c' ∧
      c'.timeout t = c.count + n ∧ (c'.timers0 t).waiter = (c.timers0 t).waiter := by
  obtain ⟨hcanc, hfrm, -, -, hwtr, hfl⟩ := h.cancel ht
  have hnd := (nodup_append.mp h.nodup).1
  have hnot : t ∉ l.erase t ++ [Pit.sentinel] := by simp [hnd.mem_erase_iff, ht]
  have hmem : ∀ l' : List TimerId, (∀ u, u ∈ l' ↔ u = t ∨ u ∈ l.erase t) → ∀ u, u ∈ l' ↔ u = t ∨ u ∈ l := by
    intro l' hl' u
    rw [hl', hnd.mem_erase_iff]
    tauto
  have hwrap : wrap (n + (cancelTimer t c).2.count) = c.count + n := by
    have hn : c.count + n ≤ 0xffffffff := hn
    rw [hfrm.count, wrap, Nat.mod_eq_of_lt (by omega), Nat.add_comm]
  rw [← hwtr]
  unfold setTimer
  generalize cancelTimer t c = w at hcanc hfrm hwrap ⊢
  generalize w.2 = d at hcanc hfrm hwrap ⊢
  clear hfl hwtr
  dsimp only
  rw [hwrap]
  have hcnt := hfrm.count
  generalize he : d.set t { d.timers0 t with timeout := c.count + n, flags := .flagsUsing } = e
  -- what `e` differs in from `d`
  have hde : Frame t d e := he ▸ frame_set _ _ _
  have hch : IsChain e.link e.t0 (l.erase t ++ [Pit.sentinel]) := by
    rw [← he, set_link]
    exact hcanc.chain.update hnot _
  have het : e.timeout t = c.count + n := by rw [← he, TimerCtl.timeout, set_self]
  have hnow : d.count ≤ e.timeout t := by
    rw [het, hcnt]
    omega
  have hef : (e.timers0 t).flags = .flagsUsing := by rw [← he, set_self]
  have hew : (e.timers0 t).waiter = (d.timers0 t).waiter := by rw [← he, set_self]
  have hold : ∀ u ∈ l.erase t ++ [Pit.sentinel], e.timeout u = d.timeout u :=
    fun u hu => hde.timeout u fun heq => hnot (heq ▸ hu)
  obtain ⟨x, rest, hcons⟩ : ∃ x rest, l.erase t ++ [Pit.sentinel] = x :: rest := List.exists_cons_of_ne_nil (by simp)
  have ht0 : e.t0 = some x := by rw [hch.head, hcons, List.head?_cons]
  rw [ht0]
  dsimp only
  by_cases hle : (e.timers0 t).timeout ≤ (e.timers0 x).timeout
  · rw [if_pos hle]
    have hf : Frame t d { e.set t { e.timers0 t with next := some x } with
        t0 := some t, next := ((e.set t { e.timers0 t with next := some x }).timers0 t).timeout } :=
      hde.trans ⟨rfl, (frame_set e t _).timeout, (frame_set e t _).flags, (frame_set e t _).waiter⟩
    obtain ⟨l', hl', hm⟩ := hcanc.inserted (a := []) (nil_append _).symm (by simp) hnot
      (by simp)
      (by
        intro u hu
        rw [hcons, List.head?_cons, Option.mem_some_iff] at hu
        rw [← hu, ← hold x (by simp [hcons])]
        simpa [TimerCtl.timeout] using hle)
      (by simpa [TimerCtl.timeout] using hnow)
      (by
        show IsChain (TimerCtl.set e t _).link (some t) _
        rw [set_link, ← ht0]
        exact hch.cons hnot) hf
      (by simpa using hef)
    exact ⟨_, l', rfl, hl', hmem l' hm, hfrm.trans hf, by simpa [TimerCtl.timeout] using het, by simpa using hew⟩
  · rw [if_neg hle]
    rw [hcons] at hch hnot
    obtain ⟨p, s, y, r, heq, hp, hy, hloop⟩ := insertLoop_spec (p := []) (s := x) (r := rest) (t := t) (n := maxTimer + 1) hch
      (by simpa [TimerCtl.timeout] using Nat.lt_of_not_le hle)
      (by
        have hlast : Pit.sentinel ∈ x :: rest := by simp [← hcons]
        have hs : e.timeout Pit.sentinel = uintMax := by
          rw [hold _ (by simp)]
          exact hcanc.sentinel
        rcases mem_cons.mp hlast with hx | hin
        · rw [← hx] at hle
          exact absurd (show e.timeout t ≤ e.timeout Pit.sentinel by rw [het, hs]; exact hn) hle
        · exact ⟨_, hin, by rw [het, hs]; exact hn⟩)
      hnot
      (by
        have hlen := hcanc.length_le
        rw [hcons, length_cons] at hlen
        omega)
    rw [nil_append] at heq
    have hst : s ≠ t := by
      rintro rfl
      exact hnot (by simp [heq])
    have hf : Frame t d (TimerCtl.set (e.set s { e.timers0 s with next := some t }) t { e.timers0 t with next := some y }) :=
      (hde.trans (frame_relink e t s _)).trans (frame_set (e.set s _) t _)
    have hspl : l.erase t ++ [Pit.sentinel] = (p ++ [s]) ++ y :: r := by
      rw [hcons, heq]
      simp
    obtain ⟨l', hl', hm⟩ := hcanc.inserted hspl (by simp) (hcons ▸ hnot)
      (by
        intro u hu
        rw [← hold u (by rw [hspl]; exact mem_append_left _ hu)]
        simpa [TimerCtl.timeout] using hp u hu)
      (by
        intro u hu
        rw [List.head?_cons, Option.mem_some_iff] at hu
        rw [← hu, ← hold y (by rw [hspl]; simp)]
        simpa [TimerCtl.timeout] using hy)
      (by simpa [TimerCtl.timeout] using hnow)
      (by
        rw [heq] at hch hnot
        have hins := hch.insert (x := t) hnot
        have hsy : e.link s = some y := hch.suffix.head
        rw [set_link, set_link]
        rw [hsy] at hins
        simpa [ht0] using hins) hf
      (by simpa using hef)
    exact ⟨_, l', hloop, hl', hmem l' hm, hfrm.trans hf, by simpa [TimerCtl.timeout] using het, by simpa using hew⟩

/-! ### The interrupt -/

def TimerCtl.expiry (c : TimerCtl) (t : TimerId) : Expiry :=
  ⟨t, (c.timers0 t).waiter, (c.timers0 t).fifo, (c.timers0 t).data⟩

/-- The loop of `timer_interrupt` takes the timers from the list whose time has come. -/
lemma expireLoop_spec {h : Option TimerId} (hch : IsChain c.link h (l ++ [sentinel]))
    (hsort : (l ++ [sentinel]).Pairwise fun a b => c.timeout a ≤ c.timeout b) (hs : c.count < c.timeout sentinel)
    (hn : l.length < n) :
    ∃ c', expireLoop n h c = .ok (c', (l.filter fun t => c.timeout t ≤ c.count).map c.expiry) ∧ c'.count = c.count ∧
      IsChain c.link c'.t0 ((l.filter fun t => c.count < c.timeout t) ++ [sentinel]) ∧
      ∀ u, c'.timers0 u = if u ∈ l ∧ c.timeout u ≤ c.count then { c.timers0 u with flags := .flagsAlloc } else c.timers0 u := by
  induction l generalizing c h n with
  | nil =>
    obtain ⟨n, rfl⟩ := Nat.exists_eq_succ_of_ne_zero (Nat.ne_zero_of_lt hn)
    rw [hch.1, expireLoop, if_pos (show (c.timers0 sentinel).timeout > c.count from hs)]
    exact ⟨_, rfl, rfl, ⟨rfl, hch.2⟩, by simp⟩
  | cons x l ih =>
    obtain ⟨n, rfl⟩ := Nat.exists_eq_succ_of_ne_zero (Nat.ne_zero_of_lt hn)
    obtain ⟨hhead, hrest⟩ := hch
    obtain ⟨hx, hsort⟩ := pairwise_cons.mp hsort
    rw [hhead, expireLoop]
    by_cases hlat : c.timeout x > c.count
    · -- the first timer that stays, and all the ones behind it
      have hall : ∀ u ∈ x :: l, c.count < c.timeout u := by
        intro u hu
        rcases mem_cons.mp hu with rfl | hu
        · exact hlat
        · exact hlat.trans_le (hx u (mem_append_left _ hu))
      have hnone : (x :: l).filter (fun t => decide (c.timeout t ≤ c.count)) = [] :=
        List.filter_eq_nil_iff.mpr fun u hu => by simpa using hall u hu
      have hever : (x :: l).filter (fun t => decide (c.count < c.timeout t)) = x :: l :=
        List.filter_eq_self.mpr fun u hu => by simpa using hall u hu
      rw [if_pos (show (c.timers0 x).timeout > c.count from hlat), hnone, hever]
      refine ⟨_, rfl, rfl, ⟨rfl, hrest⟩, fun u => ?_⟩
      rw [if_neg fun hu => absurd hu.2 (Nat.not_le.mpr (hall u hu.1))]
    · -- the timer expires
      rw [if_neg (show ¬(c.timers0 x).timeout > c.count from hlat)]
      dsimp only
      have hle : c.timeout x ≤ c.count := Nat.le_of_not_lt hlat
      have hnd := (show IsChain c.link h (x :: (l ++ [sentinel])) from ⟨hhead, hrest⟩).nodup
      have hxl : x ∉ l ++ [sentinel] := (nodup_cons.mp hnd).1
      generalize he : c.set x { c.timers0 x with flags := .flagsAlloc } = e
      have hlink : e.link = c.link := by
        rw [← he, set_link]
        exact Function.update_eq_self ..
      have htime : e.timeout = c.timeout := by
        funext u
        rw [← he]
        by_cases hu : u = x
        · subst hu
          simp [TimerCtl.timeout]
        · simp [TimerCtl.timeout, set_of_ne _ _ hu]
      have hcnt : e.count = c.count := by rw [← he, set_count]
      have hoth : ∀ u, u ≠ x → e.timers0 u = c.timers0 u := fun u hu => by rw [← he, set_of_ne _ _ hu]
      obtain ⟨c', hloop, hcnt', hch', htmrs⟩ := ih (c := e) (h := (c.timers0 x).next) (n := n) (by rw [hlink]; exact hrest)
        (by rw [htime]; exact hsort) (by rw [htime, hcnt]; exact hs) (by rw [length_cons] at hn; omega)
      have hmap : (l.filter fun t => c.timeout t ≤ c.count).map e.expiry = (l.filter fun t =>
        c.timeout t ≤ c.count).map c.expiry := by
        refine List.map_congr_left fun u hu => ?_
        have hux : u ≠ x := fun heq => hxl (heq ▸ mem_append_left _ (List.mem_of_mem_filter hu))
        simp only [TimerCtl.expiry, hoth u hux]
      rw [htime, hcnt, hmap] at hloop
      rw [htime, hcnt, hlink] at hch'
      refine ⟨c', ?_, hcnt'.trans hcnt, ?_, fun u => ?_⟩
      · show (expireLoop n (c.timers0 x).next e >>= _) = _
        rw [hloop, List.filter_cons_of_pos (by simpa using hle)]
        rfl
      · rw [List.filter_cons_of_neg (by simpa using hle)]
        exact hch'
      · rw [htmrs, htime, hcnt]
        by_cases hu : u = x
        · subst hu
          have hul : u ∉ l := fun hmem => hxl (mem_append_left _ hmem)
          rw [if_neg fun hm => hul hm.1, if_pos ⟨List.mem_cons_self, hle⟩, ← he, set_self]
        · rw [hoth u hu]
          simp [hu]

/-- **A tick** at which the sentinel does not expire -/
theorem Listed.tick (h : Listed c l) (hn : c.count + 1 < uintMax) :
    ∃ c', timerInterrupt 0 c = .ok (c', (l.filter fun t => c.timeout t ≤ c.count + 1).map c.expiry) ∧
      Listed c' (l.filter fun t => c.count + 1 < c.timeout t) ∧ c'.count = c.count + 1 ∧
      ∀ u, c'.timers0 u = if u ∈ l ∧ c.timeout u ≤ c.count + 1 then { c.timers0 u with flags := .flagsAlloc } else c.timers0 u := by
  have hwrap : wrap (c.count + 1) = c.count + 1 := by
    have hn : c.count + 1 < 0xffffffff := hn
    exact Nat.mod_eq_of_lt (by omega)
  obtain ⟨x, rest, hcons⟩ : ∃ x rest, l ++ [Pit.sentinel] = x :: rest := List.exists_cons_of_ne_nil (by simp)
  have ht0 : c.t0 = some x := by rw [h.chain.head, hcons, List.head?_cons]
  have hlen := h.length_le
  simp only [List.length_append, List.length_singleton] at hlen
  obtain ⟨c', hloop, hcnt, hch, htmrs⟩ := @expireLoop_spec { c with count := c.count + 1 } l (maxTimer + 1) c.t0 h.chain
    h.sorted (show c.count + 1 < c.timeout Pit.sentinel by rw [h.sentinel]; exact hn) (by omega)
  have htmrs : ∀ u, c'.timers0 u =
      if u ∈ l ∧ c.timeout u ≤ c.count + 1 then { c.timers0 u with flags := .flagsAlloc } else c.timers0 u := htmrs
  -- only flags are changed
  have hlink : c'.link = c.link := by
    funext u
    show (c'.timers0 u).next = (c.timers0 u).next
    rw [htmrs]
    split_ifs <;> rfl
  have htime : c'.timeout = c.timeout := by
    funext u
    show (c'.timers0 u).timeout = (c.timers0 u).timeout
    rw [htmrs]
    split_ifs <;> rfl
  have hmem : ∀ u, u ∈ (l.filter fun t => c.count + 1 < c.timeout t) ↔ u ∈ l ∧ c.count + 1 < c.timeout u := by simp
  refine ⟨c', ?_, ⟨?_, fun u => ?_, ?_, fun u hu => ?_, ?_, ?_, ?_⟩, hcnt, htmrs⟩
  · unfold timerInterrupt
    rw [if_neg (by decide)]
    simp only [ht0, hwrap]
    rw [ht0] at hloop
    exact hloop
  · rw [hlink]
    exact hch
  · rw [mem_append, hmem, htmrs]
    have hrun := h.running u
    rw [mem_append] at hrun
    by_cases hfire : u ∈ l ∧ c.timeout u ≤ c.count + 1
    · rw [if_pos hfire]
      refine iff_of_false (by simp) ?_
      rintro (hu | hu)
      · exact absurd hu.2 (Nat.not_lt.mpr hfire.2)
      · rw [mem_singleton] at hu
        exact h.sentinel_notMem (hu ▸ hfire.1)
    · rw [if_neg hfire, hrun]
      exact or_congr_left ⟨fun hu => ⟨hu, Nat.lt_of_not_le fun hle => hfire ⟨hu, hle⟩⟩, And.left⟩
  · rw [htime]
    exact h.sorted.sublist (List.Sublist.append List.filter_sublist (List.Sublist.refl _))
  · rw [hcnt, htime]
    exact ((hmem u).mp hu).2.le
  · rw [htime]
    exact h.sentinel
  · rw [htmrs, if_neg fun hu => h.sentinel_notMem hu.1]
    exact h.waiter
  · rw [hcnt]
    exact hn

lemma Listed.alloc (h : Listed c l) :
    Listed (timerAlloc c).2 l ∧ (timerAlloc c).2.count = c.count ∧ (∀ t, (timerAlloc c).2.timeout t = c.timeout t) ∧
      (∀ t, (timerAlloc c).1 = some t → (c.timers0 t).flags = .unused ∧ ((timerAlloc c).2.timers0 t).flags = .flagsAlloc) ∧
      ((timerAlloc c).1 = none → ∀ t, (c.timers0 t).flags ≠ .unused) ∧
      ∀ t, (timerAlloc c).1 ≠ some t → (timerAlloc c).2.timers0 t = c.timers0 t := by
  unfold timerAlloc
  have hall : ∀ t, t ∈ finRange maxTimer := List.mem_finRange
  generalize finRange maxTimer = ts at hall ⊢
  cases hfind : ts.find? fun i => (c.timers0 i).flags = .unused with
  | none =>
    refine ⟨h, rfl, fun _ => rfl, by simp, fun _ t ht => ?_, fun _ _ => rfl⟩
    have hnone := List.find?_eq_none.mp hfind t (hall t)
    simp [ht] at hnone
  | some i =>
    have hi : (c.timers0 i).flags = .unused := by simpa using List.find?_some hfind
    have hnot : i ∉ l ++ [Pit.sentinel] := by
      rw [← h.running, hi]
      simp
    refine ⟨h.set hnot (by simp), rfl, fun t => ?_, fun t ht => ?_, by simp, fun t ht => ?_⟩
    · by_cases ht : t = i
      · subst ht
        simp [TimerCtl.timeout]
      · simp [TimerCtl.timeout, set_of_ne _ _ ht]
    · cases ht
      exact ⟨hi, by simp⟩
    · exact set_of_ne _ _ fun heq => ht (by rw [heq])

end PlantOS.Pit
