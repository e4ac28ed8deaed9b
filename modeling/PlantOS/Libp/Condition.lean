import PlantOS.Libp.Mutex

/-!
# Condition variables

`condition_wait` and `condition_signal` over the mutexes: any number of threads, mutexes and conditions. A step is one
atomic access, one step of a mutex call, or one call of the kernel.
-/

namespace PlantOS.Libp.Condition

open Lib Mutex

abbrev intMax : ℕ := 0x7fffffff

/-- What a call of `condition_wait` has. No code reads the last three. -/
structure Wait where
  cond : ℕ
  mutex : ℕ
  timed : Bool
  sequence : ℕ
  /-- the notifications before the load of the sequence -/
  seen : ℕ
  /-- the registrations before this one -/
  ticket : ℕ
  /-- the locks of the thread when it calls -/
  had : ℕ
  deriving DecidableEq, Repr

/-- The calls of mutex functions -/
inductive Call
  | lock (how : How)
  | unlock
  deriving DecidableEq, Repr

inductive Pc
  | idle
  /-- a call of a mutex function; `had` are the locks of the thread when it calls, which no code reads -/
  | inMutex (m : ℕ) (call : Call) (had : ℕ)
  /-- `condition_wait` loads the sequence -/
  | waitLoad (w : Wait)
  /-- it adds itself to `waiters` -/
  | waitAdd (w : Wait)
  | waitUnlock (w : Wait)
  /-- `os_futex_wait` -/
  | waitFutex (w : Wait)
  | blocked (w : Wait)
  | returned (w : Wait) (result : FutexResult)
  | waitLock (w : Wait) (error : Errno)
  /-- it subtracts itself from `waiters`, and returns -/
  | waitSub (w : Wait) (error : Errno)
  /-- `condition_signal` loads `waiters` -/
  | signalLoad (c : ℕ) (all : Bool)
  /-- it adds to the sequence; `since` are the registrations before its load -/
  | signalAdd (c : ℕ) (all : Bool) (since : ℕ)
  /-- `os_futex_wake` -/
  | signalWake (c : ℕ) (all : Bool) (since : ℕ)
  deriving DecidableEq, Repr

structure Cond where
  sequence : ℕ
  waiters : ℕ
  /-- the threads that are blocked on `sequence` -/
  queue : List ℕ
  /-- the threads that are counted in `waiters`, the additions to the sequence and the registrations; no code reads
  them -/
  registered : List ℕ
  notified : ℕ
  tickets : ℕ
  /-- the registrations before the load of a notification that has added to the sequence, and of one that has left no
  thread blocked -/
  passed : ℕ
  covered : ℕ

structure State where
  mutex : ℕ → MutexState
  cond : ℕ → Cond
  pc : ℕ → Pc

namespace State

variable (s : State)

def goto (t : ℕ) (pc : Pc) : State := { s with pc := Function.update s.pc t pc }

def setMutex (m : ℕ) (mutex : MutexState) : State := { s with mutex := Function.update s.mutex m mutex }

def setCond (c : ℕ) (cond : Cond) : State := { s with cond := Function.update s.cond c cond }

def enter (t m : ℕ) (phase : Phase) (pc : Pc) : State := (s.setMutex m ((s.mutex m).goto t phase)).goto t pc

/-- A thread goes on in a mutex function, or returns from it. -/
def inside (t m : ℕ) (env : Env) (next : Errno → Pc) : Option State :=
  match (s.mutex m).phase t with
  | .done result => some (s.enter t m .out (next result))
  | _ => ((s.mutex m).goOn t env).map (s.setMutex m)

/-- The threads that are blocked on a condition and are released, with the result of their wait -/
def wakeUp (c : ℕ) (released : List ℕ) (result : FutexResult) : State :=
  { s with
    cond := Function.update s.cond c { s.cond c with queue := remaining (s.cond c).queue released }
    pc := fun t =>
      match s.pc t with
      | .blocked w => if t ∈ released ∧ w.cond = c then .returned w result else .blocked w
      | pc => pc }

/-- The end of a notification: it covers what was registered before it, if nobody stays blocked. -/
def cover (c since : ℕ) : State :=
  let k := s.cond c
  if k.queue = [] then s.setCond c { k with passed := max k.passed since, covered := max k.covered since } else s

def goOn (t : ℕ) (env : Env) : Option State :=
  match s.pc t with
  | .idle | .blocked _ => none
  | .inMutex m .. => s.inside t m env fun _ => .idle
  | .waitLoad w =>
    some (s.goto t (.waitAdd { w with sequence := (s.cond w.cond).sequence, seen := (s.cond w.cond).notified }))
  | .waitAdd w =>
    let k := s.cond w.cond
    let s := s.setCond w.cond
      { k with waiters := (k.waiters + 1) % 2 ^ 32, registered := t :: k.registered, tickets := k.tickets + 1 }
    some (s.enter t w.mutex .unlock (.waitUnlock { w with ticket := k.tickets }))
  | .waitUnlock w => s.inside t w.mutex env fun error => if error = .ok then .waitFutex w else .waitSub w error
  | .waitFutex w =>
    match env.refused with
    | some .timedOut => if w.timed then some (s.goto t (.returned w .timedOut)) else none
    | some result => some (s.goto t (.returned w result))
    | none =>
      let k := s.cond w.cond
      if k.sequence = w.sequence then some ((s.setCond w.cond { k with queue := t :: k.queue }).goto t (.blocked w))
      else some (s.goto t (.returned w .changed))
  | .returned w result =>
    some (s.enter t w.mutex (.acquire .lock) (.waitLock w (if result = .timedOut then .etimedout else .ok)))
  | .waitLock w error => s.inside t w.mutex env fun locked => .waitSub w (if locked = .ok then error else locked)
  | .waitSub w _ =>
    let k := s.cond w.cond
    some ((s.setCond w.cond
      { k with waiters := (k.waiters + 2 ^ 32 - 1) % 2 ^ 32, registered := k.registered.erase t }).goto t .idle)
  | .signalLoad c all =>
    let k := s.cond c
    if k.waiters = 0 then some ((s.cover c k.tickets).goto t .idle) else some (s.goto t (.signalAdd c all k.tickets))
  | .signalAdd c all since =>
    let k := s.cond c
    some ((s.setCond c { k with
      sequence := (k.sequence + 1) % 2 ^ 32, notified := k.notified + 1, passed := max k.passed since }).goto t
      (.signalWake c all since))
  | .signalWake c all since =>
    if Releases (s.cond c).queue (if all then intMax else 1) env.released then
      some (((s.wakeUp c env.released .ok).cover c since).goto t .idle)
    else none

/-- A user program that keeps to the rules: it unlocks a normal mutex, or waits with it, only if it has it. -/
def MayUnlock (t m : ℕ) : Prop := (s.mutex m).kind = .normal → 0 < (s.mutex m).locks t

instance (t m : ℕ) : Decidable (s.MayUnlock t m) := inferInstanceAs (Decidable (_ → _))

def Free (t : ℕ) : Prop := s.pc t = .idle ∧ 0 < t ∧ t ≤ intMax

instance (t : ℕ) : Decidable (s.Free t) := inferInstanceAs (Decidable (_ ∧ _ ∧ _))

end State

inductive Event
  /-- `pthread_mutex_lock`, `pthread_mutex_trylock` or `pthread_mutex_timedlock` -/
  | lock (t m : ℕ) (how : How)
  | unlock (t m : ℕ)
  /-- `pthread_cond_wait` or `pthread_cond_timedwait` -/
  | wait (t c m : ℕ) (timed : Bool)
  /-- `pthread_cond_signal` or `pthread_cond_broadcast` -/
  | notify (t c : ℕ) (all : Bool)
  | goOn (t : ℕ) (env : Env)
  /-- the deadline of a wait is over, or the wait is interrupted, or returns for no reason -/
  | expireMutex (t m : ℕ) (result : FutexResult)
  | expireCond (t : ℕ) (result : FutexResult)

def State.step (s : State) : Event → Option State
  | .lock t m how =>
    if s.Free t then some (s.enter t m (.acquire how) (.inMutex m (.lock how) ((s.mutex m).locks t))) else none
  | .unlock t m =>
    if s.Free t ∧ s.MayUnlock t m then some (s.enter t m .unlock (.inMutex m .unlock ((s.mutex m).locks t))) else none
  | .wait t c m timed =>
    if s.Free t ∧ s.MayUnlock t m then some (s.goto t (.waitLoad ⟨c, m, timed, 0, 0, 0, (s.mutex m).locks t⟩)) else none
  | .notify t c all => if s.Free t then some (s.goto t (.signalLoad c all)) else none
  | .goOn t env => s.goOn t env
  | .expireMutex t m result => ((s.mutex m).expire t result).map (s.setMutex m)
  | .expireCond t result =>
    match s.pc t with
    | .blocked w => if result = .timedOut ∧ !w.timed then none else some (s.wakeUp w.cond [t] result)
    | _ => none

/-- `pthread_mutex_init` and `pthread_cond_init` -/
def sys : System State Event where
  init s := (∀ m, (s.mutex m).state = 0 ∧ (s.mutex m).owner = 0 ∧ (s.mutex m).queue = [] ∧ (s.mutex m).holder = none ∧
      (∀ t, (s.mutex m).phase t = .out ∧ (s.mutex m).locks t = 0)) ∧
    (∀ c, s.cond c = ⟨0, 0, [], [], 0, 0, 0, 0⟩) ∧ ∀ t, s.pc t = .idle
  step := State.step

/-- Fewer than 2^32 notifications are between the load of the sequence and the wait. -/
def Pc.Few (cond : ℕ → Cond) : Pc → Prop
  | .waitFutex w => (cond w.cond).notified < w.seen + 2 ^ 32
  | _ => True

def Few (s : State) : Event → Prop
  | .goOn t _ => (s.pc t).Few s.cond
  | _ => True

instance (cond : ℕ → Cond) : (pc : Pc) → Decidable (pc.Few cond)
  | .waitFutex _ => inferInstanceAs (Decidable (_ < _))
  | .idle | .inMutex .. | .waitLoad _ | .waitAdd _ | .waitUnlock _ | .blocked _ | .returned .. | .waitLock .. | .waitSub .. |
    .signalLoad .. | .signalAdd .. | .signalWake .. => isTrue trivial

instance (s : State) : (e : Event) → Decidable (Few s e)
  | .goOn t _ => inferInstanceAs (Decidable ((s.pc t).Few s.cond))
  | .lock .. | .unlock .. | .wait .. | .notify .. | .expireMutex .. | .expireCond .. => isTrue trivial

/-! ## Notifications -/

open Function (update update_of_ne update_self)

/-- The wait that a thread is counted for in `waiters` -/
def Pc.registered : Pc → Option Wait
  | .waitUnlock w | .waitFutex w | .blocked w | .returned w _ | .waitLock w _ | .waitSub w _ => some w
  | _ => none

def Pc.sleeping : Pc → Option Wait
  | .blocked w => some w
  | _ => none

/-- What one thread knows of the notifications of a condition -/
def Pc.Knows (c notified tickets passed covered : ℕ) : Pc → Prop
  | .waitAdd w => w.cond = c → w.sequence = w.seen % 2 ^ 32 ∧ w.seen ≤ notified
  | .waitUnlock w | .waitFutex w =>
    w.cond = c → w.sequence = w.seen % 2 ^ 32 ∧ w.seen ≤ notified ∧ (w.ticket < passed → w.seen < notified)
  | .blocked w => w.cond = c → covered ≤ w.ticket
  | .signalAdd c' _ since => c' = c → since ≤ tickets
  | .signalWake c' _ since => c' = c → since ≤ passed
  | _ => True

structure CondInv (c : ℕ) (k : Cond) (pc : ℕ → Pc) : Prop where
  waiters : k.waiters = k.registered.length
  nodup : k.registered.Nodup
  registered : ∀ t, t ∈ k.registered ↔ ∃ w, (pc t).registered = some w ∧ w.cond = c
  queueNodup : k.queue.Nodup
  queue : ∀ t, t ∈ k.queue ↔ ∃ w, (pc t).sleeping = some w ∧ w.cond = c
  sequence : k.sequence = k.notified % 2 ^ 32
  covered : k.covered ≤ k.passed
  passed : k.passed ≤ k.tickets
  knows : ∀ t, (pc t).Knows c k.notified k.tickets k.passed k.covered

variable {c t : ℕ} {k : Cond} {pc : ℕ → Pc}

lemma view_update {α : Type*} (view : Pc → Option α) {P : α → Prop} {q : Pc}
    (h : (∃ x, view q = some x ∧ P x) ↔ ∃ x, view (pc t) = some x ∧ P x) (u : ℕ) :
    (∃ x, view (update pc t q u) = some x ∧ P x) ↔ ∃ x, view (pc u) = some x ∧ P x := by
  by_cases hu : u = t
  · rw [hu, update_self]
    exact h
  · rw [update_of_ne hu]

lemma knows_update {Q : Pc → Prop} {q : Pc} (hq : Q q) (h : ∀ u, Q (pc u)) (u : ℕ) : Q (update pc t q u) := by
  by_cases hu : u = t
  · rw [hu, update_self]
    exact hq
  · rw [update_of_ne hu]
    exact h u

/-- **A thread goes on**, and is registered and blocked as before. -/
lemma CondInv.goto (h : CondInv c k pc) {q : Pc}
    (hreg : (∃ w, q.registered = some w ∧ w.cond = c) ↔ ∃ w, (pc t).registered = some w ∧ w.cond = c)
    (hsleep : (∃ w, q.sleeping = some w ∧ w.cond = c) ↔ ∃ w, (pc t).sleeping = some w ∧ w.cond = c)
    (hknow : q.Knows c k.notified k.tickets k.passed k.covered) : CondInv c k (update pc t q) where
  waiters := h.waiters
  nodup := h.nodup
  registered u := (h.registered u).trans (view_update Pc.registered hreg u).symm
  queueNodup := h.queueNodup
  queue u := (h.queue u).trans (view_update Pc.sleeping hsleep u).symm
  sequence := h.sequence
  covered := h.covered
  passed := h.passed
  knows := knows_update hknow h.knows

lemma CondInv.counted (h : CondInv c k pc) (ht : t ∈ k.queue) : t ∈ k.registered := by
  obtain ⟨w, hw, hc⟩ := (h.queue t).mp ht
  refine (h.registered t).mpr ⟨w, ?_, hc⟩
  cases hpc : pc t with
  | blocked x =>
    rw [hpc] at hw
    exact hw
  | _ =>
    rw [hpc] at hw
    cases hw

lemma CondInv.register (h : CondInv c k pc) {w : Wait} (hpc : pc t = .waitAdd w) (hc : w.cond = c)
    (hlen : k.registered.length < intMax) :
    CondInv c { k with
      waiters := (k.waiters + 1) % 2 ^ 32, registered := t :: k.registered, tickets := k.tickets + 1 }
      (update pc t (.waitUnlock { w with ticket := k.tickets })) := by
  have hnot : t ∉ k.registered := fun hmem => by
    obtain ⟨x, hx, -⟩ := (h.registered t).mp hmem
    rw [hpc] at hx
    cases hx
  have hmax : intMax = 0x7fffffff := rfl
  have hwtrs := h.waiters
  refine ⟨?_, List.nodup_cons.mpr ⟨hnot, h.nodup⟩, fun u => ?_, h.queueNodup, fun u => ?_, h.sequence, h.covered,
    Nat.le_succ_of_le h.passed, ?_⟩
  · dsimp only
    rw [List.length_cons]
    omega
  · exact mem_cons_update (fun p : Pc => ∃ w, p.registered = some w ∧ w.cond = c) (h.registered u) ⟨_, rfl, hc⟩
  · refine (h.queue u).trans (view_update Pc.sleeping ?_ u).symm
    rw [hpc]
    exact ⟨fun ⟨_, hx, _⟩ => (nomatch hx), fun ⟨_, hx, _⟩ => nomatch hx⟩
  · have hself := h.knows t
    rw [hpc] at hself
    refine knows_update (fun _ => ⟨(hself hc).1, (hself hc).2, fun hlt => ?_⟩) fun u => ?_
    · exact absurd (Nat.lt_of_lt_of_le hlt h.passed) (Nat.lt_irrefl _)
    · have hu := h.knows u
      dsimp only
      unfold Pc.Knows at hu ⊢
      split at hu <;> first | exact hu | exact fun heq => Nat.le_succ_of_le (hu heq)

lemma CondInv.unregister (h : CondInv c k pc) {w : Wait} {error : Errno} (hpc : pc t = .waitSub w error) (hc : w.cond = c)
    (hlen : k.registered.length ≤ intMax) :
    CondInv c { k with waiters := (k.waiters + 2 ^ 32 - 1) % 2 ^ 32, registered := k.registered.erase t }
      (update pc t .idle) := by
  have hmem : t ∈ k.registered := (h.registered t).mpr ⟨w, by rw [hpc]; rfl, hc⟩
  have hmax : intMax = 0x7fffffff := rfl
  have hwtrs := h.waiters
  have hpos := List.length_pos_of_mem hmem
  refine ⟨?_, h.nodup.erase t, fun u => ?_, h.queueNodup, fun u => ?_, h.sequence, h.covered, h.passed,
    knows_update trivial h.knows⟩
  · dsimp only
    rw [List.length_erase_of_mem hmem]
    omega
  · exact mem_erase_update (fun p : Pc => ∃ w, p.registered = some w ∧ w.cond = c) h.nodup (h.registered u)
      fun ⟨_, hx, _⟩ => nomatch hx
  · refine (h.queue u).trans (view_update Pc.sleeping ?_ u).symm
    rw [hpc]
    exact ⟨fun ⟨_, hx, _⟩ => (nomatch hx), fun ⟨_, hx, _⟩ => nomatch hx⟩

/-- **`os_futex_wait` finds the sequence unchanged**: no notification has come after the load. -/
lemma CondInv.block (h : CondInv c k pc) {w : Wait} (hpc : pc t = .waitFutex w) (hc : w.cond = c)
    (hsame : k.sequence = w.sequence) (hfew : k.notified < w.seen + 2 ^ 32) :
    CondInv c { k with queue := t :: k.queue } (update pc t (.blocked w)) := by
  have hself := h.knows t
  rw [hpc] at hself
  obtain ⟨hseq, hseen, hpass⟩ := hself hc
  have hcov := h.covered
  have hmod := h.sequence
  have hnot : t ∉ k.queue := fun hmem => by
    obtain ⟨x, hx, -⟩ := (h.queue t).mp hmem
    rw [hpc] at hx
    cases hx
  refine ⟨h.waiters, h.nodup, fun u => ?_, List.nodup_cons.mpr ⟨hnot, h.queueNodup⟩, fun u => ?_, h.sequence, h.covered,
    h.passed,
    knows_update (fun _ => ?_) h.knows⟩
  · refine (h.registered u).trans (view_update Pc.registered ?_ u).symm
    rw [hpc]
    exact Iff.rfl
  · exact mem_cons_update (fun p : Pc => ∃ w, p.sleeping = some w ∧ w.cond = c) (h.queue u) ⟨w, rfl, hc⟩
  · -- as many notifications as at the load
    have heq : k.notified = w.seen := by omega
    by_contra hlt
    change ¬k.covered ≤ w.ticket at hlt
    have hless := hpass (by omega)
    omega

lemma CondInv.notify (h : CondInv c k pc) {all : Bool} {since : ℕ} (hpc : pc t = .signalAdd c all since) :
    CondInv c { k with
      sequence := (k.sequence + 1) % 2 ^ 32, notified := k.notified + 1, passed := max k.passed since }
      (update pc t (.signalWake c all since)) := by
  have hself := h.knows t
  rw [hpc] at hself
  have hsin := hself rfl
  have hmod := h.sequence
  refine ⟨h.waiters, h.nodup, fun u => ?_, h.queueNodup, fun u => ?_, ?_, Nat.le_trans h.covered (Nat.le_max_left ..),
    Nat.max_le.mpr ⟨h.passed, hsin⟩, knows_update (fun _ => Nat.le_max_right ..) fun u => ?_⟩
  · refine (h.registered u).trans (view_update Pc.registered ?_ u).symm
    rw [hpc]
    exact Iff.rfl
  · refine (h.queue u).trans (view_update Pc.sleeping ?_ u).symm
    rw [hpc]
    exact Iff.rfl
  · dsimp only
    omega
  · have hu := h.knows u
    dsimp only
    unfold Pc.Knows at hu ⊢
    split at hu
    · exact fun heq => ⟨(hu heq).1, Nat.le_succ_of_le (hu heq).2⟩
    · exact fun heq => ⟨(hu heq).1, Nat.le_succ_of_le (hu heq).2.1, fun _ => Nat.lt_succ_of_le (hu heq).2.1⟩
    · exact fun heq => ⟨(hu heq).1, Nat.le_succ_of_le (hu heq).2.1, fun _ => Nat.lt_succ_of_le (hu heq).2.1⟩
    · exact hu
    · exact hu
    · exact fun heq => Nat.le_trans (hu heq) (Nat.le_max_left ..)
    · trivial

/-- **A notification that leaves no thread blocked** covers what was registered before it: everybody has been
released, or will find another sequence. -/
lemma CondInv.cover (h : CondInv c k pc) {since : ℕ} (hqu : k.queue = []) (hsin : since ≤ k.tickets)
    (hkn : since ≤ k.passed ∨ k.registered = []) :
    CondInv c { k with passed := max k.passed since, covered := max k.covered since } pc := by
  refine { h with covered := ?_, passed := Nat.max_le.mpr ⟨h.passed, hsin⟩, knows := fun u => ?_ }
  · exact Nat.max_le.mpr ⟨Nat.le_trans h.covered (Nat.le_max_left ..), Nat.le_max_right ..⟩
  · have hu := h.knows u
    have hcom : ∀ w, (pc u).registered = some w → w.cond = c → max k.passed since = k.passed := fun w hw hc => by
      refine Nat.max_eq_left (hkn.resolve_right fun hnil => ?_)
      have hmem := (h.registered u).mpr ⟨w, hw, hc⟩
      rw [hnil] at hmem
      cases hmem
    have hnev : ∀ w, (pc u).sleeping = some w → w.cond ≠ c := fun w hw hc => by
      have hmem := (h.queue u).mpr ⟨w, hw, hc⟩
      rw [hqu] at hmem
      cases hmem
    dsimp only
    cases hpc : pc u with
    | waitUnlock w =>
      rw [hpc] at hu hcom
      intro hc
      rw [hcom w rfl hc]
      exact hu hc
    | waitFutex w =>
      rw [hpc] at hu hcom
      intro hc
      rw [hcom w rfl hc]
      exact hu hc
    | blocked w =>
      rw [hpc] at hnev
      exact fun hc => absurd hc (hnev w rfl)
    | signalWake c' all n =>
      rw [hpc] at hu
      exact fun hc => Nat.le_trans (hu hc) (Nat.le_max_left ..)
    | _ =>
      rw [hpc] at hu
      exact hu

lemma CondInv.wakeUp (h : CondInv c k pc) (released : List ℕ) (pc' : ℕ → Pc)
    (hpc' : ∀ u, (∃ w result, pc u = .blocked w ∧ (w.cond = c → u ∈ released) ∧ pc' u = .returned w result) ∨
      (pc' u = pc u ∧ ∀ w, pc u = .blocked w → w.cond = c → u ∉ released)) :
    CondInv c { k with queue := remaining k.queue released } pc' := by
  refine ⟨h.waiters, h.nodup, fun u => (h.registered u).trans ?_, nodup_remaining h.queueNodup released, fun u => ?_,
    h.sequence, h.covered, h.passed, fun u => ?_⟩
  · rcases hpc' u with ⟨w, result, hfrom, -, hto⟩ | ⟨hto, -⟩
    · rw [hfrom, hto]
      exact Iff.rfl
    · rw [hto]
  · refine mem_remaining.trans ?_
    rw [h.queue u]
    rcases hpc' u with ⟨w, result, hfrom, hmem, hto⟩ | ⟨hto, hnot⟩
    · rw [hto, hfrom]
      refine ⟨fun ⟨⟨x, hx, hc⟩, hnot⟩ => ?_, fun ⟨_, hx, _⟩ => nomatch hx⟩
      cases hx
      exact absurd (hmem hc) hnot
    · rw [hto]
      refine ⟨fun hboth => hboth.1, fun ⟨w, hw, hc⟩ => ⟨⟨w, hw, hc⟩, ?_⟩⟩
      cases hpc : pc u with
      | blocked x =>
        rw [hpc] at hw
        cases hw
        exact hnot w hpc hc
      | _ =>
        rw [hpc] at hw
        cases hw
  · rcases hpc' u with ⟨w, result, -, -, hto⟩ | ⟨hto, -⟩
    · rw [hto]
      trivial
    · rw [hto]
      exact h.knows u

/-! ## Mutexes and conditions together -/

def Pc.mutex : Pc → Option ℕ
  | .inMutex m .. => some m
  | .waitUnlock w | .waitLock w _ => some w.mutex
  | _ => none

/-- The locks of a thread when it called `condition_wait` -/
def Had (mutex : ℕ → MutexState) (w : Wait) : Prop :=
  w.had ≤ uintMax ∧ ((mutex w.mutex).kind ≠ .recursive → w.had ≤ 1)

/-- The locks of a thread in a call -/
def Account (mutex : ℕ → MutexState) (t : ℕ) : Pc → Prop
  | .inMutex m (.lock _) had => (mutex m).Locks t had
  | .inMutex m .unlock had => (mutex m).Unlocks t had
  | .waitLoad w | .waitAdd w =>
    Had mutex w ∧ (mutex w.mutex).locks t = w.had ∧ ((mutex w.mutex).kind = .normal → 0 < w.had)
  | .waitUnlock w => Had mutex w ∧ (mutex w.mutex).Unlocks t w.had
  | .waitFutex w | .blocked w | .returned w _ => Had mutex w ∧ (mutex w.mutex).locks t + 1 = w.had
  | .waitLock w _ => Had mutex w ∧ (mutex w.mutex).Relocks t w.had
  | .waitSub w _ => (mutex w.mutex).locks t = w.had
  | _ => True

/-- **The invariant of all runs** -/
structure Inv (s : State) : Prop where
  mutex : ∀ m, Mutex.Inv (s.mutex m)
  inside : ∀ t m, (s.mutex m).phase t ≠ .out ↔ (s.pc t).mutex = some m
  ids : ∀ t, s.pc t ≠ .idle → 0 < t ∧ t ≤ intMax
  account : ∀ t, Account s.mutex t (s.pc t)
  cond : ∀ c, CondInv c (s.cond c) s.pc

variable {s s' : State} {t : ℕ}

lemma Account.passes {mutex mutex' : ℕ → MutexState} {p : Pc} (h : Account mutex t p)
    (hmtx : ∀ m, Passes (mutex m) (mutex' m) t ∧ (mutex' m).kind = (mutex m).kind) : Account mutex' t p := by
  have hhad : ∀ {w}, Had mutex w → Had mutex' w := fun {w} hw => by
    unfold Had
    rw [(hmtx w.mutex).2]
    exact hw
  cases p with
  | inMutex m call had =>
    cases call with
    | lock how => exact (hmtx m).1.locks h
    | unlock => exact (hmtx m).1.unlocks h
  | waitLoad w | waitAdd w =>
    refine ⟨hhad h.1, (hmtx w.mutex).1.1.trans h.2.1, ?_⟩
    rw [(hmtx w.mutex).2]
    exact h.2.2
  | waitUnlock w => exact ⟨hhad h.1, (hmtx w.mutex).1.unlocks h.2⟩
  | waitFutex w | blocked w | returned w _ =>
    refine ⟨hhad h.1, ?_⟩
    rw [(hmtx w.mutex).1.1]
    exact h.2
  | waitLock w _ => exact ⟨hhad h.1, (hmtx w.mutex).1.relocks h.2⟩
  | waitSub w _ => exact (hmtx w.mutex).1.1.trans h
  | _ => trivial

lemma passes_refl (x : MutexState) (u : ℕ) : Passes x x u := ⟨rfl, .inl rfl⟩

lemma passes_update {mutex : ℕ → MutexState} {m u : ℕ} {x : MutexState} (hpas : Passes (mutex m) x u)
    (hkind : x.kind = (mutex m).kind) (m' : ℕ) :
    Passes (mutex m') (update mutex m x m') u ∧ (update mutex m x m').kind = (mutex m').kind := by
  by_cases hm : m' = m
  · subst hm
    rw [update_self]
    exact ⟨hpas, hkind⟩
  · rw [update_of_ne hm]
    exact ⟨passes_refl _ u, rfl⟩

lemma Inv.setMutex (h : Inv s) {m : ℕ} {x : MutexState} (hx : Mutex.Inv x) (hkind : x.kind = (s.mutex m).kind)
    (hoths : ∀ u ≠ t, Passes (s.mutex m) x u) (hin : x.phase t ≠ .out ↔ (s.mutex m).phase t ≠ .out)
    (hacct : Account (update s.mutex m x) t (s.pc t)) : Inv (s.setMutex m x) := by
  refine ⟨fun m' => ?_, fun u m' => ?_, h.ids, fun u => ?_, h.cond⟩
  · unfold State.setMutex
    dsimp only
    by_cases hm : m' = m
    · rw [hm, update_self]
      exact hx
    · rw [update_of_ne hm]
      exact h.mutex m'
  · refine Iff.trans ?_ (h.inside u m')
    unfold State.setMutex
    dsimp only
    by_cases hm : m' = m
    · subst hm
      rw [update_self]
      by_cases hu : u = t
      · rw [hu]
        exact hin
      · exact not_congr (hoths u hu).out
    · rw [update_of_ne hm]
  · by_cases hu : u = t
    · rw [hu]
      exact hacct
    · exact (h.account u).passes (passes_update (hoths u hu) hkind)

/-- **A thread enters or leaves a mutex function**, and perhaps changes a condition. -/
lemma Inv.move (h : Inv s) {m : ℕ} {phase : Phase} {q : Pc} {cond : ℕ → Cond} (hids : 0 < t ∧ t ≤ intMax)
    (hmtx : Mutex.Inv ((s.mutex m).goto t phase)) (hfrom : ∀ m', (s.pc t).mutex = some m' → m' = m)
    (hto : ∀ m', q.mutex = some m' ↔ phase ≠ .out ∧ m' = m)
    (hacct : Account (update s.mutex m ((s.mutex m).goto t phase)) t q)
    (hcond : ∀ c, CondInv c (cond c) (update s.pc t q)) :
    Inv ⟨update s.mutex m ((s.mutex m).goto t phase), cond, update s.pc t q⟩ := by
  refine ⟨fun m' => ?_, fun u m' => ?_, fun u hu => ?_, fun u => ?_, hcond⟩
  · dsimp only
    by_cases hm : m' = m
    · rw [hm, update_self]
      exact hmtx
    · rw [update_of_ne hm]
      exact h.mutex m'
  · dsimp only
    by_cases hu : u = t
    · subst hu
      rw [update_self, hto m']
      by_cases hm : m' = m
      · subst hm
        rw [update_self]
        unfold MutexState.goto
        dsimp only
        rw [update_self]
        exact ⟨fun hne => ⟨hne, rfl⟩, fun hboth => hboth.1⟩
      · rw [update_of_ne hm]
        exact ⟨fun hne => absurd (hfrom m' ((h.inside u m').mp hne)) hm, fun hboth => absurd hboth.2 hm⟩
    · rw [update_of_ne hu, ← h.inside u m']
      exact not_congr (passes_update (passes_goto hu phase) rfl m').1.out
  · by_cases heq : u = t
    · exact heq ▸ hids
    · exact h.ids u fun hidle => hu ((update_of_ne heq ..).trans hidle)
  · dsimp only
    by_cases hu : u = t
    · rw [hu, update_self]
      exact hacct
    · rw [update_of_ne hu]
      exact (h.account u).passes (passes_update (passes_goto hu phase) rfl)

lemma Inv.goto (h : Inv s) {q : Pc} {cond : ℕ → Cond} (hids : 0 < t ∧ t ≤ intMax) (hfrom : (s.pc t).mutex = none)
    (hto : q.mutex = none) (hacct : Account s.mutex t q) (hcond : ∀ c, CondInv c (cond c) (update s.pc t q)) :
    Inv ⟨s.mutex, cond, update s.pc t q⟩ := by
  refine ⟨h.mutex, fun u m => ?_, fun u hu => ?_, fun u => ?_, hcond⟩
  · dsimp only
    by_cases hu : u = t
    · rw [hu, update_self, hto, ← hfrom]
      exact h.inside t m
    · rw [update_of_ne hu]
      exact h.inside u m
  · by_cases heq : u = t
    · exact heq ▸ hids
    · exact h.ids u fun hidle => hu ((update_of_ne heq ..).trans hidle)
  · dsimp only
    by_cases hu : u = t
    · rw [hu, update_self]
      exact hacct
    · rw [update_of_ne hu]
      exact h.account u

lemma Inv.out (h : Inv s) (hpc : (s.pc t).mutex = none) (m : ℕ) : (s.mutex m).phase t = .out := by
  by_contra hne
  rw [(h.inside t m).mp hne] at hpc
  cases hpc

lemma CondInv.at {c : ℕ} {k : Cond} {q : Pc} (h : ∀ c, CondInv c (s.cond c) s.pc) (hself : CondInv c k (update s.pc t q))
    (hreg : ∀ w, (q.registered = some w ∨ (s.pc t).registered = some w) → w.cond = c)
    (hsleep : ∀ w, (q.sleeping = some w ∨ (s.pc t).sleeping = some w) → w.cond = c)
    (hknow : ∀ c' ≠ c, ∀ n₁ n₂ n₃ n₄, q.Knows c' n₁ n₂ n₃ n₄) (c' : ℕ) :
    CondInv c' (update s.cond c k c') (update s.pc t q) := by
  by_cases hc : c' = c
  · subst hc
    rw [update_self]
    exact hself
  · rw [update_of_ne hc]
    refine (h c').goto ?_ ?_ (hknow c' hc ..)
    · exact ⟨fun ⟨w, hw, heq⟩ => absurd (heq.symm.trans (hreg w (.inl hw))) hc,
        fun ⟨w, hw, heq⟩ => absurd (heq.symm.trans (hreg w (.inr hw))) hc⟩
    · exact ⟨fun ⟨w, hw, heq⟩ => absurd (heq.symm.trans (hsleep w (.inl hw))) hc,
        fun ⟨w, hw, heq⟩ => absurd (heq.symm.trans (hsleep w (.inr hw))) hc⟩

/-! ### The code -/

lemma Inv.inside_step (h : Inv s) {m : ℕ} {env : Env} {next : Errno → Pc} (hpc : (s.pc t).mutex = some m)
    (he : s.inside t m env next = some s') (hnext : ∀ result, (next result).mutex = none)
    (hacct : ∀ result, (s.mutex m).phase t = .done result →
      Account (update s.mutex m ((s.mutex m).goto t .out)) t (next result))
    (hcond : ∀ result c, CondInv c (s.cond c) (update s.pc t (next result))) : Inv s' := by
  unfold State.inside at he
  have hids := h.ids t fun hidle => by
    rw [hidle] at hpc
    cases hpc
  split at he
  · rename_i result hdone
    cases he
    refine h.move hids ((h.mutex m).leave hdone) (fun m' hm => Option.some.inj (hm.symm.trans hpc)) (fun m' => ?_)
      (hacct result hdone) (hcond result)
    rw [hnext result]
    exact ⟨nofun, fun hboth => absurd rfl hboth.1⟩
  · obtain ⟨x, hx, rfl⟩ := Option.map_eq_some_iff.mp he
    have hin := goOn_inside hx
    refine h.setMutex ((h.mutex m).goOn hx) hin.2 (fun u => goOn_passes hx)
      ⟨fun _ => (h.inside t m).mpr hpc, fun _ => hin.1⟩ ?_
    have hself := h.account t
    cases hp : s.pc t with
    | inMutex m' call had =>
      rw [hp] at hpc hself
      cases hpc
      cases call with
      | lock how =>
        simp only [Account]
        rw [update_self]
        exact locks_goOn hself hx
      | unlock =>
        simp only [Account]
        rw [update_self]
        exact (h.mutex _).unlocks hself hx
    | waitUnlock w =>
      rw [hp] at hpc hself
      cases hpc
      obtain ⟨⟨hle, honce⟩, hun⟩ := hself
      simp only [Account, Had]
      rw [update_self, hin.2]
      exact ⟨⟨hle, honce⟩, (h.mutex _).unlocks hun hx⟩
    | waitLock w error =>
      rw [hp] at hpc hself
      cases hpc
      obtain ⟨⟨hle, honce⟩, hre⟩ := hself
      simp only [Account, Had]
      rw [update_self, hin.2]
      exact ⟨⟨hle, honce⟩, (h.mutex _).relocks hle honce hre hx⟩
    | _ =>
      rw [hp] at hpc
      cases hpc

lemma wakeUp_pc (s : State) (c : ℕ) (released : List ℕ) (result : FutexResult) (u : ℕ) :
    (∃ w, s.pc u = .blocked w ∧ u ∈ released ∧ w.cond = c ∧ (s.wakeUp c released result).pc u = .returned w result) ∨
      ((s.wakeUp c released result).pc u = s.pc u ∧ ∀ w, s.pc u = .blocked w → w.cond = c → u ∉ released) := by
  unfold State.wakeUp
  dsimp only
  split
  · rename_i w hpc
    split_ifs with hboth
    · exact .inl ⟨w, hpc, hboth.1, hboth.2, rfl⟩
    · refine .inr ⟨hpc.symm, fun x hx hc hmem => hboth ?_⟩
      cases hpc.symm.trans hx
      exact ⟨hmem, hc⟩
  · rename_i hpc
    exact .inr ⟨rfl, fun w hw => absurd hw (hpc w)⟩

lemma Inv.wakeUp (h : Inv s) (c : ℕ) (released : List ℕ) (result : FutexResult) : Inv (s.wakeUp c released result) := by
  refine ⟨h.mutex, fun u m => ?_, fun u hu => ?_, fun u => ?_, fun c' => ?_⟩
  · rw [show ((s.wakeUp c released result).mutex m).phase u = (s.mutex m).phase u from rfl, h.inside u m]
    rcases wakeUp_pc s c released result u with ⟨w, hfrom, -, -, hto⟩ | ⟨hto, -⟩
    · rw [hfrom, hto]
      exact ⟨nofun, nofun⟩
    · rw [hto]
  · rcases wakeUp_pc s c released result u with ⟨w, hfrom, -⟩ | ⟨hto, -⟩
    · refine h.ids u ?_
      rw [hfrom]
      exact nofun
    · exact h.ids u (hto ▸ hu)
  · have hacct := h.account u
    rcases wakeUp_pc s c released result u with ⟨w, hfrom, -, -, hto⟩ | ⟨hto, -⟩
    · rw [hfrom] at hacct
      rw [hto]
      exact hacct
    · rw [hto]
      exact hacct
  · rw [show (s.wakeUp c released result).cond c' =
      update s.cond c { s.cond c with queue := remaining (s.cond c).queue released } c' from rfl]
    by_cases hc : c' = c
    · subst hc
      rw [update_self]
      refine (h.cond c').wakeUp released _ fun u => ?_
      rcases wakeUp_pc s c' released result u with ⟨w, hfrom, hmem, -, hto⟩ | hsty
      · exact .inl ⟨w, result, hfrom, fun _ => hmem, hto⟩
      · exact .inr hsty
    · -- the waiters of another condition stay
      rw [update_of_ne hc]
      have hnone : ∀ u, (∃ w result', s.pc u = .blocked w ∧ (w.cond = c' → u ∈ ([] : List ℕ)) ∧
          (s.wakeUp c released result).pc u = .returned w result') ∨
          ((s.wakeUp c released result).pc u = s.pc u ∧ ∀ w, s.pc u = .blocked w → w.cond = c' → u ∉ ([] : List ℕ)) := by
        intro u
        rcases wakeUp_pc s c released result u with ⟨w, hfrom, -, heq, hto⟩ | ⟨hto, -⟩
        · exact .inl ⟨w, result, hfrom, fun hw => absurd (hw.symm.trans heq) hc, hto⟩
        · exact .inr ⟨hto, fun _ _ _ => List.not_mem_nil⟩
      have hcond := (h.cond c').wakeUp [] _ hnone
      have hsame : remaining (s.cond c').queue [] = (s.cond c').queue :=
        List.filter_eq_self.mpr fun _ _ => decide_eq_true List.not_mem_nil
      rw [hsame] at hcond
      exact hcond

lemma Inv.registered_lt (h : Inv s) {w : Wait} (hpc : s.pc t = .waitAdd w) (c : ℕ) : (s.cond c).registered.length < intMax := by
  have hnot : t ∉ (s.cond c).registered := fun hmem => by
    obtain ⟨x, hx, -⟩ := ((h.cond c).registered t).mp hmem
    rw [hpc] at hx
    cases hx
  have hlen : (t :: (s.cond c).registered).length ≤ intMax := by
    refine length_le_of_ids (List.nodup_cons.mpr ⟨hnot, (h.cond c).nodup⟩) fun u hu => h.ids u fun hidle => ?_
    rcases List.mem_cons.mp hu with rfl | hmem
    · cases hidle.symm.trans hpc
    · obtain ⟨x, hx, -⟩ := ((h.cond c).registered u).mp hmem
      rw [hidle] at hx
      cases hx
  exact hlen

lemma Inv.registered_le (h : Inv s) (c : ℕ) : (s.cond c).registered.length ≤ intMax :=
  length_le_of_ids (h.cond c).nodup fun u hu => h.ids u fun hidle => by
    obtain ⟨x, hx, -⟩ := ((h.cond c).registered u).mp hu
    rw [hidle] at hx
    cases hx

lemma Inv.queue_le (h : Inv s) (c : ℕ) : (s.cond c).queue.length ≤ intMax :=
  length_le_of_ids (h.cond c).queueNodup fun u hu => h.ids u fun hidle => by
    obtain ⟨x, hx, -⟩ := ((h.cond c).queue u).mp hu
    rw [hidle] at hx
    cases hx

lemma Inv.cover (h : Inv s) {c since : ℕ} (hids : 0 < t ∧ t ≤ intMax) (hmtx : (s.pc t).mutex = none)
    (hreg : (s.pc t).registered = none) (hsleep : (s.pc t).sleeping = none) (hsin : since ≤ (s.cond c).tickets)
    (hkn : since ≤ (s.cond c).passed ∨ (s.cond c).registered = []) : Inv ((s.cover c since).goto t .idle) := by
  have hends : ∀ c' k, CondInv c' k s.pc → CondInv c' k (update s.pc t .idle) := fun c' k hk => by
    refine hk.goto ?_ ?_ trivial
    · rw [hreg]
      exact Iff.rfl
    · rw [hsleep]
      exact Iff.rfl
  unfold State.cover
  dsimp only
  split_ifs with hqu
  · refine h.goto hids hmtx rfl trivial fun c' => hends c' _ ?_
    unfold State.setCond
    dsimp only
    by_cases hc : c' = c
    · subst hc
      rw [update_self]
      exact (h.cond c').cover hqu hsin hkn
    · rw [update_of_ne hc]
      exact h.cond c'
  · exact h.goto hids hmtx rfl trivial fun c' => hends c' _ (h.cond c')

lemma Inv.goOn (h : Inv s) {env : Env} (hfew : Few s (.goOn t env)) (he : s.goOn t env = some s') : Inv s' := by
  have hself := h.account t
  have hknow := fun c => (h.cond c).knows t
  unfold State.goOn at he
  cases hpc : s.pc t with
  | idle =>
    rw [hpc] at he
    cases he
  | blocked w =>
    rw [hpc] at he
    cases he
  | inMutex m call had =>
    rw [hpc] at he
    refine h.inside_step (by rw [hpc]; rfl) he (fun _ => rfl) (fun _ _ => trivial) fun _ c =>
      (h.cond c).goto ?_ ?_ trivial
    all_goals
      rw [hpc]
      exact Iff.rfl
  | waitLoad w =>
    rw [hpc] at he hself
    cases he
    refine h.goto (h.ids t (by rw [hpc]; nofun)) (by rw [hpc]; rfl) rfl hself fun c => (h.cond c).goto ?_ ?_ ?_
    · rw [hpc]
      exact Iff.rfl
    · rw [hpc]
      exact Iff.rfl
    · rintro rfl
      exact ⟨(h.cond _).sequence, Nat.le_refl _⟩
  | waitAdd w =>
    rw [hpc] at he hself
    cases he
    obtain ⟨hhad, hlcks, hnorm⟩ := hself
    have hids := h.ids t (by rw [hpc]; nofun)
    have hout := h.out (t := t) (by rw [hpc]; rfl) w.mutex
    refine h.move hids ((h.mutex _).enter hout hids.1 rfl fun _ hkind => ?_) (by rw [hpc]; nofun) (fun m' => ?_) ?_ ?_
    · rw [hlcks]
      exact hnorm hkind
    · exact ⟨fun heq => ⟨nofun, (Option.some.inj heq).symm⟩, fun hboth => congrArg some hboth.2.symm⟩
    · simp only [Account, Had]
      rw [update_self]
      exact ⟨hhad, .inl ⟨update_self .., hlcks⟩⟩
    · refine CondInv.at h.cond ((h.cond _).register hpc rfl (h.registered_lt hpc _)) (fun x hx => ?_) (fun x hx => ?_)
        fun c hc _ _ _ _ heq => absurd heq.symm hc
      · rcases hx with hx | hx
        · cases hx
          rfl
        · rw [hpc] at hx
          cases hx
      · rcases hx with hx | hx
        · cases hx
        · rw [hpc] at hx
          cases hx
  | waitUnlock w =>
    rw [hpc] at he hself
    refine h.inside_step (by rw [hpc]; rfl) he (fun result => ?_) (fun result hdone => ?_) fun result c => ?_
    · split_ifs <;> rfl
    · obtain ⟨hhad, hun⟩ := hself
      unfold MutexState.Unlocks at hun
      rw [hdone] at hun
      split_ifs with hok
      · simp only [Account, Had]
        rw [update_self]
        refine ⟨hhad, ?_⟩
        rcases hun with ⟨hcase, -⟩ | ⟨-, hcnt⟩ | ⟨hcase, -⟩
        · cases hcase
        · exact hcnt
        · cases hok.symm.trans (Phase.done.inj hcase)
      · simp only [Account]
        rw [update_self]
        rcases hun with ⟨hcase, -⟩ | ⟨hcase, -⟩ | ⟨-, hcnt, -⟩
        · cases hcase
        · cases result with
          | ok => exact absurd rfl hok
          | _ => cases hcase
        · exact hcnt
    · have hc := hknow c
      rw [hpc] at hc
      split_ifs
      · exact (h.cond c).goto (by rw [hpc]; exact Iff.rfl) (by rw [hpc]; exact Iff.rfl) hc
      · exact (h.cond c).goto (by rw [hpc]; exact Iff.rfl) (by rw [hpc]; exact Iff.rfl) trivial
  | waitFutex w =>
    rw [hpc] at he hself
    have hsoon : (s.pc t).Few s.cond := hfew
    rw [hpc] at hsoon
    have hids := h.ids t (by rw [hpc]; nofun)
    have hret : ∀ result, Inv (s.goto t (.returned w result)) := fun result =>
      h.goto hids (by rw [hpc]; rfl) rfl hself fun c =>
        (h.cond c).goto (by rw [hpc]; exact Iff.rfl) (by rw [hpc]; exact Iff.rfl) trivial
    dsimp only at he
    split at he
    · split_ifs at he
      cases he
      exact hret _
    · cases he
      exact hret _
    · split_ifs at he with hsame
      · cases he
        refine h.goto hids (by rw [hpc]; rfl) rfl hself ?_
        refine CondInv.at h.cond ((h.cond _).block hpc rfl hsame hsoon) (fun x hx => ?_) (fun x hx => ?_)
          fun c hc _ _ _ _ heq => absurd heq.symm hc
        · rw [hpc] at hx
          rcases hx with hx | hx <;> cases hx <;> rfl
        · rw [hpc] at hx
          rcases hx with hx | hx <;> cases hx
          rfl
      · cases he
        exact hret _
  | returned w result =>
    rw [hpc] at he hself
    cases he
    have hids := h.ids t (by rw [hpc]; nofun)
    have hout := h.out (t := t) (by rw [hpc]; rfl) w.mutex
    refine h.move hids ((h.mutex _).enter hout hids.1 rfl nofun) (by rw [hpc]; nofun) (fun m' => ?_) ?_ fun c => ?_
    · exact ⟨fun heq => ⟨nofun, (Option.some.inj heq).symm⟩, fun hboth => congrArg some hboth.2.symm⟩
    · simp only [Account, Had]
      rw [update_self]
      exact ⟨hself.1, .inl ⟨(congrArg Phase.Relocks (update_self ..)).trans rfl, hself.2⟩⟩
    · exact (h.cond c).goto (by rw [hpc]; exact Iff.rfl) (by rw [hpc]; exact Iff.rfl) trivial
  | waitLock w error =>
    rw [hpc] at he hself
    refine h.inside_step (by rw [hpc]; rfl) he (fun _ => rfl) (fun result hdone => ?_) fun result c => ?_
    · simp only [Account]
      rw [update_self]
      rcases hself.2 with ⟨hcase, -⟩ | ⟨-, hcnt⟩
      · rw [hdone] at hcase
        cases hcase
      · exact hcnt
    · exact (h.cond c).goto (by rw [hpc]; exact Iff.rfl) (by rw [hpc]; exact Iff.rfl) trivial
  | waitSub w error =>
    rw [hpc] at he
    cases he
    refine h.goto (h.ids t (by rw [hpc]; nofun)) (by rw [hpc]; rfl) rfl trivial ?_
    refine CondInv.at h.cond ((h.cond _).unregister hpc rfl (h.registered_le _)) (fun x hx => ?_) (fun x hx => ?_)
      fun _ _ _ _ _ _ => trivial
    · rw [hpc] at hx
      rcases hx with hx | hx <;> cases hx
      rfl
    · rw [hpc] at hx
      rcases hx with hx | hx <;> cases hx
  | signalLoad c all =>
    rw [hpc] at he
    have hids := h.ids t (by rw [hpc]; nofun)
    dsimp only at he
    split_ifs at he with hzero
    · cases he
      have hnil : (s.cond c).registered = [] := List.length_eq_zero_iff.mp ((h.cond c).waiters.symm.trans hzero)
      exact h.cover hids (by rw [hpc]; rfl) (by rw [hpc]; rfl) (by rw [hpc]; rfl) (Nat.le_refl _) (.inr hnil)
    · cases he
      refine h.goto hids (by rw [hpc]; rfl) rfl trivial fun c' => (h.cond c').goto ?_ ?_ ?_
      · rw [hpc]
        exact Iff.rfl
      · rw [hpc]
        exact Iff.rfl
      · rintro rfl
        exact Nat.le_refl _
  | signalAdd c all since =>
    rw [hpc] at he
    cases he
    refine h.goto (h.ids t (by rw [hpc]; nofun)) (by rw [hpc]; rfl) rfl trivial ?_
    refine CondInv.at h.cond ((h.cond _).notify hpc) (fun x hx => ?_) (fun x hx => ?_)
      fun c' hc _ _ _ _ heq => absurd heq.symm hc
    · rw [hpc] at hx
      rcases hx with hx | hx <;> cases hx
    · rw [hpc] at hx
      rcases hx with hx | hx <;> cases hx
  | signalWake c all since =>
    rw [hpc] at he
    simp only [Option.ite_none_right_eq_some] at he
    cases he.2
    have hsin := hknow c
    rw [hpc] at hsin
    have hsty : (s.wakeUp c env.released .ok).pc t = .signalWake c all since := by
      unfold State.wakeUp
      dsimp only
      rw [hpc]
    have hwok := h.wakeUp c env.released .ok
    have hcond : (s.wakeUp c env.released .ok).cond c =
        { s.cond c with queue := remaining (s.cond c).queue env.released } := update_self ..
    refine hwok.cover (h.ids t (by rw [hpc]; nofun)) (by rw [hsty]; rfl) (by rw [hsty]; rfl) (by rw [hsty]; rfl) ?_ ?_
    · rw [hcond]
      exact Nat.le_trans (hsin rfl) (h.cond c).passed
    · rw [hcond]
      exact .inl (hsin rfl)

lemma Inv.begins (h : Inv s) {q : Pc} (hfree : s.Free t) (hreg : q.registered = none) (hsleep : q.sleeping = none)
    (hknow : ∀ c n₁ n₂ n₃ n₄, q.Knows c n₁ n₂ n₃ n₄) (c : ℕ) : CondInv c (s.cond c) (update s.pc t q) := by
  refine (h.cond c).goto ?_ ?_ (hknow ..)
  · rw [hreg, hfree.1]
    exact Iff.rfl
  · rw [hsleep, hfree.1]
    exact Iff.rfl

lemma Inv.calls (h : Inv s) {m : ℕ} {phase : Phase} {call : Call} {had : ℕ} (hfree : s.Free t) (hto : phase.Special = false)
    (hne : phase ≠ .out) (hunl : phase = .unlock → s.MayUnlock t m)
    (hacct : Account (update s.mutex m ((s.mutex m).goto t phase)) t (.inMutex m call had)) :
    Inv (s.enter t m phase (.inMutex m call had)) := by
  have hout := h.out (t := t) (by rw [hfree.1]; rfl) m
  refine h.move hfree.2 ((h.mutex m).enter hout hfree.2.1 hto hunl) (by rw [hfree.1]; nofun) (fun m' => ?_) hacct
    (h.begins hfree rfl rfl fun _ _ _ _ _ => trivial)
  exact ⟨fun heq => ⟨hne, (Option.some.inj heq).symm⟩, fun hboth => congrArg some hboth.2.symm⟩

/-- **What one step preserves.** -/
theorem Inv.step (h : Inv s) {e : Event} (hfew : Few s e) (he : s.step e = some s') : Inv s' := by
  cases e with
  | lock t m how =>
    simp only [State.step, Option.ite_none_right_eq_some] at he
    obtain ⟨hfree, he⟩ := he
    cases he
    refine h.calls hfree rfl nofun nofun ?_
    simp only [Account]
    rw [update_self]
    exact .inl ⟨(congrArg Phase.Locks (update_self ..)).trans rfl, rfl⟩
  | unlock t m =>
    simp only [State.step, Option.ite_none_right_eq_some] at he
    obtain ⟨⟨hfree, hmay⟩, he⟩ := he
    cases he
    refine h.calls hfree rfl nofun (fun _ => hmay) ?_
    simp only [Account]
    rw [update_self]
    exact .inl ⟨update_self .., rfl⟩
  | wait t c m timed =>
    simp only [State.step, Option.ite_none_right_eq_some] at he
    obtain ⟨⟨hfree, hmay⟩, he⟩ := he
    cases he
    exact h.goto hfree.2 (by rw [hfree.1]; rfl) rfl
      ⟨⟨(h.mutex m).bound t, fun hkind => (h.mutex m).once hkind t⟩, rfl, hmay⟩
      (h.begins hfree rfl rfl fun _ _ _ _ _ => trivial)
  | notify t c all =>
    simp only [State.step, Option.ite_none_right_eq_some] at he
    obtain ⟨hfree, he⟩ := he
    cases he
    exact h.goto hfree.2 (by rw [hfree.1]; rfl) rfl trivial (h.begins hfree rfl rfl fun _ _ _ _ _ => trivial)
  | goOn t env => exact h.goOn hfew he
  | expireMutex t m result =>
    obtain ⟨x, hx, rfl⟩ := Option.map_eq_some_iff.mp he
    have hkind := expire_kind hx
    exact h.setMutex ((h.mutex m).expire hx) hkind (fun u _ => expire_passes hx u) (not_congr (expire_passes hx t).out)
      ((h.account t).passes (passes_update (expire_passes hx t) hkind))
  | expireCond t result =>
    simp only [State.step] at he
    split at he
    · rw [Option.ite_none_left_eq_some] at he
      cases he.2
      exact h.wakeUp _ [t] result
    · cases he

lemma Inv.init (h : sys.init s) : Inv s := by
  obtain ⟨hmtx, hcond, hidle⟩ := h
  refine ⟨fun m => ?_, fun t m => ?_, fun t ht => absurd (hidle t) ht, fun t => ?_, fun c => ?_⟩
  · obtain ⟨hst, hown, hqu, hhold, hthrs⟩ := hmtx m
    have hzero : ∀ t, ¬0 < (s.mutex m).locks t := fun t ht => by
      rw [(hthrs t).2] at ht
      exact absurd ht (Nat.lt_irrefl 0)
    have hout : ∀ t p, p ≠ .out → (s.mutex m).phase t ≠ p := fun t p hp heq => hp (heq.symm.trans (hthrs t).1)
    refine ⟨⟨fun _ => hhold, fun _ => hst⟩, fun t ht => ?_, fun t ht => absurd ht (hzero t), fun t ht => ?_,
      fun _ t ht => ?_, fun _ t ht => absurd ht (hzero t), fun t => ?_, fun _ t => ?_, fun t ht => ?_, fun t => ?_,
      fun hne => absurd hqu hne, fun t ht => absurd (hthrs t).1 ht⟩
    · cases hhold.symm.trans ht
    · exact ht.elim (fun heq => absurd heq (hout t _ nofun)) fun heq => absurd heq (hout t _ nofun)
    · exact ⟨fun heq => absurd (hown.symm.trans heq) (by omega), fun hl => absurd hl (hzero t)⟩
    · rw [(hthrs t).2]
      exact Nat.zero_le _
    · rw [(hthrs t).2]
      exact Nat.zero_le _
    · exact absurd ht (hout t _ nofun)
    · rw [hqu]
      exact ⟨nofun, fun ⟨how, heq⟩ => absurd heq (hout t _ nofun)⟩
  · rw [((hmtx m).2.2.2.2 t).1, hidle t]
    exact ⟨fun hne => absurd rfl hne, nofun⟩
  · rw [hidle t]
    trivial
  · rw [hcond c]
    refine ⟨rfl, List.nodup_nil, fun t => ?_, List.nodup_nil, fun t => ?_, rfl, Nat.le_refl _, Nat.le_refl _, fun t => ?_⟩
    · rw [hidle t]
      exact ⟨nofun, nofun⟩
    · rw [hidle t]
      exact ⟨nofun, nofun⟩
    · rw [hidle t]
      trivial

lemma guarded_inv (h : sys.Guarded Few s) : Inv s :=
  h.invariant (fun _ hs => Inv.init hs) fun _ _ _ hinv hfew he => hinv.step hfew he

/-! ## What mutexes and conditions promise -/

/-- **A notification that leaves nobody blocked** covers the registrations before its load. -/
lemma cover_covers {c since : ℕ} (hqu : (s.cond c).queue = []) : since ≤ ((s.cover c since).cond c).covered := by
  unfold State.cover
  dsimp only
  rw [if_pos hqu]
  unfold State.setCond
  dsimp only
  rw [Function.update_self]
  exact Nat.le_max_right ..

/-- **The load of `waiters`**: a notification that finds nobody has nobody to release. -/
lemma Inv.loads (h : Inv s) {c : ℕ} {all : Bool} {env : Env} (hpc : s.pc t = .signalLoad c all)
    (he : s.goOn t env = some s') :
    s'.pc t = .signalAdd c all (s.cond c).tickets ∨ (s.cond c).tickets ≤ (s'.cond c).covered := by
  unfold State.goOn at he
  rw [hpc] at he
  dsimp only at he
  split_ifs at he with hzero
  · cases he
    have hnil : (s.cond c).registered = [] := List.length_eq_zero_iff.mp ((h.cond c).waiters.symm.trans hzero)
    refine .inr (cover_covers (List.eq_nil_iff_forall_not_mem.mpr fun u hu => ?_))
    have hmem := (h.cond c).counted hu
    rw [hnil] at hmem
    cases hmem
  · cases he
    exact .inl (Function.update_self ..)

/-- **The wake**: a broadcast releases everybody, and a signal one blocked thread, if there is one. -/
lemma Inv.wakes (h : Inv s) {c : ℕ} {all : Bool} {since : ℕ} {env : Env} (hpc : s.pc t = .signalWake c all since)
    (he : s.goOn t env = some s') :
    since ≤ (s'.cond c).covered ∨
      all = false ∧ ∃ u w, s.pc u = .blocked w ∧ w.cond = c ∧ s'.pc u = .returned w .ok := by
  unfold State.goOn at he
  rw [hpc] at he
  simp only [Option.ite_none_right_eq_some] at he
  obtain ⟨hrel, he⟩ := he
  cases he
  have hcond : ((s.wakeUp c env.released .ok).cond c).queue = remaining (s.cond c).queue env.released :=
    (congrArg Cond.queue (Function.update_self ..)).trans rfl
  by_cases hnone : remaining (s.cond c).queue env.released = []
  · exact .inl (cover_covers (hcond.trans hnone))
  · obtain ⟨v, hv⟩ := List.exists_mem_of_ne_nil _ hnone
    obtain ⟨hmem, hsty⟩ := mem_remaining.mp hv
    cases all with
    | true => exact absurd (hrel.all (h.queue_le c) hmem) hsty
    | false =>
      refine .inr ⟨rfl, ?_⟩
      obtain ⟨u, hu⟩ := hrel.exists_mem Nat.one_pos (List.ne_nil_of_mem hmem)
      obtain ⟨w, hw, hc⟩ := ((h.cond c).queue u).mp (hrel.mem hu)
      have hblk : s.pc u = .blocked w := by
        cases hp : s.pc u with
        | blocked x =>
          rw [hp] at hw
          cases hw
          rfl
        | _ =>
          rw [hp] at hw
          cases hw
      refine ⟨u, w, hblk, hc, ?_⟩
      have hne : u ≠ t := fun heq => by
        rw [heq, hpc] at hblk
        cases hblk
      have hcov : ((s.wakeUp c env.released .ok).cover c since).pc = (s.wakeUp c env.released .ok).pc := by
        unfold State.cover
        dsimp only
        split_ifs <;> rfl
      unfold State.goto
      dsimp only
      rw [Function.update_of_ne hne, hcov]
      rcases wakeUp_pc s c env.released .ok u with ⟨x, hx, -, -, hto⟩ | ⟨-, hnot⟩
      · cases hblk.symm.trans hx
        exact hto
      · exact absurd hu (hnot w hblk hc)

lemma locks_update {mutex : ℕ → MutexState} {m : ℕ} {x : MutexState} {m' u : ℕ}
    (hx : m' = m → x.locks u = (mutex m).locks u) : (update mutex m x m').locks u = (mutex m').locks u := by
  by_cases hm : m' = m
  · rw [hm, update_self]
    exact hx hm
  · rw [update_of_ne hm]

lemma inside_locks {m : ℕ} {env : Env} {next : Errno → Pc} (he : s.inside t m env next = some s') {u m' : ℕ}
    (hoth : u = t → m' ≠ m) : (s'.mutex m').locks u = (s.mutex m').locks u := by
  unfold State.inside at he
  split at he
  · cases he
    exact locks_update fun _ => rfl
  · obtain ⟨x, hx, rfl⟩ := Option.map_eq_some_iff.mp he
    exact locks_update fun hm => (goOn_passes hx fun hu => hoth hu hm).1

/-- **Only a call of a mutex function changes what a thread has locked**, and only of its mutex. -/
lemma step_locks {e : Event} (he : s.step e = some s') {u m : ℕ} (hout : (s.pc u).mutex ≠ some m) :
    (s'.mutex m).locks u = (s.mutex m).locks u := by
  cases e with
  | lock t m' how =>
    simp only [State.step, Option.ite_none_right_eq_some] at he
    cases he.2
    exact locks_update fun _ => rfl
  | unlock t m' =>
    simp only [State.step, Option.ite_none_right_eq_some] at he
    cases he.2
    exact locks_update fun _ => rfl
  | wait t c m' timed =>
    simp only [State.step, Option.ite_none_right_eq_some] at he
    cases he.2
    rfl
  | notify t c all =>
    simp only [State.step, Option.ite_none_right_eq_some] at he
    cases he.2
    rfl
  | goOn t env =>
    simp only [State.step] at he
    unfold State.goOn at he
    split at he
    · cases he
    · cases he
    · rename_i hpc
      refine inside_locks he fun heq hm => hout ?_
      rw [heq, hpc, hm]
      rfl
    · cases he
      rfl
    · cases he
      exact locks_update fun _ => rfl
    · rename_i hpc
      refine inside_locks he fun heq hm => hout ?_
      rw [heq, hpc, hm]
      rfl
    · split at he
      · split_ifs at he
        cases he
        rfl
      · cases he
        rfl
      · dsimp only at he
        split_ifs at he <;> cases he <;> rfl
    · cases he
      exact locks_update fun _ => rfl
    · rename_i hpc
      refine inside_locks he fun heq hm => hout ?_
      rw [heq, hpc, hm]
      rfl
    · cases he
      rfl
    · dsimp only at he
      split_ifs at he
      · cases he
        unfold State.cover
        dsimp only
        split_ifs <;> rfl
      · cases he
        rfl
    · cases he
      rfl
    · rw [Option.ite_none_right_eq_some] at he
      cases he.2
      unfold State.cover
      dsimp only
      split_ifs <;> rfl
  | expireMutex t m' result =>
    obtain ⟨x, hx, rfl⟩ := Option.map_eq_some_iff.mp he
    exact (passes_update (expire_passes hx u) (expire_kind hx) m).1.1
  | expireCond t result =>
    simp only [State.step] at he
    split at he
    · rw [Option.ite_none_left_eq_some] at he
      cases he.2
      rfl
    · cases he

/-- **Mutexes and condition variables**, in runs in which fewer than 2^32 notifications come between the load of the
sequence and the wait: a mutex has one owner, its depth is exact, and a thread that is blocked on a free one has a
wake on its way; a call returns 0 exactly if it has given or taken a lock; `condition_wait` gives back the locks that
it takes; a broadcast leaves no earlier waiter blocked, and a signal releases a blocked one. -/
theorem waiters_are_released (h : sys.Guarded Few s) :
    (∀ m t u, 0 < (s.mutex m).locks t → 0 < (s.mutex m).locks u → t = u) ∧
    (∀ m t, (s.mutex m).kind ≠ .normal → 0 < (s.mutex m).locks t → (s.mutex m).depth = (s.mutex m).locks t) ∧
    (∀ m t how, (s.mutex m).phase t = .blocked how → (s.mutex m).state = 0 → ∃ u, ((s.mutex m).phase u).Token = true) ∧
    (∀ t m how had result, s.pc t = .inMutex m (.lock how) had → (s.mutex m).phase t = .done result →
      (s.mutex m).locks t = had + if result = .ok then 1 else 0) ∧
    (∀ t m had result, s.pc t = .inMutex m .unlock had → (s.mutex m).phase t = .done result →
      had = (s.mutex m).locks t + if result = .ok then 1 else 0) ∧
    (∀ e s' t m, sys.step s e = some s' → (s.pc t).mutex ≠ some m → (s'.mutex m).locks t = (s.mutex m).locks t) ∧
    (∀ t w error, s.pc t = .waitSub w error → (s.mutex w.mutex).locks t = w.had) ∧
    (∀ t w, s.pc t = .blocked w → (s.cond w.cond).covered ≤ w.ticket) ∧
    (∀ t c all env s', s.pc t = .signalLoad c all → sys.step s (.goOn t env) = some s' →
      s'.pc t = .signalAdd c all (s.cond c).tickets ∨ (s.cond c).tickets ≤ (s'.cond c).covered) ∧
    (∀ t c all since env s', s.pc t = .signalWake c all since → sys.step s (.goOn t env) = some s' →
      since ≤ (s'.cond c).covered ∨
        all = false ∧ ∃ u w, (s.pc u = .blocked w ∧ w.cond = c ∧ s'.pc u = .returned w .ok) ∧
          ((∀ v x, s.pc v = .blocked x → x.cond = c → x.ticket < since) → w.ticket < since)) := by
  have hinv := guarded_inv h
  refine ⟨fun m t u => (hinv.mutex m).unique, fun m t hkind => (hinv.mutex m).depth hkind t, fun m t how hblocked hfree => ?_,
    fun t m how had result hpc hdone => ?_, fun t m had result hpc hdone => ?_, fun e s' t m he => step_locks he,
    fun t w error hpc => ?_, fun t w hpc => ?_, fun t c all env s' => hinv.loads, fun t c all since env s' hpc he => ?_⟩
  · have hmem := ((hinv.mutex m).queue t).mpr ⟨how, hblocked⟩
    exact ((hinv.mutex m).token (List.ne_nil_of_mem hmem)).resolve_left (by omega)
  · have haccount := hinv.account t
    rw [hpc] at haccount
    rcases haccount with ⟨hcase, -⟩ | ⟨result', hdone', hcnt⟩
    · rw [hdone] at hcase
      cases hcase
    · cases hdone.symm.trans hdone'
      exact hcnt
  · have haccount := hinv.account t
    rw [hpc] at haccount
    rcases haccount with ⟨hcase, -⟩ | ⟨hcase, hcnt⟩ | ⟨hcase, hcnt, -⟩
    · cases hdone.symm.trans hcase
    · rw [hdone] at hcase
      cases result with
      | ok => exact hcnt.symm
      | _ => cases hcase
    · cases hdone.symm.trans hcase
      exact hcnt.symm
  · have haccount := hinv.account t
    rw [hpc] at haccount
    exact haccount
  · have hknows := (hinv.cond w.cond).knows t
    rw [hpc] at hknows
    exact hknows rfl
  · refine (hinv.wakes hpc he).imp_right ?_
    rintro ⟨hall, u, w, hblocked, hc, hreturned⟩
    exact ⟨hall, u, w, ⟨hblocked, hc, hreturned⟩, fun hearlier => hearlier u w hblocked hc⟩

def fresh : State :=
  ⟨fun _ => ⟨.normal, 0, 0, 0, [], fun _ => .out, fun _ => 0, none⟩, fun _ => ⟨0, 0, [], [], 0, 0, 0, 0⟩, fun _ => .idle⟩

lemma fresh_init : sys.init fresh := ⟨fun _ => ⟨rfl, rfl, rfl, rfl, fun _ => ⟨rfl, rfl⟩⟩, fun _ => rfl, fun _ => rfl⟩

def releasing (released : List ℕ) : Env := ⟨none, released⟩

/-- A thread locks the mutex 0 and waits on the condition 0. -/
def locksAndWaits (t : ℕ) : List Event :=
  .lock t 0 .lock :: List.replicate 4 (.goOn t (releasing [])) ++ .wait t 0 0 false :: List.replicate 6 (.goOn t (releasing []))

/-- Thread 2 waits; thread 1 signals and has added to the sequence; thread 3 waits. -/
def newcomer : List Event :=
  locksAndWaits 2 ++ [.notify 1 0 false, .goOn 1 (releasing []), .goOn 1 (releasing [])] ++ locksAndWaits 3

lemma newcomer_few : sys.Meets Few fresh newcomer := by decide +kernel

/-- When thread 1 signals, threads 2 and 3 are blocked, and nobody has the mutex. -/
theorem waiters_are_released_newcomer : ∃ s : State, (s.pc 1 = .signalWake 0 false 1 ∧ (s.mutex 0).state = 0) ∧
    ((∀ t w, s.pc t = .blocked w → (s.cond w.cond).covered ≤ w.ticket) ∧
      ∀ m t u, 0 < (s.mutex m).locks t → 0 < (s.mutex m).locks u → t = u) := by
  have hreleased := waiters_are_released (System.after_guarded (.init fresh_init) newcomer_few)
  exact ⟨_, ⟨rfl, rfl⟩, hreleased.2.2.2.2.2.2.2.1, hreleased.1⟩

/-- **A later waiter takes the wake of a signal**: thread 2 was registered when the signal loaded `waiters`, and
thread 3 was not; thread 3 is released, and thread 2 stays blocked. -/
theorem signal_wakes_newcomer : ¬∀ s : State, sys.Guarded Few s → ∀ t c since env s', s.pc t = .signalWake c false since →
    sys.step s (.goOn t env) = some s' →
    (∃ u w, (s.pc u).registered = some w ∧ w.cond = c ∧ w.ticket < since) →
    ∃ u w, (s.pc u).registered = some w ∧ w.cond = c ∧ w.ticket < since ∧ s'.pc u ≠ .blocked w := by
  intro hclaim
  have hguarded := System.after_guarded (.init fresh_init) newcomer_few
  obtain ⟨u, w, hregistered, hc, hticket, hne⟩ := hclaim _ hguarded 1 0 1 (releasing [3]) _ rfl rfl
    ⟨2, ⟨0, 0, false, 0, 0, 0, 1⟩, rfl, rfl, Nat.one_pos⟩
  match u with
  | 0 | 1 => cases hregistered
  | 2 =>
    cases hregistered
    exact hne rfl
  | 3 =>
    cases hregistered
    exact absurd hticket (Nat.lt_irrefl 1)
  | u + 4 => cases hregistered

end PlantOS.Libp.Condition
