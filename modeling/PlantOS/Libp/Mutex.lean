import Mathlib.Algebra.Group.Nat.Defs
import PlantOS.Lib.Run
import PlantOS.Lib.Waiters

/-!
# Mutexes

`mutex_acquire` and `pthread_mutex_unlock`: one mutex, any number of threads. A step is one atomic access to the
state, or one call of the kernel.
-/

namespace PlantOS.Libp.Mutex

open Lib
open Function (update update_of_ne update_self)

abbrev uintMax : ℕ := 0xffffffff

/-- `PTHREAD_MUTEX_NORMAL`, `PTHREAD_MUTEX_RECURSIVE` and `PTHREAD_MUTEX_ERRORCHECK` -/
inductive Kind
  | normal | recursive | errorcheck
  deriving DecidableEq, Repr

/-- The calls of `mutex_acquire` -/
inductive How
  | lock | trylock | timedlock
  deriving DecidableEq, Repr

inductive Errno
  | ok | ebusy | edeadlk | eagain | etimedout | eperm
  deriving DecidableEq, Repr

/-- The results of `os_futex_wait` for a word that the thread can read -/
inductive FutexResult
  | ok | changed | timedOut | interrupted
  deriving DecidableEq, Repr

inductive Phase
  | out
  /-- `mutex_acquire` looks at the owner -/
  | acquire (how : How)
  /-- its compare and exchange -/
  | swap (how : How)
  /-- its exchange; `again` behind `os_futex_wait` -/
  | exchange (how : How) (again : Bool)
  | waits (how : How)
  | blocked (how : How)
  /-- `os_futex_wait` has returned -/
  | returned (how : How) (result : FutexResult)
  /-- `mutex_acquire` writes the owner -/
  | store
  /-- `pthread_mutex_unlock` looks at the owner -/
  | unlock
  /-- its exchange -/
  | release
  /-- its `os_futex_wake` -/
  | wake
  | done (result : Errno)
  deriving DecidableEq, Repr

structure MutexState where
  kind : Kind
  state : ℕ
  owner : ℕ
  depth : ℕ
  /-- the threads that are blocked on `state` -/
  queue : List ℕ
  phase : ℕ → Phase
  /-- the locks of a thread that have succeeded and that it has not unlocked, and the thread that has changed `state`
  from 0; no code reads them -/
  locks : ℕ → ℕ
  holder : Option ℕ

/-- What a thread finds in its next step: `os_futex_wait` returns without a look at the word, and `os_futex_wake`
releases these threads -/
structure Env where
  refused : Option FutexResult
  released : List ℕ
  deriving DecidableEq, Repr

namespace MutexState

variable (s : MutexState)

def goto (t : ℕ) (phase : Phase) : MutexState := { s with phase := update s.phase t phase }

def setLocks (t n : ℕ) : MutexState := { s with locks := update s.locks t n }

/-- The blocked threads that are released, with the result of their wait -/
def wakeUp (released : List ℕ) (result : FutexResult) : MutexState :=
  { s with
    queue := remaining s.queue released
    phase := fun t =>
      match s.phase t with
      | .blocked how => if t ∈ released then .returned how result else .blocked how
      | phase => phase }

/-- `mutex_acquire` up to its compare and exchange -/
def acquire (t : ℕ) (how : How) : MutexState :=
  if s.kind ≠ .normal ∧ s.owner = t then
    if s.kind ≠ .recursive then s.goto t (.done (if how = .trylock then .ebusy else .edeadlk))
    else if s.depth = uintMax then s.goto t (.done .eagain)
    else { (s.setLocks t (s.locks t + 1)).goto t (.done .ok) with depth := s.depth + 1 }
  else s.goto t (.swap how)

/-- `pthread_mutex_unlock` up to its exchange -/
def unlock (t : ℕ) : MutexState :=
  if s.kind ≠ .normal then
    if s.owner ≠ t then s.goto t (.done .eperm)
    else
      let depth := (s.depth + 2 ^ 32 - 1) % 2 ^ 32
      let s := { s.setLocks t (s.locks t - 1) with depth }
      if depth ≠ 0 then s.goto t (.done .ok) else { s.goto t .release with owner := 0 }
  else (s.setLocks t (s.locks t - 1)).goto t .release

/-- The end of a successful `mutex_acquire` -/
def store (t : ℕ) : MutexState :=
  let s := (s.setLocks t (s.locks t + 1)).goto t (.done .ok)
  if s.kind ≠ .normal then { s with owner := t, depth := 1 } else s

def goOn (t : ℕ) (env : Env) : Option MutexState :=
  match s.phase t with
  | .out | .blocked _ | .done _ => none
  | .acquire how => some (s.acquire t how)
  | .swap how =>
    if s.state = 0 then some { s.goto t .store with state := 1, holder := some t }
    else some (s.goto t (if how = .trylock then .done .ebusy else .exchange how false))
  | .exchange how _ =>
    if s.state = 0 then some { s.goto t .store with state := 2, holder := some t }
    else some { s.goto t (.waits how) with state := 2 }
  | .waits how =>
    match env.refused with
    | some .timedOut => if how = .timedlock then some (s.goto t (.returned how .timedOut)) else none
    | some result => some (s.goto t (.returned how result))
    | none =>
      if s.state = 2 then some { s.goto t (.blocked how) with queue := t :: s.queue }
      else some (s.goto t (.returned how .changed))
  | .returned how result => some (s.goto t (if result = .timedOut then .done .etimedout else .exchange how true))
  | .store => some (s.store t)
  | .unlock => some (s.unlock t)
  | .release =>
    let s' := { s with state := 0, holder := none }
    some (s'.goto t (if s.state = 2 then .wake else .done .ok))
  | .wake =>
    if Releases s.queue 1 env.released then some ((s.wakeUp env.released .ok).goto t (.done .ok)) else none

/-- The deadline of a wait is over, or the wait is interrupted, or returns for no reason. -/
def expire (t : ℕ) (result : FutexResult) : Option MutexState :=
  match s.phase t with
  | .blocked how => if result = .timedOut ∧ how ≠ .timedlock then none else some (s.wakeUp [t] result)
  | _ => none

end MutexState

/-! ### The invariant -/

/-- The thread will wake another one, or exchange the state once more. -/
def Phase.Token : Phase → Bool
  | .wake | .exchange _ true => true
  | .returned _ result => result ≠ .timedOut
  | _ => false

/-- The thread changes what belongs to the holder, or is blocked. -/
def Phase.Special : Phase → Bool
  | .store | .release | .blocked _ => true
  | _ => false

/-- The invariant of all runs in which threads only unlock normal mutexes that they have locked. -/
structure Inv (s : MutexState) : Prop where
  free : s.state = 0 ↔ s.holder = none
  held : ∀ t, s.holder = some t → s.phase t = .store ∨ s.phase t = .release ∨ 0 < s.locks t
  locks : ∀ t, 0 < s.locks t → s.holder = some t ∧ s.phase t ≠ .store ∧ s.phase t ≠ .release
  holding : ∀ t, s.phase t = .store ∨ s.phase t = .release → s.holder = some t
  owner : s.kind ≠ .normal → ∀ t, 0 < t → (s.owner = t ↔ 0 < s.locks t)
  depth : s.kind ≠ .normal → ∀ t, 0 < s.locks t → s.depth = s.locks t
  bound : ∀ t, s.locks t ≤ uintMax
  once : s.kind ≠ .recursive → ∀ t, s.locks t ≤ 1
  unlocking : ∀ t, s.phase t = .unlock → s.kind = .normal → 0 < s.locks t
  queue : ∀ t, t ∈ s.queue ↔ ∃ how, s.phase t = .blocked how
  /-- a blocked thread will be woken: the state says so, or a wake or a second exchange is on its way -/
  token : s.queue ≠ [] → s.state = 2 ∨ ∃ t, (s.phase t).Token = true
  tid : ∀ t, s.phase t ≠ .out → 0 < t

variable {s s' : MutexState} {t : ℕ}

lemma Inv.unique (h : Inv s) {u : ℕ} (ht : 0 < s.locks t) (hu : 0 < s.locks u) : t = u :=
  Option.some.inj ((h.locks t ht).1.symm.trans (h.locks u hu).1)

lemma update_iff {phase : ℕ → Phase} {p q : Phase} {u : ℕ} (hfrom : phase t ≠ q) (hto : p ≠ q) :
    update phase t p u = q ↔ phase u = q := by
  by_cases hu : u = t
  · rw [hu, update_self]
    exact ⟨fun heq => absurd heq hto, fun heq => absurd heq hfrom⟩
  · rw [update_of_ne hu]

lemma Phase.ne_of_special {p q : Phase} (hp : p.Special = false) (hq : q.Special = true) : p ≠ q := fun heq => by
  rw [heq, hq] at hp
  cases hp

lemma Inv.token_update (h : Inv s) (hnot : (s.phase t).Token = false) (phase : Phase) (hqu : s.queue ≠ []) :
    s.state = 2 ∨ ∃ u, (update s.phase t phase u).Token = true := by
  by_cases htwo : s.state = 2
  · exact .inl htwo
  · obtain ⟨u, hu⟩ := (h.token hqu).resolve_left htwo
    refine .inr ⟨u, (congrArg Phase.Token (update_of_ne (fun heq => ?_) ..)).trans hu⟩
    rw [heq, hnot] at hu
    cases hu

lemma Inv.queue_update (h : Inv s) {phase : Phase} (hfrom : ∀ how, s.phase t ≠ .blocked how)
    (hto : ∀ how, phase ≠ .blocked how) (u : ℕ) :
    u ∈ s.queue ↔ ∃ how, update s.phase t phase u = .blocked how :=
  (h.queue u).trans (exists_congr fun how => (update_iff (hfrom how) (hto how)).symm)

lemma Inv.tid_update (h : Inv s) (hpos : 0 < t) (phase : Phase) (u : ℕ)
    (hu : update s.phase t phase u ≠ .out) : 0 < u := by
  by_cases heq : u = t
  · exact heq ▸ hpos
  · exact h.tid u fun hout => hu ((update_of_ne heq ..).trans hout)

lemma unlock_update (s : MutexState) (t : ℕ) (phase : Phase) (hto : phase ≠ .unlock) (u : ℕ)
    (hu : update s.phase t phase u = .unlock) : u ≠ t ∧ s.phase u = .unlock := by
  rcases update_cases hu with ⟨-, hu⟩ | ⟨heq, hu⟩
  · exact absurd hu hto
  · exact ⟨heq, hu⟩

lemma Inv.goto (h : Inv s) {phase : Phase} {state : ℕ} (hfrom : (s.phase t).Special = false) (hto : phase.Special = false)
    (hpos : 0 < t) (hst : state = 0 ↔ s.state = 0) (hunl : phase = .unlock → s.kind = .normal → 0 < s.locks t)
    (htok : s.queue ≠ [] → state = 2 ∨ ∃ u, (update s.phase t phase u).Token = true) :
    Inv { s with state, phase := update s.phase t phase } := by
  have hsame : ∀ {q : Phase} (u : ℕ), q.Special = true → (update s.phase t phase u = q ↔ s.phase u = q) :=
    fun u hq => update_iff (Phase.ne_of_special hfrom hq) (Phase.ne_of_special hto hq)
  constructor
  · exact hst.trans h.free
  · intro u hu
    dsimp only
    rw [hsame u rfl, hsame u rfl]
    exact h.held u hu
  · intro u hu
    dsimp only
    rw [Ne, hsame u rfl, Ne, hsame u rfl]
    exact h.locks u hu
  · intro u
    dsimp only
    rw [hsame u rfl, hsame u rfl]
    exact h.holding u
  · exact h.owner
  · exact h.depth
  · exact h.bound
  · exact h.once
  · intro u hu hkind
    by_cases heq : u = t
    · subst heq
      exact hunl ((update_self ..).symm.trans hu) hkind
    · exact h.unlocking u ((update_of_ne heq ..).symm.trans hu) hkind
  · exact h.queue_update (fun _ => Phase.ne_of_special hfrom rfl) fun _ => Phase.ne_of_special hto rfl
  · exact htok
  · exact h.tid_update hpos phase

lemma Inv.grab (h : Inv s) {state : ℕ} (hfree : s.state = 0) (hst : state ≠ 0) (hfrom : (s.phase t).Special = false)
    (hpos : 0 < t) (htok : state = 2 ∨ (s.phase t).Token = false) :
    Inv { s with state, holder := some t, phase := update s.phase t .store } := by
  have hnone := h.free.mp hfree
  have hzero : ∀ u, ¬0 < s.locks u := fun u hu => nomatch hnone.symm.trans (h.locks u hu).1
  have hqt : ∀ u, ¬(s.phase u = .store ∨ s.phase u = .release) := fun u hu =>
    nomatch hnone.symm.trans (h.holding u hu)
  constructor
  · exact ⟨fun heq => absurd heq hst, nofun⟩
  · rintro u ⟨⟩
    exact .inl (update_self ..)
  · exact fun u hu => absurd hu (hzero u)
  · intro u hu
    by_cases heq : u = t
    · rw [heq]
    · dsimp only at hu
      rw [update_of_ne heq] at hu
      exact absurd hu (hqt u)
  · exact h.owner
  · exact h.depth
  · exact h.bound
  · exact h.once
  · exact fun u hu => h.unlocking u (unlock_update s t .store nofun u hu).2
  · exact h.queue_update (fun _ => Phase.ne_of_special hfrom rfl) nofun
  · intro hqu
    rcases htok with htwo | hnot
    · exact .inl htwo
    · exact .inr ((h.token_update hnot _ hqu).resolve_left (by omega))
  · exact h.tid_update hpos _

lemma Inv.store (h : Inv s) (hph : s.phase t = .store) : Inv (s.store t) := by
  have hhold := h.holding t (.inl hph)
  have hpos := h.tid t (by rw [hph]; nofun)
  have hzero : ∀ u, s.locks u = 0 := fun u => by
    by_contra hne
    have hboth := h.locks u (Nat.pos_of_ne_zero hne)
    cases hhold.symm.trans hboth.1
    exact hboth.2.1 hph
  have hlcks : ∀ u, 0 < update s.locks t 1 u → u = t := fun u hu => by
    by_contra hne
    rw [update_of_ne hne, hzero u] at hu
    exact absurd hu (Nat.lt_irrefl 0)
  have hone : ∀ u, update s.locks t 1 u ≤ 1 := fun u => by
    by_cases heq : u = t
    · exact Nat.le_of_eq (heq ▸ update_self ..)
    · have hoth : update s.locks t 1 u = 0 := (update_of_ne heq ..).trans (hzero u)
      omega
  have hself := update_self (β := fun _ => Phase) t (.done .ok) s.phase
  have hblt : ∀ owner depth, (s.kind ≠ .normal → owner = t ∧ depth = 1) → Inv { s with
      owner, depth, locks := update s.locks t 1, phase := update s.phase t (.done .ok) } := by
    intro owner depth hown
    constructor
    · exact h.free
    · intro u hu
      cases hhold.symm.trans hu
      refine .inr (.inr ?_)
      dsimp only
      rw [update_self]
      exact Nat.one_pos
    · intro u hu
      cases hlcks u hu
      refine ⟨hhold, ?_, ?_⟩
      all_goals
        dsimp only
        rw [hself]
        exact nofun
    · intro u hu
      by_cases heq : u = t
      · subst heq
        dsimp only at hu
        rw [hself] at hu
        rcases hu with hu | hu <;> cases hu
      · dsimp only at hu
        rw [update_of_ne heq] at hu
        exact h.holding u hu
    · intro hkind u hu
      obtain ⟨rfl, -⟩ := hown hkind
      dsimp only
      refine ⟨?_, fun hlock => (hlcks u hlock).symm⟩
      rintro rfl
      rw [update_self]
      exact Nat.one_pos
    · intro hkind u hu
      cases hlcks u hu
      dsimp only
      rw [update_self]
      exact (hown hkind).2
    · exact fun u => Nat.le_trans (hone u) (by decide)
    · exact fun _ u => hone u
    · intro u hu hkind
      have hlock := h.unlocking u (unlock_update s t (.done .ok) nofun u hu).2 hkind
      rw [hzero u] at hlock
      exact absurd hlock (Nat.lt_irrefl 0)
    · exact h.queue_update (by rw [hph]; exact nofun) nofun
    · exact h.token_update (by rw [hph]; rfl) _
    · exact h.tid_update hpos _
  have hcnt : s.locks t + 1 = 1 := by rw [hzero t]
  unfold MutexState.store MutexState.setLocks MutexState.goto
  rw [hcnt]
  dsimp only
  split_ifs with hkind
  · exact hblt t 1 fun _ => ⟨rfl, rfl⟩
  · exact hblt s.owner s.depth fun hne => absurd hne hkind

/-- **The owner locks once more, or unlocks a lock that is not its last.** -/
lemma Inv.recount (h : Inv s) (hkind : s.kind = .recursive) (hlock : 0 < s.locks t) {n : ℕ} (hn : 0 < n) (hle : n ≤ uintMax)
    (hfrom : (s.phase t).Special = false) (hnot : (s.phase t).Token = false) (hpos : 0 < t) (result : Errno) :
    Inv { s with locks := update s.locks t n, depth := n, phase := update s.phase t (.done result) } := by
  have hsame : ∀ {q : Phase} (u : ℕ), q.Special = true →
      (update s.phase t (.done result) u = q ↔ s.phase u = q) :=
    fun u hq => update_iff (Phase.ne_of_special hfrom hq) (Phase.ne_of_special rfl hq)
  have hlcks : ∀ u, 0 < update s.locks t n u ↔ 0 < s.locks u := fun u => by
    by_cases heq : u = t
    · rw [heq, update_self]
      exact ⟨fun _ => hlock, fun _ => hn⟩
    · rw [update_of_ne heq]
  constructor
  · exact h.free
  · intro u hu
    dsimp only
    rw [hsame u rfl, hsame u rfl, hlcks u]
    exact h.held u hu
  · intro u hu
    dsimp only
    rw [Ne, hsame u rfl, Ne, hsame u rfl]
    exact h.locks u ((hlcks u).mp hu)
  · intro u
    dsimp only
    rw [hsame u rfl, hsame u rfl]
    exact h.holding u
  · intro hk u hu
    dsimp only
    rw [hlcks u]
    exact h.owner hk u hu
  · intro _ u hu
    cases h.unique hlock ((hlcks u).mp hu)
    dsimp only
    rw [update_self]
  · intro u
    dsimp only
    by_cases heq : u = t
    · rw [heq, update_self]
      exact hle
    · rw [update_of_ne heq]
      exact h.bound u
  · exact fun hk => absurd hkind hk
  · exact fun _ _ hk => nomatch hkind.symm.trans hk
  · exact h.queue_update (fun _ => Phase.ne_of_special hfrom rfl) nofun
  · exact h.token_update hnot _
  · exact h.tid_update hpos _

lemma Inv.giveUp (h : Inv s) (hlock : 0 < s.locks t) {owner depth : ℕ} (hown : s.kind ≠ .normal → owner = 0)
    (hfrom : (s.phase t).Special = false) (hnot : (s.phase t).Token = false) (hpos : 0 < t) :
    Inv { s with owner, depth, locks := update s.locks t 0, phase := update s.phase t .release } := by
  have hhold := (h.locks t hlock).1
  have hzero : ∀ u, ¬0 < update s.locks t 0 u := fun u hu => by
    by_cases heq : u = t
    · rw [heq, update_self] at hu
      exact absurd hu (Nat.lt_irrefl 0)
    · rw [update_of_ne heq] at hu
      exact heq (h.unique hu hlock)
  have hle : ∀ u n, update s.locks t 0 u ≤ n := fun u n => by
    have hnot := hzero u
    omega
  constructor
  · exact h.free
  · intro u hu
    cases hhold.symm.trans hu
    exact .inr (.inl (update_self ..))
  · exact fun u hu => absurd hu (hzero u)
  · intro u hu
    by_cases heq : u = t
    · rw [heq]
      exact hhold
    · dsimp only at hu
      rw [update_of_ne heq] at hu
      exact h.holding u hu
  · intro hkind u hu
    refine ⟨fun heq => ?_, fun hl => absurd hl (hzero u)⟩
    exact absurd ((hown hkind).symm.trans heq) (by omega)
  · exact fun _ u hu => absurd hu (hzero u)
  · exact fun u => hle u _
  · exact fun _ u => hle u 1
  · intro u hu hkind
    obtain ⟨hne, hunl⟩ := unlock_update s t .release nofun u hu
    exact absurd (h.unique (h.unlocking u hunl hkind) hlock) hne
  · exact h.queue_update (fun _ => Phase.ne_of_special hfrom rfl) nofun
  · exact h.token_update hnot _
  · exact h.tid_update hpos _

/-- **The exchange of `pthread_mutex_unlock`**: the mutex is free, and a blocked thread will be woken. -/
lemma Inv.release (h : Inv s) (hph : s.phase t = .release) {phase : Phase} (hto : phase.Special = false)
    (hunl : phase ≠ .unlock) (hwake : s.state = 2 → phase.Token = true) :
    Inv { s with state := 0, holder := none, phase := update s.phase t phase } := by
  have hhold := h.holding t (.inr hph)
  have hzero : ∀ u, ¬0 < s.locks u := fun u hu => by
    have hboth := h.locks u hu
    cases hhold.symm.trans hboth.1
    exact hboth.2.2 hph
  constructor
  · exact ⟨fun _ => rfl, fun _ => rfl⟩
  · exact nofun
  · exact fun u hu => absurd hu (hzero u)
  · intro u hu
    by_cases heq : u = t
    · subst heq
      dsimp only at hu
      rw [update_self] at hu
      rcases hu with hu | hu <;> rw [hu] at hto <;> cases hto
    · dsimp only at hu
      rw [update_of_ne heq] at hu
      exact absurd (Option.some.inj ((h.holding u hu).symm.trans hhold)) heq
  · exact h.owner
  · exact h.depth
  · exact h.bound
  · exact h.once
  · exact fun u hu => h.unlocking u (unlock_update s t phase hunl u hu).2
  · exact h.queue_update (by rw [hph]; exact nofun) fun _ => Phase.ne_of_special hto rfl
  · intro hqu
    by_cases htwo : s.state = 2
    · exact .inr ⟨t, (congrArg Phase.Token (update_self ..)).trans (hwake htwo)⟩
    · exact .inr ((h.token_update (by rw [hph]; rfl) phase hqu).resolve_left htwo)
  · exact h.tid_update (h.tid t (by rw [hph]; nofun)) _

lemma Inv.block (h : Inv s) {how : How} (hph : s.phase t = .waits how) (htwo : s.state = 2) :
    Inv { s with queue := t :: s.queue, phase := update s.phase t (.blocked how) } := by
  have hsame : ∀ {q : Phase} (u : ℕ), s.phase t ≠ q → .blocked how ≠ q →
      (update s.phase t (.blocked how) u = q ↔ s.phase u = q) := fun u => update_iff
  have hstor : ∀ u, (update s.phase t (.blocked how) u = .store ↔ s.phase u = .store) :=
    fun u => hsame u (by rw [hph]; nofun) nofun
  have hrel : ∀ u, (update s.phase t (.blocked how) u = .release ↔ s.phase u = .release) :=
    fun u => hsame u (by rw [hph]; nofun) nofun
  constructor
  · exact h.free
  · intro u hu
    dsimp only
    rw [hstor u, hrel u]
    exact h.held u hu
  · intro u hu
    dsimp only
    rw [Ne, hstor u, Ne, hrel u]
    exact h.locks u hu
  · intro u
    dsimp only
    rw [hstor u, hrel u]
    exact h.holding u
  · exact h.owner
  · exact h.depth
  · exact h.bound
  · exact h.once
  · exact fun u hu => h.unlocking u (unlock_update s t (.blocked how) nofun u hu).2
  · exact fun u => mem_cons_update (fun p => ∃ how, p = Phase.blocked how) (h.queue u) ⟨how, rfl⟩
  · exact fun _ => .inl htwo
  · exact h.tid_update (h.tid t (by rw [hph]; nofun)) _

lemma wakeUp_phase (s : MutexState) (released : List ℕ) (result : FutexResult) (u : ℕ) :
    (∃ how, s.phase u = .blocked how ∧ u ∈ released ∧ (s.wakeUp released result).phase u = .returned how result) ∨
      ((u ∉ released ∨ ∀ how, s.phase u ≠ .blocked how) ∧ (s.wakeUp released result).phase u = s.phase u) := by
  unfold MutexState.wakeUp
  dsimp only
  split
  · rename_i how hph
    split_ifs with hu
    · exact .inl ⟨how, hph, hu, rfl⟩
    · exact .inr ⟨.inl hu, hph.symm⟩
  · rename_i hph
    exact .inr ⟨.inr hph, rfl⟩

lemma Inv.wakeUp (h : Inv s) (released : List ℕ) (result : FutexResult) : Inv (s.wakeUp released result) := by
  have hback : ∀ (q : Phase) (u : ℕ), (∀ how, q ≠ .returned how result) → (∀ how, q ≠ .blocked how) →
      ((s.wakeUp released result).phase u = q ↔ s.phase u = q) := by
    intro q u hret hblk
    rcases wakeUp_phase s released result u with ⟨how, hfrom, -, hto⟩ | ⟨-, hto⟩
    · rw [hto, hfrom]
      exact ⟨fun heq => absurd heq.symm (hret how), fun heq => absurd heq.symm (hblk how)⟩
    · rw [hto]
  constructor
  · exact h.free
  · intro u hu
    rw [hback .store u nofun nofun, hback .release u nofun nofun]
    exact h.held u hu
  · intro u hu
    rw [Ne, hback .store u nofun nofun, Ne, hback .release u nofun nofun]
    exact h.locks u hu
  · intro u
    rw [hback .store u nofun nofun, hback .release u nofun nofun]
    exact h.holding u
  · exact h.owner
  · exact h.depth
  · exact h.bound
  · exact h.once
  · exact fun u hu => h.unlocking u ((hback .unlock u nofun nofun).mp hu)
  · intro u
    refine mem_remaining.trans ?_
    rw [h.queue u]
    rcases wakeUp_phase s released result u with ⟨how, hfrom, hmem, hto⟩ | ⟨hnot, hto⟩
    · rw [hto]
      exact ⟨fun hboth => absurd hmem hboth.2, fun ⟨_, hcase⟩ => nomatch hcase⟩
    · rw [hto]
      refine ⟨fun hboth => hboth.1, fun hblk => ⟨hblk, hnot.resolve_right fun hnev => ?_⟩⟩
      obtain ⟨how, hph⟩ := hblk
      exact hnev how hph
  · intro hqu
    have hqu' : s.queue ≠ [] := fun hnil => hqu (by
      unfold MutexState.wakeUp remaining
      rw [hnil]
      rfl)
    refine (h.token hqu').imp_right fun ⟨u, hu⟩ => ⟨u, ?_⟩
    rcases wakeUp_phase s released result u with ⟨how, hfrom, -, -⟩ | ⟨-, hto⟩
    · rw [hfrom] at hu
      cases hu
    · rw [hto]
      exact hu
  · intro u hu
    exact h.tid u fun hout => hu ((hback .out u nofun nofun).mpr hout)

/-! ### The code -/

lemma Inv.acquire (h : Inv s) {how : How} (hph : s.phase t = .acquire how) : Inv (s.acquire t how) := by
  have hpos := h.tid t (by rw [hph]; nofun)
  have hfrom : (s.phase t).Special = false := by rw [hph]; rfl
  have hnot : (s.phase t).Token = false := by rw [hph]; rfl
  have hdone : ∀ result, Inv (s.goto t (.done result)) := fun result =>
    h.goto hfrom rfl hpos Iff.rfl nofun (h.token_update hnot _)
  unfold MutexState.acquire
  split_ifs with hown hkind htry hmax
  · exact hdone _
  · exact hdone _
  · exact hdone _
  · -- the owner of a recursive mutex locks once more
    obtain ⟨hne, hown⟩ := hown
    have hlock := (h.owner hne t hpos).mp hown
    have hdep := h.depth hne t hlock
    have hbd := h.bound t
    have hle : s.locks t + 1 ≤ uintMax := Nat.lt_of_le_of_ne hbd fun heq => hmax (hdep.trans heq)
    have hcntd := h.recount (Decidable.not_not.mp hkind) hlock (Nat.succ_pos (s.locks t)) hle hfrom hnot hpos .ok
    unfold MutexState.setLocks MutexState.goto
    rw [hdep]
    exact hcntd
  · exact h.goto hfrom rfl hpos Iff.rfl nofun (h.token_update hnot _)

lemma Inv.unlock (h : Inv s) (hph : s.phase t = .unlock) : Inv (s.unlock t) := by
  have hpos := h.tid t (by rw [hph]; nofun)
  have hfrom : (s.phase t).Special = false := by rw [hph]; rfl
  have hnot : (s.phase t).Token = false := by rw [hph]; rfl
  unfold MutexState.unlock
  dsimp only
  split_ifs with hkind hown hdep
  · exact h.goto hfrom rfl hpos Iff.rfl nofun (h.token_update hnot _)
  · -- one of several locks
    have hlock := (h.owner hkind t hpos).mp (Decidable.not_not.mp hown)
    have hcnt := h.depth hkind t hlock
    have hbd := h.bound t
    have hmax : uintMax = 0xffffffff := rfl
    have hnext : (s.depth + 2 ^ 32 - 1) % 2 ^ 32 = s.locks t - 1 := by omega
    have hrec : s.kind = .recursive := by
      by_contra hne
      have hone := h.once hne t
      omega
    rw [hnext] at hdep ⊢
    exact h.recount hrec hlock (Nat.pos_of_ne_zero hdep) (by omega) hfrom hnot hpos .ok
  · -- the last lock
    have hlock := (h.owner hkind t hpos).mp (Decidable.not_not.mp hown)
    have hcnt := h.depth hkind t hlock
    have hbd := h.bound t
    have hmax : uintMax = 0xffffffff := rfl
    have hzero : s.locks t - 1 = 0 := by omega
    unfold MutexState.setLocks MutexState.goto
    rw [hzero]
    exact h.giveUp hlock (fun _ => rfl) hfrom hnot hpos
  · have hnorm := Decidable.not_not.mp hkind
    have hlock := h.unlocking t hph hnorm
    have hone := h.once (fun heq => nomatch hnorm.symm.trans heq) t
    have hzero : s.locks t - 1 = 0 := by omega
    unfold MutexState.setLocks MutexState.goto
    rw [hzero]
    exact h.giveUp hlock (fun hne => absurd hnorm hne) hfrom hnot hpos

lemma Inv.wake (h : Inv s) {released : List ℕ} (hph : s.phase t = .wake) (hrels : Releases s.queue 1 released) :
    Inv ((s.wakeUp released .ok).goto t (.done .ok)) := by
  have hwok := h.wakeUp released .ok
  have hsty : (s.wakeUp released .ok).phase t = .wake := by
    unfold MutexState.wakeUp
    dsimp only
    rw [hph]
  refine hwok.goto (by rw [hsty]; rfl) rfl (h.tid t (by rw [hph]; nofun)) Iff.rfl nofun fun hqu => .inr ?_
  have hqu' : s.queue ≠ [] := fun hnil => hqu (by
    unfold MutexState.wakeUp remaining
    rw [hnil]
    rfl)
  obtain ⟨u, hu⟩ := hrels.exists_mem Nat.one_pos hqu'
  obtain ⟨how, hblk⟩ := (h.queue u).mp (hrels.mem hu)
  refine ⟨u, ?_⟩
  rw [update_of_ne (fun heq => by rw [heq, hph] at hblk; cases hblk)]
  unfold MutexState.wakeUp
  dsimp only
  rw [hblk]
  dsimp only
  rw [if_pos hu]
  rfl

lemma Inv.goOn (h : Inv s) {env : Env} (he : s.goOn t env = some s') : Inv s' := by
  unfold MutexState.goOn at he
  cases hph : s.phase t with
  | out =>
    rw [hph] at he
    cases he
  | blocked how =>
    rw [hph] at he
    cases he
  | done result =>
    rw [hph] at he
    cases he
  | acquire how =>
    rw [hph] at he
    cases he
    exact h.acquire hph
  | swap how =>
    rw [hph] at he
    have hpos := h.tid t (by rw [hph]; nofun)
    have hfrom : (s.phase t).Special = false := by rw [hph]; rfl
    have hnot : (s.phase t).Token = false := by rw [hph]; rfl
    dsimp only at he
    split_ifs at he with hfree htry
    · cases he
      exact h.grab hfree Nat.one_ne_zero hfrom hpos (.inr hnot)
    · cases he
      exact h.goto hfrom rfl hpos Iff.rfl nofun (h.token_update hnot _)
    · cases he
      exact h.goto hfrom rfl hpos Iff.rfl nofun (h.token_update hnot _)
  | exchange how again =>
    rw [hph] at he
    have hpos := h.tid t (by rw [hph]; nofun)
    have hfrom : (s.phase t).Special = false := by rw [hph]; rfl
    dsimp only at he
    split_ifs at he with hfree
    · cases he
      exact h.grab hfree nofun hfrom hpos (.inl rfl)
    · cases he
      exact h.goto hfrom rfl hpos ⟨nofun, fun hzero => absurd hzero hfree⟩ nofun fun _ => .inl rfl
  | waits how =>
    rw [hph] at he
    have hgoto : ∀ result, Inv (s.goto t (.returned how result)) := fun result =>
      h.goto (by rw [hph]; rfl) rfl (h.tid t (by rw [hph]; nofun)) Iff.rfl nofun
        (h.token_update (by rw [hph]; rfl) _)
    dsimp only at he
    split at he
    · split_ifs at he
      cases he
      exact hgoto _
    · cases he
      exact hgoto _
    · split_ifs at he with htwo
      · cases he
        exact h.block hph htwo
      · cases he
        exact hgoto _
  | returned how result =>
    rw [hph] at he
    cases he
    have hpos := h.tid t (by rw [hph]; nofun)
    have hfrom : (s.phase t).Special = false := by rw [hph]; rfl
    split_ifs with hres
    · exact h.goto hfrom rfl hpos Iff.rfl nofun (h.token_update (by rw [hph, hres]; rfl) _)
    · exact h.goto hfrom rfl hpos Iff.rfl nofun fun _ =>
        .inr ⟨t, (congrArg Phase.Token (update_self ..)).trans rfl⟩
  | store =>
    rw [hph] at he
    cases he
    exact h.store hph
  | unlock =>
    rw [hph] at he
    cases he
    exact h.unlock hph
  | release =>
    rw [hph] at he
    cases he
    split_ifs with htwo
    · exact h.release hph rfl nofun fun _ => rfl
    · exact h.release hph rfl nofun fun heq => absurd heq htwo
  | wake =>
    rw [hph] at he
    simp only [Option.ite_none_right_eq_some] at he
    cases he.2
    exact h.wake hph he.1

lemma Inv.expire (h : Inv s) {result : FutexResult} (he : s.expire t result = some s') : Inv s' := by
  unfold MutexState.expire at he
  split at he
  · rw [Option.ite_none_left_eq_some] at he
    cases he.2
    exact h.wakeUp [t] result
  · cases he

/-! ### One call of a thread -/

/-- The thread is in `pthread_mutex_lock`, before the last step. -/
def Phase.Relocks : Phase → Bool
  | .acquire .lock | .swap .lock | .exchange .lock _ | .waits .lock | .blocked .lock | .store => true
  | .returned .lock result => result ≠ .timedOut
  | _ => false

/-- The thread is in `pthread_mutex_unlock`, and has not failed. -/
def Phase.Unlocks : Phase → Bool
  | .release | .wake | .done .ok => true
  | _ => false

/-- The thread is in a function that locks, before the last step. -/
def Phase.Locks : Phase → Bool
  | .acquire _ | .swap _ | .exchange .. | .waits _ | .blocked _ | .returned .. | .store => true
  | _ => false

/-- The thread has had `had` locks, and has one more exactly if the function that locks returns 0. -/
def MutexState.Locks (s : MutexState) (t had : ℕ) : Prop :=
  ((s.phase t).Locks = true ∧ s.locks t = had) ∨
    ∃ result, s.phase t = .done result ∧ s.locks t = had + if result = .ok then 1 else 0

/-- The thread has one lock less than `had`, and `pthread_mutex_lock` gives it back. -/
def MutexState.Relocks (s : MutexState) (t had : ℕ) : Prop :=
  (s.phase t).Relocks = true ∧ s.locks t + 1 = had ∨ s.phase t = .done .ok ∧ s.locks t = had

/-- The thread has had `had` locks, and `pthread_mutex_unlock` takes one of them, or fails if there is none. -/
def MutexState.Unlocks (s : MutexState) (t had : ℕ) : Prop :=
  (s.phase t = .unlock ∧ s.locks t = had) ∨ ((s.phase t).Unlocks = true ∧ s.locks t + 1 = had) ∨
    (s.phase t = .done .eperm ∧ s.locks t = had ∧ had = 0)

/-- Nothing happens to the thread, or it is not blocked any more. -/
def Passes (s s' : MutexState) (u : ℕ) : Prop :=
  s'.locks u = s.locks u ∧ (s'.phase u = s.phase u ∨ ∃ how result, s.phase u = .blocked how ∧
    s'.phase u = .returned how result ∧ (result = .timedOut → how = .timedlock))

lemma Passes.relocks {u had : ℕ} (hp : Passes s s' u) (h : s.Relocks u had) : s'.Relocks u had := by
  obtain ⟨hlcks, hph⟩ := hp
  unfold MutexState.Relocks
  rw [hlcks]
  rcases hph with heq | ⟨how, result, hfrom, hto, htmd⟩
  · rw [heq]
    exact h
  · rcases h with ⟨hrelk, hcnt⟩ | ⟨hdone, -⟩
    · refine .inl ⟨?_, hcnt⟩
      rw [hfrom] at hrelk
      rw [hto]
      cases how with
      | lock => exact decide_eq_true fun heq => nomatch htmd heq
      | trylock => cases hrelk
      | timedlock => cases hrelk
    · cases hfrom.symm.trans hdone

lemma Passes.locks {u had : ℕ} (hp : Passes s s' u) (h : s.Locks u had) : s'.Locks u had := by
  obtain ⟨hlcks, hph⟩ := hp
  unfold MutexState.Locks
  rw [hlcks]
  rcases hph with heq | ⟨how, result, hfrom, hto, -⟩
  · rw [heq]
    exact h
  · rcases h with ⟨-, hcnt⟩ | ⟨result', hdone, -⟩
    · exact .inl ⟨congrArg Phase.Locks hto, hcnt⟩
    · cases hfrom.symm.trans hdone

lemma Passes.unlocks {u had : ℕ} (hp : Passes s s' u) (h : s.Unlocks u had) : s'.Unlocks u had := by
  obtain ⟨hlcks, hph⟩ := hp
  rcases hph with heq | ⟨how, result, hfrom, -, -⟩
  · unfold MutexState.Unlocks
    rw [hlcks, heq]
    exact h
  · unfold MutexState.Unlocks at h
    rw [hfrom] at h
    rcases h with ⟨hcase, -⟩ | ⟨hcase, -⟩ | ⟨hcase, -⟩ <;> cases hcase

lemma Passes.out {u : ℕ} (hp : Passes s s' u) : s'.phase u = .out ↔ s.phase u = .out := by
  rcases hp.2 with heq | ⟨how, result, hfrom, hto, -⟩
  · rw [heq]
  · rw [hfrom, hto]
    exact ⟨nofun, nofun⟩

lemma passes_wakeUp (s : MutexState) (released : List ℕ) {result : FutexResult} (hres : result ≠ .timedOut) (u : ℕ) :
    Passes s (s.wakeUp released result) u := by
  refine ⟨rfl, ?_⟩
  rcases wakeUp_phase s released result u with ⟨how, hfrom, -, hto⟩ | ⟨-, hto⟩
  · exact .inr ⟨how, result, hfrom, hto, fun heq => absurd heq hres⟩
  · exact .inl hto

lemma goOn_passes {env : Env} (he : s.goOn t env = some s') {u : ℕ} (hu : u ≠ t) : Passes s s' u := by
  have hph : ∀ p, update s.phase t p u = s.phase u := fun p => update_of_ne hu ..
  have hlcks : ∀ n, update s.locks t n u = s.locks u := fun n => update_of_ne hu ..
  unfold MutexState.goOn at he
  split at he
  · cases he
  · cases he
  · cases he
  · cases he
    unfold MutexState.acquire
    split_ifs
    · exact ⟨rfl, .inl (hph _)⟩
    · exact ⟨rfl, .inl (hph _)⟩
    · exact ⟨rfl, .inl (hph _)⟩
    · exact ⟨hlcks _, .inl (hph _)⟩
    · exact ⟨rfl, .inl (hph _)⟩
  · split_ifs at he <;> cases he <;> exact ⟨rfl, .inl (hph _)⟩
  · split_ifs at he <;> cases he <;> exact ⟨rfl, .inl (hph _)⟩
  · split at he
    · split_ifs at he
      cases he
      exact ⟨rfl, .inl (hph _)⟩
    · cases he
      exact ⟨rfl, .inl (hph _)⟩
    · split_ifs at he <;> cases he <;> exact ⟨rfl, .inl (hph _)⟩
  · cases he
    exact ⟨rfl, .inl (hph _)⟩
  · cases he
    unfold MutexState.store
    dsimp only
    split_ifs <;> exact ⟨hlcks _, .inl (hph _)⟩
  · cases he
    unfold MutexState.unlock
    dsimp only
    split_ifs
    · exact ⟨rfl, .inl (hph _)⟩
    · exact ⟨hlcks _, .inl (hph _)⟩
    · exact ⟨hlcks _, .inl (hph _)⟩
    · exact ⟨hlcks _, .inl (hph _)⟩
  · cases he
    exact ⟨rfl, .inl (hph _)⟩
  · rw [Option.ite_none_right_eq_some] at he
    cases he.2
    have hwok := passes_wakeUp s (env.released) (show FutexResult.ok ≠ .timedOut from nofun) u
    refine ⟨hwok.1, ?_⟩
    unfold MutexState.goto
    dsimp only
    rw [update_of_ne hu]
    exact hwok.2

lemma expire_kind {result : FutexResult} (he : s.expire t result = some s') : s'.kind = s.kind := by
  unfold MutexState.expire at he
  split at he
  · rw [Option.ite_none_left_eq_some] at he
    cases he.2
    rfl
  · cases he

lemma expire_passes {result : FutexResult} (he : s.expire t result = some s') (u : ℕ) : Passes s s' u := by
  unfold MutexState.expire at he
  split at he
  · rename_i how hph
    rw [Option.ite_none_left_eq_some] at he
    obtain ⟨htmd, he⟩ := he
    cases he
    refine ⟨rfl, ?_⟩
    rcases wakeUp_phase s [t] result u with ⟨how', hfrom, hmem, hto⟩ | ⟨-, hto⟩
    · refine .inr ⟨how', result, hfrom, hto, fun heq => ?_⟩
      rw [List.mem_singleton.mp hmem, hph] at hfrom
      cases hfrom
      by_contra hne
      exact htmd ⟨heq, hne⟩
    · exact .inl hto
  · cases he

lemma goOn_inside {env : Env} (he : s.goOn t env = some s') : s'.phase t ≠ .out ∧ s'.kind = s.kind := by
  have hself : ∀ p, p ≠ .out → update s.phase t p t ≠ .out := fun p hp heq =>
    hp ((update_self ..).symm.trans heq)
  unfold MutexState.goOn at he
  split at he
  · cases he
  · cases he
  · cases he
  · cases he
    unfold MutexState.acquire
    split_ifs <;> exact ⟨hself _ nofun, rfl⟩
  · split_ifs at he <;> cases he <;> exact ⟨hself _ nofun, rfl⟩
  · split_ifs at he <;> cases he <;> exact ⟨hself _ nofun, rfl⟩
  · split at he
    · split_ifs at he
      cases he
      exact ⟨hself _ nofun, rfl⟩
    · cases he
      exact ⟨hself _ nofun, rfl⟩
    · split_ifs at he <;> cases he <;> exact ⟨hself _ nofun, rfl⟩
  · cases he
    split_ifs <;> exact ⟨hself _ nofun, rfl⟩
  · cases he
    unfold MutexState.store
    dsimp only
    split_ifs <;> exact ⟨hself (.done .ok) nofun, rfl⟩
  · cases he
    unfold MutexState.unlock MutexState.setLocks MutexState.goto
    dsimp only
    split_ifs
    · exact ⟨hself (.done .eperm) nofun, rfl⟩
    · exact ⟨hself (.done .ok) nofun, rfl⟩
    · exact ⟨hself .release nofun, rfl⟩
    · exact ⟨hself .release nofun, rfl⟩
  · cases he
    split_ifs <;> exact ⟨hself _ nofun, rfl⟩
  · rw [Option.ite_none_right_eq_some] at he
    cases he.2
    refine ⟨fun heq => ?_, rfl⟩
    unfold MutexState.goto at heq
    dsimp only at heq
    rw [update_self] at heq
    cases heq

/-- **A function that locks returns 0** exactly if the thread has got a lock. -/
lemma locks_goOn {had : ℕ} (hl : s.Locks t had) {env : Env} (he : s.goOn t env = some s') : s'.Locks t had := by
  have hself : ∀ p, update s.phase t p t = p := fun p => update_self ..
  unfold MutexState.goOn at he
  rcases hl with ⟨hlck, hcnt⟩ | ⟨result, hdone, -⟩
  · have hat : ∀ (p : Phase) (state : ℕ) (holder : Option ℕ) (queue : List ℕ), p.Locks = true →
        MutexState.Locks { s with state, holder, queue, phase := update s.phase t p } t had :=
      fun p _ _ _ hp => .inl ⟨(congrArg Phase.Locks (hself p)).trans hp, hcnt⟩
    have hfails : ∀ result ≠ Errno.ok, (s.goto t (.done result)).Locks t had := fun result hne =>
      .inr ⟨result, hself _, by rw [if_neg hne]; exact hcnt⟩
    have hgets : update s.locks t (s.locks t + 1) t = had + 1 := (update_self ..).trans (congrArg (· + 1) hcnt)
    cases hph : s.phase t with
    | acquire how =>
      rw [hph] at he
      cases he
      unfold MutexState.acquire
      split_ifs
      · exact hfails _ nofun
      · exact hfails _ nofun
      · exact hfails _ nofun
      · exact .inr ⟨.ok, hself _, hgets⟩
      · exact hat _ _ _ _ rfl
    | swap how =>
      rw [hph] at he
      dsimp only at he
      split_ifs at he
      · cases he
        exact hat _ _ _ _ rfl
      · cases he
        exact hfails _ nofun
      · cases he
        exact hat _ _ _ _ rfl
    | exchange how again =>
      rw [hph] at he
      dsimp only at he
      split_ifs at he <;> cases he <;> exact hat _ _ _ _ rfl
    | waits how =>
      rw [hph] at he
      dsimp only at he
      split at he
      · split_ifs at he
        cases he
        exact hat _ _ _ _ rfl
      · cases he
        exact hat _ _ _ _ rfl
      · split_ifs at he <;> cases he <;> exact hat _ _ _ _ rfl
    | returned how result =>
      rw [hph] at he
      cases he
      split_ifs
      · exact hfails _ nofun
      · exact hat _ _ _ _ rfl
    | store =>
      rw [hph] at he
      cases he
      unfold MutexState.store
      dsimp only
      split_ifs <;> exact .inr ⟨.ok, hself _, hgets⟩
    | blocked how =>
      rw [hph] at he
      cases he
    | _ =>
      rw [hph] at hlck
      cases hlck
  · rw [hdone] at he
    cases he

/-- **`pthread_mutex_lock` gives the lock back**: it cannot fail here. -/
lemma Inv.relocks (h : Inv s) {had : ℕ} (hle : had ≤ uintMax) (honce : s.kind ≠ .recursive → had ≤ 1)
    (hre : s.Relocks t had) {env : Env}
    (he : s.goOn t env = some s') : s'.Relocks t had := by
  have hself : ∀ p, update s.phase t p t = p := fun p => update_self ..
  have hat : ∀ (p : Phase) (state : ℕ) (holder : Option ℕ) (queue : List ℕ), p.Relocks = true → s.locks t + 1 = had →
      MutexState.Relocks { s with state, holder, queue, phase := update s.phase t p } t had :=
    fun p _ _ _ hp hcnt => .inl ⟨(congrArg Phase.Relocks (hself p)).trans hp, hcnt⟩
  unfold MutexState.goOn at he
  rcases hre with ⟨hrelk, hcnt⟩ | ⟨hdone, -⟩
  · cases hph : s.phase t with
    | acquire how =>
      rw [hph] at he hrelk
      obtain rfl : how = .lock := by cases how <;> first | rfl | cases hrelk
      cases he
      have hpos := h.tid t (by rw [hph]; nofun)
      unfold MutexState.acquire
      split_ifs with hown hkind htry hmax
      · cases htry
      · -- the owner of a mutex that is not recursive has one lock
        have hlock := (h.owner hown.1 t hpos).mp hown.2
        have hone := honce hkind
        omega
      · have hlock := (h.owner hown.1 t hpos).mp hown.2
        have hdep := h.depth hown.1 t hlock
        omega
      · refine .inr ⟨hself _, ?_⟩
        exact (update_self ..).trans hcnt
      · exact hat _ _ _ _ rfl hcnt
    | swap how =>
      rw [hph] at he hrelk
      obtain rfl : how = .lock := by cases how <;> first | rfl | cases hrelk
      dsimp only at he
      split_ifs at he with hfree htry
      · cases he
        exact hat _ _ _ _ rfl hcnt
      · cases htry
      · cases he
        exact hat _ _ _ _ rfl hcnt
    | exchange how again =>
      rw [hph] at he hrelk
      obtain rfl : how = .lock := by cases how <;> first | rfl | cases hrelk
      dsimp only at he
      split_ifs at he with hfree
      · cases he
        exact hat _ _ _ _ rfl hcnt
      · cases he
        exact hat _ _ _ _ rfl hcnt
    | waits how =>
      rw [hph] at he hrelk
      obtain rfl : how = .lock := by cases how <;> first | rfl | cases hrelk
      dsimp only at he
      split at he
      · rw [if_neg nofun] at he
        cases he
      · rename_i result hne _
        cases he
        exact hat _ _ _ _ (decide_eq_true hne) hcnt
      · split_ifs at he
        · cases he
          exact hat _ _ _ _ rfl hcnt
        · cases he
          exact hat _ _ _ _ rfl hcnt
    | returned how result =>
      rw [hph] at he hrelk
      obtain rfl : how = .lock := by cases how <;> first | rfl | cases hrelk
      cases he
      rw [if_neg (of_decide_eq_true hrelk)]
      exact hat _ _ _ _ rfl hcnt
    | store =>
      rw [hph] at he
      cases he
      unfold MutexState.store
      dsimp only
      split_ifs
      all_goals exact .inr ⟨hself _, (update_self ..).trans hcnt⟩
    | blocked how =>
      rw [hph] at he
      cases he
    | _ =>
      rw [hph] at hrelk
      cases hrelk
  · rw [hdone] at he
    cases he

/-- **`pthread_mutex_unlock` takes one lock**, and fails only if the thread has none. -/
lemma Inv.unlocks (h : Inv s) {had : ℕ} (hun : s.Unlocks t had) {env : Env} (he : s.goOn t env = some s') :
    s'.Unlocks t had := by
  have hself : ∀ p, update s.phase t p t = p := fun p => update_self ..
  unfold MutexState.goOn at he
  rcases hun with ⟨hph, hcnt⟩ | ⟨hunloc, hcnt⟩ | ⟨hdone, -⟩
  · rw [hph] at he
    cases he
    have hpos := h.tid t (by rw [hph]; nofun)
    have htk : 0 < s.locks t → update s.locks t (s.locks t - 1) t + 1 = had := fun hlock => by
      rw [update_self]
      omega
    unfold MutexState.unlock MutexState.setLocks MutexState.goto
    dsimp only
    split_ifs with hkind hown
    · have hnone : had = 0 := by
        have hnot := mt (h.owner hkind t hpos).mpr hown
        omega
      exact .inr (.inr ⟨hself (.done .eperm), hcnt, hnone⟩)
    · have hlock := (h.owner hkind t hpos).mp (Decidable.not_not.mp hown)
      exact .inr (.inl ⟨congrArg Phase.Unlocks (hself (.done .ok)), htk hlock⟩)
    · have hlock := (h.owner hkind t hpos).mp (Decidable.not_not.mp hown)
      exact .inr (.inl ⟨congrArg Phase.Unlocks (hself .release), htk hlock⟩)
    · have hlock := h.unlocking t hph (Decidable.not_not.mp hkind)
      exact .inr (.inl ⟨congrArg Phase.Unlocks (hself .release), htk hlock⟩)
  · cases hph : s.phase t with
    | release =>
      rw [hph] at he
      cases he
      split_ifs
      · exact .inr (.inl ⟨congrArg Phase.Unlocks (hself .wake), hcnt⟩)
      · exact .inr (.inl ⟨congrArg Phase.Unlocks (hself (.done .ok)), hcnt⟩)
    | wake =>
      rw [hph] at he
      simp only [Option.ite_none_right_eq_some] at he
      cases he.2
      refine .inr (.inl ⟨?_, hcnt⟩)
      unfold MutexState.goto
      dsimp only
      rw [update_self]
      rfl
    | done result =>
      rw [hph] at he
      cases he
    | _ =>
      rw [hph] at hunloc
      cases hunloc
  · rw [hdone] at he
    cases he

lemma Inv.enter (h : Inv s) (hout : s.phase t = .out) (hpos : 0 < t) {phase : Phase} (hto : phase.Special = false)
    (hunl : phase = .unlock → s.kind = .normal → 0 < s.locks t) : Inv (s.goto t phase) :=
  h.goto (by rw [hout]; rfl) hto hpos Iff.rfl hunl (h.token_update (by rw [hout]; rfl) _)

lemma Inv.leave (h : Inv s) {result : Errno} (hdone : s.phase t = .done result) : Inv (s.goto t .out) :=
  h.goto (by rw [hdone]; rfl) rfl (h.tid t (by rw [hdone]; nofun)) Iff.rfl nofun (h.token_update (by rw [hdone]; rfl) _)

lemma passes_goto {u : ℕ} (hu : u ≠ t) (phase : Phase) : Passes s (s.goto t phase) u :=
  ⟨rfl, .inl (update_of_ne hu ..)⟩

end PlantOS.Libp.Mutex
