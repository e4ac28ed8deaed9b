import Mathlib.Algebra.Group.Nat.Defs
import PlantOS.Lib.Run
import PlantOS.Lib.Waiters

/-!
# Semaphores

`semaphore.c`: one `sem_t`, any number of threads. A step is one atomic access to the value, or one call of the kernel.
-/

namespace PlantOS.Libp.Semaphore

open Lib
open Function (update_of_ne update_self)

abbrev semValueMax : ℕ := 0x7fffffff

inductive Take
  | wait | trywait | timedwait
  deriving DecidableEq, Repr

/-- The results of `os_futex_wait`; `failed` is any other. -/
inductive FutexResult
  | ok | changed | timedOut | interrupted | failed
  deriving DecidableEq, Repr

/-- What a call returns: 0, or -1 with `errno` -/
inductive Outcome
  | success | eintr | einval | eagain | etimedout | eoverflow
  deriving DecidableEq, Repr

inductive Pc
  | idle
  /-- `sem_take` loads the value; `again` behind `os_futex_wait` -/
  | load (call : Take) (again : Bool)
  /-- the compare and exchange of `sem_take` -/
  | exchange (call : Take) (again : Bool) (value : ℕ)
  /-- `os_futex_wake` in `sem_take` -/
  | pass
  /-- `runtime_deadline` in `sem_timedwait` -/
  | deadline
  /-- `os_futex_wait` -/
  | waits (call : Take)
  | blocked (call : Take)
  /-- `os_futex_wait` has returned -/
  | returned (call : Take) (result : FutexResult)
  /-- `sem_post` loads the value -/
  | postLoad
  /-- the compare and exchange of `sem_post` -/
  | postExchange (value : ℕ)
  /-- `os_futex_wake` in `sem_post` -/
  | postWake
  deriving DecidableEq, Repr

structure SemState where
  value : ℕ
  /-- the threads that are blocked on the value -/
  queue : List ℕ
  pc : ℕ → Pc
  /-- what the last call of a thread has returned -/
  outcome : ℕ → Option Outcome
  /-- the value of `sem_init`, and the calls of `sem_post` and of the takes that have returned 0; no code reads them -/
  initial : ℕ
  posts : ℕ
  takes : ℕ

structure Env where
  /-- the exchange fails although the value is the same -/
  spurious : Bool
  /-- `runtime_deadline` accepts the time -/
  deadlineOk : Bool
  /-- `os_futex_wait` returns without a look at the value -/
  refused : Option FutexResult
  /-- the threads that `os_futex_wake` releases -/
  released : List ℕ
  deriving DecidableEq, Repr

namespace SemState

variable (s : SemState)

def goto (t : ℕ) (pc : Pc) : SemState := { s with pc := Function.update s.pc t pc }

def returns (t : ℕ) (outcome : Outcome) : SemState :=
  { s with pc := Function.update s.pc t .idle, outcome := Function.update s.outcome t (some outcome) }

/-- What follows `sem_take` if it returns 0 -/
def notTaken (t : ℕ) (call : Take) (again : Bool) : SemState :=
  match call, again with
  | .trywait, _ => s.returns t .eagain
  | .timedwait, false => s.goto t .deadline
  | _, _ => s.goto t (.waits call)

/-- What follows a load of the value in `sem_take` -/
def takeLoaded (t : ℕ) (call : Take) (again : Bool) : SemState :=
  if s.value = 0 then s.notTaken t call again else s.goto t (.exchange call again s.value)

/-- What follows a load of the value in `sem_post` -/
def postLoaded (t : ℕ) : SemState :=
  if s.value = semValueMax then s.returns t .eoverflow else s.goto t (.postExchange s.value)

/-- The blocked threads that are released, with the result of their wait -/
def release (released : List ℕ) (result : FutexResult) : SemState :=
  { s with
    queue := remaining s.queue released
    pc := fun t =>
      match s.pc t with
      | .blocked call => if t ∈ released then .returned call result else .blocked call
      | pc => pc }

/-- `os_futex_wake` for one thread -/
def wakeOne (released : List ℕ) : Option SemState :=
  if Releases s.queue 1 released then some (s.release released .ok) else none

/-- What follows `os_futex_wait` -/
def afterWait (t : ℕ) (call : Take) : FutexResult → SemState
  | .ok | .changed => s.goto t (.load call true)
  | .interrupted => s.returns t .eintr
  | .timedOut => s.returns t (if call = .timedwait then .etimedout else .einval)
  | .failed => s.returns t .einval

def goOn (t : ℕ) (env : Env) : Option SemState :=
  match s.pc t with
  | .idle | .blocked _ => none
  | .load call again => some (s.takeLoaded t call again)
  | .exchange call again value =>
    if s.value = value ∧ !env.spurious then
      let s := { s with value := (value + 2 ^ 32 - 1) % 2 ^ 32 }
      some (if value > 1 then s.goto t .pass else s.returns t .success)
    else some (s.takeLoaded t call again)
  | .pass => (s.wakeOne env.released).map (·.returns t .success)
  | .deadline => some (if env.deadlineOk then s.goto t (.waits .timedwait) else s.returns t .einval)
  | .waits call =>
    match env.refused with
    | some result => if result = .ok then none else some (s.goto t (.returned call result))
    | none =>
      if s.value = 0 then some { s.goto t (.blocked call) with queue := t :: s.queue }
      else some (s.goto t (.returned call .changed))
  | .returned call result => some (s.afterWait t call result)
  | .postLoad => some (s.postLoaded t)
  | .postExchange value =>
    if s.value = value ∧ !env.spurious then
      let s := { s with value := (value + 1) % 2 ^ 32 }
      some (if value = 0 then s.goto t .postWake else s.returns t .success)
    else some (s.postLoaded t)
  | .postWake => (s.wakeOne env.released).map (·.returns t .success)

end SemState

def Pc.posting : Pc → Bool
  | .postLoad | .postExchange _ | .postWake => true
  | _ => false

/-- The callers count what has returned 0. -/
def SemState.count (s s' : SemState) (t : ℕ) : SemState :=
  if s'.pc t = .idle ∧ s'.outcome t = some .success then
    if (s.pc t).posting then { s' with posts := s'.posts + 1 } else { s' with takes := s'.takes + 1 }
  else s'

inductive Event
  /-- a thread calls `sem_wait`, `sem_trywait` or `sem_timedwait` -/
  | take (t : ℕ) (call : Take)
  /-- a thread calls `sem_post` -/
  | post (t : ℕ)
  | goOn (t : ℕ) (env : Env)
  /-- the deadline of a wait is over, or the wait is interrupted, or returns for no reason -/
  | expire (t : ℕ) (result : FutexResult)

def SemState.step (s : SemState) : Event → Option SemState
  | .take t call => if s.pc t = .idle then some (s.goto t (.load call false)) else none
  | .post t => if s.pc t = .idle then some (s.goto t .postLoad) else none
  | .goOn t env => (s.goOn t env).map (s.count · t)
  | .expire t result => if t ∈ s.queue then some (s.release [t] result) else none

/-- `sem_init` has accepted the value, and no thread has called another function yet. -/
def sys : System SemState Event where
  init s := (s.value = s.initial ∧ s.initial ≤ semValueMax) ∧ s.queue = [] ∧ (∀ t, s.pc t = .idle) ∧
    s.posts = 0 ∧ s.takes = 0
  step := SemState.step

/-! ### Permits and wakes -/

/-- The thread is between an atomic step and the wake, or the second test, that follows it. -/
def Pc.Unsettled : Pc → Bool
  | .pass | .postWake | .load _ true | .exchange _ true _ | .returned _ .ok | .returned _ .changed => true
  | _ => false

def Pc.Seen : Pc → Prop
  | .exchange _ _ value => 0 < value
  | .postExchange value => value ≠ semValueMax
  | _ => True

def SemState.Quiescent (s : SemState) : Prop := ∀ t, (s.pc t).Unsettled = false

/-- The permits are counted, with the calls that have made their exchange and are at their wake. -/
def SemState.Counted (s : SemState) : Prop :=
  ∃ posting taking, Numbers (s.pc · = .postWake) posting ∧ Numbers (s.pc · = .pass) taking ∧
    s.initial + s.posts + posting = s.value + s.takes + taking

structure Inv (s : SemState) : Prop where
  bound : s.value ≤ semValueMax
  count : s.Counted
  queue : ∀ t, t ∈ s.queue ↔ ∃ call, s.pc t = .blocked call
  seen : ∀ t, (s.pc t).Seen
  /-- a permit beside a blocked thread is on its way to it -/
  token : 0 < s.value → s.queue ≠ [] → ∃ t, (s.pc t).Unsettled = true

def Pc.posted (pc : Pc) : ℕ := if pc = .postWake then 1 else 0

def Pc.taken (pc : Pc) : ℕ := if pc = .pass then 1 else 0

variable {s s' : SemState} {e : Event} {t : ℕ}

lemma SemState.Counted.update (h : s.Counted) {value posts takes : ℕ} {pc : Pc} {outcome : ℕ → Option Outcome}
    (hcnt : posts + pc.posted + s.value + s.takes + (s.pc t).taken = value + takes + pc.taken + s.posts + (s.pc t).posted) :
    SemState.Counted { s with value, posts, takes, outcome, pc := Function.update s.pc t pc } := by
  obtain ⟨posting, taking, hpost, htake, heq⟩ := h
  obtain ⟨posting', hpost', hp⟩ := hpost.update (f := s.pc) (P := (· = Pc.postWake)) t pc
  obtain ⟨taking', htake', ht⟩ := htake.update (f := s.pc) (P := (· = Pc.pass)) t pc
  refine ⟨posting', taking', hpost', htake', ?_⟩
  simp only [Pc.posted, Pc.taken] at hcnt
  dsimp only
  omega

lemma Inv.update (h : Inv s) {value posts takes : ℕ} {pc : Pc} {outcome : ℕ → Option Outcome}
    (hfrom : ∀ call, s.pc t ≠ .blocked call) (hto : ∀ call, pc ≠ .blocked call) (hbd : value ≤ semValueMax)
    (hcnt : posts + pc.posted + s.value + s.takes + (s.pc t).taken = value + takes + pc.taken + s.posts + (s.pc t).posted)
    (hseen : pc.Seen) (htok : 0 < value → s.queue ≠ [] → pc.Unsettled = true ∨ ∃ u ≠ t, (s.pc u).Unsettled = true) :
    Inv { s with value, posts, takes, outcome, pc := Function.update s.pc t pc } := by
  refine ⟨hbd, h.count.update hcnt, fun u => ?_, fun u => ?_, fun hpos hqu => ?_⟩
  · dsimp only
    by_cases hu : u = t
    · subst hu
      rw [update_self, h.queue u]
      exact ⟨fun ⟨call, hc⟩ => absurd hc (hfrom call), fun ⟨call, hc⟩ => absurd hc (hto call)⟩
    · rw [update_of_ne hu]
      exact h.queue u
  · dsimp only
    by_cases hu : u = t
    · rw [hu, update_self]
      exact hseen
    · rw [update_of_ne hu]
      exact h.seen u
  · rcases htok hpos hqu with hself | ⟨u, hu, hoth⟩
    · exact ⟨t, (congrArg Pc.Unsettled (update_self ..)).trans hself⟩
    · exact ⟨u, (congrArg Pc.Unsettled (update_of_ne hu ..)).trans hoth⟩

lemma Inv.other (h : Inv s) (hsett : (s.pc t).Unsettled = false) (hpos : 0 < s.value) (hqu : s.queue ≠ []) :
    ∃ u ≠ t, (s.pc u).Unsettled = true := by
  obtain ⟨u, hu⟩ := h.token hpos hqu
  refine ⟨u, fun heq => ?_, hu⟩
  rw [heq, hsett] at hu
  cases hu

lemma Inv.goto (h : Inv s) {pc : Pc} {outcome : ℕ → Option Outcome} (hfrom : ∀ call, s.pc t ≠ .blocked call)
    (hto : ∀ call, pc ≠ .blocked call) (hseen : pc.Seen) (hsame : pc.posted = (s.pc t).posted ∧ pc.taken = (s.pc t).taken)
    (htok : (s.pc t).Unsettled = true → pc.Unsettled = true ∨ s.value = 0) :
    Inv { s with outcome, pc := Function.update s.pc t pc } := by
  refine h.update hfrom hto h.bound (by omega) hseen fun hpos hqu => ?_
  cases hsett : (s.pc t).Unsettled with
  | false => exact .inr (h.other hsett hpos hqu)
  | true => exact .inl ((htok hsett).resolve_right (by omega))

lemma Inv.count_goto {s s' : SemState} {pc : Pc} (h : Inv (s'.goto t pc)) (hpc : pc ≠ .idle) :
    Inv (s.count (s'.goto t pc) t) := by
  unfold SemState.count
  rwa [if_neg fun hboth => hpc ?_]
  have hself : (s'.goto t pc).pc t = pc := update_self ..
  exact hself.symm.trans hboth.1

lemma Inv.count_fails {s s' : SemState} {outcome : Outcome} (h : Inv (s'.returns t outcome)) (hne : outcome ≠ .success) :
    Inv (s.count (s'.returns t outcome) t) := by
  unfold SemState.count
  rwa [if_neg fun hboth => hne ?_]
  have hself : (s'.returns t outcome).outcome t = some outcome := update_self ..
  exact Option.some.inj (hself.symm.trans hboth.2)

lemma count_success (s s' : SemState) : s.count (s'.returns t .success) t =
    { s'.returns t .success with
      posts := s'.posts + if (s.pc t).posting then 1 else 0
      takes := s'.takes + if (s.pc t).posting then 0 else 1 } := by
  have hpc : (s'.returns t .success).pc t = .idle := update_self ..
  have hout : (s'.returns t .success).outcome t = some .success := update_self ..
  unfold SemState.count
  rw [if_pos ⟨hpc, hout⟩]
  split_ifs <;> rfl

/-! ### The code -/

lemma taken_value {value : ℕ} (hpos : 0 < value) (hbd : value ≤ semValueMax) :
    (value + 2 ^ 32 - 1) % 2 ^ 32 = value - 1 := by
  have hmax : semValueMax = 0x7fffffff := rfl
  omega

lemma posted_value {value : ℕ} (hbd : value ≤ semValueMax) (hne : value ≠ semValueMax) :
    (value + 1) % 2 ^ 32 = value + 1 ∧ value + 1 ≤ semValueMax := by
  have hmax : semValueMax = 0x7fffffff := rfl
  omega

/-- The thread is in a take, or in a post, and at no wake. -/
def Pc.Plain (pc : Pc) : Prop := pc.posted = 0 ∧ pc.taken = 0

lemma Inv.goto_plain (h : Inv s) {pc : Pc} {outcome : ℕ → Option Outcome} (hfrom : ∀ call, s.pc t ≠ .blocked call)
    (hto : ∀ call, pc ≠ .blocked call) (hseen : pc.Seen) (hp : (s.pc t).Plain) (hq : pc.Plain)
    (htok : (s.pc t).Unsettled = true → pc.Unsettled = true ∨ s.value = 0) :
    Inv { s with outcome, pc := Function.update s.pc t pc } :=
  h.goto hfrom hto hseen ⟨hq.1.trans hp.1.symm, hq.2.trans hp.2.symm⟩ htok

lemma Inv.notTaken (h : Inv s) (hfrom : ∀ call, s.pc t ≠ .blocked call) (hp : (s.pc t).Plain) (hzero : s.value = 0)
    (call : Take) (again : Bool) : Inv (s.count (s.notTaken t call again) t) := by
  unfold SemState.notTaken
  split
  · refine Inv.count_fails ?_ nofun
    exact h.goto_plain hfrom nofun trivial hp ⟨rfl, rfl⟩ fun _ => .inr hzero
  · refine Inv.count_goto ?_ nofun
    exact h.goto_plain hfrom nofun trivial hp ⟨rfl, rfl⟩ fun _ => .inr hzero
  · refine Inv.count_goto ?_ nofun
    exact h.goto_plain hfrom nofun trivial hp ⟨rfl, rfl⟩ fun _ => .inr hzero

lemma Inv.takeLoaded (h : Inv s) (hfrom : ∀ call, s.pc t ≠ .blocked call) (hp : (s.pc t).Plain) (call : Take) {again : Bool}
    (hagain : (s.pc t).Unsettled = true → again = true) : Inv (s.count (s.takeLoaded t call again) t) := by
  unfold SemState.takeLoaded
  split_ifs with hzero
  · exact h.notTaken hfrom hp hzero call again
  · refine Inv.count_goto ?_ nofun
    refine h.goto_plain hfrom nofun (Nat.pos_of_ne_zero hzero) hp ⟨rfl, rfl⟩ fun huns => .inl ?_
    rw [hagain huns]
    rfl

lemma Inv.postLoaded (h : Inv s) (hfrom : ∀ call, s.pc t ≠ .blocked call) (hp : (s.pc t).Plain)
    (hsett : (s.pc t).Unsettled = false) : Inv (s.count (s.postLoaded t) t) := by
  have hnot : ∀ {pc : Pc}, (s.pc t).Unsettled = true → pc.Unsettled = true ∨ s.value = 0 := fun huns => by
    cases hsett.symm.trans huns
  unfold SemState.postLoaded
  split_ifs with hmax
  · refine Inv.count_fails ?_ nofun
    exact h.goto_plain hfrom nofun trivial hp ⟨rfl, rfl⟩ hnot
  · refine Inv.count_goto ?_ nofun
    exact h.goto_plain hfrom nofun hmax hp ⟨rfl, rfl⟩ hnot

lemma release_pc_iff {released : List ℕ} {result : FutexResult} {pc : Pc} (hb : ∀ call, pc ≠ .blocked call)
    (hr : ∀ call result, pc ≠ .returned call result) (u : ℕ) : s.pc u = pc ↔ (s.release released result).pc u = pc := by
  unfold SemState.release
  dsimp only
  split
  · rename_i call hpc
    rw [hpc]
    split_ifs
    · exact iff_of_false (hb call).symm (hr call result).symm
    · exact Iff.rfl
  · exact Iff.rfl

lemma SemState.Counted.release (h : s.Counted) (released : List ℕ) (result : FutexResult) :
    (s.release released result).Counted := by
  obtain ⟨posting, taking, hpost, htake, heq⟩ := h
  exact ⟨posting, taking, hpost.congr (release_pc_iff nofun nofun), htake.congr (release_pc_iff nofun nofun), heq⟩

lemma Inv.release (h : Inv s) (released : List ℕ) (result : FutexResult) : Inv (s.release released result) := by
  refine ⟨h.bound, h.count.release released result, fun u => ?_, fun u => ?_, fun hpos hqu => ?_⟩
  · unfold SemState.release
    dsimp only
    rw [mem_remaining, h.queue u]
    split
    · rename_i call hpc
      by_cases hu : u ∈ released
      · rw [if_pos hu]
        exact ⟨fun hboth => absurd hu hboth.2, fun ⟨_, hc⟩ => nomatch hc⟩
      · rw [if_neg hu]
        exact ⟨fun _ => ⟨call, rfl⟩, fun _ => ⟨⟨call, hpc⟩, hu⟩⟩
    · rename_i hpc
      exact ⟨fun ⟨⟨call, hc⟩, _⟩ => absurd hc (hpc call), fun ⟨call, hc⟩ => absurd hc (hpc call)⟩
  · unfold SemState.release
    dsimp only
    split
    · split_ifs <;> trivial
    · exact h.seen u
  · have hqu' : s.queue ≠ [] := fun hnil => hqu (by
      unfold SemState.release remaining
      rw [hnil]
      rfl)
    obtain ⟨u, hu⟩ := h.token hpos hqu'
    refine ⟨u, ?_⟩
    unfold SemState.release
    dsimp only
    split
    · rename_i call hpc
      rw [hpc] at hu
      cases hu
    · exact hu

/-- **A thread that has woken another one returns**: the other one has the permit on its way. -/
lemma Inv.wakeOne (h : Inv s) {released : List ℕ} (hpc : s.pc t = .pass ∨ s.pc t = .postWake)
    (hwake : (s.wakeOne released).map (·.returns t .success) = some s') : Inv (s.count s' t) := by
  obtain ⟨s₁, hs₁, rfl⟩ := Option.map_eq_some_iff.mp hwake
  unfold SemState.wakeOne at hs₁
  rw [Option.ite_none_right_eq_some] at hs₁
  obtain ⟨hrel, hs₁⟩ := hs₁
  cases hs₁
  have hsty : (s.release released .ok).pc t = s.pc t := by
    unfold SemState.release
    dsimp only
    rcases hpc with hpc | hpc <;> rw [hpc]
  rw [count_success]
  refine (h.release released .ok).update ?_ nofun h.bound ?_ trivial fun _ hqu => .inr ?_
  · rw [hsty]
    rcases hpc with hpc | hpc <;> rw [hpc] <;> exact nofun
  · rw [hsty]
    change _ + s.value + s.takes + _ = s.value + _ + _ + s.posts + _
    rcases hpc with hpc | hpc <;> rw [hpc] <;> simp [Pc.posted, Pc.taken, Pc.posting, SemState.release] <;> omega
  · have hqu' : s.queue ≠ [] := fun hnil => hqu (by
      unfold SemState.release remaining
      rw [hnil]
      rfl)
    obtain ⟨u, hu⟩ := hrel.exists_mem Nat.one_pos hqu'
    obtain ⟨call, hblk⟩ := (h.queue u).mp (hrel.mem hu)
    refine ⟨u, fun heq => ?_, ?_⟩
    · subst heq
      rcases hpc with hpc | hpc <;> cases hpc.symm.trans hblk
    · unfold SemState.release
      dsimp only
      rw [hblk]
      dsimp only
      rw [if_pos hu]
      rfl

lemma Inv.goOn (h : Inv s) {env : Env} (he : s.goOn t env = some s') : Inv (s.count s' t) := by
  have hseen := h.seen t
  unfold SemState.goOn at he
  cases hpc : s.pc t with
  | idle =>
    rw [hpc] at he
    cases he
  | blocked call =>
    rw [hpc] at he
    cases he
  | load call again =>
    rw [hpc] at he
    cases he
    refine h.takeLoaded (by rw [hpc]; nofun) (hpc ▸ ⟨rfl, rfl⟩) call ?_
    rw [hpc]
    cases again
    · exact nofun
    · exact fun _ => rfl
  | exchange call again value =>
    rw [hpc] at he hseen
    have hfrom : ∀ call, s.pc t ≠ .blocked call := by
      rw [hpc]
      exact nofun
    dsimp only at he
    change 0 < value at hseen
    split_ifs at he with hsame hmore
    · -- the permit is taken, and there are more
      obtain ⟨hval, -⟩ := hsame
      have hbd := h.bound
      rw [taken_value hseen (hval ▸ hbd)] at he
      cases he
      refine Inv.count_goto ?_ nofun
      refine h.update hfrom nofun (show value - 1 ≤ _ by omega) ?_ trivial fun _ _ => .inl rfl
      rw [hpc]
      simp only [Pc.posted, Pc.taken, reduceCtorEq, if_true, if_false]
      omega
    · -- the last permit is taken
      obtain ⟨hval, -⟩ := hsame
      have hbd := h.bound
      rw [taken_value hseen (hval ▸ hbd)] at he
      cases he
      rw [count_success, hpc]
      refine h.update hfrom nofun (show value - 1 ≤ _ by omega) ?_ trivial
        fun hpos _ => absurd hpos (show ¬0 < value - 1 by omega)
      rw [hpc]
      simp only [SemState.returns, Pc.posted, Pc.taken, Pc.posting, reduceCtorEq, Bool.false_eq_true, if_false]
      omega
    · cases he
      refine h.takeLoaded hfrom (hpc ▸ ⟨rfl, rfl⟩) call ?_
      rw [hpc]
      cases again
      · exact nofun
      · exact fun _ => rfl
  | pass =>
    rw [hpc] at he
    exact h.wakeOne (.inl hpc) he
  | deadline =>
    rw [hpc] at he
    cases he
    split_ifs
    · refine Inv.count_goto ?_ nofun
      exact h.goto_plain (by rw [hpc]; nofun) nofun trivial (hpc ▸ ⟨rfl, rfl⟩) ⟨rfl, rfl⟩ (by rw [hpc]; nofun)
    · refine Inv.count_fails ?_ nofun
      exact h.goto_plain (by rw [hpc]; nofun) nofun trivial (hpc ▸ ⟨rfl, rfl⟩) ⟨rfl, rfl⟩ (by rw [hpc]; nofun)
  | waits call =>
    rw [hpc] at he
    have hfrom : ∀ call, s.pc t ≠ .blocked call := by
      rw [hpc]
      exact nofun
    have hreturned : ∀ result, Inv (s.goto t (.returned call result)) := fun result =>
      h.goto_plain hfrom nofun trivial (hpc ▸ ⟨rfl, rfl⟩) ⟨rfl, rfl⟩ (by rw [hpc]; nofun)
    dsimp only at he
    split at he
    · rw [Option.ite_none_left_eq_some] at he
      cases he.2
      refine Inv.count_goto ?_ nofun
      exact hreturned _
    · split_ifs at he with hzero
      · -- the value is 0: the thread blocks
        cases he
        refine @Inv.count_goto t s { s with queue := t :: s.queue } _ ?_ nofun
        refine ⟨h.bound, ?_, fun u => ?_, fun u => ?_, fun hpos => ?_⟩
        · refine @SemState.Counted.update s t h.count _ _ _ _ s.outcome ?_
          rw [hpc]
          simp only [SemState.goto, Pc.posted, Pc.taken, reduceCtorEq, if_false]
          omega
        · exact mem_cons_update (fun p => ∃ call, p = Pc.blocked call) (h.queue u) ⟨call, rfl⟩
        · unfold SemState.goto
          dsimp only
          by_cases hu : u = t
          · rw [hu, update_self]
            trivial
          · rw [update_of_ne hu]
            exact h.seen u
        · change 0 < s.value at hpos
          omega
      · cases he
        refine Inv.count_goto ?_ nofun
        exact hreturned _
  | returned call result =>
    rw [hpc] at he
    have hfrom : ∀ call, s.pc t ≠ .blocked call := by
      rw [hpc]
      exact nofun
    have hp : (s.pc t).Plain := hpc ▸ ⟨rfl, rfl⟩
    cases he
    cases result with
    | ok =>
      exact Inv.count_goto (h.goto_plain hfrom nofun trivial hp ⟨rfl, rfl⟩ fun _ => .inl rfl) nofun
    | changed =>
      exact Inv.count_goto (h.goto_plain hfrom nofun trivial hp ⟨rfl, rfl⟩ fun _ => .inl rfl) nofun
    | timedOut =>
      refine Inv.count_fails (h.goto_plain hfrom nofun trivial hp ⟨rfl, rfl⟩ (by rw [hpc]; nofun)) ?_
      split_ifs <;> exact nofun
    | interrupted =>
      exact Inv.count_fails (h.goto_plain hfrom nofun trivial hp ⟨rfl, rfl⟩ (by rw [hpc]; nofun)) nofun
    | failed =>
      exact Inv.count_fails (h.goto_plain hfrom nofun trivial hp ⟨rfl, rfl⟩ (by rw [hpc]; nofun)) nofun
  | postLoad =>
    rw [hpc] at he
    cases he
    exact h.postLoaded (by rw [hpc]; nofun) (hpc ▸ ⟨rfl, rfl⟩) (by rw [hpc]; rfl)
  | postExchange value =>
    rw [hpc] at he hseen
    have hfrom : ∀ call, s.pc t ≠ .blocked call := by
      rw [hpc]
      exact nofun
    dsimp only at he
    change value ≠ semValueMax at hseen
    have hbd := h.bound
    split_ifs at he with hsame hzero
    · -- the first permit: one thread is woken
      obtain ⟨hval, -⟩ := hsame
      obtain ⟨hnext, hle⟩ := posted_value (hval ▸ hbd) hseen
      rw [hnext] at he
      cases he
      refine Inv.count_goto ?_ nofun
      refine h.update hfrom nofun hle ?_ trivial fun _ _ => .inl rfl
      rw [hpc]
      simp only [Pc.posted, Pc.taken, reduceCtorEq, if_true, if_false]
      omega
    · obtain ⟨hval, -⟩ := hsame
      obtain ⟨hnext, hle⟩ := posted_value (hval ▸ hbd) hseen
      rw [hnext] at he
      cases he
      rw [count_success, hpc]
      refine h.update hfrom nofun hle ?_ trivial fun _ hqu => .inr (h.other ?_ (by omega) hqu)
      · rw [hpc]
        simp only [SemState.returns, Pc.posted, Pc.taken, Pc.posting, reduceCtorEq, if_true, if_false]
        omega
      · rw [hpc]
        rfl
    · cases he
      exact h.postLoaded hfrom (hpc ▸ ⟨rfl, rfl⟩) (by rw [hpc]; rfl)
  | postWake =>
    rw [hpc] at he
    exact h.wakeOne (.inr hpc) he

/-- **What one step preserves.** -/
theorem Inv.step (h : Inv s) (he : s.step e = some s') : Inv s' := by
  cases e with
  | take t call =>
    simp only [SemState.step, Option.ite_none_right_eq_some] at he
    obtain ⟨hidle, he⟩ := he
    cases he
    exact h.goto_plain (by rw [hidle]; nofun) nofun trivial (hidle ▸ ⟨rfl, rfl⟩) ⟨rfl, rfl⟩ (by rw [hidle]; nofun)
  | post t =>
    simp only [SemState.step, Option.ite_none_right_eq_some] at he
    obtain ⟨hidle, he⟩ := he
    cases he
    exact h.goto_plain (by rw [hidle]; nofun) nofun trivial (hidle ▸ ⟨rfl, rfl⟩) ⟨rfl, rfl⟩ (by rw [hidle]; nofun)
  | goOn t env =>
    obtain ⟨s₁, hs₁, rfl⟩ := Option.map_eq_some_iff.mp he
    exact h.goOn hs₁
  | expire t result =>
    simp only [SemState.step, Option.ite_none_right_eq_some] at he
    cases he.2
    exact h.release [t] result

lemma reachable_inv (h : sys.Reachable s) : Inv s := by
  refine h.invariant (fun s hs => ?_) fun _ _ _ hinv he => hinv.step he
  obtain ⟨⟨hval, hinit⟩, hqu, hidle, hpost, htak⟩ := hs
  have hnone : ∀ pc ≠ .idle, Numbers (s.pc · = pc) 0 := fun pc hpc =>
    ⟨[], List.nodup_nil, fun t => iff_of_false List.not_mem_nil fun heq => hpc (heq.symm.trans (hidle t)), rfl⟩
  refine ⟨by omega, ⟨0, 0, hnone _ nofun, hnone _ nofun, by omega⟩, fun t => ?_, fun t => ?_, fun _ hne => absurd hqu hne⟩
  · rw [hqu, hidle t]
    exact ⟨nofun, nofun⟩
  · rw [hidle t]
    trivial

/-- **The permits are counted, and none is left beside a blocked thread** once no thread is between an atomic step and the
wake or test that follows it. -/
theorem permits_reach_waiters (h : sys.Reachable s) :
    (s.Counted ∧ s.value ≤ semValueMax) ∧
      (s.Quiescent → 0 < s.value → ∀ t call, s.pc t ≠ .blocked call) := by
  have hinv := reachable_inv h
  refine ⟨⟨hinv.count, hinv.bound⟩, fun hquiescent hpos t call hpc => ?_⟩
  have hmem := (hinv.queue t).mpr ⟨call, hpc⟩
  obtain ⟨u, hu⟩ := hinv.token hpos (List.ne_nil_of_mem hmem)
  cases (hquiescent u).symm.trans hu

def empty : SemState := ⟨0, [], fun _ => .idle, fun _ => none, 0, 0, 0⟩

lemma empty_init : sys.init empty := ⟨⟨rfl, Nat.zero_le _⟩, rfl, fun _ => rfl, rfl, rfl⟩

def releasing (released : List ℕ) : Env := ⟨false, true, none, released⟩

/-- Thread 1 waits; two permits are posted; the wake of the first one releases thread 1. -/
def twoPosts : List Event :=
  [.take 1 .wait, .goOn 1 (releasing []), .goOn 1 (releasing []), .post 2, .goOn 2 (releasing []), .goOn 2 (releasing []),
    .post 3, .goOn 3 (releasing []), .goOn 3 (releasing []), .goOn 2 (releasing [1])]

/-- Thread 1 has one of the two permits and passes the wake on; the other permit is left, and nobody is blocked. -/
theorem permits_reach_waiters_twoPosts : ∃ s : SemState, (s.outcome 1 = some .success ∧ s.value = 1) ∧
    (s.Counted ∧ s.posts = 2 ∧ s.takes = 1) ∧ ∀ t call, s.pc t ≠ .blocked call := by
  have hreachable := System.replay_reachable (.init empty_init) (twoPosts ++
    [.goOn 1 (releasing []), .goOn 1 (releasing []), .goOn 1 (releasing []), .goOn 1 (releasing [])])
  have hpermits := permits_reach_waiters hreachable
  refine ⟨_, ⟨rfl, rfl⟩, ⟨hpermits.1.1, rfl, rfl⟩, hpermits.2 (fun t => ?_) Nat.one_pos⟩
  match t with
  | 0 | 1 | 2 | 3 => rfl
  | t + 4 => rfl

end PlantOS.Libp.Semaphore
