import PlantOS.Signal.Returns

/-!
# No signal is lost

The threads of all processes with their signals. Of every signal of a thread it is noted when it is made pending and what
has become of it.
-/

namespace PlantOS.Signal

open Lib
open Option (ite_none_right_eq_some map_eq_some_iff)
open Function (update update_of_ne update_self)

/-- `SA_SIGINFO` to `SA_RESTART` -/
abbrev actionFlags : BitVec 32 := 0x7f

/-- What happens to a signal of a thread: it is made pending, it is acted on, or it is set to be ignored. -/
inductive Note
  | made | acted | ignored
  deriving DecidableEq

/-- Whether a signal is still to be acted on after its notes, the last one first: there are none if one of them is an
end of nothing, or if the signal is made pending once more. -/
def outstanding : List Note → Option Bool
  | [] => some false
  | .made :: l => if outstanding l = some false then some true else none
  | .acted :: l | .ignored :: l => if outstanding l = some true then some false else none

structure Member where
  tgid : ℕ
  signals : Signals
  /-- the mask of before, in `SIGNAL_SUSPEND` -/
  suspended : Option Sigset
  /-- its process is being ended: it does not come back to user mode -/
  ended : Bool
  /-- of each signal; no code reads it -/
  notes : ℕ → List Note

def Member.pends (m : Member) (sig : ℕ) : Bool := m.signals.pending.getLsbD (sig - 1)

def Member.note (m : Member) (sig : ℕ) (n : Note) : ℕ → List Note := update m.notes sig (n :: m.notes sig)

/-- The threads that there are, in the slots of the registry, and the `signal_actions` of the leaders of the processes -/
structure Table where
  slots : ℕ
  threads : ℕ → Option Member
  actions : ℕ → ℕ → Action

namespace Table

def set (s : Table) (tid : ℕ) (m : Member) : Table := { s with threads := update s.threads tid (some m) }

def add (s : Table) (tid : ℕ) (m : Member) : Table := { s.set tid m with slots := max s.slots (tid + 1) }

def addProcess (s : Table) (tid : ℕ) (m : Member) (actions : ℕ → Action) : Table :=
  { s.add tid m with actions := update s.actions tid actions }

/-- `user_signal_send`; `SIGKILL` ends the process, whose threads exit then. -/
def userSignalSend (s : Table) (tid sig : ℕ) : Table :=
  match s.threads tid with
  | none => s
  | some m =>
    if sig = sigkill then s
    else if (s.threads m.tgid).isNone ∨ (s.actions m.tgid sig).handler = sigIgn then s
    else
      s.set tid { m with
        signals := { m.signals with pending := m.signals.pending ||| sigmask sig }
        notes := if m.pends sig then m.notes else m.note sig .made }

/-- The loop of `SIGNAL_ACTION` over the threads of the process -/
def discard (s : Table) (tgid sig : ℕ) : Table :=
  { s with threads := fun tid => (s.threads tid).map fun m =>
      if m.tgid = tgid then
        { m with
          signals := { m.signals with pending := m.signals.pending &&& ~~~sigmask sig }
          notes := if m.pends sig then m.note sig .ignored else m.notes }
      else m }

/-- `SIGNAL_ACTION` of a thread of the process `tgid`: `new` is the new action if there is one, and whether it could be
copied, and `copied` is whether the old one could be, if it is asked for. -/
def signalAction (rights : Rights) (s : Table) (tgid sig : ℕ) (new : Option (Option Action)) (copied : Option Bool) :
    Table × ℤ :=
  if sig = 0 ∨ sig ≥ nsig ∨ sig = sigkill then (s, -22)
  else
    match new with
    | none => (s, if copied = some false then -14 else 0)
    | some none => (s, -14)
    | some (some action) =>
      if action.flags &&& ~~~actionFlags ≠ 0 ∨ (action.handler ≠ sigDfl ∧ action.handler ≠ sigIgn ∧
          !rights.userVmReadable action.handler.toNat 1) then (s, -22)
      else if copied = some false then (s, -14)
      else
        let s := { s with
          actions := update s.actions tgid
            (update (s.actions tgid) sig { action with mask := action.mask &&& blockableBits }) }
        (if action.handler = sigIgn then s.discard tgid sig else s, 0)

/-- `user_signal_dispatch` of a thread -/
def dispatch (s : Table) (tid : ℕ) (m : Member) (rights : Rights) (retToApp : BitVec 64) (memory : ℕ → UInt8)
    (context : Mcontext) (fault : Option Siginfo) : Table :=
  -- a fault is not one of the pending signals
  let acted sig := if fault.isNone then m.note sig .acted else m.notes
  match userSignalDispatch rights retToApp m.signals (s.actions m.tgid) memory context fault with
  | .none signals => s.set tid { m with signals := signals }
  | .killed signals => s.set tid { m with signals := signals, ended := true, notes := acted (pick m.signals.deliverable) }
  | .handler sig signals actions _ _ =>
    { s.set tid { m with signals := signals, notes := acted sig } with actions := update s.actions m.tgid actions }

end Table

inductive PendingEvent
  | send (tid sig : ℕ)
  | action (tid : ℕ) (rights : Rights) (sig : ℕ) (new : Option (Option Action)) (copied : Option Bool)
  | mask (tid how : ℕ) (set : Option (Option Sigset)) (copied : Option Bool)
  | stack (tid : ℕ) (rights : Rights) (new : Option (Option Stack)) (copied : Option Bool)
  | suspend (tid : ℕ) (mask : Sigset)
  | resume (tid : ℕ)
  | dispatch (tid : ℕ) (rights : Rights) (retToApp : BitVec 64) (memory : ℕ → UInt8) (context : Mcontext)
      (fault : Option Siginfo)
  | restore (tid : ℕ) (cpu : Cpu) (rights : Rights) (memory : ℕ → UInt8) (address : BitVec 64) (context : Mcontext)
  /-- `user_thread_create` by a thread -/
  | create (creator tid : ℕ)
  /-- `task_fork` by a thread -/
  | fork (creator tid : ℕ)
  /-- a program is started -/
  | start (tid : ℕ)
  | exit (tid : ℕ)

namespace Table

def running (s : Table) (tid : ℕ) : Option Member := (s.threads tid).filter fun m => !m.ended && m.suspended.isNone

def fresh (blocked : Sigset) : Signals := ⟨0, blocked, ⟨0, 0, 0⟩, 0, false⟩

def step (s : Table) : PendingEvent → Option Table
  | .send tid sig => if 1 ≤ sig ∧ sig < nsig then some (s.userSignalSend tid sig) else none
  | .action tid rights sig new copied =>
    (s.running tid).map fun m => (s.signalAction rights m.tgid sig new copied).1
  | .mask tid how set copied =>
    (s.running tid).map fun m => s.set tid { m with signals := (signalMask m.signals how set copied).1 }
  | .stack tid rights new copied =>
    (s.running tid).map fun m => s.set tid { m with signals := (signalStack rights m.signals new copied).1 }
  | .suspend tid mask =>
    (s.running tid).map fun m =>
      s.set tid { m with signals := (suspendEnter m.signals mask).1, suspended := some m.signals.blocked }
  | .resume tid =>
    match s.threads tid with
    | some m => m.suspended.map fun previous =>
        s.set tid { m with signals := suspendLeave m.signals previous, suspended := none }
    | none => none
  | .dispatch tid rights retToApp memory context fault =>
    if fault.all (·.raised) then (s.running tid).map fun m => s.dispatch tid m rights retToApp memory context fault else none
  | .restore tid cpu rights memory address context =>
    (s.running tid).map fun m =>
      s.set tid { m with signals := (userSignalRestore cpu rights m.signals memory address context).2.1 }
  | .create creator tid =>
    if s.threads tid = none then
      (s.running creator).map fun m => s.add tid ⟨m.tgid, fresh m.signals.blocked, none, false, fun _ => []⟩
    else none
  | .fork creator tid =>
    if s.threads tid = none then
      (s.running creator).map fun m =>
        s.addProcess tid ⟨tid, { m.signals with pending := 0 }, none, false, fun _ => []⟩ (s.actions m.tgid)
    else none
  | .start tid =>
    if s.threads tid = none then
      some (s.addProcess tid ⟨tid, fresh 0, none, false, fun _ => []⟩ fun _ => Action.zero)
    else none
  | .exit tid =>
    -- the leader stays until the other threads of its process are gone
    if ∀ i < s.slots, i ≠ tid → ∀ m ∈ s.threads i, m.tgid ≠ tid then
      some { s with threads := update s.threads tid none }
    else none

def initial (s : Table) : Prop :=
  ∀ tid m, s.threads tid = some m → m.signals.pending = 0 ∧ m.notes = (fun _ => []) ∧ tid < s.slots ∧
    (s.threads m.tgid).isSome

def sys : System Table PendingEvent := ⟨initial, step⟩

/-- **No signal is lost**: of every signal of every thread, every end is of one that has been made pending, and the
last one is pending as long as it has no end. -/
def Conserved (s : Table) : Prop :=
  ∀ tid m, s.threads tid = some m → ∀ sig, 1 ≤ sig → sig < nsig → outstanding (m.notes sig) = some (m.pends sig)

/-- `SIGNAL_SUSPEND` is not left for a signal that has been blocked before. -/
def SuspendKeeps (s : Table) (e : PendingEvent) : Prop :=
  ∀ tid, e = .resume tid → ∀ m, s.threads tid = some m → ∀ previous, m.suspended = some previous →
    m.signals.deliverable ≠ 0 → previous &&& sigmask (pick m.signals.deliverable) = 0

end Table

/-! ### Notes -/

lemma add_getLsbD (x : Sigset) {sig i : ℕ} (hsig : 1 ≤ sig) (hpos : 1 ≤ i) (hlt : i < nsig) :
    (x ||| sigmask sig).getLsbD (i - 1) = (x.getLsbD (i - 1) || decide (sig = i)) := by
  have hbit : i - 1 < 32 := by
    simp only [nsig] at hlt
    omega
  have hiff : sig - 1 = i - 1 ↔ sig = i := by omega
  rw [BitVec.getLsbD_or, sigmask_getLsbD, decide_eq_true hbit, Bool.true_and, decide_eq_decide.mpr hiff]

lemma remove_getLsbD (x : Sigset) {sig i : ℕ} (hsig : 1 ≤ sig) (hpos : 1 ≤ i) (hlt : i < nsig) :
    (x &&& ~~~sigmask sig).getLsbD (i - 1) = (x.getLsbD (i - 1) && !decide (sig = i)) := by
  have hbit : i - 1 < 32 := by
    simp only [nsig] at hlt
    omega
  have hiff : sig - 1 = i - 1 ↔ sig = i := by omega
  rw [BitVec.getLsbD_and, BitVec.getLsbD_not, sigmask_getLsbD, decide_eq_true hbit, Bool.true_and, Bool.true_and,
    decide_eq_decide.mpr hiff]

lemma sigmask_signalBits {sig : ℕ} (hpos : 1 ≤ sig) (hlt : sig < nsig) : sigmask sig &&& signalBits = sigmask sig := by
  have hbits : ∀ i, i < 32 → signalBits.getLsbD i = decide (i ≠ 31) := by decide
  refine BitVec.eq_of_getLsbD_eq fun i hi => ?_
  rw [BitVec.getLsbD_and, sigmask_getLsbD, hbits i hi]
  by_cases heq : sig - 1 = i
  · have hne : i ≠ 31 := by
      simp only [nsig] at hlt
      omega
    rw [decide_eq_true hne, Bool.and_true]
  · rw [decide_eq_false heq, Bool.and_false, Bool.false_and]

/-- The notes of a thread agree with what is pending. -/
structure Member.Good (m : Member) (actions : ℕ → Action) : Prop where
  bits : m.signals.pending &&& signalBits = m.signals.pending
  kept : ∀ sig, 1 ≤ sig → sig < nsig → outstanding (m.notes sig) = some (m.pends sig)
  heeded : ∀ sig, 1 ≤ sig → sig < nsig → m.pends sig = true → (actions sig).handler ≠ sigIgn

namespace Member.Good

variable {m : Member} {actions : ℕ → Action} {sig : ℕ}

lemma congr {m' : Member} (h : m.Good actions) (hpend : m'.signals.pending = m.signals.pending)
    (hnotes : m'.notes = m.notes) : m'.Good actions := by
  have hpen : ∀ i, m'.pends i = m.pends i := fun i => by
    unfold Member.pends
    rw [hpend]
  refine ⟨by rw [hpend]; exact h.bits, fun sig hpos hlt => ?_, fun sig hpos hlt => ?_⟩
  · rw [hnotes, hpen]
    exact h.kept sig hpos hlt
  · rw [hpen]
    exact h.heeded sig hpos hlt

lemma clear (hpend : m.signals.pending = 0) (hnotes : m.notes = fun _ => []) (actions : ℕ → Action) : m.Good actions := by
  have hpen : ∀ i, m.pends i = false := fun i => by
    unfold Member.pends
    rw [hpend]
    exact BitVec.getLsbD_zero
  refine ⟨by rw [hpend]; rfl, fun sig _ _ => ?_, fun sig _ _ hp => ?_⟩
  · rw [hnotes, hpen]
    rfl
  · rw [hpen] at hp
    cases hp

lemma mono {actions' : ℕ → Action} (h : m.Good actions)
    (hacts : ∀ sig, (actions' sig).handler = sigIgn → (actions sig).handler = sigIgn) : m.Good actions' :=
  ⟨h.bits, h.kept, fun sig hpos hlt hpen hign => h.heeded sig hpos hlt hpen (hacts sig hign)⟩

lemma made {m' : Member} (h : m.Good actions) (hpos : 1 ≤ sig) (hlt : sig < nsig)
    (hhdlr : (actions sig).handler ≠ sigIgn) (hpend : m'.signals.pending = m.signals.pending ||| sigmask sig)
    (hnotes : m'.notes = if m.pends sig then m.notes else m.note sig .made) : m'.Good actions := by
  have hpen : ∀ i, 1 ≤ i → i < nsig → m'.pends i = (m.pends i || decide (sig = i)) := fun i hi hilt => by
    unfold Member.pends
    rw [hpend, add_getLsbD _ hpos hi hilt]
  refine ⟨?_, fun i hi hilt => ?_, fun i hi hilt hp => ?_⟩
  · rw [hpend, BitVec.and_or_distrib_right, h.bits, sigmask_signalBits hpos hlt]
  · rw [hpen i hi hilt, hnotes]
    by_cases heq : sig = i
    · subst heq
      by_cases hold : m.pends sig = true
      · rw [if_pos hold, h.kept sig hi hilt, hold]
        rfl
      · rw [if_neg hold]
        unfold Member.note
        rw [update_self, outstanding, h.kept sig hi hilt, (Bool.not_eq_true _).mp hold, decide_eq_true rfl]
        rfl
    · rw [decide_eq_false heq, Bool.or_false, ← h.kept i hi hilt]
      split
      · rfl
      · unfold Member.note
        rw [update_of_ne (Ne.symm heq)]
  · rw [hpen i hi hilt, Bool.or_eq_true, decide_eq_true_eq] at hp
    rcases hp with hold | rfl
    · exact h.heeded i hi hilt hold
    · exact hhdlr

lemma finished {m' : Member} {n : Note} (h : m.Good actions) (hpos : 1 ≤ sig) (hn : n ≠ .made) (hold : m.pends sig = true)
    (hpend : m'.signals.pending = m.signals.pending &&& ~~~sigmask sig) (hnotes : m'.notes = m.note sig n) :
    m'.Good actions := by
  have hpen : ∀ i, 1 ≤ i → i < nsig → m'.pends i = (m.pends i && !decide (sig = i)) := fun i hi hilt => by
    unfold Member.pends
    rw [hpend, remove_getLsbD _ hpos hi hilt]
  refine ⟨?_, fun i hi hilt => ?_, fun i hi hilt hp => ?_⟩
  · rw [hpend, BitVec.and_assoc, BitVec.and_comm (~~~_), ← BitVec.and_assoc, h.bits]
  · rw [hpen i hi hilt, hnotes]
    unfold Member.note
    by_cases heq : sig = i
    · subst heq
      have hkept := h.kept sig hi hilt
      rw [update_self, decide_eq_true rfl, Bool.not_true, Bool.and_false]
      cases n with
      | made => exact absurd rfl hn
      | acted => rw [outstanding, hkept, hold, if_pos rfl]
      | ignored => rw [outstanding, hkept, hold, if_pos rfl]
    · rw [update_of_ne (Ne.symm heq), decide_eq_false heq, Bool.not_false, Bool.and_true]
      exact h.kept i hi hilt
  · rw [hpen i hi hilt, Bool.and_eq_true] at hp
    exact h.heeded i hi hilt hp.1

lemma discarded {m' : Member} {actions' : ℕ → Action} (h : m.Good actions) (hpos : 1 ≤ sig)
    (hpend : m'.signals.pending = m.signals.pending &&& ~~~sigmask sig)
    (hnotes : m'.notes = if m.pends sig then m.note sig .ignored else m.notes)
    (hacts : ∀ i, i ≠ sig → actions' i = actions i) : m'.Good actions' := by
  have hpen : ∀ i, 1 ≤ i → i < nsig → m'.pends i = (m.pends i && !decide (sig = i)) := fun i hi hilt => by
    unfold Member.pends
    rw [hpend, remove_getLsbD _ hpos hi hilt]
  have hgood : m'.Good actions := by
    by_cases hold : m.pends sig = true
    · exact h.finished (n := .ignored) hpos nofun hold hpend (hnotes.trans (if_pos hold))
    · refine ⟨?_, fun i hi hilt => ?_, fun i hi hilt hp => ?_⟩
      · rw [hpend, BitVec.and_assoc, BitVec.and_comm (~~~_), ← BitVec.and_assoc, h.bits]
      · rw [hpen i hi hilt, hnotes, if_neg hold, h.kept i hi hilt]
        by_cases heq : sig = i
        · rw [← heq, (Bool.not_eq_true _).mp hold, Bool.false_and]
        · rw [decide_eq_false heq, Bool.not_false, Bool.and_true]
      · rw [hpen i hi hilt, Bool.and_eq_true] at hp
        exact h.heeded i hi hilt hp.1
  refine ⟨hgood.bits, hgood.kept, fun i hi hilt hp => ?_⟩
  rw [hpen i hi hilt, Bool.and_eq_true, Bool.not_eq_true', decide_eq_false_iff_not] at hp
  rw [hacts i (Ne.symm hp.2)]
  exact h.heeded i hi hilt hp.1

end Member.Good

/-! ### Dispatch -/

lemma deliver_pending (rights : Rights) (retToApp : BitVec 64) (state : Signals) (actions : ℕ → Action) (memory : ℕ → UInt8)
    (context : Mcontext) (information : Siginfo) :
    deliver rights retToApp state actions memory context information = .killed state ∨
      ∃ state' actions' memory' context', deliver rights retToApp state actions memory context information =
          .handler information.signo.toNat state' actions' memory' context' ∧
        state'.pending = state.pending ∧ ∀ i, actions' i = actions i ∨ actions' i = Action.zero := by
  unfold deliver
  dsimp only
  by_cases hfits : (place state (actions information.signo.toNat) context).fits rights state retToApp = true
  · rw [hfits]
    refine .inr ⟨_, _, _, _, rfl, rfl, fun i => ?_⟩
    split
    · by_cases hi : i = information.signo.toNat
      · exact .inr (by rw [hi, update_self])
      · exact .inl (update_of_ne hi ..)
    · exact .inl rfl
  · rw [(Bool.not_eq_true _).mp hfits]
    exact .inl rfl

/-- **What a dispatch does to the pending signals**: it takes the one that it acts on, if it is not for a fault. -/
lemma userSignalDispatch_pending (rights : Rights) (retToApp : BitVec 64) {state : Signals} {actions : ℕ → Action}
    (memory : ℕ → UInt8) (context : Mcontext) (fault : Option Siginfo)
    (hbits : state.pending &&& signalBits = state.pending)
    (hheed : ∀ sig, 1 ≤ sig → sig < nsig → state.pending.getLsbD (sig - 1) = true → (actions sig).handler ≠ sigIgn) :
    match userSignalDispatch rights retToApp state actions memory context fault with
    | .none state' => state'.pending = state.pending
    | .killed state' =>
      if fault.isNone then
        state.deliverable ≠ 0 ∧ state'.pending = state.pending &&& ~~~sigmask (pick state.deliverable)
      else state'.pending = state.pending
    | .handler sig state' actions' _ _ =>
      (if fault.isNone then
        state.deliverable ≠ 0 ∧ sig = pick state.deliverable ∧ state'.pending = state.pending &&& ~~~sigmask sig
      else state'.pending = state.pending) ∧ ∀ i, actions' i = actions i ∨ actions' i = Action.zero := by
  unfold userSignalDispatch
  by_cases hcs : context.cs &&& 3 ≠ 3
  · rw [if_pos hcs]
  rw [if_neg hcs]
  cases fault with
  | some raised =>
    simp only [nextSignal, Option.isNone_some, Bool.false_eq_true, false_and, if_false]
    split_ifs
    · rfl
    · rcases deliver_pending rights retToApp state actions memory context raised with
        hkil | ⟨state', actions', memory', context', hhdlr, hpend, hacts⟩
      · rw [hkil]
      · rw [hhdlr]
        exact ⟨hpend, hacts⟩
  | none =>
    simp only [nextSignal, Option.isNone_none, true_and, if_true]
    by_cases hzero : state.deliverable = 0
    · rw [if_pos hzero]
    rw [if_neg hzero]
    obtain ⟨hpos, hlt, hbit⟩ := pick_spec (deliverable_bits hbits) hzero
    have hsig : (BitVec.ofNat 32 (pick state.deliverable)).toNat = pick state.deliverable := by
      simp only [nsig] at hlt
      rw [BitVec.toNat_ofNat, Nat.mod_eq_of_lt (by omega)]
    have hpen : state.pending.getLsbD (pick state.deliverable - 1) = true := by
      unfold Signals.deliverable at hbit ⊢
      rw [BitVec.getLsbD_and, Bool.and_eq_true] at hbit
      exact hbit.1
    dsimp only
    rw [hsig, if_neg (hheed _ hpos hlt hpen)]
    split_ifs
    · exact ⟨hzero, rfl⟩
    · rcases deliver_pending rights retToApp
        { state with pending := state.pending &&& ~~~sigmask (pick state.deliverable) } actions memory context
        ⟨BitVec.ofNat 32 (pick state.deliverable), BitVec.ofInt 32 (-6), 0, 0⟩ with
        hkil | ⟨state', actions', memory', context', hhdlr, hpend, hacts⟩
      · rw [hkil]
        exact ⟨hzero, rfl⟩
      · rw [hhdlr]
        dsimp only
        rw [hsig]
        exact ⟨⟨hzero, rfl, hpend⟩, hacts⟩

/-! ### Every run -/

namespace Table

/-- The invariant: the notes agree with what is pending, and every thread has the leader of its process. -/
structure Inv (s : Table) : Prop where
  good : ∀ tid m, s.threads tid = some m → m.Good (s.actions m.tgid)
  leader : ∀ tid m, s.threads tid = some m → (s.threads m.tgid).isSome
  slots : ∀ tid m, s.threads tid = some m → tid < s.slots

variable {s s' : Table} {tid : ℕ} {m m' : Member}

@[simp] lemma set_threads_self (s : Table) (tid : ℕ) (m : Member) : (s.set tid m).threads tid = some m :=
  update_self ..

@[simp] lemma set_threads_of_ne (s : Table) {tid i : ℕ} (m : Member) (h : i ≠ tid) :
    (s.set tid m).threads i = s.threads i := update_of_ne h ..

@[simp] lemma add_threads (s : Table) (tid : ℕ) (m : Member) : (s.add tid m).threads = (s.set tid m).threads := rfl

lemma set_threads_cases {i : ℕ} {n : Member} (h : (s.set tid m').threads i = some n) :
    (i = tid ∧ n = m') ∨ s.threads i = some n := by
  by_cases hi : i = tid
  · subst hi
    rw [set_threads_self] at h
    exact .inl ⟨rfl, (Option.some.inj h).symm⟩
  · rw [set_threads_of_ne s m' hi] at h
    exact .inr h

lemma set_threads_isSome {i : ℕ} (h : i = tid ∨ (s.threads i).isSome) : ((s.set tid m').threads i).isSome := by
  by_cases hi : i = tid
  · subst hi
    rw [set_threads_self]
    rfl
  · rw [set_threads_of_ne s m' hi]
    exact h.resolve_left hi

namespace Inv

lemma initial (h : s.initial) : s.Inv := by
  refine ⟨fun tid m hm => ?_, fun tid m hm => (h tid m hm).2.2.2, fun tid m hm => (h tid m hm).2.2.1⟩
  obtain ⟨hpend, hnotes, -⟩ := h tid m hm
  exact .clear hpend hnotes _

lemma set (h : s.Inv) (hm : s.threads tid = some m) (htgid : m'.tgid = m.tgid) (hgood : m'.Good (s.actions m.tgid)) :
    (s.set tid m').Inv := by
  refine ⟨fun i n hn => ?_, fun i n hn => ?_, fun i n hn => ?_⟩
  · rcases set_threads_cases hn with ⟨-, rfl⟩ | hold
    · rw [htgid]
      exact hgood
    · exact h.good i n hold
  · refine set_threads_isSome (.inr ?_)
    rcases set_threads_cases hn with ⟨-, rfl⟩ | hold
    · rw [htgid]
      exact h.leader tid m hm
    · exact h.leader i n hold
  · rcases set_threads_cases hn with ⟨rfl, -⟩ | hold
    · exact h.slots i m hm
    · exact h.slots i n hold

lemma setSignals {signals : Signals} {suspended : Option Sigset} (h : s.Inv) (hm : s.threads tid = some m)
    (hpend : signals.pending = m.signals.pending) :
    (s.set tid { m with signals := signals, suspended := suspended }).Inv :=
  h.set hm rfl ((h.good tid m hm).congr hpend rfl)

lemma actions {tgid : ℕ} {actions' : ℕ → Action} (h : s.Inv)
    (hacts : ∀ sig, (actions' sig).handler = sigIgn → (s.actions tgid sig).handler = sigIgn) :
    ({ s with actions := update s.actions tgid actions' } : Table).Inv := by
  refine ⟨fun i n hn => ?_, h.leader, h.slots⟩
  by_cases hi : n.tgid = tgid
  · dsimp only
    rw [hi, update_self]
    exact (hi ▸ h.good i n hn).mono hacts
  · dsimp only
    rw [update_of_ne hi]
    exact h.good i n hn

lemma add (h : s.Inv) (hgood : m'.Good (s.actions m'.tgid))
    (hldr : m'.tgid = tid ∨ (s.threads m'.tgid).isSome) : (s.add tid m').Inv := by
  refine ⟨fun i n hn => ?_, fun i n hn => ?_, fun i n hn => ?_⟩ <;> rw [add_threads] at * <;>
    rcases set_threads_cases hn with ⟨hi, rfl⟩ | hold
  · exact hgood
  · exact h.good i n hold
  · exact set_threads_isSome hldr
  · exact set_threads_isSome (.inr (h.leader i n hold))
  · change i < max s.slots (tid + 1)
    omega
  · change i < max s.slots (tid + 1)
    have hlt := h.slots i n hold
    omega

lemma addProcess {actions' : ℕ → Action} (h : s.Inv) (hfree : s.threads tid = none) (htgid : m'.tgid = tid)
    (hgood : m'.Good actions') : (s.addProcess tid m' actions').Inv := by
  have hoth : ∀ i n, s.threads i = some n → n.tgid ≠ tid := fun i n hn heq => by
    have hldr := h.leader i n hn
    rw [heq, hfree] at hldr
    cases hldr
  have hacts : ({ s with actions := update s.actions tid actions' } : Table).Inv := by
    refine ⟨fun i n hn => ?_, h.leader, h.slots⟩
    dsimp only
    rw [update_of_ne (hoth i n hn)]
    exact h.good i n hn
  refine hacts.add ?_ (.inl htgid)
  dsimp only
  rw [htgid, update_self]
  exact hgood

lemma running (h : s.running tid = some m) : s.threads tid = some m := by
  unfold Table.running at h
  exact (Option.filter_eq_some_iff.mp h).1

lemma send {sig : ℕ} (h : s.Inv) (hpos : 1 ≤ sig) (hlt : sig < nsig) : (s.userSignalSend tid sig).Inv := by
  unfold userSignalSend
  split
  · exact h
  · rename_i m hm
    by_cases hkill : sig = sigkill
    · rw [if_pos hkill]
      exact h
    rw [if_neg hkill]
    by_cases href : (s.threads m.tgid).isNone ∨ (s.actions m.tgid sig).handler = sigIgn
    · rw [if_pos href]
      exact h
    rw [if_neg href]
    rw [not_or] at href
    exact h.set hm rfl ((h.good tid m hm).made hpos hlt href.2 rfl rfl)

lemma discard {tgid sig : ℕ} {action : Action} (h : s.Inv) (hpos : 1 ≤ sig) :
    (({ s with actions := update s.actions tgid (update (s.actions tgid) sig action) } : Table).discard
      tgid sig).Inv := by
  have hcas : ∀ i n, (({ s with actions := update s.actions tgid (update (s.actions tgid) sig action) }
      : Table).discard tgid sig).threads i = some n →
      ∃ n₀, s.threads i = some n₀ ∧ n.tgid = n₀.tgid ∧
        n.Good (update s.actions tgid (update (s.actions tgid) sig action) n.tgid) := fun i n hn => by
    obtain ⟨n₀, hold, rfl⟩ := map_eq_some_iff.mp hn
    have hgood := h.good i n₀ hold
    refine ⟨n₀, hold, ?_⟩
    by_cases htgid : n₀.tgid = tgid
    · rw [if_pos htgid]
      refine ⟨rfl, ?_⟩
      dsimp only
      rw [htgid, update_self]
      rw [htgid] at hgood
      exact hgood.discarded hpos rfl rfl fun j hj => update_of_ne hj ..
    · rw [if_neg htgid]
      refine ⟨rfl, ?_⟩
      rw [update_of_ne htgid]
      exact hgood
  refine ⟨fun i n hn => ?_, fun i n hn => ?_, fun i n hn => ?_⟩
  · obtain ⟨n₀, -, -, hgood⟩ := hcas i n hn
    exact hgood
  · obtain ⟨n₀, hold, htgid, -⟩ := hcas i n hn
    rw [htgid]
    change ((s.threads n₀.tgid).map _).isSome
    rw [Option.isSome_map]
    exact h.leader i n₀ hold
  · obtain ⟨n₀, hold, -⟩ := hcas i n hn
    exact h.slots i n₀ hold

lemma signalAction {rights : Rights} {tgid sig : ℕ} {new : Option (Option Action)} {copied : Option Bool} (h : s.Inv) :
    (s.signalAction rights tgid sig new copied).1.Inv := by
  unfold Table.signalAction
  by_cases hsig : sig = 0 ∨ sig ≥ nsig ∨ sig = sigkill
  · rw [if_pos hsig]
    exact h
  rw [if_neg hsig]
  split
  · exact h
  · exact h
  · rename_i action
    split
    · exact h
    · split
      · exact h
      · dsimp only
        split
        · exact h.discard (Nat.one_le_iff_ne_zero.mpr fun hzero => hsig (.inl hzero))
        · rename_i hhdlr
          refine h.actions fun i hi => ?_
          by_cases heq : i = sig
          · rw [heq, update_self] at hi
            exact absurd hi hhdlr
          · rwa [update_of_ne heq] at hi

lemma dispatch {rights : Rights} {retToApp : BitVec 64} {memory : ℕ → UInt8} {context : Mcontext} {fault : Option Siginfo}
    (h : s.Inv) (hm : s.threads tid = some m) : (s.dispatch tid m rights retToApp memory context fault).Inv := by
  have hgood := h.good tid m hm
  have hspec := userSignalDispatch_pending rights retToApp memory context fault hgood.bits hgood.heeded
  unfold Table.dispatch
  generalize userSignalDispatch rights retToApp m.signals (s.actions m.tgid) memory context fault = r at hspec
  have hpick : m.signals.deliverable ≠ 0 → 1 ≤ pick m.signals.deliverable ∧ m.pends (pick m.signals.deliverable) = true :=
    fun hne => by
      obtain ⟨hpos, -, hbit⟩ := pick_spec (deliverable_bits hgood.bits) hne
      refine ⟨hpos, ?_⟩
      unfold Member.pends
      unfold Signals.deliverable at hbit ⊢
      rw [BitVec.getLsbD_and, Bool.and_eq_true] at hbit
      exact hbit.1
  cases r with
  | none signals => exact h.setSignals hm hspec
  | killed signals =>
    refine h.set hm rfl ?_
    by_cases hflt : fault.isNone = true
    · simp only [hflt, if_true] at hspec ⊢
      obtain ⟨hpos, hold⟩ := hpick hspec.1
      exact hgood.finished (n := .acted) hpos nofun hold hspec.2 rfl
    · simp only [hflt, Bool.false_eq_true, if_false] at hspec ⊢
      exact hgood.congr hspec rfl
  | handler sig signals actions memory context =>
    obtain ⟨hpend, hacts⟩ := hspec
    have hset : (s.set tid { m with signals := signals, notes := if fault.isNone then m.note sig .acted else m.notes }).Inv := by
      refine h.set hm rfl ?_
      by_cases hflt : fault.isNone = true
      · simp only [hflt, if_true] at hpend ⊢
        obtain ⟨hne, rfl, hpend⟩ := hpend
        obtain ⟨hpos, hold⟩ := hpick hne
        exact hgood.finished (n := .acted) hpos nofun hold hpend rfl
      · simp only [hflt, Bool.false_eq_true, if_false] at hpend ⊢
        exact hgood.congr hpend rfl
    refine hset.actions fun i hi => ?_
    rcases hacts i with hsame | hzero
    · rwa [hsame] at hi
    · rw [hzero] at hi
      cases hi

lemma exit (h : s.Inv) (hgrp : ∀ i < s.slots, i ≠ tid → ∀ m ∈ s.threads i, m.tgid ≠ tid) :
    ({ s with threads := update s.threads tid none } : Table).Inv := by
  have hcas : ∀ i n, update s.threads tid none i = some n → i ≠ tid ∧ s.threads i = some n := fun i n hn => by
    rcases update_cases hn with ⟨-, ⟨⟩⟩ | ⟨hi, hn⟩
    exact ⟨hi, hn⟩
  refine ⟨fun i n hn => h.good i n (hcas i n hn).2, fun i n hn => ?_, fun i n hn => h.slots i n (hcas i n hn).2⟩
  obtain ⟨hi, hold⟩ := hcas i n hn
  dsimp only
  rw [update_of_ne (hgrp i (h.slots i n hold) hi n hold)]
  exact h.leader i n hold

/-- **Every step keeps the invariant**, as long as `SIGNAL_SUSPEND` is not left for a signal that has been blocked
before. -/
theorem step {e : PendingEvent} (h : s.Inv) (hkps : SuspendKeeps s e) (hstep : s.step e = some s') : s'.Inv := by
  cases e with
  | send tid sig =>
    simp only [Table.step, ite_none_right_eq_some, Option.some.injEq] at hstep
    obtain ⟨⟨hpos, hlt⟩, rfl⟩ := hstep
    exact h.send hpos hlt
  | action tid rights sig new copied =>
    obtain ⟨m, -, rfl⟩ := map_eq_some_iff.mp hstep
    exact h.signalAction
  | mask tid how set copied =>
    obtain ⟨m, hm, rfl⟩ := map_eq_some_iff.mp hstep
    obtain ⟨blocked, -, hmask⟩ := signalMask_spec m.signals how set copied
    exact h.setSignals (running hm) (by rw [hmask])
  | stack tid rights new copied =>
    obtain ⟨m, hm, rfl⟩ := map_eq_some_iff.mp hstep
    obtain ⟨stack, hstk⟩ := signalStack_spec rights m.signals new copied
    exact h.setSignals (running hm) (by rw [hstk])
  | suspend tid mask =>
    obtain ⟨m, hm, rfl⟩ := map_eq_some_iff.mp hstep
    exact h.setSignals (running hm) rfl
  | resume tid =>
    simp only [Table.step] at hstep
    split at hstep
    · rename_i m hm
      obtain ⟨previous, hprev, rfl⟩ := map_eq_some_iff.mp hstep
      refine h.setSignals hm ?_
      have hnot : ¬(m.signals.deliverable ≠ 0 ∧ previous &&& sigmask (pick m.signals.deliverable) ≠ 0) := fun hboth =>
        hboth.2 (hkps tid rfl m hm previous hprev hboth.1)
      exact if_neg hnot
    · cases hstep
  | dispatch tid rights retToApp memory context fault =>
    simp only [Table.step, ite_none_right_eq_some] at hstep
    obtain ⟨m, hm, rfl⟩ := map_eq_some_iff.mp hstep.2
    exact h.dispatch (running hm)
  | restore tid cpu rights memory address context =>
    obtain ⟨m, hm, rfl⟩ := map_eq_some_iff.mp hstep
    refine h.setSignals (running hm) ?_
    rcases userSignalRestore_spec cpu rights m.signals memory address context with ⟨-, -, -, -, -, hres⟩ | ⟨-, hres⟩
    · rw [hres]
    · rw [hres]
  | create creator tid =>
    simp only [Table.step, ite_none_right_eq_some] at hstep
    obtain ⟨m, hm, rfl⟩ := map_eq_some_iff.mp hstep.2
    exact h.add (.clear rfl rfl _) (.inr (h.leader creator m (running hm)))
  | fork creator tid =>
    simp only [Table.step, ite_none_right_eq_some] at hstep
    obtain ⟨m, -, rfl⟩ := map_eq_some_iff.mp hstep.2
    exact h.addProcess hstep.1 rfl (.clear rfl rfl _)
  | start tid =>
    simp only [Table.step, ite_none_right_eq_some, Option.some.injEq] at hstep
    obtain ⟨hfree, rfl⟩ := hstep
    exact h.addProcess hfree rfl (.clear rfl rfl _)
  | exit tid =>
    simp only [Table.step, ite_none_right_eq_some, Option.some.injEq] at hstep
    obtain ⟨hgrp, rfl⟩ := hstep
    exact h.exit hgrp

end Inv

def lone : Table where
  slots := 2
  threads tid := if tid = 1 then some ⟨1, fresh 0, none, false, fun _ => []⟩ else none
  actions _ sig := if sig = 10 then ⟨0x100001000, 0, 0⟩ else Action.zero

lemma lone_initial : lone.initial := by
  intro tid m hm
  simp only [lone, ite_none_right_eq_some, Option.some.injEq] at hm
  obtain ⟨rfl, rfl⟩ := hm
  exact ⟨rfl, rfl, by decide, rfl⟩

def handled : Table :=
  sys.replay lone [.send 1 10, .dispatch 1 Thread.allRights 0x100003000 (fun _ => 0)
  (Thread.contextAt 0x100000000 0x200000000) none]

/-- The signal is blocked when it comes, and the thread waits for it. -/
def waited : Table := sys.replay lone [.mask 1 0 (some (some (sigmask 10))) none, .send 1 10, .suspend 1 0, .resume 1]

end Table

end PlantOS.Signal
