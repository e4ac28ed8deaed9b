import Mathlib.Algebra.Group.Nat.Defs
import Mathlib.Data.List.Nodup
import PlantOS.Lib.Run

/-!
# Nested calls

`rpc.c`: the calls of one process. A call that waits for its reply serves requests in the meantime, and their handlers
may call again. A step is a call, one message of the loop in `rpc_wait_reply`, or the end of a handler.
-/

namespace PlantOS.Libp.Rpc

open Lib

/-- `RPC_MAX_NESTING` -/
abbrev maxNesting : ℕ := 8

/-- `RPC_MAX_PAYLOAD` -/
abbrev maxPayload : ℕ := 4096 - 12

/-- `RPC_KERNEL_CALL` -/
abbrev kernelCall : ℕ := 0x80000000

/-- `RPC_TYPE_REQUEST`, `RPC_TYPE_REPLY`, `RPC_TYPE_NOTIFY`, and every other type -/
inductive Kind
  | request | reply | notify | other
  deriving DecidableEq, Repr

/-- What follows the header of a message: the fields of `rpc_wire_t` that a caller reads, and the bytes behind it -/
structure Body where
  status : ℤ
  len : ℕ
  bytes : List UInt8
  deriving DecidableEq, Repr

/-- A message that `ipc_recv_any` returns; `body` is `none` if it is shorter than an `rpc_wire_t`. -/
structure Message where
  kind : Kind
  id : ℕ
  body : Option Body
  deriving DecidableEq, Repr

structure Reply where
  status : ℤ
  payload : List UInt8
  deriving DecidableEq, Repr

def Body.reply (b : Body) : Reply := ⟨b.status, b.bytes.take b.len⟩

structure Outcome where
  status : ℤ
  payload : List UInt8
  deriving DecidableEq, Repr

/-- A reply that is longer than the buffer gives `RPC_ERR_TOOBIG`. -/
def Reply.outcome (r : Reply) (cap : ℕ) : Outcome := if r.payload.length > cap then ⟨-104, []⟩ else ⟨r.status, r.payload⟩

/-- `rpc_map_ipc_error` -/
def mapIpcError (rc : ℤ) : ℤ :=
  if rc = -2 then -101
  else if rc = -8 then -103
  else if rc = -5 then -104
  else if rc = -7 then -107
  else if rc = -3 then -108
  else if rc = -1 then -100
  else -105

/-- One slot of `rpc_stash` that is in use -/
structure Stashed where
  id : ℕ
  reply : Reply
  deriving DecidableEq, Repr

/-- A call of `rpc_call_tid` that has sent its request and has not returned -/
structure Call where
  id : ℕ
  cap : ℕ
  deadline : Option ℕ
  /-- it has dispatched a request, and the handler runs -/
  handling : Bool
  /-- the first reply to it that the process has received before its deadline; no code reads it -/
  answer : Option Reply
  deriving DecidableEq, Repr

structure Result where
  id : ℕ
  cap : ℕ
  outcome : Outcome
  answer : Option Reply
  deriving DecidableEq, Repr

structure State where
  /-- the calls of the process, the innermost one first -/
  stack : List Call
  /-- `rpc_outstanding` up to `rpc_depth`, the innermost one first -/
  outstanding : List ℕ
  nextId : ℕ
  stash : List (Option Stashed)
  clock : ℕ
  /-- the calls that have returned, and the replies that calls have returned with, as pairs of the id of the reply and
  the id of the call; no code reads them -/
  results : List Result
  consumed : List (ℕ × ℕ)
  deriving DecidableEq, Repr

/-- `(int)(now - deadline) >= 0` -/
def passed (now deadline : ℕ) : Bool := (now + 2 ^ 32 - deadline) % 2 ^ 32 < 2 ^ 31

namespace Call

def expired (c : Call) (now : ℕ) : Bool :=
  match c.deadline with
  | some deadline => passed now deadline
  | none => false

def note (c : Call) (now : ℕ) (reply : Reply) : Call :=
  if c.answer = none ∧ !c.expired now then { c with answer := some reply } else c

end Call

/-- `rpc_stash_put`; `malloc` may fail -/
def stashPut (id : ℕ) (reply : Reply) (mallocOk : Bool) : List (Option Stashed) → List (Option Stashed)
  | [] => []
  | some slot :: slots => some slot :: stashPut id reply mallocOk slots
  | none :: slots => (if reply.payload ≠ [] ∧ !mallocOk then none else some ⟨id, reply⟩) :: slots

/-- `rpc_stash_take` -/
def stashTake (id : ℕ) : List (Option Stashed) → Option (Reply × List (Option Stashed))
  | [] => none
  | some slot :: slots =>
    if slot.id = id then some (slot.reply, none :: slots)
    else (stashTake id slots).map fun taken => (taken.1, some slot :: taken.2)
  | none :: slots => (stashTake id slots).map fun taken => (taken.1, none :: taken.2)

namespace State

variable (s : State)

/-- User code runs: no call waits in `ipc_recv_any`. -/
def userRuns : Bool :=
  match s.stack with
  | [] => true
  | c :: _ => c.handling

def pop (c : Call) (rest : List Call) (outcome : Outcome) : State :=
  { s with stack := rest, outstanding := s.outstanding.tail, results := ⟨c.id, c.cap, outcome, c.answer⟩ :: s.results }

def noted (id : ℕ) (reply : Reply) : List Call → List Call
  | [] => []
  | c :: rest => if c.id = id then c.note s.clock reply :: rest else c :: noted id reply rest

def other (id : ℕ) (reply : Reply) (mallocOk : Bool) : State :=
  if id ∈ s.outstanding then
    { s with stash := stashPut id reply mallocOk s.stash, stack := s.noted id reply s.stack }
  else s

def bump : State :=
  { s with nextId := if (s.nextId + 1) % 2 ^ 32 = kernelCall then 1 else (s.nextId + 1) % 2 ^ 32 }

def deadline (timeout : ℕ) : Option ℕ := if timeout ≠ 0 then some ((s.clock + timeout) % 2 ^ 32) else none

/-- `rpc_call_tid`; `sent` is what `ipc_send_msg` returns. -/
def call (argLen : ℕ) (noArg : Bool) (cap timeout : ℕ) (sent : ℤ) : State :=
  let refuse (status : ℤ) : State := { s with results := ⟨0, cap, ⟨status, []⟩, none⟩ :: s.results }
  if argLen > maxPayload then refuse (-104)
  else if argLen ≠ 0 ∧ noArg then refuse (-100)
  else if s.outstanding.length ≥ maxNesting then refuse (-106)
  else
    let c : Call := ⟨s.nextId, cap, s.deadline timeout, false, none⟩
    let s := { s.bump with outstanding := c.id :: s.outstanding }
    if sent ≠ 0 then s.pop c s.stack ⟨mapIpcError sent, []⟩
    else
      match stashTake c.id s.stash with
      | some (reply, stash) =>
        ({ s with stash, consumed := (c.id, c.id) :: s.consumed }).pop { c with answer := some reply } s.stack
        (reply.outcome cap)
      | none => { s with stack := c :: s.stack }

/-- What `rpc_wait_reply` does with a message; `handled` says that the opcode of a request has a handler. -/
def message (c : Call) (rest : List Call) (m : Message) (handled mallocOk : Bool) : State :=
  match m.body, m.kind with
  | none, _ => s
  | some body, .reply =>
    if m.id = c.id then
      ({ s with consumed := (m.id, c.id) :: s.consumed }).pop (c.note s.clock body.reply) rest (body.reply.outcome c.cap)
    else s.other m.id body.reply mallocOk
  | some _, .request | some _, .notify => if handled then { s with stack := { c with handling := true } :: rest } else s
  | some _, .other => s

/-- One pass of the loop in `rpc_wait_reply`; `rc` is what `ipc_recv_any` returns. -/
def receive (rc : ℤ) (m : Message) (handled mallocOk : Bool) : Option State :=
  match s.stack with
  | [] => none
  | c :: rest =>
    if c.handling then none
    else if c.expired s.clock then some (s.pop c rest ⟨-103, []⟩)
    else if rc < 0 then some (s.pop c rest ⟨mapIpcError rc, []⟩)
    else some (s.message c rest m handled mallocOk)

end State

inductive Event
  /-- user code calls `rpc_call_tid` -/
  | call (argLen : ℕ) (noArg : Bool) (cap timeout : ℕ) (sent : ℤ)
  /-- the innermost call waits, and gets a message or an error -/
  | receive (rc : ℤ) (m : Message) (handled mallocOk : Bool)
  /-- the handler that the innermost call has dispatched returns -/
  | handled
  /-- user code calls `rpc_serve_once`; the handler that it may dispatch is user code again -/
  | serve (rc : ℤ) (m : Message) (mallocOk : Bool)
  /-- time passes -/
  | tick (n : ℕ)

def State.step (s : State) : Event → Option State
  | .call argLen noArg cap timeout sent => if s.userRuns then some (s.call argLen noArg cap timeout sent) else none
  | .receive rc m handled mallocOk => s.receive rc m handled mallocOk
  | .handled =>
    match s.stack with
    | c :: rest => if c.handling then some { s with stack := { c with handling := false } :: rest } else none
    | [] => none
  | .serve rc m mallocOk =>
    if s.userRuns then
      match m.body with
      | some body => some (if 0 ≤ rc ∧ m.kind = .reply then s.other m.id body.reply mallocOk else s)
      | none => some s
    else none
  | .tick n => some { s with clock := (s.clock + n) % 2 ^ 32 }

def sys : System State Event where
  init s := s.stack = [] ∧ s.outstanding = [] ∧ s.nextId = 1 ∧ s.stash = List.replicate maxNesting none ∧ s.clock < 2 ^ 32 ∧
    s.results = [] ∧ s.consumed = []
  step := State.step

/-- The message is a reply to a call that is outstanding, and the call does not wait for it. -/
def Foreign (s : State) (m : Message) : Prop :=
  m.kind = .reply ∧ m.body ≠ none ∧ m.id ∈ s.outstanding ∧
    ∀ c rest, s.stack = c :: rest → c.handling = false → m.id ≠ c.id

/-- No reply to a call is received while user code runs inside the call, or another call waits there. -/
def Own (s : State) : Event → Prop
  | .receive rc m _ _ => (∃ c rest, s.stack = c :: rest ∧ c.expired s.clock = false) → 0 ≤ rc → ¬Foreign s m
  | .serve rc m _ => 0 ≤ rc → ¬Foreign s m
  | _ => True

/-! ### The invariant -/

structure Inv (s : State) : Prop where
  outstanding : s.outstanding = s.stack.map Call.id
  handling : ∀ c rest, s.stack = c :: rest → ∀ d ∈ rest, d.handling = true
  answer : ∀ c ∈ s.stack, c.answer = none
  stash : s.stash = List.replicate maxNesting none
  results : ∀ r ∈ s.results, ∀ reply, r.answer = some reply → r.outcome = reply.outcome r.cap
  consumed : ∀ pair ∈ s.consumed, pair.1 = pair.2

variable {s s' : State}

lemma stashTake_replicate (id n : ℕ) : stashTake id (List.replicate n none) = none := by
  induction n with
  | zero => rfl
  | succ n ih =>
    rw [List.replicate_succ]
    unfold stashTake
    rw [ih]
    rfl

lemma note_answer {c : Call} (hnone : c.answer = none) {now : ℕ} (hnot : c.expired now = false) (reply : Reply) :
    (c.note now reply).answer = some reply := by
  unfold Call.note
  rw [hnot, if_pos ⟨hnone, rfl⟩]

/-- **The innermost call returns**, with its reply or without one. -/
lemma Inv.pop (h : Inv s) {c d : Call} {rest : List Call} {consumed : List (ℕ × ℕ)} (hstk : s.stack = c :: rest)
    {outcome : Outcome} (hans : ∀ reply, d.answer = some reply → outcome = reply.outcome d.cap)
    (hcons : ∀ pair ∈ consumed, pair.1 = pair.2) : Inv ({ s with consumed }.pop d rest outcome) := by
  have hinn := h.handling c rest hstk
  refine ⟨?_, fun c' rest' hrest d' hd' => hinn d' ?_, fun d' hd' => h.answer d' ?_, h.stash, fun r hr => ?_, hcons⟩
  · unfold State.pop
    dsimp only
    rw [h.outstanding, hstk]
    rfl
  · have heq : rest = c' :: rest' := hrest
    rw [heq]
    exact .tail _ hd'
  · rw [hstk]
    exact .tail _ hd'
  · rcases List.mem_cons.mp hr with rfl | hmem
    · exact hans
    · exact h.results r hmem

lemma other_of_not {id : ℕ} (hnot : id ∉ s.outstanding) (reply : Reply) (mallocOk : Bool) : s.other id reply mallocOk = s := by
  unfold State.other
  rw [if_neg hnot]

lemma Inv.call (h : Inv s) (huser : s.userRuns = true) (argLen : ℕ) (noArg : Bool) (cap timeout : ℕ) (sent : ℤ) :
    Inv (s.call argLen noArg cap timeout sent) := by
  have href : ∀ status, Inv { s with results := ⟨0, cap, ⟨status, []⟩, none⟩ :: s.results } := fun status => by
    refine { h with results := fun r hr => ?_ }
    rcases List.mem_cons.mp hr with rfl | hmem
    · exact fun reply heq => nomatch heq
    · exact h.results r hmem
  unfold State.call
  dsimp only
  split_ifs with hlen harg hdep hsent
  · exact href _
  · exact href _
  · exact href _
  · -- the request is not sent
    refine { h with results := fun r hr => ?_ }
    rcases List.mem_cons.mp hr with rfl | hmem
    · exact fun reply heq => nomatch heq
    · exact h.results r hmem
  · -- no reply is there before the call
    have htake : stashTake s.nextId s.bump.stash = none := by
      rw [show s.bump.stash = s.stash from rfl, h.stash]
      exact stashTake_replicate ..
    rw [htake]
    refine ⟨?_, fun c rest hstk d hd => ?_, fun c hc => ?_, h.stash, h.results, h.consumed⟩
    · dsimp only
      rw [List.map_cons]
      exact congrArg _ h.outstanding
    · cases hstk
      unfold State.userRuns at huser
      change d ∈ s.stack at hd
      cases hs : s.stack with
      | nil =>
        rw [hs] at hd
        cases hd
      | cons c' rest' =>
        rw [hs] at hd huser
        rcases List.mem_cons.mp hd with rfl | hmem
        · exact huser
        · exact h.handling c' rest' hs d hmem
    · rcases List.mem_cons.mp hc with rfl | hmem
      · rfl
      · exact h.answer c hmem

lemma Inv.turn (h : Inv s) {c : Call} {rest : List Call} (hstk : s.stack = c :: rest) (handling : Bool) :
    Inv { s with stack := { c with handling } :: rest } := by
  have hmap : s.outstanding = c.id :: rest.map Call.id := by
    rw [h.outstanding, hstk]
    rfl
  refine ⟨hmap, fun c' rest' heq d hd => ?_, fun d hd => ?_, h.stash, h.results, h.consumed⟩
  · cases heq
    exact h.handling c rest hstk d hd
  · rcases List.mem_cons.mp hd with rfl | hmem
    · exact h.answer c (hstk ▸ List.mem_cons_self)
    · exact h.answer d (hstk ▸ .tail _ hmem)

lemma Inv.message (h : Inv s) {c : Call} {rest : List Call} (hstk : s.stack = c :: rest) (hnot : c.expired s.clock = false)
    {m : Message} (hown : ¬Foreign s m) (handled mallocOk : Bool) :
    Inv (s.message c rest m handled mallocOk) := by
  unfold State.message
  split
  · exact h
  · rename_i body hbody hkind
    split_ifs with hid
    · -- the reply to the call
      have hans := note_answer (h.answer c (hstk ▸ List.mem_cons_self)) hnot body.reply
      have hcap : (c.note s.clock body.reply).cap = c.cap := by
        unfold Call.note
        split_ifs <;> rfl
      refine h.pop hstk (fun reply heq => ?_) fun pair hpair => ?_
      · rw [hans] at heq
        cases heq
        rw [hcap]
      · rcases List.mem_cons.mp hpair with rfl | hmem
        · exact hid
        · exact h.consumed pair hmem
    · rw [other_of_not]
      · exact h
      · refine fun hmem => hown ⟨hkind, by rw [hbody]; exact nofun, hmem, fun c' rest' heq _ => ?_⟩
        cases hstk.symm.trans heq
        exact hid
  · split_ifs
    · exact h.turn hstk true
    · exact h
  · split_ifs
    · exact h.turn hstk true
    · exact h
  · exact h

/-- **What one step preserves.** -/
theorem Inv.step (h : Inv s) {e : Event} (hown : Own s e) (he : s.step e = some s') : Inv s' := by
  cases e with
  | call argLen noArg cap timeout sent =>
    simp only [State.step, Option.ite_none_right_eq_some] at he
    cases he.2
    exact h.call he.1 argLen noArg cap timeout sent
  | receive rc m handled mallocOk =>
    simp only [State.step, State.receive] at he
    split at he
    · cases he
    · rename_i c rest hstk
      have hfail : ∀ status, Inv (s.pop c rest ⟨status, []⟩) := fun status =>
        h.pop hstk (fun reply heq => by
          rw [h.answer c (hstk ▸ List.mem_cons_self)] at heq
          cases heq) h.consumed
      split_ifs at he with hhan hexp hrc
      · cases he
        exact hfail _
      · cases he
        exact hfail _
      · cases he
        have hnot := Bool.eq_false_iff.mpr hexp
        exact h.message hstk hnot (hown ⟨c, rest, hstk, hnot⟩ (Int.not_lt.mp hrc)) handled mallocOk
  | handled =>
    simp only [State.step] at he
    split at he
    · rename_i c rest hstk
      rw [Option.ite_none_right_eq_some] at he
      cases he.2
      exact h.turn hstk false
    · cases he
  | serve rc m mallocOk =>
    simp only [State.step, Option.ite_none_right_eq_some] at he
    obtain ⟨huser, he⟩ := he
    split at he
    · rename_i body hbody
      cases he
      split_ifs with hrep
      · rw [other_of_not]
        · exact h
        · refine fun hmem => hown hrep.1 ⟨hrep.2, by rw [hbody]; exact nofun, hmem, fun c rest hstk hwts => ?_⟩
          unfold State.userRuns at huser
          rw [hstk] at huser
          cases hwts.symm.trans huser
      · exact h
    · cases he
      exact h
  | tick n =>
    cases he
    exact { h with }

lemma guarded_inv (h : sys.Guarded Own s) : Inv s := by
  refine h.invariant (fun s hs => ?_) fun _ _ _ hinv hown he => hinv.step hown he
  obtain ⟨hstk, hout, -, hstas, -, hres, hcons⟩ := hs
  refine ⟨by rw [hout, hstk]; rfl, fun c rest heq => ?_, fun c hc => ?_, hstas, fun r hr => ?_, fun pair hpair => ?_⟩
  · cases hstk.symm.trans heq
  · rw [hstk] at hc
    cases hc
  · rw [hres] at hr
    cases hr
  · rw [hcons] at hpair
    cases hpair

/-! ### Replies -/

/-- A call that has received its reply does not wait, and has returned with that reply; a reply is consumed by the
call with its id; and without a call no slot of the stash is in use. -/
structure Contract (s : State) : Prop where
  waits : ∀ c rest, s.stack = c :: rest → c.handling = false → c.answer = none
  results : ∀ r ∈ s.results, ∀ reply, r.answer = some reply → r.outcome = reply.outcome r.cap
  consumed : ∀ pair ∈ s.consumed, pair.1 = pair.2
  stash : s.outstanding = [] → ∀ slot ∈ s.stash, slot = none

/-- **Nested calls**, in runs in which no reply to a call is received while user code runs inside that call. -/
theorem replies_are_returned (h : sys.Guarded Own s) : Contract s := by
  have hinv := guarded_inv h
  refine ⟨fun c rest hstack _ => ?_, hinv.results, hinv.consumed, fun _ slot hslot => ?_⟩
  · exact hinv.answer c (hstack ▸ List.mem_cons_self)
  · rw [hinv.stash] at hslot
    exact List.eq_of_mem_replicate hslot

def fresh : State := ⟨[], [], 1, List.replicate maxNesting none, 0, [], []⟩

lemma fresh_init : sys.init fresh := ⟨rfl, rfl, rfl, rfl, Nat.two_pow_pos 32, rfl, rfl⟩

def replyTo (id : ℕ) : Message := ⟨.reply, id, some ⟨0, 0, []⟩⟩

/-- A call waits for two seconds, and a request comes whose handler calls again. -/
def nested : List Event := [.call 0 false 0 2000 0, .receive 0 ⟨.request, 7, some ⟨0, 0, []⟩⟩ true true, .call 0 false 0 2000 0]

/-- The reply to the inner call comes first. -/
theorem replies_are_returned_inner : ∃ s : State, s.results.map (fun r => (r.id, r.outcome.status)) = [(1, 0), (2, 0)] ∧
    Contract s := by
  have hmeets : sys.Meets Own fresh (nested ++ [.receive 0 (replyTo 2) false true, .handled,
    .receive 0 (replyTo 1) false true]) := by
    refine ⟨trivial, fun _ _ hforeign => (nomatch hforeign.1), trivial, fun _ _ hforeign => ?_, trivial, fun _ _ hforeign => ?_,
      trivial⟩
    · exact hforeign.2.2.2 _ _ rfl rfl rfl
    · exact hforeign.2.2.2 _ _ rfl rfl rfl
  exact ⟨_, rfl, replies_are_returned (System.after_guarded (.init fresh_init) hmeets)⟩

/-- **The reply to the outer call comes first**: the inner call puts it into the stash, and nobody takes it. The outer
call waits until its time is over, and the slot stays in use. -/
theorem outer_reply_is_lost : ¬∀ s, sys.Reachable s → Contract s := by
  intro hclaim
  have hreachable := System.replay_reachable (.init fresh_init) (nested ++ [.receive 0 (replyTo 1) false true,
    .receive 0 (replyTo 2) false true, .handled])
  have hwaits := (hclaim _ hreachable).waits _ _ rfl rfl
  cases hwaits

example : (sys.after fresh (nested ++ [.receive 0 (replyTo 1) false true, .receive 0 (replyTo 2) false true, .handled,
    .tick 2000,
    .receive 0 (replyTo 1) false true])).stash.head? = some (some ⟨1, ⟨0, []⟩⟩) := by rfl

end PlantOS.Libp.Rpc
