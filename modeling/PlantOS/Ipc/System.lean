import Mathlib.Data.List.FinRange
import Mathlib.Data.List.MinMax
import PlantOS.Sched.Identity

/-!
# Message queues

The queue that every task owns, and one pass of the loops of `ipc_send` and `ipc_recv`: a pass runs under the
kernel lock, and a call that has to wait starts its next pass when it is woken. Which task is woken when is
left to the scheduler: a pass may follow at any time.
-/

namespace PlantOS.Ipc

open PlantOS.Task (taskIdNone)
open PlantOS.Sched (taskSlotInUse uintMax)

/-! ### Constants -/

def maxIpcMessage : ℕ := 16

def ipcMaxMsgSize : ℕ := 4096

def ipcAnyTid : ℕ := uintMax

def ipcTickMs : ℕ := 10

def rpcTypeReply : ℕ := 2

def rpcKernelCall : ℕ := 0x80000000

/-- `sizeof(rpc_wire_t)` -/
def rpcWireSize : ℕ := 12

def rpcErrNoService : ℤ := -101

def rpcErrTimeout : ℤ := -103

def rpcErrToobig : ℤ := -104

def rpcErrTransport : ℤ := -105

/-- The errors `IPC_ERR_*` of `ipc_send`, `ipc_recv` and `ipc_peek`. -/
inductive IpcError
  | inval | notask | full | empty | toobig | nomem | timeout
  deriving DecidableEq, Repr

/-! ### The queue -/

/-- `IPCMessage`; the payload is the address of a block of the kernel heap. `ticket` is a ghost that no code
reads: the number of the send that has filled the slot. -/
structure IpcMessage where
  used : Bool
  data : Option ℕ
  size : ℕ
  fromTid : ℕ
  fromGeneration : ℕ
  type : ℕ
  id : ℕ
  seq : ℕ
  ticket : ℕ
  deriving DecidableEq, Repr

def IpcMessage.free : IpcMessage := ⟨false, none, 0, taskIdNone, 0, 0, 0, 0, 0⟩

/-- `struct rpc_pending`; the server is its `tid` and its generation. -/
structure RpcPending where
  server : ℕ × ℕ
  id : ℕ
  opcode : ℕ
  deadline : ℕ
  reply : List UInt8
  capacity : ℕ
  length : ℕ
  status : ℤ
  completed : Bool

structure IpcHeader where
  count : ℕ
  seq : ℕ
  messages : Fin maxIpcMessage → IpcMessage
  rpc : Option RpcPending

def ipcHeaderInit : IpcHeader := ⟨0, 0, fun _ => .free, none⟩

namespace IpcHeader

/-- `ipc_drop_message`, without the `free` of the payload. -/
def ipcDropMessage (ipc : IpcHeader) (i : Fin maxIpcMessage) : IpcHeader :=
  { ipc with messages := Function.update ipc.messages i .free, count := ipc.count - 1 }

def accepts (fromFilter tid : ℕ) : Bool := fromFilter = ipcAnyTid || tid = fromFilter

def ipcFindOldest (ipc : IpcHeader) (fromFilter : ℕ) : Option (Fin maxIpcMessage) :=
  ((List.finRange maxIpcMessage).filter fun i =>
    (ipc.messages i).used && accepts fromFilter (ipc.messages i).fromTid).argmin fun i => (ipc.messages i).seq

def ipcFindFree (ipc : IpcHeader) : Option (Fin maxIpcMessage) :=
  (List.finRange maxIpcMessage).find? fun i => !(ipc.messages i).used

def slots (ipc : IpcHeader) : List (Fin maxIpcMessage) :=
  (List.finRange maxIpcMessage).filter fun i => (ipc.messages i).used

variable {ipc : IpcHeader} {i j : Fin maxIpcMessage} {fromFilter : ℕ}

@[simp] lemma mem_slots : i ∈ ipc.slots ↔ (ipc.messages i).used = true := by
  simp [slots]

lemma slots_nodup : ipc.slots.Nodup := (List.nodup_finRange _).filter _

lemma ipcFindFree_some (h : ipc.ipcFindFree = some i) : (ipc.messages i).used = false := by
  simpa using List.find?_some h

lemma ipcFindOldest_some (h : ipc.ipcFindOldest fromFilter = some i) :
    (ipc.messages i).used = true ∧ accepts fromFilter (ipc.messages i).fromTid = true ∧
      ∀ j, (ipc.messages j).used = true → accepts fromFilter (ipc.messages j).fromTid = true →
        (ipc.messages i).seq ≤ (ipc.messages j).seq := by
  unfold ipcFindOldest at h
  have hmem := List.argmin_mem h
  simp only [List.mem_filter, List.mem_finRange, true_and, Bool.and_eq_true] at hmem
  refine ⟨hmem.1, hmem.2, fun j hused hacc => ?_⟩
  have hj : j ∈ (List.finRange maxIpcMessage).filter fun i =>
      (ipc.messages i).used && accepts fromFilter (ipc.messages i).fromTid := by
    simp [hused, hacc]
  exact List.le_of_mem_argmin (f := fun i => (ipc.messages i).seq) hj h

lemma length_slots_fill {m : IpcMessage} (hfree : (ipc.messages i).used = false) (hm : m.used = true) {ipc' : IpcHeader}
    (h : ipc'.messages = Function.update ipc.messages i m) : ipc'.slots.length = ipc.slots.length + 1 := by
  have hperm : ipc'.slots.Perm (i :: ipc.slots) := by
    refine (List.perm_ext_iff_of_nodup slots_nodup ?_).mpr fun j => ?_
    · refine List.nodup_cons.mpr ⟨?_, slots_nodup⟩
      simp [hfree]
    · by_cases hj : j = i
      · simp [h, hj, hm]
      · simp [h, hj]
  simpa using hperm.length_eq

lemma length_slots_clear (hused : (ipc.messages i).used = true) {m : IpcMessage} (hm : m.used = false) {ipc' : IpcHeader}
    (h : ipc'.messages = Function.update ipc.messages i m) : ipc.slots.length = ipc'.slots.length + 1 := by
  refine length_slots_fill (i := i) (m := ipc.messages i) (by simp [h, hm]) hused ?_
  rw [h]
  simp

end IpcHeader

/-- `ipc_deadline`, at the time `now` of `timerctl.count` -/
def ipcDeadline (now timeoutMs : ℕ) : ℕ :=
  let ticks := (timeoutMs + ipcTickMs - 1) % (uintMax + 1) / ipcTickMs
  (now + if ticks = 0 then 1 else ticks) % (uintMax + 1)

def ipcDeadlinePassed (now deadline : ℕ) : Bool :=
  (now + (uintMax + 1) - deadline) % (uintMax + 1) < (uintMax + 1) / 2

/-! ### Calls -/

/-- The arguments of `ipc_send`; `data` is what stands at the address, if there is one. -/
structure SendArgs where
  toTid : ℕ
  toGeneration : ℕ
  type : ℕ
  id : ℕ
  data : Option (ℕ → UInt8)
  size : ℕ
  nowait : Bool
  timeoutMs : ℕ

def SendArgs.kernelReply (args : SendArgs) : Bool := args.type = rpcTypeReply && args.id &&& rpcKernelCall ≠ 0

def SendArgs.bytes (args : SendArgs) : List UInt8 :=
  match args.data with
  | none => []
  | some data => (List.range args.size).map data

/-- The arguments of `ipc_recv`; `buffer`: there is a buffer. -/
structure RecvArgs where
  buffer : Bool
  bufsize : ℕ
  fromFilter : ℕ
  nowait : Bool
  timeoutMs : ℕ

/-- `ipc_msg_info_t` -/
structure IpcMsgInfo where
  fromTid : ℕ
  fromGeneration : ℕ
  type : ℕ
  id : ℕ
  size : ℕ
  deriving DecidableEq, Repr

def IpcMessage.info (m : IpcMessage) : IpcMsgInfo := ⟨m.fromTid, m.fromGeneration, m.type, m.id, m.size⟩

def wireWord (data : ℕ → UInt8) (offset : ℕ) : ℕ :=
  (data offset).toNat + (data (offset + 1)).toNat * 2 ^ 8 + (data (offset + 2)).toNat * 2 ^ 16 +
    (data (offset + 3)).toNat * 2 ^ 24

/-- The part of `ipc_send` that hands a reply to the call it answers. -/
def rpcReply (call : RpcPending) (now : ℕ) (args : SendArgs) : RpcPending :=
  let answered :=
    if ipcDeadlinePassed now call.deadline then { call with status := rpcErrTimeout }
    else
      match args.data with
      | none => { call with status := rpcErrTransport }
      | some data =>
        let len := wireWord data 8
        if args.size < rpcWireSize ∨ wireWord data 0 ≠ call.opcode ∨ len ≠ args.size - rpcWireSize then
          { call with status := rpcErrTransport }
        else if len > call.capacity then { call with status := rpcErrToobig }
        else
          { call with
            status := Int.bmod (wireWord data 4) (2 ^ 32)
            reply := (List.range len).map (fun i => data (rpcWireSize + i)) ++ call.reply.drop len
            length := len }
  { answered with completed := true }

/-! ## Messages between tasks -/

open Function (update)

open PlantOS.Sched (Mtask Registry RegistryEvent)

/-! ### The state -/

/-- A message for which `ipc_send` has returned `IPC_OK`: the `tid` and the generation that the call asks for, those
of the task that has it then and of its sender, and what is in it. -/
structure Letter where
  toTid : ℕ
  toGeneration : ℕ
  receiver : ℕ × ℕ
  sender : ℕ × ℕ
  type : ℕ
  id : ℕ
  bytes : List UInt8

/-- The task that has the message is the one that the call asks for; the generation 0 asks for any. -/
def Letter.Addressed (l : Letter) : Prop :=
  l.receiver.1 = l.toTid ∧ (l.toGeneration ≠ 0 → l.receiver.2 = l.toGeneration)

def Letter.kernelReply (l : Letter) : Bool := l.type = rpcTypeReply && l.id &&& rpcKernelCall ≠ 0

/-- A message that `ipc_recv` has returned. -/
structure Receipt where
  ticket : ℕ
  receiver : ℕ × ℕ
  fromFilter : ℕ
  info : IpcMsgInfo
  /-- what has been copied to the buffer, if there is one -/
  copied : Option (List UInt8)

structure Discard where
  ticket : ℕ
  task : ℕ × ℕ

inductive Call
  | send (args : SendArgs) (deadline : ℕ)
  | recv (args : RecvArgs) (deadline : ℕ)

structure State where
  registry : Registry
  header : ℕ → IpcHeader
  /-- the blocks of the kernel heap that hold payloads -/
  payload : ℕ → Option (List UInt8)
  /-- `timerctl.count` -/
  now : ℕ
  rpcNextId : ℕ
  call : ℕ → Option Call
  sent : List Letter
  received : List Receipt
  discarded : List Discard

namespace State

variable (s : State)

def slot (t : ℕ) : Mtask := s.registry.kernel.slot t

/-- The `tid` and the generation of a task. -/
def identity (t : ℕ) : ℕ × ℕ := ((s.slot t).tid, (s.slot t).generation)

def message (t : ℕ) (i : Fin maxIpcMessage) : IpcMessage := (s.header t).messages i

def setHeader (t : ℕ) (ipc : IpcHeader) : State := { s with header := update s.header t ipc }

def getTask (tid : ℕ) : Option Mtask :=
  if tid < s.registry.kernel.slotCount ∧ taskSlotInUse (s.slot tid) then some (s.slot tid) else none

/-- `free` -/
def freeBlock (payload : ℕ → Option (List UInt8)) : Option ℕ → ℕ → Option (List UInt8)
  | none => payload
  | some p => update payload p none

/-! ### Sending -/

/-- `ipc_send` puts the message into a free slot. -/
def enqueue (t : ℕ) (args : SendArgs) (i : Fin maxIpcMessage) (data : Option ℕ) : State :=
  let ipc := s.header args.toTid
  let m : IpcMessage :=
    { used := true
      data := data
      size := args.size
      fromTid := (s.slot t).tid
      fromGeneration := (s.slot t).generation
      type := args.type
      id := args.id
      seq := ipc.seq
      ticket := s.sent.length }
  let ipc' := { ipc with messages := update ipc.messages i m, seq := ipc.seq + 1, count := ipc.count + 1 }
  { s.setHeader args.toTid ipc' with
    payload := match data with
      | none => s.payload
      | some p => update s.payload p (some args.bytes) }

/-- `ipc_send` up to its loop: what it returns, if it does not enter the loop. -/
def ipcSend (t : ℕ) (args : SendArgs) : Option (Except IpcError Unit) × State :=
  if args.size > ipcMaxMsgSize then (some (.error .toobig), s)
  else if args.size ≠ 0 ∧ args.data.isNone then (some (.error .inval), s)
  else if args.kernelReply then
    match s.getTask args.toTid with
    | none => (some (.error .notask), s)
    | some target =>
      if target.state = .died ∨ target.generation ≠ args.toGeneration then (some (.error .notask), s)
      else
        match (s.header args.toTid).rpc with
        | none => (some (.ok ()), s)
        | some call =>
          if call.completed ∨ call.id ≠ args.id ∨ call.server ≠ s.identity t then (some (.ok ()), s)
          else
            (some (.ok ()),
              s.setHeader args.toTid { s.header args.toTid with rpc := some (rpcReply call s.now args) })
  else (none, s)

/-- A pass of the loop of `ipc_send`: what it returns, if it does not wait; `memory` is what `malloc` gives. -/
def ipcSendPass (t : ℕ) (args : SendArgs) (deadline : ℕ) (memory : Option ℕ) :
    Option (Except IpcError Unit) × State :=
  match s.getTask args.toTid with
  | none => (some (.error .notask), s)
  | some target =>
    if target.state = .died ∨ (args.toGeneration ≠ 0 ∧ target.generation ≠ args.toGeneration) then
      (some (.error .notask), s)
    else
      match (s.header args.toTid).ipcFindFree with
      | some i =>
        if args.size = 0 then (some (.ok ()), s.enqueue t args i none)
        else
          match memory with
          | none => (some (.error .nomem), s)
          | some p => (some (.ok ()), s.enqueue t args i (some p))
      | none =>
        if args.nowait then (some (.error .full), s)
        else if args.timeoutMs ≠ 0 ∧ ipcDeadlinePassed s.now deadline then (some (.error .timeout), s)
        else (none, s)

/-- What `ipc_recv` returns; `info` and what it has copied are written to the caller. -/
structure RecvResult where
  result : Except IpcError ℕ
  info : Option IpcMsgInfo
  copied : Option (List UInt8)

/-- `ipc_recv` takes the message out of its slot. -/
def dequeue (t : ℕ) (i : Fin maxIpcMessage) : State :=
  { s.setHeader t ((s.header t).ipcDropMessage i) with payload := freeBlock s.payload (s.message t i).data }

def block (data : Option ℕ) : List UInt8 := (data.bind s.payload).getD []

/-- A pass of the loop of `ipc_recv`: what it returns, if it does not wait. -/
def ipcRecvPass (t : ℕ) (args : RecvArgs) (deadline : ℕ) : Option RecvResult × State :=
  match (s.header t).ipcFindOldest args.fromFilter with
  | some i =>
    let m := s.message t i
    if m.size > args.bufsize then (some ⟨.error .toobig, some m.info, none⟩, s)
    else (some ⟨.ok m.size, some m.info, if args.buffer then some (s.block m.data) else none⟩, s.dequeue t i)
  | none =>
    if args.nowait then (some ⟨.error .empty, none, none⟩, s)
    else if args.timeoutMs ≠ 0 ∧ ipcDeadlinePassed s.now deadline then (some ⟨.error .timeout, none, none⟩, s)
    else (none, s)

/-- The loop of `ipc_task_cleanup` over the slots of the queue. -/
def dropMessages (ipc : IpcHeader) (payload : ℕ → Option (List UInt8)) :
    IpcHeader × (ℕ → Option (List UInt8)) :=
  (List.finRange maxIpcMessage).foldl (fun q i =>
    if (q.1.messages i).used then (q.1.ipcDropMessage i, freeBlock q.2 (q.1.messages i).data) else q) (ipc, payload)

def serverExited (server : ℕ × ℕ) (call : RpcPending) : RpcPending :=
  if call.server = server then { call with status := rpcErrNoService, completed := true } else call

/-- `ipc_task_cleanup`, without the names of services. -/
def ipcTaskCleanup (t : ℕ) : State :=
  let s' := { s.setHeader t ipcHeaderInit with payload := (dropMessages (s.header t) s.payload).2 }
  { s' with
    header := fun u =>
      if u < s.registry.kernel.slotCount ∧ taskSlotInUse (s.slot u) then
        { s'.header u with rpc := (s'.header u).rpc.map (serverExited (s.identity t)) }
      else s'.header u }

def discards (t : ℕ) : List Discard :=
  (s.header t).slots.map fun i => ⟨(s.message t i).ticket, s.identity t⟩

/-! ### Steps -/

/-- What a step of the registry discards: the queue of a slot that is released. -/
def released : RegistryEvent → List Discard
  | .release t => s.discards t
  | _ => []

def canCall (t : ℕ) : Bool :=
  t < s.registry.kernel.slotCount && taskSlotInUse (s.slot t) && (s.slot t).state ≠ .died

/-- What the caller knows of a message that it has sent, and who is the task `toTid` -/
def letter (t : ℕ) (args : SendArgs) : Letter :=
  ⟨args.toTid, args.toGeneration, s.identity args.toTid, s.identity t, args.type, args.id, args.bytes⟩

/-- `ipc_send` returns to the task. -/
def sendReturns (t : ℕ) (args : SendArgs) (result : Except IpcError Unit) (s' : State) : State :=
  match result with
  | .error _ => { s' with call := update s'.call t none }
  | .ok _ =>
    { s' with
      call := update s'.call t none
      sent := s.sent ++ [s.letter t args] }

/-- `ipc_recv` returns to the task. -/
def recvReturns (t : ℕ) (args : RecvArgs) (r : RecvResult) (s' : State) : State :=
  match r.result, r.info, (s.header t).ipcFindOldest args.fromFilter with
  | .ok _, some info, some i =>
    { s' with
      call := update s'.call t none
      received := s.received ++ [⟨(s.message t i).ticket, s.identity t, args.fromFilter, info, r.copied⟩] }
  | _, _, _ => { s' with call := update s'.call t none }

end State

inductive IpcEvent
  /-- a slot is claimed, released, forked or written by other code -/
  | registry (e : RegistryEvent)
  /-- the task calls `ipc_send` -/
  | send (t : ℕ) (args : SendArgs)
  /-- the task calls `ipc_recv` -/
  | recv (t : ℕ) (args : RecvArgs)
  /-- the call of the task makes a pass of its loop -/
  | pass (t : ℕ) (memory : Option ℕ)
  | peek (t : ℕ) (fromFilter : ℕ)
  /-- the exit of the task calls `ipc_task_cleanup` -/
  | cleanup (t : ℕ)
  /-- `rpc_call` registers its call -/
  | rpcBegin (t : ℕ) (server : ℕ × ℕ) (opcode : ℕ) (reply : List UInt8) (timeoutMs : ℕ)
  | rpcEnd (t : ℕ)
  | tick

namespace State

def step (online : ℕ → Bool) (s : State) : IpcEvent → Option State
  | .registry e =>
    (s.registry.step online e).map fun registry =>
      { s with
        registry := registry
        header := fun t => if s.registry.resets e t then ipcHeaderInit else s.header t
        call := fun t => if s.registry.resets e t then none else s.call t
        discarded := s.discarded ++ s.released e }
  | .send t args =>
    if s.canCall t ∧ (s.call t).isNone then
      match s.ipcSend t args with
      | (some result, s') => some (s.sendReturns t args result s')
      | (none, s') =>
        let deadline := if args.timeoutMs ≠ 0 then ipcDeadline s.now args.timeoutMs else 0
        some { s' with call := update s'.call t (some (.send args deadline)) }
    else none
  | .recv t args =>
    if s.canCall t ∧ (s.call t).isNone then
      let deadline := if args.timeoutMs ≠ 0 then ipcDeadline s.now args.timeoutMs else 0
      some { s with call := update s.call t (some (.recv args deadline)) }
    else none
  | .pass t memory =>
    if s.canCall t ∧ (memory.bind s.payload).isNone then
      match s.call t with
      | none => none
      | some (.send args deadline) =>
        match s.ipcSendPass t args deadline memory with
        | (some result, s') => some (s.sendReturns t args result s')
        | (none, s') => some s'
      | some (.recv args deadline) =>
        match s.ipcRecvPass t args deadline with
        | (some result, s') => some (s.recvReturns t args result s')
        | (none, s') => some s'
    else none
  | .peek _ _ => some s
  | .cleanup t =>
    if t < s.registry.kernel.slotCount then
      some
        { s.ipcTaskCleanup t with
          call := update s.call t none
          discarded := s.discarded ++ s.discards t }
    else none
  | .rpcBegin t server opcode reply timeoutMs =>
    if (s.header t).rpc.isNone then
      some
        { s.setHeader t
            { s.header t with
              rpc := some ⟨server, s.rpcNextId, opcode, ipcDeadline s.now timeoutMs, reply, reply.length, 0,
                rpcErrTimeout, false⟩ } with
          rpcNextId := (s.rpcNextId + 1) % (uintMax + 1) ||| rpcKernelCall }
    else none
  | .rpcEnd t => some (s.setHeader t { s.header t with rpc := none })
  | .tick => some { s with now := (s.now + 1) % (uintMax + 1) }

structure Init (s : State) : Prop where
  registry : s.registry.Init
  header : ∀ t, s.header t = ipcHeaderInit
  rpcNextId : s.rpcNextId = rpcKernelCall
  call : ∀ t, s.call t = none
  sent : s.sent = []
  received : s.received = []
  discarded : s.discarded = []

end State

/-- The step system of the messages; `online` is `smp_cpu_online`. -/
def ipcSystem (online : ℕ → Bool) : Lib.System State IpcEvent := ⟨State.Init, State.step online⟩

end PlantOS.Ipc
