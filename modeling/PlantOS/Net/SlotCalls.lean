import Mathlib.Algebra.GroupWithZero.Nat
import PlantOS.Net.Streams

/-!
# The socket table

`net/socket.c`: sockets of every kind, the packets in their queues, the sockets that wait to be accepted, the waiters
and the watches of a socket, and the control blocks of lwIP that hold a socket for their callbacks. A step is what is
done with the interrupts off. The fields of `net_sockets` are columns; a slot from `NET_SOCKET_CAPACITY` on is never
used.
-/

namespace PlantOS.Net.Slots

open Function (update)

inductive Domain
  | unspecified | inet | local_
  deriving DecidableEq, Repr

inductive SocketType
  | unspecified | stream | dgram | raw
  deriving DecidableEq, Repr

inductive Protocol
  | unspecified | tcp | udp | icmp
  deriving DecidableEq, Repr

/-- `net_socket_state_t` -/
inductive State
  | free | reserved | inetUdp | inetRaw | tcpReady | tcpConnecting | tcpConnected | tcpListening | tcpFailed | localReady
  | localConnected | localListening
  deriving DecidableEq, Repr

inductive Address
  | unspecified
  | inet (address port : ℕ)
  | local_ (path : List UInt8)
  deriving DecidableEq, Repr

/-- `net_socket_packet_t`, without what it holds -/
structure Packet where
  next : Option ℕ
  total : ℕ
  offset : ℕ
  deriving DecidableEq, Repr

/-- `receive_head`, `receive_tail` and `queued_bytes` -/
structure Queue where
  head : Option ℕ
  tail : Option ℕ
  bytes : ℕ
  deriving DecidableEq, Repr

/-- The fields `pending_…` and `backlog`; `none` is `NET_SOCKET_SLOT_NONE`. -/
structure Pending where
  backlog : ℕ
  head : Option ℕ
  tail : Option ℕ
  count : ℕ
  next : Option ℕ
  parent : Option ℕ
  parentGeneration : ℕ
  deriving DecidableEq, Repr

/-- The fields `peer_…` -/
structure Peer where
  slot : Option ℕ
  generation : ℕ
  closed : Bool
  deriving DecidableEq, Repr

/-- `net_socket_waiter_t`; `none` is `NET_SOCKET_TASK_NONE`. -/
structure Waiter where
  tid : Option ℕ
  generation : ℕ
  deadline : ℕ
  deriving DecidableEq, Repr

inductive Role
  | reader | writer | connector | acceptor
  deriving DecidableEq, Repr

structure Kind where
  domain : Domain
  type : SocketType
  protocol : Protocol
  deriving DecidableEq, Repr

structure Settings where
  bound : Bool
  nonblocking : Bool
  shutdownRead : Bool
  shutdownWrite : Bool
  address : Address
  peer : Address
  lastError : ℕ
  deriving DecidableEq, Repr

/-- `half` is a block for a connection that has not been accepted; no callback of its own is set. -/
inductive BlockKind
  | udp | raw | tcp | listen | half
  deriving DecidableEq, Repr

/-- A control block. `arg` is the slot that its callbacks get, and which use of the slot it was when it was set; no
code reads the use. -/
structure Block where
  kind : BlockKind
  arg : Option (ℕ × ℕ)
  /-- `tcp_connect` has set a callback -/
  connected : Bool
  /-- `TF_RXCLOSED` -/
  rxClosed : Bool
  /-- `refused_data` is kept for the callback, which had no room for it -/
  refused : Bool
  /-- the block that listened when a half-open one was made -/
  listener : Option ℕ
  deriving DecidableEq, Repr

/-- What the callbacks of a block get; a half-open one has the argument of the block that listened, and none of its
own. -/
def Block.held (block : Block) : Option (ℕ × ℕ) := if block.kind = .half then none else block.arg

/-- A handle that a call has returned, and to which owner and for which use of which slot -/
structure Issued where
  handle : ℕ
  owner : ℕ
  slot : ℕ
  life : ℕ
  deriving DecidableEq, Repr

structure Table where
  state : ℕ → State
  owner : ℕ → ℕ
  generation : ℕ → ℕ
  kind : ℕ → Kind
  settings : ℕ → Settings
  peer : ℕ → Peer
  pending : ℕ → Pending
  queue : ℕ → Queue
  waiter : ℕ → Role → Waiter
  pcb : ℕ → Option ℕ
  packets : ℕ → Packet
  packetFree : Option ℕ
  /-- the watches of pollers, and the sockets in whose queue they are -/
  watches : List (ℕ × ℕ)
  blocks : ℕ → Option Block
  /-- the calls of `net_socket_connect` that wait, by owner and handle -/
  connecting : List (ℕ × ℕ)
  /-- how often a slot has been reserved, and the handles that calls have returned; no code reads them -/
  lives : ℕ → ℕ
  issued : List Issued

/-- What `memset` leaves -/
def Kind.zero : Kind := ⟨.unspecified, .unspecified, .unspecified⟩
def Settings.zero : Settings := ⟨false, false, false, false, .unspecified, .unspecified, 0⟩
def Queue.zero : Queue := ⟨none, none, 0⟩
def Pending.zero : Pending := ⟨0, some 0, some 0, 0, some 0, some 0, 0⟩
def Peer.zero : Peer := ⟨some 0, 0, false⟩
def Waiter.zero : Waiter := ⟨some 0, 0, 0⟩

/-- What `net_socket_reserve` writes -/
def Pending.init : Pending := ⟨0, none, none, 0, none, none, 0⟩

/-- `net_socket_waiter_init` -/
def Waiter.init : Waiter := ⟨none, 0, 0⟩

namespace Table

variable (t : Table)

def setState (i : ℕ) (x : State) : Table := { t with state := update t.state i x }
def setKind (i : ℕ) (x : Kind) : Table := { t with kind := update t.kind i x }
def setSettings (i : ℕ) (x : Settings) : Table := { t with settings := update t.settings i x }
def setPeer (i : ℕ) (x : Peer) : Table := { t with peer := update t.peer i x }
def setPending (i : ℕ) (x : Pending) : Table := { t with pending := update t.pending i x }
def setQueue (i : ℕ) (x : Queue) : Table := { t with queue := update t.queue i x }
def setPacket (p : ℕ) (x : Packet) : Table := { t with packets := update t.packets p x }
def setPcb (i : ℕ) (x : Option ℕ) : Table := { t with pcb := update t.pcb i x }
def setBlock (b : ℕ) (x : Option Block) : Table := { t with blocks := update t.blocks b x }

def setWaiter (i : ℕ) (r : Role) (w : Waiter) : Table :=
  { t with waiter := update t.waiter i (update (t.waiter i) r w) }

/-! ### Waiters -/

/-- `io_poll_wake`: every poller that watches the socket is woken, and none of its watches stays in a queue. -/
def pollWake (i : ℕ) : Table :=
  { t with watches := t.watches.filter fun w => ∀ v ∈ t.watches, v.2 = i → v.1 ≠ w.1 }

/-- `net_socket_waiter_wake` -/
def wake (i : ℕ) (r : Role) : Table :=
  let t := t.pollWake i
  if (t.waiter i r).tid = none then t else t.setWaiter i r .init

/-- `net_socket_wake_all` -/
def wakeAll (i : ℕ) : Table := (((t.wake i .reader).wake i .writer).wake i .connector).wake i .acceptor

/-- `net_socket_waiter_cancel`, and the end of `net_socket_wait` -/
def cancel (i : ℕ) (r : Role) (tid generation : ℕ) : Table :=
  if (t.waiter i r).tid = some tid ∧ (t.waiter i r).generation = generation then t.setWaiter i r .init else t

/-- What `net_socket_wait` returns; `slept` says that it has blocked the task. -/
inductive Wait
  | busy | timedout | ready | slept
  deriving DecidableEq, Repr

/-- A task that may wait: its identity, whether it is ready, and its deadline -/
structure Caller where
  tid : ℕ
  generation : ℕ
  ready : Bool
  deadline : ℕ
  /-- the deadline has passed -/
  passed : Bool

/-- `net_socket_wait` up to the switch to another task -/
def wait (i : ℕ) (r : Role) (c : Caller) : Table × Wait :=
  let w := t.waiter i r
  if w.tid ≠ none ∧ ¬(w.tid = some c.tid ∧ w.generation = c.generation) then (t, .busy)
  else if c.passed then (t, .timedout)
  else if c.ready then (t, .ready)
  else (t.setWaiter i r ⟨some c.tid, c.generation, c.deadline⟩, .slept)

/-! ### Packets -/

/-- `net_socket_packet_alloc` -/
def packetAlloc : Option (ℕ × Table) :=
  match t.packetFree with
  | none => none
  | some p => some (p, { t.setPacket p ⟨none, 0, 0⟩ with packetFree := (t.packets p).next })

/-- `net_socket_packet_free` -/
def freePacket (p : ℕ) : Table := { t.setPacket p ⟨t.packetFree, 0, 0⟩ with packetFree := some p }

/-- `net_socket_queue_has_room` -/
def HasRoom (i length : ℕ) : Prop := length ≤ rxLimit ∧ (t.queue i).bytes ≤ rxLimit - length

instance (i length : ℕ) : Decidable (t.HasRoom i length) := inferInstanceAs (Decidable (_ ∧ _))

/-- `net_socket_packet_append` -/
def packetAppend (i p : ℕ) : Table :=
  let t := t.setPacket p { t.packets p with next := none }
  let q := t.queue i
  let t :=
    match q.tail with
    | some y => t.setPacket y { t.packets y with next := some p }
    | none => t.setQueue i { q with head := some p }
  let q := t.queue i
  (t.setQueue i { q with tail := some p, bytes := q.bytes + (t.packets p).total }).wake i .reader

/-- A packet of this length is put into the queue, if there is room and a record. -/
def enqueue (i length : ℕ) : Option Table :=
  if t.HasRoom i length then
    match t.packetAlloc with
    | none => none
    | some (p, t) => some ((t.setPacket p { t.packets p with total := length }).packetAppend i p)
  else none

/-- `net_socket_queue_owned_pbuf` -/
def queueOwnedPbuf (i length : ℕ) : Option Table := t.enqueue i length

/-- `net_socket_queue_raw_packet`; `cloned`: `pbuf_clone` has given a copy. -/
def queueRawPacket (i length : ℕ) (cloned : Bool) : Option Table := if cloned then t.queueOwnedPbuf i length else none

/-- `net_socket_queue_local` -/
def queueLocal (i length : ℕ) : Option Table := t.enqueue i length

/-- The loop of `net_socket_clear_packets`; there are no more passes than packets. -/
def freeFrom : ℕ → Table → Option ℕ → Table
  | 0, t, _ => t
  | _ + 1, t, none => t
  | n + 1, t, some p => freeFrom n (t.freePacket p) (t.packets p).next

/-- `net_socket_clear_packets` -/
def clearPackets (i : ℕ) : Table := (freeFrom packetCapacity t (t.queue i).head).setQueue i .zero

/-! ### Slots -/

/-- `net_socket_handle` -/
def handle (i : ℕ) : ℕ := 2 ^ 30 + t.generation i * 64 + (i + 1)

/-- `net_socket_find`; the two highest bits are the tag, and the six lowest ones the slot. -/
def find (owner h : ℕ) : Option ℕ :=
  let slot := h % 64
  let generation := h % 2 ^ 30 / 64
  if h / 2 ^ 30 ≠ 1 ∨ slot = 0 ∨ capacity < slot ∨ generation = 0 then none
  else if t.state (slot - 1) = .free ∨ t.owner (slot - 1) ≠ owner ∨ t.generation (slot - 1) ≠ generation then none
  else some (slot - 1)

/-- `net_socket_from_slot` -/
def fromSlot (slot : Option ℕ) (generation : ℕ) : Option ℕ :=
  match slot with
  | none => none
  | some i => if capacity ≤ i ∨ t.state i = .free ∨ t.generation i ≠ generation then none else some i

/-- `net_socket_local_peer` -/
def localPeer (i : ℕ) : Option ℕ := t.fromSlot (t.peer i).slot (t.peer i).generation

/-- The generation that `net_socket_reserve` gives to a slot -/
def nextGeneration (generation : ℕ) : ℕ := if generation + 1 > generationMax then 1 else generation + 1

/-- What `net_socket_reserve` makes of a free slot -/
def reserved (i owner : ℕ) : Table :=
  { t with
    state := update t.state i .reserved
    owner := update t.owner i owner
    generation := update t.generation i (nextGeneration (t.generation i))
    kind := update t.kind i .zero
    settings := update t.settings i .zero
    peer := update t.peer i ⟨none, 0, false⟩
    pending := update t.pending i .init
    queue := update t.queue i .zero
    waiter := update t.waiter i fun _ => .init
    pcb := update t.pcb i none
    lives := update t.lives i (t.lives i + 1) }

/-- `net_socket_reserve` -/
def reserve (owner : ℕ) : Option (ℕ × Table) :=
  match (List.range capacity).find? fun i => t.state i = .free with
  | none => none
  | some i => some (i, t.reserved i owner)

/-- The end of `net_socket_dispose`: the slot is cleared, and its generation is kept. -/
def blank (i : ℕ) : Table :=
  { t with
    state := update t.state i .free
    owner := update t.owner i 0
    kind := update t.kind i .zero
    settings := update t.settings i .zero
    peer := update t.peer i .zero
    pending := update t.pending i .zero
    queue := update t.queue i .zero
    waiter := update t.waiter i fun _ => .zero
    pcb := update t.pcb i none }

def issue (i : ℕ) : Table := { t with issued := ⟨t.handle i, t.owner i, i, t.lives i⟩ :: t.issued }

/-! ### Sockets that wait to be accepted -/

/-- `net_socket_pending_push` -/
def pendingPush (l c : ℕ) : Table :=
  let t := t.setPending c { t.pending c with next := none, parent := some l, parentGeneration := t.generation l }
  let t :=
    match (t.pending l).tail with
    | some y => t.setPending y { t.pending y with next := some c }
    | none => t.setPending l { t.pending l with head := some c }
  (t.setPending l { t.pending l with tail := some c, count := (t.pending l).count + 1 }).wake l .acceptor

/-- `net_socket_pending_pop` -/
def pendingPop (l : ℕ) : Option (ℕ × Table) :=
  match (t.pending l).head with
  | none => none
  | some c =>
    if capacity ≤ c then none
    else
      let p := t.pending l
      let next := (t.pending c).next
      let t := t.setPending l
        { p with head := next, tail := if next = none then none else p.tail, count := p.count - 1 }
      some (c, t.setPending c { t.pending c with next := none, parent := none, parentGeneration := 0 })

/-- The walk of `net_socket_pending_remove`: what is in front of the wanted socket, if it is met -/
def seek (wanted : ℕ) : ℕ → Option ℕ → Option ℕ → Option (Option ℕ)
  | 0, _, _ => none
  | _ + 1, _, none => none
  | n + 1, previous, some x =>
    if capacity ≤ x then none else if x = wanted then some previous else seek wanted n (some x) (t.pending x).next

/-- `net_socket_pending_remove` -/
def pendingRemove (l c : ℕ) : Table :=
  match t.seek c (capacity + 1) none (t.pending l).head with
  | none => t
  | some previous =>
    let next := (t.pending c).next
    let t :=
      match previous with
      | none => t.setPending l { t.pending l with head := next }
      | some y => t.setPending y { t.pending y with next }
    let p := t.pending l
    let t := t.setPending l { p with tail := if p.tail = some c then previous else p.tail, count := p.count - 1 }
    t.setPending c { t.pending c with next := none, parent := none, parentGeneration := 0 }

/-- `net_socket_find_local_bound` -/
def findLocalBound (address : Address) (type : SocketType) : Option ℕ :=
  (List.range capacity).find? fun i =>
    t.state i ≠ .free ∧ (t.kind i).domain = .local_ ∧ (t.kind i).type = type ∧ (t.settings i).bound ∧
      (t.settings i).address = address ∧ address ≠ .unspecified

/-! ### Control blocks -/

/-- The argument of a block is set: `tcp_arg`, `udp_recv` and `raw_recv`. -/
def setArg (b : ℕ) (arg : Option (ℕ × ℕ)) : Table := t.setBlock b ((t.blocks b).map fun block => { block with arg })

/-- `net_socket_tcp_clear_callbacks` -/
def clearCallbacks (b : ℕ) : Table := t.setArg b none

/-- A new block, with the callbacks of the socket: `net_socket_tcp_attach_callbacks` and its siblings -/
def attach (i b : ℕ) (kind : BlockKind) : Table :=
  (t.setBlock b (some ⟨kind, some (i, t.lives i), false, false, false, none⟩)).setPcb i (some b)

/-- A block is freed. `tcp_listen_closed`: the half-open ones forget that it has listened. -/
def freeBlock (b : ℕ) : Table :=
  { t with
    blocks := fun k =>
      if k = b then none
      else (t.blocks k).map fun block => if block.listener = some b then { block with listener := none } else block }

def listens (b : ℕ) : Bool := (t.blocks b).any fun block => block.kind = .listen

/-- The receive side of a block is shut; `tcp_shutdown` returns at once for a block that listens, and drops what has
been refused if the other side stays open. -/
def closeReceive (b : ℕ) (both : Bool) : Table :=
  t.setBlock b ((t.blocks b).map fun block =>
    if block.kind = .listen then block else { block with rxClosed := true, refused := block.refused && both })

/-- `net_socket_tcp_abort` -/
def tcpAbort (i : ℕ) : Table :=
  let t :=
    match t.pcb i with
    | some b => ((t.clearCallbacks b).freeBlock b).setPcb i none
    | none => t
  let t := t.setState i .tcpFailed
  let t := t.setPeer i { t.peer i with closed := true }
  (t.setSettings i { t.settings i with lastError := 104 }).wakeAll i

/-- What `net_socket_dispose` does to the control block; `stays` are the blocks that lwIP keeps after a `tcp_close`,
which frees a block that listens. -/
def release (stays : ℕ → Bool) (i : ℕ) : Table :=
  match t.pcb i with
  | none => t
  | some b =>
    match (t.kind i).protocol with
    | .udp => (t.setArg b none).freeBlock b
    | .tcp =>
      if t.state i = .tcpListening then (t.setArg b none).freeBlock b
      else if (t.queue i).bytes ≠ 0 ∨ ¬stays b ∨ t.listens b then (t.clearCallbacks b).freeBlock b
      else (t.clearCallbacks b).closeReceive b true
    | .icmp => (t.setArg b none).freeBlock b
    | .unspecified => t

/-- A socket that waits to be accepted leaves its listener. -/
def unparent (i : ℕ) : Table :=
  match t.fromSlot (t.pending i).parent (t.pending i).parentGeneration with
  | some l => t.pendingRemove l i
  | none => t

def unpeer (i : ℕ) : Table :=
  match t.localPeer i with
  | some j => (((t.setPeer j ⟨none, 0, true⟩).wake j .reader).wake j .writer).wake j .connector
  | none => t

/-- `net_socket_dispose` behind its loop -/
def finish (stays : ℕ → Bool) (i : ℕ) : Table := (((t.unpeer i).release stays i).clearPackets i).blank i

/-- The loop of `net_socket_dispose`; there are no more passes than slots. -/
def popAll (each : Table → ℕ → Table) : ℕ → Table → ℕ → Table
  | 0, t, _ => t
  | n + 1, t, i =>
    match t.pendingPop i with
    | none => t
    | some (c, t) => popAll each n (each t c) i

/-- `net_socket_dispose`; the number bounds how deep sockets that wait to be accepted are nested. -/
def dispose (stays : ℕ → Bool) : ℕ → Table → ℕ → Table
  | 0, t, _ => t
  | n + 1, t, i =>
    if t.state i = .free then t
    else (popAll (dispose stays n) (capacity + 1) ((t.wakeAll i).unparent i) i).finish stays i

end Table

/-! ## The calls and the callbacks of the socket table -/

open Lib

def Address.domain : Address → Domain
  | .unspecified => .unspecified
  | .inet .. => .inet
  | .local_ _ => .local_

/-- `net_socket_address_init` -/
def Domain.address : Domain → Address
  | .unspecified => .unspecified
  | .inet => .inet 0 0
  | .local_ => .local_ []

/-- What `tcp_shutdown` returns -/
inductive LwipError
  | ok | conn | other
  deriving DecidableEq, Repr

namespace Table

variable (t : Table)

def on (owner h : ℕ) (f : ℕ → Table) : Table :=
  match t.find owner h with
  | none => t
  | some i => f i

/-! ### Creating sockets -/

/-- `net_socket_create` knows this kind of socket. -/
def Valid : Domain → SocketType → Protocol → Prop
  | .local_, type, protocol => (type = .stream ∨ type = .dgram) ∧ protocol = .unspecified
  | .inet, .stream, protocol => protocol = .unspecified ∨ protocol = .tcp
  | .inet, .dgram, protocol => protocol = .unspecified ∨ protocol = .udp
  | .inet, .raw, protocol => protocol = .icmp
  | .inet, .unspecified, _ => False
  | .unspecified, _, _ => False

instance : (domain : Domain) → (type : SocketType) → (protocol : Protocol) → Decidable (Valid domain type protocol)
  | .local_, _, _ => inferInstanceAs (Decidable (_ ∧ _))
  | .inet, .stream, _ | .inet, .dgram, _ => inferInstanceAs (Decidable (_ ∨ _))
  | .inet, .raw, _ => inferInstanceAs (Decidable (_ = _))
  | .inet, .unspecified, _ | .unspecified, _, _ => inferInstanceAs (Decidable False)

/-- A socket of the Internet gets its control block, or there is none and its slot is free again. -/
def createInet (i : ℕ) (type : SocketType) (block : Option ℕ) : Table :=
  let (protocol, state, kind) : Protocol × State × BlockKind :=
    match type with
    | .dgram => (.udp, .inetUdp, .udp)
    | .stream => (.tcp, .tcpReady, .tcp)
    | _ => (.icmp, .inetRaw, .raw)
  match block with
  | none =>
    let t := (t.setKind i { t.kind i with protocol := .unspecified }).setState i .free
    { t with owner := Function.update t.owner i 0 }
  | some b => (((t.setKind i { t.kind i with protocol }).setState i state).attach i b kind).issue i

/-- `net_socket_create`; `up` is `net_stack_ready`, and `block` what lwIP gives. -/
def create (owner : ℕ) (domain : Domain) (type : SocketType) (protocol : Protocol) (up : Bool) (block : Option ℕ) : Table :=
  if (domain = .inet ∧ ¬up) ∨ ¬Valid domain type protocol then t
  else
    match t.reserve owner with
    | none => t
    | some (i, t) =>
      let t := t.setKind i ⟨domain, type, protocol⟩
      let t := t.setSettings i { t.settings i with address := domain.address }
      if domain = .local_ then (t.setState i .localReady).issue i else t.createInet i type block

/-- One end of `net_socket_pair` -/
def pairEnd (i j : ℕ) : Table :=
  let t := (t.setKind i ⟨.local_, .stream, .unspecified⟩).setState i .localConnected
  let t := t.setSettings i { t.settings i with address := .local_ [] }
  t.setPeer i { t.peer i with slot := some j, generation := t.generation j }

/-- `net_socket_pair` -/
def pair (stays : ℕ → Bool) (owner : ℕ) : Table :=
  match t.reserve owner with
  | none => t
  | some (left, t) =>
    match t.reserve owner with
    | none => t.dispose stays capacity left
    | some (right, t) => (((t.pairEnd left right).pairEnd right left).issue left).issue right

/-- `net_socket_bind_inet`; `answer` is the address that lwIP has bound. -/
def bindInet (i : ℕ) (port : ℕ) (answer : Option Address) : Table :=
  match answer with
  | some address =>
    if (t.kind i).protocol = .icmp ∧ port ≠ 0 then t else t.setSettings i { t.settings i with bound := true, address }
  | none => t

/-- `net_socket_bind_any`, and whether it succeeds -/
def bindAny (i : ℕ) (answer : Option Address) : Table × Bool :=
  if (t.settings i).bound then (t, true) else (t.bindInet i 0 answer, answer.isSome)

def port : Address → ℕ
  | .inet _ port => port
  | _ => 0

/-- `net_socket_bind` -/
def bind (owner h : ℕ) (address : Address) (answer : Option Address) : Table :=
  t.on owner h fun i =>
    if (t.kind i).domain ≠ address.domain ∨ (t.settings i).bound then t
    else if (t.kind i).domain = .local_ then
      if t.state i ≠ .localReady ∨ address = .local_ [] ∨ t.findLocalBound address (t.kind i).type ≠ none then t
      else t.setSettings i { t.settings i with bound := true, address }
    else if ((t.kind i).protocol = .udp ∧ t.state i = .inetUdp) ∨ ((t.kind i).protocol = .tcp ∧ t.state i = .tcpReady) ∨
        ((t.kind i).protocol = .icmp ∧ t.state i = .inetRaw) then
      t.bindInet i (port address) answer
    else t

/-! ### Connections -/

/-- `net_socket_connect_local_stream` -/
def connectLocalStream (i : ℕ) (address : Address) : Table :=
  match t.findLocalBound address .stream with
  | none => t
  | some l =>
    if t.state l ≠ .localListening ∨ (t.pending l).backlog ≤ (t.pending l).count then t
    else
      match t.reserve (t.owner l) with
      | none => t
      | some (c, t) =>
        let t := (t.setKind c ⟨.local_, .stream, .unspecified⟩).setState c .localConnected
        let peer := if (t.settings i).bound then (t.settings i).address else .local_ []
        let t := t.setSettings c { t.settings c with address := (t.settings l).address, peer }
        let t := (t.setSettings i { t.settings i with peer := (t.settings l).address }).setState i .localConnected
        let t := (t.setPeer i ⟨some c, t.generation c, false⟩).setPeer c ⟨some i, t.generation i, false⟩
        t.pendingPush l c

/-- `net_socket_connect` up to its loop; `accepted` is whether lwIP connects. -/
def connect (owner h : ℕ) (address : Address) (answer : Option Address) (accepted : Bool) : Table :=
  t.on owner h fun i =>
    if (t.kind i).domain ≠ address.domain then t
    else if (t.kind i).domain = .local_ then
      if (t.kind i).type = .dgram ∧ t.state i = .localReady then
        if t.findLocalBound address .dgram = none then t else t.setSettings i { t.settings i with peer := address }
      else if (t.kind i).type = .stream ∧ t.state i = .localReady then t.connectLocalStream i address
      else t
    else if (t.kind i).protocol = .udp ∧ t.state i = .inetUdp then
      match t.bindAny i answer with
      | (t, true) => if accepted then t.setSettings i { t.settings i with peer := address } else t
      | (t, false) => t
    else if (t.kind i).protocol = .icmp ∧ t.state i = .inetRaw ∧ port address = 0 then
      if accepted then t.setSettings i { t.settings i with peer := address } else t
    else if (t.kind i).protocol = .tcp ∧ t.state i = .tcpReady then
      match t.bindAny i answer with
      | (t, true) =>
        match accepted, t.pcb i with
        | true, some b =>
          let t := t.setBlock b ((t.blocks b).map fun block => { block with connected := true })
          let t := (t.setSettings i { t.settings i with peer := address, lastError := 0 }).setState i .tcpConnecting
          if (t.settings i).nonblocking then t else { t with connecting := (owner, h) :: t.connecting }
        | _, _ => t
      | (t, false) => t
    else t

/-- `net_socket_connect` returns from its loop. -/
def connected (owner h : ℕ) : Table := { t with connecting := t.connecting.erase (owner, h) }

/-- One pass of the loop in `net_socket_connect` -/
def connectPass (owner h : ℕ) (c : Caller) : Table :=
  match t.find owner h with
  | none => t.connected owner h
  | some i =>
    if t.state i = .tcpConnected ∨ t.state i = .tcpFailed then t.connected owner h
    else if c.passed then (t.tcpAbort i).connected owner h
    else
      match t.wait i .connector c with
      | (t, .busy) => t.connected owner h
      | (t, _) => t

/-- `NET_SOCKET_MAX_BACKLOG` -/
abbrev maxBacklog : ℕ := 8

/-- `net_socket_listen`; `block` is the listening block that lwIP puts in the place of the first one. -/
def listen (owner h backlog : ℕ) (answer : Option Address) (block : Option ℕ) : Table :=
  if backlog = 0 then t
  else
    t.on owner h fun i =>
      let limit := min backlog maxBacklog
      if (t.kind i).type ≠ .stream then t
      else if (t.kind i).domain = .local_ then
        if t.state i ≠ .localReady ∨ ¬(t.settings i).bound then t
        else (t.setPending i { t.pending i with backlog := limit }).setState i .localListening
      else if t.state i ≠ .tcpReady then t
      else
        match t.bindAny i answer with
        | (t, true) =>
          match t.pcb i, block with
          | some old, some b =>
            let t := t.freeBlock old
            ((t.setPending i { t.pending i with backlog := limit }).setState i .tcpListening).attach i b .listen
          | _, _ => t
        | (t, false) => t

/-- One pass of `net_socket_accept` -/
def accept (owner h : ℕ) (c : Caller) : Table :=
  t.on owner h fun i =>
    if t.state i ≠ .localListening ∧ t.state i ≠ .tcpListening then t
    else
      match t.pendingPop i with
      | some (child, t) => t.issue child
      | none => if (t.settings i).nonblocking then t else (t.wait i .acceptor c).1

/-- The part of `tcp_shutdown` about the receive side -/
def shutReceive (i : ℕ) (both : Bool) : Table :=
  match (t.kind i).protocol, t.pcb i with
  | .tcp, some b => t.closeReceive b both
  | _, _ => t

/-- The part of `net_socket_shutdown` about the block of a TCP socket, which lwIP keeps or frees -/
def shutBlock (i : ℕ) (both stays : Bool) : Table :=
  match (t.kind i).protocol, t.pcb i with
  | .tcp, some b =>
    let t := if stays then t else t.freeBlock b
    if both then
      let t := (t.setPcb i none).setState i .tcpFailed
      t.setPeer i { t.peer i with closed := true }
    else t
  | _, _ => t

/-- The part of `net_socket_shutdown` about reading -/
def shutReading (i : ℕ) : Table := ((t.setSettings i { t.settings i with shutdownRead := true }).clearPackets i).wake i .reader

/-- The part of `net_socket_shutdown` about writing -/
def shutWriting (i : ℕ) : Table :=
  let t := (t.setSettings i { t.settings i with shutdownWrite := true }).wake i .writer
  match t.localPeer i with
  | some j => ((t.setPeer j { t.peer j with closed := true }).wake j .reader).wake j .writer
  | none => t

/-- `net_socket_shutdown`; lwIP returns `error`, and its block `stays` or is freed. -/
def shutdown (owner h : ℕ) (shutRead shutWrite : Bool) (error : LwipError) (stays : Bool) : Table :=
  t.on owner h fun i =>
    let t := if shutRead then t.shutReceive i shutWrite else t
    if (t.kind i).protocol = .tcp ∧ t.pcb i ≠ none ∧ error = .other then t
    else
      let t := t.shutBlock i (shutRead && shutWrite) stays
      let t := if shutRead then t.shutReading i else t
      if shutWrite then t.shutWriting i else t

/-! ### Data -/

/-- `net_socket_send_local_stream` up to its copy -/
def sendLocalStream (owner h length : ℕ) (dontwait : Bool) (c : Caller) : Table :=
  t.on owner h fun i =>
    match t.localPeer i with
    | none => t
    | some j =>
      if t.state i ≠ .localConnected ∨ (t.peer j).closed then t
      else if (¬t.HasRoom j length ∨ t.packetFree = none) ∧ ¬dontwait then (t.wait i .writer c).1
      else t

/-- `net_socket_send_local_stream` behind its copy -/
def commitLocalStream (owner h length : ℕ) : Table :=
  t.on owner h fun i =>
    match t.localPeer i with
    | none => t
    | some j => if t.state i = .localConnected ∧ ¬(t.peer j).closed then (t.queueLocal j length).getD t else t

/-- `net_socket_send_local_dgram` behind its copy -/
def commitLocalDgram (owner h length : ℕ) (address : Address) : Table :=
  t.on owner h fun _ =>
    match t.findLocalBound address .dgram with
    | none => t
    | some j => (t.queueLocal j length).getD t

/-- A pass of `net_socket_send_tcp` that cannot send -/
def sendTcp (owner h : ℕ) (c : Caller) : Table :=
  t.on owner h fun i => if t.state i ≠ .tcpConnected ∨ t.pcb i = none then t else (t.wait i .writer c).1

/-- `net_socket_send_udp`, as far as it writes to the table -/
def sendUdp (owner h : ℕ) (answer : Option Address) : Table :=
  t.on owner h fun i => if (t.kind i).protocol = .udp then (t.bindAny i answer).1 else t

/-- `net_socket_wake_local_writer` -/
def wakeLocalWriter (i : ℕ) : Table :=
  match t.localPeer i with
  | some j => t.wake j .writer
  | none => t

def dropPacket (i p : ℕ) : Table :=
  let q := t.queue i
  let next := (t.packets p).next
  (t.setQueue i { q with head := next, tail := if next = none then none else q.tail }).freePacket p

/-- The loop of `net_socket_recvfrom` over the packets; there are no more passes than packets. `copied` are the
packets that can be copied. -/
def takePackets (copied : ℕ → Bool) (i : ℕ) : ℕ → Table → ℕ → Table
  | 0, t, _ => t
  | n + 1, t, length =>
    match (t.queue i).head with
    | none => t
    | some p =>
      if length = 0 ∨ ¬copied p then t
      else
        let stream := (t.kind i).type = .stream
        let part := min ((t.packets p).total - (t.packets p).offset) length
        let t := t.setPacket p { t.packets p with offset := (t.packets p).offset + part }
        let t := t.setQueue i { t.queue i with bytes := (t.queue i).bytes - part }
        let rest := (t.packets p).total - (t.packets p).offset
        if stream then
          if rest ≠ 0 then t else takePackets copied i n ((t.dropPacket i p).wakeLocalWriter i) (length - part)
        else
          let t := t.setPacket p { t.packets p with offset := (t.packets p).total }
          let t := t.setQueue i { t.queue i with bytes := (t.queue i).bytes - rest }
          (t.dropPacket i p).wakeLocalWriter i

/-- One pass of `net_socket_recvfrom` -/
def recvfrom (owner h length : ℕ) (dontwait : Bool) (copied : ℕ → Bool) (c : Caller) : Table :=
  t.on owner h fun i =>
    if (t.settings i).shutdownRead then t.clearPackets i
    else if length = 0 then t
    else if (t.queue i).head ≠ none then takePackets copied i packetCapacity t length
    else if (t.kind i).type = .stream ∧ ((t.peer i).closed ∨ t.state i = .tcpFailed) then t
    else if dontwait ∨ (t.settings i).nonblocking then t
    else (t.wait i .reader c).1

/-! ### Callbacks -/

/-- `net_socket_tcp_receive`; no packet is the end of the stream. -/
def tcpReceive (i : ℕ) (packet : Option ℕ) (error : Bool) : Table :=
  match packet with
  | none => (((t.setPeer i { t.peer i with closed := true }).wake i .reader).wake i .writer).wake i .connector
  | some length =>
    if (t.settings i).shutdownRead then t
    else if error then ((t.setState i .tcpFailed).setSettings i { t.settings i with lastError := 104 }).wakeAll i
    else (t.queueOwnedPbuf i length).getD t

/-- `net_socket_tcp_receive` returns `ERR_MEM`. -/
def refuses (i : ℕ) (packet : Option ℕ) (error : Bool) : Bool :=
  packet.any fun length => !(t.settings i).shutdownRead && !error && (t.queueOwnedPbuf i length).isNone

def setRefused (b : ℕ) (refused : Bool) : Table := t.setBlock b ((t.blocks b).map fun block => { block with refused })

/-- lwIP gives this packet to a block: after `TF_RXCLOSED` only what the callback has refused before, and the end of
the stream. -/
def delivers (b : ℕ) (packet : Option ℕ) : Bool :=
  (t.blocks b).any fun block => packet.isNone || !block.rxClosed || block.refused

/-- `net_socket_tcp_error`; the block is gone when it is called. -/
def tcpError (i : ℕ) (reset : Bool) : Table :=
  let lastError := if reset ∧ t.state i = .tcpConnecting then 111 else 104
  let t := ((t.setSettings i { t.settings i with lastError }).setPcb i none).setState i .tcpFailed
  (t.setPeer i { t.peer i with closed := true }).wakeAll i

/-- `net_socket_tcp_connected`; `answer` is the local address of the block. -/
def tcpConnected (i b : ℕ) (error : Bool) (answer : Address) : Table :=
  if error then ((t.setState i .tcpFailed).setSettings i { t.settings i with lastError := 111 }).wakeAll i
  else
    let t := (t.setPcb i (some b)).setState i .tcpConnected
    (t.setSettings i { t.settings i with lastError := 0, address := answer }).wake i .connector

/-- `net_socket_tcp_accept`; a block that is not accepted is aborted, and has no callback for that. -/
def tcpAccept (i : ℕ) (block : Option ℕ) (error : Bool) (local_ peer : Address) : Table :=
  match block with
  | none => t
  | some b =>
    if error ∨ t.state i ≠ .tcpListening ∨ (t.pending i).backlog ≤ (t.pending i).count then t.freeBlock b
    else
      match t.reserve (t.owner i) with
      | none => t.freeBlock b
      | some (c, t) =>
        let t := (t.setKind c ⟨.inet, .stream, .tcp⟩).setState c .tcpConnected
        let t := t.setSettings c { t.settings c with address := local_, peer }
        (t.attach c b .tcp).pendingPush i c

/-- `net_socket_tick`; `passed` says which deadlines have passed. -/
def tick (passed : ℕ → Bool) : Table :=
  (List.range capacity).foldl
    (fun t i =>
      if t.state i = .free then t
      else
        [Role.reader, .writer, .connector, .acceptor].foldl
          (fun t r => if (t.waiter i r).deadline ≠ 0 ∧ passed (t.waiter i r).deadline then t.wake i r else t) t) t

/-- `net_socket_cancel_waits` -/
def cancelWaits (tid generation : ℕ) : Table :=
  (List.range capacity).foldl
    (fun t i =>
      if t.state i = .free then t
      else (((t.cancel i .reader tid generation).cancel i .writer tid generation).cancel i .connector tid generation).cancel i
        .acceptor tid generation) t

/-- `net_socket_task_cleanup` -/
def taskCleanup (stays : ℕ → Bool) (owner : ℕ) : Table :=
  (List.range capacity).foldl
    (fun t i => if t.state i ≠ .free ∧ t.owner i = owner then t.dispose stays capacity i else t) t

end Table

/-! ### Runs -/

inductive Event
  | create (owner : ℕ) (domain : Domain) (type : SocketType) (protocol : Protocol) (up : Bool) (block : Option ℕ)
  | pair (stays : ℕ → Bool) (owner : ℕ)
  | close (stays : ℕ → Bool) (owner h : ℕ)
  | bind (owner h : ℕ) (address : Address) (answer : Option Address)
  | connect (owner h : ℕ) (address : Address) (answer : Option Address) (accepted : Bool)
  | connectPass (owner h : ℕ) (c : Table.Caller)
  | listen (owner h backlog : ℕ) (answer : Option Address) (block : Option ℕ)
  | accept (owner h : ℕ) (c : Table.Caller)
  | shutdown (owner h : ℕ) (shutRead shutWrite : Bool) (error : LwipError) (stays : Bool)
  | sendLocalStream (owner h length : ℕ) (dontwait : Bool) (c : Table.Caller)
  | commitLocalStream (owner h length : ℕ)
  | commitLocalDgram (owner h length : ℕ) (address : Address)
  | sendTcp (owner h : ℕ) (c : Table.Caller)
  | sendUdp (owner h : ℕ) (answer : Option Address)
  | recvfrom (owner h length : ℕ) (dontwait : Bool) (copied : ℕ → Bool) (c : Table.Caller)
  | setFlags (owner h : ℕ) (nonblocking : Bool)
  /-- `net_socket_getname`, which reads the address of the block -/
  | getname (owner h : ℕ) (answer : Option Address)
  /-- `net_socket_poll` puts a watch of this poller into the queue of a socket. -/
  | poll (owner h poller : ℕ)
  /-- `detach`: a poller leaves all queues. -/
  | leave (poller : ℕ)
  /-- a task goes on behind the switch in `net_socket_wait`. -/
  | resume (i : ℕ) (r : Role) (tid generation : ℕ)
  | tick (passed : ℕ → Bool)
  | cancelWaits (tid generation : ℕ)
  | taskCleanup (stays : ℕ → Bool) (owner : ℕ)
  | tcpReceive (b : ℕ) (packet : Option ℕ) (error : Bool)
  | tcpSent (b : ℕ)
  | tcpError (b : ℕ) (reset : Bool)
  | tcpConnected (b : ℕ) (error : Bool) (answer : Address)
  /-- a segment for a block that listens makes a half-open one; it has its argument. -/
  | tcpSyn (b new : ℕ)
  /-- lwIP has no memory for a half-open block, and calls `net_socket_tcp_accept` without one. -/
  | tcpNoMemory (b : ℕ)
  /-- the connection of a half-open block is there, and lwIP calls `net_socket_tcp_accept` if the one that listened is
  too. -/
  | tcpAccept (b : ℕ) (local_ peer : Address)
  | udpReceive (b length : ℕ)
  | rawReceive (b length : ℕ) (cloned : Bool)
  /-- lwIP frees a block without a callback. -/
  | lwipFree (b : ℕ)

namespace Table

variable (t : Table)

/-- The block of a callback, and its kind -/
def eventBlock : Event → Option (ℕ × BlockKind)
  | .tcpReceive b .. | .tcpSent b | .tcpError b _ | .tcpConnected b .. => some (b, .tcp)
  | .tcpNoMemory b => some (b, .listen)
  | .tcpAccept b .. => some (b, .half)
  | .udpReceive b _ => some (b, .udp)
  | .rawReceive b .. => some (b, .raw)
  | _ => none

/-- What a callback gets for a block of this kind; for a half-open one, that of the block which listens -/
def argument (b : ℕ) (kind : BlockKind) : Option (ℕ × ℕ) :=
  (t.blocks b).bind fun block => if block.kind = kind ∧ (kind = .half → block.listener ≠ none) then block.arg else none

/-- The slot that a callback gets, and for which use of it the argument was set -/
def runsOn (e : Event) : Option (ℕ × ℕ) := (eventBlock e).bind fun c => t.argument c.1 c.2

def Unused (b : ℕ) : Prop := t.blocks b = none

instance (b : ℕ) : Decidable (t.Unused b) := inferInstanceAs (Decidable (t.blocks b = none))

def callback (b : ℕ) (kind : BlockKind) (f : ℕ → Table) : Option Table :=
  match t.blocks b with
  | none => none
  | some block =>
    if block.kind ≠ kind then none
    else
      match block.arg with
      | none => some t
      | some (i, _) => some (f i)

/-- A half-open block is answered: lwIP calls `net_socket_tcp_accept`, or aborts the block when none listens any more. -/
def established (b : ℕ) (local_ peer : Address) : Table :=
  match t.argument b .half with
  | none => t.freeBlock b
  | some (i, _) => t.tcpAccept i (some b) false local_ peer

def step : Event → Option Table
  | .create owner domain type protocol up block =>
    if ∀ b ∈ block, t.Unused b then some (t.create owner domain type protocol up block) else none
  | .pair stays owner => some (t.pair stays owner)
  | .close stays owner h => some (t.on owner h (t.dispose stays capacity))
  | .bind owner h address answer => some (t.bind owner h address answer)
  | .connect owner h address answer accepted => some (t.connect owner h address answer accepted)
  | .connectPass owner h c => if (owner, h) ∈ t.connecting then some (t.connectPass owner h c) else none
  | .listen owner h backlog answer block =>
    if ∀ b ∈ block, t.Unused b then some (t.listen owner h backlog answer block) else none
  | .accept owner h c => some (t.accept owner h c)
  | .shutdown owner h shutRead shutWrite error stays => some (t.shutdown owner h shutRead shutWrite error stays)
  | .sendLocalStream owner h length dontwait c => some (t.sendLocalStream owner h length dontwait c)
  | .commitLocalStream owner h length => some (t.commitLocalStream owner h length)
  | .commitLocalDgram owner h length address => some (t.commitLocalDgram owner h length address)
  | .sendTcp owner h c => some (t.sendTcp owner h c)
  | .sendUdp owner h answer => some (t.sendUdp owner h answer)
  | .recvfrom owner h length dontwait copied c => some (t.recvfrom owner h length dontwait copied c)
  | .setFlags owner h nonblocking => some (t.on owner h fun i => t.setSettings i { t.settings i with nonblocking })
  | .getname owner h answer =>
    some (t.on owner h fun i =>
      if (t.kind i).domain = .inet then
        t.setSettings i { t.settings i with address := answer.getD (t.settings i).address }
      else t)
  | .poll owner h poller => some (t.on owner h fun i => { t with watches := (poller, i) :: t.watches })
  | .leave poller => some { t with watches := t.watches.filter fun w => w.1 ≠ poller }
  | .resume i r tid generation => some (t.cancel i r tid generation)
  | .tick passed => some (t.tick passed)
  | .cancelWaits tid generation => some (t.cancelWaits tid generation)
  | .taskCleanup stays owner => some (t.taskCleanup stays owner)
  | .tcpReceive b packet error =>
    if t.delivers b packet then
      t.callback b .tcp fun i => (t.tcpReceive i packet error).setRefused b (t.refuses i packet error)
    else none
  | .tcpSent b => t.callback b .tcp fun i => t.wake i .writer
  | .tcpError b reset => t.callback b .tcp fun i => (t.freeBlock b).tcpError i reset
  | .tcpConnected b error answer =>
    if (t.blocks b).any Block.connected then t.callback b .tcp fun i => t.tcpConnected i b error answer else none
  | .tcpSyn b new =>
    match t.blocks b with
    | some ⟨.listen, arg, _, _, _, _⟩ =>
      if t.Unused new then some (t.setBlock new (some ⟨.half, arg, false, false, false, some b⟩)) else none
    | _ => none
  | .tcpNoMemory b => t.callback b .listen fun i => t.tcpAccept i none true .unspecified .unspecified
  | .tcpAccept b local_ peer =>
    if (t.blocks b).any fun block => block.kind = .half then some (t.established b local_ peer) else none
  | .udpReceive b length => t.callback b .udp fun i => (t.queueOwnedPbuf i length).getD t
  | .rawReceive b length cloned => t.callback b .raw fun i => (t.queueRawPacket i length cloned).getD t
  | .lwipFree b => if t.listens b then none else some (t.freeBlock b)

end Table

/-- No socket has been open, and `net_socket_system_init` has put all packets into the free list. -/
def Table.boot : Table where
  state _ := .free
  owner _ := 0
  generation _ := 0
  kind _ := .zero
  settings _ := .zero
  peer _ := .zero
  pending _ := .zero
  queue _ := .zero
  waiter _ _ := .zero
  pcb _ := none
  packets p := ⟨if p = 0 then none else some (p - 1), 0, 0⟩
  packetFree := some (packetCapacity - 1)
  watches := []
  blocks _ := none
  connecting := []
  lives _ := 0
  issued := []

def sys : System Table Event where
  init t := t = .boot
  step := Table.step

end PlantOS.Net.Slots
