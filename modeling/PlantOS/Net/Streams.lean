import Mathlib.Data.List.Nodup
import PlantOS.Lib.Run

/-!
# Local stream sockets

`net/socket.c`: the socket table, the packet pool, and the calls on connected local streams. A step is what a task
does while it has the interrupts off.
-/

namespace PlantOS.Net

open Lib

/-- `NET_SOCKET_CAPACITY` -/
abbrev capacity : ℕ := 32

/-- `NET_SOCKET_PACKET_CAPACITY` -/
abbrev packetCapacity : ℕ := 64

/-- `NET_SOCKET_GENERATION_MAX` -/
abbrev generationMax : ℕ := 0x00ffffff

/-- `NET_SOCKET_RX_LIMIT` -/
abbrev rxLimit : ℕ := 64 * 1024

/-- `NET_SOCKET_MAX_PAYLOAD` -/
abbrev maxPayload : ℕ := 65535

/-- `NET_SOCKET_FREE`, `NET_SOCKET_LOCAL_READY`, `NET_SOCKET_LOCAL_CONNECTED` and `NET_SOCKET_LOCAL_LISTENING` of a
stream; `other` is every state of another kind of socket, and `NET_SOCKET_RESERVED`. -/
inductive SocketState
  | free | other | ready | connected | listening
  deriving DecidableEq, Repr

inductive NetError
  | noent | notconn | again | busy | timedout | nomem | inval | pipe
  deriving DecidableEq, Repr

structure Handle where
  slot : ℕ
  generation : ℕ
  deriving DecidableEq, Repr

structure Packet where
  data : List UInt8
  offset : ℕ
  deriving DecidableEq, Repr

structure Socket where
  state : SocketState
  owner : ℕ
  generation : ℕ
  queuedBytes : ℕ
  /-- the packets from `receive_head` to `receive_tail` -/
  queue : List ℕ
  /-- `peer_slot` and `peer_generation`; `none` is `NET_SOCKET_SLOT_NONE` -/
  peer : Option (ℕ × ℕ)
  peerClosed : Bool
  nonblocking : Bool
  shutdownRead : Bool
  shutdownWrite : Bool
  /-- the slots from `pending_head` to `pending_tail` -/
  pending : List ℕ
  parent : Option (ℕ × ℕ)
  backlog : ℕ
  /-- which socket this is, of all that have been in the table; no code reads it -/
  life : ℕ
  deriving DecidableEq, Repr

/-- A slot after `net_socket_dispose`; no code reads the other fields of a free slot. -/
def Socket.blank (generation : ℕ) : Socket := ⟨.free, 0, generation, 0, [], none, false, false, false, false, [], none, 0, 0⟩

/-- A slot after `net_socket_reserve` -/
def Socket.fresh (state : SocketState) (owner generation life : ℕ) : Socket :=
  ⟨state, owner, generation, 0, [], none, false, false, false, false, [], none, 0, life⟩

/-- The arguments of a call of `net_socket_sendto`; `id` counts the calls, and no code reads it. -/
structure Send where
  id : ℕ
  owner : ℕ
  handle : Handle
  data : List UInt8
  dontwait : Bool
  deriving DecidableEq, Repr

/-- The arguments of a call of `net_socket_recvfrom` -/
structure Receive where
  owner : ℕ
  handle : Handle
  length : ℕ
  dontwait : Bool
  deriving DecidableEq, Repr

inductive Pc
  | idle
  /-- the loop of `net_socket_send_local_stream` begins -/
  | send (c : Send)
  /-- the data is copied -/
  | copied (c : Send)
  /-- the loop of `net_socket_recvfrom` begins -/
  | receive (c : Receive)
  deriving DecidableEq, Repr

/-- A block that a call of `net_socket_sendto` has put into a queue, and the sockets at both ends -/
structure Accepted where
  call : ℕ
  sender : ℕ
  receiver : ℕ
  data : List UInt8
  deriving DecidableEq, Repr

/-- What `net_socket_sendto` has returned -/
structure Outcome where
  call : ℕ
  data : List UInt8
  result : Except NetError ℕ

structure NetState where
  sockets : ℕ → Socket
  packets : ℕ → Packet
  /-- the list `net_packet_free`, and the packets of other kinds of sockets -/
  free : List ℕ
  foreign : List ℕ
  pc : ℕ → Pc
  /-- the sockets and the calls so far, which sockets were connected, the blocks that have been accepted, what has
  been returned from a socket, the sockets whose receive has returned 0 for their end, and what the calls have
  returned; no code reads them -/
  lives : ℕ
  calls : ℕ
  partner : ℕ → Option ℕ
  accepted : List Accepted
  returned : ℕ → List UInt8
  ended : List ℕ
  outcomes : List Outcome

/-- What a pass of the loop over the packets in `net_socket_recvfrom` leaves and takes -/
structure Drained where
  packets : ℕ → Packet
  queue : List ℕ
  freed : List ℕ
  taken : List UInt8

/-- The loop over the packets in `net_socket_recvfrom` -/
def drain (packets : ℕ → Packet) : List ℕ → ℕ → Drained
  | [], _ => ⟨packets, [], [], []⟩
  | p :: queue, length =>
    if length = 0 then ⟨packets, p :: queue, [], []⟩
    else
      let packet := packets p
      let part := min (packet.data.length - packet.offset) length
      let taken := (packet.data.drop packet.offset).take part
      if packet.offset + part ≠ packet.data.length then
        ⟨Function.update packets p { packet with offset := packet.offset + part }, p :: queue, [], taken⟩
      else
        let rest := drain (Function.update packets p ⟨[], 0⟩) queue (length - part)
        { rest with freed := p :: rest.freed, taken := taken ++ rest.taken }

namespace NetState

variable (s : NetState)

def set (i : ℕ) (socket : Socket) : NetState := { s with sockets := Function.update s.sockets i socket }

def goto (t : ℕ) (pc : Pc) : NetState := { s with pc := Function.update s.pc t pc }

/-- `net_socket_find` -/
def find (owner : ℕ) (h : Handle) : Option ℕ :=
  let socket := s.sockets h.slot
  if h.slot < capacity ∧ h.generation ≠ 0 ∧ socket.state ≠ .free ∧ socket.owner = owner ∧ socket.generation = h.generation then
    some h.slot
  else none

/-- `net_socket_from_slot` -/
def fromSlot : Option (ℕ × ℕ) → Option ℕ
  | none => none
  | some (i, generation) =>
    if i < capacity ∧ (s.sockets i).state ≠ .free ∧ (s.sockets i).generation = generation then some i else none

/-- `net_socket_local_peer` -/
def localPeer (i : ℕ) : Option ℕ := s.fromSlot (s.sockets i).peer

def nextGeneration (generation : ℕ) : ℕ := if generation + 1 > generationMax then 1 else generation + 1

/-- `net_socket_reserve`, and the state that its caller gives the socket -/
def reserve (owner : ℕ) (state : SocketState) : Option (ℕ × NetState) :=
  match (List.range capacity).find? fun i => (s.sockets i).state = .free with
  | none => none
  | some i =>
    some (i, { s.set i (.fresh state owner (nextGeneration (s.sockets i).generation) s.lives) with lives := s.lives + 1 })

/-- `net_socket_queue_has_room` -/
def hasRoom (i length : ℕ) : Prop := length ≤ rxLimit ∧ (s.sockets i).queuedBytes ≤ rxLimit - length

instance (i length : ℕ) : Decidable (s.hasRoom i length) := inferInstanceAs (Decidable (_ ∧ _))

/-- `net_socket_queue_local`, with the ghost of the call -/
def queueLocal (i : ℕ) (e : Accepted) : Option NetState :=
  let socket := s.sockets i
  match s.free with
  | [] => none
  | p :: free =>
    if s.hasRoom i e.data.length then
      some { s.set i { socket with queue := socket.queue ++ [p], queuedBytes := socket.queuedBytes + e.data.length } with
        packets := Function.update s.packets p ⟨e.data, 0⟩, free, accepted := s.accepted ++ [e] }
    else none

/-- `net_socket_clear_packets` -/
def clear (i : ℕ) : NetState :=
  let socket := s.sockets i
  { s.set i { socket with queue := [], queuedBytes := 0 } with
    packets := fun p => if p ∈ socket.queue then ⟨[], 0⟩ else s.packets p
    free := socket.queue.reverse ++ s.free }

/-- `net_socket_pending_remove` for a socket that waits to be accepted -/
def unparent (i : ℕ) : NetState :=
  match s.fromSlot (s.sockets i).parent with
  | some l =>
    let s := s.set l { s.sockets l with pending := (s.sockets l).pending.erase i }
    s.set i { s.sockets i with parent := none }
  | none => s

/-- `net_socket_pending_pop` of this child -/
def pop (l child : ℕ) : NetState :=
  let s := s.set l { s.sockets l with pending := (s.sockets l).pending.tail }
  s.set child { s.sockets child with parent := none }

def unpeer (i : ℕ) : NetState :=
  match s.localPeer i with
  | some j => s.set j { s.sockets j with peer := none, peerClosed := true }
  | none => s

/-- The end of `net_socket_dispose` -/
def finish (i : ℕ) : NetState :=
  let s := (s.unpeer i).clear i
  s.set i (.blank (s.sockets i).generation)

/-- `net_socket_dispose`; the first argument bounds how deep sockets that wait to be accepted are nested. -/
def dispose : ℕ → NetState → ℕ → NetState
  | 0, s, _ => s
  | n + 1, s, i =>
    if (s.sockets i).state = .free then s
    else
      let s := s.unparent i
      ((s.sockets i).pending.foldl (fun s child => dispose n (s.pop i child) child) s).finish i

def link (i j : ℕ) : NetState :=
  let left := s.sockets i
  let right := s.sockets j
  let s := s.set i { left with state := .connected, peerClosed := false, peer := some (j, right.generation) }
  { s.set j { right with state := .connected, peerClosed := false, peer := some (i, left.generation) } with
    partner := Function.update (Function.update s.partner left.life (some right.life)) right.life (some left.life) }

/-- `net_socket_connect_local_stream`, with the listener that has the address -/
def connect (i l : ℕ) : Except NetError NetState :=
  if (s.sockets l).state ≠ .listening then .error .noent
  else if (s.sockets l).pending.length ≥ (s.sockets l).backlog then .error .again
  else
    match s.reserve (s.sockets l).owner .connected with
    | none => .error .nomem
    | some (child, s) =>
      let s := s.link i child
      let s := s.set l { s.sockets l with pending := (s.sockets l).pending ++ [child] }
      .ok (s.set child { s.sockets child with parent := some (l, (s.sockets l).generation) })

/-- `net_socket_pair` -/
def pair (owner : ℕ) : NetState :=
  match s.reserve owner .other with
  | none => s
  | some (left, s) =>
    match s.reserve owner .other with
    | none => s.dispose capacity left
    | some (right, s) => s.link left right

/-- `net_socket_shutdown` of a local stream -/
def shutdown (i : ℕ) (shutRead shutWrite : Bool) : NetState :=
  let s := if shutRead then (s.set i { s.sockets i with shutdownRead := true }).clear i else s
  if shutWrite then
    let s := s.set i { s.sockets i with shutdownWrite := true }
    match s.localPeer i with
    | some j => s.set j { s.sockets j with peerClosed := true }
    | none => s
  else s

/-- A call of `net_socket_sendto` returns. -/
def sent (t : ℕ) (c : Send) (result : Except NetError ℕ) : NetState :=
  { s.goto t .idle with outcomes := ⟨c.id, c.data, result⟩ :: s.outcomes }

/-- `net_socket_sendto` on a local stream, up to its loop; `badArgs` are unknown flags or data that are not there, and
`address` says that one is given. -/
def sendto (t owner : ℕ) (h : Handle) (data : List UInt8) (badArgs address dontwait : Bool) : Option NetState :=
  let c : Send := ⟨s.calls, owner, h, data, dontwait⟩
  let s := { s with calls := s.calls + 1 }
  if badArgs ∨ data.length > maxPayload then some (s.sent t c (.error .inval))
  else
    match s.find owner h with
    | none => some (s.sent t c (.error .noent))
    | some i =>
      if (s.sockets i).state = .other then none
      else if (s.sockets i).shutdownWrite then some (s.sent t c (.error .pipe))
      else if data = [] then some (s.sent t c (.ok 0))
      else if address then some (s.sent t c (.error .inval))
      else some (s.goto t (.send { c with dontwait := dontwait || (s.sockets i).nonblocking }))

/-- `net_socket_send_local_stream` up to its copy; `waits` is what `net_socket_wait` returns, if it returns an error. -/
def trySend (t : ℕ) (c : Send) (waits : Option NetError) (mallocOk : Bool) : NetState :=
  match s.find c.owner c.handle with
  | none => s.sent t c (.error .noent)
  | some i =>
    match s.localPeer i with
    | none => s.sent t c (.error .notconn)
    | some j =>
      if (s.sockets i).state ≠ .connected ∨ (s.sockets j).peerClosed then s.sent t c (.error .notconn)
      else if ¬s.hasRoom j c.data.length ∨ s.free = [] then
        if c.dontwait then s.sent t c (.error .again)
        else
          match waits with
          | some error => s.sent t c (.error error)
          | none => s
      else if mallocOk then s.goto t (.copied c)
      else s.sent t c (.error .nomem)

/-- `net_socket_send_local_stream` behind its copy -/
def commitSend (t : ℕ) (c : Send) : NetState :=
  match s.find c.owner c.handle with
  | none => s.sent t c (.error .noent)
  | some i =>
    match s.localPeer i with
    | none => s.sent t c (.error .notconn)
    | some j =>
      if (s.sockets j).peerClosed then s.sent t c (.error .notconn)
      else
        let e : Accepted := ⟨c.id, (s.sockets i).life, (s.sockets j).life, c.data⟩
        match if (s.sockets i).state = .connected then s.queueLocal j e else none with
        | some s => s.sent t c (.ok c.data.length)
        | none =>
          if c.dontwait ∨ ¬(¬s.hasRoom j c.data.length ∨ s.free = []) then s.sent t c (.error .again) else s.goto t (.send c)

def take (i length : ℕ) : NetState :=
  let socket := s.sockets i
  let drained := drain s.packets socket.queue length
  { s.set i { socket with queue := drained.queue, queuedBytes := socket.queuedBytes - drained.taken.length } with
    packets := drained.packets
    free := drained.freed.reverse ++ s.free
    returned := Function.update s.returned socket.life (s.returned socket.life ++ drained.taken) }

/-- `net_socket_recvfrom` returns 0 although bytes were asked for and reading is not shut down. -/
def atEnd (i : ℕ) : NetState := { s with ended := (s.sockets i).life :: s.ended }

/-- One pass of the loop in `net_socket_recvfrom` -/
def receive (t : ℕ) (c : Receive) (waits : Option NetError) : NetState :=
  match s.find c.owner c.handle with
  | none => s.goto t .idle
  | some i =>
    if (s.sockets i).shutdownRead then (s.clear i).goto t .idle
    else if c.length = 0 then s.goto t .idle
    else if (s.sockets i).queue ≠ [] then
      let s' := s.take i c.length
      (if (drain s.packets (s.sockets i).queue c.length).taken = [] then s'.atEnd i else s').goto t .idle
    else if (s.sockets i).peerClosed then (s.atEnd i).goto t .idle
    else if c.dontwait ∨ (s.sockets i).nonblocking then s.goto t .idle
    else
      match waits with
      | some _ => s.goto t .idle
      | none => s

def goOn (t : ℕ) (waits : Option NetError) (mallocOk : Bool) : Option NetState :=
  match s.pc t with
  | .idle => none
  | .send c => some (s.trySend t c waits mallocOk)
  | .copied c => some (s.commitSend t c)
  | .receive c => some (s.receive t c waits)

def on (owner : ℕ) (h : Handle) (f : ℕ → NetState) : Option NetState :=
  match s.find owner h with
  | none => some s
  | some i => if (s.sockets i).state = .other then none else some (f i)

end NetState

inductive Event
  /-- `net_socket_create` of a local stream, or of another kind of socket -/
  | create (owner : ℕ) (local_ : Bool)
  /-- `net_socket_listen`; `bound` says that the socket has an address -/
  | listen (owner : ℕ) (h : Handle) (bound : Bool) (backlog : ℕ)
  /-- `net_socket_connect` to the address of this slot -/
  | connect (owner : ℕ) (h : Handle) (listener : ℕ)
  | accept (owner : ℕ) (h : Handle)
  | pair (owner : ℕ)
  /-- `net_socket_close`, of any kind of socket -/
  | close (owner : ℕ) (h : Handle)
  | shutdown (owner : ℕ) (h : Handle) (shutRead shutWrite : Bool)
  | setFlags (owner : ℕ) (h : Handle) (nonblocking : Bool)
  | sendto (t owner : ℕ) (h : Handle) (data : List UInt8) (badArgs address dontwait : Bool)
  | recvfrom (t : ℕ) (c : Receive)
  /-- a task goes on with its call; `net_socket_wait` returns an error, and `malloc` gives memory -/
  | goOn (t : ℕ) (waits : Option NetError) (mallocOk : Bool)
  /-- another kind of socket takes a packet from the pool, or gives it back -/
  | foreignTake
  | foreignFree (p : ℕ)

def NetState.step (s : NetState) : Event → Option NetState
  | .create owner local_ => (s.reserve owner (if local_ then .ready else .other)).map Prod.snd
  | .listen owner h bound backlog =>
    s.on owner h fun i =>
      if (s.sockets i).state = .ready ∧ bound ∧ 0 < backlog then
        s.set i { s.sockets i with state := .listening, backlog := min backlog 8 }
      else s
  | .connect owner h l =>
    s.on owner h fun i =>
      if (s.sockets i).state = .ready then
        match s.connect i l with
        | .ok s' => s'
        | .error _ => s
      else s
  | .accept owner h =>
    s.on owner h fun i =>
      if (s.sockets i).state = .listening then
        match (s.sockets i).pending with
        | child :: _ => s.pop i child
        | [] => s
      else s
  | .pair owner => some (s.pair owner)
  | .close owner h =>
    match s.find owner h with
    | some i => some (s.dispose capacity i)
    | none => some s
  | .shutdown owner h shutRead shutWrite => s.on owner h fun i => s.shutdown i shutRead shutWrite
  | .setFlags owner h nonblocking => s.on owner h fun i => s.set i { s.sockets i with nonblocking }
  | .sendto t owner h data badArgs address dontwait =>
    if s.pc t = .idle then s.sendto t owner h data badArgs address dontwait else none
  | .recvfrom t c =>
    if s.pc t = .idle then (s.on c.owner c.handle fun _ => s.goto t (.receive c)) else none
  | .goOn t waits mallocOk => s.goOn t waits mallocOk
  | .foreignTake =>
    match s.free with
    | p :: free => some { s with free, foreign := p :: s.foreign }
    | [] => none
  | .foreignFree p => if p ∈ s.foreign then some { s with free := p :: s.free, foreign := s.foreign.erase p } else none

/-- No socket is open, `net_socket_system_init` has put the packets into the free list, and no task is in a call. -/
def sys : System NetState Event where
  init s := (∀ i, s.sockets i = .blank (s.sockets i).generation) ∧ s.free = (List.range packetCapacity).reverse ∧
    s.foreign = [] ∧ (∀ t, s.pc t = .idle) ∧ (∀ n, s.partner n = none) ∧ s.accepted = [] ∧ (∀ n, s.returned n = []) ∧
    s.ended = [] ∧ s.outcomes = []
  step := NetState.step

/-! ## The bytes of a stream -/

open Function (update update_of_ne update_self)

def content (packets : ℕ → Packet) (queue : List ℕ) : List UInt8 :=
    queue.flatMap fun p => (packets p).data.drop (packets p).offset

def stream (accepted : List Accepted) (life : ℕ) : List UInt8 :=
  (accepted.filter fun e => e.receiver = life).flatMap Accepted.data

lemma content_congr {packets packets' : ℕ → Packet} {queue : List ℕ} (h : ∀ p ∈ queue, packets' p = packets p) :
    content packets' queue = content packets queue := by
  unfold content
  refine List.flatMap_congr fun p hp => ?_
  rw [h p hp]

lemma content_cons (packets : ℕ → Packet) (p : ℕ) (queue : List ℕ) :
    content packets (p :: queue) = (packets p).data.drop (packets p).offset ++ content packets queue := List.flatMap_cons

lemma stream_append (accepted : List Accepted) (e : Accepted) (life : ℕ) :
    stream (accepted ++ [e]) life = stream accepted life ++ if e.receiver = life then e.data else [] := by
  unfold stream
  rw [List.filter_append, List.flatMap_append]
  by_cases h : e.receiver = life
  · rw [if_pos h, List.filter_cons_of_pos (by exact decide_eq_true h)]
    simp
  · rw [if_neg h, List.filter_cons_of_neg (by simpa using h)]
    rfl

/-! ### The loop over the packets -/

lemma drain_freed (packets : ℕ → Packet) (queue : List ℕ) (length : ℕ) :
    (drain packets queue length).freed ++ (drain packets queue length).queue = queue := by
  induction queue generalizing packets length with
  | nil => rfl
  | cons p queue ih =>
    unfold drain
    dsimp only
    split_ifs
    · rfl
    · rfl
    · rw [List.cons_append, ih]

lemma drain_packets (packets : ℕ → Packet) (queue : List ℕ) (length : ℕ) {p : ℕ} (hp : p ∉ queue) :
    (drain packets queue length).packets p = packets p := by
  induction queue generalizing packets length with
  | nil => rfl
  | cons q queue ih =>
    have hne : p ≠ q := fun heq => hp (heq ▸ List.mem_cons_self)
    have hnot : p ∉ queue := fun hmem => hp (.tail _ hmem)
    unfold drain
    dsimp only
    split_ifs
    · rfl
    · exact update_of_ne hne ..
    · exact (ih _ _ hnot).trans (update_of_ne hne ..)

lemma drain_content (packets : ℕ → Packet) (queue : List ℕ) (length : ℕ) (hnd : queue.Nodup) :
    content packets queue =
      (drain packets queue length).taken ++ content (drain packets queue length).packets
      (drain packets queue length).queue := by
  induction queue generalizing packets length with
  | nil => rfl
  | cons p queue ih =>
    obtain ⟨hnot, hqu⟩ := List.nodup_cons.mp hnd
    have hoths : ∀ packet, ∀ q ∈ queue, update packets p packet q = packets q := fun packet q hq =>
      update_of_ne (fun heq : q = p => hnot (heq ▸ hq)) ..
    unfold drain
    dsimp only
    split_ifs with hzero hpart
    · rfl
    · dsimp only
      rw [content_cons, content_cons, content_congr (hoths _), update_self, ← List.append_assoc]
      dsimp only
      rw [← List.drop_drop, List.take_append_drop]
    · -- the packet is taken whole
      have hlen : ((packets p).data.drop (packets p).offset).length ≤ min
        ((packets p).data.length - (packets p).offset) length := by
        rw [List.length_drop]
        omega
      rw [content_cons, List.take_of_length_le hlen, ← content_congr (hoths ⟨[], 0⟩),
        ih (update packets p ⟨[], 0⟩) _ hqu, List.append_assoc]

def Left (packets : ℕ → Packet) (queue : List ℕ) : Prop := ∀ p ∈ queue, (packets p).offset < (packets p).data.length

lemma drain_left (packets : ℕ → Packet) (queue : List ℕ) (length : ℕ) (hnd : queue.Nodup) (hleft : Left packets queue) :
    Left (drain packets queue length).packets (drain packets queue length).queue := by
  induction queue generalizing packets length with
  | nil => exact hleft
  | cons p queue ih =>
    obtain ⟨hnot, hqu⟩ := List.nodup_cons.mp hnd
    have hoths : ∀ packet, ∀ q ∈ queue, update packets p packet q = packets q := fun packet q hq =>
      update_of_ne (fun heq : q = p => hnot (heq ▸ hq)) ..
    have hp := hleft p List.mem_cons_self
    unfold drain
    dsimp only
    split_ifs with hzero hpart
    · exact hleft
    · intro q hq
      rcases List.mem_cons.mp hq with rfl | hmem
      · dsimp only
        rw [update_self]
        dsimp only
        omega
      · dsimp only
        rw [hoths _ q hmem]
        exact hleft q (.tail _ hmem)
    · refine ih _ _ hqu fun q hq => ?_
      rw [hoths _ q hq]
      exact hleft q (.tail _ hq)

/-- **A receive takes bytes** if it asks for some and there are some. -/
lemma drain_taken (packets : ℕ → Packet) {queue : List ℕ} {length : ℕ} (hleft : Left packets queue) (hqu : queue ≠ [])
    (hlng : length ≠ 0) : (drain packets queue length).taken ≠ [] := by
  cases queue with
  | nil => exact absurd rfl hqu
  | cons p queue =>
    have hp := hleft p List.mem_cons_self
    have hpart : 0 < (((packets p).data.drop (packets p).offset).take
        (min ((packets p).data.length - (packets p).offset) length)).length := by
      rw [List.length_take, List.length_drop]
      omega
    unfold drain
    dsimp only
    rw [if_neg hlng]
    split_ifs
    · exact List.ne_nil_of_length_pos hpart
    · exact List.append_ne_nil_of_left_ne_nil (List.ne_nil_of_length_pos hpart) _

lemma drain_taken_eq (packets : ℕ → Packet) (queue : List ℕ) (length : ℕ) (hnd : queue.Nodup) (hleft : Left packets queue) :
    (drain packets queue length).taken = (content packets queue).take length := by
  induction queue generalizing packets length with
  | nil => exact List.take_nil.symm
  | cons p queue ih =>
    obtain ⟨hnot, hqu⟩ := List.nodup_cons.mp hnd
    have hoths : ∀ q ∈ queue, update packets p ⟨[], 0⟩ q = packets q := fun q hq =>
      update_of_ne (fun heq : q = p => hnot (heq ▸ hq)) ..
    have hp := hleft p List.mem_cons_self
    unfold drain
    dsimp only
    rw [content_cons, List.take_append, List.length_drop]
    split_ifs with hzero hpart
    · rw [hzero, List.take_zero, Nat.zero_sub, List.take_zero]
      rfl
    · -- the packet holds more than is asked for
      have hle : length ≤ (packets p).data.length - (packets p).offset := by omega
      rw [Nat.min_eq_right hle, Nat.sub_eq_zero_of_le hle, List.take_zero, List.append_nil]
    · have hle : (packets p).data.length - (packets p).offset ≤ length := by omega
      have hwh : ((packets p).data.drop (packets p).offset).length ≤ length := by rwa [List.length_drop]
      have hqueueLeft : Left (update packets p ⟨[], 0⟩) queue := fun q hq => by
        rw [hoths q hq]
        exact hleft q (.tail _ hq)
      rw [Nat.min_eq_left hle, List.take_of_length_le hwh, List.take_of_length_le (Nat.le_of_eq List.length_drop)]
      dsimp only
      rw [ih _ _ hqu hqueueLeft, content_congr hoths]

/-! ### The invariant -/

/-- Each packet is in one place, and a packet in a queue has bytes left. -/
structure Pool (s : NetState) : Prop where
  free : s.free.Nodup
  foreign : s.foreign.Nodup
  queue : ∀ i, (s.sockets i).queue.Nodup
  freeForeign : ∀ p ∈ s.free, p ∉ s.foreign
  freeQueue : ∀ p ∈ s.free, ∀ i, p ∉ (s.sockets i).queue
  foreignQueue : ∀ p ∈ s.foreign, ∀ i, p ∉ (s.sockets i).queue
  apart : ∀ i j, i ≠ j → ∀ p ∈ (s.sockets i).queue, p ∉ (s.sockets j).queue
  left : ∀ i, Left s.packets (s.sockets i).queue
  blank : ∀ i, (s.sockets i).state = .free → (s.sockets i).queue = []

/-- The socket at the other end points back, and was connected with this one. -/
structure Linked (s : NetState) (i j generation : ℕ) : Prop where
  near : i < capacity
  far : j < capacity
  ne : i ≠ j
  state : (s.sockets i).state = .connected
  other : (s.sockets j).state = .connected
  generation : (s.sockets j).generation = generation
  back : (s.sockets j).peer = some (i, (s.sockets i).generation)
  partner : s.partner (s.sockets j).life = some (s.sockets i).life

/-- Each socket is one of its own, and the ends of a connection point at each other. -/
structure Table (s : NetState) : Prop where
  life : ∀ i, (s.sockets i).state ≠ .free → (s.sockets i).life < s.lives
  one : ∀ i j, (s.sockets i).state ≠ .free → (s.sockets j).state ≠ .free → (s.sockets i).life = (s.sockets j).life → i = j
  peer : ∀ i j generation, (s.sockets i).state ≠ .free → (s.sockets i).peer = some (j, generation) → Linked s i j generation
  alone : ∀ i, (s.sockets i).state ≠ .free → (s.sockets i).state ≠ .connected → s.partner (s.sockets i).life = none
  closed : ∀ i, (s.sockets i).state ≠ .free → (s.sockets i).peerClosed = true → (s.sockets i).state = .connected
  idle : ∀ i, (s.sockets i).state = .free → (s.sockets i).peer = none
  unborn : ∀ n, s.lives ≤ n → s.partner n = none
  mutual_ : ∀ n m, s.partner n = some m → s.partner m = some n

/-- What a socket has got is what has been taken from it and what is in its queue. -/
structure Bytes (s : NetState) : Prop where
  content : ∀ i, (s.sockets i).state ≠ .free → (s.sockets i).shutdownRead = false →
    stream s.accepted (s.sockets i).life = s.returned (s.sockets i).life ++ content s.packets (s.sockets i).queue
  ahead : ∀ n, s.returned n <+: stream s.accepted n
  ended : ∀ n ∈ s.ended, s.returned n = stream s.accepted n ∧ n < s.lives ∧
    ∀ i, (s.sockets i).state ≠ .free → (s.sockets i).life = n → (s.sockets i).peerClosed = true
  unborn : ∀ n, s.lives ≤ n → stream s.accepted n = [] ∧ s.returned n = []
  partners : ∀ e ∈ s.accepted, s.partner e.receiver = some e.sender

structure Inv (s : NetState) : Prop where
  pool : Pool s
  table : Table s
  bytes : Bytes s

variable {s s' : NetState} {i j t : ℕ}

lemma Table.linked (h : Table s) (hi : (s.sockets i).state ≠ .free) (hj : s.localPeer i = some j) :
    Linked s i j (s.sockets j).generation ∧ (s.sockets i).peer = some (j, (s.sockets j).generation) := by
  unfold NetState.localPeer NetState.fromSlot at hj
  split at hj
  · cases hj
  · rename_i k generation hpeer
    rw [Option.ite_none_right_eq_some] at hj
    obtain ⟨⟨-, -, hgen⟩, hj⟩ := hj
    cases hj
    have hlink := h.peer i _ generation hi hpeer
    rw [hgen]
    exact ⟨hlink, hpeer⟩

lemma Table.localPeer (h : Table s) {generation : ℕ} (hi : (s.sockets i).state ≠ .free)
    (hpeer : (s.sockets i).peer = some (j, generation)) : s.localPeer i = some j := by
  have hlink := h.peer i j generation hi hpeer
  unfold NetState.localPeer
  rw [hpeer]
  unfold NetState.fromSlot
  exact if_pos ⟨hlink.far, by rw [hlink.other]; exact nofun, hlink.generation⟩

/-! ### What does not matter -/

lemma Pool.congr (h : Pool s) (hqu : ∀ i, (s'.sockets i).queue = (s.sockets i).queue)
    (hfree : ∀ i, (s'.sockets i).state = .free → (s.sockets i).state = .free ∨ (s.sockets i).queue = [])
    (hsame : s'.packets = s.packets ∧ s'.free = s.free ∧ s'.foreign = s.foreign) : Pool s' := by
  obtain ⟨hpkts, hlist, hforn⟩ := hsame
  refine ⟨hlist ▸ h.free, hforn ▸ h.foreign, fun i => ?_, fun p hp => ?_, fun p hp i => ?_, fun p hp i => ?_,
    fun i j hne p hp => ?_, fun i => ?_, fun i hi => ?_⟩
  · rw [hqu i]
    exact h.queue i
  · rw [hforn]
    exact h.freeForeign p (hlist ▸ hp)
  · rw [hqu i]
    exact h.freeQueue p (hlist ▸ hp) i
  · rw [hqu i]
    exact h.foreignQueue p (hforn ▸ hp) i
  · rw [hqu i] at hp
    rw [hqu j]
    exact h.apart i j hne p hp
  · rw [hqu i, hpkts]
    exact h.left i
  · rw [hqu i]
    exact (hfree i hi).elim (h.blank i) id

def Socket.core (socket : Socket) : SocketState × ℕ × ℕ × Option (ℕ × ℕ) × Bool :=
  (socket.state, socket.life, socket.generation, socket.peer, socket.peerClosed)

lemma core_eq {old new : Socket} (h : new.core = old.core) : new.state = old.state ∧ new.life = old.life ∧
    new.generation = old.generation ∧ new.peer = old.peer ∧ new.peerClosed = old.peerClosed := by
  unfold Socket.core at h
  simpa only [Prod.mk.injEq] using h

lemma Linked.congr {generation : ℕ} (h : Linked s i j generation) (hi : (s'.sockets i).core = (s.sockets i).core)
    (hj : (s'.sockets j).core = (s.sockets j).core)
    (hptn : s'.partner (s.sockets j).life = s.partner (s.sockets j).life) : Linked s' i j generation := by
  obtain ⟨hfi, hli, hgi, -, -⟩ := core_eq hi
  obtain ⟨hfj, hlj, hgj, hpj, -⟩ := core_eq hj
  exact ⟨h.near, h.far, h.ne, hfi.trans h.state, hfj.trans h.other, hgj.trans h.generation,
    by rw [hpj, hgi, h.back], by rw [hlj, hli, hptn, h.partner]⟩

lemma Table.congr (h : Table s) (hcore : ∀ i, (s'.sockets i).core = (s.sockets i).core) (hptn : s'.partner = s.partner)
    (hliv : s'.lives = s.lives) : Table s' := by
  have hcore' := fun i => core_eq (hcore i)
  refine ⟨fun i hi => ?_, fun i j hi hj heq => ?_, fun i j generation hi hpeer => ?_, fun i hi hnot => ?_, fun i hi hcls => ?_,
    fun i hi => ?_, fun n hn => ?_, hptn ▸ h.mutual_⟩
  · rw [(hcore' i).2.1, hliv]
    exact h.life i ((hcore' i).1 ▸ hi)
  · rw [(hcore' i).2.1, (hcore' j).2.1] at heq
    exact h.one i j ((hcore' i).1 ▸ hi) ((hcore' j).1 ▸ hj) heq
  · exact (h.peer i j generation ((hcore' i).1 ▸ hi) ((hcore' i).2.2.2.1 ▸ hpeer)).congr (hcore i) (hcore j)
      (congrFun hptn _)
  · rw [(hcore' i).2.1, hptn]
    exact h.alone i ((hcore' i).1 ▸ hi) ((hcore' i).1 ▸ hnot)
  · rw [(hcore' i).1]
    exact h.closed i ((hcore' i).1 ▸ hi) ((hcore' i).2.2.2.2 ▸ hcls)
  · rw [(hcore' i).2.2.2.1]
    exact h.idle i ((hcore' i).1 ▸ hi)
  · rw [hptn]
    exact h.unborn n (hliv ▸ hn)

lemma Inv.congr (h : Inv s) (hsame : s'.sockets = s.sockets ∧ s'.packets = s.packets ∧ s'.free = s.free ∧
    s'.foreign = s.foreign ∧
    s'.lives = s.lives ∧ s'.partner = s.partner ∧ s'.accepted = s.accepted ∧ s'.returned = s.returned ∧ s'.ended = s.ended) :
    Inv s' := by
  obtain ⟨sockets, packets, free, foreign, pc, lives, calls, partner, accepted, returned, ended, outcomes⟩ := s'
  obtain ⟨rfl, rfl, rfl, rfl, rfl, rfl, rfl, rfl, rfl⟩ := hsame
  refine ⟨h.pool.congr (fun _ => rfl) (fun _ => Or.inl) ⟨rfl, rfl, rfl⟩, h.table.congr (fun _ => rfl) rfl rfl, ?_⟩
  exact ⟨h.bytes.content, h.bytes.ahead, h.bytes.ended, h.bytes.unborn, h.bytes.partners⟩

/-- A change of a socket that takes no bytes and connects nothing -/
structure Like (old new : Socket) : Prop where
  state : new.state = old.state ∨ (old.state = .ready ∧ new.state = .listening)
  queue : new.queue = old.queue
  life : new.life = old.life
  generation : new.generation = old.generation
  peer : new.peer = old.peer ∨ new.peer = none
  closed : old.peerClosed = true → new.peerClosed = true
  open_ : new.peerClosed = true → old.peerClosed = true ∨ old.state = .connected
  read : new.shutdownRead = false → old.shutdownRead = false

lemma Like.free {old new : Socket} (h : Like old new) : new.state = .free ↔ old.state = .free := by
  rcases h.state with heq | ⟨hrdy, hlstn⟩
  · rw [heq]
  · rw [hrdy, hlstn]
    exact ⟨nofun, nofun⟩

lemma Like.connected {old new : Socket} (h : Like old new) : new.state = .connected ↔ old.state = .connected := by
  rcases h.state with heq | ⟨hrdy, hlstn⟩
  · rw [heq]
  · rw [hrdy, hlstn]
    exact ⟨nofun, nofun⟩

lemma Like.refl (socket : Socket) : Like socket socket := ⟨.inl rfl, rfl, rfl, rfl, .inl rfl, id, .inl, id⟩

/-- **Sockets change, and no bytes with them.** A connection is cut at both ends. -/
lemma Inv.like (h : Inv s) {sockets : ℕ → Socket} (hlike : ∀ i, Like (s.sockets i) (sockets i))
    (hback : ∀ i j generation, (sockets i).peer = some (j, generation) → (sockets j).peer = (s.sockets j).peer) :
    Inv { s with sockets } := by
  refine ⟨h.pool.congr (fun i => (hlike i).queue) (fun i hi => .inl ((hlike i).free.mp hi)) ⟨rfl, rfl, rfl⟩, ?_, ?_⟩
  · refine ⟨fun i hi => ?_, fun i j hi hj heq => ?_, fun i j generation hi hpeer => ?_, fun i hi hnot => ?_,
      fun i hi hcls => (hlike i).connected.mpr ?_, fun i hi => ?_, h.table.unborn, h.table.mutual_⟩
    · rw [(hlike i).life]
      exact h.table.life i (mt (hlike i).free.mpr hi)
    · rw [(hlike i).life, (hlike j).life] at heq
      exact h.table.one i j (mt (hlike i).free.mpr hi) (mt (hlike j).free.mpr hj) heq
    · have hold : (s.sockets i).peer = some (j, generation) := by
        rcases (hlike i).peer with heq | hnone
        · exact heq.symm.trans hpeer
        · cases hnone.symm.trans hpeer
      have hlink := h.table.peer i j generation (mt (hlike i).free.mpr hi) hold
      exact ⟨hlink.near, hlink.far, hlink.ne, (hlike i).connected.mpr hlink.state, (hlike j).connected.mpr hlink.other,
        (hlike j).generation.trans hlink.generation, by rw [hback i j generation hpeer, (hlike i).generation, hlink.back],
        by rw [(hlike j).life, (hlike i).life]; exact hlink.partner⟩
    · rw [(hlike i).life]
      exact h.table.alone i (mt (hlike i).free.mpr hi) (mt (hlike i).connected.mpr hnot)
    · exact ((hlike i).open_ hcls).elim (h.table.closed i (mt (hlike i).free.mpr hi)) id
    · exact (hlike i).peer.elim (fun heq => heq.trans (h.table.idle i ((hlike i).free.mp hi))) id
  · refine ⟨fun i hi hread => ?_, h.bytes.ahead, fun n hn => ?_, h.bytes.unborn, h.bytes.partners⟩
    · rw [(hlike i).life, (hlike i).queue]
      exact h.bytes.content i (mt (hlike i).free.mpr hi) ((hlike i).read hread)
    · obtain ⟨hret, hlt, hcls⟩ := h.bytes.ended n hn
      refine ⟨hret, hlt, fun i hi heq => (hlike i).closed (hcls i (mt (hlike i).free.mpr hi) ?_)⟩
      exact (hlike i).life.symm.trans heq

lemma Inv.set (h : Inv s) {socket : Socket} (hlike : Like (s.sockets i) socket) (hpeer : socket.peer = (s.sockets i).peer) :
    Inv (s.set i socket) := by
  refine h.like (fun k => ?_) (fun _ k _ _ => ?_)
  · by_cases hk : k = i
    · subst hk
      rw [update_self]
      exact hlike
    · rw [update_of_ne hk]
      exact Like.refl _
  · by_cases hk : k = i
    · subst hk
      rw [update_self]
      exact hpeer
    · rw [update_of_ne hk]

/-! ### Sockets come and go -/

/-- A socket without packets and without a peer is replaced by another one, which is free or new. -/
lemma Inv.replace (h : Inv s) {socket : Socket} {lives : ℕ} (hqu : (s.sockets i).queue = [])
    (hpeer : (s.sockets i).peer = none) (hblan : socket.queue = [] ∧ socket.peer = none ∧ socket.peerClosed = false)
    (hle : s.lives ≤ lives) (hnew : socket.state ≠ .free → socket.life = s.lives ∧ s.lives < lives) :
    Inv { s.set i socket with lives } := by
  obtain ⟨hqu', hpeer', hcls'⟩ := hblan
  have hself : update s.sockets i socket i = socket := update_self ..
  have hoth : ∀ k, k ≠ i → update s.sockets i socket k = s.sockets k := fun k hk => update_of_ne hk ..
  obtain ⟨hstr, hret⟩ := h.bytes.unborn s.lives (Nat.le_refl _)
  unfold NetState.set
  refine ⟨h.pool.congr (fun k => ?_) (fun k hk => ?_) ⟨rfl, rfl, rfl⟩, ?_, ?_⟩
  · dsimp only
    by_cases hk : k = i
    · rw [hk, hself, hqu, hqu']
    · rw [hoth k hk]
  · dsimp only at hk
    by_cases hki : k = i
    · rw [hki]
      exact .inr hqu
    · rw [hoth k hki] at hk
      exact .inl hk
  · refine ⟨fun k hk => ?_, fun k l hk hl heq => ?_, fun k l g hk hp => ?_, fun k hk hnot => ?_, fun k hk hcls => ?_,
      fun k hk => ?_, fun n hn => h.table.unborn n (Nat.le_trans hle hn), h.table.mutual_⟩
    · dsimp only at hk ⊢
      by_cases hki : k = i
      · rw [hki, hself] at hk ⊢
        rw [(hnew hk).1]
        exact (hnew hk).2
      · rw [hoth k hki] at hk ⊢
        exact Nat.lt_of_lt_of_le (h.table.life k hk) hle
    · dsimp only at hk hl heq
      by_cases hki : k = i <;> by_cases hli : l = i
      · rw [hki, hli]
      · rw [hki, hself] at hk heq
        rw [hoth l hli] at hl heq
        exact absurd ((hnew hk).1.symm.trans heq) (Nat.ne_of_gt (h.table.life l hl))
      · rw [hoth k hki] at hk heq
        rw [hli, hself] at hl heq
        exact absurd (heq.trans (hnew hl).1) (Nat.ne_of_lt (h.table.life k hk))
      · rw [hoth k hki] at hk heq
        rw [hoth l hli] at hl heq
        exact h.table.one k l hk hl heq
    · dsimp only at hk hp
      by_cases hki : k = i
      · rw [hki, hself, hpeer'] at hp
        cases hp
      · rw [hoth k hki] at hk hp
        have hlink := h.table.peer k l g hk hp
        have hli : l ≠ i := fun heq => by
          rw [heq] at hlink
          cases hpeer.symm.trans hlink.back
        exact hlink.congr (congrArg _ (hoth k hki)) (congrArg _ (hoth l hli)) rfl
    · dsimp only at hk hnot ⊢
      by_cases hki : k = i
      · rw [hki, hself] at hk ⊢
        rw [(hnew hk).1]
        exact h.table.unborn _ (Nat.le_refl _)
      · rw [hoth k hki] at hk hnot ⊢
        exact h.table.alone k hk hnot
    · dsimp only at hk hcls ⊢
      by_cases hki : k = i
      · rw [hki, hself, hcls'] at hcls
        cases hcls
      · rw [hoth k hki] at hk hcls ⊢
        exact h.table.closed k hk hcls
    · dsimp only at hk ⊢
      by_cases hki : k = i
      · rw [hki, hself, hpeer']
      · rw [hoth k hki] at hk ⊢
        exact h.table.idle k hk
  · refine ⟨fun k hk hread => ?_, h.bytes.ahead, fun n hn => ?_, fun n hn => h.bytes.unborn n (Nat.le_trans hle hn),
      h.bytes.partners⟩
    · dsimp only at hk hread ⊢
      by_cases hki : k = i
      · rw [hki, hself] at hk ⊢
        rw [(hnew hk).1, hqu', hstr, hret]
        rfl
      · rw [hoth k hki] at hk hread ⊢
        exact h.bytes.content k hk hread
    · obtain ⟨hall, hlt, hcls⟩ := h.bytes.ended n hn
      refine ⟨hall, Nat.lt_of_lt_of_le hlt hle, fun k hk heq => ?_⟩
      dsimp only at hk heq ⊢
      by_cases hki : k = i
      · rw [hki, hself] at hk heq
        exact absurd (heq.symm.trans (hnew hk).1) (Nat.ne_of_lt hlt)
      · rw [hoth k hki] at hk heq ⊢
        exact hcls k hk heq

lemma Inv.reserve (h : Inv s) {owner : ℕ} {state : SocketState} (hfree : (s.sockets i).state = .free) (generation : ℕ) :
    Inv { s.set i (.fresh state owner generation s.lives) with lives := s.lives + 1 } :=
  h.replace (h.pool.blank i hfree) (h.table.idle i hfree) ⟨rfl, rfl, rfl⟩ (Nat.le_succ _) fun _ => ⟨rfl, Nat.lt_succ_self _⟩

lemma reserve_cases {owner : ℕ} {state : SocketState} (he : s.reserve owner state = some (i, s')) :
    i < capacity ∧ (s.sockets i).state = .free ∧ s' = { s.set i (.fresh state owner
      (NetState.nextGeneration (s.sockets i).generation) s.lives) with lives := s.lives + 1 } := by
  unfold NetState.reserve at he
  split at he
  · cases he
  · rename_i k hfind
    cases he
    have hmem := List.mem_of_find?_eq_some hfind
    have hfree := List.find?_some hfind
    exact ⟨List.mem_range.mp hmem, of_decide_eq_true hfree, rfl⟩

structure Single (s : NetState) (i : ℕ) : Prop where
  lt : i < capacity
  live : (s.sockets i).state ≠ .free
  peer : (s.sockets i).peer = none
  closed : (s.sockets i).peerClosed = false
  partner : s.partner (s.sockets i).life = none

lemma Inv.single (h : Inv s) (hi : i < capacity) (hfree : (s.sockets i).state ≠ .free)
    (hnot : (s.sockets i).state ≠ .connected) :
    Single s i := by
  refine ⟨hi, hfree, ?_, ?_, h.table.alone i hfree hnot⟩
  · match hpeer : (s.sockets i).peer with
    | none => rfl
    | some (j, generation) => exact absurd (h.table.peer i j generation hfree hpeer).state hnot
  · exact Bool.eq_false_iff.mpr fun hcls => hnot (h.table.closed i hfree hcls)

lemma Inv.fresh_single (h : Inv s) {owner : ℕ} {state : SocketState} (hst : state ≠ .free)
    (he : s.reserve owner state = some (i, s')) : Single s' i := by
  obtain ⟨hi, -, rfl⟩ := reserve_cases he
  have hself : (NetState.set s i (.fresh state owner (NetState.nextGeneration (s.sockets i).generation) s.lives)).sockets i =
      .fresh state owner (NetState.nextGeneration (s.sockets i).generation) s.lives := update_self ..
  refine ⟨hi, ?_, ?_, ?_, ?_⟩ <;> dsimp only <;> rw [hself]
  · exact hst
  · rfl
  · rfl
  · exact h.table.unborn _ (Nat.le_refl _)

lemma Single.reserve (h : Single s j) {owner : ℕ} {state : SocketState} (he : s.reserve owner state = some (i, s')) :
    j ≠ i ∧ Single s' j := by
  obtain ⟨hi, hfree, rfl⟩ := reserve_cases he
  have hne : j ≠ i := fun heq => h.live (heq ▸ hfree)
  have hself : (NetState.set s i (.fresh state owner (NetState.nextGeneration (s.sockets i).generation) s.lives)).sockets j =
      s.sockets j := update_of_ne hne ..
  refine ⟨hne, h.lt, ?_, ?_, ?_, ?_⟩ <;> dsimp only <;> rw [hself]
  exacts [h.live, h.peer, h.closed, h.partner]

lemma Inv.link (h : Inv s) (hij : i ≠ j) (hi : Single s i) (hj : Single s j) : Inv (s.link i j) := by
  have hliv : (s.sockets i).life ≠ (s.sockets j).life := fun heq => hij (h.table.one i j hi.live hj.live heq)
  have hsoc : (s.link i j).sockets j =
      { s.sockets j with state := .connected, peerClosed := false, peer := some (i, (s.sockets i).generation) } :=
    update_self ..
  have hsock : (s.link i j).sockets i =
      { s.sockets i with state := .connected, peerClosed := false, peer := some (j, (s.sockets j).generation) } :=
    (update_of_ne hij ..).trans (update_self ..)
  have hoth : ∀ k, k ≠ i → k ≠ j → (s.link i j).sockets k = s.sockets k := fun k hki hkj =>
    (update_of_ne hkj ..).trans (update_of_ne hki ..)
  have hpar : (s.link i j).partner (s.sockets i).life = some (s.sockets j).life :=
    (update_of_ne hliv ..).trans (update_self ..)
  have hpartn : (s.link i j).partner (s.sockets j).life = some (s.sockets i).life := update_self ..
  have hptn : ∀ n, n ≠ (s.sockets i).life → n ≠ (s.sockets j).life → (s.link i j).partner n = s.partner n := fun n hni hnj =>
    (update_of_ne hnj ..).trans (update_of_ne hni ..)
  -- nobody has been connected with either of them
  have hcas : ∀ k, k = i ∨ k = j ∨ k ≠ i ∧ k ≠ j := fun k => by omega
  have hapar : ∀ k, k ≠ i → k ≠ j → (s.sockets k).state ≠ .free →
      (s.link i j).partner (s.sockets k).life = s.partner (s.sockets k).life := fun k hki hkj hk =>
    hptn _ (fun heq => hki (h.table.one k i hk hi.live heq)) (fun heq => hkj (h.table.one k j hk hj.live heq))
  have hsame : ∀ k, ((s.link i j).sockets k).life = (s.sockets k).life ∧ ((s.link i j).sockets k).queue = (s.sockets k).queue ∧
      ((s.link i j).sockets k).shutdownRead = (s.sockets k).shutdownRead ∧
      (((s.link i j).sockets k).state = .free ↔ (s.sockets k).state = .free) := by
    intro k
    obtain rfl | rfl | ⟨hki, hkj⟩ := hcas k
    · rw [hsock]
      exact ⟨rfl, rfl, rfl, nofun, fun hfree => absurd hfree hi.live⟩
    · rw [hsoc]
      exact ⟨rfl, rfl, rfl, nofun, fun hfree => absurd hfree hj.live⟩
    · rw [hoth k hki hkj]
      exact ⟨rfl, rfl, rfl, .rfl⟩
  refine ⟨h.pool.congr (fun k => (hsame k).2.1) (fun k hk => .inl ((hsame k).2.2.2.mp hk)) ⟨rfl, rfl, rfl⟩, ?_, ?_⟩
  · refine ⟨fun k hk => ?_, fun k l hk hl heq => ?_, fun k l g hk hpeer => ?_, fun k hk hnot => ?_, fun k hk hcls => ?_,
      fun k hk => ?_, fun n hn => ?_, fun n m hn => ?_⟩
    · rw [(hsame k).1]
      exact h.table.life k (mt (hsame k).2.2.2.mpr hk)
    · rw [(hsame k).1, (hsame l).1] at heq
      exact h.table.one k l (mt (hsame k).2.2.2.mpr hk) (mt (hsame l).2.2.2.mpr hl) heq
    · obtain rfl | rfl | ⟨hki, hkj⟩ := hcas k
      · rw [hsock] at hpeer
        cases hpeer
        exact ⟨hi.lt, hj.lt, hij, by rw [hsock], by rw [hsoc], by rw [hsoc], by rw [hsoc, hsock],
          by rw [hsoc, hsock]; exact hpartn⟩
      · rw [hsoc] at hpeer
        cases hpeer
        exact ⟨hj.lt, hi.lt, hij.symm, by rw [hsoc], by rw [hsock], by rw [hsock], by rw [hsock, hsoc],
          by rw [hsock, hsoc]; exact hpar⟩
      · have hlive := mt (hsame k).2.2.2.mpr hk
        rw [hoth k hki hkj] at hpeer
        have hlink := h.table.peer k l g hlive hpeer
        have hli : l ≠ i := fun heq => by
          rw [heq] at hlink
          cases hi.peer.symm.trans hlink.back
        have hlj : l ≠ j := fun heq => by
          rw [heq] at hlink
          cases hj.peer.symm.trans hlink.back
        have hfl : (s.sockets l).state ≠ .free := by
          rw [hlink.other]
          exact nofun
        exact hlink.congr (congrArg _ (hoth k hki hkj)) (congrArg _ (hoth l hli hlj)) (hapar l hli hlj hfl)
    · obtain rfl | rfl | ⟨hki, hkj⟩ := hcas k
      · rw [hsock] at hnot
        exact absurd rfl hnot
      · rw [hsoc] at hnot
        exact absurd rfl hnot
      · rw [hoth k hki hkj] at hk hnot ⊢
        rw [hapar k hki hkj hk]
        exact h.table.alone k hk hnot
    · obtain rfl | rfl | ⟨hki, hkj⟩ := hcas k
      · rw [hsock]
      · rw [hsoc]
      · rw [hoth k hki hkj] at hk hcls ⊢
        exact h.table.closed k hk hcls
    · have hold := (hsame k).2.2.2.mp hk
      rw [hoth k (fun heq => hi.live (heq ▸ hold)) fun heq => hj.live (heq ▸ hold)]
      exact h.table.idle k hold
    · have hni := Nat.lt_of_lt_of_le (h.table.life i hi.live) hn
      have hnj := Nat.lt_of_lt_of_le (h.table.life j hj.live) hn
      rw [hptn n (Nat.ne_of_gt hni) (Nat.ne_of_gt hnj)]
      exact h.table.unborn n hn
    · by_cases hni : n = (s.sockets i).life
      · rw [hni, hpar] at hn
        cases hn
        rw [hni]
        exact hpartn
      by_cases hnj : n = (s.sockets j).life
      · rw [hnj, hpartn] at hn
        cases hn
        rw [hnj]
        exact hpar
      rw [hptn n hni hnj] at hn
      have hold := h.table.mutual_ n m hn
      rw [hptn, hold]
      · intro heq
        rw [heq, hi.partner] at hold
        cases hold
      · intro heq
        rw [heq, hj.partner] at hold
        cases hold
  · refine ⟨fun k hk hread => ?_, h.bytes.ahead, fun n hn => ?_, h.bytes.unborn, fun e hmem => ?_⟩
    · rw [(hsame k).2.2.1] at hread
      rw [(hsame k).1, (hsame k).2.1]
      exact h.bytes.content k (mt (hsame k).2.2.2.mpr hk) hread
    · obtain ⟨hall, hlt, hcls⟩ := h.bytes.ended n hn
      refine ⟨hall, hlt, fun k hk heq => ?_⟩
      rw [(hsame k).1] at heq
      have hold := hcls k (mt (hsame k).2.2.2.mpr hk) heq
      obtain rfl | rfl | ⟨hki, hkj⟩ := hcas k
      · exact absurd hold (Bool.eq_false_iff.mp hi.closed)
      · exact absurd hold (Bool.eq_false_iff.mp hj.closed)
      · rw [hoth k hki hkj]
        exact hold
    · have hold := h.bytes.partners e hmem
      rw [hptn, hold]
      · intro heq
        rw [heq, hi.partner] at hold
        cases hold
      · intro heq
        rw [heq, hj.partner] at hold
        cases hold

lemma Pool.clear (h : Pool s) (i : ℕ) : Pool (s.clear i) := by
  have hself : (s.clear i).sockets i = { s.sockets i with queue := [], queuedBytes := 0 } := update_self ..
  have hoth : ∀ k, k ≠ i → (s.clear i).sockets k = s.sockets k := fun k hk => update_of_ne hk ..
  have hfree : ∀ p, p ∈ (s.clear i).free ↔ p ∈ (s.sockets i).queue ∨ p ∈ s.free := fun p => by
    change p ∈ (s.sockets i).queue.reverse ++ s.free ↔ _
    rw [List.mem_append, List.mem_reverse]
  have hsub : ∀ k, ((s.clear i).sockets k).queue = [] ∨ k ≠ i ∧ ((s.clear i).sockets k).queue = (s.sockets k).queue := by
    intro k
    by_cases hk : k = i
    · rw [hk, hself]
      exact .inl rfl
    · rw [hoth k hk]
      exact .inr ⟨hk, rfl⟩
  refine ⟨?_, h.foreign, fun k => ?_, fun p hp => ?_, fun p hp k => ?_, fun p hp k => ?_, fun k l hne p hp => ?_, fun k => ?_,
    fun k hk => ?_⟩
  · refine List.nodup_append.mpr ⟨List.nodup_reverse.mpr (h.queue i), h.free, fun p hp q hq heq => ?_⟩
    exact h.freeQueue q hq i (heq ▸ List.mem_reverse.mp hp)
  · obtain hnil | ⟨-, heq⟩ := hsub k
    · rw [hnil]
      exact List.nodup_nil
    · rw [heq]
      exact h.queue k
  · obtain hqu | hold := (hfree p).mp hp
    · exact fun hmem => h.foreignQueue p hmem i hqu
    · exact h.freeForeign p hold
  · obtain hnil | ⟨hk, heq⟩ := hsub k
    · rw [hnil]
      exact List.not_mem_nil
    · rw [heq]
      exact ((hfree p).mp hp).elim (h.apart i k hk.symm p) (fun hold => h.freeQueue p hold k)
  · obtain hnil | ⟨-, heq⟩ := hsub k
    · rw [hnil]
      exact List.not_mem_nil
    · rw [heq]
      exact h.foreignQueue p hp k
  · obtain hnil | ⟨-, heq⟩ := hsub k
    · rw [hnil] at hp
      cases hp
    · obtain hnil | ⟨-, heq'⟩ := hsub l
      · rw [hnil]
        exact List.not_mem_nil
      · rw [heq] at hp
        rw [heq']
        exact h.apart k l hne p hp
  · obtain hnil | ⟨hk, heq⟩ := hsub k
    · rw [hnil]
      exact fun p hp => nomatch hp
    · rw [heq]
      intro p hp
      have hnot : p ∉ (s.sockets i).queue := h.apart k i hk p hp
      change (if p ∈ (s.sockets i).queue then (⟨[], 0⟩ : Packet) else s.packets p).offset <
        (if p ∈ (s.sockets i).queue then (⟨[], 0⟩ : Packet) else s.packets p).data.length
      rw [if_neg hnot]
      exact h.left k p hp
  · obtain hnil | ⟨hki, heq⟩ := hsub k
    · exact hnil
    · rw [hoth k hki] at hk
      rw [heq]
      exact h.blank k hk

/-- **A socket loses its packets** only if nobody can read them. -/
lemma Inv.clear (h : Inv s) (hread : (s.sockets i).state ≠ .free → (s.sockets i).shutdownRead = true) : Inv (s.clear i) := by
  have hself : (s.clear i).sockets i = { s.sockets i with queue := [], queuedBytes := 0 } := update_self ..
  have hoth : ∀ k, k ≠ i → (s.clear i).sockets k = s.sockets k := fun k hk => update_of_ne hk ..
  have hsame : ∀ k, ((s.clear i).sockets k).core = (s.sockets k).core ∧
      ((s.clear i).sockets k).shutdownRead = (s.sockets k).shutdownRead := by
    intro k
    by_cases hk : k = i
    · rw [hk, hself]
      exact ⟨rfl, rfl⟩
    · rw [hoth k hk]
      exact ⟨rfl, rfl⟩
  refine ⟨h.pool.clear i, h.table.congr (fun k => (hsame k).1) rfl rfl, fun k hk hshut => ?_, h.bytes.ahead, fun n hn => ?_,
    h.bytes.unborn, h.bytes.partners⟩
  · by_cases hki : k = i
    · rw [(hsame k).2, hki] at hshut
      rw [hki, hself] at hk
      rw [hread hk] at hshut
      cases hshut
    · rw [hoth k hki] at hk hshut ⊢
      refine (h.bytes.content k hk hshut).trans (congrArg _ (content_congr fun p hp => ?_).symm)
      exact if_neg (h.pool.apart k i hki p hp)
  · obtain ⟨hall, hlt, hcls⟩ := h.bytes.ended n hn
    refine ⟨hall, hlt, fun k hk heq => ?_⟩
    obtain ⟨hst, hlife, -, -, hpeer⟩ := core_eq (hsame k).1
    rw [hpeer]
    exact hcls k (hst ▸ hk) (hlife ▸ heq)

/-- A connection is cut, and reading is shut down at the near end. -/
def NetState.cut (s : NetState) (i : ℕ) : NetState :=
  (s.unpeer i).set i { (s.unpeer i).sockets i with peer := none, shutdownRead := true }

lemma Inv.cut (h : Inv s) (i : ℕ) : Inv (s.cut i) := by
  unfold NetState.cut NetState.unpeer
  split
  · rename_i j hj
    by_cases hi : (s.sockets i).state = .free
    · have hnone : (s.sockets i).peer = none := h.table.idle i hi
      unfold NetState.localPeer at hj
      rw [hnone] at hj
      cases hj
    obtain ⟨hlink, hpeer⟩ := h.table.linked hi hj
    have hij := hlink.ne
    unfold NetState.set
    dsimp only
    rw [update_of_ne hij]
    have hsel : update (update s.sockets j { s.sockets j with peer := none, peerClosed := true }) i
        { s.sockets i with peer := none, shutdownRead := true } i = { s.sockets i with peer := none, shutdownRead := true } :=
      update_self ..
    have hselfj : update (update s.sockets j { s.sockets j with peer := none, peerClosed := true }) i
        { s.sockets i with peer := none, shutdownRead := true } j = { s.sockets j with peer := none, peerClosed := true } :=
      (update_of_ne hij.symm ..).trans (update_self ..)
    have hoth : ∀ k, k ≠ i → k ≠ j → update (update s.sockets j { s.sockets j with peer := none, peerClosed := true })
        i { s.sockets i with peer := none, shutdownRead := true } k = s.sockets k := fun k hki hkj =>
      (update_of_ne hki ..).trans (update_of_ne hkj ..)
    have hcas : ∀ k, k = i ∨ k = j ∨ k ≠ i ∧ k ≠ j := fun k => by omega
    refine h.like (fun k => ?_) (fun k l g hk => ?_)
    · obtain rfl | rfl | ⟨hki, hkj⟩ := hcas k
      · rw [hsel]
        exact ⟨.inl rfl, rfl, rfl, rfl, .inr rfl, id, .inl, nofun⟩
      · rw [hselfj]
        exact ⟨.inl rfl, rfl, rfl, rfl, .inr rfl, fun _ => rfl, fun _ => .inr hlink.other, id⟩
      · rw [hoth k hki hkj]
        exact Like.refl _
    · obtain rfl | rfl | ⟨hki, hkj⟩ := hcas k
      · rw [hsel] at hk
        cases hk
      · rw [hselfj] at hk
        cases hk
      · -- the ends of another connection
        rw [hoth k hki hkj] at hk
        have hfree : (s.sockets k).state ≠ .free := fun hfree => by
          rw [h.table.idle k hfree] at hk
          cases hk
        have hback := (h.table.peer k l g hfree hk).back
        have hli : l ≠ i := fun heq => by
          rw [heq, hpeer] at hback
          cases hback
          exact hkj rfl
        have hlj : l ≠ j := fun heq => by
          rw [heq, hlink.back] at hback
          cases hback
          exact hki rfl
        rw [hoth l hli hlj]
  · rename_i hnone
    have hpeer : (s.sockets i).state ≠ .free → (s.sockets i).peer = none := fun hi => by
      match hpeer : (s.sockets i).peer with
      | none => rfl
      | some (j, g) => cases hnone.symm.trans (h.table.localPeer hi hpeer)
    have hpeer' : (s.sockets i).peer = none := by
      by_cases hi : (s.sockets i).state = .free
      · exact h.table.idle i hi
      · exact hpeer hi
    exact h.set ⟨.inl rfl, rfl, rfl, rfl, .inr rfl, id, .inl, nofun⟩ hpeer'.symm

lemma Inv.blank (h : Inv s) (hqu : (s.sockets i).queue = []) (hpeer : (s.sockets i).peer = none) (generation : ℕ) :
    Inv (s.set i (.blank generation)) :=
  h.replace hqu hpeer ⟨rfl, rfl, rfl⟩ (Nat.le_refl _) fun hlive => absurd rfl hlive

lemma finish_eq (s : NetState) (i : ℕ) :
    s.finish i = ((s.cut i).clear i).set i (.blank (((s.cut i).clear i).sockets i).generation) := by
  have hself : (s.cut i).sockets i = { (s.unpeer i).sockets i with peer := none, shutdownRead := true } := update_self ..
  have hclr : ((s.cut i).clear i).sockets i = { (s.cut i).sockets i with queue := [], queuedBytes := 0 } := update_self ..
  have hgen : (((s.cut i).clear i).sockets i).generation = ((s.unpeer i).clear i |>.sockets i).generation := by
    rw [hclr, hself]
    unfold NetState.clear NetState.set
    dsimp only
    rw [update_self]
  rw [hgen]
  unfold NetState.finish NetState.clear NetState.set
  dsimp only
  rw [hself]
  simp only [NetState.cut, NetState.set, Function.update_idem]

lemma Inv.finish (h : Inv s) (i : ℕ) : Inv (s.finish i) := by
  rw [finish_eq]
  have hself : (s.cut i).sockets i = { (s.unpeer i).sockets i with peer := none, shutdownRead := true } := update_self ..
  have hclr : ((s.cut i).clear i).sockets i = { (s.cut i).sockets i with queue := [], queuedBytes := 0 } := update_self ..
  refine ((h.cut i).clear fun _ => ?_).blank ?_ ?_ _
  · rw [hself]
  · rw [hclr]
  · rw [hclr, hself]

lemma Inv.setPending (h : Inv s) (i : ℕ) (pending : List ℕ) : Inv (s.set i { s.sockets i with pending }) :=
  h.set ⟨.inl rfl, rfl, rfl, rfl, .inl rfl, id, .inl, id⟩ rfl

lemma Inv.setParent (h : Inv s) (i : ℕ) (parent : Option (ℕ × ℕ)) : Inv (s.set i { s.sockets i with parent }) :=
  h.set ⟨.inl rfl, rfl, rfl, rfl, .inl rfl, id, .inl, id⟩ rfl

lemma Inv.unparent (h : Inv s) (i : ℕ) : Inv (s.unparent i) := by
  unfold NetState.unparent
  split
  · rename_i l _
    exact (h.setPending l _).setParent i none
  · exact h

lemma Inv.pop (h : Inv s) (l child : ℕ) : Inv (s.pop l child) := (h.setPending l _).setParent child none

lemma Inv.dispose (h : Inv s) (n i : ℕ) : Inv (NetState.dispose n s i) := by
  induction n generalizing s i with
  | zero => exact h
  | succ n ih =>
    have hchn : ∀ (children : List ℕ) {s : NetState}, Inv s →
        Inv (children.foldl (fun s child => NetState.dispose n (s.pop i child) child) s) := by
      intro children
      induction children with
      | nil => exact id
      | cons child children ihc => exact fun hs => ihc (ih (hs.pop i child) child)
    unfold NetState.dispose
    split_ifs
    · exact h
    · exact (hchn _ (h.unparent i)).finish i

end PlantOS.Net
