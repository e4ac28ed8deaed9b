import Mathlib.Data.List.Basic
import PlantOS.Lib.Codec
import PlantOS.Lib.Run

/-!
# Signals of user threads

The context of a thread and the frame that a delivery leaves on its stack, as they lie in memory on x86_64, and the
operations on the signals of a thread.
-/

namespace PlantOS.Signal

abbrev nsig : ℕ := 32

abbrev sigkill : ℕ := 9

abbrev userSpaceStart : ℕ := 0x100000000

abbrev userHeapEnd : ℕ := 0x400000000000

abbrev vmPageSize : ℕ := 4096

/-- `sigset_t` -/
abbrev Sigset := BitVec 32

def sigmask (n : ℕ) : Sigset := 1#32 <<< (n - 1)

abbrev signalBits : Sigset := 0x7fffffff#32

abbrev blockableBits : Sigset := 0x7ffffeff#32

/-! ### The context of a thread -/

/-- `signal_fpregs_t` -/
structure SignalFpregs where
  control : BitVec 16
  status : BitVec 16
  tag : BitVec 8
  reserved0 : BitVec 8
  opcode : BitVec 16
  instructionPointer : BitVec 64
  dataPointer : BitVec 64
  mxcsr : BitVec 32
  mxcsrMask : BitVec 32
  x87 : Vector UInt8 128
  xmm : Vector UInt8 256
  reserved1 : Vector UInt8 48
  ymmInuse : BitVec 64
  reserved2 : Vector UInt8 40

/-- `mcontext_t` -/
structure Mcontext where
  simd : SignalFpregs
  ymmHi : Vector UInt8 256
  r15 : BitVec 64
  r14 : BitVec 64
  r13 : BitVec 64
  r12 : BitVec 64
  r11 : BitVec 64
  r10 : BitVec 64
  r9 : BitVec 64
  r8 : BitVec 64
  rdi : BitVec 64
  rsi : BitVec 64
  rbp : BitVec 64
  rdx : BitVec 64
  rcx : BitVec 64
  rbx : BitVec 64
  rax : BitVec 64
  vector : BitVec 64
  error : BitVec 64
  rip : BitVec 64
  cs : BitVec 64
  rflags : BitVec 64
  rsp : BitVec 64
  ss : BitVec 64

/-- `stack_t` -/
structure Stack where
  sp : BitVec 64
  flags : BitVec 32
  size : BitVec 64
  deriving DecidableEq, Repr

/-- `siginfo_t` -/
structure Siginfo where
  signo : BitVec 32
  code : BitVec 32
  errno : BitVec 32
  addr : BitVec 64
  deriving DecidableEq, Repr

/-- `signal_frame_t` with the context that it holds -/
structure SignalFrame where
  link : BitVec 64
  stack : Stack
  mask : Sigset
  context : Mcontext
  information : Siginfo
  previous : BitVec 64
  onstack : BitVec 32

namespace SignalFpregs

open Lib Codec in
/-- The layout of `signal_fpregs_t` -/
def codec : Codec SignalFpregs :=
  via (seq (bits 2) <| seq (bits 2) <| seq (bits 1) <| seq (bits 1) <| seq (bits 2) <| seq (bits 8) <| seq (bits 8) <|
      seq (bits 4) <| seq (bits 4) <| seq (bytes 128) <| seq (bytes 256) <| seq (bytes 48) <| seq (bits 8) (bytes 40))
    (fun f => (f.control, f.status, f.tag, f.reserved0, f.opcode, f.instructionPointer, f.dataPointer, f.mxcsr, f.mxcsrMask,
      f.x87, f.xmm, f.reserved1, f.ymmInuse, f.reserved2))
    (fun ⟨control, status, tag, reserved0, opcode, instructionPointer, dataPointer, mxcsr, mxcsrMask, x87, xmm, reserved1,
        ymmInuse, reserved2⟩ =>
      ⟨control, status, tag, reserved0, opcode, instructionPointer, dataPointer, mxcsr, mxcsrMask, x87, xmm, reserved1,
        ymmInuse, reserved2⟩)
    fun _ => rfl

end SignalFpregs

namespace Mcontext

open Lib Codec in
/-- The layout of the registers of `mcontext_t` from `r15` on -/
def registersCodec : Codec (BitVec 64 × BitVec 64 × BitVec 64 × BitVec 64 × BitVec 64 × BitVec 64 × BitVec 64 × BitVec 64 ×
    BitVec 64 × BitVec 64 × BitVec 64 × BitVec 64 × BitVec 64 × BitVec 64 × BitVec 64 × BitVec 64 × BitVec 64 × BitVec 64 ×
      BitVec 64 × BitVec 64 × BitVec 64 × BitVec 64) :=
  let w : Codec (BitVec 64) := bits 8
  seq w <| seq w <| seq w <| seq w <| seq w <| seq w <| seq w <| seq w <| seq w <| seq w <| seq w <| seq w <| seq w <|
    seq w <| seq w <| seq w <| seq w <| seq w <| seq w <| seq w <| seq w w

open Lib Codec in
/-- The layout of `mcontext_t` -/
def codec : Codec Mcontext :=
  via (seq SignalFpregs.codec <| seq (bytes 256) registersCodec)
    (fun c => (c.simd, c.ymmHi, c.r15, c.r14, c.r13, c.r12, c.r11, c.r10, c.r9, c.r8, c.rdi, c.rsi, c.rbp, c.rdx, c.rcx, c.rbx,
      c.rax, c.vector, c.error, c.rip, c.cs, c.rflags, c.rsp, c.ss))
    (fun ⟨simd, ymmHi, r15, r14, r13, r12, r11, r10, r9, r8, rdi, rsi, rbp, rdx, rcx, rbx, rax, vector, error, rip, cs,
        rflags, rsp, ss⟩ =>
      ⟨simd, ymmHi, r15, r14, r13, r12, r11, r10, r9, r8, rdi, rsi, rbp, rdx, rcx, rbx, rax, vector, error, rip, cs, rflags,
        rsp, ss⟩)
    fun _ => rfl

end Mcontext

namespace SignalFrame

open Lib Codec in
/-- The layout of `signal_frame_t`: `ucontext_t`, whose `mcontext_t` is aligned to 16 bytes, `siginfo_t`, `previous` and
`onstack` -/
def codec : Codec SignalFrame :=
  via (seq (bits 8) <| seq (bits 8) <| seq (bits 4) <| seq (pad 4) <| seq (bits 8) <| seq (bits 4) <| seq (pad 12) <|
      seq Mcontext.codec <| seq (bits 4) <| seq (bits 4) <| seq (bits 4) <| seq (pad 4) <| seq (bits 8) <| seq (bits 8) <|
        seq (bits 4) (pad 12))
    (fun f => (f.link, f.stack.sp, f.stack.flags, (), f.stack.size, f.mask, (), f.context, f.information.signo,
      f.information.code, f.information.errno, (), f.information.addr, f.previous, f.onstack, ()))
    (fun ⟨link, sp, flags, _, size, mask, _, context, signo, code, errno, _, addr, previous, onstack, _⟩ =>
      ⟨link, ⟨sp, flags, size⟩, mask, context, ⟨signo, code, errno, addr⟩, previous, onstack⟩)
    fun _ => rfl

/-- `sizeof(signal_frame_t)` -/
example : codec.size = 1040 := rfl

/-- `offsetof(signal_frame_t, information)` -/
abbrev informationOffset : BitVec 64 := 992#64

end SignalFrame

/-- What the pages of a program permit, by their numbers; a page may be written if `arch_page_fault_resolve` does not run
out of memory either. -/
structure Rights where
  read : ℕ → Bool
  write : ℕ → Bool

def pagesOf (address length : ℕ) : List ℕ :=
  (List.range ((address + length - 1) / vmPageSize - address / vmPageSize + 1)).map (address / vmPageSize + ·)

def userRange (address length : ℕ) : Bool :=
  userSpaceStart ≤ address ∧ address < userHeapEnd ∧ length ≠ 0 ∧ length ≤ userHeapEnd - address

def Rights.userVmReadable (rights : Rights) (address length : ℕ) : Bool :=
  userRange address length && (pagesOf address length).all rights.read

def Rights.userVmPrepareWrite (rights : Rights) (address length : ℕ) : Bool :=
  userRange address length && (pagesOf address length).all rights.write

/-- `SIG_DFL` and `SIG_IGN` -/
abbrev sigDfl : BitVec 64 := 0
abbrev sigIgn : BitVec 64 := 1

/-- `struct sigaction` -/
structure Action where
  handler : BitVec 64
  mask : Sigset
  flags : BitVec 32
  deriving DecidableEq, Repr

/-- `(struct sigaction){0}` -/
def Action.zero : Action := ⟨sigDfl, 0, 0⟩

/-- `SA_ONSTACK`, `SA_NODEFER` and `SA_RESETHAND` -/
def Action.onStack (a : Action) : Bool := a.flags.getLsbD 1
def Action.noDefer (a : Action) : Bool := a.flags.getLsbD 2
def Action.resetHand (a : Action) : Bool := a.flags.getLsbD 3

/-- `task_signal_state_t` -/
structure Signals where
  pending : Sigset
  blocked : Sigset
  stack : Stack
  frame : BitVec 64
  onstack : Bool
  deriving DecidableEq, Repr

/-- `__builtin_ctz` -/
def ctz (x : Sigset) : ℕ := ((List.range 32).find? fun i => x.getLsbD i).getD 32

/-- The signal that is taken out of a set that is not empty: `SIGKILL`, or else the lowest one -/
def pick (pending : Sigset) : ℕ := if pending &&& sigmask sigkill ≠ 0 then sigkill else ctz pending + 1

namespace Signals

variable (state : Signals)

def deliverable : Sigset := state.pending &&& ~~~state.blocked

/-- The flags of the alternate stack that are told the program: `SS_ONSTACK`, 0 or `SS_DISABLE` -/
def stackFlags : BitVec 32 := if state.onstack then 1 else if state.stack.size ≠ 0 then 0 else 2

end Signals

/-! ### Delivery -/

/-- The floating-point state of a frame: the fields and registers that are not in use are cleared. -/
def SignalFpregs.exported (fp : SignalFpregs) : SignalFpregs :=
  let top := (fp.status >>> 11 &&& 7).toNat
  { fp with
    reserved0 := 0
    opcode := fp.opcode &&& 0x7ff
    reserved1 := Vector.replicate 48 0
    reserved2 := Vector.replicate 40 0
    x87 := Vector.ofFn fun j =>
      if j.val % 16 < 10 ∧ fp.tag.getLsbD ((top + j.val / 16) % 8) then fp.x87.get j else 0 }

def Mcontext.exported (context : Mcontext) : Mcontext :=
  { context with
    simd := context.simd.exported
    ymmHi := if context.simd.ymmInuse = 0 then Vector.replicate 256 0 else context.ymmHi }

/-- The signal that is delivered: the one of a fault, or a pending one, which is pending no longer then -/
def nextSignal (state : Signals) (fault : Option Siginfo) : Option (Siginfo × Signals) :=
  match fault with
  | some information => some (information, state)
  | none =>
    if state.deliverable = 0 then none
    else
      let sig := pick state.deliverable
      some (⟨BitVec.ofNat 32 sig, BitVec.ofInt 32 (-6), 0, 0⟩, { state with pending := state.pending &&& ~~~sigmask sig })

def signalFrame (state : Signals) (context : Mcontext) (information : Siginfo) : SignalFrame where
  link := 0
  stack := { state.stack with flags := state.stackFlags }
  mask := state.blocked
  context := context.exported
  information := information
  previous := state.frame
  onstack := if state.onstack then 1 else 0

/-- Where a delivery puts things: the address of the frame and the top of the stack that it is on -/
structure Place where
  onstack : Bool
  top : BitVec 64
  address : BitVec 64

/-- The stack of a delivery: the alternate one from its end on, or the one that the thread is on -/
def place (state : Signals) (action : Action) (context : Mcontext) : Place :=
  let onstack := state.onstack || (action.onStack && state.stack.size ≠ 0)
  let top := if onstack && !state.onstack then state.stack.sp + state.stack.size else context.rsp
  ⟨onstack, top, (top - BitVec.ofNat 64 SignalFrame.codec.size) &&& ~~~15⟩

def Place.stack (p : Place) : BitVec 64 := p.address - 8

def Place.fits (p : Place) (rights : Rights) (state : Signals) (retToApp : BitVec 64) : Bool :=
  p.top.toNat ≥ SignalFrame.codec.size + 8 && !(p.onstack && p.stack < state.stack.sp) &&
    rights.userVmReadable retToApp.toNat 1 && rights.userVmPrepareWrite p.stack.toNat (p.top - p.stack).toNat

/-- What `user_signal_dispatch` does: it returns `false`, it ends the process, or the thread runs a handler. -/
inductive Dispatch
  | none (state : Signals)
  | killed (state : Signals)
  | handler (sig : ℕ) (state : Signals) (actions : ℕ → Action) (memory : ℕ → UInt8) (context : Mcontext)

/-- The part of `user_signal_dispatch` that runs a handler -/
def deliver (rights : Rights) (retToApp : BitVec 64) (state : Signals) (actions : ℕ → Action) (memory : ℕ → UInt8)
    (context : Mcontext) (information : Siginfo) : Dispatch :=
  let sig := information.signo.toNat
  let action := actions sig
  let p := place state action context
  if !p.fits rights state retToApp then .killed state
  else
    let blocked := state.blocked ||| action.mask
    .handler sig
      { state with
        frame := p.address
        onstack := p.onstack
        blocked := if action.noDefer then blocked else blocked ||| sigmask sig }
      (if action.resetHand then Function.update actions sig Action.zero else actions)
      (Lib.store (Lib.store memory p.address.toNat (SignalFrame.codec.encode (signalFrame state context information)))
        p.stack.toNat ((Lib.Codec.bits 8).encode retToApp))
      { context with
        rsp := p.stack
        rip := action.handler
        rdi := BitVec.ofNat 64 sig
        rsi := p.address + SignalFrame.informationOffset
        rdx := p.address
        rflags := context.rflags &&& ~~~(0x100 ||| 0x400 ||| 0x40000) }

/-- `user_signal_dispatch` of a thread that is not idle -/
def userSignalDispatch (rights : Rights) (retToApp : BitVec 64) (state : Signals) (actions : ℕ → Action)
    (memory : ℕ → UInt8) (context : Mcontext) (fault : Option Siginfo) : Dispatch :=
  if context.cs &&& 3 ≠ 3 then .none state
  else
    match nextSignal state fault with
    | none => .none state
    | some (information, state) =>
      let sig := information.signo.toNat
      let action := actions sig
      if fault.isNone ∧ action.handler = sigIgn then .none state
      else if action.handler = sigDfl ∨ action.handler = sigIgn ∨ (fault.isSome ∧ state.blocked &&& sigmask sig ≠ 0) ∨
          sig = sigkill then .killed state
      else deliver rights retToApp state actions memory context information

/-- `x64_mxcsr_mask` and `x64_xstate_mask` -/
structure Cpu where
  mxcsrMask : BitVec 32
  xstateMask : BitVec 64

/-- The context has the program counter and the stack pointer in user space. -/
def Mcontext.inUserSpace (context : Mcontext) : Bool :=
  userSpaceStart ≤ context.rip.toNat ∧ context.rip.toNat < userHeapEnd ∧ userSpaceStart ≤ context.rsp.toNat ∧
    context.rsp.toNat < userHeapEnd

def Cpu.accepts (cpu : Cpu) (fp : SignalFpregs) : Bool :=
  fp.mxcsr &&& ~~~cpu.mxcsrMask = 0 && fp.ymmInuse ≤ 1 && !(fp.ymmInuse ≠ 0 && cpu.xstateMask &&& 4 = 0)

def Mcontext.returned (context : Mcontext) : Mcontext :=
  { context with
    cs := 35
    ss := 27
    rflags := (context.rflags &&& 0x240dd5) ||| 0x202
    vector := 0
    error := 0 }

def userSignalRestore (cpu : Cpu) (rights : Rights) (state : Signals) (memory : ℕ → UInt8) (address : BitVec 64)
    (context : Mcontext) : Bool × Signals × Mcontext :=
  let saved := SignalFrame.codec.decode (Lib.load memory address.toNat SignalFrame.codec.size)
  if address = 0 ∨ address ≠ state.frame ∨ !rights.userVmReadable address.toNat SignalFrame.codec.size ∨ saved.onstack > 1 then
    (false, state, context)
  else if !saved.context.inUserSpace ∨ !cpu.accepts saved.context.simd then (false, state, context)
  else
    (true, { state with blocked := saved.mask &&& blockableBits, frame := saved.previous, onstack := saved.onstack = 1 },
      saved.context.returned)

/-- `SIGNAL_MASK`: `set` is the new set if there is one, and whether it could be copied; `copied` is whether the old one
could be, if it is asked for. -/
def signalMask (state : Signals) (how : ℕ) (set : Option (Option Sigset)) (copied : Option Bool) : Signals × ℤ :=
  if set.isSome ∧ how > 2 then (state, -22)
  else if set = some none then (state, -14)
  else if copied = some false then (state, -14)
  else
    match set with
    | some (some mask) =>
      let mask := mask &&& blockableBits
      ({ state with
        blocked := if how = 0 then state.blocked ||| mask else if how = 1 then state.blocked &&& ~~~mask else mask }, 0)
    | _ => (state, 0)

/-- `SIGNAL_STACK`: `new` is the new stack if there is one, and whether it could be copied, and `copied` is as above. -/
def signalStack (rights : Rights) (state : Signals) (new : Option (Option Stack)) (copied : Option Bool) : Signals × ℤ :=
  match new with
  | none => (state, if copied = some false then -14 else 0)
  | some none => (state, -14)
  | some (some stack) =>
    if state.onstack then (state, -1)
    else if stack.flags ≠ 0 ∧ stack.flags ≠ 2 then (state, -22)
    else if stack.flags = 0 ∧ stack.size.toNat < vmPageSize then (state, -12)
    else if stack.flags = 0 ∧ !rights.userVmPrepareWrite stack.sp.toNat stack.size.toNat then (state, -14)
    else if copied = some false then (state, -14)
    else ({ state with stack := if stack.flags = 2 then ⟨0, 0, 0⟩ else stack }, 0)

/-- The first part of `SIGNAL_SUSPEND`: whether the thread waits -/
def suspendEnter (state : Signals) (mask : Sigset) : Signals × Bool :=
  let state := { state with blocked := mask &&& blockableBits }
  (state, state.deliverable = 0)

/-- The last part of `SIGNAL_SUSPEND`, with the mask of before -/
def suspendLeave (state : Signals) (previous : Sigset) : Signals :=
  let sig := pick state.deliverable
  { state with
    pending :=
      if state.deliverable ≠ 0 ∧ previous &&& sigmask sig ≠ 0 then state.pending &&& ~~~sigmask sig else state.pending
    blocked := previous }

/-! ## Deliveries and returns -/

open Lib

/-- A delivery that has not been returned from: the address of its frame, and what was in force before it -/
structure Live where
  address : BitVec 64
  context : Mcontext
  blocked : Sigset
  previous : BitVec 64
  onstack : Bool

structure Thread where
  signals : Signals
  actions : ℕ → Action
  /-- the user memory of the process -/
  memory : ℕ → UInt8
  /-- the user context, as it is when the thread enters the kernel -/
  context : Mcontext
  /-- `ret_to_app` of the group leader -/
  retToApp : BitVec 64
  /-- the mask of before, in `SIGNAL_SUSPEND` -/
  suspended : Option Sigset
  /-- the process has been ended -/
  dead : Bool
  /-- no code reads it -/
  live : List Live

inductive FrameEvent
  /-- the threads of the process run: registers and memory change -/
  | program (context : Mcontext) (memory : ℕ → UInt8)
  /-- signals are sent, and actions are set -/
  | others (pending : Sigset) (actions : ℕ → Action) (retToApp : BitVec 64)
  | mask (how : ℕ) (set : Option (Option Sigset)) (copied : Option Bool)
  | stack (rights : Rights) (new : Option (Option Stack)) (copied : Option Bool)
  | suspend (mask : Sigset)
  | resume
  | dispatch (rights : Rights) (fault : Option Siginfo)
  | restore (rights : Rights)

def Siginfo.raised (information : Siginfo) : Bool :=
  1 ≤ information.signo.toNat ∧ information.signo.toNat < nsig ∧ information.signo.toNat ≠ sigkill

namespace Thread

variable (cpu : Cpu) (t : Thread)

def runs : Bool := !t.dead && t.suspended.isNone

/-- One step. What an operation stores for the program is one of the next changes of its memory. -/
def step : FrameEvent → Option Thread
  | .program context memory =>
    if t.runs ∧ cpu.accepts context.simd then some { t with context := context, memory := memory } else none
  | .others pending actions retToApp =>
    if pending &&& signalBits = pending ∧ (∀ sig < nsig, (actions sig).mask &&& blockableBits = (actions sig).mask) then
      some { t with signals := { t.signals with pending := pending }, actions := actions, retToApp := retToApp }
    else none
  | .mask how set copied => if t.runs then some { t with signals := (signalMask t.signals how set copied).1 } else none
  | .stack rights new copied =>
    if t.runs then some { t with signals := (signalStack rights t.signals new copied).1 } else none
  | .suspend mask =>
    if t.runs then
      some { t with signals := (suspendEnter t.signals mask).1, suspended := some t.signals.blocked }
    else none
  | .resume =>
    match t.suspended with
    | none => none
    | some previous => some { t with signals := suspendLeave t.signals previous, suspended := none }
  | .dispatch rights fault =>
    if t.runs ∧ fault.all (·.raised) then
      match userSignalDispatch rights t.retToApp t.signals t.actions t.memory t.context fault with
      | .none signals => some { t with signals := signals }
      | .killed signals => some { t with signals := signals, dead := true }
      | .handler _ signals actions memory context =>
        some { t with
          signals := signals
          actions := actions
          memory := memory
          context := context
          live := ⟨signals.frame, t.context, t.signals.blocked, t.signals.frame, t.signals.onstack⟩ :: t.live }
    else none
  | .restore rights =>
    if t.runs then
      match userSignalRestore cpu rights t.signals t.memory t.context.rdi t.context with
      | (true, signals, context) => some { t with signals := signals, context := context, live := t.live.tail }
      | (false, _, _) => some { t with dead := true }
    else none

def initial : Prop :=
  t.signals.pending = 0 ∧ t.signals.blocked &&& blockableBits = t.signals.blocked ∧ t.signals.frame = 0 ∧ t.live = [] ∧
    t.suspended = none ∧ cpu.accepts t.context.simd = true ∧
      ∀ sig < nsig, (t.actions sig).mask &&& blockableBits = (t.actions sig).mask

def sys : System Thread FrameEvent := ⟨initial cpu, fun t => t.step cpu⟩

def frameBytes (f : Live) : List UInt8 := load t.memory f.address.toNat SignalFrame.codec.size

/-- The step leaves the live frames as they are: the program does not modify them, and no new frame is put over one. -/
def Untouched (e : FrameEvent) : Prop := ∀ t' ∈ t.step cpu e, ∀ f ∈ t.live, t'.frameBytes f = t.frameBytes f

end Thread

/-! ### Sets of signals -/

lemma sigmask_getLsbD (n i : ℕ) : (sigmask n).getLsbD i = (decide (i < 32) && decide (n - 1 = i)) := by
  unfold sigmask
  rw [BitVec.getLsbD_shiftLeft, BitVec.getLsbD_one]
  by_cases hi : i < 32 <;> by_cases hn : n - 1 = i <;> simp [hi, hn]
  omega

lemma blockable_iff (x : Sigset) : x &&& blockableBits = x ↔ x.getLsbD 8 = false ∧ x.getLsbD 31 = false := by
  have hbits : ∀ i, i < 32 → blockableBits.getLsbD i = (decide (i ≠ 8) && decide (i ≠ 31)) := by decide
  constructor
  · intro h
    refine ⟨?_, ?_⟩ <;> rw [← h, BitVec.getLsbD_and, hbits _ (by decide)] <;> simp
  · rintro ⟨h8, h31⟩
    refine BitVec.eq_of_getLsbD_eq fun i hi => ?_
    rw [BitVec.getLsbD_and, hbits i hi]
    by_cases hi8 : i = 8
    · rw [hi8, h8]
      rfl
    · by_cases hi31 : i = 31
      · rw [hi31, h31]
        rfl
      · simp [hi8, hi31]

lemma blockable_and (x : Sigset) : (x &&& blockableBits) &&& blockableBits = x &&& blockableBits := by
  rw [BitVec.and_assoc, BitVec.and_self]

lemma blockable_or {x y : Sigset} (hx : x &&& blockableBits = x) (hy : y &&& blockableBits = y) :
    (x ||| y) &&& blockableBits = x ||| y := by
  rw [blockable_iff] at hx hy ⊢
  rw [BitVec.getLsbD_or, BitVec.getLsbD_or, hx.1, hx.2, hy.1, hy.2]
  exact ⟨rfl, rfl⟩

lemma blockable_and_not {x : Sigset} (hx : x &&& blockableBits = x) (y : Sigset) :
    (x &&& y) &&& blockableBits = x &&& y := by
  rw [BitVec.and_assoc, BitVec.and_comm y, ← BitVec.and_assoc, hx]

lemma blockable_sigmask {n : ℕ} (hpos : 1 ≤ n) (hlt : n < nsig) (hkill : n ≠ sigkill) :
    sigmask n &&& blockableBits = sigmask n := by
  rw [blockable_iff, sigmask_getLsbD, sigmask_getLsbD]
  simp only [nsig, sigkill] at hlt hkill
  constructor
  · simp only [Bool.and_eq_false_iff, decide_eq_false_iff_not]
    omega
  · simp only [Bool.and_eq_false_iff, decide_eq_false_iff_not]
    omega

lemma not_killed {x : Sigset} (hx : x &&& blockableBits = x) : x &&& sigmask sigkill = 0 := by
  have h8 := ((blockable_iff x).mp hx).1
  refine BitVec.eq_of_getLsbD_eq fun i hi => ?_
  rw [BitVec.getLsbD_and, sigmask_getLsbD]
  by_cases hi8 : i = 8
  · rw [hi8, h8]
    rfl
  · have hne : ¬8 = i := fun heq => hi8 heq.symm
    simp [hne]

lemma pick_spec {x : Sigset} (hbits : x &&& signalBits = x) (hx : x ≠ 0) :
    1 ≤ pick x ∧ pick x < nsig ∧ x.getLsbD (pick x - 1) = true := by
  unfold pick
  split
  · rename_i hkill
    refine ⟨by decide, by decide, ?_⟩
    by_contra hno
    refine hkill (BitVec.eq_of_getLsbD_eq fun i hi => ?_)
    rw [BitVec.getLsbD_and, sigmask_getLsbD]
    by_cases hi8 : sigkill - 1 = i
    · rw [← hi8, (Bool.not_eq_true _).mp hno]
      rfl
    · rw [decide_eq_false hi8, Bool.and_false, Bool.and_false]
      exact BitVec.getLsbD_zero.symm
  · unfold ctz
    have hsome : ((List.range 32).find? fun i => x.getLsbD i).isSome = true := by
      by_contra hnone
      refine hx (BitVec.eq_of_getLsbD_eq fun i hi => ?_)
      have hno := List.find?_eq_none.mp (Option.not_isSome_iff_eq_none.mp hnone) i (List.mem_range.mpr hi)
      simpa using hno
    obtain ⟨i, hi⟩ := Option.isSome_iff_exists.mp hsome
    have hbit := List.find?_some hi
    have hlt := List.mem_range.mp (List.mem_of_find?_eq_some hi)
    have h31 : i ≠ 31 := fun heq => by
      subst heq
      rw [← hbits, BitVec.getLsbD_and] at hbit
      have hno : signalBits.getLsbD 31 = false := by decide
      rw [hno, Bool.and_false] at hbit
      cases hbit
    rw [hi, Option.getD_some, Nat.add_sub_cancel]
    simp only [nsig]
    exact ⟨by omega, by omega, hbit⟩

lemma signalMask_spec (state : Signals) (how : ℕ) (set : Option (Option Sigset)) (copied : Option Bool) :
    ∃ blocked, (state.blocked &&& blockableBits = state.blocked → blocked &&& blockableBits = blocked) ∧
      (signalMask state how set copied).1 = { state with blocked := blocked } := by
  unfold signalMask
  by_cases hhow : set.isSome ∧ how > 2
  · rw [if_pos hhow]
    exact ⟨_, id, rfl⟩
  rw [if_neg hhow]
  by_cases hset : set = some none
  · rw [if_pos hset]
    exact ⟨_, id, rfl⟩
  rw [if_neg hset]
  by_cases hcopy : copied = some false
  · rw [if_pos hcopy]
    exact ⟨_, id, rfl⟩
  rw [if_neg hcopy]
  split
  · rename_i mask
    refine ⟨_, fun h => ?_, rfl⟩
    split_ifs
    · exact blockable_or h (blockable_and mask)
    · exact blockable_and_not h _
    · exact blockable_and mask
  · exact ⟨_, id, rfl⟩

lemma signalStack_spec (rights : Rights) (state : Signals) (new : Option (Option Stack)) (copied : Option Bool) :
    ∃ stack, (signalStack rights state new copied).1 = { state with stack := stack } := by
  unfold signalStack
  split
  · exact ⟨state.stack, rfl⟩
  · exact ⟨state.stack, rfl⟩
  · split_ifs <;> exact ⟨_, rfl⟩

lemma suspendLeave_spec (state : Signals) (previous : Sigset) (h : state.pending &&& signalBits = state.pending) :
    ∃ pending, pending &&& signalBits = pending ∧
      suspendLeave state previous = { state with pending := pending, blocked := previous } := by
  unfold suspendLeave
  dsimp only
  split
  · exact ⟨_, by rw [BitVec.and_assoc, BitVec.and_comm (~~~_), ← BitVec.and_assoc, h], rfl⟩
  · exact ⟨_, h, rfl⟩

/-! ### What holds in every run -/

/-- `SIGKILL` is never blocked, and the processor has made the context. -/
structure Thread.Inv (cpu : Cpu) (t : Thread) : Prop where
  pending : t.signals.pending &&& signalBits = t.signals.pending
  blocked : t.signals.blocked &&& blockableBits = t.signals.blocked
  suspended : ∀ previous ∈ t.suspended, previous &&& blockableBits = previous
  accepts : cpu.accepts t.context.simd = true
  actions : ∀ sig < nsig, (t.actions sig).mask &&& blockableBits = (t.actions sig).mask

lemma deliverable_bits {state : Signals} (h : state.pending &&& signalBits = state.pending) :
    state.deliverable &&& signalBits = state.deliverable := by
  unfold Signals.deliverable
  rw [BitVec.and_assoc, BitVec.and_comm (~~~state.blocked), ← BitVec.and_assoc, h]

lemma nextSignal_spec {state state' : Signals} {fault : Option Siginfo} {information : Siginfo}
    (h : state.pending &&& signalBits = state.pending) (hflt : fault.all (·.raised) = true)
    (hnext : nextSignal state fault = some (information, state')) :
    1 ≤ information.signo.toNat ∧ information.signo.toNat < nsig ∧
      ∃ pending, pending &&& signalBits = pending ∧ state' = { state with pending := pending } := by
  unfold nextSignal at hnext
  cases fault with
  | some raised =>
    simp only [Option.some.injEq, Prod.mk.injEq] at hnext
    obtain ⟨rfl, rfl⟩ := hnext
    simp only [Option.all_some, Siginfo.raised, decide_eq_true_eq] at hflt
    exact ⟨hflt.1, hflt.2.1, state.pending, h, rfl⟩
  | none =>
    dsimp only at hnext
    split at hnext
    · cases hnext
    · rename_i hne
      obtain ⟨hpos, hlt, -⟩ := pick_spec (deliverable_bits h) hne
      simp only [Option.some.injEq, Prod.mk.injEq] at hnext
      obtain ⟨rfl, rfl⟩ := hnext
      have hsig : (BitVec.ofNat 32 (pick state.deliverable)).toNat = pick state.deliverable := by
        simp only [nsig] at hlt
        rw [BitVec.toNat_ofNat, Nat.mod_eq_of_lt (by omega)]
      dsimp only
      rw [hsig]
      refine ⟨hpos, hlt, _, ?_, rfl⟩
      rw [BitVec.and_assoc, BitVec.and_comm (~~~_), ← BitVec.and_assoc, h]

/-- What a delivery to a handler leaves: the frame is read back as it has been written. -/
structure Delivered (state : Signals) (actions : ℕ → Action) (context : Mcontext) (state' : Signals)
    (actions' : ℕ → Action) (memory' : ℕ → UInt8) (context' : Mcontext) : Prop where
  pending : state'.pending &&& signalBits = state'.pending
  blocked : state.blocked &&& blockableBits = state.blocked → state'.blocked &&& blockableBits = state'.blocked
  actions : ∀ sig, actions' sig = actions sig ∨ actions' sig = Action.zero
  simd : context'.simd = context.simd
  frame : state'.frame ≠ 0
  saved : ∃ information stack, SignalFrame.codec.decode (load memory' state'.frame.toNat SignalFrame.codec.size) =
    ⟨0, stack, state.blocked, context.exported, information, state.frame, if state.onstack then 1 else 0⟩

lemma Place.fits_address {p : Place} {rights : Rights} {state : Signals} {retToApp : BitVec 64}
    (h : p.fits rights state retToApp = true) : p.stack.toNat + 8 = p.address.toNat ∧ p.address ≠ 0 := by
  unfold Place.fits Rights.userVmPrepareWrite userRange at h
  simp only [Bool.and_eq_true, decide_eq_true_eq] at h
  obtain ⟨-, ⟨hstar, hend, -, -⟩, -⟩ := h
  have haddr : p.address = p.stack + 8 := by
    unfold Place.stack
    rw [BitVec.sub_add_cancel]
  have hnat : p.address.toNat = p.stack.toNat + 8 := by
    rw [haddr, BitVec.toNat_add]
    simp only [userHeapEnd] at hend
    change (p.stack.toNat + 8) % 2 ^ 64 = _
    omega
  refine ⟨hnat.symm, fun hzero => ?_⟩
  rw [hzero] at hnat
  cases hnat

lemma deliver_spec (rights : Rights) (retToApp : BitVec 64) {state : Signals} {actions : ℕ → Action} (memory : ℕ → UInt8)
    (context : Mcontext) {information : Siginfo} (hpend : state.pending &&& signalBits = state.pending)
    (hacts : ∀ sig < nsig, (actions sig).mask &&& blockableBits = (actions sig).mask)
    (hpos : 1 ≤ information.signo.toNat) (hlt : information.signo.toNat < nsig) (hkill : information.signo.toNat ≠ sigkill) :
    deliver rights retToApp state actions memory context information = .killed state ∨
      ∃ state' actions' memory' context',
        deliver rights retToApp state actions memory context information =
          .handler information.signo.toNat state' actions' memory' context' ∧
        Delivered state actions context state' actions' memory' context' := by
  unfold deliver
  dsimp only
  generalize hp : place state (actions information.signo.toNat) context = p
  by_cases hfits : p.fits rights state retToApp = true
  · obtain ⟨hslot, hne⟩ := Place.fits_address hfits
    rw [hfits]
    refine .inr ⟨_, _, _, _, rfl, hpend, fun hblk => ?_, fun sig => ?_, rfl, hne, ⟨information,
      { state.stack with flags := state.stackFlags }, ?_⟩⟩
    · have hmask := blockable_or hblk (hacts _ hlt)
      dsimp only
      split
      · exact hmask
      · exact blockable_or hmask (blockable_sigmask hpos hlt hkill)
    · split
      · by_cases hsig : sig = information.signo.toNat
        · exact .inr (by rw [hsig, Function.update_self])
        · exact .inl (Function.update_of_ne hsig ..)
      · exact .inl rfl
    · dsimp only
      -- the slot of the return address is below the frame
      rw [load_congr (store memory p.address.toNat
        (SignalFrame.codec.encode (signalFrame state context information))) fun i hi _ => store_of_disjoint _ (.inr ?_),
        Codec.decode_load_store]
      · rfl
      · rw [Codec.length_encode]
        change p.stack.toNat + 8 ≤ i
        omega
  · rw [(Bool.not_eq_true _).mp hfits]
    exact .inl rfl

/-- **What `user_signal_dispatch` leaves**, whether it finds nothing, ends the process or runs a handler. -/
theorem userSignalDispatch_spec (rights : Rights) (retToApp : BitVec 64) {state : Signals} {actions : ℕ → Action}
    (memory : ℕ → UInt8) (context : Mcontext) {fault : Option Siginfo} (hpend : state.pending &&& signalBits = state.pending)
    (hflt : fault.all (·.raised) = true)
    (hacts : ∀ sig < nsig, (actions sig).mask &&& blockableBits = (actions sig).mask) :
    match userSignalDispatch rights retToApp state actions memory context fault with
    | .none state' | .killed state' => ∃ pending, pending &&& signalBits = pending ∧ state' = { state with pending := pending }
    | .handler _ state' actions' memory' context' => Delivered state actions context state' actions' memory' context' := by
  unfold userSignalDispatch
  split_ifs
  · exact ⟨state.pending, hpend, rfl⟩
  cases hnext : nextSignal state fault with
  | none => exact ⟨state.pending, hpend, rfl⟩
  | some next =>
  obtain ⟨information, state₁⟩ := next
  obtain ⟨hpos, hlt, pending, hbits, rfl⟩ := nextSignal_spec hpend hflt hnext
  dsimp only
  split_ifs with hign hended
  · exact ⟨pending, hbits, rfl⟩
  · exact ⟨pending, hbits, rfl⟩
  · simp only [not_or] at hended
    have hkept : ({ state with pending := pending } : Signals).pending &&& signalBits = pending := hbits
    rcases deliver_spec rights retToApp memory context hkept hacts hpos hlt
      hended.2.2.2 with hkil | ⟨state', actions', memory', context', hhdlr, hdel⟩
    · rw [hkil]
      exact ⟨pending, hbits, rfl⟩
    · rw [hhdlr]
      exact { hdel with }

lemma accepts_exported {cpu : Cpu} {context : Mcontext} (h : cpu.accepts context.simd = true) :
    cpu.accepts context.exported.simd = true := h

/-- **What `user_signal_restore` leaves.** -/
theorem userSignalRestore_spec (cpu : Cpu) (rights : Rights) (state : Signals) (memory : ℕ → UInt8) (address : BitVec 64)
    (context : Mcontext) :
    let r := userSignalRestore cpu rights state memory address context
    let saved := SignalFrame.codec.decode (load memory address.toNat SignalFrame.codec.size)
    (r.1 = true ∧ address = state.frame ∧ address ≠ 0 ∧ saved.context.inUserSpace = true ∧
      cpu.accepts saved.context.simd = true ∧
      r.2 = ({ state with blocked := saved.mask &&& blockableBits, frame := saved.previous, onstack := saved.onstack = 1 },
        saved.context.returned)) ∨
    (r.1 = false ∧ r.2 = (state, context)) := by
  unfold userSignalRestore
  dsimp only
  split_ifs with hfrm hctx
  · exact .inr ⟨rfl, rfl⟩
  · exact .inr ⟨rfl, rfl⟩
  · simp only [not_or, Bool.not_eq_eq_eq_not] at hfrm hctx
    exact .inl ⟨rfl, by simpa using hfrm.2.1, hfrm.1, by simpa using hctx.1, by simpa using hctx.2, rfl⟩

namespace Thread

variable {cpu : Cpu} {t t' : Thread} {e : FrameEvent}

lemma Inv.initial (h : t.initial cpu) : t.Inv cpu := by
  obtain ⟨hpend, hblk, -, -, hsusp, hacc, hacts⟩ := h
  refine ⟨?_, hblk, ?_, hacc, hacts⟩
  · rw [hpend]
    rfl
  · rw [hsusp]
    nofun

/-- **Every step keeps the invariant**, whatever is in the frames. -/
theorem Inv.step (h : t.Inv cpu) (hstep : t.step cpu e = some t') : t'.Inv cpu := by
  cases e with
  | program context memory =>
    simp only [Thread.step, Option.ite_none_right_eq_some, Option.some.injEq] at hstep
    obtain ⟨hgrd, rfl⟩ := hstep
    exact { h with accepts := hgrd.2 }
  | others pending actions retToApp =>
    simp only [Thread.step, Option.ite_none_right_eq_some, Option.some.injEq] at hstep
    obtain ⟨hgrd, rfl⟩ := hstep
    exact ⟨hgrd.1, h.blocked, h.suspended, h.accepts, hgrd.2⟩
  | mask how set copied =>
    simp only [Thread.step, Option.ite_none_right_eq_some, Option.some.injEq] at hstep
    obtain ⟨-, rfl⟩ := hstep
    obtain ⟨blocked, hblk, hmask⟩ := signalMask_spec t.signals how set copied
    rw [hmask]
    exact { h with blocked := hblk h.blocked }
  | stack rights new copied =>
    simp only [Thread.step, Option.ite_none_right_eq_some, Option.some.injEq] at hstep
    obtain ⟨-, rfl⟩ := hstep
    obtain ⟨stack, hstk⟩ := signalStack_spec rights t.signals new copied
    rw [hstk]
    exact { h with }
  | suspend mask =>
    simp only [Thread.step, Option.ite_none_right_eq_some, Option.some.injEq] at hstep
    obtain ⟨-, rfl⟩ := hstep
    exact { h with
      blocked := blockable_and mask,
      suspended := fun previous hprev => Option.some.inj hprev ▸ h.blocked }
  | resume =>
    simp only [Thread.step] at hstep
    split at hstep
    · cases hstep
    · rename_i previous hprev
      cases hstep
      obtain ⟨pending, hbits, hleav⟩ := suspendLeave_spec t.signals previous h.pending
      rw [hleav]
      exact ⟨hbits, h.suspended previous hprev, nofun, h.accepts, h.actions⟩
  | dispatch rights fault =>
    simp only [Thread.step, Option.ite_none_right_eq_some] at hstep
    obtain ⟨⟨-, hflt⟩, hstep⟩ := hstep
    have hspec := userSignalDispatch_spec rights t.retToApp t.memory t.context h.pending hflt h.actions
    split at hstep <;> rename_i hdisp <;> rw [hdisp] at hspec <;> cases hstep
    · obtain ⟨pending, hbits, rfl⟩ := hspec
      exact { h with pending := hbits }
    · obtain ⟨pending, hbits, rfl⟩ := hspec
      exact { h with pending := hbits }
    · refine ⟨hspec.pending, hspec.blocked h.blocked, h.suspended, ?_, fun sig hsig => ?_⟩
      · dsimp only
        rw [hspec.simd]
        exact h.accepts
      · rcases hspec.actions sig with hsame | hzero
        · dsimp only
          rw [hsame]
          exact h.actions sig hsig
        · dsimp only
          rw [hzero]
          rfl
  | restore rights =>
    simp only [Thread.step, Option.ite_none_right_eq_some] at hstep
    obtain ⟨-, hstep⟩ := hstep
    have hspec := userSignalRestore_spec cpu rights t.signals t.memory t.context.rdi t.context
    generalize userSignalRestore cpu rights t.signals t.memory t.context.rdi t.context = r at hstep hspec
    obtain ⟨ok, state, context⟩ := r
    rcases hspec with ⟨hok, -, -, -, hacc, hres⟩ | ⟨hok, hres⟩ <;> dsimp only at hok hres <;> subst hok <;>
      obtain ⟨rfl, rfl⟩ := Prod.mk.inj hres <;> cases hstep
    · exact ⟨h.pending, blockable_and _, h.suspended, hacc, h.actions⟩
    · exact { h with }

end Thread

/-! ## Returns give back what has been interrupted -/

def savedFrame (memory : ℕ → UInt8) (address : BitVec 64) : SignalFrame :=
  SignalFrame.codec.decode (load memory address.toNat SignalFrame.codec.size)

/-- The frame has what was in force at the delivery. -/
structure Live.Saved (cpu : Cpu) (f : Live) (saved : SignalFrame) : Prop where
  address : f.address ≠ 0
  accepts : cpu.accepts f.context.simd = true
  blockable : f.blocked &&& blockableBits = f.blocked
  context : saved.context = f.context.exported
  mask : saved.mask = f.blocked
  previous : saved.previous = f.previous
  onstack : saved.onstack = if f.onstack then 1 else 0

/-- The live deliveries have their frames on the chain from `frame` on. -/
def Linked (cpu : Cpu) (memory : ℕ → UInt8) (frame : BitVec 64) : List Live → Prop
  | [] => frame = 0
  | f :: rest => frame = f.address ∧ f.Saved cpu (savedFrame memory f.address) ∧ Linked cpu memory f.previous rest

lemma Linked.congr {cpu : Cpu} {memory memory' : ℕ → UInt8} {frame : BitVec 64} {live : List Live}
    (h : Linked cpu memory frame live) (hbs : ∀ f ∈ live,
      load memory' f.address.toNat SignalFrame.codec.size = load memory f.address.toNat SignalFrame.codec.size) :
    Linked cpu memory' frame live := by
  induction live generalizing frame with
  | nil => exact h
  | cons f rest ih =>
    obtain ⟨hfrm, hsv, hrest⟩ := h
    refine ⟨hfrm, ?_, ih hrest fun g hg => hbs g (.tail _ hg)⟩
    unfold savedFrame at hsv ⊢
    rw [hbs f (.head _)]
    exact hsv

/-! ### A return at a frame that has been left as it was -/

section Restore

variable {cpu : Cpu} {memory : ℕ → UInt8} {state : Signals} {f : Live}

def Live.resume (f : Live) (state : Signals) : Signals :=
  { state with blocked := f.blocked, frame := f.previous, onstack := f.onstack }

lemma userSignalRestore_of_frame_eq_zero (rights : Rights) (address : BitVec 64) (context : Mcontext)
    (h : state.frame = 0) : (userSignalRestore cpu rights state memory address context).1 = false := by
  rcases userSignalRestore_spec cpu rights state memory address context with ⟨-, haddr, hne, -⟩ | ⟨hfail, -⟩
  · exact absurd (haddr.trans h) hne
  · exact hfail

lemma userSignalRestore_failed {rights : Rights} {address : BitVec 64} {context : Mcontext}
    (h : ¬(userSignalRestore cpu rights state memory address context).1 = true) :
    userSignalRestore cpu rights state memory address context = (false, state, context) := by
  rcases userSignalRestore_spec cpu rights state memory address context with ⟨hok, -⟩ | ⟨hfail, hsame⟩
  · exact absurd hok h
  · exact Prod.ext hfail hsame

lemma exported_inUserSpace (context : Mcontext) : context.exported.inUserSpace = context.inUserSpace := rfl

lemma Live.Saved.restore (h : f.Saved cpu (savedFrame memory f.address)) (hfrm : state.frame = f.address)
    (rights : Rights) (context : Mcontext) :
    userSignalRestore cpu rights state memory f.address context =
      if rights.userVmReadable f.address.toNat SignalFrame.codec.size ∧ f.context.inUserSpace then
        (true, f.resume state, f.context.exported.returned)
      else (false, state, context) := by
  unfold savedFrame at h
  unfold userSignalRestore
  generalize SignalFrame.codec.decode (load memory f.address.toNat SignalFrame.codec.size) = saved at h ⊢
  dsimp only
  have hons : ¬saved.onstack > 1 := by
    rw [h.onstack]
    cases f.onstack <;> decide
  have hresum : decide (saved.onstack = 1) = f.onstack := by
    rw [h.onstack]
    cases f.onstack <;> decide
  rw [hresum, h.mask, h.blockable, h.previous, h.context, exported_inUserSpace, accepts_exported h.accepts]
  by_cases hrdbl : rights.userVmReadable f.address.toNat SignalFrame.codec.size = true
  · have haddr : ¬f.address = 0#64 := h.address
    rw [if_neg (by simpa [hfrm, hrdbl, haddr] using hons)]
    by_cases hin : f.context.inUserSpace = true
    · rw [if_neg (by simp [hin]), if_pos ⟨hrdbl, hin⟩]
      rfl
    · rw [if_pos (by simp [hin]), if_neg fun hboth => hin hboth.2]
  · rw [if_pos (by simp [hrdbl]), if_neg fun hboth => hrdbl hboth.1]

end Restore

/-! ### Every run -/

namespace Thread

variable {cpu : Cpu} {t t' : Thread} {e : FrameEvent}

/-- The invariant of the runs in which the live frames are left as they are -/
structure Chained (cpu : Cpu) (t : Thread) : Prop where
  inv : t.Inv cpu
  linked : Linked cpu t.memory t.signals.frame t.live

lemma Chained.initial (h : t.initial cpu) : t.Chained cpu := by
  refine ⟨Inv.initial h, ?_⟩
  obtain ⟨-, -, hfrm, hlive, -⟩ := h
  rw [hlive]
  exact hfrm

lemma saved_delivered {state' : Signals} {actions' : ℕ → Action} {memory' : ℕ → UInt8} {context' : Mcontext} (h : t.Inv cpu)
    (hdel : Delivered t.signals t.actions t.context state' actions' memory' context') :
    Live.Saved cpu ⟨state'.frame, t.context, t.signals.blocked, t.signals.frame, t.signals.onstack⟩
      (savedFrame memory' state'.frame) := by
  obtain ⟨information, stack, hsv⟩ := hdel.saved
  have hfrm : savedFrame memory' state'.frame =
      ⟨0, stack, t.signals.blocked, t.context.exported, information, t.signals.frame, if t.signals.onstack then 1 else 0⟩ :=
    hsv
  rw [hfrm]
  exact ⟨hdel.frame, h.accepts, h.blocked, rfl, rfl, rfl, rfl⟩

/-- **What a dispatch does to the chain**: nothing, or it puts one frame before the others. -/
lemma step_dispatch {rights : Rights} {fault : Option Siginfo} (h : t.Inv cpu)
    (hstep : t.step cpu (.dispatch rights fault) = some t') :
    (t'.live = t.live ∧ t'.memory = t.memory ∧ t'.signals.frame = t.signals.frame) ∨
      ∃ f, t'.live = f :: t.live ∧ t'.signals.frame = f.address ∧ f.previous = t.signals.frame ∧
        f.Saved cpu (savedFrame t'.memory f.address) := by
  simp only [Thread.step, Option.ite_none_right_eq_some] at hstep
  obtain ⟨⟨-, hflt⟩, hstep⟩ := hstep
  have hspec := userSignalDispatch_spec rights t.retToApp t.memory t.context h.pending hflt h.actions
  split at hstep <;> rename_i hdisp <;> rw [hdisp] at hspec <;> cases hstep
  · obtain ⟨pending, -, rfl⟩ := hspec
    exact .inl ⟨rfl, rfl, rfl⟩
  · obtain ⟨pending, -, rfl⟩ := hspec
    exact .inl ⟨rfl, rfl, rfl⟩
  · exact .inr ⟨_, rfl, rfl, rfl, saved_delivered h hspec⟩

/-- **What a return that succeeds leaves**: it undoes the last delivery. -/
lemma Chained.restored (h : t.Chained cpu) {rights : Rights} {address : BitVec 64} {context : Mcontext}
    (hok : (userSignalRestore cpu rights t.signals t.memory address context).1 = true) :
    ∃ f rest, t.live = f :: rest ∧ address = f.address ∧
      userSignalRestore cpu rights t.signals t.memory address context =
        (true, f.resume t.signals, f.context.exported.returned) := by
  have haddr : address = t.signals.frame := by
    rcases userSignalRestore_spec cpu rights t.signals t.memory address context with ⟨-, haddr, -⟩ | ⟨hfail, -⟩
    · exact haddr
    · rw [hfail] at hok
      cases hok
  have hlink := h.linked
  cases hlive : t.live with
  | nil =>
    rw [hlive] at hlink
    rw [userSignalRestore_of_frame_eq_zero rights address context hlink] at hok
    cases hok
  | cons f rest =>
    rw [hlive] at hlink
    obtain ⟨hfrm, hsv, -⟩ := hlink
    obtain rfl := haddr.trans hfrm
    refine ⟨f, rest, rfl, rfl, ?_⟩
    rw [hsv.restore hfrm] at hok ⊢
    split_ifs at hok ⊢
    rfl

/-- **Every step that leaves the live frames as they are keeps the chain.** -/
theorem Chained.step (h : t.Chained cpu) (hunt : Untouched cpu t e) (hstep : t.step cpu e = some t') :
    t'.Chained cpu := by
  refine ⟨h.inv.step hstep, ?_⟩
  have hbs := hunt t' hstep
  unfold frameBytes at hbs
  cases e with
  | program context memory =>
    simp only [Thread.step, Option.ite_none_right_eq_some, Option.some.injEq] at hstep
    obtain ⟨-, rfl⟩ := hstep
    exact h.linked.congr hbs
  | others pending actions retToApp =>
    simp only [Thread.step, Option.ite_none_right_eq_some, Option.some.injEq] at hstep
    obtain ⟨-, rfl⟩ := hstep
    exact h.linked
  | mask how set copied =>
    simp only [Thread.step, Option.ite_none_right_eq_some, Option.some.injEq] at hstep
    obtain ⟨-, rfl⟩ := hstep
    obtain ⟨blocked, -, hmask⟩ := signalMask_spec t.signals how set copied
    rw [hmask]
    exact h.linked
  | stack rights new copied =>
    simp only [Thread.step, Option.ite_none_right_eq_some, Option.some.injEq] at hstep
    obtain ⟨-, rfl⟩ := hstep
    obtain ⟨stack, hstk⟩ := signalStack_spec rights t.signals new copied
    rw [hstk]
    exact h.linked
  | suspend mask =>
    simp only [Thread.step, Option.ite_none_right_eq_some, Option.some.injEq] at hstep
    obtain ⟨-, rfl⟩ := hstep
    exact h.linked
  | resume =>
    simp only [Thread.step] at hstep
    split at hstep
    · cases hstep
    · cases hstep
      exact h.linked
  | dispatch rights fault =>
    rcases step_dispatch h.inv hstep with ⟨hlive, hmem, hfrm⟩ | ⟨f, hlive, hfrm, hprev, hsv⟩
    · rw [hlive, hmem, hfrm]
      exact h.linked
    · rw [hlive]
      refine ⟨hfrm, hsv, ?_⟩
      rw [hprev]
      exact h.linked.congr hbs
  | restore rights =>
    simp only [Thread.step, Option.ite_none_right_eq_some] at hstep
    obtain ⟨-, hstep⟩ := hstep
    by_cases hok : (userSignalRestore cpu rights t.signals t.memory t.context.rdi t.context).1 = true
    · obtain ⟨f, rest, hlive, haddr, hres⟩ := h.restored hok
      rw [hres] at hstep
      cases hstep
      have hlink := h.linked
      rw [hlive] at hlink ⊢
      exact hlink.2.2
    · have hfail := userSignalRestore_failed hok
      rw [hfail] at hstep
      cases hstep
      exact h.linked

lemma returned_userMode (context : Mcontext) :
    context.returned.cs = 35 ∧ context.returned.ss = 27 ∧ context.returned.rflags.getLsbD 9 = true ∧
      context.returned.rflags &&& 0x7000 = 0 := by
  refine ⟨rfl, rfl, ?_, ?_⟩
  · change ((context.rflags &&& 0x240dd5#64) ||| 0x202#64).getLsbD 9 = true
    rw [BitVec.getLsbD_or]
    simp
  · change ((context.rflags &&& 0x240dd5#64) ||| 0x202#64) &&& 0x7000#64 = 0#64
    rw [BitVec.and_or_distrib_right, BitVec.and_assoc]
    simp

/-- **Returns undo deliveries.** While the live frames are left as they are, the return at the head of the chain
succeeds if its frame is readable and the interrupted context is one of user space; it gives back that context and
what was in force at the delivery. Whatever is in the frames, `SIGKILL` is never blocked, a return that succeeds
leaves a context of user mode, and one that fails changes nothing. -/
theorem returns_undo_deliveries (cpu : Cpu) :
    (∀ t, (sys cpu).Guarded (Untouched cpu) t →
      (t.live = [] → ∀ rights address context,
        (userSignalRestore cpu rights t.signals t.memory address context).1 = false) ∧
      ∀ f rest, t.live = f :: rest → t.signals.frame = f.address ∧ ∀ rights address context,
        ((userSignalRestore cpu rights t.signals t.memory address context).1 = true ↔
          address = f.address ∧ rights.userVmReadable f.address.toNat SignalFrame.codec.size = true ∧
            f.context.inUserSpace = true) ∧
        ((userSignalRestore cpu rights t.signals t.memory address context).1 = true →
          (userSignalRestore cpu rights t.signals t.memory address context).2 =
            ({ t.signals with blocked := f.blocked, frame := f.previous, onstack := f.onstack },
             { f.context with
                simd := f.context.simd.exported
                ymmHi := if f.context.simd.ymmInuse = 0 then Vector.replicate 256 0 else f.context.ymmHi
                cs := 35
                ss := 27
                rflags := f.context.rflags &&& 0x240dd5 ||| 0x202
                vector := 0
                error := 0 }))) ∧
    ∀ t, (sys cpu).Reachable t → t.signals.blocked &&& sigmask sigkill = 0 ∧ ∀ rights memory address context,
      let r := userSignalRestore cpu rights t.signals memory address context
      (r.1 = true → r.2.1.blocked &&& sigmask sigkill = 0 ∧ r.2.2.cs = 35 ∧ r.2.2.ss = 27 ∧
        r.2.2.rflags.getLsbD 9 = true ∧ r.2.2.rflags &&& 0x7000 = 0 ∧ r.2.2.inUserSpace = true) ∧
      (r.1 = false → r.2 = (t.signals, context)) := by
  refine ⟨fun t ht => ?_, fun t ht => ?_⟩
  · have h : t.Chained cpu := ht.invariant (fun _ hinit => .initial hinit) fun _ _ _ hs hg he => hs.step hg he
    have hlinked := h.linked
    refine ⟨fun hlive rights address context => ?_, fun f rest hlive => ?_⟩
    · rw [hlive] at hlinked
      exact userSignalRestore_of_frame_eq_zero rights address context hlinked
    · rw [hlive] at hlinked
      obtain ⟨hframe, hsaved, -⟩ := hlinked
      refine ⟨hframe, fun rights address context => ⟨⟨fun hok => ?_, ?_⟩, fun hok => ?_⟩⟩
      · obtain ⟨g, rest', hcons, haddress, -⟩ := h.restored hok
        obtain ⟨rfl, rfl⟩ := List.cons.inj (hlive.symm.trans hcons)
        subst haddress
        rw [hsaved.restore hframe] at hok
        split_ifs at hok with hboth
        exact ⟨rfl, hboth⟩
      · rintro ⟨rfl, hboth⟩
        rw [hsaved.restore hframe, if_pos hboth]
      · obtain ⟨g, rest', hcons, -, hrestore⟩ := h.restored hok
        obtain ⟨rfl, rfl⟩ := List.cons.inj (hlive.symm.trans hcons)
        rw [hrestore]
        rfl
  · have h : t.Inv cpu := System.Reachable.invariant (fun _ hinit => .initial hinit) (fun _ _ _ hs he => hs.step he) ht
    refine ⟨not_killed h.blocked, fun rights memory address context => ?_⟩
    have hspec := userSignalRestore_spec cpu rights t.signals memory address context
    dsimp only at hspec ⊢
    generalize userSignalRestore cpu rights t.signals memory address context = r at hspec ⊢
    generalize SignalFrame.codec.decode (load memory address.toNat SignalFrame.codec.size) = saved at hspec
    obtain ⟨ok, state', context'⟩ := r
    rcases hspec with ⟨hok, -, -, hin, -, hresult⟩ | ⟨hfail, hsame⟩
    · obtain ⟨rfl, rfl⟩ := Prod.mk.inj hresult
      obtain ⟨hcs, hss, hif, hzero⟩ := returned_userMode saved.context
      exact ⟨fun _ => ⟨not_killed (blockable_and _), hcs, hss, hif, hzero, hin⟩,
        fun hfail => Bool.noConfusion (hok.symm.trans hfail)⟩
    · exact ⟨fun hok => Bool.noConfusion (hok.symm.trans hfail), fun _ => hsame⟩

/-! ### Runs in which a return does not give back the context -/

def someCpu : Cpu := ⟨0xffff, 7⟩

def clearFp : SignalFpregs :=
  ⟨0x37f, 0, 0, 0, 0, 0, 0, 0x1f80, 0, Vector.replicate 128 0, Vector.replicate 256 0, Vector.replicate 48 0, 0,
    Vector.replicate 40 0⟩

def contextAt (rip rsp : BitVec 64) : Mcontext :=
  ⟨clearFp, Vector.replicate 256 0, 0, 0, 0, 0, 0, 0, 0, 0, 0, 0, 0, 0, 0, 0, 0, 0, 0, rip, 35, 0x202, rsp, 27⟩

/-- A thread with an alternate stack; its signals have handlers, that of signal 10 is on that stack. -/
def handling : Thread where
  signals := ⟨0, 0, ⟨0x180000000, 0, 0x4000⟩, 0, false⟩
  actions sig := ⟨0x100001000, 0, if sig = 10 then 2 else 0⟩
  memory _ := 0
  context := contextAt 0x100000000 0x200000000
  retToApp := 0x100003000
  suspended := none
  dead := false
  live := []

def allRights : Rights := ⟨fun _ => true, fun _ => true⟩

lemma handling_initial : handling.initial someCpu :=
  ⟨rfl, rfl, rfl, rfl, rfl, by decide, fun _ _ => (by decide : (0 : Sigset) &&& blockableBits = 0)⟩

def signalled (t : Thread) (sig : ℕ) : Thread :=
  (sys someCpu).replay t [.others (sigmask sig) t.actions t.retToApp, .dispatch allRights none]

/-- The signal arrives while the stack pointer is not in user space. -/
def outside : Thread := ({ handling with context := contextAt 0x100000000 0 } : Thread).signalled 10

/-- The handler of signal 12 has set its stack pointer to where it was before the delivery. -/
def raised : Thread := { handling.signalled 12 with context := contextAt 0x100001000 0x200000000 }

def awaiting : Thread := { raised with signals := { raised.signals with pending := sigmask 14 } }
def nested : Thread := (sys someCpu).replay awaiting [.dispatch allRights none]

def returning : Thread := { nested with context := { contextAt 0x100001000 0x200000000 with rdi := 0x1fffffbf0 } }

def outer : Live := ⟨0x1fffffbf0, contextAt 0x100000000 0x200000000, 0, 0, false⟩
def inner : Live := ⟨0x1fffffbf0, contextAt 0x100001000 0x200000000, 0x800, 0x1fffffbf0, false⟩

def crowded : Thread :=
  { returning with
    signals := inner.resume returning.signals
    context := inner.context.exported.returned
    live := returning.live.tail }

lemma outside_live : outside.live = [⟨0x180003bf0, contextAt 0x100000000 0, 0, 0, false⟩] := rfl
lemma nested_live : nested.live = [inner, outer] := rfl

lemma untouched_program (cpu : Cpu) (t : Thread) (context : Mcontext) : t.Untouched cpu (.program context t.memory) := by
  intro t' ht' f _
  simp only [Thread.step, Option.mem_def, Option.ite_none_right_eq_some, Option.some.injEq] at ht'
  obtain ⟨-, rfl⟩ := ht'
  rfl

lemma untouched_of_live_eq_nil (h : t.live = []) : t.Untouched cpu e := by
  intro t' _ f hf
  rw [h] at hf
  cases hf

def KeptByProgram (cpu : Cpu) (t : Thread) (e : FrameEvent) : Prop :=
  ∀ context memory, e = .program context memory → t.Untouched cpu e

lemma keptByProgram_registers (context : Mcontext) :
    KeptByProgram someCpu t (.program context t.memory) := by
  rintro _ _ ⟨rfl, rfl⟩
  exact untouched_program someCpu t context

lemma outside_guarded : (sys someCpu).Guarded (Untouched someCpu) outside :=
  .step (.step (.step (.init handling_initial)
    (untouched_of_live_eq_nil (e := .program (contextAt 0x100000000 0) handling.memory) rfl) rfl)
    (untouched_of_live_eq_nil (e := .others (sigmask 10) handling.actions handling.retToApp) rfl) rfl)
    (untouched_of_live_eq_nil (e := .dispatch allRights none) rfl) rfl

lemma awaiting_guarded : (sys someCpu).Guarded (KeptByProgram someCpu) awaiting := by
  have hfst : (sys someCpu).Guarded (KeptByProgram someCpu) (handling.signalled 12) :=
    .step (.step (.init handling_initial) (e := .others (sigmask 12) handling.actions handling.retToApp) nofun rfl)
      (e := .dispatch allRights none) nofun rfl
  have hrais : (sys someCpu).Guarded (KeptByProgram someCpu) raised :=
    .step hfst (keptByProgram_registers (contextAt 0x100001000 0x200000000)) rfl
  exact .step hrais (e := .others (sigmask 14) handling.actions handling.retToApp) nofun rfl

lemma nested_saved : inner.Saved someCpu (savedFrame nested.memory inner.address) := by
  have hinv : awaiting.Inv someCpu := awaiting_guarded.reachable.invariant (fun _ h => .initial h) fun _ _ _ h he => h.step he
  have hstep : awaiting.step someCpu (.dispatch allRights none) = some nested := rfl
  rcases step_dispatch hinv hstep with ⟨hlive, -⟩ | ⟨f, hlive, -, -, hsv⟩
  · cases (congrArg List.length hlive : 2 = 1)
  · obtain ⟨rfl, -⟩ := List.cons.inj (hlive.symm.trans nested_live)
    exact hsv

lemma step_restore {rights : Rights} {signals : Signals} {context : Mcontext} (hruns : t.runs = true)
    (h : userSignalRestore cpu rights t.signals t.memory t.context.rdi t.context = (true, signals, context)) :
    (sys cpu).step t (.restore rights) = some { t with signals := signals, context := context, live := t.live.tail } := by
  simp only [sys, Thread.step, hruns, h, if_true]

lemma crowded_guarded : (sys someCpu).Guarded (KeptByProgram someCpu) crowded := by
  have hnes : (sys someCpu).Guarded (KeptByProgram someCpu) nested :=
    .step awaiting_guarded (e := .dispatch allRights none) nofun rfl
  have hret : (sys someCpu).Guarded (KeptByProgram someCpu) returning :=
    .step hnes (keptByProgram_registers { contextAt 0x100001000 0x200000000 with rdi := 0x1fffffbf0 }) rfl
  have hres : userSignalRestore someCpu allRights returning.signals returning.memory returning.context.rdi
      returning.context = (true, inner.resume returning.signals, inner.context.exported.returned) :=
    nested_saved.restore rfl allRights returning.context
  have hstep : (sys someCpu).step returning (.restore allRights) = some crowded := step_restore rfl hres
  exact .step hret (e := .restore allRights) nofun hstep

lemma signalled_guarded : (sys someCpu).Guarded (Untouched someCpu) (handling.signalled 12) :=
  .step (.step (.init handling_initial)
    (untouched_of_live_eq_nil (e := .others (sigmask 12) handling.actions handling.retToApp) rfl) rfl)
    (untouched_of_live_eq_nil (e := .dispatch allRights none) rfl) rfl

/-- The return from that handler -/
theorem returns_undo_deliveries_signalled :
    (userSignalRestore someCpu allRights (handling.signalled 12).signals (handling.signalled 12).memory 0x1fffffbf0
      (handling.signalled 12).context).1 = true := by
  have h := ((returns_undo_deliveries someCpu).1 (handling.signalled 12) signalled_guarded).2 outer [] rfl
  exact (h.2 allRights 0x1fffffbf0 (handling.signalled 12).context).1.mpr ⟨rfl, by decide, by decide⟩

/-- **Two runs in which a return does not give back what was interrupted**: the stack pointer was not in user space when the
signal came, or the handler has raised it so that the next frame was put over the first one. -/
theorem returns_do_not_undo_deliveries :
    ((sys someCpu).Guarded (Untouched someCpu) outside ∧
      outside.live = [⟨0x180003bf0, contextAt 0x100000000 0, 0, 0, false⟩] ∧
      ∀ rights address context, (userSignalRestore someCpu rights outside.signals outside.memory address context).1 = false) ∧
    ((sys someCpu).Guarded (KeptByProgram someCpu) crowded ∧ crowded.live = [outer] ∧
      crowded.signals.frame = outer.address ∧ outer.context.rip = 0x100000000 ∧
      ∀ context, ∃ signals context', context'.rip = 0x100001000 ∧
        userSignalRestore someCpu allRights crowded.signals crowded.memory outer.address context =
          (true, signals, context')) := by
  refine ⟨⟨outside_guarded, outside_live, fun rights address context => ?_⟩, crowded_guarded, rfl, rfl, rfl, fun context => ?_⟩
  · have hchained : outside.Chained someCpu :=
      outside_guarded.invariant (fun _ h => .initial h) fun _ _ _ h hg he => h.step hg he
    obtain ⟨hframe, hsaved, -⟩ := outside_live ▸ hchained.linked
    by_contra hok
    obtain ⟨f, rest, hlive, rfl, -⟩ := hchained.restored (Bool.not_eq_false _ ▸ hok)
    obtain ⟨rfl, -⟩ := List.cons.inj (outside_live.symm.trans hlive)
    rw [hsaved.restore hframe, if_neg fun hboth => by cases hboth.2] at hok
    exact hok rfl
  · exact ⟨_, _, rfl, nested_saved.restore rfl allRights context⟩

end Thread

end PlantOS.Signal
