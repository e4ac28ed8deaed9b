import Mathlib.Algebra.Group.Nat.Defs
import Mathlib.Data.List.GetD
import Mathlib.Tactic.SplitIfs
import PlantOS.Lib.Run

/-!
# The receive ring of the RTL8139

The driver configures the device for a ring of 64 KiB and reads a ring of 8 KiB. The two agree up to the first packet
that does not end before the end of the short ring. Positions count from the start of `rtl8139_receive_buffer`.
-/

namespace PlantOS.Net.Rtl8139

open Lib

def receiveRingBytes : ℕ := 8192

def receiveBufferBytes : ℕ := receiveRingBytes + 16 + 1500

def frameMax : ℕ := 1514

/-- What `rtl8139_link_start` writes to `RCR` -/
def rcr : ℕ := 8 <<< 24 ||| 5 <<< 13 ||| 3 <<< 11 ||| 7 <<< 8 ||| 0x0f

/-- The length of the ring of the device -/
def deviceRing : ℕ := 8192 * 2 ^ (rcr >>> 11 &&& 3)

/-- What the device stores: a frame with its checksum, or four bytes that are no header of a frame. `flags` is the
higher byte of the status (`MAR`, `PAM`, `BAR`). -/
inductive Packet
  | frame (flags : UInt8) (bytes crc : List UInt8)
  | malformed (header : List UInt8)

/-- A header that `rtl8139_receive` does not accept -/
def Refused (status length : ℕ) : Prop := status &&& 0x0001 = 0 ∨ length < 4 ∨ length - 4 > frameMax

instance (status length : ℕ) : Decidable (Refused status length) := inferInstanceAs (Decidable (_ ∨ _ ∨ _))

def word (bytes : ℕ → UInt8) (i : ℕ) : ℕ := (bytes i).toNat + 256 * (bytes (i + 1)).toNat

namespace Packet

def bytes : Packet → List UInt8
  | frame flags bytes crc => [1, flags, .ofNat (bytes.length + 4), .ofNat ((bytes.length + 4) / 256)] ++ bytes ++ crc
  | malformed header => header

def byte (p : Packet) (i : ℕ) : UInt8 := p.bytes.getD i 0

def size (p : Packet) : ℕ := (p.bytes.length + 3) / 4 * 4

/-- A frame of legal size, or no header of a frame -/
def Legal : Packet → Prop
  | frame _ bytes crc => 60 ≤ bytes.length ∧ bytes.length ≤ frameMax ∧ crc.length = 4
  | malformed header => header.length = 4 ∧ Refused (word (header.getD · 0) 0) (word (header.getD · 0) 2)

instance : DecidablePred Legal
  | frame .. => inferInstanceAs (Decidable (_ ∧ _ ∧ _))
  | malformed _ => inferInstanceAs (Decidable (_ ∧ _))

def frames : Packet → List (List UInt8)
  | frame _ bytes _ => [bytes]
  | malformed _ => []

end Packet

/-- The memory from the buffer on, the positions of the device, and `rtl8139.receive_offset`. `stored` is one past the
last byte that the device has stored; `arrived` are the frames that it has stored and no reset has dropped. -/
structure State where
  memory : ℕ → UInt8
  write : ℕ
  read : ℕ
  enabled : Bool
  receiveOffset : ℕ
  stored : ℕ
  arrived : List (List UInt8)
  handed : List (List UInt8)

namespace State

variable (s : State)

/-! ### The driver -/

/-- Bytes that the driver reads, `none` outside of the buffer -/
def bytes (i n : ℕ) : Option (List UInt8) :=
  if i + n ≤ receiveBufferBytes then some ((List.range n).map fun k => s.memory (i + k)) else none

/-- `rtl8139_deliver_frame`: what it hands to the receiver -/
def deliverFrame (length : ℕ) : Option (List UInt8) :=
  let frameLength := length - 4
  let offset := (s.receiveOffset + 4) % 65536
  if offset + frameLength ≤ receiveRingBytes then s.bytes offset frameLength
  else
    let first := receiveRingBytes - offset
    (s.bytes offset first).bind fun bytes => (s.bytes 0 (frameLength - first)).map (bytes ++ ·)

/-- A reset of the device empties its ring and disables it. -/
def reset : State := { s with write := 0, read := 0, enabled := false, receiveOffset := 0, arrived := s.handed }

def nextOffset (length : ℕ) : ℕ := (s.receiveOffset + length + 4 + 3) / 4 * 4 % 65536 % receiveRingBytes

/-- A pass of the loop of `rtl8139_receive`, `none` if it reads outside of the buffer -/
def receive : Option State :=
  if s.read = s.write then some s
  else if s.receiveOffset + 4 > receiveBufferBytes then none
  else
    let status := word s.memory s.receiveOffset
    let length := word s.memory (s.receiveOffset + 2)
    if Refused status length then some s.reset
    else
      (s.deliverFrame length).map fun frame =>
        let next := s.nextOffset length
        { s with
          handed := s.handed ++ [frame]
          receiveOffset := next
          read := ((next + 65536 - 16) % 65536 + 16) % deviceRing }

def store (p : Packet) : State :=
  { s with
    memory := fun i =>
      let k := (i + deviceRing - s.write) % deviceRing
      if i < deviceRing ∧ k < p.bytes.length then p.byte k else s.memory i
    write := (s.write + p.size) % deviceRing
    stored := max s.stored (min (s.write + p.bytes.length) deviceRing)
    arrived := s.arrived ++ p.frames }

end State

inductive Event
  /-- the device stores a packet -/
  | store (p : Packet)
  /-- a pass of the loop of the interrupt handler -/
  | receive

def State.step (s : State) : Event → Option State
  | .store p =>
    if s.enabled = true ∧ p.Legal ∧ (s.write + deviceRing - s.read) % deviceRing + p.size < deviceRing then some (s.store p)
    else none
  | .receive => s.receive

/-- `rtl8139_link_start` has enabled the device, with an empty ring. -/
structure State.Init (s : State) : Prop where
  write : s.write = 0
  read : s.read = 0
  receiveOffset : s.receiveOffset = 0
  stored : s.stored = 0
  arrived : s.arrived = []
  handed : s.handed = []

def receiveSystem : System State Event := ⟨State.Init, State.step⟩

/-! ### Packets in the ring -/

/-- The packets that are stored from one position to another -/
def Unread (memory : ℕ → UInt8) : (start : ℕ) → List Packet → (stop : ℕ) → Prop
  | start, [], stop => start = stop
  | start, p :: ps, stop =>
    (p.Legal ∧ ∀ k < p.bytes.length, memory (start + k) = p.byte k) ∧ Unread memory (start + p.size) ps stop

variable {memory memory' : ℕ → UInt8} {i j k : ℕ} {p : Packet} {ps : List Packet} {s s' : State}

lemma Packet.Legal.length (h : p.Legal) : 4 ≤ p.bytes.length ∧ p.bytes.length ≤ 1522 := by
  cases p with
  | frame bytes crc =>
    obtain ⟨-, hmax, hcrc⟩ := h
    have : frameMax = 1514 := rfl
    simp only [Packet.bytes, List.length_append, List.length_cons, List.length_nil]
    omega
  | malformed header =>
    have := h.1
    simp only [Packet.bytes]
    omega

lemma Packet.length_le_size (p : Packet) : p.bytes.length ≤ p.size := by
  unfold size
  omega

lemma Unread.le (h : Unread memory i ps j) : i ≤ j := by
  induction ps generalizing i with
  | nil => exact Nat.le_of_eq h
  | cons p ps ih =>
    have := ih h.2
    omega

lemma Unread.concat (h : Unread memory i ps j) (hsame : ∀ k, i ≤ k → k < j → memory' k = memory k) (hp : p.Legal)
    (hstor : ∀ k < p.bytes.length, memory' (j + k) = p.byte k) : Unread memory' i (ps ++ [p]) (j + p.size) := by
  induction ps generalizing i with
  | nil =>
    cases h
    exact ⟨⟨hp, hstor⟩, rfl⟩
  | cons q ps ih =>
    obtain ⟨⟨hq, hread⟩, hrest⟩ := h
    have hle := hrest.le
    have hsize := q.length_le_size
    refine ⟨⟨hq, ?_⟩, ih hrest fun k hk => hsame k (by omega)⟩
    intro k hk
    rw [hsame _ (by omega) (by omega), hread k hk]

lemma deviceRing_eq : deviceRing = 65536 := by decide

/-! ### What holds up to the end of the short ring -/

/-- The driver is at the start of the next packet, and all packets are before the end of its ring. -/
structure Synchronised (s : State) : Prop where
  read : s.read = s.receiveOffset
  aligned : s.receiveOffset % 4 = 0
  inside : s.write < receiveRingBytes
  stored : s.stored ≤ receiveRingBytes
  unread : ∃ ps, Unread s.memory s.receiveOffset ps s.write ∧ s.handed ++ ps.flatMap Packet.frames = s.arrived

/-- A packet that ends before the end of the short ring -/
def EndsInRing (s : State) : Event → Prop
  | .store p => s.write + p.size < receiveRingBytes
  | .receive => True

instance (s : State) : DecidablePred (EndsInRing s)
  | .store _ => inferInstanceAs (Decidable (_ < _))
  | .receive => .isTrue trivial

lemma Synchronised.store (h : Synchronised s) (hp : p.Legal) (hend : s.write + p.size < receiveRingBytes) :
    Synchronised (s.store p) := by
  obtain ⟨ps, hunrd, hfrms⟩ := h.unread
  have hring := deviceRing_eq
  have hshrt : receiveRingBytes = 8192 := rfl
  have hlen := hp.length
  have hsize := p.length_le_size
  have hwr : (s.store p).write = s.write + p.size := by
    simp only [State.store, hring]
    omega
  refine ⟨h.read, h.aligned, by omega, ?_, ps ++ [p], ?_, ?_⟩
  · have := h.stored
    simp only [State.store]
    omega
  · rw [hwr]
    refine hunrd.concat ?_ hp ?_
    · intro k _ hk
      simp only [State.store, hring]
      exact if_neg (by omega)
    · intro k hk
      have hpos : (s.write + k + 65536 - s.write) % 65536 = k := by omega
      simp only [State.store, hring, hpos]
      exact if_pos (by omega)
  · simp only [State.store, List.flatMap_append, List.flatMap_singleton, ← List.append_assoc, hfrms]

/-- What the driver reads of the header of a packet -/
lemma word_of_stored (hread : ∀ k < p.bytes.length, memory (i + k) = p.byte k) (hk : k + 1 < p.bytes.length) :
    word memory (i + k) = word p.byte k := by
  unfold word
  rw [hread k (by omega), Nat.add_assoc, hread (k + 1) hk]

lemma Packet.frame_length {flags : UInt8} {bytes crc : List UInt8} (h : bytes.length ≤ frameMax) :
    word (frame flags bytes crc).byte 2 = bytes.length + 4 := by
  have hmax : frameMax = 1514 := rfl
  simp only [word, byte, Packet.bytes, List.cons_append, List.getD_cons_succ, List.getD_cons_zero, UInt8.toNat_ofNat']
  omega

/-- A pass over a frame hands it on, and a pass over anything else resets the device. -/
lemma Synchronised.receive (h : Synchronised s) : ∃ s', s.receive = some s' ∧ Synchronised s' := by
  obtain ⟨ps, hunrd, hfrms⟩ := h.unread
  have hring := deviceRing_eq
  have hshrt : receiveRingBytes = 8192 := rfl
  have hbuf : receiveBufferBytes = 9708 := rfl
  have hin := h.inside
  have halig := h.aligned
  rw [State.receive, h.read]
  cases ps with
  | nil => exact ⟨s, if_pos hunrd, h⟩
  | cons p ps =>
    obtain ⟨⟨hp, hread⟩, hrest⟩ := hunrd
    have hle := hrest.le
    have hlen := hp.length
    have hsize := p.length_le_size
    have hstatus := word_of_stored hread (show 0 + 1 < p.bytes.length by omega)
    have hbs := word_of_stored hread (show 2 + 1 < p.bytes.length by omega)
    rw [Nat.add_zero] at hstatus
    rw [if_neg (by omega), if_neg (by omega)]
    dsimp only
    rw [hstatus, hbs]
    cases p with
    | malformed header =>
      exact ⟨s.reset, if_pos hp.2, rfl, rfl, Nat.zero_lt_succ _, h.stored, [], rfl, List.append_nil _⟩
    | frame flags bytes crc =>
      obtain ⟨hmin, hmax, hcrc⟩ := hp
      have hmax' : frameMax = 1514 := rfl
      have hone : word (Packet.frame flags bytes crc).byte 0 = 1 + 256 * flags.toNat := rfl
      have hsum : (Packet.frame flags bytes crc).bytes.length = bytes.length + 8 := by
        simp only [Packet.bytes, List.length_append, List.length_cons, List.length_nil]
        omega
      have hpkt : (Packet.frame flags bytes crc).size = (bytes.length + 11) / 4 * 4 := by rw [Packet.size, hsum]
      have hnext : s.nextOffset (bytes.length + 4) = s.receiveOffset + (Packet.frame flags bytes crc).size := by
        rw [State.nextOffset, hshrt]
        omega
      have hdel : s.deliverFrame (bytes.length + 4) = some bytes := by
        rw [State.deliverFrame]
        dsimp only
        rw [if_pos (by omega), State.bytes, if_pos (by omega)]
        refine congrArg some (List.ext_getElem (by simp) ?_)
        intro k hk hk'
        have hbd : 4 + k < (Packet.frame flags bytes crc).bytes.length := by omega
        have hoff : (s.receiveOffset + 4) % 65536 + k = s.receiveOffset + (4 + k) := by omega
        simp only [List.getElem_map, List.getElem_range]
        rw [hoff, hread (4 + k) hbd, Packet.byte, List.getD_eq_getElem _ _ hbd]
        simp only [Packet.bytes, Nat.add_comm 4 k, List.cons_append, List.nil_append, List.getElem_cons_succ]
        exact List.getElem_append_left hk'
      have hacc : ¬Refused (1 + 256 * flags.toNat) (bytes.length + 4) := by
        have hok : (1 + 256 * flags.toNat) &&& 0x0001 = 1 := by
          rw [Nat.and_one_is_mod]
          omega
        unfold Refused
        omega
      rw [Packet.frame_length hmax, hone, if_neg hacc, hdel]
      refine ⟨_, rfl, ?_, ?_, hin, h.stored, ps, ?_, ?_⟩
      · dsimp only
        rw [hnext, hring]
        omega
      · dsimp only
        rw [hnext]
        omega
      · dsimp only
        rw [hnext]
        exact hrest
      · rw [← hfrms, List.append_assoc]
        rfl

lemma Synchronised.of_init (h : s.Init) : Synchronised s :=
  ⟨h.read.trans h.receiveOffset.symm, by rw [h.receiveOffset], by rw [h.write]; decide, by rw [h.stored]; decide, [],
    h.receiveOffset.trans h.write.symm, by rw [h.handed, h.arrived]; rfl⟩

/-- What the device and the driver agree on: all bytes are stored in the buffer, the driver is at the next packet, the
frames are handed on once and in order, and the next pass reads inside the buffer with no sum of 16 bits that wraps. -/
structure Agree (s : State) : Prop where
  stored : s.stored ≤ receiveBufferBytes
  next : ∃ ps, Unread s.memory s.receiveOffset ps s.write ∧ s.handed ++ ps.flatMap Packet.frames = s.arrived
  reads : s.receive.isSome = true
  sums : ∀ length, length - 4 ≤ frameMax → s.receiveOffset + length + 7 < 65536

def started : State := ⟨fun _ => 0, 0, 0, true, 0, 0, [], []⟩

/-- A frame of zeros -/
def arrival (length : ℕ) : Event := .store (.frame 0x20 (List.replicate length 0) [0, 0, 0, 0])

lemma started_init : receiveSystem.init started := ⟨rfl, rfl, rfl, rfl, rfl, rfl⟩

end PlantOS.Net.Rtl8139
