import Mathlib.Algebra.Group.Nat.Defs
import Mathlib.Tactic.SplitIfs
import PlantOS.Lib.Run

/-!
# The table of a bus master

`ide_dma_build_prdt` splits a buffer at the boundaries of 64 KiB. The bus master goes through the entries up to the
one that is marked as the last.
-/

namespace PlantOS.Ide

/-- `IDE_DMA_BUFFER_BYTES` -/
abbrev dmaBufferBytes : ℕ := 0x20000

/-- `IDE_PRD_END` -/
abbrev prdEnd : ℕ := 0x8000

/-- `ide_prd_t` -/
structure Prd where
  address : ℕ
  byteCount : ℕ
  flags : ℕ
  deriving DecidableEq, Repr

/-- The loop of `ide_dma_build_prdt`, with the room that is left in the page of the table -/
def buildLoop : ℕ → ℕ → ℕ → Option (List Prd)
  | room, address, remaining =>
    if remaining = 0 then some []
    else
      match room with
      | 0 => none
      | room + 1 =>
        let boundary := 0x10000 - address % 0x10000
        let chunk := if remaining < boundary then remaining else boundary
        (buildLoop room ((address + chunk) % 2 ^ 32) (remaining - chunk)).map
          (⟨address, if chunk = 0x10000 then 0 else chunk, 0⟩ :: ·)

/-- `channel->prdt[count - 1].flags = IDE_PRD_END` -/
def markEnd : List Prd → List Prd
  | [] => []
  | [entry] => [{ entry with flags := prdEnd }]
  | entry :: entry' :: entries => entry :: markEnd (entry' :: entries)

/-- The entries that `ide_dma_build_prdt` writes for a buffer at an address of the bus -/
def buildPrdt (mapped bytes : ℕ) : Option (List Prd) := (buildLoop 512 mapped bytes).map markEnd

def Prd.addresses (entry : Prd) : List ℕ :=
  (List.range (if entry.byteCount = 0 then 0x10000 else entry.byteCount)).map (entry.address + ·)

/-- The addresses of a transfer, as the bus master reads them from the table -/
def busAddresses : List Prd → List ℕ
  | [] => []
  | entry :: entries => entry.addresses ++ if entry.flags = prdEnd then [] else busAddresses entries

lemma range_append (base m n : ℕ) : (List.range m).map (base + ·) ++ (List.range n).map (base + m + ·) =
    (List.range (m + n)).map (base + ·) := by
  rw [List.range_add, List.map_append, List.map_map]
  refine congrArg _ (List.map_congr_left fun k _ => ?_)
  simp only [Function.comp_apply]
  omega

lemma markEnd_cons (entry : Prd) {entries : List Prd} (h : entries ≠ []) :
    markEnd (entry :: entries) = entry :: markEnd entries := by
  cases entries with
  | nil => exact absurd rfl h
  | cons entry' entries => rfl

lemma buildLoop_zero {room address : ℕ} : buildLoop room address 0 = some [] := by
  unfold buildLoop
  exact if_pos rfl

lemma buildLoop_addresses {room address remaining : ℕ} {entries rest : List Prd}
    (h : buildLoop room address remaining = some entries) (hpos : 0 < remaining) (hfits : address + remaining ≤ 2 ^ 32) :
    entries ≠ [] ∧ busAddresses (markEnd entries ++ rest) = (List.range remaining).map (address + ·) := by
  induction room generalizing address remaining entries with
  | zero =>
    unfold buildLoop at h
    rw [if_neg (by omega)] at h
    cases h
  | succ room ih =>
    unfold buildLoop at h
    rw [if_neg (by omega)] at h
    dsimp only at h
    obtain ⟨tail, htail, rfl⟩ := Option.map_eq_some_iff.mp h
    generalize hchun : (if remaining < 0x10000 - address % 0x10000 then remaining else 0x10000 - address % 0x10000) = chunk
      at htail ⊢
    have hle : 0 < chunk ∧ chunk ≤ remaining ∧ chunk ≤ 0x10000 := by
      split_ifs at hchun <;> omega
    have hent : ∀ flags, Prd.addresses ⟨address, if chunk = 0x10000 then 0 else chunk, flags⟩ =
        (List.range chunk).map (address + ·) := fun flags => by
      unfold Prd.addresses
      congr 2
      dsimp only
      split_ifs <;> omega
    refine ⟨List.cons_ne_nil _ _, ?_⟩
    by_cases hlast : remaining - chunk = 0
    · rw [hlast, buildLoop_zero] at htail
      cases htail
      rw [show remaining = chunk by omega]
      exact (List.append_nil _).trans (hent prdEnd)
    · have hnext : (address + chunk) % 2 ^ 32 = address + chunk := Nat.mod_eq_of_lt (by omega)
      rw [hnext] at htail
      obtain ⟨hne, htail⟩ := ih htail (by omega) (by omega)
      rw [markEnd_cons _ hne, List.cons_append]
      have hboth : busAddresses (⟨address, if chunk = 0x10000 then 0 else chunk, 0⟩ :: (markEnd tail ++ rest)) =
          Prd.addresses ⟨address, if chunk = 0x10000 then 0 else chunk, 0⟩ ++ busAddresses (markEnd tail ++ rest) := rfl
      rw [hboth, hent, htail, range_append, show chunk + (remaining - chunk) = remaining by omega]

/-- **The bus master finds the bytes of the buffer** in the table, in their order. -/
theorem buildPrdt_addresses {mapped bytes : ℕ} {entries : List Prd} (h : buildPrdt mapped bytes = some entries)
    (hpos : 0 < bytes) (hfits : mapped + bytes ≤ 2 ^ 32) (rest : List Prd) :
    busAddresses (entries ++ rest) = (List.range bytes).map (mapped + ·) := by
  obtain ⟨built, hblt, rfl⟩ := Option.map_eq_some_iff.mp h
  exact (buildLoop_addresses hblt hpos hfits).2

/-! ## The addresses of a command -/

/-- `ATA_CMD_READ_DMA`, `ATA_CMD_READ_DMA_EXT`, `ATA_CMD_WRITE_DMA`, `ATA_CMD_WRITE_DMA_EXT` and `ATAPI_CMD_READ` -/
abbrev readDma : ℕ := 0xc8
abbrev readDmaExt : ℕ := 0x25
abbrev writeDma : ℕ := 0xca
abbrev writeDmaExt : ℕ := 0x35
abbrev atapiRead : ℕ := 0xa8

/-- `IDE_ATA` and `IDE_ATAPI` -/
inductive DeviceType
  | ata | atapi
  deriving DecidableEq, Repr

/-- `ide_device_t` -/
structure Device where
  present : Bool
  channel : Fin 2
  drive : ℕ
  type : DeviceType
  flushCommand : ℕ
  capabilities : ℕ
  commandSets : ℕ
  sectors : ℕ
  deriving DecidableEq, Repr

/-- `IDE_ATA_SECTOR_BYTES` and `IDE_ATAPI_SECTOR_BYTES` -/
def Device.sectorBytes (device : Device) : ℕ := if device.type = .atapi then 2048 else 512

/-- A device is one of two of its channel. One that only knows cylinders has no more than their register can name. -/
structure Device.Valid (device : Device) : Prop where
  drive : device.drive < 2
  cylinders : device.capabilities &&& 0x200 = 0 → device.sectors ≤ 65536 * (16 * 63)

/-- What a device does: `number` tells the commands apart; no code reads it. -/
structure Command where
  drive : ℕ
  write : Bool
  lba : ℕ
  sectors : ℕ
  sectorBytes : ℕ
  number : ℕ
  deriving DecidableEq, Repr

def Command.bytes (command : Command) : ℕ := command.sectors * command.sectorBytes

/-- The registers of a channel; `high` are `ATA_REG_SECCOUNT1` and `ATA_REG_LBA3` up to `ATA_REG_LBA5`, if they are
written. -/
structure TaskFile where
  hddevsel : ℕ
  high : Option (ℕ × ℕ × ℕ × ℕ)
  seccount0 : ℕ
  lba0 : ℕ
  lba1 : ℕ
  lba2 : ℕ
  command : ℕ
  deriving DecidableEq, Repr

/-- The addressing of `ide_dma_transfer` for a disk; `none` is its `return 2`. -/
def taskFile (device : Device) (write : Bool) (lba sectors : ℕ) : Option TaskFile :=
  let select := fun mode head => ((mode ||| device.drive <<< 4) ||| head) % 256
  if lba + sectors > 0x10000000 then
    if device.commandSets &&& 1 <<< 26 = 0 then none
    else
      some ⟨select 0xe0 0, some ((sectors >>> 8) % 256, (lba >>> 24) % 256, 0, 0), sectors % 256, lba % 256, (lba >>> 8) % 256,
        (lba >>> 16) % 256, if write then writeDmaExt else readDmaExt⟩
  else if device.capabilities &&& 0x200 ≠ 0 then
    some ⟨select 0xe0 (lba >>> 24), none, sectors % 256, lba % 256, (lba >>> 8) % 256, (lba >>> 16) % 256,
      if write then writeDma else readDma⟩
  else
    let sector := lba % 63 + 1
    let cylinder := (lba + 1 - sector) / (16 * 63)
    some ⟨select 0xa0 ((lba + 1 - sector) % (16 * 63) / 63), none, sectors % 256, sector % 256, cylinder % 256,
      (cylinder >>> 8) % 256, if write then writeDma else readDma⟩

def TaskFile.decode (file : TaskFile) : Command :=
  let drive := file.hddevsel / 16 % 2
  let low := file.lba2 * 65536 + file.lba1 * 256 + file.lba0
  match file.high with
  | some (seccount1, lba3, lba4, lba5) =>
    let count := seccount1 * 256 + file.seccount0
    ⟨drive, file.command = writeDmaExt, ((lba5 * 256 + lba4) * 256 + lba3) * 16777216 + low, if count = 0 then 65536 else count,
      512, 0⟩
  | none =>
    let count := if file.seccount0 = 0 then 256 else file.seccount0
    let head := file.hddevsel % 16
    let lba := if file.hddevsel / 64 % 2 = 1 then head * 16777216 + low
      else ((file.lba2 * 256 + file.lba1) * 16 + head) * 63 + file.lba0 - 1
    ⟨drive, file.command = writeDma, lba, count, 512, 0⟩

/-- The packet of `ide_dma_transfer` -/
def packet (lba sectors : ℕ) : List ℕ :=
  [atapiRead, 0, (lba >>> 24) % 256, (lba >>> 16) % 256, (lba >>> 8) % 256, lba % 256, 0, 0, 0, sectors % 256, 0, 0]

def decodePacket (drive : ℕ) : List ℕ → Option Command
  | [command, _, a, b, c, d, e, f, g, h, _, _] =>
    if command = atapiRead then
      some ⟨drive, false, a * 16777216 + b * 65536 + c * 256 + d, e * 16777216 + f * 65536 + g * 256 + h, 2048, 0⟩
    else none
  | _ => none

lemma select_spec : ∀ drive < 2, ∀ head < 16,
    (((0xe0 ||| drive <<< 4) ||| head) % 256 % 16 = head ∧ ((0xe0 ||| drive <<< 4) ||| head) % 256 / 16 % 2 = drive ∧
      ((0xe0 ||| drive <<< 4) ||| head) % 256 / 64 % 2 = 1) ∧
    ((0xa0 ||| drive <<< 4) ||| head) % 256 % 16 = head ∧ ((0xa0 ||| drive <<< 4) ||| head) % 256 / 16 % 2 = drive ∧
      ((0xa0 ||| drive <<< 4) ||| head) % 256 / 64 % 2 = 0 := by
  decide

lemma low_bytes (lba : ℕ) : (lba >>> 16) % 256 * 65536 + (lba >>> 8) % 256 * 256 + lba % 256 = lba % 16777216 := by
  simp only [Nat.shiftRight_eq_div_pow]
  omega

lemma high_byte {lba : ℕ} (h : lba < 2 ^ 32) :
    ((0 * 256 + 0) * 256 + (lba >>> 24) % 256) * 16777216 + lba % 16777216 = lba := by
  rw [Nat.shiftRight_eq_div_pow]
  omega

lemma head_byte {lba : ℕ} (h : lba < 0x10000000) : lba >>> 24 < 16 ∧ lba >>> 24 * 16777216 + lba % 16777216 = lba := by
  rw [Nat.shiftRight_eq_div_pow]
  omega

lemma two_bytes {n : ℕ} (h : n < 65536) : (n >>> 8) % 256 * 256 + n % 256 = n := by
  rw [Nat.shiftRight_eq_div_pow]
  omega

lemma chs_bytes {lba : ℕ} (h : lba < 65536 * (16 * 63)) :
    ((((lba + 1 - (lba % 63 + 1)) / (16 * 63)) >>> 8 % 256 * 256 + (lba + 1 - (lba % 63 + 1)) / (16 * 63) % 256) * 16 +
      (lba + 1 - (lba % 63 + 1)) % (16 * 63) / 63) * 63 + (lba % 63 + 1) % 256 - 1 = lba := by
  rw [two_bytes (by omega)]
  omega

/-- **A disk is told the sectors of the request.** -/
theorem decode_taskFile {device : Device} (hval : device.Valid) {write : Bool} {lba sectors : ℕ} {file : TaskFile}
    (h : taskFile device write lba sectors = some file) (hpos : 0 < sectors) (hle : sectors ≤ 256) (hlba : lba < 2 ^ 32)
    (hsec : lba < device.sectors) : file.decode = ⟨device.drive, write, lba, sectors, 512, 0⟩ := by
  have hcnt : (if sectors % 256 = 0 then 256 else sectors % 256) = sectors := by
    split_ifs <;> omega
  have hwr : ∀ a b : ℕ, a ≠ b → decide ((if write = true then a else b) = a) = write := fun a b hne => by
    cases write
    · exact decide_eq_false fun heq => hne heq.symm
    · exact decide_eq_true rfl
  have hext := hwr writeDmaExt readDmaExt (by decide)
  have hpl := hwr writeDma readDma (by decide)
  unfold taskFile at h
  dsimp only at h
  by_cases hlg : lba + sectors > 0x10000000
  · -- `lba_mode` 2
    rw [if_pos hlg, Option.ite_none_left_eq_some] at h
    cases h.2
    obtain ⟨⟨-, hdrv, -⟩, -⟩ := select_spec _ hval.drive 0 (by decide)
    unfold TaskFile.decode
    dsimp only
    rw [hdrv, two_bytes (by omega), if_neg (show ¬sectors = 0 by omega), low_bytes, high_byte hlba, hext]
  · rw [if_neg hlg] at h
    by_cases hcap : device.capabilities &&& 0x200 ≠ 0
    · -- `lba_mode` 1
      rw [if_pos hcap] at h
      cases h
      obtain ⟨hhead, hsum⟩ := head_byte (show lba < 0x10000000 by omega)
      obtain ⟨⟨hhead', hdrv, hmode⟩, -⟩ := select_spec _ hval.drive _ hhead
      unfold TaskFile.decode
      dsimp only
      rw [hdrv, hhead', hmode, if_pos rfl, hcnt, low_bytes, hsum, hpl]
    · -- `lba_mode` 0
      rw [if_neg hcap] at h
      cases h
      have hbd := hval.cylinders (Decidable.not_not.mp hcap)
      obtain ⟨-, hhead', hdrv, hmode⟩ := select_spec _ hval.drive ((lba + 1 - (lba % 63 + 1)) % (16 * 63) / 63)
        (by omega)
      unfold TaskFile.decode
      dsimp only
      rw [hdrv, hhead', hmode, if_neg (show ¬0 = 1 by decide), hcnt, chs_bytes (Nat.lt_of_lt_of_le hsec hbd), hpl]

/-- **An optical drive is told the sectors of the request.** -/
theorem decodePacket_packet (drive : ℕ) {lba sectors : ℕ} (hle : sectors < 256) (hlba : lba < 2 ^ 32) :
    decodePacket drive (packet lba sectors) = some ⟨drive, false, lba, sectors, 2048, 0⟩ := by
  unfold decodePacket packet
  dsimp only
  rw [if_pos rfl]
  simp only [Nat.shiftRight_eq_div_pow, Option.some.injEq, Command.mk.injEq, true_and, and_true]
  constructor <;> omega

/-! ## IDE channels -/

open Lib
open Function (update)

/-- What a task asks for; `buffer` is `none` for `NULL`, and has the bytes of the caller. -/
inductive Job
  /-- `ide_transfer` -/
  | transfer (write : Bool) (sectors lba : UInt32) (buffer : Option (ℕ → UInt8))
  /-- `ide_vdisk_sync` -/
  | sync

inductive Running
  /-- a transfer, with the number of the bytes that have been moved -/
  | dma (command : Command) (moved : ℕ)
  /-- `ATA_CMD_PACKET`: the device waits for the packet -/
  | packet
  /-- `flush_command`; `number` tells the commands apart, no code reads it -/
  | flush (number : ℕ)

inductive Work
  | dma (command : Command)
  | flush (number : ℕ)
  deriving DecidableEq, Repr

inductive Pc
  /-- the loop of `lock`; the task is in `task_fall_blocked_reason`, or goes on -/
  | locking (blocked : Bool)
  /-- `ide_dma_transfer` polls the channel before the command -/
  | idle
  /-- `ide_dma_transfer` polls the device before the packet -/
  | packet
  /-- the loop of `ide_dma_block` -/
  | checks (command : Command)
  /-- `ide_dma_block` is about to call `task_fall_blocked_reason` -/
  | falls (command : Command)
  | blocked (command : Command)
  /-- `ide_vdisk_sync` polls before and after the command; `control` is its variable -/
  | syncIdle (control : Bool)
  | syncFlush (control : Bool) (number : ℕ)
  deriving DecidableEq, Repr

def Pc.Inside : Pc → Bool
  | .locking _ => false
  | _ => true

def Pc.work : Pc → Option Work
  | .checks command | .falls command | .blocked command => some (.dma command)
  | .syncFlush _ number => some (.flush number)
  | _ => none

structure Call where
  device : ℕ
  job : Job
  pc : Pc

/-- `ide_channel_t` with the registers of the channel -/
structure Channel where
  /-- `bus_master_base` is not 0 -/
  busMaster : Bool
  /-- `prdt` and `dma_buffer` are not `NULL` -/
  memory : Bool
  /-- the address of the buffer on the bus -/
  bufferAddress : ℕ
  interruptDisable : Bool
  prdt : List Prd
  buffer : ℕ → UInt8
  dmaActive : Bool
  dmaDone : Bool
  dmaFailed : Bool
  dmaWaiter : Option ℕ
  running : Option Running
  /-- `IDE_BM_START` -/
  start : Bool
  /-- `IDE_BM_ERROR` -/
  bmError : Bool
  /-- `ATA_SR_ERR` or `ATA_SR_DF` -/
  ataError : Bool
  /-- the line of the channel has been raised, and no interrupt of it has come since -/
  raised : Bool
  /-- what has ended last, and whether with an error; no code reads it -/
  ended : Option (Work × Bool)

/-- Both channels, `ide_active_channel`, and the bytes of the devices -/
structure Controller where
  channel : Fin 2 → Channel
  activeChannel : Option (Fin 2)
  medium : Fin 2 → ℕ → ℕ → UInt8

structure Result where
  device : ℕ
  task : ℕ
  job : Job
  success : Bool
  /-- the bytes in the caller's buffer after a read -/
  data : ℕ → UInt8
  /-- the bytes of the device, the call's own command, and what has ended last; no code reads them -/
  medium : ℕ → UInt8
  own : Option Work
  ended : Option (Work × Bool)

structure IdeState where
  controller : Controller
  device : ℕ → Device
  /-- `owner` of `ide_controller_lock`; `value` is `LOCK_LOCKED` if there is one -/
  owner : Option ℕ
  /-- the queue of `ide_controller_lock` -/
  waiters : List ℕ
  call : ℕ → Option Call
  /-- `ready` of the tasks -/
  ready : ℕ → Bool
  /-- the task has not been terminated; one that is created later does nothing before -/
  live : ℕ → Bool
  /-- the number of the steps of tasks, and what all calls have returned; no code reads them -/
  commands : ℕ
  results : List Result

/-- `ATA_REG_STATUS`: `ATA_SR_ERR` or `ATA_SR_DF`, `ATA_SR_BSY` and `ATA_SR_DRQ` -/
structure Status where
  error : Bool
  busy : Bool
  drq : Bool
  deriving DecidableEq, Repr

structure Env where
  status : Status
  /-- the limit of a poll -/
  expired : Bool
  /-- `arch_dma_map` maps the buffer; `dma_map` maps the table -/
  mapped : Bool
  tableMapped : Bool
  deriving DecidableEq, Repr

/-- One round of `ide_wait`: the value that it returns, if it returns -/
def ideWait (status : Status) (requireDrq requireIdle expired : Bool) : Option Bool :=
  if status.error then some false
  else if !status.busy ∧ (!requireDrq ∨ status.drq) ∧ (!requireIdle ∨ !status.drq) then some true
  else if expired then some false
  else none

/-- What the register of a channel may show: a device that executes a command is busy, or wants data; it reports an
error at the end. -/
def Channel.shows (channel : Channel) (status : Status) : Bool :=
  match channel.running with
  | none => status.error == channel.ataError
  | some .packet => !status.error
  | some (.flush _) => !status.error && status.busy
  | some (.dma ..) => !status.error && (status.busy || status.drq)

/-- `dma_map` below 4 GiB -/
def dmaMap (arch : Bool) (address bytes : ℕ) : Bool := arch ∧ address ≤ 0xffffffff ∧ bytes - 1 ≤ 0xffffffff - address

/-- `ide_dma_build_prdt`; the entries behind the last one stay as they are. -/
def Channel.buildPrdt (channel : Channel) (arch : Bool) (bytes : ℕ) : Option (List Prd) :=
  if bytes = 0 ∨ bytes > dmaBufferBytes ∨ !channel.memory ∨ !dmaMap arch channel.bufferAddress bytes then none
  else (Ide.buildPrdt channel.bufferAddress bytes).map fun entries => entries ++ channel.prdt.drop entries.length

/-! ### The code under the lock -/

inductive Next
  | stays (pc : Pc)
  | returns (success : Bool)

/-- What a piece of code leaves: the controller, and `ready` of the task -/
structure Step where
  controller : Controller
  ready : Bool
  next : Next

namespace Controller

variable (k : Controller) (ready : Bool)

def setChannel (x : Fin 2) (channel : Channel) : Controller := { k with channel := update k.channel x channel }

def stays (pc : Pc) : Step := ⟨k, ready, .stays pc⟩

def returns (success : Bool) : Step := ⟨k, ready, .returns success⟩

/-- `ide_dma_transfer` and `ide_vdisk_sync` up to the first poll -/
def first (device : Device) (job : Job) (env : Env) : Step :=
  let channel := k.channel device.channel
  match job with
  | .transfer write sectors _ buffer =>
    let bytes := sectors.toNat * device.sectorBytes % 2 ^ 32
    if sectors = 0 ∨ sectors > 256 ∨ buffer.isNone ∨ (device.type = .atapi ∧ (write ∨ sectors > 32)) ∨
        !channel.busMaster then k.returns ready false
    else
      match channel.buildPrdt env.mapped bytes with
      | none => k.returns ready false
      | some prdt => (k.setChannel device.channel { channel with prdt }).stays ready .idle
  | .sync =>
    (k.setChannel device.channel { channel with interruptDisable := true }).stays ready (.syncIdle channel.interruptDisable)

/-- `ide_dma_transfer` from the copy of the caller's bytes to `ide_dma_block` -/
def issue (task : ℕ) (x : Fin 2) (data : Option (ℕ → UInt8)) (tableMapped : Bool) (command : Command) : Step :=
  let channel := k.channel x
  let buffer := match command.write, data with
    | true, some data => fun i => if i < command.bytes then data i else channel.buffer i
    | _, _ => channel.buffer
  if !tableMapped then (k.setChannel x { channel with buffer }).returns ready false
  else
    { k.setChannel x { channel with
        buffer, dmaActive := true, dmaDone := false, dmaFailed := false, dmaWaiter := some task, bmError := false,
        interruptDisable := false, ataError := false, running := some (.dma command 0), start := true, ended := none } with
      activeChannel := some x }.stays false (.checks command)

def idleRound (task : ℕ) (device : Device) (job : Job) (env : Env) (number : ℕ) : Step :=
  let channel := k.channel device.channel
  match ideWait env.status false true env.expired, job with
  | none, _ => k.stays ready .idle
  | some true, .transfer write sectors lba data =>
    if device.type = .atapi then
      (k.setChannel device.channel { channel with interruptDisable := true, running := some .packet }).stays ready .packet
    else
      match taskFile device write lba.toNat sectors.toNat with
      | none => k.returns ready false
      | some file => k.issue ready task device.channel data env.tableMapped { file.decode with number }
  | _, _ => k.returns ready false

def packetRound (task : ℕ) (device : Device) (job : Job) (env : Env) (number : ℕ) : Step :=
  let channel := k.channel device.channel
  match ideWait env.status true false env.expired, job with
  | none, _ => k.stays ready .packet
  | some true, .transfer _ sectors lba data =>
    match decodePacket device.drive (packet lba.toNat sectors.toNat) with
    | none => k.returns ready false
    | some command => k.issue ready task device.channel data env.tableMapped { command with number }
  | _, _ => (k.setChannel device.channel { channel with interruptDisable := false }).returns ready false

/-- The loop of `ide_dma_block`, and the code behind it -/
def checksRound (x : Fin 2) (command : Command) : Step :=
  let channel := k.channel x
  if channel.dmaDone then (k.setChannel x { channel with dmaWaiter := none }).returns false !channel.dmaFailed
  else k.stays ready (.falls command)

/-- `task_fall_blocked_reason` in `ide_dma_block` -/
def fallsRound (command : Command) : Step := k.stays false (if ready then .checks command else .blocked command)

/-- The poll of `ide_vdisk_sync` before its command -/
def syncIdleRound (x : Fin 2) (env : Env) (control : Bool) (number : ℕ) : Step :=
  let channel := k.channel x
  match ideWait env.status false true env.expired with
  | none => k.stays ready (.syncIdle control)
  | some false => (k.setChannel x { channel with interruptDisable := control }).returns ready false
  | some true =>
    (k.setChannel x { channel with running := some (.flush number), ataError := false, ended := none }).stays ready
      (.syncFlush control number)

/-- The poll of `ide_vdisk_sync` after its command -/
def syncFlushRound (x : Fin 2) (env : Env) (control : Bool) (number : ℕ) : Step :=
  let ended := k.setChannel x { k.channel x with interruptDisable := control }
  if !env.status.busy then ended.returns ready (!(env.status.error || env.status.drq))
  else if env.expired then ended.returns ready false
  else k.stays ready (.syncFlush control number)

/-- A task that has the lock goes on until its next poll or wait. -/
def round (task : ℕ) (device : Device) (c : Call) (env : Env) (number : ℕ) : Step :=
  match c.pc with
  | .locking _ => k.first ready device c.job env
  | .idle => k.idleRound ready task device c.job env number
  | .packet => k.packetRound ready task device c.job env number
  | .checks command => k.checksRound ready device.channel command
  | .falls command => k.fallsRound ready command
  | .blocked command => k.stays ready (.blocked command)
  | .syncIdle control => k.syncIdleRound ready device.channel env control number
  | .syncFlush control number => k.syncFlushRound ready device.channel env control number

/-- `ide_irq`, and the task that it runs -/
def ideIrq : Controller × Option ℕ :=
  match k.activeChannel with
  | some x =>
    let channel := k.channel x
    if channel.dmaActive then
      ({ k.setChannel x { channel with
          start := false, dmaFailed := channel.bmError || channel.ataError, bmError := false, dmaActive := false
          dmaDone := true } with activeChannel := none }, channel.dmaWaiter)
    else (k, none)
  | none => (k, none)

def move (x : Fin 2) : Option Controller :=
  let channel := k.channel x
  match channel.running with
  | some (.dma command moved) =>
    match (busAddresses channel.prdt)[moved]? with
    | some address =>
      if channel.start ∧ moved < command.bytes ∧ channel.bufferAddress ≤ address then
        let i := address - channel.bufferAddress
        let position := command.lba * command.sectorBytes + moved
        let running := some (.dma command (moved + 1))
        if command.write then
          some { k.setChannel x { channel with running } with
            medium := update k.medium x
              (update (k.medium x) command.drive
                (update (k.medium x command.drive) position (channel.buffer i))) }
        else
          some (k.setChannel x { channel with
            running, buffer := update channel.buffer i (k.medium x command.drive position) })
      else none
    | none => none
  | _ => none

/-- A command ends: a transfer with an error, or when all its bytes have been moved. -/
def finish (x : Fin 2) (bmError ataError : Bool) : Option Controller :=
  let channel := k.channel x
  let ends work := k.setChannel x { channel with
    running := none, bmError := channel.bmError || bmError, ataError, ended := work.map (·, bmError || ataError)
    raised := channel.raised || !channel.interruptDisable }
  match channel.running with
  | some (.dma command moved) => if bmError ∨ ataError ∨ moved = command.bytes then some (ends (some (.dma command))) else none
  | some .packet => if ataError then some (ends none) else none
  | some (.flush number) => if !bmError then some (ends (some (.flush number))) else none
  | none => none

end Controller

/-! ### The steps -/

inductive Event
  /-- a task calls `ide_transfer` or `ide_vdisk_sync` for `drive` -/
  | enter (task drive : ℕ) (job : Job)
  /-- a task in the code goes on -/
  | goOn (task : ℕ) (env : Env)
  /-- `task_run` for any other reason -/
  | run (task : ℕ)
  /-- an interrupt of the line of a channel, whatever its reason is -/
  | interrupt (line : Fin 2)
  /-- a task is terminated -/
  | kill (task : ℕ)
  | move (x : Fin 2)
  | finish (x : Fin 2) (bmError ataError : Bool)

/-- The checks of `ide_transfer` and `ide_vdisk_sync` before the lock: the value that they return, if they return -/
def Job.refused (device : Device) : Job → Option Bool
  | .transfer _ sectors lba _ =>
    if device.present ∧ sectors ≠ 0 ∧
        (device.type ≠ .ata ∨ lba.toNat < device.sectors ∧ sectors.toNat ≤ device.sectors - lba.toNat) then none
    else some false
  | .sync =>
    if !device.present then some false
    else if device.type ≠ .ata ∨ device.flushCommand = 0 then some true
    else none

/-- `(unsigned)(drive - 'C')` -/
def driveIndex (drive : ℕ) : ℕ := (drive + 2 ^ 32 - 67) % 2 ^ 32

namespace IdeState

variable (s : IdeState)

def taskRun (task : ℕ) : IdeState :=
  match s.call task with
  | some ⟨device, job, .locking true⟩ => { s with call := update s.call task (some ⟨device, job, .locking false⟩) }
  | some ⟨device, job, .blocked command⟩ =>
    { s with call := update s.call task (some ⟨device, job, .checks command⟩) }
  | _ => { s with ready := update s.ready task true }

def unlock (task : ℕ) : IdeState :=
  if s.owner = some task then
    match s.waiters with
    | [] => { s with owner := none }
    | waiter :: waiters => { s with owner := none, waiters }.taskRun waiter
  else s

/-- The loop of `lock` while another task is the owner -/
def lockWait (task : ℕ) (c : Call) : IdeState :=
  { s with
    waiters := if task ∈ s.waiters then s.waiters else s.waiters ++ [task]
    ready := update s.ready task false
    call := update s.call task (some { c with pc := .locking (!s.ready task) }) }

def apply (task : ℕ) (c : Call) (r : Step) : IdeState :=
  let device := s.device c.device
  let s := { s with controller := r.controller, ready := update s.ready task r.ready, commands := s.commands + 1 }
  match r.next with
  | .stays pc => { s with call := update s.call task (some { c with pc }) }
  | .returns success =>
    let channel := r.controller.channel device.channel
    let result : Result := ⟨c.device, task, c.job, success, channel.buffer, r.controller.medium device.channel device.drive,
      c.pc.work, channel.ended⟩
    { s with call := update s.call task none, results := s.results ++ [result] }.unlock task

/-- `ide_transfer` and `ide_vdisk_sync` up to the lock -/
def enter (task index : ℕ) (job : Job) : Option IdeState :=
  if s.live task ∧ (s.call task).isNone then
    match if index < 4 then job.refused (s.device index) else some false with
    | some success =>
      let result : Result := ⟨index, task, job, success, fun _ => 0, fun _ => 0, none, none⟩
      some { s with results := s.results ++ [result] }
    | none => some { s with call := update s.call task (some ⟨index, job, .locking false⟩) }
  else none

def step : Event → Option IdeState
  | .enter task drive job => s.enter task (driveIndex drive) job
  | .goOn task env =>
    match s.call task with
    | none | some ⟨_, _, .locking true⟩ | some ⟨_, _, .blocked _⟩ => none
    | some c =>
      if !c.pc.Inside ∧ s.owner.isSome then some (s.lockWait task c)
      else
        let device := s.device c.device
        let s := if c.pc.Inside then s else { s with owner := some task, waiters := s.waiters.erase task }
        if (s.controller.channel device.channel).shows env.status then
          some (s.apply task c (s.controller.round (s.ready task) task device c env s.commands))
        else none
  | .run task => some (s.taskRun task)
  | .interrupt line =>
    let (controller, waiter) := s.controller.ideIrq
    let s := { s with controller := controller.setChannel line { controller.channel line with raised := false } }
    some (match waiter with
      | some waiter => s.taskRun waiter
      | none => s)
  | .kill task =>
    some { s with
      live := update s.live task false
      call := update s.call task none
      -- `lock_cancel_task`
      waiters := s.waiters.erase task }
  | .move x => (s.controller.move x).map fun controller => { s with controller }
  | .finish x bmError ataError => (s.controller.finish x bmError ataError).map fun controller => { s with controller }

end IdeState

/-- `ide_initialize` has found the devices, and nothing has been started. -/
def sys : System IdeState Event where
  init s := (∀ i < 4, (s.device i).Valid) ∧ s.owner = none ∧ (∀ task, s.call task = none) ∧ s.results = [] ∧
    s.controller.activeChannel = none ∧
    ∀ x, (s.controller.channel x).running = none ∧ (s.controller.channel x).dmaActive = false
  step := IdeState.step

/-! ## The task that has the controller -/

structure Controller.Quiet (k : Controller) : Prop where
  active : k.activeChannel = none
  running : ∀ x, (k.channel x).running = none
  dmaActive : ∀ x, (k.channel x).dmaActive = false

def Job.Asks (job : Job) (device : Device) (command : Command) : Prop :=
  match job with
  | .transfer write sectors lba _ => command.drive = device.drive ∧ command.write = write ∧ command.lba = lba.toNat ∧
      command.sectors = sectors.toNat ∧ command.sectorBytes = device.sectorBytes
  | .sync => False

/-- The table leads to as many bytes of the buffer as the request has, and the device can be told the request. -/
def Channel.Prepared (channel : Channel) (device : Device) (job : Job) : Prop :=
  match job with
  | .transfer write sectors lba data => (0 < sectors.toNat ∧ sectors.toNat ≤ 256) ∧ data.isSome = true ∧
      (device.type = .atapi → write = false ∧ sectors.toNat ≤ 32) ∧ (device.type ≠ .atapi → lba.toNat < device.sectors) ∧
      busAddresses channel.prdt = (List.range (sectors.toNat * device.sectorBytes)).map (channel.bufferAddress + ·)
  | .sync => False

def Channel.Filled (channel : Channel) (job : Job) (command : Command) : Prop :=
  ∀ sectors lba data, job = .transfer true sectors lba (some data) → ∀ i < command.bytes, channel.buffer i = data i

/-- The first bytes of a transfer are the same in the buffer and on the device. -/
def Controller.Moved (k : Controller) (x : Fin 2) (command : Command) (moved : ℕ) : Prop :=
  ∀ i < moved, (k.channel x).buffer i = k.medium x command.drive (command.lba * command.sectorBytes + i)

def Controller.Ended (k : Controller) (x : Fin 2) (command : Command) (failed : Bool) : Prop :=
  (k.channel x).running = none ∧ ∃ error, (k.channel x).ended = some (.dma command, error) ∧
    (error = true → failed = true) ∧ (error = false → k.Moved x command command.bytes)

/-- `ide_irq` has not seen the end of the command. -/
structure Controller.InFlight (k : Controller) (task : ℕ) (x : Fin 2) (command : Command) : Prop where
  dmaActive : (k.channel x).dmaActive = true
  active : k.activeChannel = some x
  dmaDone : (k.channel x).dmaDone = false
  waiter : (k.channel x).dmaWaiter = some task
  enabled : (k.channel x).interruptDisable = false
  command : (∃ moved, (k.channel x).running = some (.dma command moved) ∧ moved ≤ command.bytes ∧ k.Moved x command moved) ∨
    (k.channel x).raised = true ∧ k.Ended x command ((k.channel x).bmError || (k.channel x).ataError)

/-- `ide_irq` has seen the end of the command. -/
structure Controller.Done (k : Controller) (x : Fin 2) (command : Command) : Prop where
  dmaActive : (k.channel x).dmaActive = false
  active : k.activeChannel = none
  dmaDone : (k.channel x).dmaDone = true
  ended : k.Ended x command (k.channel x).dmaFailed

structure Controller.Waits (k : Controller) (task : ℕ) (device : Device) (job : Job) (command : Command) : Prop where
  prepared : (k.channel device.channel).Prepared device job
  asks : job.Asks device command
  filled : (k.channel device.channel).Filled job command
  other : ∀ y ≠ device.channel, (k.channel y).running = none ∧ (k.channel y).dmaActive = false
  progress : k.InFlight task device.channel command ∨ k.Done device.channel command

structure Controller.Polls (k : Controller) (x : Fin 2) : Prop where
  active : k.activeChannel = none
  dmaActive : ∀ y, (k.channel y).dmaActive = false
  other : ∀ y ≠ x, (k.channel y).running = none

def Call.Holds (c : Call) (k : Controller) (ready : Bool) (task : ℕ) (device : Device) : Prop :=
  let channel := k.channel device.channel
  match c.pc with
  | .locking _ => c.job.refused device = none
  | .idle => k.Quiet ∧ channel.Prepared device c.job
  | .packet => k.Polls device.channel ∧ (channel.running = none ∨ channel.running = some .packet) ∧
      channel.Prepared device c.job ∧ device.type = .atapi
  | .checks command => k.Waits task device c.job command
  | .falls command => k.Waits task device c.job command ∧ (channel.dmaDone = true → ready = true)
  | .blocked command => k.Waits task device c.job command ∧ channel.dmaDone = false
  | .syncIdle _ => k.Quiet ∧ c.job = .sync
  | .syncFlush _ number => k.Polls device.channel ∧ c.job = .sync ∧
      (channel.running = some (.flush number) ∨ channel.running = none ∧
        ∃ error, channel.ended = some (.flush number, error) ∧ (error = true → channel.ataError = true))

/-- The command of a call has ended without an error, and its bytes are those of the device. -/
def Job.Honest (job : Job) (device : Device) (own : Option Work) (ended : Option (Work × Bool)) (data medium : ℕ → UInt8) :
    Prop :=
  match job with
  | .transfer write sectors lba buffer => ∃ command, own = some (.dma command) ∧ job.Asks device command ∧
      ended = some (.dma command, false) ∧
      (∀ i < sectors.toNat * device.sectorBytes, data i = medium (lba.toNat * device.sectorBytes + i)) ∧
      (write = true → ∃ bytes, buffer = some bytes ∧
        ∀ i < sectors.toNat * device.sectorBytes, medium (lba.toNat * device.sectorBytes + i) = bytes i)
  | .sync => (device.type ≠ .ata ∨ device.flushCommand = 0) ∨
      ∃ number, own = some (.flush number) ∧ ended = some (.flush number, false)

def Step.Holds (r : Step) (task : ℕ) (device : Device) (c : Call) : Prop :=
  match r.next with
  | .stays pc => Call.Holds { c with pc } r.controller r.ready task device ∧ pc.Inside = true
  | .returns success => r.controller.Quiet ∧ (success = true → c.job.Honest device c.pc.work
      (r.controller.channel device.channel).ended (r.controller.channel device.channel).buffer
      (r.controller.medium device.channel device.drive))

/-- The task does not give up while the channel executes its command. -/
def Call.Patient (c : Call) (channel : Channel) (env : Env) : Prop :=
  (c.pc = .packet → (ideWait env.status true false env.expired = some false → channel.running = none) ∧
    (ideWait env.status true false env.expired = some true → env.tableMapped = true)) ∧
  ∀ control number, c.pc = .syncFlush control number → env.status.busy = true → env.expired = true → channel.running = none

variable {k k' : Controller} {ready : Bool} {task : ℕ} {device : Device} {c : Call} {x : Fin 2} {command : Command}

/-! ### The code under the lock -/

lemma Controller.Quiet.setChannel (h : k.Quiet) {channel : Channel} (hrun : channel.running = none)
    (hact : channel.dmaActive = false) : (k.setChannel x channel).Quiet := by
  unfold Controller.setChannel
  refine ⟨h.active, fun y => ?_, fun y => ?_⟩
  all_goals
    dsimp only
    by_cases hy : y = x
    · rw [hy, Function.update_self]
      assumption
    · rw [Function.update_of_ne hy]
      first
      | exact h.running y
      | exact h.dmaActive y

lemma Controller.Quiet.polls (h : k.Quiet) (x : Fin 2) : k.Polls x := ⟨h.active, h.dmaActive, fun y _ => h.running y⟩

lemma Controller.Polls.quiet (h : k.Polls x) (hrun : (k.channel x).running = none) : k.Quiet := by
  refine ⟨h.active, fun y => ?_, h.dmaActive⟩
  by_cases hy : y = x
  · rw [hy]
    exact hrun
  · exact h.other y hy

lemma Controller.Polls.setChannel (h : k.Polls x) {channel : Channel} (hact : channel.dmaActive = false) :
    (k.setChannel x channel).Polls x := by
  unfold Controller.setChannel
  refine ⟨h.active, fun y => ?_, fun y hy => ?_⟩
  · dsimp only
    by_cases hy : y = x
    · rw [hy, Function.update_self]
      exact hact
    · rw [Function.update_of_ne hy]
      exact h.dmaActive y
  · dsimp only
    rw [Function.update_of_ne hy]
    exact h.other y hy

@[simp] lemma setChannel_self (k : Controller) (x : Fin 2) (channel : Channel) :
    (k.setChannel x channel).channel x = channel := Function.update_self ..

lemma setChannel_of_ne (k : Controller) {x y : Fin 2} (channel : Channel) (h : y ≠ x) :
    (k.setChannel x channel).channel y = k.channel y := Function.update_of_ne h ..

lemma Step.holds_failure (h : k.Quiet) : (k.returns ready false).Holds task device c := ⟨h, nofun⟩

lemma Step.holds_stays {pc : Pc} (h : Call.Holds { c with pc } k ready task device) (hin : pc.Inside = true) :
    (k.stays ready pc).Holds task device c := ⟨h, hin⟩

/-- **`ide_dma_transfer` and `ide_vdisk_sync` up to the first poll** -/
lemma first_holds (h : k.Quiet) (href : c.job.refused device = none) (env : Env) :
    (k.first ready device c.job env).Holds task device c := by
  unfold Controller.first
  split
  · rename_i write sectors lba data hjob
    dsimp only
    split_ifs with hbad
    · exact Step.holds_failure h
    · cases hbld : (k.channel device.channel).buildPrdt env.mapped (sectors.toNat * device.sectorBytes % 2 ^ 32) with
      | none => exact Step.holds_failure h
      | some prdt =>
        refine Step.holds_stays ⟨h.setChannel (h.running _) (h.dmaActive _), ?_⟩ rfl
        rw [hjob, setChannel_self]
        simp only [not_or, not_and, Bool.not_eq_true', Bool.not_eq_true, Bool.not_eq_false, gt_iff_lt, UInt32.not_lt,
          UInt32.le_iff_toNat_le] at hbad
        obtain ⟨hpos, hle, hdata, hatap, -⟩ := hbad
        have hpos' : 0 < sectors.toNat := by
          rw [Nat.pos_iff_ne_zero]
          exact fun heq => hpos (UInt32.toNat_inj.mp heq)
        have hle' : sectors.toNat ≤ 256 := hle
        have hunit : device.sectorBytes ≤ 2048 ∧ 0 < device.sectorBytes := by
          unfold Device.sectorBytes
          split_ifs <;> decide
        have hbs : sectors.toNat * device.sectorBytes ≤ 256 * 2048 := Nat.mul_le_mul hle' hunit.1
        have hbs' : 0 < sectors.toNat * device.sectorBytes := Nat.mul_pos hpos' hunit.2
        rw [Nat.mod_eq_of_lt (by omega)] at hbld
        refine ⟨⟨hpos', hle'⟩, by simpa using hdata, fun ha => ?_, fun hata => ?_, ?_⟩
        · exact ⟨(hatap ha).1, (hatap ha).2⟩
        · unfold Job.refused at href
          rw [hjob] at href
          dsimp only at href
          split_ifs at href with hacc
          refine (hacc.2.2.resolve_left fun hne => ?_).1
          cases htype : device.type
          · exact hne htype
          · exact hata htype
        · unfold Channel.buildPrdt at hbld
          rw [Option.ite_none_left_eq_some] at hbld
          obtain ⟨hok, hbld⟩ := hbld
          obtain ⟨entries, hents, rfl⟩ := Option.map_eq_some_iff.mp hbld
          refine buildPrdt_addresses hents hbs' ?_ _
          unfold dmaMap at hok
          simp only [not_or, Bool.not_eq_true', Bool.not_eq_false, decide_eq_true_eq] at hok
          omega
  · rename_i hjob
    exact Step.holds_stays ⟨h.setChannel (h.running _) (h.dmaActive _), hjob⟩ rfl

/-- **`ide_dma_transfer` from the copy of the caller's bytes to `ide_dma_block`** -/
lemma issue_holds (h : k.Polls device.channel)
    (hprep : (k.channel device.channel).Prepared device c.job) (hasks : c.job.Asks device command)
    {data : Option (ℕ → UInt8)} (hdata : ∀ write sectors lba d, c.job = .transfer write sectors lba d → d = data)
    {tableMapped : Bool} (hmap : tableMapped = false → (k.channel device.channel).running = none) :
    (k.issue ready task device.channel data tableMapped command).Holds task device c := by
  unfold Controller.issue
  dsimp only
  split_ifs with hfail
  · exact Step.holds_failure ((h.quiet (hmap (by simpa using hfail))).setChannel (hmap (by simpa using hfail))
      (h.dmaActive _))
  · refine Step.holds_stays ?_ rfl
    have hself : ∀ channel, ({ k.setChannel device.channel channel with activeChannel := some device.channel } :
        Controller).channel device.channel = channel := fun channel => setChannel_self k device.channel channel
    refine ⟨?_, hasks, ?_, fun y hy => ?_, .inl ⟨?_, rfl, ?_, ?_, ?_, .inl ⟨0, ?_, Nat.zero_le _, nofun⟩⟩⟩
    · rw [hself]
      exact hprep
    · rintro sectors lba d hjob i hi
      have hd := hdata _ _ _ _ hjob
      have hwr : command.write = true := by
        rw [hjob] at hasks
        exact hasks.2.1
      rw [hself, hwr, ← hd]
      exact if_pos hi
    · have hsame : ∀ channel, ({ k.setChannel device.channel channel with activeChannel := some device.channel } :
          Controller).channel y = k.channel y := fun channel => setChannel_of_ne k channel hy
      rw [hsame]
      exact ⟨h.other y hy, h.dmaActive y⟩
    all_goals rw [hself]

lemma idleRound_holds (hval : device.Valid) (h : k.Quiet) (hprep : (k.channel device.channel).Prepared device c.job)
    (env : Env) (number : ℕ) : (k.idleRound ready task device c.job env number).Holds task device c := by
  unfold Controller.idleRound
  dsimp only
  split
  · exact Step.holds_stays ⟨h, hprep⟩ rfl
  · rename_i write sectors lba data _ hjob
    split_ifs with hatap
    · refine Step.holds_stays ⟨(h.polls _).setChannel (h.dmaActive _), ?_, ?_, hatap⟩ rfl
      · rw [setChannel_self]
        exact .inr rfl
      · rw [setChannel_self]
        exact hprep
    · cases hfile : taskFile device write lba.toNat sectors.toNat with
      | none => exact Step.holds_failure h
      | some file =>
        refine issue_holds (h.polls _) hprep ?_ ?_ fun _ => h.running _
        · rw [hjob] at hprep ⊢
          obtain ⟨⟨hpos, hle⟩, -, -, hlba, -⟩ := hprep
          rw [decode_taskFile hval hfile hpos hle (UInt32.toNat_lt lba) (hlba hatap)]
          exact ⟨rfl, rfl, rfl, rfl, (if_neg hatap).symm⟩
        · intro write' sectors' lba' d heq
          cases hjob.symm.trans heq
          rfl
  · exact Step.holds_failure h

lemma packetRound_holds (h : k.Polls device.channel)
    (hrun : (k.channel device.channel).running = none ∨ (k.channel device.channel).running = some .packet)
    (hprep : (k.channel device.channel).Prepared device c.job) (hatap : device.type = .atapi) (hpc : c.pc = .packet)
    {env : Env} (hpat : c.Patient (k.channel device.channel) env) (number : ℕ) :
    (k.packetRound ready task device c.job env number).Holds task device c := by
  obtain ⟨hfail, hmap⟩ := hpat.1 hpc
  unfold Controller.packetRound
  dsimp only
  split
  · exact Step.holds_stays ⟨h, hrun, hprep, hatap⟩ rfl
  · rename_i write sectors lba data hwait hjob
    rw [hjob] at hprep
    obtain ⟨⟨hpos, hle⟩, hdata, hread, hlba, htab⟩ := hprep
    rw [decodePacket_packet device.drive (Nat.lt_of_le_of_lt (hread hatap).2 (by decide)) (UInt32.toNat_lt lba)]
    dsimp only
    refine issue_holds h ?_ ?_ ?_ fun hnot => ?_
    · rw [hjob]
      exact ⟨⟨hpos, hle⟩, hdata, hread, hlba, htab⟩
    · rw [hjob]
      exact ⟨rfl, (hread hatap).1.symm, rfl, rfl, (if_pos hatap).symm⟩
    · intro write' sectors' lba' d heq
      cases hjob.symm.trans heq
      rfl
    · exact absurd ((hmap hwait).symm.trans hnot) (by decide)
  · rename_i hnone htrue
    have hfls : ideWait env.status true false env.expired = some false := by
      cases hwait : ideWait env.status true false env.expired with
      | none => exact absurd hwait hnone
      | some b =>
        cases b
        · rfl
        · cases hjob : c.job with
          | transfer write sectors lba data => exact absurd hjob (htrue _ _ _ _ hwait)
          | sync =>
            rw [hjob] at hprep
            exact hprep.elim
    exact Step.holds_failure ((h.quiet (hfail hfls)).setChannel (hfail hfls) (h.dmaActive _))

lemma Controller.Done.quiet (h : k.Done x command) (hoth : ∀ y ≠ x, (k.channel y).running = none ∧
    (k.channel y).dmaActive = false) :
    k.Quiet := by
  refine ⟨h.active, fun y => ?_, fun y => ?_⟩
  · by_cases hy : y = x
    · rw [hy]
      exact h.ended.1
    · exact (hoth y hy).1
  · by_cases hy : y = x
    · rw [hy]
      exact h.dmaActive
    · exact (hoth y hy).2

lemma checksRound_holds (h : k.Waits task device c.job command) (hpc : c.pc = .checks command) :
    (k.checksRound ready device.channel command).Holds task device c := by
  unfold Controller.checksRound
  dsimp only
  split_ifs with hdone
  · have hseen : k.Done device.channel command := h.progress.resolve_left fun hflt => by
      cases hflt.dmaDone.symm.trans hdone
    refine ⟨(hseen.quiet h.other).setChannel hseen.ended.1 hseen.dmaActive, fun hsucc => ?_⟩
    obtain ⟨-, error, hend, herr, hmov⟩ := hseen.ended
    have hcln : error = false := by
      by_contra hne
      rw [herr ((Bool.not_eq_false _).mp hne)] at hsucc
      cases hsucc
    have hasks := h.asks
    have hfld := h.filled
    have hprep := h.prepared
    subst hcln
    cases hjob : c.job with
    | sync =>
      rw [hjob] at hasks
      exact hasks.elim
    | transfer write sectors lba data =>
      rw [hjob] at hasks hfld hprep
      obtain ⟨hdrv, hwr, hlba, hsec, hbs⟩ := hasks
      have hsize : command.bytes = sectors.toNat * device.sectorBytes := by
        unfold Command.bytes
        rw [hsec, hbs]
      have hsame := hmov rfl
      unfold Controller.Moved at hsame
      rw [hsize, hdrv, hlba, hbs] at hsame
      change Job.Honest _ device c.pc.work _ _ _
      rw [hpc]
      refine ⟨command, rfl, ⟨hdrv, hwr, hlba, hsec, hbs⟩, ?_, ?_, fun heq => ?_⟩
      · exact (congrArg Channel.ended (setChannel_self ..)).trans hend
      · intro i hi
        exact (congrArg (fun channel : Channel => channel.buffer i) (setChannel_self ..)).trans (hsame i hi)
      · obtain ⟨bytes, rfl⟩ := Option.isSome_iff_exists.mp hprep.2.1
        refine ⟨bytes, rfl, fun i hi => (hsame i hi).symm.trans (hfld sectors lba bytes (by rw [heq]) i ?_)⟩
        rwa [hsize]
  · refine Step.holds_stays ⟨h, fun heq => absurd heq hdone⟩ rfl

lemma fallsRound_holds (h : k.Waits task device c.job command)
    (hrdy : (k.channel device.channel).dmaDone = true → ready = true) :
    (k.fallsRound ready command).Holds task device c := by
  unfold Controller.fallsRound
  split_ifs with hcase
  · exact Step.holds_stays h rfl
  · exact Step.holds_stays ⟨h, (Bool.not_eq_true _).mp fun heq => hcase (hrdy heq)⟩ rfl

lemma syncIdleRound_holds (h : k.Quiet) (hjob : c.job = .sync) (env : Env) (control : Bool) (number : ℕ) :
    (k.syncIdleRound ready device.channel env control number).Holds task device c := by
  unfold Controller.syncIdleRound
  dsimp only
  split
  · exact Step.holds_stays ⟨h, hjob⟩ rfl
  · exact Step.holds_failure (h.setChannel (h.running _) (h.dmaActive _))
  · refine Step.holds_stays ⟨(h.polls _).setChannel (h.dmaActive _), hjob, ?_⟩ rfl
    rw [setChannel_self]
    exact .inl rfl

lemma syncFlushRound_holds {control : Bool} {number : ℕ} (hpc : c.pc = .syncFlush control number)
    (h : c.Holds k ready task device) {env : Env} (hshw : (k.channel device.channel).shows env.status = true)
    (hpat : c.Patient (k.channel device.channel) env) :
    (k.syncFlushRound ready device.channel env control number).Holds task device c := by
  unfold Call.Holds at h
  rw [hpc] at h
  obtain ⟨hpol, hjob, hprog⟩ := h
  unfold Controller.syncFlushRound
  dsimp only
  split_ifs with hidle hexp
  · have hbusy : env.status.busy = false := by simpa using hidle
    rcases hprog with hruns | ⟨hnone, error, hend, herr⟩
    · unfold Channel.shows at hshw
      rw [hruns, hbusy] at hshw
      simp at hshw
    · refine ⟨(hpol.quiet hnone).setChannel hnone (hpol.dmaActive _), fun hsucc => ?_⟩
      unfold Channel.shows at hshw
      rw [hnone] at hshw
      have hcln : error = false := by
        by_contra hne
        have hataError := herr ((Bool.not_eq_false _).mp hne)
        rw [hataError, beq_iff_eq] at hshw
        rw [hshw] at hsucc
        cases hsucc
      rw [hjob, hpc]
      refine .inr ⟨number, rfl, ?_⟩
      rw [← hcln]
      exact (congrArg Channel.ended (setChannel_self ..)).trans hend
  · have hbusy : env.status.busy = true := by simpa using hidle
    have hnone := hpat.2 _ _ hpc hbusy hexp
    exact Step.holds_failure ((hpol.quiet hnone).setChannel hnone (hpol.dmaActive _))
  · exact Step.holds_stays ⟨hpol, hjob, hprog⟩ rfl

/-- **A task that has the lock goes on until its next poll or wait.** -/
theorem round_holds (hval : device.Valid) (h : c.Holds k ready task device) (hlock : c.pc.Inside = false → k.Quiet)
    {env : Env} (hshw : (k.channel device.channel).shows env.status = true)
    (hpat : c.Patient (k.channel device.channel) env) (number : ℕ) :
    (k.round ready task device c env number).Holds task device c := by
  have hhol := h
  unfold Call.Holds at h
  unfold Controller.round
  cases hpc : c.pc with
  | locking blocked =>
    rw [hpc] at h hlock
    exact first_holds (hlock rfl) h env
  | idle =>
    rw [hpc] at h
    exact idleRound_holds hval h.1 h.2 env number
  | packet =>
    rw [hpc] at h
    exact packetRound_holds h.1 h.2.1 h.2.2.1 h.2.2.2 hpc hpat number
  | checks command =>
    rw [hpc] at h
    exact checksRound_holds h hpc
  | falls command =>
    rw [hpc] at h
    exact fallsRound_holds h.1 h.2
  | blocked command =>
    rw [hpc] at h
    exact Step.holds_stays h rfl
  | syncIdle control =>
    rw [hpc] at h
    exact syncIdleRound_holds h.1 h.2 env control number
  | syncFlush control flush =>
    exact syncFlushRound_holds hpc hhol hshw hpat

/-! ## What happens to the channels -/

variable {k k' : Controller} {ready : Bool} {task : ℕ} {device : Device} {job : Job} {c : Call} {x : Fin 2} {command : Command}

/-! ### The bus master -/

lemma Controller.Quiet.not_move (h : k.Quiet) : k.move x = none := by
  unfold Controller.move
  dsimp only
  rw [h.running x]

lemma move_eq (h : k.move x = some k') : ∃ command moved address, (k.channel x).running = some (.dma command moved) ∧
    (busAddresses (k.channel x).prdt)[moved]? = some address ∧ moved < command.bytes ∧ (k.channel x).bufferAddress ≤ address ∧
    k' = if command.write then
        { k.setChannel x { k.channel x with running := some (.dma command (moved + 1)) } with
          medium := Function.update k.medium x (Function.update (k.medium x) command.drive
            (Function.update (k.medium x command.drive) (command.lba * command.sectorBytes + moved)
              ((k.channel x).buffer (address - (k.channel x).bufferAddress)))) }
      else
        k.setChannel x { k.channel x with
          running := some (.dma command (moved + 1))
          buffer := Function.update (k.channel x).buffer (address - (k.channel x).bufferAddress)
            (k.medium x command.drive (command.lba * command.sectorBytes + moved)) } := by
  unfold Controller.move at h
  dsimp only at h
  split at h
  · rename_i command moved hrun
    split at h
    · rename_i address haddr
      split_ifs at h with hok hwr
      all_goals
        cases h
        refine ⟨command, moved, address, hrun, haddr, hok.2.1, hok.2.2, ?_⟩
      · rw [if_pos hwr]
      · rw [if_neg hwr]
    · cases h
  · cases h

lemma Channel.Prepared.address {channel : Channel} (h : channel.Prepared device job) (hasks : job.Asks device command)
    {moved address : ℕ} (haddr : (busAddresses channel.prdt)[moved]? = some address) :
    address - channel.bufferAddress = moved ∧ moved < command.bytes := by
  cases job with
  | sync => exact hasks.elim
  | transfer write sectors lba data =>
    rw [h.2.2.2.2, List.getElem?_map] at haddr
    obtain ⟨i, hi, rfl⟩ := Option.map_eq_some_iff.mp haddr
    obtain ⟨hlt, rfl⟩ := List.getElem?_eq_some_iff.mp hi
    rw [List.length_range] at hlt
    rw [List.getElem_range]
    refine ⟨Nat.add_sub_cancel_left .., ?_⟩
    unfold Command.bytes
    rwa [hasks.2.2.2.1, hasks.2.2.2.2]

/-- **The bus master moves a byte** of the transfer that a task waits for. -/
lemma Controller.Waits.move (h : k.Waits task device job command) (hmove : k.move x = some k') :
    k'.Waits task device job command ∧ (k'.channel device.channel).dmaDone = (k.channel device.channel).dmaDone := by
  obtain ⟨command', moved, address, hrun, haddr, -, -, rfl⟩ := move_eq hmove
  obtain rfl : x = device.channel := by
    by_contra hne
    cases hrun.symm.trans (h.other x hne).1
  obtain ⟨hprep, hasks, hfld, hoth, hprog⟩ := h
  rcases hprog with hflt | hdone
  · obtain ⟨hact, hchan, hnot, hwtr, henab, hcom⟩ := hflt
    rcases hcom with ⟨moved', hruns, -, hmov⟩ | ⟨-, hnone, -⟩
    · cases hrun.symm.trans hruns
      obtain ⟨hidx, hlt⟩ := hprep.address hasks haddr
      rw [hidx]
      cases hwr : command.write with
      | true =>
        rw [if_pos rfl]
        have hself : ∀ channel medium, ({ k.setChannel device.channel channel with medium } : Controller).channel
            device.channel = channel := fun channel _ => setChannel_self k device.channel channel
        refine ⟨⟨?_, hasks, ?_, fun y hy => ?_, .inl ⟨?_, hchan, ?_, ?_, ?_, .inl ⟨moved + 1, ?_, hlt, ?_⟩⟩⟩, ?_⟩
        · rw [hself]
          exact hprep
        · rw [hself]
          exact hfld
        · exact (setChannel_of_ne k _ hy).symm ▸ hoth y hy
        · rw [hself]
          exact hact
        · rw [hself]
          exact hnot
        · rw [hself]
          exact hwtr
        · rw [hself]
          exact henab
        · rw [hself]
        · intro i hi
          rw [hself]
          dsimp only
          rw [Function.update_self, Function.update_self]
          by_cases heq : i = moved
          · rw [heq, Function.update_self]
          · rw [Function.update_of_ne (by omega)]
            exact hmov i (by omega)
        · rw [hself]
      | false =>
        rw [if_neg Bool.false_ne_true]
        refine ⟨⟨?_, hasks, ?_, fun y hy => ?_, .inl ⟨?_, hchan, ?_, ?_, ?_, .inl ⟨moved + 1, ?_, hlt, ?_⟩⟩⟩, ?_⟩
        · rw [setChannel_self]
          exact hprep
        · rintro sectors lba data rfl
          cases hwr.symm.trans hasks.2.1
        · rw [setChannel_of_ne k _ hy]
          exact hoth y hy
        · rw [setChannel_self]
          exact hact
        · rw [setChannel_self]
          exact hnot
        · rw [setChannel_self]
          exact hwtr
        · rw [setChannel_self]
          exact henab
        · rw [setChannel_self]
        · intro i hi
          rw [setChannel_self]
          by_cases heq : i = moved
          · rw [heq]
            exact Function.update_self ..
          · exact (Function.update_of_ne heq ..).trans (hmov i (by omega))
        · rw [setChannel_self]
    · cases hrun.symm.trans hnone
  · cases hrun.symm.trans hdone.ended.1

lemma Controller.Polls.not_move (h : k.Polls x) (hrun : ∀ command moved, (k.channel x).running ≠ some (.dma command moved))
    (y : Fin 2) : k.move y = none := by
  cases hmove : k.move y with
  | none => rfl
  | some k' =>
    obtain ⟨command, moved, -, hruns, -⟩ := move_eq hmove
    by_cases hy : y = x
    · exact absurd (hy ▸ hruns) (hrun command moved)
    · cases (h.other y hy).symm.trans hruns

/-- **The bus master moves a byte.** -/
theorem Call.Holds.move (h : c.Holds k ready task device) (hin : c.pc.Inside = true) (hmove : k.move x = some k') :
    c.Holds k' ready task device := by
  unfold Call.Holds at h ⊢
  cases hpc : c.pc with
  | locking blocked =>
    rw [hpc] at hin
    cases hin
  | idle =>
    rw [hpc] at h
    cases h.1.not_move.symm.trans hmove
  | packet =>
    rw [hpc] at h
    obtain ⟨hpol, hrun, -⟩ := h
    refine nomatch (hpol.not_move (fun command moved hruns => ?_) x).symm.trans hmove
    rcases hrun with heq | heq <;> cases hruns.symm.trans heq
  | checks command =>
    rw [hpc] at h
    exact (h.move hmove).1
  | falls command =>
    rw [hpc] at h
    obtain ⟨hwts, hsame⟩ := h.1.move hmove
    exact ⟨hwts, fun hdone => h.2 (hsame.symm.trans hdone)⟩
  | blocked command =>
    rw [hpc] at h
    obtain ⟨hwts, hsame⟩ := h.1.move hmove
    exact ⟨hwts, hsame.trans h.2⟩
  | syncIdle control =>
    rw [hpc] at h
    cases h.1.not_move.symm.trans hmove
  | syncFlush control number =>
    rw [hpc] at h
    obtain ⟨hpol, -, hprog⟩ := h
    refine nomatch (hpol.not_move (fun command moved hruns => ?_) x).symm.trans hmove
    rcases hprog with heq | ⟨heq, -⟩ <;> cases hruns.symm.trans heq

/-! ### The end of a command -/

def Channel.after (channel : Channel) (work : Option Work) (bmError ataError : Bool) : Channel :=
  { channel with
    running := none, bmError := channel.bmError || bmError, ataError, ended := work.map (·, bmError || ataError)
    raised := channel.raised || !channel.interruptDisable }

variable {ataError bmError : Bool}

lemma finish_eq (h : k.finish x bmError ataError = some k') :
    (∃ command moved, (k.channel x).running = some (.dma command moved) ∧
      ((bmError || ataError) = false → moved = command.bytes) ∧
      k' = k.setChannel x ((k.channel x).after (some (.dma command)) bmError ataError)) ∨
    ((k.channel x).running = some .packet ∧ k' = k.setChannel x ((k.channel x).after none bmError ataError)) ∨
    ∃ number, (k.channel x).running = some (.flush number) ∧ bmError = false ∧
      k' = k.setChannel x ((k.channel x).after (some (.flush number)) bmError ataError) := by
  unfold Controller.finish at h
  dsimp only at h
  split at h
  · rename_i command moved hrun
    split_ifs at h with hends
    cases h
    refine .inl ⟨command, moved, hrun, fun hcln => ?_, rfl⟩
    obtain ⟨hbm, hata⟩ := Bool.or_eq_false_iff.mp hcln
    rw [hbm, hata] at hends
    simpa using hends
  · rename_i hrun
    split_ifs at h
    cases h
    exact .inr (.inl ⟨hrun, rfl⟩)
  · rename_i number hrun
    split_ifs at h with hends
    cases h
    exact .inr (.inr ⟨number, hrun, by simpa using hends, rfl⟩)
  · cases h

lemma finish_runs (h : k.finish x bmError ataError = some k') : (k.channel x).running ≠ none := by
  rcases finish_eq h with ⟨_, _, hrun, -⟩ | ⟨hrun, -⟩ | ⟨_, hrun, -⟩ <;> exact fun hnone => nomatch hnone.symm.trans hrun

lemma Controller.Waits.finish (h : k.Waits task device job command)
    (hfin : k.finish x bmError ataError = some k') :
    k'.Waits task device job command ∧ (k'.channel device.channel).dmaDone = (k.channel device.channel).dmaDone := by
  obtain rfl : x = device.channel := by
    by_contra hne
    exact finish_runs hfin (h.other x hne).1
  obtain ⟨hprep, hasks, hfld, hoth, hprog⟩ := h
  rcases hprog with hflt | hdone
  · obtain ⟨hact, hchan, hnot, hwtr, henab, hcom⟩ := hflt
    rcases hcom with ⟨moved, hruns, -, hmov⟩ | ⟨-, hnone, -⟩
    · rcases finish_eq hfin with ⟨command', moved', hrun, hall, rfl⟩ | ⟨hrun, -⟩ | ⟨_, hrun, -⟩
      · cases hruns.symm.trans hrun
        refine ⟨⟨?_, hasks, ?_, fun y hy => ?_, .inl ⟨?_, hchan, ?_, ?_, ?_,
          .inr ⟨?_, ?_, bmError || ataError, ?_, ?_, ?_⟩⟩⟩, ?_⟩
        · rw [setChannel_self]
          exact hprep
        · rw [setChannel_self]
          exact hfld
        · rw [setChannel_of_ne k _ hy]
          exact hoth y hy
        · rw [setChannel_self]
          exact hact
        · rw [setChannel_self]
          exact hnot
        · rw [setChannel_self]
          exact hwtr
        · rw [setChannel_self]
          exact henab
        · rw [setChannel_self]
          unfold Channel.after
          dsimp only
          rw [henab]
          exact Bool.or_true _
        · rw [setChannel_self]
          rfl
        · rw [setChannel_self]
          rfl
        · intro herr
          rw [setChannel_self]
          unfold Channel.after
          dsimp only
          rw [Bool.or_assoc, herr]
          exact Bool.or_true _
        · intro hcln i hi
          rw [setChannel_self]
          rw [← hall hcln] at hi
          exact hmov i hi
        · rw [setChannel_self]
          rfl
      · cases hruns.symm.trans hrun
      · cases hruns.symm.trans hrun
    · exact absurd hnone (finish_runs hfin)
  · exact absurd hdone.ended.1 (finish_runs hfin)

lemma Controller.Quiet.not_finish (h : k.Quiet) {bmError ataError : Bool} : k.finish x bmError ataError = none := by
  cases hfin : k.finish x bmError ataError with
  | none => rfl
  | some k' => exact absurd (h.running x) (finish_runs hfin)

/-- **A command ends.** -/
theorem Call.Holds.finish (h : c.Holds k ready task device) (hin : c.pc.Inside = true)
    (hfin : k.finish x bmError ataError = some k') : c.Holds k' ready task device := by
  unfold Call.Holds at h ⊢
  have hown : k.Polls device.channel → x = device.channel := fun hpol => by
    by_contra hne
    exact finish_runs hfin (hpol.other x hne)
  cases hpc : c.pc with
  | locking blocked =>
    rw [hpc] at hin
    cases hin
  | idle =>
    rw [hpc] at h
    cases h.1.not_finish.symm.trans hfin
  | packet =>
    rw [hpc] at h
    obtain ⟨hpol, hrun, hprep, hatap⟩ := h
    have hruns : (k.channel x).running = some .packet := by
      rw [hown hpol]
      refine hrun.resolve_left fun hnone => finish_runs hfin ?_
      rw [hown hpol]
      exact hnone
    obtain rfl := hown hpol
    rcases finish_eq hfin with ⟨_, _, heq, -⟩ | ⟨-, rfl⟩ | ⟨_, heq, -⟩
    · cases hruns.symm.trans heq
    · refine ⟨hpol.setChannel (hpol.dmaActive _), .inl ?_, ?_, hatap⟩
      · rw [setChannel_self]
        rfl
      · rw [setChannel_self]
        exact hprep
    · cases hruns.symm.trans heq
  | checks command =>
    rw [hpc] at h
    exact (h.finish hfin).1
  | falls command =>
    rw [hpc] at h
    obtain ⟨hwts, hsame⟩ := h.1.finish hfin
    exact ⟨hwts, fun hdone => h.2 (hsame.symm.trans hdone)⟩
  | blocked command =>
    rw [hpc] at h
    obtain ⟨hwts, hsame⟩ := h.1.finish hfin
    exact ⟨hwts, hsame.trans h.2⟩
  | syncIdle control =>
    rw [hpc] at h
    cases h.1.not_finish.symm.trans hfin
  | syncFlush control number =>
    rw [hpc] at h
    obtain ⟨hpol, hjob, hprog⟩ := h
    obtain rfl := hown hpol
    have hruns : (k.channel device.channel).running = some (.flush number) :=
      hprog.resolve_right fun hnone => finish_runs hfin hnone.1
    rcases finish_eq hfin with ⟨_, _, heq, -⟩ | ⟨heq, -⟩ | ⟨number', heq, rfl, rfl⟩
    · cases hruns.symm.trans heq
    · cases hruns.symm.trans heq
    · cases hruns.symm.trans heq
      refine ⟨hpol.setChannel (hpol.dmaActive _), hjob, .inr ⟨?_, ataError, ?_, fun herr => ?_⟩⟩
      · rw [setChannel_self]
        rfl
      · rw [setChannel_self]
        exact congrArg (fun b => some (Work.flush number, b)) (Bool.false_or _)
      · rw [setChannel_self]
        exact herr

/-! ### The interrupt -/

def Controller.lower (k : Controller) (line : Fin 2) : Controller :=
  k.setChannel line { k.channel line with raised := false }

lemma lower_channel (k : Controller) (line x : Fin 2) :
    (k.lower line).channel x = if x = line then { k.channel x with raised := false } else k.channel x := by
  unfold Controller.lower
  split_ifs with heq
  · rw [heq, setChannel_self]
  · exact setChannel_of_ne k _ heq

lemma lower_fields (k : Controller) (line x : Fin 2) : ∃ raised, (k.lower line).channel x = { k.channel x with raised } := by
  rw [lower_channel]
  split_ifs
  · exact ⟨false, rfl⟩
  · exact ⟨(k.channel x).raised, rfl⟩

lemma Controller.Quiet.lower (h : k.Quiet) (line : Fin 2) : (k.lower line).Quiet := by
  refine ⟨h.active, fun x => ?_, fun x => ?_⟩
  all_goals obtain ⟨raised, heq⟩ := lower_fields k line x
  · rw [heq]
    exact h.running x
  · rw [heq]
    exact h.dmaActive x

lemma Controller.Done.lower (h : k.Done x command) (line : Fin 2) : (k.lower line).Done x command := by
  obtain ⟨raised, heq⟩ := lower_fields k line x
  obtain ⟨hact, hchan, hdone, hnone, error, hend, herr, hmov⟩ := h
  refine ⟨?_, hchan, ?_, ?_, error, ?_, ?_, fun hcln i hi => ?_⟩
  all_goals rw [heq]
  · exact hact
  · exact hdone
  · exact hnone
  · exact hend
  · exact herr
  · exact hmov hcln i hi

lemma Controller.Polls.lower (h : k.Polls x) (line : Fin 2) : (k.lower line).Polls x := by
  refine ⟨h.active, fun y => ?_, fun y hy => ?_⟩
  all_goals obtain ⟨raised, heq⟩ := lower_fields k line y
  · rw [heq]
    exact h.dmaActive y
  · rw [heq]
    exact h.other y hy

lemma Controller.Waits.lower (h : k.Waits task device job command) (hdone : k.Done device.channel command) (line : Fin 2) :
    (k.lower line).Waits task device job command := by
  obtain ⟨raised, heq⟩ := lower_fields k line device.channel
  refine ⟨?_, h.asks, ?_, fun y hy => ?_, .inr (hdone.lower line)⟩
  · rw [heq]
    exact h.prepared
  · rw [heq]
    exact h.filled
  · obtain ⟨raised', heq'⟩ := lower_fields k line y
    rw [heq']
    exact h.other y hy

lemma Call.Holds.lower (h : c.Holds k ready task device) (hact : k.activeChannel = none) (line : Fin 2) :
    c.Holds (k.lower line) ready task device := by
  have hseen : ∀ {command}, k.Waits task device c.job command → k.Done device.channel command := fun hwts =>
    hwts.progress.resolve_left fun hflt => nomatch hact.symm.trans hflt.active
  obtain ⟨raised, heq⟩ := lower_fields k line device.channel
  unfold Call.Holds at h ⊢
  cases hpc : c.pc with
  | locking blocked =>
    rw [hpc] at h
    exact h
  | idle =>
    rw [hpc] at h
    exact ⟨h.1.lower line, heq ▸ h.2⟩
  | packet =>
    rw [hpc] at h
    exact ⟨h.1.lower line, heq ▸ h.2.1, heq ▸ h.2.2.1, h.2.2.2⟩
  | checks command =>
    rw [hpc] at h
    exact h.lower (hseen h) line
  | falls command =>
    rw [hpc] at h
    exact ⟨h.1.lower (hseen h.1) line, heq ▸ h.2⟩
  | blocked command =>
    rw [hpc] at h
    exact ⟨h.1.lower (hseen h.1) line, heq ▸ h.2⟩
  | syncIdle control =>
    rw [hpc] at h
    exact ⟨h.1.lower line, h.2⟩
  | syncFlush control number =>
    rw [hpc] at h
    exact ⟨h.1.lower line, h.2.1, heq ▸ h.2.2⟩

lemma ideIrq_none (h : k.activeChannel = none) : k.ideIrq = (k, none) := by
  unfold Controller.ideIrq
  rw [h]

lemma Call.Holds.inFlight (h : c.Holds k ready task device) (hin : c.pc.Inside = true) (hact : k.activeChannel = some x) :
    ∃ command, (c.pc = .checks command ∨ c.pc = .falls command ∨ c.pc = .blocked command) ∧
      k.Waits task device c.job command ∧ k.InFlight task device.channel command ∧ x = device.channel := by
  have hflt : ∀ {command}, k.Waits task device c.job command →
      k.InFlight task device.channel command ∧ x = device.channel := fun hwts => by
    have hflt := hwts.progress.resolve_right fun hdone => nomatch hact.symm.trans hdone.active
    exact ⟨hflt, Option.some.inj (hact.symm.trans hflt.active)⟩
  unfold Call.Holds at h
  cases hpc : c.pc with
  | locking blocked =>
    rw [hpc] at hin
    cases hin
  | idle =>
    rw [hpc] at h
    cases hact.symm.trans h.1.active
  | packet =>
    rw [hpc] at h
    cases hact.symm.trans h.1.active
  | checks command =>
    rw [hpc] at h
    exact ⟨command, .inl rfl, h, hflt h⟩
  | falls command =>
    rw [hpc] at h
    exact ⟨command, .inr (.inl rfl), h.1, hflt h.1⟩
  | blocked command =>
    rw [hpc] at h
    exact ⟨command, .inr (.inr rfl), h.1, hflt h.1⟩
  | syncIdle control =>
    rw [hpc] at h
    cases hact.symm.trans h.1.active
  | syncFlush control number =>
    rw [hpc] at h
    cases hact.symm.trans h.1.active

/-- **`ide_irq` sees the end of the command** and runs the task that waits for it. -/
theorem Controller.Waits.ideIrq (h : k.Waits task device job command) (hflt : k.InFlight task device.channel command)
    (hnone : (k.channel device.channel).running = none) :
    ∃ k', k.ideIrq = (k', some task) ∧ k'.activeChannel = none ∧ k'.Waits task device job command := by
  unfold Controller.ideIrq
  rw [hflt.active]
  dsimp only
  rw [if_pos hflt.dmaActive, hflt.waiter]
  refine ⟨_, rfl, rfl, ?_⟩
  have hself : ∀ channel, ({ k.setChannel device.channel channel with activeChannel := none } : Controller).channel
      device.channel = channel := fun channel => setChannel_self k device.channel channel
  obtain ⟨error, hend, herr, hmov⟩ := (hflt.command.resolve_left fun ⟨_, hruns, _⟩ =>
    nomatch hnone.symm.trans hruns).2.2
  refine ⟨?_, h.asks, ?_, fun y hy => ?_, .inr ⟨?_, rfl, ?_, ?_, error, ?_, ?_, fun hcln i hi => ?_⟩⟩
  · rw [hself]
    exact h.prepared
  · rw [hself]
    exact h.filled
  · exact (setChannel_of_ne k _ hy).symm ▸ h.other y hy
  all_goals rw [hself]
  · exact hnone
  · exact hend
  · exact herr
  · exact hmov hcln i hi

end PlantOS.Ide
