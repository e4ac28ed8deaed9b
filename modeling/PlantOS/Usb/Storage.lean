import Mathlib.Tactic.Ring

/-!
# Mass storage

`storage_command`, `storage_blocks`, `storage_work_execute` and `storage_io` of `usb_storage.c`, with what
`usb_storage_bind` and `storage_volume` accept, against a device that executes `READ` and `WRITE` on an array of
blocks.
-/

namespace PlantOS.Usb.Storage

abbrev Memory := ℕ → UInt8

/-- `memcpy` to `target + at` -/
def copy (target : Memory) (start size : ℕ) (source : Memory) : Memory :=
  fun i => if start ≤ i ∧ i < start + size then source (i - start) else target i

/-- A value in `unsigned` and in `uint64_t` -/
def u32 (x : ℕ) : ℕ := x % 4294967296

def u64 (x : ℕ) : ℕ := x % 18446744073709551616

/-- `UINT_MAX`, `UINT64_MAX` and `INT_MAX` -/
abbrev uintMax : ℕ := 4294967295

abbrev uint64Max : ℕ := 18446744073709551615

abbrev intMax : ℕ := 2147483647

/-- `USB_STORAGE_TRANSFER_SECTORS` -/
abbrev transferSectors : ℕ := 128

/-! ### Units and volumes -/

/-- What `usb_storage_bind` asks of the capacity that the device reports -/
def Accepted (last blockSize : ℕ) : Prop :=
  ¬(blockSize < 512 ∨ blockSize % 512 ≠ 0 ∨ blockSize > (intMax - 65536) / 3 ∨ last = uint64Max ∨
    u64 (last + 1) > uint64Max / blockSize)

/-- `usb_storage_unit_t`; the last block is what the device reported. -/
structure StorageUnit where
  last : ℕ
  blockSize : ℕ
  accepted : Accepted last blockSize
  last_le : last ≤ uint64Max

def scsiNumber (bytes : List UInt8) : ℕ := bytes.foldl (fun value byte => u64 (value * 256 + byte.toNat)) 0

def scsiNumberStore (value : ℕ) : ℕ → List UInt8
  | 0 => []
  | length + 1 => scsiNumberStore (value / 256) length ++ [UInt8.ofNat value]

/-- `unit->sectors` -/
def StorageUnit.sectors (u : StorageUnit) : ℕ := u64 (u64 (u.last + 1) * (u.blockSize / 512))

/-- `usb_volume_t`, of the partitions that `storage_volume` accepts -/
structure Volume (u : StorageUnit) where
  first : ℕ
  sectors : ℕ
  accepted : ¬(sectors = 0 ∨ first ≥ u.sectors ∨ sectors > u.sectors - first ∨ sectors > uint64Max / 512)

/-! ### The device -/

structure Command where
  write : Bool
  block : ℕ
  count : ℕ
  deriving DecidableEq, Repr

/-- `READ(10)`, `WRITE(10)`, `READ(16)` and `WRITE(16)` as the device reads them -/
def decodeCommand (command : List UInt8) : Option Command :=
  let short (write : Bool) : Command :=
    ⟨write, scsiNumber ((command.drop 2).take 4), scsiNumber ((command.drop 7).take 2)⟩
  let long (write : Bool) : Command :=
    ⟨write, scsiNumber ((command.drop 2).take 8), scsiNumber ((command.drop 10).take 4)⟩
  match command.head? with
  | some 0x28 => some (short false)
  | some 0x2a => some (short true)
  | some 0x88 => some (long false)
  | some 0x8a => some (long true)
  | _ => none

/-- The data phase of `storage_command`: chunks of at most 64 KiB until everything has passed or one is short. The sender
has `available` bytes. -/
def transferLoop (source : Memory) (available length : ℕ) : ℕ → ℕ → Memory → Memory × ℕ
  | 0, completed, target => (target, completed)
  | fuel + 1, completed, target =>
    if completed < length then
      let chunk := if length - completed > 65536 then 65536 else length - completed
      let received := min chunk (available - completed)
      let target := copy target completed received fun i => source (completed + i)
      if received < chunk then (target, completed + received)
      else transferLoop source available length fuel (completed + received) target
    else (target, completed)

structure Device where
  media : Memory
  log : List (List UInt8)

/-- `storage_scsi` with a command for blocks: the bytes that passed, `none` when the device reports an error, and the
buffer -/
def storageScsi (u : StorageUnit) (command : List UInt8) (buffer : Memory) (length : ℕ) (d : Device) :
    Option ℕ × Memory × Device :=
  match decodeCommand command with
  | none => (none, buffer, { d with log := command :: d.log })
  | some c =>
    if c.block + c.count ≤ u.last + 1 then
      let size := c.count * u.blockSize
      let start := c.block * u.blockSize
      if c.write then
        let (data, completed) := transferLoop buffer size length length 0 fun _ => 0
        (some completed, buffer, ⟨if completed = size then copy d.media start size data else d.media, command :: d.log⟩)
      else
        let (buffer, completed) := transferLoop (fun i => d.media (start + i)) size length length 0 buffer
        (some completed, buffer, ⟨d.media, command :: d.log⟩)
    else (none, buffer, { d with log := command :: d.log })

/-! ### Requests -/

/-- The ten-byte command of `storage_blocks` -/
def command10 (block blocks : ℕ) (read : Bool) : List UInt8 :=
  [if read then 0x28 else 0x2a, 0] ++ scsiNumberStore block 4 ++ [0] ++ scsiNumberStore blocks 2 ++ [0]

def command16 (block blocks : ℕ) (read : Bool) : List UInt8 :=
  [if read then 0x88 else 0x8a, 0] ++ scsiNumberStore block 8 ++ scsiNumberStore blocks 4 ++ [0, 0]

/-- The test for the short command; `blocks - 1` is unsigned. -/
def Short (block blocks : ℕ) : Prop :=
  block ≤ uintMax ∧ blocks ≤ 65535 ∧ u32 (blocks + uintMax) ≤ uintMax - block

instance (block blocks : ℕ) : Decidable (Short block blocks) := inferInstanceAs (Decidable (_ ∧ _))

def storageBlocks (u : StorageUnit) (block blocks : ℕ) (bytes : Memory) (read : Bool) (d : Device) :
    Bool × Memory × Device :=
  let command := if Short block blocks then command10 block blocks read else command16 block blocks read
  let length := u32 (blocks * u.blockSize)
  let (result, bytes, d) := storageScsi u command bytes length d
  (result = some length, bytes, d)

inductive Operation
  | read | write
  deriving DecidableEq, Repr

/-- The sizes that `storage_io` computes -/
structure Geometry where
  start : ℕ
  length : ℕ
  offset : ℕ
  blocks : ℕ
  span : ℕ
  block : ℕ
  /-- the argument of `malloc`, in the 32 bits that `size_t` has on i386 -/
  bytes : ℕ
  deriving DecidableEq, Repr

/-- `sizeof(usb_storage_work_t)` -/
abbrev workSize : ℕ := 272

/-- The sizes in `unsigned` and `uint64_t` -/
def geometry (u : StorageUnit) (first lba number : ℕ) : Geometry :=
  let start := u64 (u64 (first + lba) * 512)
  let length := u32 (number * 512)
  let offset := u32 (start % u.blockSize)
  let blocks := u32 (offset + length + u.blockSize - 1) / u.blockSize
  let span := u32 (blocks * u.blockSize)
  ⟨start, length, offset, blocks, span, start / u.blockSize, u32 (workSize + span + length)⟩

/-- `storage_work_execute`: what the request leaves in `work->bytes` -/
def storageWorkExecute (u : StorageUnit) (connected : Bool) (operation : Operation) (g : Geometry) (bytes : Memory)
    (d : Device) : Bool × Memory × Device :=
  if connected = false then (false, bytes, d)
  else match operation with
  | .read => storageBlocks u g.block g.blocks bytes true d
  | .write =>
    let span := u32 (g.blocks * u.blockSize)
    let original : Memory := fun i => bytes (span + i)
    -- the bytes around the request are read first, unless it fills its blocks
    let (ready, bytes, d) :=
      if g.offset ≠ 0 ∨ g.length ≠ span then storageBlocks u g.block g.blocks bytes true d else (true, bytes, d)
    if ready then storageBlocks u g.block g.blocks (copy bytes g.offset g.length original) false d
    else (false, bytes, d)

/-- A call of `storage_read` or `storage_write` on a volume: whether the storage is online, the request could be
allocated and the device is still connected when its turn comes, and the caller's buffer -/
structure Call (u : StorageUnit) where
  volume : Volume u
  operation : Operation
  lba : ℕ
  number : ℕ
  online : Bool
  granted : Bool
  connected : Bool
  buffer : Memory

/-- The test of `storage_io` on the request -/
def Call.Within {u : StorageUnit} (c : Call u) : Prop :=
  ¬(c.online = false ∨ c.lba > c.volume.sectors ∨ c.number > c.volume.sectors - c.lba ∨ c.number > transferSectors)

instance {u : StorageUnit} (c : Call u) : Decidable c.Within := inferInstanceAs (Decidable (¬ _))

/-- `storage_io`: the result and the caller's buffer -/
def storageIo (u : StorageUnit) (c : Call u) (d : Device) : Bool × Memory × Device :=
  if c.Within ∧ c.granted = true then
    let g := geometry u c.volume.first c.lba c.number
    let bytes : Memory := fun _ => 0
    let bytes := if c.operation = .write then copy bytes g.span g.length c.buffer else bytes
    let (success, bytes, d) := storageWorkExecute u c.connected c.operation g bytes d
    let buffer :=
      if success ∧ c.operation = .read then copy c.buffer 0 g.length fun i => bytes (g.offset + i) else c.buffer
    (success, buffer, d)
  else (false, c.buffer, d)

def run (u : StorageUnit) : List (Call u) → Device → List (Bool × Memory) × Device
  | [], d => ([], d)
  | c :: calls, d =>
    let (success, buffer, d) := storageIo u c d
    let (results, d) := run u calls d
    ((success, buffer) :: results, d)

/-! ## What a request does to the blocks -/

lemma limits : uintMax = 4294967295 ∧ uint64Max = 18446744073709551615 ∧ intMax = 2147483647 ∧ transferSectors = 128 ∧
    workSize = 272 := ⟨rfl, rfl, rfl, rfl, rfl⟩

/-! ### Commands -/

lemma scsiNumber_append (bytes : List UInt8) (byte : UInt8) :
    scsiNumber (bytes ++ [byte]) = u64 (scsiNumber bytes * 256 + byte.toNat) := by
  simp [scsiNumber]

lemma scsiNumber_store {length : ℕ} (hlen : length ≤ 8) (value : ℕ) :
    scsiNumber (scsiNumberStore value length) = value % 256 ^ length := by
  induction length generalizing value with
  | zero => simp [scsiNumberStore, scsiNumber, Nat.mod_one]
  | succ length ih =>
    have hbyte : (UInt8.ofNat value).toNat = value % 256 := rfl
    have hmod : value % 256 ^ (length + 1) = value % 256 + 256 * (value / 256 % 256 ^ length) := by
      rw [Nat.pow_succ', Nat.mod_mul]
    have hlt : value % 256 ^ (length + 1) < 18446744073709551616 := by
      have hpow : 256 ^ (length + 1) ≤ 256 ^ 8 := Nat.pow_le_pow_right (by decide) hlen
      have hmodl := Nat.mod_lt value (show 0 < 256 ^ (length + 1) from Nat.pow_pos (by decide))
      have hword : 256 ^ 8 = 18446744073709551616 := rfl
      omega
    rw [scsiNumberStore, scsiNumber_append, ih (by omega), hbyte, u64, Nat.mul_comm, Nat.add_comm, ← hmod,
      Nat.mod_eq_of_lt hlt]

lemma decode_command10 {block blocks : ℕ} (hblk : block < 4294967296) (hblks : blocks < 65536) (read : Bool) :
    decodeCommand (command10 block blocks read) = some ⟨!read, block, blocks⟩ := by
  have h₁ := scsiNumber_store (show 4 ≤ 8 by decide) block
  have h₂ := scsiNumber_store (show 2 ≤ 8 by decide) blocks
  rw [Nat.mod_eq_of_lt (by omega)] at h₁ h₂
  have hshrt : ∀ write, (⟨write, scsiNumber (((command10 block blocks read).drop 2).take 4),
      scsiNumber (((command10 block blocks read).drop 7).take 2)⟩ : Command) = ⟨write, block, blocks⟩ := by
    intro write
    rw [Command.mk.injEq]
    exact ⟨rfl, h₁, h₂⟩
  cases read
  · exact congrArg some (hshrt true)
  · exact congrArg some (hshrt false)

lemma decode_command16 {block blocks : ℕ} (hblk : block < 18446744073709551616) (hblks : blocks < 4294967296)
    (read : Bool) : decodeCommand (command16 block blocks read) = some ⟨!read, block, blocks⟩ := by
  have h₁ := scsiNumber_store (show 8 ≤ 8 by decide) block
  have h₂ := scsiNumber_store (show 4 ≤ 8 by decide) blocks
  rw [Nat.mod_eq_of_lt (by omega)] at h₁ h₂
  have hlong : ∀ write, (⟨write, scsiNumber (((command16 block blocks read).drop 2).take 8),
      scsiNumber (((command16 block blocks read).drop 10).take 4)⟩ : Command) = ⟨write, block, blocks⟩ := by
    intro write
    rw [Command.mk.injEq]
    exact ⟨rfl, h₁, h₂⟩
  cases read
  · exact congrArg some (hlong true)
  · exact congrArg some (hlong false)

/-- **Both formats say the same**, where the short one is used. -/
theorem formats_agree {block blocks : ℕ} (hshrt : Short block blocks) (read : Bool) :
    decodeCommand (command10 block blocks read) = decodeCommand (command16 block blocks read) := by
  obtain ⟨hblk, hblks, _⟩ := hshrt
  have hlim := limits
  rw [decode_command10 (by omega) (by omega), decode_command16 (by omega) (by omega)]

/-! ### The data phase -/

lemma copy_zero (target : Memory) (start : ℕ) (source : Memory) : copy target start 0 source = target := by
  funext i
  exact if_neg (by omega)

lemma copy_copy (target source : Memory) (start size more : ℕ) :
    copy (copy target start size source) (start + size) more (fun i => source (size + i)) =
      copy target start (size + more) source := by
  funext i
  unfold copy
  by_cases hfst : start ≤ i ∧ i < start + size
  · rw [if_neg (by omega), if_pos hfst, if_pos (by omega)]
  · by_cases hsec : start + size ≤ i ∧ i < start + size + more
    · rw [if_pos hsec, if_pos (by omega)]
      exact congrArg source (by omega)
    · rw [if_neg hsec, if_neg hfst, if_neg (by omega)]

/-- **The data phase** passes what the sender has, as far as it was asked for. -/
theorem transferLoop_spec (source : Memory) (available length : ℕ) {fuel completed : ℕ} (target : Memory)
    (hcom : completed ≤ min length available) (hfuel : length - completed ≤ fuel) :
    transferLoop source available length fuel completed target =
      (copy target completed (min length available - completed) (fun i => source (completed + i)), min length available) := by
  induction fuel generalizing completed target with
  | zero =>
    have hdone : min length available = completed := by omega
    rw [hdone, Nat.sub_self, copy_zero]
    rfl
  | succ fuel ih =>
    unfold transferLoop
    by_cases hless : completed < length
    swap
    · have hdone : min length available = completed := by omega
      rw [if_neg hless, hdone, Nat.sub_self, copy_zero]
    rw [if_pos hless]
    dsimp only
    generalize hchun : (if length - completed > 65536 then 65536 else length - completed) = chunk
    have hsize : 0 < chunk ∧ chunk ≤ length - completed := by
      rw [← hchun]
      split_ifs <;> omega
    by_cases hshrt : min chunk (available - completed) < chunk
    · have hrecv : min chunk (available - completed) = min length available - completed := by omega
      rw [if_pos hshrt, hrecv, show completed + (min length available - completed) = min length available by omega]
    · have hrecv : min chunk (available - completed) = chunk := by omega
      rw [if_neg hshrt, hrecv, ih _ (by omega) (by omega)]
      have hspl := copy_copy target (fun i => source (completed + i)) completed chunk
        (min length available - (completed + chunk))
      rw [show chunk + (min length available - (completed + chunk)) = min length available - completed by omega] at hspl
      rw [← hspl]
      simp only [Nat.add_assoc]

lemma transferLoop_full (source : Memory) (length : ℕ) (target : Memory) :
    transferLoop source length length length 0 target = (copy target 0 length source, length) := by
  have h := transferLoop_spec source length length target (Nat.zero_le _) (Nat.sub_le length 0)
  simpa using h

/-! ### Sizes -/

namespace StorageUnit

variable (u : StorageUnit)

lemma blockSize_pos : 0 < u.blockSize := by
  have h := u.accepted
  unfold Accepted at h
  omega

lemma blockSize_le : u.blockSize ≤ (intMax - 65536) / 3 := by
  have h := u.accepted
  unfold Accepted at h
  omega

lemma blockSize_eq : u.blockSize = 512 * (u.blockSize / 512) := by
  have h := u.accepted
  unfold Accepted at h
  omega

lemma count_eq : u64 (u.last + 1) = u.last + 1 := by
  have h := u.accepted
  have hle := u.last_le
  have hlim := limits
  unfold Accepted at h
  exact Nat.mod_eq_of_lt (by omega)

lemma bytes_le : (u.last + 1) * u.blockSize ≤ uint64Max := by
  have h := u.accepted
  unfold Accepted at h
  rw [u.count_eq] at h
  exact (Nat.le_div_iff_mul_le u.blockSize_pos).mp (by omega)

lemma sectors_eq : u.sectors = (u.last + 1) * (u.blockSize / 512) := by
  have hle := u.bytes_le
  rw [u.blockSize_eq] at hle
  unfold sectors
  rw [u.count_eq]
  refine Nat.mod_eq_of_lt ?_
  have hlim := limits
  have : (u.last + 1) * (512 * (u.blockSize / 512)) = 512 * ((u.last + 1) * (u.blockSize / 512)) := by ring
  omega

lemma sectors_bytes : u.sectors * 512 = (u.last + 1) * u.blockSize := by
  have h := u.blockSize_eq
  rw [u.sectors_eq, Nat.mul_assoc, Nat.mul_comm (u.blockSize / 512), ← h]

end StorageUnit

def exactGeometry (u : StorageUnit) (first lba number : ℕ) : Geometry :=
  let start := (first + lba) * 512
  let length := number * 512
  let offset := start % u.blockSize
  let blocks := (offset + length + u.blockSize - 1) / u.blockSize
  let span := blocks * u.blockSize
  ⟨start, length, offset, blocks, span, start / u.blockSize, workSize + span + length⟩

section Sizes

variable {u : StorageUnit} {c : Call u}

lemma Call.Within.le (h : c.Within) : c.volume.first + c.lba + c.number ≤ u.sectors ∧ c.number ≤ transferSectors := by
  have hv := c.volume.accepted
  unfold Call.Within at h
  omega

lemma span_bounds (u : StorageUnit) (n : ℕ) :
    n ≤ (n + u.blockSize - 1) / u.blockSize * u.blockSize ∧
      (n + u.blockSize - 1) / u.blockSize * u.blockSize ≤ n + u.blockSize - 1 := by
  have hpos := u.blockSize_pos
  have hdiv := Nat.div_add_mod (n + u.blockSize - 1) u.blockSize
  have hmod := Nat.mod_lt (n + u.blockSize - 1) hpos
  rw [Nat.mul_comm] at hdiv
  omega

/-- **No size overflows.** -/
theorem geometry_exact (h : c.Within) :
    geometry u c.volume.first c.lba c.number = exactGeometry u c.volume.first c.lba c.number := by
  obtain ⟨hunit, hnum⟩ := h.le
  have hlim := limits
  have hbs := u.bytes_le
  rw [← u.sectors_bytes] at hbs
  have hpos := u.blockSize_pos
  have hsize := u.blockSize_le
  have hoff := Nat.mod_lt ((c.volume.first + c.lba) * 512) hpos
  have hsum : u64 (c.volume.first + c.lba) = c.volume.first + c.lba := Nat.mod_eq_of_lt (by omega)
  have hstar : u64 ((c.volume.first + c.lba) * 512) = (c.volume.first + c.lba) * 512 := Nat.mod_eq_of_lt (by omega)
  have hlen : u32 (c.number * 512) = c.number * 512 := Nat.mod_eq_of_lt (by omega)
  unfold geometry exactGeometry
  dsimp only
  rw [hsum, hstar, hlen]
  generalize (c.volume.first + c.lba) * 512 % u.blockSize = offset at hoff ⊢
  have hrd : u32 (offset + c.number * 512 + u.blockSize - 1) = offset + c.number * 512 + u.blockSize - 1 :=
    Nat.mod_eq_of_lt (by omega)
  rw [show u32 offset = offset from Nat.mod_eq_of_lt (by omega), hrd]
  have hspan := span_bounds u (offset + c.number * 512)
  generalize (offset + c.number * 512 + u.blockSize - 1) / u.blockSize = blocks at hspan ⊢
  have hspanEq : u32 (blocks * u.blockSize) = blocks * u.blockSize := Nat.mod_eq_of_lt (by omega)
  rw [hspanEq, show u32 (workSize + blocks * u.blockSize + c.number * 512) = workSize + blocks * u.blockSize + c.number * 512
    from Nat.mod_eq_of_lt (by omega)]

structure Geometry.Fits (u : StorageUnit) (g : Geometry) : Prop where
  start : g.start = g.block * u.blockSize + g.offset
  span : g.span = g.blocks * u.blockSize
  inside : g.offset + g.length ≤ g.span
  /-- what an `unsigned` and an `int` hold -/
  small : g.span < 2147483648
  /-- no block outside the unit -/
  unit : g.block + g.blocks ≤ u.last + 1

lemma geometry_fits (h : c.Within) : (exactGeometry u c.volume.first c.lba c.number).Fits u := by
  obtain ⟨hunit, hnum⟩ := h.le
  have hlim := limits
  have hbs := u.sectors_bytes
  have hpos := u.blockSize_pos
  have hsize := u.blockSize_le
  have hoff := Nat.mod_lt ((c.volume.first + c.lba) * 512) hpos
  have hdiv := Nat.div_add_mod ((c.volume.first + c.lba) * 512) u.blockSize
  rw [Nat.mul_comm] at hdiv
  have hspan := span_bounds u ((c.volume.first + c.lba) * 512 % u.blockSize + c.number * 512)
  refine ⟨hdiv.symm, rfl, hspan.1, ?_, ?_⟩
  · show _ / u.blockSize * u.blockSize < _
    omega
  · show (c.volume.first + c.lba) * 512 / u.blockSize + _ / u.blockSize ≤ _
    generalize (c.volume.first + c.lba) * 512 / u.blockSize = block at hdiv ⊢
    generalize (c.volume.first + c.lba) * 512 % u.blockSize = offset at hdiv hoff ⊢
    -- the block after the last one of the unit would begin behind its bytes
    have hend : block * u.blockSize + (offset + c.number * 512) ≤ (u.last + 1) * u.blockSize := by omega
    have hblk : block ≤ u.last + 1 := by
      refine Nat.le_of_mul_le_mul_right ?_ hpos
      omega
    obtain ⟨rest, hrest⟩ := Nat.exists_eq_add_of_le hblk
    rw [hrest, Nat.add_mul] at hend
    have hlt : (offset + c.number * 512 + u.blockSize - 1) / u.blockSize < rest + 1 := by
      rw [Nat.div_lt_iff_lt_mul hpos, Nat.add_mul]
      omega
    omega

end Sizes

/-! ### Blocks -/

def Inside (u : StorageUnit) (command : List UInt8) : Prop :=
  ∃ c, decodeCommand command = some c ∧ c.block + c.count ≤ u.last + 1

section Requests

variable {u : StorageUnit} {block blocks : ℕ}

/-- The command that `storage_blocks` sends -/
def blocksCommand (block blocks : ℕ) (read : Bool) : List UInt8 :=
  if Short block blocks then command10 block blocks read else command16 block blocks read

lemma decode_blocksCommand (hblk : block ≤ uint64Max) (hblks : blocks ≤ uintMax) (read : Bool) :
    decodeCommand (blocksCommand block blocks read) = some ⟨!read, block, blocks⟩ := by
  have hlim := limits
  unfold blocksCommand
  by_cases hshrt : Short block blocks
  · rw [if_pos hshrt, formats_agree hshrt, decode_command16 (by omega) (by omega)]
  · rw [if_neg hshrt, decode_command16 (by omega) (by omega)]

lemma block_le (hunit : block + blocks ≤ u.last + 1) : block ≤ uint64Max := by
  have h := u.accepted
  have hle := u.last_le
  have hlim := limits
  unfold Accepted at h
  omega

lemma blocks_le (hsm : blocks * u.blockSize < 2147483648) : blocks ≤ uintMax := by
  have hlim := limits
  have := Nat.le_mul_of_pos_right blocks u.blockSize_pos
  omega

lemma storageBlocks_read (hunit : block + blocks ≤ u.last + 1) (hsm : blocks * u.blockSize < 2147483648)
    (bytes : Memory) (d : Device) :
    storageBlocks u block blocks bytes true d =
      (true, copy bytes 0 (blocks * u.blockSize) fun i => d.media (block * u.blockSize + i),
        ⟨d.media, blocksCommand block blocks true :: d.log⟩) := by
  have hlen : u32 (blocks * u.blockSize) = blocks * u.blockSize := Nat.mod_eq_of_lt (by omega)
  have hdec := decode_blocksCommand (block_le hunit) (blocks_le hsm) true
  have hscsi : storageScsi u (blocksCommand block blocks true) bytes (blocks * u.blockSize) d =
      (some (blocks * u.blockSize), copy bytes 0 (blocks * u.blockSize) fun i => d.media (block * u.blockSize + i),
        ⟨d.media, blocksCommand block blocks true :: d.log⟩) := by
    unfold storageScsi
    rw [hdec]
    dsimp only
    rw [if_pos hunit, if_neg (by decide), transferLoop_full]
  unfold storageBlocks
  dsimp only
  rw [hlen]
  unfold blocksCommand at hscsi ⊢
  rw [hscsi]
  simp

lemma storageBlocks_write (hunit : block + blocks ≤ u.last + 1) (hsm : blocks * u.blockSize < 2147483648)
    (bytes : Memory) (d : Device) :
    storageBlocks u block blocks bytes false d =
      (true, bytes, ⟨copy d.media (block * u.blockSize) (blocks * u.blockSize) bytes,
        blocksCommand block blocks false :: d.log⟩) := by
  have hlen : u32 (blocks * u.blockSize) = blocks * u.blockSize := Nat.mod_eq_of_lt (by omega)
  have hdec := decode_blocksCommand (block_le hunit) (blocks_le hsm) false
  have hstag : copy d.media (block * u.blockSize) (blocks * u.blockSize)
      (copy (fun _ => 0) 0 (blocks * u.blockSize) bytes) =
      copy d.media (block * u.blockSize) (blocks * u.blockSize) bytes := by
    funext i
    unfold copy
    split_ifs with hi hj
    · rw [Nat.sub_zero]
    · omega
    · rfl
  have hscsi : storageScsi u (blocksCommand block blocks false) bytes (blocks * u.blockSize) d =
      (some (blocks * u.blockSize), bytes, ⟨copy d.media (block * u.blockSize) (blocks * u.blockSize) bytes,
        blocksCommand block blocks false :: d.log⟩) := by
    unfold storageScsi
    rw [hdec]
    dsimp only
    rw [if_pos hunit, if_pos (by decide), transferLoop_full]
    dsimp only
    rw [if_pos rfl, hstag]
  unfold storageBlocks
  dsimp only
  rw [hlen]
  unfold blocksCommand at hscsi ⊢
  rw [hscsi]
  simp

lemma inside_blocksCommand (hunit : block + blocks ≤ u.last + 1) (hsm : blocks * u.blockSize < 2147483648)
    (read : Bool) : Inside u (blocksCommand block blocks read) :=
  ⟨_, decode_blocksCommand (block_le hunit) (blocks_le hsm) read, hunit⟩

end Requests

/-! ## Volumes of 512-byte sectors -/

abbrev Sectors := ℕ → Fin 512 → UInt8

def sectorsOf (media : Memory) : Sectors := fun i j => media (512 * i + j)

def sectorIo {u : StorageUnit} (c : Call u) (s : Sectors) : Bool × Memory × Sectors :=
  let first := c.volume.first + c.lba
  if c.Within ∧ c.granted = true ∧ c.connected = true then
    match c.operation with
    | .read =>
      (true, fun i => if i < 512 * c.number then s (first + i / 512) ⟨i % 512, Nat.mod_lt i (by decide)⟩ else c.buffer i, s)
    | .write =>
      (true, c.buffer, fun i j => if first ≤ i ∧ i < first + c.number then c.buffer (512 * (i - first) + j) else s i j)
  else (false, c.buffer, s)

def sectorRun {u : StorageUnit} : List (Call u) → Sectors → List (Bool × Memory) × Sectors
  | [], s => ([], s)
  | c :: calls, s =>
    let (success, buffer, s) := sectorIo c s
    let (results, s) := sectorRun calls s
    ((success, buffer) :: results, s)

/-! ### The unit -/

section Execute

variable {u : StorageUnit} {g : Geometry}

lemma execute_read (hg : g.Fits u) (bytes : Memory) (d : Device) :
    storageWorkExecute u true .read g bytes d =
      (true, copy bytes 0 g.span fun i => d.media (g.block * u.blockSize + i),
        ⟨d.media, blocksCommand g.block g.blocks true :: d.log⟩) := by
  have hsm := hg.small
  rw [hg.span] at hsm ⊢
  exact storageBlocks_read hg.unit hsm bytes d

/-- **A write** changes the bytes of the request, and no others of its blocks. -/
lemma execute_write (hg : g.Fits u) (bytes : Memory) (d : Device) :
    ∃ bytes' log, storageWorkExecute u true .write g bytes d =
        (true, bytes', ⟨copy d.media g.start g.length fun i => bytes (g.span + i), log ++ d.log⟩) ∧
      ∀ command ∈ log, Inside u command := by
  have hsm := hg.small
  have hspan : u32 (g.blocks * u.blockSize) = g.span := by
    rw [← hg.span]
    exact Nat.mod_eq_of_lt (by omega)
  have hread := storageBlocks_read hg.unit (hg.span ▸ hsm) bytes d
  have hwr := storageBlocks_write (u := u) hg.unit (hg.span ▸ hsm)
  have hin := inside_blocksCommand hg.unit (hg.span ▸ hsm)
  rw [← hg.span] at hread
  have hstar := hg.start
  have hfits := hg.inside
  unfold storageWorkExecute
  rw [if_neg (by decide)]
  dsimp only
  rw [hspan]
  by_cases hpart : g.offset ≠ 0 ∨ g.length ≠ g.span
  · rw [if_pos hpart, hread]
    dsimp only
    rw [if_pos rfl, hwr, ← hg.span]
    have hmed : ∀ target : Memory, copy d.media (g.block * u.blockSize) g.span
        (copy (copy bytes 0 g.span fun i => d.media (g.block * u.blockSize + i)) g.offset g.length target) =
        copy d.media g.start g.length target := by
      intro target
      funext i
      unfold copy
      by_cases hreq : g.start ≤ i ∧ i < g.start + g.length
      · rw [if_pos (by omega), if_pos (by omega), if_pos hreq]
        exact congrArg target (by omega)
      · rw [if_neg hreq]
        by_cases hblks : g.block * u.blockSize ≤ i ∧ i < g.block * u.blockSize + g.span
        · rw [if_pos hblks, if_neg (by omega), if_pos (by omega)]
          exact congrArg d.media (by omega)
        · exact if_neg hblks
    rw [hmed]
    refine ⟨_, [blocksCommand g.block g.blocks false, blocksCommand g.block g.blocks true], rfl, ?_⟩
    intro command hmem
    simp only [List.mem_cons, List.not_mem_nil, or_false] at hmem
    rcases hmem with rfl | rfl
    · exact hin false
    · exact hin true
  · rw [if_neg hpart]
    dsimp only
    rw [if_pos rfl, hwr, ← hg.span]
    -- the request is the whole span
    have hwh : g.offset = 0 ∧ g.length = g.span := by omega
    have hmed : copy d.media (g.block * u.blockSize) g.span
        (copy bytes g.offset g.length fun i => bytes (g.span + i)) =
        copy d.media g.start g.length fun i => bytes (g.span + i) := by
      funext i
      unfold copy
      by_cases hreq : g.start ≤ i ∧ i < g.start + g.length
      · rw [if_pos (by omega), if_pos (by omega), if_pos hreq]
        exact congrArg bytes (by omega)
      · rw [if_neg hreq, if_neg (by omega)]
    rw [hmed]
    refine ⟨_, [blocksCommand g.block g.blocks false], rfl, ?_⟩
    intro command hmem
    rw [List.mem_singleton] at hmem
    exact hmem ▸ hin false

end Execute

section Calls

variable {u : StorageUnit}

lemma sectorsOf_copy (media buffer : Memory) (first number : ℕ) :
    sectorsOf (copy media (first * 512) (number * 512) buffer) =
      fun i (j : Fin 512) =>
        if first ≤ i ∧ i < first + number then buffer (512 * (i - first) + j) else sectorsOf media i j := by
  funext i j
  unfold sectorsOf copy
  by_cases hi : first ≤ i ∧ i < first + number
  · rw [if_pos hi, if_pos (by omega)]
    exact congrArg buffer (by omega)
  · rw [if_neg hi, if_neg (by omega)]

/-- What a call is to leave of the device: the bytes of the sectors, and more commands for blocks of the unit -/
def Leaves (c : Call u) (d : Device) : Prop :=
  ∃ media log, storageIo u c d =
      ((sectorIo c (sectorsOf d.media)).1, (sectorIo c (sectorsOf d.media)).2.1, ⟨media, log ++ d.log⟩) ∧
    sectorsOf media = (sectorIo c (sectorsOf d.media)).2.2 ∧ ∀ command ∈ log, Inside u command

lemma leaves_refused {c : Call u} {d : Device} (hio : storageIo u c d = (false, c.buffer, d))
    (href : ¬(c.Within ∧ c.granted = true ∧ c.connected = true)) : Leaves c d := by
  have hspec : sectorIo c (sectorsOf d.media) = (false, c.buffer, sectorsOf d.media) := by
    unfold sectorIo
    exact if_neg href
  unfold Leaves
  rw [hspec]
  exact ⟨d.media, [], hio, rfl, fun _ h => absurd h List.not_mem_nil⟩

lemma storageIo_request {c : Call u} (hwin : c.Within) (hgran : c.granted = true) (d : Device) {g : Geometry}
    (hg : exactGeometry u c.volume.first c.lba c.number = g) {bytes : Memory}
    (hbs : (if c.operation = .write then copy (fun _ => 0) g.span g.length c.buffer else fun _ => 0) = bytes) :
    storageIo u c d =
      ((storageWorkExecute u c.connected c.operation g bytes d).1,
        if (storageWorkExecute u c.connected c.operation g bytes d).1 = true ∧ c.operation = .read then
          copy c.buffer 0 g.length fun i => (storageWorkExecute u c.connected c.operation g bytes d).2.1 (g.offset + i)
        else c.buffer,
        (storageWorkExecute u c.connected c.operation g bytes d).2.2) := by
  unfold storageIo
  rw [if_pos ⟨hwin, hgran⟩, geometry_exact hwin, hg]
  dsimp only
  rw [hbs]

lemma leaves_read {c : Call u} (hwin : c.Within) (hgran : c.granted = true) (hconn : c.connected = true)
    (hread : c.operation = .read) (d : Device) : Leaves c d := by
  have hg := geometry_fits hwin
  have hlen : (exactGeometry u c.volume.first c.lba c.number).length = c.number * 512 := rfl
  have hstar : (exactGeometry u c.volume.first c.lba c.number).start = (c.volume.first + c.lba) * 512 := rfl
  generalize hgeom : exactGeometry u c.volume.first c.lba c.number = g at hg hstar hlen
  have hio := storageIo_request hwin hgran d hgeom rfl
  rw [hconn, hread, if_neg (fun h => Operation.noConfusion h), execute_read hg, if_pos ⟨rfl, rfl⟩] at hio
  have hspec : sectorIo c (sectorsOf d.media) = (true, fun i => if i < 512 * c.number then
      sectorsOf d.media (c.volume.first + c.lba + i / 512) ⟨i % 512, Nat.mod_lt i (by decide)⟩ else c.buffer i,
      sectorsOf d.media) := by
    unfold sectorIo
    rw [if_pos ⟨hwin, hgran, hconn⟩, hread]
  unfold Leaves
  rw [hspec, hio]
  refine ⟨d.media, [blocksCommand g.block g.blocks true], ?_, rfl, ?_⟩
  · refine Prod.ext rfl (Prod.ext ?_ rfl)
    have hplc := hg.start
    have hfits := hg.inside
    funext i
    unfold copy sectorsOf
    dsimp only
    by_cases hi : i < 512 * c.number
    · rw [if_pos (by omega), if_pos (by omega), if_pos hi]
      exact congrArg d.media (by omega)
    · rw [if_neg (by omega), if_neg hi]
  · intro command hmem
    rw [List.mem_singleton] at hmem
    exact hmem ▸ inside_blocksCommand hg.unit (hg.span ▸ hg.small) true

lemma leaves_write {c : Call u} (hwin : c.Within) (hgran : c.granted = true) (hconn : c.connected = true)
    (hwr : c.operation = .write) (d : Device) : Leaves c d := by
  have hg := geometry_fits hwin
  have hlen : (exactGeometry u c.volume.first c.lba c.number).length = c.number * 512 := rfl
  have hstar : (exactGeometry u c.volume.first c.lba c.number).start = (c.volume.first + c.lba) * 512 := rfl
  generalize hgeom : exactGeometry u c.volume.first c.lba c.number = g at hg hstar hlen
  have hio := storageIo_request hwin hgran d hgeom rfl
  obtain ⟨bytes', log, hexec, hlog⟩ := execute_write hg (copy (fun _ => 0) g.span g.length c.buffer) d
  rw [hconn, hwr, if_pos rfl, hexec, if_neg (fun h => Operation.noConfusion h.2)] at hio
  have hspec : sectorIo c (sectorsOf d.media) = (true, c.buffer, fun i (j : Fin 512) =>
      if c.volume.first + c.lba ≤ i ∧ i < c.volume.first + c.lba + c.number then
        c.buffer (512 * (i - (c.volume.first + c.lba)) + j) else sectorsOf d.media i j) := by
    unfold sectorIo
    rw [if_pos ⟨hwin, hgran, hconn⟩, hwr]
  have hsrc : copy d.media g.start g.length (fun i => copy (fun _ => 0) g.span g.length c.buffer (g.span + i)) =
      copy d.media g.start g.length c.buffer := by
    funext i
    unfold copy
    by_cases hi : g.start ≤ i ∧ i < g.start + g.length
    · rw [if_pos hi, if_pos hi]
      dsimp only
      rw [if_pos (by omega)]
      exact congrArg c.buffer (by omega)
    · rw [if_neg hi, if_neg hi]
  unfold Leaves
  rw [hspec, hio]
  refine ⟨_, log, rfl, ?_, hlog⟩
  rw [hsrc, hstar, hlen]
  exact sectorsOf_copy d.media c.buffer (c.volume.first + c.lba) c.number

/-- **One call** is the call on the sectors, and sends commands for blocks of the unit. -/
theorem storageIo_spec (c : Call u) (d : Device) : Leaves c d := by
  by_cases hreq : c.Within ∧ c.granted = true
  swap
  · refine leaves_refused ?_ fun h => hreq ⟨h.1, h.2.1⟩
    unfold storageIo
    exact if_neg hreq
  by_cases hconn : c.connected = true
  swap
  · refine leaves_refused ?_ fun h => hconn h.2.2
    have hgone : c.connected = false := Bool.eq_false_iff.mpr hconn
    rw [storageIo_request hreq.1 hreq.2 d rfl rfl, hgone]
    rfl
  cases hoper : c.operation with
  | read => exact leaves_read hreq.1 hreq.2 hconn hoper d
  | write => exact leaves_write hreq.1 hreq.2 hconn hoper d

lemma run_spec (calls : List (Call u)) (d : Device) :
    (run u calls d).1 = (sectorRun calls (sectorsOf d.media)).1 ∧
      sectorsOf (run u calls d).2.media = (sectorRun calls (sectorsOf d.media)).2 ∧
      ∃ log, (run u calls d).2.log = log ++ d.log ∧ ∀ command ∈ log, Inside u command := by
  induction calls generalizing d with
  | nil => exact ⟨rfl, rfl, [], rfl, fun _ h => absurd h List.not_mem_nil⟩
  | cons c calls ih =>
    obtain ⟨media, log, hcall, hmed, hlog⟩ := storageIo_spec c d
    obtain ⟨hres, hsec, log', hlog', hin⟩ := ih ⟨media, log ++ d.log⟩
    unfold run sectorRun
    rw [hcall]
    rw [hmed] at hres hsec
    refine ⟨congrArg _ hres, hsec, log' ++ log, ?_, ?_⟩
    · rw [List.append_assoc]
      exact hlog'
    · intro command hmem
      rcases List.mem_append.mp hmem with h | h
      · exact hin command h
      · exact hlog command h

/-- **The volumes are arrays of sectors.** For every bound unit and every sequence of calls, the results and the
sectors are those of the array; every command is for blocks of the unit; no size overflows; and both formats of a
command say the same. -/
theorem storage_is_sectors (u : StorageUnit) (calls : List (Call u)) (media : Memory) :
    (run u calls ⟨media, []⟩).1 = (sectorRun calls (sectorsOf media)).1 ∧
      sectorsOf (run u calls ⟨media, []⟩).2.media = (sectorRun calls (sectorsOf media)).2 ∧
      (∀ command ∈ (run u calls ⟨media, []⟩).2.log, Inside u command) ∧
      (∀ c ∈ calls, c.Within →
        geometry u c.volume.first c.lba c.number = exactGeometry u c.volume.first c.lba c.number ∧
        (geometry u c.volume.first c.lba c.number).bytes < 4294967296 ∧
        (geometry u c.volume.first c.lba c.number).span ≤ intMax) ∧
      ∀ block blocks read, Short block blocks →
        decodeCommand (command10 block blocks read) = decodeCommand (command16 block blocks read) := by
  obtain ⟨hresults, hsectors, log, hlog, hinside⟩ := run_spec calls ⟨media, []⟩
  rw [List.append_nil] at hlog
  refine ⟨hresults, hsectors, ?_, ?_, fun block blocks read h => formats_agree h read⟩
  · rw [hlog]
    exact hinside
  · intro c _ hc
    have hsmall := (geometry_fits hc).small
    refine ⟨geometry_exact hc, ?_, ?_⟩
    · exact Nat.mod_lt _ (by decide)
    · rw [geometry_exact hc]
      have hlimits := limits
      omega

/-- A unit with 16 blocks of 4096 bytes, and a write of two sectors of which the second one is in the second block -/
def blocks4096 : StorageUnit := ⟨15, 4096, by unfold Accepted; decide, by decide⟩

def straddling : Call blocks4096 := ⟨⟨0, 128, by decide⟩, .write, 7, 2, true, true, true, fun i => UInt8.ofNat (i + 1)⟩

/-- Both blocks are read first, and two sectors are written. -/
theorem storage_is_sectors_straddling :
    (run blocks4096 [straddling] ⟨fun _ => 0, []⟩).2.log.map decodeCommand = [some ⟨true, 0, 2⟩, some ⟨false, 0, 2⟩] ∧
      sectorsOf (run blocks4096 [straddling] ⟨fun _ => 0, []⟩).2.media = (sectorRun [straddling] (sectorsOf fun _ => 0)).2 :=
  ⟨by decide +kernel, (storage_is_sectors blocks4096 [straddling] fun _ => 0).2.1⟩

end Calls

end PlantOS.Usb.Storage
