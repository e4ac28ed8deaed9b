import Mathlib.Data.Nat.Notation

/-!
# Block transfers

`rw_vdisk`, `disk_transfer` and `disk_sync` of `vdisk.c` for one drive, with the error that the first failure leaves
behind. What the memory allocator and the driver answer is an input.
-/

namespace PlantOS.Disk

def uintMax : ℕ := 4294967295

/-- `vdisk_type_t` -/
inductive VdiskType
  | none | block | optical
  deriving DecidableEq, Repr

/-- The texts of `disk_report_error`. -/
inductive DiskError
  /-- `"%s rejected: LBA=%u sectors=%u capacity=%llu"` -/
  | rejected (read : Bool) (lba sectors capacity : ℕ)
  /-- `"%s failed: LBA=%u sectors=%u"` -/
  | failed (read : Bool) (lba sectors : ℕ)
  /-- `"SYNC failed"` -/
  | syncFailed
  deriving DecidableEq, Repr

/-- An entry of `vdisk_ctl` with its entry of `disk_errors`, and the queue of the tasks that wait for the drive. -/
structure Vdisk where
  flag : VdiskType
  size : ℕ
  /-- `Read`, `Write` and `Sync` are not `NULL` -/
  canRead : Bool
  canWrite : Bool
  canSync : Bool
  maxTransferSectors : ℕ
  /-- `disk_drive_slot` gives a queue and `drive_can_skip_sync` is false -/
  serialized : Bool
  queueCapacity : ℕ
  /-- empty as long as every transfer has succeeded -/
  error : Option DiskError
  deriving DecidableEq, Repr

structure TransferWorld where
  /-- the tasks in the queue of the drive -/
  waiting : ℕ
  /-- `malloc` gives memory to a queue that must grow -/
  granted : Bool
  /-- the driver's answer to the part that begins with a sector of the transfer -/
  device : ℕ → Bool
  /-- the bytes that the driver delivers -/
  data : ℕ → UInt8

/-- How `disk_transfer` ends: with `true`, or with one of its `return false`. -/
inductive Outcome
  | success
  /-- the disk is not ready, from the start or since `rw_vdisk` has failed -/
  | failed
  /-- an exit before `rw_vdisk` -/
  | refused
  deriving DecidableEq, Repr

namespace Vdisk

variable (d : Vdisk)

def diskReady : Bool := d.flag ≠ .none && d.error.isNone

def diskWritable : Bool := d.diskReady && d.flag = .block && d.canWrite

def diskReportError (e : DiskError) : Vdisk :=
  if d.flag = .none ∨ d.error.isSome then d else { d with error := some e }

def rwVdisk (lba number : ℕ) (read : Bool) (device : Bool) : Vdisk × Bool :=
  if d.flag = .none ∨ d.error.isSome then (d, false)
  else
    let unit := if d.flag = .optical then 2048 else 512
    let operation := if read then d.canRead else d.canWrite
    if !operation ∨ number > uintMax / unit ∨ (d.flag = .block ∧ lba + number > d.size / unit) then
      (d.diskReportError (.rejected read lba number (d.size / unit)), false)
    else if device then (d, true)
    else (d.diskReportError (.failed read lba number), false)

def driveWaitInitialCapacity : ℕ := 16

/-- `drive_queue_push`, as far as it may fail -/
def driveQueuePush (w : TransferWorld) : Vdisk × Bool :=
  if w.waiting = d.queueCapacity then
    let capacity := if d.queueCapacity = 0 then driveWaitInitialCapacity else d.queueCapacity * 2 % (uintMax + 1)
    if capacity < d.queueCapacity ∨ capacity > uintMax / 4 then (d, false)
    else if w.granted then ({ d with queueCapacity := capacity }, true)
    else (d, false)
  else (d, true)

def driveSemaphoreTake (w : TransferWorld) : Vdisk × Bool :=
  if d.serialized then d.driveQueuePush w else (d, true)

def diskTransferSectors : ℕ := if d.maxTransferSectors = 0 then 8 else d.maxTransferSectors

/-- The loop of `disk_transfer` from the sector `i` on; every round moves at least one sector. -/
def transferLoop (w : TransferWorld) (lba number limit : ℕ) (read : Bool) : ℕ → ℕ → Vdisk → Vdisk × Outcome
  | 0, _, d => (d, .success)
  | fuel + 1, i, d =>
    if number ≤ i then (d, .success)
    else
      let sectors := if number - i < limit then number - i else limit
      if lba > uintMax - i then (d, .refused)
      else
        match d.rwVdisk (lba + i) sectors read (w.device i) with
        | (d, true) => transferLoop w lba number limit read fuel (i + sectors) d
        | (d, false) => (d, .failed)

/-- `disk_transfer`; `null` is `buffer == NULL`. -/
def diskTransfer (w : TransferWorld) (lba number : ℕ) (null read : Bool) (unit : ℕ) : Vdisk × Outcome :=
  if !d.diskReady then (d, .failed)
  else if (number ≠ 0 ∧ null) ∨ number > uintMax / unit then (d, .refused)
  else
    match d.driveSemaphoreTake w with
    | (d, false) => (d, .refused)
    | (d, true) => transferLoop w lba number d.diskTransferSectors read number 0 d

/-- `disk_read` and `disk_write` -/
def diskAccess (w : TransferWorld) (lba number : ℕ) (null read : Bool) : Vdisk × Outcome :=
  if d.flag = .none then (d, .failed)
  else if d.flag = .block then d.diskTransfer w lba number null read 512
  else (d, .refused)

def diskSync (w : TransferWorld) : Vdisk × Bool :=
  if !d.diskReady then (d, false)
  else if !d.canSync then (d, true)
  else
    match d.driveSemaphoreTake w with
    | (d, false) => (d, false)
    | (d, true) => if w.device 0 then (d, true) else (d.diskReportError .syncFailed, false)

/-! ### An error stays, and a transfer that fails leaves one -/

variable {d}

lemma not_ready (h : d.flag = .none ∨ d.error.isSome) : d.diskReady = false := by
  unfold diskReady
  rcases h with h | h
  · simp [h]
  · cases he : d.error with
    | none => simp [he] at h
    | some e => simp

lemma diskReportError_not_ready (e : DiskError) : (d.diskReportError e).diskReady = false := by
  unfold diskReportError
  split
  · rename_i h
    exact not_ready h
  · exact not_ready (.inr rfl)

lemma rwVdisk_cases (lba number : ℕ) (read device : Bool) :
    (d.rwVdisk lba number read device).1.diskReady = false ∧ (d.rwVdisk lba number read device).2 = false ∨
      d.rwVdisk lba number read device = (d, true) := by
  unfold rwVdisk
  dsimp only
  split
  · rename_i h
    exact .inl ⟨not_ready h, rfl⟩
  · generalize (if d.flag = .optical then 2048 else 512) = unit
    generalize (if read = true then d.canRead else d.canWrite) = operation
    split
    · exact .inl ⟨diskReportError_not_ready _, rfl⟩
    · split
      · exact .inr rfl
      · exact .inl ⟨diskReportError_not_ready _, rfl⟩

variable (d) (w : TransferWorld)

lemma driveSemaphoreTake_ready : (d.driveSemaphoreTake w).1.diskReady = d.diskReady := by
  unfold driveSemaphoreTake driveQueuePush
  dsimp only
  repeat' split
  all_goals rfl

def Reported (d : Vdisk) (result : Vdisk × Outcome) : Prop :=
  (result.2 = .failed → result.1.diskReady = false) ∧ (result.1.diskReady = true → d.diskReady = true)

lemma transferLoop_spec (lba number limit : ℕ) (read : Bool) (fuel i : ℕ) (d : Vdisk) :
    Reported d (transferLoop w lba number limit read fuel i d) := by
  induction fuel generalizing i d with
  | zero => exact ⟨nofun, id⟩
  | succ fuel ih =>
    unfold transferLoop
    dsimp only
    generalize (if number - i < limit then number - i else limit) = sectors
    split
    · exact ⟨nofun, id⟩
    split
    · exact ⟨nofun, id⟩
    have hrw := d.rwVdisk_cases (lba + i) sectors read (w.device i)
    split
    · rename_i d₁ heq
      rw [heq] at hrw
      obtain ⟨-, hfls⟩ | hsame := hrw
      · cases hfls
      · obtain rfl := (Prod.mk.inj hsame).1
        exact ih _ d₁
    · rename_i d₁ heq
      rw [heq] at hrw
      obtain ⟨hrdy, -⟩ | hsame := hrw
      · exact ⟨fun _ => hrdy, fun h => absurd (hrdy.symm.trans h) nofun⟩
      · cases (Prod.mk.inj hsame).2

lemma diskTransfer_spec (lba number : ℕ) (null read : Bool) (unit : ℕ) :
    Reported d (d.diskTransfer w lba number null read unit) := by
  unfold diskTransfer
  split
  · rename_i hrdy
    exact ⟨fun _ => by simpa using hrdy, id⟩
  split
  · exact ⟨nofun, id⟩
  have htake := d.driveSemaphoreTake_ready w
  split
  · rename_i d₁ heq
    rw [heq] at htake
    exact ⟨nofun, fun h => htake.symm.trans h⟩
  · rename_i d₁ heq
    rw [heq] at htake
    obtain ⟨hfail, hrdy⟩ := transferLoop_spec w lba number d₁.diskTransferSectors read number 0 d₁
    exact ⟨hfail, fun h => htake.symm.trans (hrdy h)⟩

/-- **A transfer that fails in `rw_vdisk` leaves a disk that is not ready**, and no transfer makes a disk ready. -/
theorem diskAccess_spec (lba number : ℕ) (null read : Bool) : Reported d (d.diskAccess w lba number null read) := by
  unfold diskAccess
  split
  · rename_i hflag
    exact ⟨fun _ => not_ready (.inl hflag), id⟩
  split
  · exact d.diskTransfer_spec w lba number null read 512
  · exact ⟨nofun, id⟩

lemma diskSync_ready (h : (d.diskSync w).1.diskReady = true) : d.diskReady = true := by
  unfold diskSync at h
  split at h
  · exact h
  · rename_i hrdy
    simpa using hrdy

lemma diskSync_success (h : (d.diskSync w).2 = true) : (d.diskSync w).1.diskReady = true := by
  have htake := d.driveSemaphoreTake_ready w
  unfold diskSync at h ⊢
  split
  · rename_i hrdy
    rw [if_pos hrdy] at h
    cases h
  rename_i hrdy
  rw [if_neg hrdy] at h
  have hrdy : d.diskReady = true := by simpa using hrdy
  split
  · exact hrdy
  rename_i hsync
  rw [if_neg hsync] at h
  split at h
  · cases h
  · rename_i d₁ heq
    rw [heq] at htake
    split
    · exact htake.trans hrdy
    · rename_i hdev
      rw [if_neg hdev] at h
      cases h

end Vdisk

/-! ## Programs of block transfers -/

/-- A call of `disk_read` or `disk_write`; `null` is `buffer == NULL`. -/
structure Request where
  read : Bool
  lba : ℕ
  number : ℕ
  null : Bool
  deriving DecidableEq, Repr

/-- Code that calls `disk_read` and `disk_write`. -/
inductive Program (α : Type) where
  | done (a : α)
  | transfer (request : Request) (next : Bool → List UInt8 → Program α)

/-- The disk, and how the transfers so far have ended. -/
structure Session where
  disk : Vdisk
  log : List Outcome

/-- The buffer of a read after the transfer; a read that fails leaves zeros. -/
def TransferWorld.delivered (w : TransferWorld) (number : ℕ) (success : Bool) : List UInt8 :=
  if success then (List.range (number * 512)).map w.data else List.replicate (number * 512) 0

namespace Program

variable {α : Type}

/-- One transfer; `worlds` is what the transfers meet, one after the other. -/
def access (worlds : ℕ → TransferWorld) (request : Request) (s : Session) : Session × Outcome :=
  let (disk, outcome) := s.disk.diskAccess (worlds s.log.length) request.lba request.number request.null request.read
  (⟨disk, s.log ++ [outcome]⟩, outcome)

def run (worlds : ℕ → TransferWorld) : Program α → Session → Session × α
  | done a, s => (s, a)
  | transfer request next, s =>
    let (s', outcome) := access worlds request s
    (next (outcome = .success) ((worlds s.log.length).delivered request.number (outcome = .success))).run worlds s'

end Program

namespace Session

/-- As long as the disk is ready, every transfer has succeeded or was refused before `rw_vdisk`. -/
def Honest (s : Session) : Prop := s.disk.diskReady = true → .failed ∉ s.log

variable {α : Type} {worlds : ℕ → TransferWorld} {s : Session}

lemma access_honest (h : s.Honest) (request : Request) : (Program.access worlds request s).1.Honest := by
  obtain ⟨hfail, hkept⟩ := s.disk.diskAccess_spec (worlds s.log.length) request.lba request.number request.null
    request.read
  unfold Program.access
  generalize s.disk.diskAccess (worlds s.log.length) request.lba request.number request.null request.read = result at *
  obtain ⟨disk, outcome⟩ := result
  intro hrdy
  rw [List.mem_append, not_or, List.mem_singleton]
  refine ⟨h (hkept hrdy), fun heq => ?_⟩
  exact absurd ((hfail heq.symm).symm.trans hrdy) nofun

/-- **Whatever the program makes of the answers, a ready disk tells that no transfer has failed.** -/
theorem run_honest (h : s.Honest) (p : Program α) : (p.run worlds s).1.Honest := by
  induction p generalizing s with
  | done a => exact h
  | transfer request next ih => exact ih _ _ (access_honest h request)

lemma run_prefix (p : Program α) : s.log <+: (p.run worlds s).1.log := by
  induction p generalizing s with
  | done a => exact List.prefix_rfl
  | transfer request next ih =>
    have hone : s.log <+: (Program.access worlds request s).1.log := List.prefix_append ..
    exact hone.trans (ih _ _)

end Session

end PlantOS.Disk
