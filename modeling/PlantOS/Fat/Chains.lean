import PlantOS.Fat.Volume
import PlantOS.Lib.Run
import PlantOS.Vfs.Defs

/-!
# Clusters of a mounted FAT volume

The functions of `fat.c` that follow and change the file allocation table, and read and write the clusters of a file.
What the directories hold is an input: a file is the entry that a node names, and a call gets it as found.
-/

namespace PlantOS.Fat

open Vfs (VfsError)

/-- The position of the last lookup; `start` is 0 after the table has changed. -/
structure Cursor where
  start : ℕ
  cluster : ℕ
  index : ℕ
  deriving DecidableEq, Repr

/-- What changes in `fat_state_t`, and the clusters of the disk -/
structure FatState where
  fat : ℕ → ℕ
  cursor : Cursor
  /-- the bytes of a cluster -/
  data : ℕ → ℕ → UInt8

/-- The fields of `struct FAT_FILEINFO` that say where a file is -/
structure FatEntry where
  /-- `clustno_high` and `clustno_low` -/
  start : ℕ
  size : ℕ
  deriving DecidableEq, Repr

def fatEocMarker : FatType → ℕ
  | .fat12 => 0xfff
  | .fat16 => 0xffff
  | .fat32 => 0xfffffff

def FatState.setFat (s : FatState) (cluster value : ℕ) : FatState := { s with fat := Function.update s.fat cluster value }

variable (dm : FatCache)

/-- `file_savefat`; the copies of the table on the disk are left out. -/
def fileSavefat (s : FatState) (clustno count : ℕ) : FatState :=
  if count = 0 ∨ dm.fatMaxTerms < clustno + count then s else { s with cursor := { s.cursor with start := 0 } }

/-! ### Following a chain -/

def fatFindFreeCluster (fat : ℕ → ℕ) : Option ℕ :=
  (List.range dm.fatMaxTerms).find? fun cluster => fat cluster = 0 && fatDataClusterValid dm cluster

/-- The loop of `fat_chain_last`, for `n` clusters at most -/
def lastLoop (fat : ℕ → ℕ) : ℕ → ℕ → Option ℕ
  | 0, _ => none
  | n + 1, current =>
    if !fatDataClusterValid dm current then none
    else if fatIsEoc dm.type (fat current) then some current
    else lastLoop fat n (fat current)

def fatChainLast (fat : ℕ → ℕ) (start : ℕ) : Option ℕ := lastLoop dm fat dm.fatMaxTerms start

/-- The loop of `fat_cluster_at` and the check after it: `n` links from `current` on -/
def walkLinks (fat : ℕ → ℕ) : ℕ → ℕ → Option ℕ
  | 0, current => if fatDataClusterValid dm current then some current else none
  | n + 1, current =>
    if !fatDataClusterValid dm current || fatIsEoc dm.type (fat current) then none else walkLinks fat n (fat current)

def fatClusterAt (s : FatState) (start index : ℕ) : FatState × Option ℕ :=
  if dm.fatMaxTerms ≤ index then (s, none)
  else
    let found :=
      if s.cursor.start = start ∧ s.cursor.index ≤ index then
        walkLinks dm s.fat (index - s.cursor.index) s.cursor.cluster
      else walkLinks dm s.fat index start
    match found with
    | none => (s, none)
    | some cluster => ({ s with cursor := ⟨start, cluster, index⟩ }, some cluster)

/-- The scan of `fat_ensure_clusters` for `additional` free clusters after `cluster`, in `n` rounds -/
def scanFree (fat : ℕ → ℕ) : ℕ → ℕ → ℕ → List ℕ
  | 0, _, _ => []
  | _, _, 0 => []
  | n + 1, cluster, additional + 1 =>
    let cluster := if dm.fatMaxTerms ≤ cluster + 1 then 2 else cluster + 1
    if fat cluster = 0 ∧ fatDataClusterValid dm cluster then cluster :: scanFree fat n cluster additional
    else scanFree fat n cluster (additional + 1)

/-- The clusters are linked after `last`, one after the other; `clear` fills them with zeros. -/
def linkClusters (clear : Bool) : FatState → ℕ → List ℕ → FatState
  | s, _, [] => s
  | s, last, cluster :: allocated =>
    let s := (s.setFat last cluster).setFat cluster (fatEocMarker dm.type)
    let s := if clear then { s with data := Function.update s.data cluster fun _ => 0 } else s
    linkClusters clear s cluster allocated

/-- The loop that saves the entries in runs, from a run of `changed` entries on -/
def saveRuns : FatState → ℕ → ℕ → List ℕ → FatState
  | s, first, changed, [] => fileSavefat dm s first changed
  | s, first, changed, cluster :: allocated =>
    if cluster = first + changed then saveRuns s first (changed + 1) allocated
    else saveRuns (fileSavefat dm s first changed) cluster 1 allocated

/-- What `malloc` answers to `fat_ensure_clusters` -/
structure EnsureMemory where
  allocated : Bool
  zero : Bool

def fatEnsureClusters (mem : EnsureMemory) (s : FatState) (start required : ℕ) (clear : Bool) : FatState × Bool :=
  match fatChainLength dm s.fat start with
  | none => (s, false)
  | some existing =>
    if required ≤ existing then (s, true)
    else if intMax / 4 < required - existing then (s, false)
    else
      match fatChainLast dm s.fat start with
      | none => (s, false)
      | some last =>
        if !mem.allocated then (s, false)
        else
          let allocated := scanFree dm s.fat (dm.fatMaxTerms - 2) last (required - existing)
          if allocated.length ≠ required - existing then (s, false)
          else if clear && !mem.zero then (s, false)
          else (saveRuns dm (linkClusters dm clear s last allocated) last 1 allocated, true)

/-! ### Reading and writing -/

/-- The cases of `write` and `zero` in `fat_transfer`, with the buffer -/
inductive TransferKind
  | read
  | write (buffer : ℕ → UInt8)
  | zero

/-- The clusters that are read or written at once: how many, and the last one -/
def runLoop (fat : ℕ → ℕ) : ℕ → ℕ → ℕ → ℕ × ℕ
  | 0, run, last => (run, last)
  | n + 1, run, last =>
    if fat last ≠ last + 1 ∨ !fatDataClusterValid dm (fat last) then (run, last) else runLoop fat n (run + 1) (fat last)

/-- `n` bytes of a cluster from `offset` on are written. -/
def FatState.patch (s : FatState) (cluster offset n : ℕ) (bytes : ℕ → UInt8) : FatState :=
  { s with data := fun c o => if c = cluster ∧ offset ≤ o ∧ o < offset + n then bytes (o - offset) else s.data c o }

/-- `run` whole clusters are written. -/
def FatState.writeRun (s : FatState) (cluster run : ℕ) (bytes : ℕ → UInt8) : FatState :=
  { s with data := fun c o =>
      if cluster ≤ c ∧ c < cluster + run ∧ o < dm.clustnoBytes then bytes ((c - cluster) * dm.clustnoBytes + o)
      else s.data c o }

/-- A round of `fat_transfer`: the state, the buffer that is read into, the cluster that was reached, and how many
bytes are done; `none` if the bounce buffer cannot be allocated -/
def transferStep (kind : TransferKind) (bounce : Bool) (length : ℕ) (s : FatState) (cluster clusterOffset completed : ℕ)
    (out : ℕ → UInt8) : Option (FatState × (ℕ → UInt8) × ℕ × ℕ) :=
  let chunk := min (dm.clustnoBytes - clusterOffset) (length - completed)
  let whole := clusterOffset = 0 ∧ chunk = dm.clustnoBytes
  let (run, last) := runLoop dm s.fat ((length - completed) / dm.clustnoBytes - 1) 1 cluster
  let into (first n : ℕ) (bytes : ℕ → UInt8) (i : ℕ) := if first ≤ i ∧ i < first + n then bytes (i - first) else out i
  match kind with
  | .read =>
    if whole then
      some (s, into completed (run * dm.clustnoBytes)
        (fun i => s.data (cluster + i / dm.clustnoBytes) (i % dm.clustnoBytes)), last, completed + run * dm.clustnoBytes)
    else if bounce then
      some (s, into completed chunk (fun i => s.data cluster (clusterOffset + i)), cluster, completed + chunk)
    else none
  | .write buffer =>
    if whole then
      some (s.writeRun dm cluster run (fun i => buffer (completed + i)), out, last, completed + run * dm.clustnoBytes)
    else if bounce then
      some (s.patch cluster clusterOffset chunk (fun i => buffer (completed + i)), out, cluster, completed + chunk)
    else none
  | .zero =>
    if bounce then some (s.patch cluster clusterOffset chunk (fun _ => 0), out, cluster, completed + chunk) else none

/-- The loop of `fat_transfer`, for `n` rounds at most: whether all bytes were done -/
def transferLoop (kind : TransferKind) (bounce : Bool) (length : ℕ) :
    ℕ → FatState → ℕ → ℕ → ℕ → (ℕ → UInt8) → FatState × (ℕ → UInt8) × Bool
  | 0, s, _, _, _, out => (s, out, false)
  | n + 1, s, cluster, clusterOffset, completed, out =>
    match transferStep dm kind bounce length s cluster clusterOffset completed out with
    | none => (s, out, false)
    | some (s, out, cluster, completed) =>
      if completed < length then
        if fatIsEoc dm.type (s.fat cluster) || !fatDataClusterValid dm (s.fat cluster) then (s, out, false)
        else transferLoop kind bounce length n s (s.fat cluster) 0 completed out
      else (s, out, true)

/-- `fat_transfer`; every round does a byte or more. -/
def fatTransfer (kind : TransferKind) (bounce : Bool) (s : FatState) (start offset length : ℕ) :
    FatState × (ℕ → UInt8) × Bool :=
  if length = 0 then (s, fun _ => 0, true)
  else
    match fatClusterAt dm s start (offset / dm.clustnoBytes) with
    | (s, none) => (s, fun _ => 0, false)
    | (s, some cluster) =>
      transferLoop dm kind bounce length length s cluster (offset % dm.clustnoBytes) 0 fun _ => 0

/-- `fat_read` of a file: the bytes -/
def fatRead (bounce : Bool) (s : FatState) (e : FatEntry) (offset length : ℕ) :
    FatState × Except VfsError (ℕ × (ℕ → UInt8)) :=
  if e.size < offset then (s, .error .noEntry)
  else
    let length := min length (e.size - offset)
    match fatTransfer dm .read bounce s e.start offset length with
    | (s, out, true) => (s, .ok (length, out))
    | (s, _, false) => (s, .error .io)

/-! ### The size of a file -/

/-- What `malloc` answers to `fat_resize` -/
structure ResizeMemory where
  first : EnsureMemory
  grow : EnsureMemory
  zero : Bool
  tail : Bool
  data : Bool

/-- `fat_resize` of a file without clusters: the first one -/
def fatFirstCluster (mem : EnsureMemory) (s : FatState) (required : ℕ) : FatState × Option ℕ :=
  match fatFindFreeCluster dm s.fat with
  | none => (s, none)
  | some start =>
    match fatEnsureClusters dm mem (s.setFat start (fatEocMarker dm.type)) start required false with
    | (s, false) => (s.setFat start 0, none)
    | (s, true) => (fileSavefat dm s start 1, some start)

/-- The loop of `fat_resize` that frees the clusters from `current` on: `current` after it -/
def freeTail : ℕ → FatState → ℕ → FatState × ℕ
  | 0, s, current => (s, current)
  | n + 1, s, current =>
    if fatIsEoc dm.type current then (s, current) else freeTail n (s.setFat current 0) (s.fat current)

/-- `fat_resize` of a chain that is too long -/
def fatCut (s : FatState) (start required : ℕ) : FatState × Bool :=
  match fatClusterAt dm s start (required - 1) with
  | (s, none) => (s, false)
  | (s, some last) =>
    let (s, current) := freeTail dm dm.fatMaxTerms (s.setFat last (fatEocMarker dm.type)) (s.fat last)
    let s := if fatDataClusterValid dm current then s.setFat current 0 else s
    (fileSavefat dm s 0 dm.fatMaxTerms, true)

def requiredClusters (size : ℕ) : ℕ := if size = 0 then 1 else (size - 1) / dm.clustnoBytes + 1

/-- The start of the chain that `fat_resize` works on -/
def fatStart (mem : EnsureMemory) (s : FatState) (e : FatEntry) (required : ℕ) : FatState × Option ℕ :=
  if e.start = 0 ∧ e.size = 0 then fatFirstCluster dm mem s required else (s, some e.start)

def fatGrow (mem : EnsureMemory) (s : FatState) (start existing required : ℕ) : FatState × Bool :=
  if existing < required then fatEnsureClusters dm mem s start required false else (s, true)

def fatShrink (s : FatState) (start existing required : ℕ) : FatState × Bool :=
  if required < existing then fatCut dm s start required else (s, true)

/-- A call of `fat_transfer` in `fat_resize`, if its condition holds -/
def transferIf (cond : Bool) (kind : TransferKind) (bounce : Bool) (s : FatState) (start offset length : ℕ) :
    FatState × Bool :=
  if cond then
    let (s, _, done) := fatTransfer dm kind bounce s start offset length
    (s, done)
  else (s, true)

/-- The rest of `fat_resize`, once the chain has its new length -/
def fatFill (mem : ResizeMemory) (s : FatState) (e : FatEntry) (size offset : ℕ) (data : Option (ℕ → UInt8)) :
    FatState × FatEntry × Except VfsError Unit :=
  let zeroEnd := if data.isSome then offset else size
  match transferIf dm (e.size < zeroEnd) .zero mem.zero s e.start e.size (zeroEnd - e.size) with
  | (s, false) => (s, e, .error .io)
  | (s, true) =>
    match transferIf dm (size < e.size && size % dm.clustnoBytes ≠ 0) .zero mem.tail s e.start size
        (dm.clustnoBytes - size % dm.clustnoBytes) with
    | (s, false) => (s, e, .error .io)
    | (s, true) =>
      match transferIf dm data.isSome (.write (data.getD fun _ => 0)) mem.data s e.start offset (size - offset) with
      | (s, false) => (s, e, .error .io)
      | (s, true) => (s, { e with size := size }, .ok ())

def fatResize (mem : ResizeMemory) (s : FatState) (e : FatEntry) (size offset : ℕ) (data : Option (ℕ → UInt8)) :
    FatState × FatEntry × Except VfsError Unit :=
  let required := requiredClusters dm size
  if e.start = 0 ∧ e.size = 0 ∧ size = 0 then (s, e, .ok ())
  else
    match fatStart dm mem.first s e required with
    | (s, none) => (s, e, .error .noSpace)
    | (s, some start) =>
      let e := { e with start := start }
      match fatChainLength dm s.fat start with
      | none => (s, e, .error .io)
      | some existing =>
        match fatGrow dm mem.grow s start existing required with
        | (s, false) => (s, e, .error .noSpace)
        | (s, true) =>
          match fatShrink dm s start existing required with
          | (s, false) => (s, e, .error .io)
          | (s, true) => fatFill dm mem s e size offset data

/-- What `malloc` answers to `fat_write`: the last is for the way back after a failure. -/
structure WriteMemory where
  resize : ResizeMemory
  bounce : Bool
  rollback : ResizeMemory

def fatWrite (mem : WriteMemory) (s : FatState) (e : FatEntry) (offset : ℕ) (buffer : ℕ → UInt8) (length : ℕ) :
    FatState × FatEntry × Except VfsError ℕ :=
  if uintMax - length < offset then (s, e, .error .overflow)
  else if e.size < offset + length then
    match fatResize dm mem.resize s e (offset + length) offset (some buffer) with
    | (s, e', .error status) =>
      let (s, e', _) := fatResize dm mem.rollback s e' e.size 0 none
      (s, e', .error status)
    | (s, e', .ok ()) => (s, e', .ok length)
  else
    match fatTransfer dm (.write buffer) mem.bounce s e.start offset length with
    | (s, _, false) => (s, e, .error .io)
    | (s, _, true) => (s, e, .ok length)

def fatTruncate (mem : ResizeMemory) (s : FatState) (e : FatEntry) (size : ℕ) :
    FatState × FatEntry × Except VfsError Unit :=
  fatResize dm mem s e size 0 none

/-- What `fat_create` does to the table: `grow` are the arguments of a `fat_reserve_entries` that makes the directory
longer, `lists` whether the lists of directories take a new one, and `image` what the first cluster has. -/
def fatCreateCluster (grow : Option (ℕ × ℕ × EnsureMemory)) (lists : Bool) (image : ℕ → UInt8) (s : FatState) :
    FatState × Except VfsError FatEntry :=
  match grow.elim (s, true) fun (cluster, required, mem) => fatEnsureClusters dm mem s cluster required true with
  | (s, false) => (s, .error .noSpace)
  | (s, true) =>
    match fatFindFreeCluster dm s.fat with
    | none => (s, .error .noSpace)
    | some cluster =>
      if !lists then (s, .error .noMemory)
      else
        let s := { s with data := Function.update s.data cluster image }
        (fileSavefat dm (s.setFat cluster (fatEocMarker dm.type)) cluster 1, .ok ⟨cluster, 0⟩)

/-- The loop of `fat_remove` over the clusters of a file, and that of `fat_remove_directory`, which `stops` at the end
mark -/
def freeChain (stops : Bool) : ℕ → FatState → ℕ → FatState
  | 0, s, _ => s
  | n + 1, s, cluster =>
    if !fatDataClusterValid dm cluster then s
    else if stops && fatIsEoc dm.type (s.fat cluster) then s.setFat cluster 0
    else freeChain stops n (s.setFat cluster 0) (s.fat cluster)

/-- `fat_remove` of a file, as far as it changes the table -/
def fatRemoveChain (s : FatState) (e : FatEntry) : FatState × Except VfsError Unit :=
  if e.start ≠ 0 ∧ fatChainLength dm s.fat e.start = none then (s, .error .io)
  else (fileSavefat dm (freeChain dm false (dm.fatMaxTerms + 1) s e.start) 0 dm.fatMaxTerms, .ok ())

/-- `fat_remove_directory` of an empty directory, as far as it changes the table -/
def fatRemoveDirectoryChain (s : FatState) (cluster : ℕ) : FatState :=
  fileSavefat dm (freeChain dm true (dm.fatMaxTerms + 1) s cluster) 0 dm.fatMaxTerms

/-! ## The position that `fat_cluster_at` keeps -/

/-- The lookup without the position: from the start of the chain, one link after the other -/
def plainClusterAt (fat : ℕ → ℕ) (start index : ℕ) : Option ℕ :=
  if dm.fatMaxTerms ≤ index then none else walkLinks dm fat index start

/-- The position is that of its index in the chain of its start. -/
def CursorOk (s : FatState) : Prop :=
  s.cursor.start ≠ 0 → walkLinks dm s.fat s.cursor.index s.cursor.start = some s.cursor.cluster

variable {dm} {s s' : FatState} {fat : ℕ → ℕ} {start index n m c d : ℕ}

/-! ### A lookup -/

lemma walk_add (h : walkLinks dm fat n c = some d) (m : ℕ) : walkLinks dm fat (n + m) c = walkLinks dm fat m d := by
  induction n generalizing c with
  | zero =>
    rw [walkLinks] at h
    split at h
    · rw [Nat.zero_add, Option.some.inj h]
    · cases h
  | succ n ih =>
    rw [Nat.add_right_comm]
    rw [walkLinks] at h ⊢
    split at h
    · cases h
    · next hc => rw [if_neg hc, ih h]

lemma walk_zero (fat : ℕ → ℕ) (n : ℕ) : walkLinks dm fat n 0 = none := by
  cases n <;> simp [walkLinks, fatDataClusterValid]

lemma clusterAt_snd (dm : FatCache) (s : FatState) (start index : ℕ) : (fatClusterAt dm s start index).2 =
    if dm.fatMaxTerms ≤ index then none
    else if s.cursor.start = start ∧ s.cursor.index ≤ index then
      walkLinks dm s.fat (index - s.cursor.index) s.cursor.cluster
    else walkLinks dm s.fat index start := by
  unfold fatClusterAt
  split
  · rfl
  · dsimp only
    split <;> simp_all

lemma clusterAt_eq (h : CursorOk dm s) (hstar : start ≠ 0) :
    (fatClusterAt dm s start index).2 = plainClusterAt dm s.fat start index := by
  rw [clusterAt_snd, plainClusterAt]
  split
  · rfl
  split
  · next hmat =>
    obtain ⟨rfl, hle⟩ := hmat
    rw [← walk_add (h hstar), Nat.add_sub_cancel' hle]
  · rfl

lemma clusterAt_fat (dm : FatCache) (s : FatState) (start index : ℕ) :
    (fatClusterAt dm s start index).1.fat = s.fat ∧ (fatClusterAt dm s start index).1.data = s.data := by
  unfold fatClusterAt
  split
  · exact ⟨rfl, rfl⟩
  · dsimp only
    split <;> exact ⟨rfl, rfl⟩

lemma CursorOk.clusterAt (h : CursorOk dm s) (start index : ℕ) : CursorOk dm (fatClusterAt dm s start index).1 := by
  have hfat := (clusterAt_fat dm s start index).1
  have heq := @clusterAt_eq dm s start index h
  rw [plainClusterAt] at heq
  unfold fatClusterAt at hfat heq ⊢
  split
  · exact h
  · next hidx =>
    dsimp only at hfat heq ⊢
    split
    · exact h
    · next cluster hfnd =>
      intro hstar
      have hpl := heq hstar
      rw [if_neg hidx, if_neg hidx, hfnd] at hpl
      exact hpl.symm

/-! ### Changes of the table -/

lemma cursorOk_of_start (h : s.cursor.start = 0) : CursorOk dm s := fun hne => absurd h hne

lemma cursorOk_of_eq {α : Type*} {r : FatState × α} {a : α} (h : CursorOk dm r.1) (heq : r = (s', a)) :
    CursorOk dm s' := by
  rwa [heq] at h

lemma CursorOk.congr (h : CursorOk dm s) (hfat : s'.fat = s.fat) (hcurs : s'.cursor = s.cursor) : CursorOk dm s' := by
  unfold CursorOk
  rwa [hfat, hcurs]

lemma fileSavefat_start (s : FatState) {clustno count : ℕ} (hcnt : 0 < count) (hle : clustno + count ≤ dm.fatMaxTerms) :
    (fileSavefat dm s clustno count).cursor.start = 0 := by
  rw [fileSavefat, if_neg (by omega)]

lemma fileSavefat_fat (s : FatState) (clustno count : ℕ) : (fileSavefat dm s clustno count).fat = s.fat ∧
    (fileSavefat dm s clustno count).data = s.data := by
  unfold fileSavefat
  split <;> exact ⟨rfl, rfl⟩

lemma fileSavefat_ok (h : CursorOk dm s) (clustno count : ℕ) : CursorOk dm (fileSavefat dm s clustno count) := by
  unfold fileSavefat
  split
  · exact h
  · exact cursorOk_of_start rfl

lemma lt_of_valid (h : fatDataClusterValid dm c = true) : c < dm.fatMaxTerms := by
  simp only [fatDataClusterValid, Bool.and_eq_true, decide_eq_true_eq] at h
  exact h.1.1.1.2

lemma valid_of_last (h : lastLoop dm fat n c = some d) : fatDataClusterValid dm d = true := by
  induction n generalizing c with
  | zero => cases h
  | succ n ih =>
    rw [lastLoop] at h
    split at h
    · cases h
    split at h
    · next hval _ =>
      rw [← Option.some.inj h]
      simpa using hval
    · exact ih h

lemma valid_of_scan (h : d ∈ scanFree dm fat n c m) : fat d = 0 ∧ fatDataClusterValid dm d = true := by
  induction n generalizing c m with
  | zero => simp [scanFree] at h
  | succ n ih =>
    cases m with
    | zero => simp [scanFree] at h
    | succ m =>
      rw [scanFree] at h
      generalize (if dm.fatMaxTerms ≤ c + 1 then 2 else c + 1) = e at h
      split at h
      · next hfree =>
        rcases List.mem_cons.mp h with rfl | h
        · exact hfree
        · exact ih h
      · exact ih h

lemma saveRuns_start {allocated : List ℕ} {first changed : ℕ} (hchg : 0 < changed)
    (hle : first + changed ≤ dm.fatMaxTerms) (hall : ∀ c ∈ allocated, c < dm.fatMaxTerms) :
    (saveRuns dm s first changed allocated).cursor.start = 0 := by
  induction allocated generalizing s first changed with
  | nil => exact fileSavefat_start s hchg hle
  | cons c allocated ih =>
    have hc := hall c List.mem_cons_self
    have hrest := fun d hd => hall d (List.mem_cons_of_mem c hd)
    rw [saveRuns]
    split
    · exact ih (by omega) (by omega) hrest
    · exact ih (by omega) (by omega) hrest

lemma fatEnsureClusters_cases (dm : FatCache) (mem : EnsureMemory) (s : FatState) (start required : ℕ) (clear : Bool) :
    (fatEnsureClusters dm mem s start required clear).1 = s ∨
      (fatEnsureClusters dm mem s start required clear).2 = true ∧
        (fatEnsureClusters dm mem s start required clear).1.cursor.start = 0 := by
  unfold fatEnsureClusters
  split
  · exact .inl rfl
  split
  · exact .inl rfl
  split
  · exact .inl rfl
  split
  · exact .inl rfl
  split
  · exact .inl rfl
  dsimp only
  split
  · exact .inl rfl
  split
  · exact .inl rfl
  · next last hlast _ _ _ =>
    have hval := lt_of_valid (valid_of_last hlast)
    exact .inr ⟨rfl, saveRuns_start Nat.one_pos hval fun c hc => lt_of_valid (valid_of_scan hc).2⟩

lemma CursorOk.ensureClusters (h : CursorOk dm s) (mem : EnsureMemory) (start required : ℕ) (clear : Bool) :
    CursorOk dm (fatEnsureClusters dm mem s start required clear).1 := by
  rcases fatEnsureClusters_cases dm mem s start required clear with heq | ⟨-, hstar⟩
  · rwa [heq]
  · exact cursorOk_of_start hstar

/-! ### Reading and writing -/

lemma transferStep_kept {kind : TransferKind} {bounce : Bool} {length clusterOffset completed : ℕ} {out out' : ℕ → UInt8}
    {c' completed' : ℕ}
    (h : transferStep dm kind bounce length s c clusterOffset completed out = some (s', out', c', completed')) :
    s'.fat = s.fat ∧ s'.cursor = s.cursor := by
  unfold transferStep at h
  dsimp only at h
  cases kind <;> dsimp only at h <;> split at h
  all_goals first
    | (split at h <;> cases h <;> exact ⟨rfl, rfl⟩)
    | (cases h; exact ⟨rfl, rfl⟩)
    | cases h

lemma transferLoop_kept {kind : TransferKind} {bounce : Bool} {length clusterOffset completed : ℕ} {out : ℕ → UInt8} :
    (transferLoop dm kind bounce length n s c clusterOffset completed out).1.fat = s.fat ∧
      (transferLoop dm kind bounce length n s c clusterOffset completed out).1.cursor = s.cursor := by
  induction n generalizing s c clusterOffset completed out with
  | zero => exact ⟨rfl, rfl⟩
  | succ n ih =>
    rw [transferLoop]
    split
    · exact ⟨rfl, rfl⟩
    · next s' out' c' completed' hstep =>
      have hkept := transferStep_kept hstep
      split
      · split
        · exact hkept
        · exact ⟨ih.1.trans hkept.1, ih.2.trans hkept.2⟩
      · exact hkept

lemma transfer_fat (dm : FatCache) (kind : TransferKind) (bounce : Bool) (s : FatState) (start offset length : ℕ) :
    (fatTransfer dm kind bounce s start offset length).1.fat = s.fat := by
  have hfat := (clusterAt_fat dm s start (offset / dm.clustnoBytes)).1
  unfold fatTransfer
  split
  · rfl
  split
  · next heq => rwa [heq] at hfat
  · next heq =>
    rw [heq] at hfat
    exact transferLoop_kept.1.trans hfat

lemma CursorOk.transfer (h : CursorOk dm s) (kind : TransferKind) (bounce : Bool) (start offset length : ℕ) :
    CursorOk dm (fatTransfer dm kind bounce s start offset length).1 := by
  have hlook := h.clusterAt start (offset / dm.clustnoBytes)
  unfold fatTransfer
  split
  · exact h
  split
  · next heq => rwa [heq] at hlook
  · next heq =>
    rw [heq] at hlook
    exact hlook.congr transferLoop_kept.1 transferLoop_kept.2

/-! ### The size of a file -/

lemma setFat_restore (s : FatState) (c value : ℕ) (h : s.fat c = 0) : (s.setFat c value).setFat c 0 = s := by
  unfold FatState.setFat
  rw [Function.update_idem, ← h, Function.update_eq_self]

lemma firstCluster_cases (dm : FatCache) (mem : EnsureMemory) (s : FatState) (required : ℕ) :
    (fatFirstCluster dm mem s required).1 = s ∨ (fatFirstCluster dm mem s required).1.cursor.start = 0 := by
  unfold fatFirstCluster
  split
  · exact .inl rfl
  · next start hfree =>
    have hfnd := List.find?_some hfree
    simp only [Bool.and_eq_true, decide_eq_true_eq] at hfnd
    have hcas := fatEnsureClusters_cases dm mem (s.setFat start (fatEocMarker dm.type)) start required false
    split
    · next heq =>
      rw [heq] at hcas
      rcases hcas with hsame | ⟨htrue, -⟩
      · dsimp only at hsame
        exact .inl (by rw [hsame]; exact setFat_restore s start _ hfnd.1)
      · cases htrue
    · exact .inr (fileSavefat_start _ Nat.one_pos (lt_of_valid hfnd.2))

lemma CursorOk.firstCluster (h : CursorOk dm s) (mem : EnsureMemory) (required : ℕ) :
    CursorOk dm (fatFirstCluster dm mem s required).1 := by
  rcases firstCluster_cases dm mem s required with heq | hstar
  · rwa [heq]
  · exact cursorOk_of_start hstar

lemma CursorOk.cut (h : CursorOk dm s) (hdm : 0 < dm.fatMaxTerms) (start required : ℕ) :
    CursorOk dm (fatCut dm s start required).1 := by
  have hlook := h.clusterAt start (required - 1)
  unfold fatCut
  split
  · next heq => rwa [heq] at hlook
  · exact cursorOk_of_start (fileSavefat_start _ hdm (Nat.zero_add _).le)

lemma CursorOk.fatStart (h : CursorOk dm s) (mem : EnsureMemory) (e : FatEntry) (required : ℕ) :
    CursorOk dm (fatStart dm mem s e required).1 := by
  unfold Fat.fatStart
  split
  · exact h.firstCluster mem required
  · exact h

lemma CursorOk.grow (h : CursorOk dm s) (mem : EnsureMemory) (start existing required : ℕ) :
    CursorOk dm (fatGrow dm mem s start existing required).1 := by
  unfold fatGrow
  split
  · exact h.ensureClusters mem start required false
  · exact h

lemma CursorOk.shrink (h : CursorOk dm s) (hdm : 0 < dm.fatMaxTerms) (start existing required : ℕ) :
    CursorOk dm (fatShrink dm s start existing required).1 := by
  unfold fatShrink
  split
  · exact h.cut hdm start required
  · exact h

lemma CursorOk.transferIf (h : CursorOk dm s) (cond : Bool) (kind : TransferKind) (bounce : Bool)
    (start offset length : ℕ) : CursorOk dm (transferIf dm cond kind bounce s start offset length).1 := by
  unfold Fat.transferIf
  split
  · exact h.transfer kind bounce start offset length
  · exact h

lemma CursorOk.fill (h : CursorOk dm s) (mem : ResizeMemory) (e : FatEntry) (size offset : ℕ)
    (data : Option (ℕ → UInt8)) : CursorOk dm (fatFill dm mem s e size offset data).1 := by
  unfold fatFill
  dsimp only
  split
  · next heq => exact cursorOk_of_eq (h.transferIf _ .zero mem.zero e.start e.size _) heq
  next s₁ heq₁ =>
  have h₁ : CursorOk dm s₁ := cursorOk_of_eq (h.transferIf _ .zero mem.zero e.start e.size _) heq₁
  split
  · next heq => exact cursorOk_of_eq (h₁.transferIf _ .zero mem.tail e.start size _) heq
  next s₂ heq₂ =>
  have h₂ : CursorOk dm s₂ := cursorOk_of_eq (h₁.transferIf _ .zero mem.tail e.start size _) heq₂
  split <;> next heq => exact cursorOk_of_eq (h₂.transferIf _ _ mem.data e.start offset _) heq

lemma CursorOk.resize (h : CursorOk dm s) (hdm : 0 < dm.fatMaxTerms) (mem : ResizeMemory) (e : FatEntry) (size offset : ℕ)
    (data : Option (ℕ → UInt8)) : CursorOk dm (fatResize dm mem s e size offset data).1 := by
  unfold fatResize
  dsimp only
  split
  · exact h
  split
  · next heq => exact cursorOk_of_eq (h.fatStart mem.first e _) heq
  next s₁ start heq₁ =>
  have h₁ : CursorOk dm s₁ := cursorOk_of_eq (h.fatStart mem.first e _) heq₁
  split
  · exact h₁
  next existing _ =>
  split
  · next heq => exact cursorOk_of_eq (h₁.grow mem.grow start existing _) heq
  next s₂ heq₂ =>
  have h₂ : CursorOk dm s₂ := cursorOk_of_eq (h₁.grow mem.grow start existing _) heq₂
  split
  · next heq => exact cursorOk_of_eq (h₂.shrink hdm start existing _) heq
  next s₃ heq₃ =>
  have h₃ : CursorOk dm s₃ := cursorOk_of_eq (h₂.shrink hdm start existing _) heq₃
  exact h₃.fill mem _ size offset data

lemma CursorOk.write (h : CursorOk dm s) (hdm : 0 < dm.fatMaxTerms) (mem : WriteMemory) (e : FatEntry) (offset : ℕ)
    (buffer : ℕ → UInt8) (length : ℕ) : CursorOk dm (fatWrite dm mem s e offset buffer length).1 := by
  have hrsz := h.resize hdm mem.resize e (offset + length) offset (some buffer)
  have htran := h.transfer (.write buffer) mem.bounce e.start offset length
  unfold fatWrite
  split
  · exact h
  split
  · split
    · next heq =>
      rw [heq] at hrsz
      exact hrsz.resize hdm mem.rollback _ e.size 0 none
    · next heq => rwa [heq] at hrsz
  · split <;> next heq => rwa [heq] at htran

lemma CursorOk.createCluster (h : CursorOk dm s) (grow : Option (ℕ × ℕ × EnsureMemory)) (lists : Bool)
    (image : ℕ → UInt8) : CursorOk dm (fatCreateCluster dm grow lists image s).1 := by
  have hgrow : CursorOk dm (grow.elim (s, true) fun g =>
      fatEnsureClusters dm g.2.2 s g.1 g.2.1 true).1 := by
    cases grow with
    | none => exact h
    | some g => exact h.ensureClusters g.2.2 g.1 g.2.1 true
  unfold fatCreateCluster
  split
  · next heq => rwa [heq] at hgrow
  next s₁ heq =>
  rw [heq] at hgrow
  split
  · exact hgrow
  · next cluster hfree =>
    have hfnd := List.find?_some hfree
    simp only [Bool.and_eq_true, decide_eq_true_eq] at hfnd
    split
    · exact hgrow
    · exact cursorOk_of_start (fileSavefat_start _ Nat.one_pos (lt_of_valid hfnd.2))

lemma CursorOk.removeChain (h : CursorOk dm s) (hdm : 0 < dm.fatMaxTerms) (e : FatEntry) :
    CursorOk dm (fatRemoveChain dm s e).1 := by
  unfold fatRemoveChain
  split
  · exact h
  · exact cursorOk_of_start (fileSavefat_start _ hdm (Nat.zero_add _).le)

/-! ### Runs -/

inductive FatEvent
  | read (bounce : Bool) (e : FatEntry) (offset length : ℕ)
  | write (mem : WriteMemory) (e : FatEntry) (offset : ℕ) (buffer : ℕ → UInt8) (length : ℕ)
  | truncate (mem : ResizeMemory) (e : FatEntry) (size : ℕ)
  | create (grow : Option (ℕ × ℕ × EnsureMemory)) (lists : Bool) (image : ℕ → UInt8)
  | remove (e : FatEntry)
  | removeDirectory (cluster : ℕ)
  /-- `fat_rename`, which may make the directory longer -/
  | rename (cluster required : ℕ) (mem : EnsureMemory)
  | sync

def FatState.step (dm : FatCache) (s : FatState) : FatEvent → FatState
  | .read bounce e offset length => (fatRead dm bounce s e offset length).1
  | .write mem e offset buffer length => (fatWrite dm mem s e offset buffer length).1
  | .truncate mem e size => (fatTruncate dm mem s e size).1
  | .create grow lists image => (fatCreateCluster dm grow lists image s).1
  | .remove e => (fatRemoveChain dm s e).1
  | .removeDirectory cluster => fatRemoveDirectoryChain dm s cluster
  | .rename cluster required mem => (fatEnsureClusters dm mem s cluster required true).1
  | .sync => fileSavefat dm s 0 dm.fatMaxTerms

/-- A mounted volume: its table has two entries or more, and `fat_state_t` starts as zeros. -/
def fatSystem (dm : FatCache) : Lib.System FatState FatEvent :=
  ⟨fun s => s.cursor = ⟨0, 0, 0⟩ ∧ 2 ≤ dm.fatMaxTerms, fun s e => some (s.step dm e)⟩

lemma cursorOk_step (h : CursorOk dm s) (hdm : 0 < dm.fatMaxTerms) (e : FatEvent) : CursorOk dm (s.step dm e) := by
  cases e with
  | read bounce e offset length =>
    have htran := h.transfer .read bounce e.start offset (min length (e.size - offset))
    show CursorOk dm (fatRead dm bounce s e offset length).1
    unfold fatRead
    split
    · exact h
    · dsimp only
      split <;> next heq => exact cursorOk_of_eq htran heq
  | write mem e offset buffer length => exact h.write hdm mem e offset buffer length
  | truncate mem e size => exact h.resize hdm mem e size 0 none
  | create grow lists image => exact h.createCluster grow lists image
  | remove e => exact h.removeChain hdm e
  | removeDirectory cluster => exact cursorOk_of_start (fileSavefat_start _ hdm (Nat.zero_add _).le)
  | rename cluster required mem => exact h.ensureClusters mem cluster required true
  | sync => exact fileSavefat_ok h 0 dm.fatMaxTerms

lemma cursorOk_reachable (hs : (fatSystem dm).Reachable s) : CursorOk dm s ∧ 0 < dm.fatMaxTerms := by
  refine hs.invariant (P := fun s => CursorOk dm s ∧ 0 < dm.fatMaxTerms) ?_ ?_
  · rintro s ⟨hcurs, hdm⟩
    exact ⟨cursorOk_of_start (by rw [hcurs]), by omega⟩
  · intro s e s' h hstep
    exact Option.some.inj hstep ▸ ⟨cursorOk_step h.1 h.2 e, h.2⟩

/-- The position left behind by the last change of the table, or by a lookup with start 0, is taken for one of start 0
and leads on to a cluster. -/
def Stale (dm : FatCache) (s : FatState) (start index : ℕ) : Prop :=
  start = 0 ∧ s.cursor.start = 0 ∧ s.cursor.index ≤ index ∧ index < dm.fatMaxTerms ∧
    (walkLinks dm s.fat (index - s.cursor.index) s.cursor.cluster).isSome

/-- **In every state of every run, a lookup answers as if there were no kept position, unless its start is 0 and a
position that was left behind is taken for it.** -/
theorem clusterAt_plain_iff (hs : (fatSystem dm).Reachable s) (start index : ℕ) :
    (fatClusterAt dm s start index).2 = plainClusterAt dm s.fat start index ↔ ¬Stale dm s start index := by
  obtain ⟨hok, -⟩ := cursorOk_reachable hs
  by_cases hstart : start = 0
  · subst hstart
    rw [clusterAt_snd, plainClusterAt, walk_zero]
    split
    · exact iff_of_true rfl fun hstale => absurd hstale.2.2.2.1 (by omega)
    · next hindex =>
      split
      · next hmatch =>
        rw [Stale, Option.isSome_iff_ne_none]
        exact ⟨fun hnone hstale => hstale.2.2.2.2 hnone, fun hno => by_contra fun hsome =>
          hno ⟨rfl, hmatch.1, hmatch.2, by omega, hsome⟩⟩
      · next hno => exact iff_of_true rfl fun hstale => hno ⟨hstale.2.1, hstale.2.2.1⟩
  · exact iff_of_true (clusterAt_eq hok hstart) fun hstale => hstart hstale.1

def smallVolume : FatCache where
  type := .fat16
  sectorBytes := 512
  rootMaxFiles := 16
  rootCluster := 0
  clustnoBytes := 512
  fat1Address := 0
  fat2Address := 512
  fileDataAddress := 1024
  rootDictAddress := 512
  imgTotalSize := 8192
  fatMaxTerms := 16

def smallState : FatState :=
  ⟨fun c => if c = 2 then 3 else if c = 3 then 4 else if c = 4 then 0xffff else 0, ⟨0, 0, 0⟩, fun _ _ => 0⟩

lemma smallState_reachable (es : List FatEvent) :
    (fatSystem smallVolume).Reachable ((fatSystem smallVolume).replay smallState es) := by
  have hinit : (fatSystem smallVolume).init smallState := ⟨rfl, by decide⟩
  exact Lib.System.replay_reachable (.init hinit) es

/-- After a read from the second cluster the lookup of the third one goes on from there. -/
theorem lookup_goes_on : ∃ s, (fatSystem smallVolume).Reachable s ∧ s.cursor = ⟨2, 3, 1⟩ ∧
    (fatClusterAt smallVolume s 2 2).2 = plainClusterAt smallVolume s.fat 2 2 :=
  ⟨_, smallState_reachable [.read true ⟨2, 1500⟩ 600 10], by decide +kernel,
    (clusterAt_plain_iff (smallState_reachable _) 2 2).mpr fun hstale => absurd hstale.1 (by decide)⟩

/-- A file is read and another one is created: then the second cluster of a file that starts at 0 is that of the first
file, though no chain starts at 0. -/
theorem start_zero_finds_cluster : ∃ s, (fatSystem smallVolume).Reachable s ∧
    (fatClusterAt smallVolume s 0 1).2 = some 3 ∧ plainClusterAt smallVolume s.fat 0 1 = none :=
  ⟨_, smallState_reachable [.read true ⟨2, 1500⟩ 600 10, .create none true fun _ => 0], by decide +kernel,
    by decide +kernel⟩

end PlantOS.Fat

/-! ## The chains of a well-formed volume -/

namespace PlantOS.Fat

open Function (update update_apply update_of_ne update_self)
open List (isChain_append length_cons mem_append mem_cons mem_singleton nodup_append nodup_cons)

variable (dm : FatCache)

/-- The clusters of a chain from its start to the end mark; `[]` is the chain of an empty file -/
structure IsFatChain (fat : ℕ → ℕ) (l : List ℕ) : Prop where
  valid : ∀ c ∈ l, fatDataClusterValid dm c = true
  link : l.IsChain fun c d => fat c = d
  last : ∀ c ∈ l.getLast?, fatIsEoc dm.type (fat c) = true
  nodup : l.Nodup

/-- What the boot sector of a well-formed volume says -/
structure Sane : Prop where
  terms : 2 ≤ dm.fatMaxTerms
  bytes : 0 < dm.clustnoBytes
  /-- The numbers of clusters are below the end marks. -/
  below : ∀ c, fatDataClusterValid dm c = true → fatIsEoc dm.type c = false

/-- The chains of all files and directories -/
structure WellFormed {ι : Type*} (fat : ℕ → ℕ) (chains : ι → List ℕ) : Prop where
  isChain : ∀ f, IsFatChain dm fat (chains f)
  disjoint : ∀ f g c, c ∈ chains f → c ∈ chains g → f = g
  used : ∀ c, fatDataClusterValid dm c = true → fat c ≠ 0 →
    (∃ f, c ∈ chains f) ∨ fatIsReservedMarker dm.type (fat c) = true

variable {dm} {fat fat' : ℕ → ℕ} {l a b : List ℕ} {c d n m : ℕ} {s : FatState}

lemma eoc_marker (type : FatType) : fatIsEoc type (fatEocMarker type) = true := by
  cases type <;> decide

lemma eoc_zero (type : FatType) : fatIsEoc type 0 = false := by
  cases type <;> decide

lemma two_le_of_valid (h : fatDataClusterValid dm c = true) : 2 ≤ c := by
  simp only [fatDataClusterValid, Bool.and_eq_true, decide_eq_true_eq] at h
  exact h.1.1.1.1

/-! ### Following a chain -/

namespace IsFatChain

lemma tail (h : IsFatChain dm fat (c :: l)) : IsFatChain dm fat l where
  valid d hd := h.valid d (List.mem_cons_of_mem c hd)
  link := h.link.tail
  last d hd := by
    cases l with
    | nil => cases hd
    | cons e l => exact h.last d (by rwa [List.getLast?_cons_cons])
  nodup := h.nodup.of_cons

lemma ne_zero (h : IsFatChain dm fat l) (hc : c ∈ l) : fat c ≠ 0 := by
  induction l with
  | nil => cases hc
  | cons d l ih =>
    rcases mem_cons.mp hc with rfl | hc
    · cases l with
      | nil =>
        intro hzero
        have heoc := h.last c rfl
        rw [hzero, eoc_zero] at heoc
        cases heoc
      | cons e l =>
        have hlink : fat c = e := (List.isChain_cons_cons.mp h.link).1
        have := two_le_of_valid (h.valid e (by simp))
        omega
    · exact ih h.tail hc

lemma length_lt (h : IsFatChain dm fat l) (hdm : Sane dm) : l.length < dm.fatMaxTerms := by
  have hsub : 0 :: l ⊆ List.range dm.fatMaxTerms := by
    intro d hd
    rcases mem_cons.mp hd with rfl | hd
    · exact List.mem_range.mpr (by have := hdm.terms; omega)
    · exact List.mem_range.mpr (lt_of_valid (h.valid d hd))
  have hnd : (0 :: l).Nodup := nodup_cons.mpr ⟨fun h0 => by
    have := two_le_of_valid (h.valid 0 h0)
    omega, h.nodup⟩
  have := List.Nodup.length_le_of_subset hnd hsub
  simp only [length_cons, List.length_range] at this
  omega

lemma not_eoc (h : IsFatChain dm fat (c :: d :: l)) (hdm : Sane dm) : fat c = d ∧ fatIsEoc dm.type d = false :=
  ⟨(List.isChain_cons_cons.mp h.link).1, hdm.below d (h.valid d (by simp))⟩

lemma drop (h : IsFatChain dm fat (a ++ l)) : IsFatChain dm fat l := by
  induction a with
  | nil => exact h
  | cons c a ih => exact ih h.tail

lemma chainLength (h : IsFatChain dm fat (c :: l)) (hdm : Sane dm) :
    fatChainLength dm fat c = some (l.length + 1) := by
  have hloop : ∀ n count, l.length < n → count + l.length ≤ dm.fatMaxTerms →
      chainLoop dm fat n c count = some (count + l.length) := by
    induction l generalizing c with
    | nil =>
      intro n count hn _
      obtain ⟨n, rfl⟩ := Nat.exists_eq_add_of_le' hn
      have heoc := h.last c rfl
      simp [chainLoop, h.valid c (by simp), heoc]
    | cons d l ih =>
      intro n count hn hcnt
      obtain ⟨n, rfl⟩ := Nat.exists_eq_add_of_le' (Nat.one_le_of_lt hn)
      obtain ⟨hlink, heoc⟩ := h.not_eoc hdm
      simp only [length_cons] at hn hcnt
      simp only [chainLoop, h.valid c (by simp), hlink, heoc]
      rw [if_neg (by simp), if_neg (by simp), if_neg (by omega), ih h.tail n (count + 1) (by omega) (by omega)]
      simp only [length_cons]
      congr 1
      omega
  have hlt := h.length_lt hdm
  simp only [length_cons] at hlt
  rw [fatChainLength, hloop _ 1 (by omega) (by omega), Nat.add_comm]

lemma chainLast (h : IsFatChain dm fat (c :: l)) (hdm : Sane dm) :
    fatChainLast dm fat c = (c :: l).getLast? := by
  have hloop : ∀ n, l.length < n → lastLoop dm fat n c = (c :: l).getLast? := by
    induction l generalizing c with
    | nil =>
      intro n hn
      obtain ⟨n, rfl⟩ := Nat.exists_eq_add_of_le' hn
      have heoc := h.last c rfl
      simp [lastLoop, h.valid c (by simp), heoc]
    | cons d l ih =>
      intro n hn
      obtain ⟨n, rfl⟩ := Nat.exists_eq_add_of_le' (Nat.one_le_of_lt hn)
      obtain ⟨hlink, heoc⟩ := h.not_eoc hdm
      simp only [length_cons] at hn
      simp only [lastLoop, h.valid c (by simp), hlink, heoc]
      rw [if_neg (by simp), if_neg (by simp), ih h.tail n (by omega), List.getLast?_cons_cons]
  have hlt := h.length_lt hdm
  simp only [length_cons] at hlt
  exact hloop _ (by omega)

lemma walk (h : IsFatChain dm fat (c :: l)) (hdm : Sane dm) (n : ℕ) : walkLinks dm fat n c = (c :: l)[n]? := by
  induction n generalizing c l with
  | zero => simp [walkLinks, h.valid c (by simp)]
  | succ n ih =>
    cases l with
    | nil =>
      have heoc := h.last c rfl
      simp [walkLinks, heoc]
    | cons d l =>
      obtain ⟨hlink, heoc⟩ := h.not_eoc hdm
      rw [walkLinks, h.valid c (by simp), hlink, heoc, if_neg (by simp), ih h.tail, List.getElem?_cons_succ]

lemma congr (h : IsFatChain dm fat l) (hfat : ∀ c ∈ l, fat' c = fat c) : IsFatChain dm fat' l where
  valid := h.valid
  link := by
    refine List.IsChain.imp_of_mem_imp ?_ h.link
    intro c d hc _ hlink
    rw [hfat c hc, hlink]
  last c hc := by
    rw [hfat c (List.mem_of_getLast? hc)]
    exact h.last c hc
  nodup := h.nodup

end IsFatChain

/-! ### A chain changes -/

section

variable {ι : Type*} [DecidableEq ι] {chains : ι → List ℕ} {f : ι}

/-- **A file gets another chain**: of its own clusters and free ones, while the entries of the other chains stay. -/
lemma WellFormed.replace (h : WellFormed dm fat chains) (hl : IsFatChain dm fat' l)
    (hown : ∀ c ∈ l, c ∈ chains f ∨ fat c = 0) (hoth : ∀ g, g ≠ f → ∀ c ∈ chains g, fat' c = fat c)
    (hused : ∀ c, fat' c ≠ 0 → c ∈ l ∨ (fat' c = fat c ∧ c ∉ chains f)) :
    WellFormed dm fat' (update chains f l) where
  isChain g := by
    by_cases hg : g = f
    · rwa [hg, update_self]
    · rw [update_of_ne hg]
      exact (h.isChain g).congr (hoth g hg)
  disjoint := by
    have hapar : ∀ g, g ≠ f → ∀ c ∈ l, c ∉ chains g := by
      intro g hg c hc hcg
      rcases hown c hc with hcf | hzero
      · exact hg (h.disjoint g f c hcg hcf)
      · exact (h.isChain g).ne_zero hcg hzero
    intro g₁ g₂ c h₁ h₂
    by_cases hg₁ : g₁ = f <;> by_cases hg₂ : g₂ = f
    · rw [hg₁, hg₂]
    · rw [hg₁, update_self] at h₁
      rw [update_of_ne hg₂] at h₂
      exact absurd h₂ (hapar g₂ hg₂ c h₁)
    · rw [update_of_ne hg₁] at h₁
      rw [hg₂, update_self] at h₂
      exact absurd h₁ (hapar g₁ hg₁ c h₂)
    · rw [update_of_ne hg₁] at h₁
      rw [update_of_ne hg₂] at h₂
      exact h.disjoint g₁ g₂ c h₁ h₂
  used c hc hne := by
    rcases hused c hne with hl | ⟨hsame, hnot⟩
    · exact .inl ⟨f, by rwa [update_self]⟩
    · rw [hsame] at hne ⊢
      refine (h.used c hc hne).imp_left fun ⟨g, hg⟩ => ⟨g, ?_⟩
      have hgf : g ≠ f := by
        rintro rfl
        exact hnot hg
      rwa [update_of_ne hgf]

lemma WellFormed.push_first (h : WellFormed dm fat chains) (hf : chains f = []) (hzero : fat c = 0)
    (hc : fatDataClusterValid dm c = true) :
    WellFormed dm (update fat c (fatEocMarker dm.type)) (update chains f [c]) := by
  refine h.replace ⟨by simpa using hc, List.isChain_singleton c, ?_, List.nodup_singleton c⟩ (by simp [hzero]) ?_ ?_
  · simp [eoc_marker]
  · intro g _ d hd
    refine update_of_ne ?_ _ _
    rintro rfl
    exact (h.isChain g).ne_zero hd hzero
  · intro d hd
    by_cases hdc : d = c
    · exact .inl (by simp [hdc])
    · exact .inr ⟨update_of_ne hdc _ _, by simp [hf]⟩

lemma WellFormed.push (h : WellFormed dm fat chains) (hf : chains f = a ++ [d]) (hzero : fat c = 0)
    (hc : fatDataClusterValid dm c = true) :
    WellFormed dm (update (update fat d c) c (fatEocMarker dm.type))
      (update chains f (a ++ [d] ++ [c])) := by
  have hl := h.isChain f
  rw [hf] at hl
  have hdc : d ≠ c := by
    rintro rfl
    exact hl.ne_zero (by simp) hzero
  have hca : c ∉ a ++ [d] := fun hmem => hl.ne_zero hmem hzero
  have hda : d ∉ a := fun hmem => (nodup_append.mp hl.nodup).2.2 d hmem d (by simp) rfl
  have hsame : ∀ x, x ≠ c → x ≠ d → update (update fat d c) c (fatEocMarker dm.type) x = fat x :=
    fun x hxc hxd => by rw [update_of_ne hxc, update_of_ne hxd]
  have hd : update (update fat d c) c (fatEocMarker dm.type) d = c := by
    rw [update_of_ne hdc, update_self]
  refine h.replace ⟨?_, ?_, ?_, ?_⟩ ?_ ?_ ?_
  · intro x hx
    rcases mem_append.mp hx with hx | hx
    · exact hl.valid x hx
    · rw [mem_singleton.mp hx]
      exact hc
  · rw [List.append_assoc, isChain_append]
    obtain ⟨ha, -, hlink⟩ := isChain_append.mp hl.link
    refine ⟨List.IsChain.imp_of_mem_imp (fun x y hx _ hxy => ?_) ha, ?_, fun x hx y hy => ?_⟩
    · rw [hsame x (fun hxc => hca (by simp [← hxc, hx])) fun hxd => hda (hxd ▸ hx)]
      exact hxy
    · exact List.isChain_pair.mpr hd
    · have hxa := List.mem_of_getLast? hx
      rw [hsame x (fun hxc => hca (by simp [← hxc, hxa])) fun hxd => hda (hxd ▸ hxa)]
      exact hlink x hx y (by simpa using hy)
  · intro x hx
    simp only [List.getLast?_append, List.getLast?_singleton, Option.some_or, Option.mem_def, Option.some.injEq] at hx
    rw [← hx, update_self]
    exact eoc_marker dm.type
  · exact nodup_append.mpr ⟨hl.nodup, List.nodup_singleton c, fun x hx y hy hxy =>
      hca (by rw [← mem_singleton.mp hy, ← hxy]; exact hx)⟩
  · intro x hx
    rcases mem_append.mp hx with hx | hx
    · exact .inl (hf ▸ hx)
    · exact .inr (by rw [mem_singleton.mp hx, hzero])
  · intro g hg x hx
    refine hsame x ?_ ?_
    · rintro rfl
      exact (h.isChain g).ne_zero hx hzero
    · rintro rfl
      exact hg (h.disjoint g f x hx (by simp [hf]))
  · intro x _
    by_cases hx : x ∈ a ++ [d] ++ [c]
    · exact .inl hx
    · simp only [mem_append, mem_singleton, not_or] at hx
      exact .inr ⟨hsame x hx.2 hx.1.2, by simp [hf, hx.1.1, hx.1.2]⟩

/-- **The clusters are linked after the last one of the file.** -/
lemma linkClusters_spec {clear : Bool} {allocated : List ℕ} (h : WellFormed dm s.fat chains) (hf : chains f = a ++ [d])
    (hfree : ∀ c ∈ allocated, s.fat c = 0 ∧ fatDataClusterValid dm c = true) (hnd : allocated.Nodup) :
    WellFormed dm (linkClusters dm clear s d allocated).fat (update chains f (a ++ [d] ++ allocated)) := by
  induction allocated generalizing s chains a d with
  | nil => rwa [List.append_nil, ← hf, Function.update_eq_self]
  | cons c allocated ih =>
    obtain ⟨hzero, hc⟩ := hfree c List.mem_cons_self
    have hdfr : s.fat d ≠ 0 := (h.isChain f).ne_zero (by simp [hf])
    have hpush := h.push hf hzero hc
    rw [linkClusters]
    generalize hs₁ : (if clear = true then _ else _ : FatState) = s₁
    have hfat : s₁.fat = update (update s.fat d c) c (fatEocMarker dm.type) := by
      rw [← hs₁]
      split <;> rfl
    have hrest := ih (hfat ▸ hpush) (update_self f (a ++ [d] ++ [c]) chains) (fun x hx => ?_)
      (nodup_cons.mp hnd).2
    · rw [Function.update_idem] at hrest
      simpa using hrest
    · obtain ⟨hxzer, hxval⟩ := hfree x (List.mem_cons_of_mem c hx)
      have hxc : x ≠ c := fun hxc => (nodup_cons.mp hnd).1 (hxc ▸ hx)
      have hxd : x ≠ d := fun hxd => hdfr (hxd ▸ hxzer)
      exact ⟨by rw [hfat, update_of_ne hxc, update_of_ne hxd, hxzer], hxval⟩

/-! ### `fat_ensure_clusters` -/

/-- How many rounds the scan takes from `c` to `d` -/
def scanDistance (dm : FatCache) (c d : ℕ) : ℕ := if c < d then d - c else d + (dm.fatMaxTerms - 2) - c

lemma scanFree_within (hc : 2 ≤ c) (hcm : c < dm.fatMaxTerms) (hn : n ≤ dm.fatMaxTerms - 2)
    (hd : d ∈ scanFree dm fat n c m) :
    scanDistance dm c d ≤ n := by
  induction n generalizing c m with
  | zero => simp [scanFree] at hd
  | succ n ih =>
    cases m with
    | zero => simp [scanFree] at hd
    | succ m =>
      rw [scanFree] at hd
      obtain ⟨e, he⟩ : ∃ e, e = if dm.fatMaxTerms ≤ c + 1 then 2 else c + 1 := ⟨_, rfl⟩
      rw [← he] at hd
      have hrng : 2 ≤ e ∧ e < dm.fatMaxTerms := by split at he <;> omega
      have hcas : d = e ∨ scanDistance dm e d ≤ n := by
        split at hd
        · rcases mem_cons.mp hd with hde | hd
          · exact .inl hde
          · exact .inr (ih hrng.1 hrng.2 (by omega) hd)
        · exact .inr (ih hrng.1 hrng.2 (by omega) hd)
      unfold scanDistance at hcas ⊢
      split at he <;> split at hcas <;> split <;> omega

lemma scanFree_nodup (hc : 2 ≤ c) (hcm : c < dm.fatMaxTerms) (hn : n ≤ dm.fatMaxTerms - 2) :
    (scanFree dm fat n c m).Nodup := by
  induction n generalizing c m with
  | zero => simp [scanFree]
  | succ n ih =>
    cases m with
    | zero => simp [scanFree]
    | succ m =>
      rw [scanFree]
      obtain ⟨e, he⟩ : ∃ e, e = if dm.fatMaxTerms ≤ c + 1 then 2 else c + 1 := ⟨_, rfl⟩
      rw [← he]
      have hrng : 2 ≤ e ∧ e < dm.fatMaxTerms := by split at he <;> omega
      have hrest {m : ℕ} := ih (m := m) hrng.1 hrng.2 (by omega)
      split
      · refine nodup_cons.mpr ⟨fun hmem => ?_, hrest⟩
        have hdist := scanFree_within hrng.1 hrng.2 (by omega) hmem
        unfold scanDistance at hdist
        split at hdist <;> omega
      · exact hrest

lemma saveRuns_kept {allocated : List ℕ} {first changed : ℕ} :
    (saveRuns dm s first changed allocated).fat = s.fat ∧ (saveRuns dm s first changed allocated).data = s.data := by
  induction allocated generalizing s first changed with
  | nil => exact fileSavefat_fat s first changed
  | cons c allocated ih =>
    rw [saveRuns]
    split
    · exact ih
    · have hsv := @fileSavefat_fat dm s first changed
      exact ⟨ih.1.trans hsv.1, ih.2.trans hsv.2⟩

lemma linkClusters_data {allocated : List ℕ} : (linkClusters dm false s d allocated).data = s.data := by
  induction allocated generalizing s d with
  | nil => rfl
  | cons c allocated ih => exact ih

/-- **`fat_ensure_clusters` makes the chain of a file as long as required, or fails and changes nothing.** -/
lemma fatEnsureClusters_spec (hdm : Sane dm) (h : WellFormed dm s.fat chains) (hf : chains f = c :: l) (mem : EnsureMemory)
    {required : ℕ} (hreq : l.length + 1 < required) :
    fatEnsureClusters dm mem s c required false = (s, false) ∨
      ∃ s' allocated, fatEnsureClusters dm mem s c required false = (s', true) ∧ s'.data = s.data ∧
        (c :: l ++ allocated).length = required ∧
        WellFormed dm s'.fat (update chains f (c :: l ++ allocated)) := by
  have hl := hf ▸ h.isChain f
  obtain ⟨a, d, had⟩ : ∃ a d, c :: l = a ++ [d] := ⟨_, _, (List.dropLast_append_getLast (List.cons_ne_nil c l)).symm⟩
  have hd : fatDataClusterValid dm d = true := hl.valid d (by simp [had])
  have hlast : fatChainLast dm s.fat c = some d := by rw [hl.chainLast hdm, had, List.getLast?_concat]
  unfold fatEnsureClusters
  rw [hl.chainLength hdm, hlast]
  dsimp only
  rw [if_neg (by omega)]
  split
  · exact .inl rfl
  split
  · exact .inl rfl
  split
  · exact .inl rfl
  next hlen =>
  rw [if_neg (by simp)]
  rw [not_not] at hlen
  refine .inr ⟨_, scanFree dm s.fat (dm.fatMaxTerms - 2) d (required - (l.length + 1)), rfl,
    saveRuns_kept.2.trans linkClusters_data, ?_, ?_⟩
  · rw [List.length_append, length_cons, hlen]
    omega
  · rw [saveRuns_kept.1, had]
    exact linkClusters_spec h (hf.trans had) (fun x hx => valid_of_scan hx)
      (scanFree_nodup (two_le_of_valid hd) (lt_of_valid hd) le_rfl)

/-! ### Freeing the end of a chain -/

lemma freeTail_spec (hdm : Sane dm) (h : IsFatChain dm s.fat (c :: l)) (hn : l.length + 1 ≤ n) :
    ∃ v, fatIsEoc dm.type v = true ∧
      freeTail dm n s c = ({ s with fat := fun x => if x ∈ c :: l then 0 else s.fat x }, v) := by
  induction l generalizing s c n with
  | nil =>
    obtain ⟨n, rfl⟩ := Nat.exists_eq_add_of_le' (Nat.one_le_of_lt hn)
    have heoc := h.last c rfl
    have hnot := hdm.below c (h.valid c (by simp))
    have hfat : (s.setFat c 0).fat = fun x => if x ∈ [c] then 0 else s.fat x := by
      funext x
      simp only [FatState.setFat, update_apply, mem_singleton]
    have hstop : freeTail dm n (s.setFat c 0) (s.fat c) = (s.setFat c 0, s.fat c) := by
      cases n with
      | zero => rfl
      | succ n => rw [freeTail, if_pos heoc]
    refine ⟨s.fat c, heoc, ?_⟩
    rw [freeTail, if_neg (by simp [hnot]), hstop, ← hfat]
    rfl
  | cons d l ih =>
    obtain ⟨n, rfl⟩ := Nat.exists_eq_add_of_le' (Nat.one_le_of_lt hn)
    obtain ⟨hlink, -⟩ := h.not_eoc hdm
    have hnot := hdm.below c (h.valid c (by simp))
    have hcd : c ∉ d :: l := (nodup_cons.mp h.nodup).1
    have hrest : IsFatChain dm (s.setFat c 0).fat (d :: l) := h.tail.congr fun x hx =>
      update_of_ne (by rintro rfl; exact hcd hx) _ _
    obtain ⟨v, hv, hfree⟩ := ih hrest (n := n) (by simpa using hn)
    refine ⟨v, hv, ?_⟩
    rw [freeTail, if_neg (by simp [hnot]), hlink, hfree]
    congr 2
    funext x
    simp only [FatState.setFat, update_apply, mem_cons]
    by_cases hxc : x = c
    · simp [hxc]
    · simp [hxc]

lemma fatCut_spec (hdm : Sane dm) (hok : CursorOk dm s) (h : WellFormed dm s.fat chains) (hf : chains f = c :: l)
    {required : ℕ} (hpos : 0 < required) (hlt : required < l.length + 1) :
    ∃ s', fatCut dm s c required = (s', true) ∧ s'.data = s.data ∧
      WellFormed dm s'.fat (update chains f ((c :: l).take required)) := by
  have hl := hf ▸ h.isChain f
  have hlen := hl.length_lt hdm
  rw [length_cons] at hlen
  -- the last cluster that stays, and the first one that goes
  obtain ⟨a, last, current, b, hspl, ha⟩ : ∃ a last current b, c :: l = a ++ [last] ++ current :: b ∧
      a.length + 1 = required := by
    have hlast : required - 1 < (c :: l).length := by
      rw [length_cons]
      omega
    have hcur : required < (c :: l).length := by rwa [length_cons]
    refine ⟨(c :: l).take (required - 1), (c :: l)[required - 1], (c :: l)[required], (c :: l).drop (required + 1), ?_, ?_⟩
    · rw [← List.drop_eq_getElem_cons, List.take_append_getElem, Nat.sub_add_cancel hpos, List.take_append_drop]
    · rw [List.length_take, length_cons]
      omega
  have htake : (c :: l).take required = a ++ [last] := by
    rw [hspl, List.take_left' (by simpa using ha)]
  have hlook : (fatClusterAt dm s c (required - 1)).2 = some last := by
    rw [clusterAt_eq hok (by have := two_le_of_valid (hl.valid c (by simp)); omega), plainClusterAt, if_neg (by omega),
      hl.walk hdm, hspl, ← ha, Nat.add_sub_cancel, List.append_assoc, List.getElem?_append_right le_rfl, Nat.sub_self]
    rfl
  have hkept := clusterAt_fat dm s c (required - 1)
  rcases hfnd : fatClusterAt dm s c (required - 1) with ⟨s₁, found⟩
  rw [hfnd] at hlook hkept
  dsimp only at hlook hkept
  subst hlook
  rw [hspl] at hl
  have hnd := nodup_append.mp hl.nodup
  have hlast_b : last ∉ current :: b := fun hmem => hnd.2.2 last (by simp) last hmem rfl
  have hlink : s₁.fat last = current := by
    rw [hkept.1]
    exact (isChain_append.mp hl.link).2.2 last (by simp) current rfl
  have htail : IsFatChain dm (s₁.setFat last (fatEocMarker dm.type)).fat (current :: b) := by
    refine hl.drop.congr fun x hx => ?_
    rw [FatState.setFat, hkept.1]
    exact update_of_ne (by rintro rfl; exact hlast_b hx) _ _
  have hb : b.length + 1 ≤ dm.fatMaxTerms := by
    have := congrArg List.length hspl
    simp only [List.length_append, length_cons, List.length_nil] at this
    omega
  obtain ⟨v, hv, hfree⟩ := freeTail_spec hdm htail hb
  have hinv : ¬fatDataClusterValid dm v = true := fun hval => by
    rw [hdm.below v hval] at hv
    cases hv
  unfold fatCut
  rw [hfnd]
  dsimp only
  rw [hlink, hfree]
  dsimp only
  rw [if_neg hinv]
  have hsv := @fileSavefat_fat dm
    { s₁.setFat last (fatEocMarker dm.type) with
      fat := fun x => if x ∈ current :: b then 0 else (s₁.setFat last (fatEocMarker dm.type)).fat x } 0 dm.fatMaxTerms
  refine ⟨_, rfl, hsv.2.trans hkept.2, ?_⟩
  rw [hsv.1, htake]
  dsimp only
  -- what the entries are afterwards
  have hent : ∀ x, x ∉ current :: b → x ≠ last →
      (if x ∈ current :: b then 0 else (s₁.setFat last (fatEocMarker dm.type)).fat x) = s.fat x := by
    intro x hx hxlas
    rw [if_neg hx, FatState.setFat, hkept.1]
    exact update_of_ne hxlas _ _
  have hend : (if last ∈ current :: b then 0 else (s₁.setFat last (fatEocMarker dm.type)).fat last) =
      fatEocMarker dm.type := by
    rw [if_neg hlast_b]
    exact update_self ..
  have hf' : chains f = a ++ [last] ++ current :: b := hf.trans hspl
  have happ : ∀ x ∈ a, x ∉ current :: b ∧ x ≠ last := by
    intro x hx
    refine ⟨fun hmem => hnd.2.2 x (by simp [hx]) x hmem rfl, ?_⟩
    rintro rfl
    exact (nodup_append.mp hnd.1).2.2 x hx x (by simp) rfl
  refine h.replace ⟨fun x hx => hl.valid x (List.mem_append_left _ hx), ?_, ?_, hnd.1⟩ ?_ ?_ ?_
  · obtain ⟨hal, -, -⟩ := isChain_append.mp hl.link
    obtain ⟨hch, -, hjoin⟩ := isChain_append.mp hal
    refine isChain_append.mpr ⟨List.IsChain.imp_of_mem_imp (fun x y hx _ hxy => ?_) hch,
      List.isChain_singleton last, fun x hx y hy => ?_⟩
    · rw [hent x (happ x hx).1 (happ x hx).2]
      exact hxy
    · have hxa := List.mem_of_getLast? hx
      rw [hent x (happ x hxa).1 (happ x hxa).2]
      exact hjoin x hx y hy
  · intro x hx
    simp only [List.getLast?_append, List.getLast?_singleton, Option.some_or, Option.mem_def, Option.some.injEq] at hx
    rw [← hx, hend]
    exact eoc_marker dm.type
  · exact fun x hx => .inl (hf' ▸ List.mem_append_left _ hx)
  · intro g hg x hx
    have hnot : x ∉ chains f := fun hxf => hg (h.disjoint g f x hx hxf)
    rw [hf'] at hnot
    simp only [mem_append, mem_singleton, not_or] at hnot
    exact hent x hnot.2 hnot.1.2
  · intro x hne
    by_cases hxb : x ∈ current :: b
    · rw [if_pos hxb] at hne
      exact absurd rfl hne
    by_cases hxa : x ∈ a ++ [last]
    · exact .inl hxa
    · refine .inr ⟨hent x hxb fun hxlas => hxa (by simp [hxlas]), ?_⟩
      rw [hf', mem_append, not_or]
      exact ⟨hxa, hxb⟩

end

end PlantOS.Fat
