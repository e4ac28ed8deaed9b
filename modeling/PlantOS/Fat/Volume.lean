import Mathlib.Tactic.Positivity
import Mathlib.Tactic.Ring
import PlantOS.Fat.Name
import PlantOS.Lib.Settling
import PlantOS.Lib.WorkList

/-!
# A mounted FAT volume

The geometry that `fat_init_fs` takes from the boot sector, the file allocation table that `read_fat`
decodes, and the chains of clusters.
-/

namespace PlantOS.Fat

/-- A disk of `size` bytes. -/
structure Disk where
  size : ℕ
  byte : ℕ → UInt8

/-- What `disk_read` of `number` sectors from `lba` on leaves in the buffer: zeros if it fails. -/
def Disk.read (disk : Disk) (lba number i : ℕ) : UInt8 :=
  if lba + number ≤ disk.size / 512 ∧ i < number * 512 then disk.byte (lba * 512 + i) else 0

/-- The types of file systems, by the width of an entry. -/
inductive FatType
  | fat12 | fat16 | fat32
  deriving DecidableEq, Repr

def FatType.bits : FatType → ℕ
  | .fat12 => 12
  | .fat16 => 16
  | .fat32 => 32

/-- `struct FAT_CACHE` and the rest of `fat_state_t`, as far as they describe the volume -/
structure FatCache where
  type : FatType
  sectorBytes : ℕ
  rootMaxFiles : ℕ
  rootCluster : ℕ
  clustnoBytes : ℕ
  fat1Address : ℕ
  fat2Address : ℕ
  fileDataAddress : ℕ
  rootDictAddress : ℕ
  imgTotalSize : ℕ
  fatMaxTerms : ℕ
  deriving DecidableEq, Repr

/-! ### The boot sector -/

def intMax : ℕ := 2147483647
def uintMax : ℕ := 4294967295
def ushrtMax : ℕ := 65535

section

variable (boot : ℕ → UInt8)

def readU16 (offset : ℕ) : ℕ := (boot offset).toNat ||| (boot (offset + 1)).toNat <<< 8

def readU32 (offset : ℕ) : ℕ :=
  (boot offset).toNat ||| (boot (offset + 1)).toNat <<< 8 ||| (boot (offset + 2)).toNat <<< 16 |||
    (boot (offset + 3)).toNat <<< 24

/-- The bytes from `offset` on are the text. -/
def bytesAt (offset : ℕ) (text : List UInt8) : Bool :=
  (List.range text.length).all fun i => boot (offset + i) = text.getD i 0

/-- `BS_FileSysType`: `FAT12`, `FAT16` or, in the extended boot sector, `FAT32` -/
def bootType : Option FatType :=
  if bytesAt boot 54 [70, 65, 84, 49, 50, 32, 32, 32] then some .fat12
  else if bytesAt boot 54 [70, 65, 84, 49, 54, 32, 32, 32] then some .fat16
  else if bytesAt boot 82 [70, 65, 84, 51, 50, 32, 32, 32] then some .fat32
  else none

/-- The part of `fat_init_fs` that reads the boot sector of a disk with so many bytes. -/
def bootGeometry (diskSize : ℕ) : Option FatCache :=
  match bootType boot with
  | none => none
  | some type =>
    let sectorBytes := readU16 boot 11
    let sectorsPerCluster := (boot 13).toNat
    let reserved := readU16 boot 14
    let numFats := (boot 16).toNat
    let rootMaxFiles := readU16 boot 17
    let rootCluster := readU32 boot 44
    if sectorBytes ≠ 512 ∨ sectorsPerCluster = 0 ∨ sectorsPerCluster &&& (sectorsPerCluster - 1) ≠ 0 ∨
        numFats = 0 then none
    else
      let fatSectors := if type = .fat32 then readU32 boot 36 else readU16 boot 22
      let totalSectors := if readU16 boot 19 ≠ 0 then readU16 boot 19 else readU32 boot 32
      let rootDirectorySectors := (rootMaxFiles * 32 + sectorBytes - 1) / sectorBytes
      let clusterBytes := sectorBytes * sectorsPerCluster
      let rootDirectorySector := reserved + numFats * fatSectors
      let firstDataSector := rootDirectorySector + rootDirectorySectors
      if fatSectors = 0 ∨ totalSectors = 0 ∨ clusterBytes = 0 ∨ firstDataSector ≥ totalSectors ∨
          (type = .fat32 ∧ rootCluster < 2) then none
      else
        let rootSector :=
          if type = .fat32 then firstDataSector + (rootCluster - 2) * sectorsPerCluster else rootDirectorySector
        let rootEntries := if type = .fat32 then clusterBytes / 32 else rootMaxFiles
        let fat1Address := reserved * sectorBytes
        let fat2Address := (reserved + fatSectors) * sectorBytes
        let fileDataAddress := firstDataSector * sectorBytes
        let rootAddress := rootSector * sectorBytes
        let fatTerms := fatSectors * sectorBytes * 8 / type.bits
        let cacheSize := if type = .fat32 then fileDataAddress else rootAddress + rootEntries * 32
        let cacheSectors := (cacheSize + sectorBytes - 1) / sectorBytes
        if totalSectors * sectorBytes > diskSize then none
        else if rootSector ≥ totalSectors ∨
            (type = .fat32 ∧ rootSector + sectorsPerCluster > totalSectors) ∨ rootEntries = 0 ∨
            rootEntries > ushrtMax ∨ fat1Address > uintMax ∨ fat2Address > uintMax ∨
            fileDataAddress > uintMax ∨ fatTerms = 0 ∨ fatTerms > intMax / 4 ∨
            cacheSectors * sectorBytes > intMax then none
        else
          some
            { type := type
              sectorBytes := sectorBytes
              rootMaxFiles := rootEntries
              rootCluster := rootCluster
              clustnoBytes := clusterBytes
              fat1Address := fat1Address
              fat2Address := fat2Address
              fileDataAddress := fileDataAddress
              rootDictAddress := rootAddress
              imgTotalSize := totalSectors * sectorBytes
              fatMaxTerms := fatTerms }

end

/-! ### The file allocation table -/

def fatIsEoc (type : FatType) (value : ℕ) : Bool :=
  match type with
  | .fat12 => value &&& 0xfff ≥ 0xff8
  | .fat16 => value &&& 0xffff ≥ 0xfff8
  | .fat32 => value &&& 0xfffffff ≥ 0xffffff8

def fatIsReservedMarker (type : FatType) (value : ℕ) : Bool :=
  match type with
  | .fat12 => 0xff0 ≤ value ∧ value < 0xff8
  | .fat16 => 0xfff0 ≤ value ∧ value < 0xfff8
  | .fat32 => 0xffffff0 ≤ value ∧ value < 0xffffff8

/-- The entry number `i` of a table: the body of the loop of `read_fat`. -/
def fatEntry (type : FatType) (img : ℕ → UInt8) (i : ℕ) : ℕ :=
  match type with
  | .fat12 =>
    let offset := i + i / 2
    (if i % 2 = 1 then (img offset).toNat >>> 4 ||| (img (offset + 1)).toNat <<< 4
      else (img offset).toNat ||| (img (offset + 1)).toNat <<< 8) &&& 0xfff
  | .fat16 => readU16 img (i * 2)
  | .fat32 => readU32 img (i * 4) &&& 0xfffffff

/-- The last byte of the entry number `i`. -/
def fatEntryLast (type : FatType) (i : ℕ) : ℕ :=
  match type with
  | .fat12 => i + i / 2 + 1
  | .fat16 => i * 2 + 1
  | .fat32 => i * 4 + 3

/-- `read_fat`: the table, if every entry is inside the image and free, an end mark, a reserved mark or a
cluster number. -/
def readFat (img : ℕ → UInt8) (size count : ℕ) (type : FatType) : Option (ℕ → ℕ) :=
  if count < 2 then none
  else if (List.range count).all fun i =>
      let value := fatEntry type img i
      fatEntryLast type i < size &&
        (value = 0 || fatIsEoc type value || fatIsReservedMarker type value || (2 ≤ value && value < count)) then
    some (fatEntry type img)
  else none

def fatDataClusterValid (dm : FatCache) (cluster : ℕ) : Bool :=
  2 ≤ cluster && cluster < dm.fatMaxTerms && dm.sectorBytes = 512 && dm.clustnoBytes ≠ 0 &&
    dm.fileDataAddress + (cluster - 2) * dm.clustnoBytes + dm.clustnoBytes ≤ dm.imgTotalSize

/-- The loop of `fat_chain_length`, with `count` clusters passed. -/
def chainLoop (dm : FatCache) (fat : ℕ → ℕ) : ℕ → ℕ → ℕ → Option ℕ
  | 0, _, _ => none
  | fuel + 1, current, count =>
    if !fatDataClusterValid dm current then none
    else if fatIsEoc dm.type (fat current) then some count
    else if count ≥ dm.fatMaxTerms then none
    else chainLoop dm fat fuel (fat current) (count + 1)

def fatChainLength (dm : FatCache) (fat : ℕ → ℕ) (start : ℕ) : Option ℕ :=
  chainLoop dm fat dm.fatMaxTerms start 1

/-! ## Loading the directories of a volume -/

open Lib

structure Volume where
  disk : Disk
  dm : FatCache
  fat : ℕ → ℕ
  rootDirectory : List Slot

def slotsOf (bytes : ℕ → UInt8) (count : ℕ) : List Slot :=
  (List.range count).map fun i b => bytes (i * 32 + b)

def clusterSlots (disk : Disk) (dm : FatCache) (cluster : ℕ) : List Slot :=
  slotsOf (disk.read ((dm.fileDataAddress + (cluster - 2) * dm.clustnoBytes) / dm.sectorBytes)
    (dm.clustnoBytes / dm.sectorBytes)) (dm.clustnoBytes / 32)

/-- The slots in the first `count` clusters of a chain. -/
def chainSlots (disk : Disk) (dm : FatCache) (fat : ℕ → ℕ) (start count : ℕ) : List Slot :=
  (List.range count).flatMap fun l => clusterSlots disk dm (fat^[l] start)

/-- `fat_init_fs` up to the root directory -/
def readVolume (disk : Disk) : Option Volume :=
  (bootGeometry (disk.read 0 1) disk.size).bind fun dm =>
    let tableBytes :=
      (if dm.type = .fat32 then readU32 (disk.read 0 1) 36 else readU16 (disk.read 0 1) 22) * dm.sectorBytes
    let cache :=
      disk.read 0 (((if dm.type = .fat32 then dm.fileDataAddress else dm.rootDictAddress + dm.rootMaxFiles * 32) +
        dm.sectorBytes - 1) / dm.sectorBytes)
    (readFat (fun i => cache (dm.fat1Address + i)) tableBytes dm.fatMaxTerms dm.type).bind fun fat =>
      if dm.type = .fat32 then
        (fatChainLength dm fat dm.rootCluster).bind fun clusters =>
          if clusters * dm.clustnoBytes > intMax then none
          else
            some ⟨disk, { dm with rootMaxFiles := clusters * (dm.clustnoBytes / 32) }, fat,
              chainSlots disk dm fat dm.rootCluster clusters⟩
      else some ⟨disk, dm, fat, slotsOf (fun i => cache (dm.rootDictAddress + i)) dm.rootMaxFiles⟩

/-! ### Entries -/

/-- `get_clustno` of an entry -/
def slotCluster (entry : Slot) : ℕ := readU16 (fun i => if h : i < 32 then entry ⟨i, h⟩ else 0) 20 <<< 16 |||
  readU16 (fun i => if h : i < 32 then entry ⟨i, h⟩ else 0) 26

/-- The test for a directory in the loop over the root directory. -/
def isDirectory (entry : Slot) : Bool := entry 11 &&& 0x18 = 0x10 && entry 0 ≠ 0xe5

def isSubdirectory (entry : Slot) : Bool := isDirectory entry && entry 0 ≠ 46

/-- A slot of a directory: where an entry stands. -/
structure Place where
  slots : List Slot
  index : ℕ

def Place.entry (p : Place) : Slot := p.slots.getD p.index fun _ => 0

/-- The first cluster of the directory that the entry names. -/
def Place.cluster (p : Place) : ℕ := slotCluster p.entry

def endMark (slots : List Slot) : ℕ := (slots.takeWhile fun entry => entry 0 ≠ 0).length

def Place.BeforeEnd (p : Place) : Prop := p.index < endMark p.slots

/-- The entries that the loop over the slots follows. The loop tests for the end mark behind its body. -/
def followed (test : Slot → Bool) (slots : List Slot) : List Place :=
  ((List.range (min (endMark slots + 1) slots.length)).map (Place.mk slots)).filter fun p => test p.entry

namespace Volume

variable (v : Volume)

/-- The chain of the directory is sound, and `int` holds its length in bytes. -/
def loadable (p : Place) : Bool :=
  match fatChainLength v.dm v.fat p.cluster with
  | none => false
  | some k => !(k = 0 || v.dm.clustnoBytes > intMax / k)

def directorySlots (p : Place) : List Slot :=
  chainSlots v.disk v.dm v.fat p.cluster ((fatChainLength v.dm v.fat p.cluster).getD 0)

/-- The entries that are followed in the directory that the entry names. -/
def subdirectories (p : Place) : List Place := followed isSubdirectory (v.directorySlots p)

def rootDirectories : List Place := followed isDirectory v.rootDirectory

/-- The first clusters of the chains that are loaded: with FAT32 the root directory has one. -/
def chains (l : List Place) : List ℕ :=
  (if v.dm.type = .fat32 then [v.dm.rootCluster] else []) ++ l.map Place.cluster

def dataClusters : List ℕ := (List.range v.dm.fatMaxTerms).filter (fatDataClusterValid v.dm)

/-- The two loops of `fat_init_fs` that load directories; `memory n`: the allocations for the directory
number `n` succeed. -/
def loadDirectories (memory : ℕ → Bool) (fuel : ℕ) : Option (WorkList.Outcome Place) :=
  WorkList.run v.subdirectories (fun n p => v.loadable p && memory n) fuel v.rootDirectories

end Volume

/-- The allocations of `fat_init_fs` before it loads directories, and those for each directory. -/
structure MountMemory where
  base : Bool
  directory : ℕ → Bool

/-- `fat_init_fs`: the volume it has read, the directories that it has loaded and the entry that made it
give up; `none` if it has not ended. -/
def fatInitFs (disk : Disk) (memory : MountMemory) (fuel : ℕ) : Option (Option Volume × WorkList.Outcome Place) :=
  match readVolume disk with
  | none => some (none, ⟨[], none⟩)
  | some v => if !memory.base then some (none, ⟨[], none⟩) else (v.loadDirectories memory.directory fuel).map (some v, ·)

/-! ### Termination -/

/-- `fat_init_fs` ends; it loads no chain twice, allocates no more directories, with the root directory, than there are
clusters, and follows no entry at or behind an end mark. -/
def LoadsOnce (disk : Disk) : Prop :=
  ∀ memory, (∃ fuel result, fatInitFs disk memory fuel = some result) ∧
    ∀ fuel v o, fatInitFs disk memory fuel = some (some v, o) →
      ((v.chains o.collected).Nodup ∧ o.collected.length + 1 ≤ v.dataClusters.length) ∧
        ∀ p ∈ o.collected ++ o.refused.toList, p.BeforeEnd

/-- What `Tidy` asks of the entries: no two name one cluster, or that of the root directory; a root directory without a
cluster leaves one of the clusters to no entry. -/
def Volume.Apart (v : Volume) (l : List Place) : Prop :=
  (v.chains l).Nodup ∧ (v.dm.type ≠ .fat32 → l.length < v.dataClusters.length)

/-- Among the entries that lead from the root, level by level, up to the first one whose chain is not
sound, all are apart and none stands at an end mark. -/
def Tidy (disk : Disk) : Prop :=
  ∀ v, readVolume disk = some v → ∀ n,
    v.Apart (WorkList.visited v.subdirectories v.rootDirectories v.loadable n) ∧
      ∀ p ∈ WorkList.reached v.subdirectories v.rootDirectories v.loadable n, p.BeforeEnd

variable {v : Volume} {disk : Disk}

lemma valid_of_chain {start k : ℕ} (h : fatChainLength v.dm v.fat start = some k) : start ∈ v.dataClusters := by
  have hval : fatDataClusterValid v.dm start = true := by
    by_contra hnot
    unfold fatChainLength at h
    cases hter : v.dm.fatMaxTerms with
    | zero => simp [hter, chainLoop] at h
    | succ fuel => simp [hter, chainLoop, Bool.eq_false_iff.mpr hnot] at h
  refine List.mem_filter.mpr ⟨List.mem_range.mpr ?_, hval⟩
  unfold fatDataClusterValid at hval
  simp only [Bool.and_eq_true, decide_eq_true_eq] at hval
  exact hval.1.1.1.2

lemma valid_of_loadable {p : Place} (h : v.loadable p = true) : p.cluster ∈ v.dataClusters := by
  unfold Volume.loadable at h
  split at h
  · cases h
  · exact valid_of_chain ‹_›

/-- A FAT32 volume has read the chain of its root directory. -/
lemma rootCluster_valid (hread : readVolume disk = some v) (hfat : v.dm.type = .fat32) :
    v.dm.rootCluster ∈ v.dataClusters := by
  obtain ⟨dm, -, hread⟩ := Option.bind_eq_some_iff.mp hread
  obtain ⟨fat, -, hread⟩ := Option.bind_eq_some_iff.mp hread
  split_ifs at hread
  · obtain ⟨clusters, hclus, hread⟩ := Option.bind_eq_some_iff.mp hread
    split_ifs at hread
    cases hread
    exact valid_of_chain (v := ⟨disk, dm, fat, []⟩) hclus
  · cases hread
    exact absurd hfat ‹_›

lemma room_of_apart (hread : readVolume disk = some v) {l : List Place} (h : ∀ p ∈ l, v.loadable p = true)
    (hap : v.Apart l) : l.length + 1 ≤ v.dataClusters.length := by
  by_cases hfat : v.dm.type = .fat32
  · have hnd := hap.1
    unfold Volume.chains at hnd
    rw [if_pos hfat] at hnd
    have hlen := (hnd.subperm fun c (hc : c ∈ _) => (?_ : c ∈ v.dataClusters)).length_le
    · rwa [List.length_append, List.length_map, List.length_singleton, Nat.add_comm] at hlen
    · rcases List.mem_append.mp hc with hc | hc
      · rw [List.mem_singleton.mp hc]
        exact rootCluster_valid hread hfat
      · obtain ⟨p, hp, rfl⟩ := List.mem_map.mp hc
        exact valid_of_loadable (h p hp)
  · exact hap.2 hfat

lemma Volume.Apart.mono {l l' : List Place} (hpre : l <+: l') (h : v.Apart l') : v.Apart l :=
  ⟨h.1.sublist ((hpre.sublist.map _).append_left _), fun hfat => Nat.lt_of_le_of_lt hpre.length_le (h.2 hfat)⟩

lemma loadDirectories_iff (hread : readVolume disk = some v) :
    (∀ memory : ℕ → Bool, (∃ fuel o, v.loadDirectories memory fuel = some o) ∧
      ∀ fuel o, v.loadDirectories memory fuel = some o →
        v.Apart o.collected ∧ ∀ p ∈ o.collected ++ o.refused.toList, p.BeforeEnd) ↔
    ∀ n, v.Apart (WorkList.visited v.subdirectories v.rootDirectories v.loadable n) ∧
      ∀ p ∈ WorkList.reached v.subdirectories v.rootDirectories v.loadable n, p.BeforeEnd :=
  WorkList.run_tidy_iff (fun _ _ hpre hap => hap.mono hpre)
    fun _ hgood hap => Nat.le_of_succ_le (room_of_apart hread hgood hap)

lemma loadable_of_loaded {memory : ℕ → Bool} {fuel : ℕ} {o : WorkList.Outcome Place}
    (h : v.loadDirectories memory fuel = some o) : ∀ p ∈ o.collected, v.loadable p = true :=
  have hacc : ∀ n p, (v.loadable p && memory n) = true → v.loadable p = true :=
    fun _ _ hand => (Bool.and_eq_true_iff.mp hand).1
  (WorkList.run_ended hacc h).good

lemma fatInitFs_of_readVolume (hread : readVolume disk = some v) (memory : MountMemory) (fuel : ℕ) :
    fatInitFs disk memory fuel = if !memory.base then some (none, ⟨[], none⟩)
      else (v.loadDirectories memory.directory fuel).map (some v, ·) := by
  unfold fatInitFs
  rw [hread]

lemma LoadsOnce.tidy (h : LoadsOnce disk) : Tidy disk := by
  intro v hread
  refine (loadDirectories_iff hread).mp fun memory => ?_
  obtain ⟨⟨fuel, result, hends⟩, hall⟩ := h ⟨true, memory⟩
  simp only [fatInitFs_of_readVolume hread, Bool.not_true, Bool.false_eq_true, if_false,
    Option.map_eq_some_iff] at hends hall
  obtain ⟨o, ho, -⟩ := hends
  refine ⟨⟨fuel, o, ho⟩, fun fuel o ho => ?_⟩
  obtain ⟨⟨hnd, hlen⟩, hbef⟩ := hall fuel v o ⟨o, ho, rfl⟩
  exact ⟨⟨hnd, fun _ => hlen⟩, hbef⟩

lemma Tidy.loadsOnce (h : Tidy disk) : LoadsOnce disk := by
  intro memory
  cases hread : readVolume disk with
  | none => simp [fatInitFs, hread]
  | some v =>
    cases hbase : memory.base with
    | false => simp [fatInitFs, hread, hbase]
    | true =>
      obtain ⟨⟨fuel, o, hends⟩, hall⟩ := (loadDirectories_iff hread).mpr (h v hread) memory.directory
      simp only [fatInitFs_of_readVolume hread, hbase, Bool.not_true, Bool.false_eq_true, if_false,
        Option.map_eq_some_iff]
      refine ⟨⟨fuel, _, o, hends, rfl⟩, fun fuel v' o' hload => ?_⟩
      obtain ⟨_, ho, heq⟩ := hload
      cases heq
      obtain ⟨hap, hbef⟩ := hall fuel o' ho
      exact ⟨⟨hap.1, room_of_apart hread (loadable_of_loaded ho) hap⟩, hbef⟩

/-- **`fat_init_fs` ends and loads every directory at most once exactly if the directories are tidy.** -/
theorem loadsOnce_iff_tidy (disk : Disk) : LoadsOnce disk ↔ Tidy disk :=
  ⟨LoadsOnce.tidy, Tidy.loadsOnce⟩

/-- A FAT12 volume of 64 sectors; the root directory has one entry, the directory `D` in the cluster 2, and
the entry `E` of `D` names the cluster 2 again. -/
def loopedBytes : List (ℕ × UInt8) :=
  [(12, 2), (13, 1), (14, 1), (16, 2), (17, 16), (19, 64), (22, 1),
    (54, 70), (55, 65), (56, 84), (57, 49), (58, 50), (59, 32), (60, 32), (61, 32),
    (512, 0xf8), (513, 0xff), (514, 0xff), (515, 0xff), (516, 0x0f),
    (1536, 68), (1547, 0x10), (1562, 2),
    (2048, 46), (2059, 0x10), (2074, 2), (2080, 46), (2081, 46), (2091, 0x10),
    (2112, 69), (2123, 0x10), (2138, 2)]

def loopedDisk : Disk := ⟨64 * 512, fun i => (loopedBytes.lookup i).getD 0⟩

lemma loopedDisk_revisits : ∃ v, readVolume loopedDisk = some v ∧
    ¬((WorkList.visited v.subdirectories v.rootDirectories v.loadable 2).map Place.cluster).Nodup := by
  have h : (readVolume loopedDisk).map (fun v =>
      (WorkList.visited v.subdirectories v.rootDirectories v.loadable 2).map Place.cluster) = some [2, 2] := by
    decide +kernel
  obtain ⟨v, hread, hvis⟩ := Option.map_eq_some_iff.mp h
  refine ⟨v, hread, ?_⟩
  rw [hvis]
  decide

/-- A mount of the looped volume loads the cluster 2 again and again. -/
theorem loopedDisk_not_loadsOnce : ¬LoadsOnce loopedDisk := by
  intro h
  obtain ⟨v, hread, hrevisits⟩ := loopedDisk_revisits
  exact hrevisits (h.tidy v hread 2).1.1.of_append_right

/-! ## The layout of a new FAT volume -/

open PlantOS.Lib

def u32 (n : ℕ) : ℕ := n % 4294967296

lemma u32_of_lt {n : ℕ} (h : n < 4294967296) : u32 n = n := Nat.mod_eq_of_lt h

/-! ### The routine -/

/-- the type of file system for a disk of `disk_size` bytes -/
def FatType.ofSize (diskSize : ℕ) : FatType :=
  if diskSize ≤ 2097152 then .fat12 else if diskSize ≤ 2147483648 then .fat16 else .fat32

def reservedSectors : ℕ := 1
def fatCount : ℕ := 2

def FatType.rootEntries : FatType → ℕ
  | .fat32 => 0
  | _ => 224

def FatType.rootSectors (type : FatType) : ℕ := (type.rootEntries * 32 + 511) / 512

/-- The first cluster size tried is `1 <<< firstShift` sectors. -/
def FatType.firstShift : FatType → ℕ
  | .fat32 => 3
  | _ => 0

/-- the check `valid` of the number of clusters -/
def FatType.valid (type : FatType) (clusterCount : ℕ) : Prop :=
  match type with
  | .fat12 => clusterCount < 4085
  | .fat16 => 4085 ≤ clusterCount ∧ clusterCount < 65525
  | .fat32 => 65525 ≤ clusterCount ∧ clusterCount < 0x0ffffff5

instance (type : FatType) (n : ℕ) : Decidable (type.valid n) := by
  cases type <;> simp only [FatType.valid] <;> infer_instance

section

variable (type : FatType) (totalSectors sectorsPerCluster : ℕ)

def metadataSectors (fatSectors : ℕ) : ℕ := u32 (reservedSectors + fatCount * fatSectors + type.rootSectors)

def clusterCount (fatSectors : ℕ) : ℕ := (totalSectors - metadataSectors type fatSectors) / sectorsPerCluster

def fatBytes (clusterCount : ℕ) : ℕ :=
  match type with
  | .fat12 => u32 ((clusterCount + 2) * 3 + 1) / 2
  | _ => u32 ((clusterCount + 2) * (type.bits / 8))

def requiredSectors (clusterCount : ℕ) : ℕ := u32 (fatBytes type clusterCount + 511) / 512

/-- The inner loop, for `n` rounds at most: `fat_sectors` and `cluster_count` when it is left -/
def settleFat : ℕ → ℕ → ℕ → Option (ℕ × ℕ)
  | 0, _, _ => none
  | n + 1, fatSectors, clusters =>
    if totalSectors ≤ metadataSectors type fatSectors then some (fatSectors, clusters)
    else
      let clusters := clusterCount type totalSectors sectorsPerCluster fatSectors
      let required := requiredSectors type clusters
      if required = fatSectors then some (fatSectors, clusters) else settleFat n required clusters

end

structure Layout where
  sectorsPerCluster : ℕ
  fatSectors : ℕ
  clusterCount : ℕ
  deriving DecidableEq, Repr

/-- The loop over the cluster sizes, for `r` rounds of at most `n` rounds of the inner loop each -/
def searchLayout (type : FatType) (totalSectors n : ℕ) : ℕ → Layout → Option Layout
  | 0, _ => none
  | r + 1, l =>
    if 128 < l.sectorsPerCluster then some l
    else
      match settleFat type totalSectors l.sectorsPerCluster n 1 l.clusterCount with
      | none => none
      | some (fatSectors, clusters) =>
        if type.valid clusters then some ⟨l.sectorsPerCluster, fatSectors, clusters⟩
        else searchLayout type totalSectors n r ⟨l.sectorsPerCluster <<< 1, fatSectors, clusters⟩

/-- A drive as `format` finds it: `DiskReady`, `disk_Size`, and whether the boot sector for the type can be read from
its file into memory -/
structure Drive where
  ready : Bool
  diskSize : ℕ
  bootFile : FatType → Bool

def Drive.totalSectors (drive : Drive) : ℕ := drive.diskSize / 512

def Drive.type (drive : Drive) : FatType := .ofSize drive.diskSize

/-- `format` up to its first allocation for the tables: `none` while `n` rounds of each loop are not enough, and
`some none` where it returns 0 -/
def format (n : ℕ) (drive : Drive) : Option (Option Layout) :=
  if drive.ready = false then some none
  else if uintMax < drive.totalSectors then some none
  else if drive.totalSectors < 32 then some none
  else if drive.bootFile drive.type = false then some none
  else
    match searchLayout drive.type drive.totalSectors n n ⟨1 <<< drive.type.firstShift, 0, 0⟩ with
    | none => none
    | some l =>
      some (if 128 < l.sectorsPerCluster ∨ l.fatSectors = 0 ∨ (drive.type ≠ .fat32 ∧ ushrtMax < l.fatSectors)
        then none else some l)

/-! ### What the numbers mean -/

/-- the clusters that two tables of `k` sectors leave room for -/
def clustersBeside (type : FatType) (totalSectors sectorsPerCluster k : ℕ) : ℕ :=
  (totalSectors - (1 + 2 * k + type.rootSectors)) / sectorsPerCluster

/-- The bits of a table for `clusters` clusters: the first two entries stand for none. -/
def FatType.tableBits (type : FatType) (clusters : ℕ) : ℕ := (clusters + 2) * type.bits

/-- The sectors that a table of so many clusters takes, without overflow -/
def sectorsFor (type : FatType) (clusters : ℕ) : ℕ := (type.tableBits clusters + 4095) / 4096

/-- The size of a table that two tables of `k` sectors leave clusters for -/
def correction (type : FatType) (totalSectors sectorsPerCluster k : ℕ) : ℕ :=
  sectorsFor type (clustersBeside type totalSectors sectorsPerCluster k)

variable {type : FatType} {T s k n m clusters : ℕ}

lemma sectorsFor_le : sectorsFor type clusters ≤ k ↔ type.tableBits clusters ≤ k * 4096 := by
  unfold sectorsFor
  omega

lemma requiredSectors_eq (h : clusters ≤ 536870912) : requiredSectors type clusters = sectorsFor type clusters := by
  cases type <;> simp only [requiredSectors, fatBytes, sectorsFor, FatType.tableBits, FatType.bits]
  · rw [u32_of_lt (n := (clusters + 2) * 3 + 1) (by omega), u32_of_lt (by omega)]
    omega
  · rw [u32_of_lt (n := (clusters + 2) * (16 / 8)) (by omega), u32_of_lt (by omega)]
    omega
  · rw [u32_of_lt (n := (clusters + 2) * (32 / 8)) (by omega), u32_of_lt (by omega)]
    omega

lemma bits_le (type : FatType) : type.bits ≤ 32 := by
  cases type <;> decide

lemma rootSectors_le (type : FatType) : type.rootSectors ≤ 14 := by
  cases type <;> decide

lemma tableBits_add (a d : ℕ) : type.tableBits (a + d) ≤ type.tableBits a + d * 32 := by
  have := Nat.mul_le_mul_left d (bits_le type)
  calc type.tableBits (a + d) = type.tableBits a + d * type.bits := by unfold FatType.tableBits; ring
    _ ≤ type.tableBits a + d * 32 := by omega

lemma tableBits_mono {a b : ℕ} (h : a ≤ b) : type.tableBits a ≤ type.tableBits b :=
  Nat.mul_le_mul_right _ (by omega)

lemma clustersBeside_antitone {a b : ℕ} (h : a ≤ b) : clustersBeside type T s b ≤ clustersBeside type T s a :=
  Nat.div_le_div_right (by omega)

lemma clustersBeside_slow (hs : 0 < s) (a d : ℕ) :
    clustersBeside type T s a ≤ clustersBeside type T s (a + d) + 2 * d := by
  unfold clustersBeside
  calc (T - (1 + 2 * a + type.rootSectors)) / s
      ≤ (T - (1 + 2 * (a + d) + type.rootSectors) + 2 * d * s) / s :=
        Nat.div_le_div_right (by have := Nat.le_mul_of_pos_right (2 * d) hs; omega)
    _ = (T - (1 + 2 * (a + d) + type.rootSectors)) / s + 2 * d := Nat.add_mul_div_right _ _ hs

lemma correction_damped (hs : 0 < s) : Damped (correction type T s) where
  antitone _ _ h := Nat.div_le_div_right
    (Nat.add_le_add_right (tableBits_mono (clustersBeside_antitone h)) _)
  slow a d := by
    have hbits := (tableBits_mono (clustersBeside_slow hs a d)).trans
      (@tableBits_add type (clustersBeside type T s (a + d)) (2 * d))
    unfold correction sectorsFor
    omega

/-! ## Which drives `format` can lay out -/

/-- Tables of `k` sectors are too short for the clusters they leave room for, and tables of one more sector leave room
for so few clusters that `k` sectors would do. -/
def Straddles (type : FatType) (totalSectors sectorsPerCluster : ℕ) : Prop :=
  ∃ k, k * 4096 < type.tableBits (clustersBeside type totalSectors sectorsPerCluster k) ∧
    type.tableBits (clustersBeside type totalSectors sectorsPerCluster (k + 1)) ≤ k * 4096

/-- Tables of `k` sectors are just long enough for the clusters they leave room for. -/
def Balances (type : FatType) (totalSectors sectorsPerCluster k : ℕ) : Prop :=
  sectorsFor type (clustersBeside type totalSectors sectorsPerCluster k) = k

variable {type : FatType} {T s k n m r i j f c : ℕ} {l : Layout} {drive : Drive}

lemma straddles_iff : Straddles type T s ↔ Swings (correction type T s) := by
  simp only [Straddles, Swings, correction, sectorsFor_le, ← not_le]

/-! ### The inner loop -/

/-- The numbers of the layout stay in 32 bits. -/
structure Fits (type : FatType) (T s : ℕ) : Prop where
  small : 32 ≤ T
  large : T ≤ uintMax
  pos : 0 < s
  clusters : T / s ≤ 536870912

lemma correction_room (hT : 32 ≤ T) : 1 + 2 * correction type T s k + type.rootSectors < T := by
  have hclus : clustersBeside type T s k ≤ T - (1 + type.rootSectors) :=
    (Nat.div_le_self _ _).trans (by omega)
  have hbits := (@tableBits_mono type _ _ hclus).trans
    (Nat.zero_add (T - (1 + type.rootSectors)) ▸ tableBits_add 0 (T - (1 + type.rootSectors)))
  have hzero : type.tableBits 0 ≤ 64 := by cases type <;> decide
  have := rootSectors_le type
  unfold correction sectorsFor
  omega

lemma metadataSectors_eq (hroom : 1 + 2 * k + type.rootSectors < T) (hT : T ≤ uintMax) :
    metadataSectors type k = 1 + 2 * k + type.rootSectors :=
  u32_of_lt (lt_of_lt_of_le hroom (hT.trans (by decide)))

/-- **The inner loop corrects the size of a table, and never leaves through the check of the metadata.** -/
theorem settleFat_eq (hfits : Fits type T s) (hroom : 1 + 2 * k + type.rootSectors < T) :
    settleFat type T s n k c = (settle (correction type T s) n k).map fun y => (y, clustersBeside type T s y) := by
  induction n generalizing k c with
  | zero => rfl
  | succ n ih =>
    have hmet := metadataSectors_eq hroom hfits.large
    have hcnt : clusterCount type T s k = clustersBeside type T s k := by
      rw [clusterCount, hmet, clustersBeside]
    have hle : clustersBeside type T s k ≤ 536870912 :=
      (Nat.div_le_div_right (Nat.sub_le _ _)).trans hfits.clusters
    have hreq : requiredSectors type (clustersBeside type T s k) = correction type T s k := requiredSectors_eq hle
    simp only [settleFat, settle, if_neg (hmet ▸ Nat.not_le.mpr hroom), hcnt, hreq]
    split
    · rfl
    · exact ih (correction_room hfits.small)

lemma start_room (hfits : Fits type T s) : 1 + 2 * 1 + type.rootSectors < T := by
  have := rootSectors_le type
  have := hfits.small
  omega

/-- **The inner loop ends for a size of clusters unless two neighbouring sizes of the tables straddle.** -/
theorem settleFat_ends_iff (hfits : Fits type T s) :
    (∃ n out, settleFat type T s n 1 c = some out) ↔ ¬Straddles type T s := by
  rw [straddles_iff, ← (correction_damped hfits.pos).settles_iff 1]
  refine exists_congr fun n => ?_
  rw [settleFat_eq hfits (start_room hfits)]
  constructor
  · rintro ⟨out, hout⟩
    obtain ⟨y, hy, -⟩ := Option.map_eq_some_iff.mp hout
    exact ⟨y, hy⟩
  · rintro ⟨y, hy⟩
    exact ⟨_, congrArg (Option.map _) hy⟩

lemma settleFat_spec (hfits : Fits type T s) (hs : settleFat type T s n 1 c = some (f, k)) :
    Balances type T s f ∧ k = clustersBeside type T s f := by
  rw [settleFat_eq hfits (start_room hfits)] at hs
  obtain ⟨y, hy, hout⟩ := Option.map_eq_some_iff.mp hs
  cases hout
  exact ⟨settle_fixed hy, rfl⟩

lemma settleFat_mono (hfits : Fits type T s) (hs : settleFat type T s n 1 c = some (f, k)) (hnm : n ≤ m) :
    settleFat type T s m 1 c = some (f, k) := by
  rw [settleFat_eq hfits (start_room hfits)] at hs ⊢
  obtain ⟨y, hy, hout⟩ := Option.map_eq_some_iff.mp hs
  rw [settle_mono hy hnm, ← hout]
  rfl

lemma Balances.unique (hs : 0 < s) (hf : Balances type T s f) (hk : Balances type T s k) : f = k :=
  fixed_unique (@correction_damped type T s hs).antitone hf hk

/-! ### The loop over the sizes of a cluster -/

/-- The size `1 <<< j` is tried, from `1 <<< i` on: what balances for the sizes before it has a wrong number of
clusters. -/
def TriesFrom (type : FatType) (T i j : ℕ) : Prop :=
  i ≤ j ∧ j ≤ 7 ∧
    ∀ p, i ≤ p → p < j → ∀ k, Balances type T (1 <<< p) k → ¬type.valid (clustersBeside type T (1 <<< p) k)

lemma shift_le (hi : i ≤ 7) : ¬128 < 1 <<< i := by
  rw [Nat.shiftLeft_eq, Nat.one_mul]
  exact Nat.not_lt.mpr (Nat.pow_le_pow_right (by decide) hi)

lemma searchLayout_eq (hi : i ≤ 7) :
    searchLayout type T n (r + 1) ⟨1 <<< i, f, c⟩ =
      match settleFat type T (1 <<< i) n 1 c with
      | none => none
      | some (f, k) =>
        if type.valid k then some ⟨1 <<< i, f, k⟩ else searchLayout type T n r ⟨1 <<< (i + 1), f, k⟩ := by
  rw [Nat.shiftLeft_add 1 i 1]
  exact if_neg (shift_le hi)

lemma searchLayout_mono (hfits : ∀ j, i ≤ j → Fits type T (1 <<< j)) (hi : i ≤ 8)
    (hs : searchLayout type T n r ⟨1 <<< i, f, c⟩ = some l) (hnm : n ≤ m) (hrm : r ≤ m) :
    searchLayout type T m m ⟨1 <<< i, f, c⟩ = some l := by
  suffices ∀ q, r ≤ q → searchLayout type T m q ⟨1 <<< i, f, c⟩ = some l from this m hrm
  clear hrm
  induction r generalizing i f c with
  | zero => cases hs
  | succ r ih =>
    intro q hq
    obtain ⟨q, rfl⟩ := Nat.exists_eq_add_of_le' (Nat.one_le_of_lt hq)
    rcases Nat.lt_or_ge i 8 with hlt | hge
    · rw [searchLayout_eq (by omega)] at hs ⊢
      rcases hset : settleFat type T (1 <<< i) n 1 c with - | ⟨f', k⟩
      · rw [hset] at hs
        cases hs
      · rw [settleFat_mono (hfits i le_rfl) hset hnm]
        rw [hset] at hs
        dsimp only at hs ⊢
        split at hs
        · next hval => rwa [if_pos hval]
        · next hval =>
          rw [if_neg hval]
          exact ih (fun j hj => hfits j (by omega)) (by omega) hs q (by omega)
    · obtain rfl : i = 8 := by omega
      exact hs

/-- **The search ends unless a size of clusters that it tries straddles.** -/
theorem searchLayout_ends_iff (hfits : ∀ j, i ≤ j → Fits type T (1 <<< j)) (hi : i ≤ 8) :
    (∃ n r l, searchLayout type T n r ⟨1 <<< i, f, c⟩ = some l) ↔
      ∀ j, TriesFrom type T i j → ¬Straddles type T (1 <<< j) := by
  -- the induction is on the sizes that are left
  induction hleft : 8 - i generalizing i f c with
  | zero =>
    obtain rfl : i = 8 := by omega
    exact ⟨fun _ j hj => absurd hj.1 (by have := hj.2.1; omega), fun _ => ⟨0, 1, _, rfl⟩⟩
  | succ left ih =>
    have hnext {f c : ℕ} := ih (i := i + 1) (f := f) (c := c) (fun j hj => hfits j (by omega)) (by omega) (by omega)
    by_cases hstr : Straddles type T (1 <<< i)
    · refine iff_of_false ?_ fun hall => hall i ⟨le_rfl, by omega, fun p hp hpi => absurd hp (by omega)⟩ hstr
      rintro ⟨n, r, l, hs⟩
      cases r with
      | zero => cases hs
      | succ r =>
        rw [searchLayout_eq (by omega)] at hs
        rcases hset : settleFat type T (1 <<< i) n 1 c with - | out
        · rw [hset] at hs
          cases hs
        · exact (settleFat_ends_iff (hfits i le_rfl)).mp ⟨n, out, hset⟩ hstr
    obtain ⟨n₀, ⟨f₀, k₀⟩, h₀⟩ := (settleFat_ends_iff (c := c) (hfits i le_rfl)).mpr hstr
    obtain ⟨hbal, hk₀⟩ := settleFat_spec (hfits i le_rfl) h₀
    by_cases hval : type.valid k₀
    · refine iff_of_true ⟨n₀, 1, _, by rw [searchLayout_eq (by omega), h₀]; exact if_pos hval⟩ ?_
      intro j htries
      rcases Nat.eq_or_lt_of_le htries.1 with rfl | hlt
      · exact hstr
      · exact absurd (hk₀ ▸ hval) (htries.2.2 i le_rfl hlt f₀ hbal)
    · have htries : (∀ j, TriesFrom type T i j → ¬Straddles type T (1 <<< j)) ↔
          ∀ j, TriesFrom type T (i + 1) j → ¬Straddles type T (1 <<< j) := by
        constructor
        · intro hall j hj
          refine hall j ⟨by have := hj.1; omega, hj.2.1, fun p hp hpj => ?_⟩
          rcases Nat.eq_or_lt_of_le hp with rfl | hlt
          · intro k hk
            rwa [hk.unique (hfits i le_rfl).pos hbal, ← hk₀]
          · exact hj.2.2 p hlt hpj
        · intro hall j hj
          rcases Nat.eq_or_lt_of_le hj.1 with rfl | hlt
          · exact hstr
          · exact hall j ⟨hlt, hj.2.1, fun p hp hpj => hj.2.2 p (by omega) hpj⟩
      rw [htries, ← hnext (f := f₀) (c := k₀)]
      constructor
      · rintro ⟨n, r, l, hs⟩
        cases r with
        | zero => cases hs
        | succ r =>
          rw [searchLayout_eq (by omega)] at hs
          rcases hset : settleFat type T (1 <<< i) n 1 c with - | ⟨f', k'⟩
          · rw [hset] at hs
            cases hs
          · obtain ⟨hbal', hk'⟩ := settleFat_spec (hfits i le_rfl) hset
            obtain rfl := hbal'.unique (hfits i le_rfl).pos hbal
            obtain rfl := hk'.trans hk₀.symm
            rw [hset] at hs
            dsimp only at hs
            rw [if_neg hval] at hs
            exact ⟨n, r, l, hs⟩
      · rintro ⟨n, r, l, hs⟩
        have hmore := searchLayout_mono (fun j hj => hfits j (by omega)) (by omega) hs
          (le_max_left n (max r n₀)) ((le_max_left r n₀).trans (le_max_right n _))
        refine ⟨max n (max r n₀), max n (max r n₀) + 1, l, ?_⟩
        rw [searchLayout_eq (by omega),
          settleFat_mono (hfits i le_rfl) h₀ ((le_max_right r n₀).trans (le_max_right n _))]
        dsimp only
        rwa [if_neg hval]

def FatType.directorySectors (type : FatType) (sectorsPerCluster : ℕ) : ℕ :=
  match type with
  | .fat32 => sectorsPerCluster
  | _ => type.rootSectors

structure Layout.Sound (type : FatType) (totalSectors : ℕ) (l : Layout) : Prop where
  entries : type.tableBits l.clusterCount ≤ l.fatSectors * 512 * 8
  directory : reservedSectors + fatCount * l.fatSectors + type.directorySectors l.sectorsPerCluster ≤ totalSectors
  clusters : reservedSectors + fatCount * l.fatSectors + type.rootSectors + l.clusterCount * l.sectorsPerCluster ≤
    totalSectors
  counted : type.valid l.clusterCount

lemma searchLayout_sound (hfits : ∀ j, i ≤ j → Fits type T (1 <<< j)) (hi : i ≤ 8)
    (hs : searchLayout type T n r ⟨1 <<< i, f, c⟩ = some l) : 128 < l.sectorsPerCluster ∨ l.Sound type T := by
  induction r generalizing i f c with
  | zero => cases hs
  | succ r ih =>
    rcases Nat.lt_or_ge i 8 with hlt | hge
    · rw [searchLayout_eq (by omega)] at hs
      rcases hset : settleFat type T (1 <<< i) n 1 c with - | ⟨f', k'⟩ <;> rw [hset] at hs
      · cases hs
      dsimp only at hs
      split at hs
      · next hval =>
        obtain ⟨hbal, rfl⟩ := settleFat_spec (hfits i le_rfl) hset
        have hroom : 1 + 2 * f' + type.rootSectors < T := hbal ▸ correction_room (hfits i le_rfl).small
        have hused := Nat.div_mul_le_self (T - (1 + 2 * f' + type.rootSectors)) (1 <<< i)
        cases hs
        refine .inr ⟨?_, ?_, ?_, hval⟩ <;> simp only [reservedSectors, fatCount]
        · have := sectorsFor_le.mp hbal.le
          omega
        · cases type with
          | fat32 =>
            -- the root directory of FAT32 is the first cluster
            have hone := Nat.le_mul_of_pos_left (1 <<< i) (Nat.lt_of_lt_of_le (by decide : 0 < 65525) hval.1)
            unfold clustersBeside at hone
            simp only [FatType.directorySectors]
            omega
          | _ => exact hroom.le
        · unfold clustersBeside
          omega
      · exact ih (fun j hj => hfits j (by omega)) (by omega) hs
    · obtain rfl : i = 8 := by omega
      cases hs
      exact .inl (show 128 < 1 <<< 8 by decide)

/-! ### Drives -/

/-- `format` comes to an end, and a layout that it writes is a sound one. -/
def Drive.Formats (drive : Drive) : Prop :=
  ∃ n out, format n drive = some out ∧ ∀ l, out = some l → l.Sound drive.type drive.totalSectors

lemma ofSize_fits (hsm : 32 ≤ drive.totalSectors) (hlg : drive.totalSectors ≤ uintMax)
    (hi : drive.type.firstShift ≤ i) : Fits drive.type drive.totalSectors (1 <<< i) := by
  have hpow : 0 < 1 <<< i := by rw [Nat.shiftLeft_eq]; positivity
  refine ⟨hsm, hlg, hpow, ?_⟩
  unfold Drive.type FatType.ofSize at hi
  unfold Drive.totalSectors uintMax at *
  split_ifs at hi with h12 h16
  · exact (Nat.div_le_self _ _).trans (by omega)
  · exact (Nat.div_le_self _ _).trans (by omega)
  · have height : 8 ≤ 1 <<< i := by
      rw [Nat.shiftLeft_eq, Nat.one_mul]
      exact Nat.pow_le_pow_right (by decide : 0 < 2) hi
    exact (Nat.div_le_div_left height (by decide)).trans (by omega)

lemma firstShift_le (type : FatType) : type.firstShift ≤ 8 := by
  cases type <;> decide

/-- **`format` comes to an end, with tables that have an entry for every cluster and everything inside the drive, on
exactly the drives on which no size of clusters that it tries straddles.** -/
theorem Drive.formats_iff (hready : drive.ready = true) (hboot : drive.bootFile drive.type = true)
    (hsmall : 32 ≤ drive.totalSectors) (hlarge : drive.totalSectors ≤ uintMax) :
    drive.Formats ↔ ∀ i, TriesFrom drive.type drive.totalSectors drive.type.firstShift i →
      ¬Straddles drive.type drive.totalSectors (1 <<< i) := by
  have hfits (j : ℕ) (hj : drive.type.firstShift ≤ j) := ofSize_fits hsmall hlarge hj
  have hformat (n : ℕ) := show format n drive = _ from by
    rw [format, if_neg (by simp [hready]), if_neg (Nat.not_lt.mpr hlarge), if_neg (Nat.not_lt.mpr hsmall),
      if_neg (by simp [hboot])]
  rw [← searchLayout_ends_iff (f := 0) (c := 0) hfits (firstShift_le _)]
  constructor
  · rintro ⟨n, out, hout, -⟩
    rw [hformat] at hout
    rcases hs : searchLayout drive.type drive.totalSectors n n ⟨1 <<< drive.type.firstShift, 0, 0⟩ with - | l
    · rw [hs] at hout
      cases hout
    · exact ⟨n, n, l, hs⟩
  · rintro ⟨n, r, l, hs⟩
    have hsame := searchLayout_mono hfits (firstShift_le _) hs (le_max_left n r) (le_max_right n r)
    refine ⟨max n r, _, by rw [hformat, hsame], fun l' hl' => ?_⟩
    split at hl'
    · cases hl'
    · next hwrites =>
      cases hl'
      exact (searchLayout_sound hfits (firstShift_le _) hs).resolve_left fun hlarge => hwrites (.inl hlarge)

def floppy : Drive := ⟨true, 1474560, fun _ => true⟩

/-- A floppy of 2880 sectors is formatted: two tables of nine sectors balance, so no other size is tried. -/
theorem floppy_formats : floppy.Formats := by
  have hbal : Balances .fat12 2880 1 9 := show sectorsFor .fat12 (clustersBeside .fat12 2880 1 9) = 9 by decide
  refine (Drive.formats_iff rfl rfl (by decide) (by decide)).mpr fun i htries hstr => ?_
  rcases Nat.eq_zero_or_pos i with rfl | hpos
  · exact not_swings_of_fixed (correction_damped Nat.one_pos).antitone hbal (straddles_iff.mp hstr)
  · exact htries.2.2 0 le_rfl hpos 9 hbal (by decide)

def image : Drive := ⟨true, 885760, fun _ => true⟩

lemma image_swings (n c : ℕ) : settleFat .fat12 1730 1 n 5 c = none ∧ settleFat .fat12 1730 1 n 6 c = none := by
  induction n generalizing c with
  | zero => exact ⟨rfl, rfl⟩
  | succ n ih => exact ⟨(ih 1705).2, (ih 1703).1⟩

/-- `format` never comes back from a drive of 885760 bytes. -/
theorem format_hangs : ¬∃ n out, format n image = some out := by
  rintro ⟨n, out, hout⟩
  have hnone (n c : ℕ) : settleFat .fat12 1730 1 n 1 c = none := by
    cases n with
    | zero => rfl
    | succ n => exact (image_swings n 1713).2
  have hsearch : searchLayout image.type image.totalSectors n n ⟨1 <<< image.type.firstShift, 0, 0⟩ = none := by
    change searchLayout .fat12 1730 n n ⟨1, 0, 0⟩ = none
    cases n with
    | zero => rfl
    | succ n => rw [searchLayout, if_neg (by decide), hnone]
  have hformat : format n image = none := by
    rw [format, if_neg (by decide), if_neg (by decide), if_neg (by decide), if_neg (by decide), hsearch]
  rw [hformat] at hout
  cases hout

end PlantOS.Fat
