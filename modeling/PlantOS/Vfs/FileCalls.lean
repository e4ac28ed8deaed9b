import PlantOS.Disk.Vdisk
import PlantOS.Vfs.Defs

/-!
# The page cache

The cached pages of the files of one mount: how they are found, filled by a read of the filesystem, evicted and
written back. The filesystem and its disk are a `Volume`, whatever their state is.
-/

namespace PlantOS.Vfs

open PlantOS.Disk (Outcome)

abbrev vfsCachePageSize : ℕ := 4096

abbrev vfsCacheReadPages : ℕ := 32

abbrev vfsCacheHashBuckets : ℕ := 4096

/-- `vfs_node_t` -/
structure VfsNode where
  id : VfsNodeId
  type : VfsNodeType
  size : ℕ
  deriving DecidableEq, Repr

/-- A disk and the calls of the filesystem on it. `write` and `truncate` also give the size that they leave in the
node; a call that is `none` is `NULL`. -/
structure Volume (S : Type) where
  diskReady : S → Bool
  diskWritable : S → Bool
  diskSync : S → S × Bool
  /-- how the block transfers so far have ended; no code reads it -/
  transfers : S → List Outcome
  normalizeName : String → Except VfsError String
  lookup : S → VfsNode → String → S × Except VfsError VfsNode
  read : S → VfsNode → ℕ → ℕ → S × Except VfsError (List UInt8)
  write : Option (S → VfsNode → ℕ → List UInt8 → S × ℕ × Except VfsError ℕ)
  truncate : Option (S → VfsNode → ℕ → S × ℕ × Except VfsError Unit)
  create : Option (S → VfsNode → String → VfsNodeType → S × Except VfsError VfsNode)
  remove : Option (S → VfsNode → String → VfsNodeType → S × Except VfsError Unit)
  rename : Option (S → VfsNode → String → VfsNode → String → S × Except VfsError Unit)
  sync : Option (S → S × Except VfsError Unit)

/-- `vfs_mount_status` -/
def Volume.mountStatus {S α : Type} (V : Volume S) (s : S) (status : Except VfsError α) : Except VfsError α :=
  if V.diskReady s then status else .error .io

/-- `struct vfs_cache_page` -/
structure CachePage where
  node : VfsNodeId
  index : ℕ
  mappings : ℕ
  writers : ℕ
  data : ℕ → UInt8
  /-- how the transfers of the read that filled the page have ended; no code reads it -/
  filled : List Outcome

def CachePage.key (page : CachePage) : VfsNodeId × ℕ := (page.node, page.index)

/-- `vfs_cache_hash`, the newest page first, and the list from `vfs_cache_head` to `vfs_cache_tail`. -/
structure PageCache where
  pages : List CachePage
  lru : List (VfsNodeId × ℕ)
  /-- `vfs_cache_limit` -/
  limit : ℕ
  /-- the hash in `vfs_cache_bucket` -/
  hash : VfsNodeId → ℕ → ℕ

/-- What the memory allocator answers to `vfs_cache_load`. -/
structure LoadMemory where
  /-- to `page_malloc`, one try after the other -/
  granted : ℕ → Bool
  /-- to all `malloc` of the pages -/
  structs : Bool

namespace PageCache

variable (c : PageCache)

/-! ### The hash table and the list of pages that may be evicted -/

/-- `vfs_cache_promote` -/
def promote (page : CachePage) : PageCache :=
  if page.mappings ≠ 0 ∨ c.lru.head? = some page.key then c else { c with lru := page.key :: c.lru.erase page.key }

def vfsCacheFind (node : VfsNodeId) (index : ℕ) : PageCache × Option CachePage :=
  match c.pages.find? fun page => page.key = (node, index) with
  | none => (c, none)
  | some page => (c.promote page, some page)

/-- `vfs_cache_free_page` -/
def freePage (key : VfsNodeId × ℕ) : PageCache :=
  { c with pages := c.pages.eraseP (·.key = key), lru := c.lru.erase key }

/-- The loop of `vfs_cache_evict` -/
def evictLoop : ℕ → PageCache → PageCache
  | 0, c => c
  | fuel + 1, c =>
    if c.limit < c.lru.length then
      match c.lru.getLast? with
      | some key => evictLoop fuel (c.freePage key)
      | none => c
    else c

def vfsCacheEvict : PageCache := evictLoop c.lru.length c

def vfsCacheInsert (page : CachePage) : PageCache :=
  { c with pages := page :: c.pages, lru := page.key :: c.lru }.vfsCacheEvict

def vfsCacheMapped (node : VfsNodeId) : Bool := c.pages.any fun page => page.mappings ≠ 0 && page.node = node

def vfsCacheInvalidateNode (node : VfsNodeId) : PageCache :=
  c.lru.foldl (fun c key => if key.1 = node then c.freePage key else c) c

def byBucket : List CachePage :=
  (List.range vfsCacheHashBuckets).flatMap fun bucket =>
    c.pages.filter fun page => c.hash page.node page.index % vfsCacheHashBuckets = bucket

def setPage (key : VfsNodeId × ℕ) (f : CachePage → CachePage) : PageCache :=
  { c with pages := c.pages.map fun page => if page.key = key then f page else page }

/-! ### Filling pages -/

/-- How many of the pages from `index` on are missing: the first loop of `vfs_cache_load`, from `i` on. -/
def missRun (node : VfsNodeId) (index count : ℕ) : ℕ → ℕ → PageCache → PageCache × ℕ
  | 0, _, c => (c, count)
  | fuel + 1, i, c =>
    if count ≤ i then (c, count)
    else
      match c.vfsCacheFind node (index + i) with
      | (c, some _) => (c, i)
      | (c, none) => missRun node index count fuel (i + 1) c

/-- The memory for the pages: less pages, then less of the others. A call for no bytes is never granted. -/
def reclaim (granted : ℕ → Bool) : ℕ → ℕ → ℕ → PageCache → PageCache × Option ℕ
  | 0, _, _, c => (c, none)
  | fuel + 1, tries, count, c =>
    if count ≠ 0 ∧ granted tries then (c, some count)
    else if 1 < count then reclaim granted fuel (tries + 1) (count / 2) c
    else
      match c.lru.getLast? with
      | some key => reclaim granted fuel (tries + 1) count (c.freePage key)
      | none => (c, none)

/-- The bytes of the page `i` of the run that has been read; behind them `page_malloc` has left zeros. -/
def runData (bytes : List UInt8) (i : ℕ) : ℕ → UInt8 := fun o => bytes.getD (i * vfsCachePageSize + o) 0

def newPages (node : VfsNodeId) (index count : ℕ) (bytes : List UInt8) (filled : List Outcome) : List CachePage :=
  (List.range count).map fun i => ⟨node, index + i, 0, 0, runData bytes i, filled⟩

/-- `vfs_cache_load`: the cache behind it, and the page with the index. -/
def vfsCacheLoad {S : Type} (V : Volume S) (s : S) (node : VfsNode) (index count : ℕ) (memory : LoadMemory) :
    S × PageCache × Option CachePage :=
  if node.size = 0 ∨ count = 0 then (s, c, none)
  else
    let filePages := (node.size - 1) / vfsCachePageSize + 1
    if filePages ≤ index then (s, c, none)
    else
      let wanted := min (min (min count vfsCacheReadPages) c.limit) (filePages - index)
      let (c, missing) := missRun node.id index wanted wanted 1 c
      match reclaim memory.granted (missing + c.lru.length + 1) 0 missing c with
      | (c, none) => (s, c, none)
      | (c, some count) =>
        let offset := index * vfsCachePageSize
        let length := min (node.size - offset) (count * vfsCachePageSize)
        if !memory.structs then (s, c, none)
        else
          let (s', status) := V.read s node offset length
          match V.mountStatus s' status with
          | .error _ => (s', c, none)
          | .ok bytes =>
            if bytes.length ≠ length then (s', c, none)
            else
              let pages := newPages node.id index count bytes ((V.transfers s').drop (V.transfers s).length)
              (s', pages.foldl vfsCacheInsert c, pages.head?)

/-- The page with the index, from the cache or from the filesystem. -/
def vfsCacheGet {S : Type} (V : Volume S) (s : S) (node : VfsNode) (index count : ℕ) (memory : LoadMemory) :
    S × PageCache × Option CachePage :=
  match c.vfsCacheFind node.id index with
  | (c, some page) => (s, c, some page)
  | (c, none) => c.vfsCacheLoad V s node index count memory

end PageCache

/-- The call of `filesystem->write`, where the disk and the filesystem allow it -/
def Volume.fsWrite {S : Type} (V : Volume S) (s : S) (node : VfsNode) (offset : ℕ) (bytes : List UInt8) :
    S × ℕ × Except VfsError ℕ :=
  match V.diskWritable s, V.write with
  | true, some write => write s node offset bytes
  | _, _ => (s, node.size, .error .readOnly)

/-- The loop of `vfs_cache_writeback` over the pages; the node is the one of the dentry. -/
def writebackLoop {S : Type} (V : Volume S) (first count : ℕ) :
    List CachePage → S → VfsNode → S × VfsNode × Except VfsError Unit
  | [], s, node => (s, node, .ok ())
  | page :: rest, s, node =>
    let offset := page.index * vfsCachePageSize
    if page.writers = 0 ∨ page.node ≠ node.id ∨ page.index < first ∨ count ≤ page.index - first ∨
        node.size ≤ offset then
      writebackLoop V first count rest s node
    else
      let length := min (node.size - offset) vfsCachePageSize
      let (s', size, status) := V.fsWrite s node offset ((List.range length).map page.data)
      match V.mountStatus s' status with
      | .error e => (s', { node with size := size }, .error e)
      | .ok written =>
        if written ≠ length then (s', { node with size := size }, .error .io)
        else writebackLoop V first count rest s' { node with size := size }

/-! ## Calls on open files -/

abbrev uintMax : ℕ := 4294967295

abbrev intMax : ℕ := 2147483647

/-- `struct vfs_handle` of a file or a directory, with the node of its dentry -/
structure OpenHandle where
  node : VfsNode
  read : Bool
  write : Bool
  append : Bool
  offset : ℕ
  deriving DecidableEq, Repr

/-- `vfs_mapping_t`; its pages are those of the file from `offset` on. -/
structure Mapping where
  handle : ℕ
  offset : ℕ
  shared : Bool
  writable : Bool
  references : ℕ
  count : ℕ
  deriving DecidableEq, Repr

structure FileState (S : Type) where
  volume : S
  cache : PageCache
  handle : ℕ → Option OpenHandle
  mapping : ℕ → Option Mapping

namespace FileState

variable {S : Type} (V : Volume S) (s : FileState S)

def setHandle (h : ℕ) (f : OpenHandle → OpenHandle) : FileState S :=
  { s with handle := Function.update s.handle h ((s.handle h).map f) }

def withCache (volume : S) (cache : PageCache) : FileState S := { s with volume := volume, cache := cache }

def vfsUpdateOpenSizes (id : VfsNodeId) (size : ℕ) : FileState S :=
  { s with handle := fun h => (s.handle h).map fun o =>
      if o.node.id = id then { o with node := { o.node with size := size } } else o }

/-- The loop of `vfs_read_at` behind the bytes `done`; every round moves at least one byte. -/
def readLoop (node : VfsNode) (length : ℕ) (memory : ℕ → LoadMemory) :
    ℕ → List UInt8 → ℕ → S → PageCache → S × PageCache × ℕ × Except VfsError (List UInt8)
  | 0, done, offset, v, c => (v, c, offset, .ok done)
  | fuel + 1, done, offset, v, c =>
    if length ≤ done.length then (v, c, offset, .ok done)
    else
      let index := offset / vfsCachePageSize
      let pageOffset := offset % vfsCachePageSize
      match c.vfsCacheGet V v node index ((pageOffset + length - done.length - 1) / vfsCachePageSize + 1)
        (memory done.length) with
      | (v, c, none) => (v, c, offset, if done = [] then .error .io else .ok done)
      | (v, c, some page) =>
        let chunk := min (vfsCachePageSize - pageOffset) (length - done.length)
        readLoop node length memory fuel (done ++ (List.range chunk).map fun i => page.data (pageOffset + i))
          (offset + chunk) v c

/-- `vfs_read_at` of `length` bytes at the offset: the offset behind it, and the bytes. -/
def vfsReadAt (h length offset : ℕ) (memory : ℕ → LoadMemory) : FileState S × ℕ × Except VfsError (List UInt8) :=
  match s.handle h with
  | none => (s, offset, .error .badDescriptor)
  | some o =>
    if !o.read then (s, offset, .error .badDescriptor)
    else if o.node.type ≠ .file then (s, offset, .error .isDirectory)
    else if !V.diskReady s.volume then (s, offset, .error .io)
    else if length = 0 ∨ o.node.size ≤ offset then (s, offset, .ok [])
    else
      let length := min length (o.node.size - offset)
      let (v, c, offset, result) := readLoop V o.node length memory length [] offset s.volume s.cache
      (s.withCache v c, offset, result)

def vfsRead (h length : ℕ) (memory : ℕ → LoadMemory) : FileState S × Except VfsError (List UInt8) :=
  match s.handle h with
  | none => (s, .error .badDescriptor)
  | some o =>
    let (s', offset, result) := s.vfsReadAt V h length o.offset memory
    (s'.setHandle h ({ · with offset := offset }), result)

def vfsPread (h length offset : ℕ) (memory : ℕ → LoadMemory) : FileState S × Except VfsError (List UInt8) :=
  let (s', _, result) := s.vfsReadAt V h length offset memory
  (s', result)

/-! ### `vfs_write` -/

/-- What `vfs_write` writes into a cached page: zeros behind the old end of the file, and `chunk` bytes of `bytes`. -/
def writePage (previousSize writeOffset : ℕ) (bytes : List UInt8) (copied chunk : ℕ) (page : CachePage) : CachePage :=
  let pageStart := page.index * vfsCachePageSize
  let pageOffset := (writeOffset + copied) % vfsCachePageSize
  let zeroed : ℕ → UInt8 :=
    if pageStart < previousSize ∧ previousSize < writeOffset + copied then
      fun o => if previousSize - pageStart ≤ o ∧ o < writeOffset + copied - pageStart then 0 else page.data o
    else page.data
  { page with data := fun o =>
      if pageOffset ≤ o ∧ o < pageOffset + chunk then bytes.getD (copied + (o - pageOffset)) 0 else zeroed o }

/-- The loop of `vfs_write` over the pages -/
def writeLoop (id : VfsNodeId) (previousSize writeOffset written : ℕ) (bytes : List UInt8) :
    ℕ → ℕ → PageCache → PageCache
  | 0, _, c => c
  | fuel + 1, copied, c =>
    if written ≤ copied then c
    else
      let index := (writeOffset + copied) / vfsCachePageSize
      let chunk := min (vfsCachePageSize - (writeOffset + copied) % vfsCachePageSize) (written - copied)
      let c :=
        match c.vfsCacheFind id index with
        | (c, none) => c
        | (c, some page) => c.setPage page.key (writePage previousSize writeOffset bytes copied chunk)
      writeLoop id previousSize writeOffset written bytes fuel (copied + chunk) c

def vfsWrite (h : ℕ) (bytes : List UInt8) : FileState S × Except VfsError ℕ :=
  match s.handle h with
  | none => (s, .error .badDescriptor)
  | some o =>
    if !o.write then (s, .error .badDescriptor)
    else if bytes = [] then (s, .ok 0)
    else if !V.diskReady s.volume then (s, .error .io)
    else
      let offset := if o.append then o.node.size else o.offset
      let s := s.setHandle h ({ · with offset := offset })
      if offset > uintMax - bytes.length then (s, .error .overflow)
      else
        let (v, size, status) := V.fsWrite s.volume o.node offset bytes
        let s := { s with volume := v }.setHandle h fun o => { o with node := { o.node with size := size } }
        match V.mountStatus v status with
        | .error e => (s, .error e)
        | .ok written =>
          if written = 0 then (s, .ok 0)
          else
            let size := if size < offset + written then offset + written else size
            let c := writeLoop o.node.id o.node.size offset written bytes written 0 s.cache
            let s := { s with cache := c }.setHandle h ({ · with offset := offset + written })
            (s.vfsUpdateOpenSizes o.node.id size, .ok written)

/-! ### `vfs_seek`, `vfs_sync` and `vfs_fd_truncate` -/

/-- The whence of `vfs_seek` -/
inductive Whence
  | set | current | end_
  deriving DecidableEq, Repr

def vfsSeek (h : ℕ) (offset : ℤ) (whence : Whence) : FileState S × Except VfsError ℕ :=
  match s.handle h with
  | none => (s, .error .badDescriptor)
  | some o =>
    let base :=
      match whence with
      | .set => 0
      | .current => o.offset
      | .end_ => o.node.size
    let position := (base : ℤ) + offset
    if position < 0 ∨ position > intMax then (s, .error .invalid)
    else (s.setHandle h ({ · with offset := position.toNat }), .ok position.toNat)

/-- `vfs_cache_writeback` from the dentry of the handle -/
def vfsCacheWriteback (h : ℕ) (o : OpenHandle) (first count : ℕ) : FileState S × Except VfsError Unit :=
  let (v, node, status) := writebackLoop V first count s.cache.byBucket s.volume o.node
  ({ s with volume := v }.setHandle h ({ · with node := node }), status)

/-- `filesystem->sync` and `disk_sync` at the end of `vfs_sync` and `vfs_mapping_sync` -/
def syncVolume : FileState S × Except VfsError Unit :=
  let (v, status) : S × Except VfsError Unit :=
    match V.sync with
    | none => (s.volume, .ok ())
    | some sync => ((sync s.volume).1, V.mountStatus (sync s.volume).1 (sync s.volume).2)
  match status with
  | .error e => ({ s with volume := v }, .error e)
  | .ok () =>
    let (v, synced) := V.diskSync v
    ({ s with volume := v }, if synced then .ok () else .error .io)

/-- The part that `vfs_sync` and `vfs_mapping_sync` share: write the pages back, then the volume. -/
def syncPages (h : ℕ) (o : OpenHandle) (first count : ℕ) : FileState S × Except VfsError Unit :=
  if !V.diskReady s.volume then (s, .error .io)
  else
    match s.vfsCacheWriteback V h o first count with
    | (s, .error e) => (s, .error e)
    | (s, .ok ()) => s.syncVolume V

def vfsSync (h : ℕ) : FileState S × Except VfsError Unit :=
  match s.handle h with
  | none => (s, .error .badDescriptor)
  | some o => s.syncPages V h o 0 (uintMax / vfsCachePageSize + 1)

/-- `vfs_fd_truncate`: the result of `filesystem->truncate` is not passed through `vfs_mount_status`. -/
def vfsFdTruncate (h length : ℕ) : FileState S × Except VfsError Unit :=
  match s.handle h with
  | none => (s, .error .badDescriptor)
  | some o =>
    if !o.write then (s, .error .badDescriptor)
    else if !V.diskReady s.volume then (s, .error .io)
    else
      match V.diskWritable s.volume, V.truncate with
      | true, some truncate =>
        if s.cache.vfsCacheMapped o.node.id then (s, .error .busy)
        else
          let (v, size, status) := truncate s.volume o.node length
          let s := { s with volume := v }.setHandle h fun o => { o with node := { o.node with size := size } }
          match status with
          | .error e => (s, .error e)
          | .ok () =>
            let s := s.setHandle h fun o => { o with node := { o.node with size := length } }
            let s := s.vfsUpdateOpenSizes o.node.id length
            ({ s with cache := s.cache.vfsCacheInvalidateNode o.node.id }, .ok ())
      | _, _ => (s, .error .readOnly)

/-! ### Mappings -/

def pinPage (c : PageCache) (page : CachePage) (writer : Bool) : PageCache :=
  let c := if page.mappings = 0 then { c with lru := c.lru.erase page.key } else c
  c.setPage page.key fun page =>
    { page with mappings := page.mappings + 1, writers := page.writers + if writer then 1 else 0 }

def unpinPage (c : PageCache) (page : CachePage) (writer : Bool) : PageCache :=
  let c := c.setPage page.key fun page =>
    { page with mappings := page.mappings - 1, writers := page.writers - if writer then 1 else 0 }
  if page.mappings - 1 = 0 then { c with lru := page.key :: c.lru } else c

/-- The loop of `vfs_mapping_create` over the pages from `i` on: how many are mapped, and whether all are. -/
def mapLoop (node : VfsNode) (first count : ℕ) (writer : Bool) (memory : ℕ → LoadMemory) :
    ℕ → ℕ → S → PageCache → S × PageCache × ℕ × Bool
  | 0, i, v, c => (v, c, i, true)
  | fuel + 1, i, v, c =>
    match c.vfsCacheGet V v node (first + i) (count - i) (memory i) with
    | (v, c, none) => (v, c, i, false)
    | (v, c, some page) => mapLoop node first count writer memory fuel (i + 1) v (pinPage c page writer)

/-- The loop of `vfs_mapping_release` over the pages -/
def unmapPages (c : PageCache) (id : VfsNodeId) (first count : ℕ) (writer : Bool) : PageCache :=
  (List.range count).foldl (fun c i =>
    match c.vfsCacheFind id (first + i) with
    | (c, none) => c
    | (c, some page) => unpinPage c page writer) c

def roundedSize (size : ℕ) : ℕ := (size + vfsCachePageSize - 1) / vfsCachePageSize * vfsCachePageSize

/-- `vfs_mapping_create`; `mapped` is what `malloc` answers, and `m` the name of the mapping. -/
def vfsMappingCreate (m h offset length : ℕ) (shared mapped : Bool) (memory : ℕ → LoadMemory) :
    FileState S × Except VfsError Unit :=
  match s.handle h with
  | none => (s, .error .badDescriptor)
  | some o =>
    if !o.read then (s, .error .badDescriptor)
    else if !V.diskReady s.volume then (s, .error .io)
    else if o.node.type ≠ .file then (s, .error .isDirectory)
    else if roundedSize o.node.size ≤ offset ∨ roundedSize o.node.size - offset < length then (s, .error .notSupported)
    else if !mapped then (s, .error .noMemory)
    else
      let count := length / vfsCachePageSize
      let writable := !shared || o.write
      let writer := shared && writable
      match mapLoop V o.node (offset / vfsCachePageSize) count writer memory count 0 s.volume s.cache with
      | (v, c, _, true) =>
        let mapping : Mapping := ⟨h, offset, shared, writable, 1, count⟩
        ({ s with volume := v, cache := c, mapping := Function.update s.mapping m (some mapping) }, .ok ())
      | (v, c, mapped, false) =>
        (s.withCache v (unmapPages c o.node.id (offset / vfsCachePageSize) mapped writer).vfsCacheEvict, .error .io)

def vfsMappingRetain (m : ℕ) : FileState S :=
  { s with
    mapping := Function.update s.mapping m
      ((s.mapping m).map fun mapping => { mapping with references := mapping.references + 1 }) }

def vfsMappingRelease (m : ℕ) : FileState S :=
  match s.mapping m with
  | none => s
  | some mapping =>
    if mapping.references ≠ 1 then
      { s with mapping := Function.update s.mapping m (some { mapping with references := mapping.references - 1 }) }
    else
      match s.handle mapping.handle with
      | none => s
      | some o =>
        { s with
          cache := (unmapPages s.cache o.node.id (mapping.offset / vfsCachePageSize) mapping.count
            (mapping.shared && mapping.writable)).vfsCacheEvict
          mapping := Function.update s.mapping m none }

def vfsMappingSync (m first count : ℕ) : FileState S × Except VfsError Unit :=
  match s.mapping m with
  | none => (s, .ok ())
  | some mapping =>
    if !mapping.shared ∨ !mapping.writable then (s, .ok ())
    else
      match s.handle mapping.handle with
      | none => (s, .ok ())
      | some o => s.syncPages V mapping.handle o (mapping.offset / vfsCachePageSize + first) count

end FileState

/-! ## What the operations of the page cache do to its pages -/

namespace PageCache

variable {c c' : PageCache}

def All (P : CachePage → Prop) (c : PageCache) : Prop := ∀ page ∈ c.pages, P page

variable {P : CachePage → Prop}

lemma All.mono (h : c.All P) (hsub : c'.pages ⊆ c.pages) : c'.All P := fun page hpage => h page (hsub hpage)

lemma promote_pages (c : PageCache) (page : CachePage) : (c.promote page).pages = c.pages := by
  unfold promote
  split <;> rfl

lemma vfsCacheFind_pages (c : PageCache) (node : VfsNodeId) (index : ℕ) :
    (c.vfsCacheFind node index).1.pages = c.pages := by
  unfold vfsCacheFind
  split
  · rfl
  · exact promote_pages c _

lemma freePage_pages (c : PageCache) (key : VfsNodeId × ℕ) : (c.freePage key).pages ⊆ c.pages :=
  List.eraseP_subset

lemma evictLoop_pages (fuel : ℕ) (c : PageCache) : (evictLoop fuel c).pages ⊆ c.pages := by
  induction fuel generalizing c with
  | zero => exact List.Subset.refl _
  | succ fuel ih =>
    unfold evictLoop
    split
    · split
      · exact List.Subset.trans (ih _) (freePage_pages c _)
      · exact List.Subset.refl _
    · exact List.Subset.refl _

lemma vfsCacheEvict_pages (c : PageCache) : c.vfsCacheEvict.pages ⊆ c.pages := evictLoop_pages _ _

lemma vfsCacheInvalidateNode_pages (c : PageCache) (node : VfsNodeId) :
    (c.vfsCacheInvalidateNode node).pages ⊆ c.pages := by
  unfold vfsCacheInvalidateNode
  generalize c.lru = keys
  induction keys generalizing c with
  | nil => exact List.Subset.refl _
  | cons key keys ih =>
    rw [List.foldl_cons]
    split
    · exact List.Subset.trans (ih _) (freePage_pages c _)
    · exact ih c

lemma missRun_pages (node : VfsNodeId) (index count fuel i : ℕ) (c : PageCache) :
    (missRun node index count fuel i c).1.pages = c.pages := by
  induction fuel generalizing i c with
  | zero => rfl
  | succ fuel ih =>
    have hfind := vfsCacheFind_pages c node (index + i)
    unfold missRun
    split
    · rfl
    split
    · rename_i c₁ page heq
      rwa [heq] at hfind
    · rename_i c₁ heq
      rw [heq] at hfind
      exact (ih (i + 1) c₁).trans hfind

lemma reclaim_pages (granted : ℕ → Bool) (fuel tries count : ℕ) (c : PageCache) :
    (reclaim granted fuel tries count c).1.pages ⊆ c.pages := by
  induction fuel generalizing tries count c with
  | zero => exact List.Subset.refl _
  | succ fuel ih =>
    unfold reclaim
    split
    · exact List.Subset.refl _
    split
    · exact ih _ _ c
    split
    · exact List.Subset.trans (ih _ _ _) (freePage_pages c _)
    · exact List.Subset.refl _

lemma All.insertAll {pages : List CachePage} (h : c.All P) (hpages : ∀ page ∈ pages, P page) :
    (pages.foldl vfsCacheInsert c).All P := by
  induction pages generalizing c with
  | nil => exact h
  | cons page pages ih =>
    rw [List.foldl_cons]
    refine ih ?_ fun other hoth => hpages other (List.mem_cons_of_mem _ hoth)
    have hadd : { c with pages := page :: c.pages, lru := page.key :: c.lru : PageCache }.All P := by
      intro other hoth
      rcases List.mem_cons.mp hoth with rfl | hoth
      · exact hpages _ List.mem_cons_self
      · exact h other hoth
    exact hadd.mono (vfsCacheEvict_pages _)

lemma All.setPage (h : c.All P) {key : VfsNodeId × ℕ} {f : CachePage → CachePage}
    (hf : ∀ page, P page → P (f page)) : (c.setPage key f).All P := by
  intro page hpage
  obtain ⟨old, hold, rfl⟩ := List.mem_map.mp hpage
  split
  · exact hf old (h old hold)
  · exact h old hold

/-! ### Filling -/

section Load

variable {S : Type} (V : Volume S) (v : S) (node : VfsNode) (index : ℕ) (c : PageCache)

/-- What `vfs_cache_load` does: no page enters and none is given, with at most one read issued; or **pages enter
together, from one read after which the disk is ready**, and the page that is given is the first of them. -/
inductive Loads : S × PageCache × Option CachePage → Prop
  | idle (c₁ : PageCache) (hsub : c₁.pages ⊆ c.pages) : Loads (v, c₁, none)
  | failed (c₁ : PageCache) (hsub : c₁.pages ⊆ c.pages) (length : ℕ) :
    Loads ((V.read v node (index * vfsCachePageSize) length).1, c₁, none)
  | filled (c₁ : PageCache) (hsub : c₁.pages ⊆ c.pages) (n length : ℕ) (bytes : List UInt8) (v' : S)
      (hv : v' = (V.read v node (index * vfsCachePageSize) length).1)
      (hstatus : V.mountStatus v' (V.read v node (index * vfsCachePageSize) length).2 = .ok bytes)
      (pages : List CachePage)
      (hpages : pages = newPages node.id index n bytes ((V.transfers v').drop (V.transfers v).length)) :
    Loads (v', pages.foldl vfsCacheInsert c₁, pages.head?)

theorem vfsCacheLoad_loads (count : ℕ) (memory : LoadMemory) :
    Loads V v node index c (c.vfsCacheLoad V v node index count memory) := by
  unfold vfsCacheLoad
  split
  · exact .idle c (List.Subset.refl _)
  dsimp only
  split
  · exact .idle c (List.Subset.refl _)
  generalize hmiss : missRun node.id index _ _ 1 c = missed
  have hmis : missed.1.pages = c.pages := hmiss ▸ missRun_pages ..
  obtain ⟨c₁, missing⟩ := missed
  have hrecl := reclaim_pages memory.granted (missing + c₁.lru.length + 1) 0 missing c₁
  rw [show c₁.pages = c.pages from hmis] at hrecl
  dsimp only
  split
  · rename_i c₂ heq
    rw [heq] at hrecl
    exact .idle c₂ hrecl
  rename_i c₂ n heq
  rw [heq] at hrecl
  split
  · exact .idle c₂ hrecl
  split
  · exact .failed c₂ hrecl _
  rename_i bytes hstatus
  split
  · exact .failed c₂ hrecl _
  · exact .filled c₂ hrecl n _ bytes _ rfl hstatus _ rfl

end Load

end PageCache

end PlantOS.Vfs
