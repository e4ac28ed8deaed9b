import Mathlib.Algebra.Group.Nat.Defs
import Mathlib.Data.Multiset.AddSub
import PlantOS.Lib.Loop
import PlantOS.Lib.Run

/-!
# Pages and page tables

The physical pages with their reference counts, the allocators, and the page tables of the address spaces on x86_64.
An address space is named by its root page. A table is found by its level (3, 2 or 1) and by the number of the page it
maps first divided by the number of the pages below it; a table that is not there has no entries.
-/

namespace PlantOS.Mm

open Function (update)

abbrev pageBytes : ℕ := 4096

abbrev tableEntries : ℕ := 512

abbrev uintMax : ℕ := 4294967295

abbrev userSpaceStart : ℕ := 0x100000000

abbrev userHeapEnd : ℕ := 0x400000000000

abbrev userSharedStart : ℕ := 0x400000100000

abbrev userSharedEnd : ℕ := 0x400010100000

abbrev userFramebufferStart : ℕ := 0x600000000000

abbrev userSpaceEnd : ℕ := 0x800000000000

/-- A page-table entry that maps a page, but for the caching of a device: `PTE_ADDRESS` as the number of the page, and the
flags -/
structure Pte where
  page : ℕ
  present : Bool
  write : Bool
  user : Bool
  nx : Bool
  cow : Bool
  shared : Bool
  device : Bool
  aliased : Bool
  deriving DecidableEq, Repr

def Pte.zero : Pte := ⟨0, false, false, false, false, false, false, false, false⟩

def Pte.mapped (e : Pte) : Bool := e.present || e.user

def Pte.cloned (e : Pte) : Pte :=
  let e := { e with aliased := false }
  if e.write && !(e.shared || e.device) then { e with write := false, cow := true } else e

/-- `VM_READ`, `VM_WRITE` and `VM_EXEC` -/
structure Protection where
  read : Bool
  write : Bool
  exec : Bool
  deriving DecidableEq, Repr

def Protection.any (p : Protection) : Bool := p.read || p.write || p.exec

/-- `vfs_mapping_t`, as far as the address spaces use it: `frames` are the cached pages, as physical pages -/
structure VfsMapping where
  references : ℕ
  offset : ℕ
  frames : List ℕ
  shared : Bool
  writable : Bool
  deriving DecidableEq, Repr

/-- `vm_file_region_t`; the backing is named by a number. -/
structure Region where
  root : ℕ
  address : ℕ
  length : ℕ
  first : ℕ
  backing : ℕ
  deriving DecidableEq, Repr

structure Machine where
  pageCount : ℕ
  /-- `pages[i].references` -/
  references : ℕ → ℕ
  allocationHint : ℕ
  userHint : ℕ
  /-- `zero_page`, `none` before there is one -/
  zeroPage : Option ℕ
  /-- `x64_kernel_cr3` -/
  kernelRoot : ℕ
  /-- the bytes of the pages -/
  content : ℕ → ℕ → UInt8
  /-- the page of the table of a root, a level and a prefix -/
  table : ℕ → ℕ → ℕ → Option ℕ
  /-- the entry of a root for a page number -/
  leaf : ℕ → ℕ → Pte
  fileRegions : List Region
  backing : ℕ → Option VfsMapping
  /-- `page_panic` has been called; nothing runs then -/
  halted : Bool
  /-- the references of the address-space handles, one for each; no code reads it -/
  handles : Multiset ℕ
  /-- the references of all other owners; no code reads it -/
  owners : Multiset ℕ

namespace Machine

variable (s : Machine)

/-! ### Physical pages -/

def pageRetain (p : ℕ) : Machine :=
  if some p = s.zeroPage then s
  else
    { s with
      references := update s.references p (s.references p + 1)
      halted := s.halted || p ≥ s.pageCount || s.references p = 0 || s.references p ≥ uintMax - 1 }

def pageRelease (p : ℕ) : Machine :=
  if some p = s.zeroPage then s
  else
    let freed := s.references p - 1 = 0
    { s with
      references := update s.references p (s.references p - 1)
      halted := s.halted || p ≥ s.pageCount || s.references p = 0 || s.references p = uintMax
      allocationHint := if freed ∧ p < s.allocationHint then p else s.allocationHint
      userHint := if freed ∧ p ≥ s.userHint then p + 1 else s.userHint }

def take (p : ℕ) : Machine :=
  { s with references := update s.references p 1, content := update s.content p fun _ => 0 }

def lastFree : ℕ → Option ℕ
  | 0 => none
  | n + 1 => if s.references n = 0 then some n else lastFree n

def userPageAllocate : Machine × Option ℕ :=
  match s.lastFree s.userHint with
  | some p => ({ s.take p with userHint := p }, some p)
  | none => ({ s with userHint := 0 }, none)

/-- The first free one of `n` pages from `p` on -/
def firstFree : ℕ → ℕ → Option ℕ
  | 0, _ => none
  | n + 1, p => if s.references p = 0 then some p else firstFree n (p + 1)

/-- `page_malloc` of one page -/
def pageMallocOne : Machine × Option ℕ :=
  match (s.firstFree (s.pageCount - s.allocationHint) s.allocationHint).orElse fun _ => s.firstFree s.allocationHint 0 with
  | some p => ({ s.take p with allocationHint := if p + 1 < s.pageCount then p + 1 else 0 }, some p)
  | none => (s, none)

/-- `memcpy` of a page -/
def copyPage (target source : ℕ) : Machine := { s with content := update s.content target (s.content source) }

/-! ### Entries -/

def setLeaf (root v : ℕ) (e : Pte) : Machine :=
  { s with leaf := update s.leaf root (update (s.leaf root) v e) }

def setTable (root level index : ℕ) (p : Option ℕ) : Machine :=
  { s with
    table := update s.table root
      (update (s.table root) level (update (s.table root level) index p)) }

/-- `page_entry` that creates nothing: whether there is an entry for the page -/
def pageEntry (root v : ℕ) : Bool := [3, 2, 1].all fun level => (s.table root level (v / tableEntries ^ level)).isSome

/-- The step of `page_entry` that finds or creates the table of a level -/
def tableCreate (root v level : ℕ) : Machine × Bool :=
  match s.table root level (v / tableEntries ^ level) with
  | some _ => (s, true)
  | none =>
    match s.pageMallocOne with
    | (s, none) => (s, false)
    | (s, some p) => (s.setTable root level (v / tableEntries ^ level) (some p), true)

/-- `page_entry` that creates the tables -/
def pageEntryCreate (root v : ℕ) : Machine × Bool :=
  let (s, failed) := Lib.untilFail (fun level s => s.tableCreate root v level) [3, 2, 1] s
  (s, failed.isNone)

def mappingRelease (e : Pte) : Machine := if e.mapped && !e.device then s.pageRelease e.page else s

/-- `table_empty` of the table of a level -/
def tableEmpty (root level index : ℕ) : Bool :=
  (List.range tableEntries).all fun i =>
    if level = 1 then decide (s.leaf root (index * tableEntries + i) = Pte.zero)
    else (s.table root (level - 1) (index * tableEntries + i)).isNone

/-- The level of the lowest table above a page, 4 for the root -/
def lowest (root v : ℕ) : ℕ :=
  if (s.table root 3 (v / tableEntries ^ 3)).isNone then 4
  else if (s.table root 2 (v / tableEntries ^ 2)).isNone then 3
  else if (s.table root 1 (v / tableEntries)).isNone then 2
  else 1

/-- The loop of `user_table_prune` that detaches the tables above a page from a level on, and the pages of these -/
def detachEmpty (root v : ℕ) : ℕ → ℕ → Machine → Machine × List ℕ
  | 0, _, s => (s, [])
  | fuel + 1, level, s =>
    let p := s.table root level (v / tableEntries ^ level)
    let s := s.setTable root level (v / tableEntries ^ level) none
    if level < 3 ∧ s.tableEmpty root (level + 1) (v / tableEntries ^ (level + 1)) then
      let (s, rest) := detachEmpty root v fuel (level + 1) s
      (s, rest ++ p.toList)
    else (s, p.toList)

def userTablePrune (root v : ℕ) : Machine :=
  if root = s.kernelRoot ∨ v * pageBytes ≥ userSpaceEnd then s
  else
    let level := s.lowest root v
    if level = 4 ∨ !s.tableEmpty root level (v / tableEntries ^ level) then s
    else
      let (s, pages) := detachEmpty root v 3 level s
      pages.foldl pageRelease s

def pagesOf (address size : ℕ) : List ℕ := (List.range ((size + (pageBytes - 1)) / pageBytes)).map (address / pageBytes + ·)

def unmapPages (root address size : ℕ) (required : Pte → Bool) : Machine :=
  let s := (pagesOf address size).foldl (fun s v =>
    if s.pageEntry root v ∧ required (s.leaf root v) then s.setLeaf root v { s.leaf root v with present := false } else s) s
  let s := (pagesOf address size).foldl (fun s v =>
    if s.pageEntry root v ∧ s.leaf root v ≠ Pte.zero ∧ !(s.leaf root v).present then
      (s.mappingRelease { s.leaf root v with present := true }).setLeaf root v Pte.zero
    else s) s
  (pagesOf address size).foldl (fun s v => s.userTablePrune root v) s

/-! ### Address spaces -/

/-- The entries of a table. It is irreducible since a table is too large to be gone through by evaluation. -/
@[irreducible] def tableSlots : List ℕ := List.range tableEntries

@[irreducible] def userSlots : List ℕ := List.range 256

/-- `table_destroy`; level 0 is an entry of the lowest table. -/
def tableDestroy (root : ℕ) : ℕ → ℕ → Machine → Machine
  | 0, v, s => if (s.leaf root v).mapped then (s.setLeaf root v Pte.zero).mappingRelease (s.leaf root v) else s
  | level + 1, index, s =>
    match s.table root (level + 1) index with
    | none => s
    | some p =>
      let s := (tableSlots).foldl (fun s i => tableDestroy root level (index * tableEntries + i) s) s
      (s.setTable root (level + 1) index none).pageRelease p

/-- `table_clone`; level 0 is an entry of the lowest table. -/
def tableClone (source target : ℕ) : ℕ → ℕ → Machine → Machine × Bool
  | 0, v, s =>
    let e := s.leaf source v
    if e.mapped then
      let s := if e.device then s else s.pageRetain e.page
      ((s.setLeaf source v e.cloned).setLeaf target v e.cloned, true)
    else (s, true)
  | level + 1, index, s =>
    match s.table source (level + 1) index with
    | none => (s, true)
    | some _ =>
      match s.pageMallocOne with
      | (s, none) => (s, false)
      | (s, some p) =>
        match Lib.untilFail (fun i s => tableClone source target level (index * tableEntries + i) s)
            (tableSlots) (s.setTable target (level + 1) index (some p)) with
        | (s, none) => (s, true)
        | (s, some _) => (tableDestroy target (level + 1) index s, false)

lemma tableClone_zero (source target v : ℕ) : tableClone source target 0 v s =
    if (s.leaf source v).mapped then
      (((if (s.leaf source v).device then s else s.pageRetain (s.leaf source v).page).setLeaf source v
        (s.leaf source v).cloned).setLeaf target v (s.leaf source v).cloned, true)
    else (s, true) := rfl

lemma tableClone_succ (source target level index : ℕ) : tableClone source target (level + 1) index s =
    match s.table source (level + 1) index with
    | none => (s, true)
    | some _ =>
      match s.pageMallocOne with
      | (s, none) => (s, false)
      | (s, some p) =>
        match Lib.untilFail (fun i s => tableClone source target level (index * tableEntries + i) s)
            (tableSlots) (s.setTable target (level + 1) index (some p)) with
        | (s, none) => (s, true)
        | (s, some _) => (tableDestroy target (level + 1) index s, false) := rfl

end Machine

/-! ## The extents of mapped files -/

/-- `VM_ERROR_NOMEM`, `VM_ERROR_EXISTS` and `VM_ERROR_INVALID` -/
abbrev vmErrorNomem : ℤ := -12
abbrev vmErrorExists : ℤ := -17
abbrev vmErrorInvalid : ℤ := -22

abbrev vfsErrorAccess : ℤ := -13

structure Answers where
  /-- the nodes that `malloc` has left -/
  nodes : ℕ
  /-- the status of the write back of pages of a backing: the first page and their number -/
  writeback : ℕ → ℕ → ℕ → ℤ
  /-- `vfs_mapping_create`: a status that is not zero, or a backing -/
  created : Except ℤ VfsMapping
  /-- the number of the new backing -/
  number : ℕ
  /-- the end of the heap once the files have been written back -/
  heapEnd : ℕ

def Region.stop (r : Region) : ℕ := r.address + r.length

def Region.meets (r : Region) (root address stop : ℕ) : Bool := r.root = root ∧ ¬(stop ≤ r.address ∨ address ≥ r.stop)

def Region.index (r : Region) (address : ℕ) : ℕ := r.first + (address - r.address) / pageBytes

def vfsMappingRetain (backing : ℕ → Option VfsMapping) (b : ℕ) : ℕ → Option VfsMapping :=
  Function.update backing b ((backing b).map fun m => { m with references := m.references + 1 })

/-- `vfs_mapping_release`; the backing is gone with its last reference. -/
def vfsMappingRelease (backing : ℕ → Option VfsMapping) (b : ℕ) : ℕ → Option VfsMapping :=
  Function.update backing b
    ((backing b).bind fun m => if m.references - 1 = 0 then none else some { m with references := m.references - 1 })

namespace Machine

variable (s : Machine)

def fileRegionAt (root address : ℕ) : Option Region :=
  s.fileRegions.find? fun r => r.root = root ∧ address ≥ r.address ∧ address - r.address < r.length

def userVmFilePage (root address : ℕ) : Bool := (s.fileRegionAt root address).isSome

def vfsMappingSync (io : Answers) (b first count : ℕ) : ℤ :=
  match s.backing b with
  | none => 0
  | some m => if !m.shared ∨ !m.writable then 0 else io.writeback b first count

def fileMappingSync (io : Answers) (r : Region) (address length : ℕ) : ℤ :=
  s.vfsMappingSync io r.backing (r.index address) (length / pageBytes)

/-- `user_vm_clone` with the nodes that `malloc` has left -/
def userVmClone (source target nodes : ℕ) : Machine × Bool :=
  let copies := (s.fileRegions.filter (·.root = source)).map fun r => { r with root := target }
  if copies.length ≤ nodes then
    ({ s with
      fileRegions := copies ++ s.fileRegions
      backing := copies.foldl (fun backing r => vfsMappingRetain backing r.backing) s.backing }, true)
  else (s, false)

def userVmReleaseLocked (root : ℕ) : Machine :=
  { s with
    fileRegions := s.fileRegions.filter (·.root ≠ root)
    backing := (s.fileRegions.filter (·.root = root)).foldl (fun backing r => vfsMappingRelease backing r.backing) s.backing }

def fileRegionNext (root start stop : ℕ) : Option Region :=
  s.fileRegions.foldl (fun first r =>
    if r.meets root start stop then
      match first with
      | none => some r
      | some f => if r.address < f.address then some r else some f
    else first) none

/-- `file_range_next`: the end of the next part, and the extent that it lies in -/
def fileRangeNext (root cursor stop : ℕ) : ℕ × Option Region :=
  match s.fileRegionNext root cursor stop with
  | none => (stop, none)
  | some r => if cursor < r.address then (min r.address stop, none) else (min r.stop stop, some r)

/-- The calls of `file_range_next` up to the end of the range: start, end and extent of each part -/
def fileRange (root : ℕ) : ℕ → ℕ → ℕ → List (ℕ × ℕ × Option Region)
  | 0, _, _ => []
  | fuel + 1, cursor, stop =>
    if cursor ≥ stop then []
    else
      let (next, r) := s.fileRangeNext root cursor stop
      (cursor, next, r) :: fileRange root fuel next stop

/-! ### Replacement -/

/-- `file_regions_prepare` from an extent on: the status, and whether `split` is a node -/
def prepareFrom (io : Answers) (root address stop : ℕ) : List Region → ℕ → Bool → ℤ × Bool
  | [], _, split => (0, split)
  | r :: rest, nodes, split =>
    if !r.meets root address stop then prepareFrom io root address stop rest nodes split
    else
      let inside := address > r.address ∧ stop < r.stop
      if inside ∧ nodes = 0 then (vmErrorNomem, false)
      else
        let start := max address r.address
        let status := s.fileMappingSync io r start (min stop r.stop - start)
        if status ≠ 0 then (status, inside || split)
        else prepareFrom io root address stop rest (if inside then nodes - 1 else nodes) (inside || split)

def fileRegionsPrepare (io : Answers) (root address length nodes : ℕ) : ℤ × Bool :=
  s.prepareFrom io root address (address + length) s.fileRegions nodes false

end Machine

/-- `file_regions_remove` from an extent on: the extents and the backings; `none` if it uses a node that is not there -/
def removeFrom (root address stop : ℕ) :
    List Region → Bool → (ℕ → Option VfsMapping) → Option (List Region × (ℕ → Option VfsMapping))
  | [], _, backing => some ([], backing)
  | r :: rest, split, backing =>
    if !r.meets root address stop then (removeFrom root address stop rest split backing).map fun x => (r :: x.1, x.2)
    else if address ≤ r.address ∧ stop ≥ r.stop then
      removeFrom root address stop rest split (vfsMappingRelease backing r.backing)
    else if address > r.address then
      if stop < r.stop then
        if split then
          let tail := { r with address := stop, length := r.stop - stop, first := r.first + (stop - r.address) / pageBytes }
          (removeFrom root address stop rest false (vfsMappingRetain backing r.backing)).map fun x =>
            ({ r with length := address - r.address } :: tail :: x.1, x.2)
        else none
      else
        (removeFrom root address stop rest split backing).map fun x => ({ r with length := address - r.address } :: x.1, x.2)
    else
      (removeFrom root address stop rest split backing).map fun x =>
        ({ r with address := stop, length := r.stop - stop, first := r.first + (stop - r.address) / pageBytes } :: x.1, x.2)

namespace Machine

variable (s : Machine)

/-- `file_regions_remove`; the kernel has stopped if it uses a node that is not there. -/
def fileRegionsRemove (root address length : ℕ) (split : Bool) : Machine :=
  match removeFrom root address (address + length) s.fileRegions split s.backing with
  | some (regions, backing) => { s with fileRegions := regions, backing := backing }
  | none => { s with halted := true }

end Machine

/-! ## The mappings of user pages -/

/-- `page_fault_result_t` -/
inductive PageFaultResult
  | resolved | unhandled | noMemory
  deriving DecidableEq, Repr

def Pte.reachable (e : Pte) : Bool := e.present && e.user

def Pte.mapping (page : ℕ) (protection : Protection) (shared : Bool) : Pte where
  page := page
  present := protection.any
  write := protection.write && shared
  user := true
  nx := !protection.exec
  cow := protection.write && !shared
  shared := shared
  device := false
  aliased := false

def Pte.discarded (e : Pte) (frame : ℕ) : Pte :=
  { e with page := frame, write := false, aliased := false, cow := e.cow || e.write }

namespace Machine

variable (s : Machine)

/-- `arch_user_page_flags`: `none` for a page that is not mapped, else the rights -/
def archUserPageFlags (root v : ℕ) : Option Protection :=
  let e := s.leaf root v
  if !s.pageEntry root v ∨ !e.user then none
  else if !e.present then some ⟨false, false, false⟩
  else some ⟨true, e.write || e.cow, !e.nx⟩

/-! ### New mappings -/

def pageLink (root address : ℕ) : Machine × Bool :=
  if address < userSpaceStart ∨ address > userHeapEnd ∨ address % pageBytes ≠ 0 then (s, false)
  else
    let v := address / pageBytes
    match s.pageEntryCreate root v with
    | (s, false) => (s, false)
    | (s, true) =>
      match s.userPageAllocate with
      | (s, none) => (s, false)
      | (s, some p) =>
        let previous := s.leaf root v
        ((s.setLeaf root v ⟨p, true, true, true, true, false, false, false, false⟩).mappingRelease previous, true)

/-- The pages at which a failed mapping looks for empty tables: the first one, and the first one of each table up to the
last one -/
def pruneCursors : ℕ → ℕ → ℕ → List ℕ
  | 0, _, _ => []
  | fuel + 1, cursor, last =>
    let next := (cursor / tableEntries + 1) * tableEntries
    if next > last then [cursor] else cursor :: pruneCursors fuel next last

def mapRefused (root : ℕ) (replace : Bool) (v : ℕ) : Bool :=
  let e := s.leaf root v
  e ≠ Pte.zero ∧ (!replace ∨ (e.device ∨ (e.shared ∧ !s.userVmFilePage root (v * pageBytes))))

/-- The check of one page in `arch_user_map_pages` -/
def mapCheck (root : ℕ) (replace : Bool) (v : ℕ) : Machine × Bool :=
  match s.pageEntryCreate root v with
  | (s, false) => (s, false)
  | (s, true) => (s, !s.mapRefused root replace v)

/-- One batch of `arch_user_map_pages`: the new entries, and then the release of the old ones -/
def mapBatch (root : ℕ) (protection : Protection) (shared : Bool) (batch : List (ℕ × ℕ)) : Machine :=
  let retired := batch.map fun x => s.leaf root x.1
  let s := batch.foldl (fun s x => (s.pageRetain x.2).setLeaf root x.1 (Pte.mapping x.2 protection shared)) s
  retired.foldl mappingRelease s

def batches {α : Type} : ℕ → List α → List (List α)
  | 0, _ => []
  | _, [] => []
  | fuel + 1, l => l.take 64 :: batches fuel (l.drop 64)

def prepareZero : Machine × Bool :=
  match s.zeroPage with
  | some _ => (s, true)
  | none =>
    match s.userPageAllocate with
    | (s, none) => (s, false)
    | (s, some p) => ({ s with zeroPage := some p }, true)

/-- `arch_user_map_pages`; `backing` are physical pages. -/
def archUserMapPages (root address size : ℕ) (protection : Protection) (replace : Bool) (backing : Option (List ℕ))
    (shared : Bool) : Machine × Bool :=
  match if backing.isNone then s.prepareZero else (s, true) with
  | (s, false) => (s, false)
  | (s, true) =>
    let vs := pagesOf address size
    match Lib.untilFail (fun v s => s.mapCheck root replace v) vs s with
    | (s, some last) =>
      ((pruneCursors size (address / pageBytes) last).foldl (fun s v => s.userTablePrune root v) s, false)
    | (s, none) =>
      let frames := backing.getD (vs.map fun _ => s.zeroPage.getD 0)
      ((batches vs.length (vs.zip frames)).foldl (fun s batch => s.mapBatch root protection shared batch) s, true)

def archUserMap (root address size : ℕ) (protection : Protection) (replace : Bool) : Machine × Bool :=
  s.archUserMapPages root address size protection replace none false

/-- `arch_page_fault_resolve`: `fetch` and `store` are bits 4 and 1 of the error, `other` are bits that it does not
know. -/
def archPageFaultResolve (root address : ℕ) (other fetch store : Bool) : Machine × PageFaultResult :=
  let v := address / pageBytes
  let e := s.leaf root v
  if other then (s, .unhandled)
  else if !s.pageEntry root v ∨ !e.reachable then (s, .unhandled)
  else if fetch then (s, if e.nx then .unhandled else .resolved)
  else if !store ∨ e.write then (s, .resolved)
  else if !e.cow then (s, .unhandled)
  else if some e.page = s.zeroPage ∨ s.references e.page > 1 then
    match s.userPageAllocate with
    | (s, none) => (s, .noMemory)
    | (s, some copy) =>
      (((s.copyPage copy e.page).setLeaf root v { e with page := copy, cow := false, write := true }).pageRelease e.page,
        .resolved)
  else (s.setLeaf root v { e with cow := false, write := true }, .resolved)

/-- A store of a user program: it faults where the entry does not permit it, and is tried again. -/
def userStore (root address : ℕ) (byte : UInt8) : Machine × Bool :=
  let v := address / pageBytes
  let (s, permitted) :=
    if s.pageEntry root v ∧ (s.leaf root v).reachable ∧ (s.leaf root v).write then (s, true)
    else
      let (s, result) := s.archPageFaultResolve root address false false true
      (s, result = .resolved)
  if permitted then
    let p := (s.leaf root v).page
    ({ s with content := Function.update s.content p (Function.update (s.content p) (address % pageBytes) byte) }, true)
  else (s, false)

/-! ### Aliases -/

/-- The check of one page in `arch_user_alias` -/
def aliasCheck (root source target : ℕ) (i : ℕ) : Machine × Bool :=
  let v := source / pageBytes + i
  let w := target / pageBytes + i
  let present := s.pageEntry root v
  let (s, created) := s.pageEntryCreate root w
  let src := s.leaf root v
  let dst := s.leaf root w
  (s, present ∧ created ∧ src.reachable ∧ !(src.device || src.shared || src.aliased) ∧
    !(dst ≠ Pte.zero ∧ (!dst.user ∨ (dst.present || dst.device || dst.shared || dst.aliased))) ∧
      !(s.userVmFilePage root (v * pageBytes)) ∧ !(s.userVmFilePage root (w * pageBytes)))

def aliasOwn (root source : ℕ) (i : ℕ) : Machine × Bool :=
  let v := source / pageBytes + i
  let (s, failed) :=
    if (s.leaf root v).cow then
      let (s, result) := s.archPageFaultResolve root (v * pageBytes) false false true
      (s, result ≠ .resolved)
    else (s, false)
  if failed then (s, false)
  else
    let src := s.leaf root v
    if some src.page = s.zeroPage ∨ src.page ≥ s.pageCount ∨ s.references src.page > 1 then
      match s.userPageAllocate with
      | (s, none) => (s, false)
      | (s, some copy) =>
        (((s.copyPage copy src.page).setLeaf root v { src with page := copy }).pageRelease src.page, true)
    else (s, true)

def aliasJoin (root source target : ℕ) (i : ℕ) : Machine :=
  let v := source / pageBytes + i
  let w := target / pageBytes + i
  let src := s.leaf root v
  let s := (s.pageRetain src.page).setLeaf root v { src with aliased := true }
  let previous := s.leaf root w
  let s := s.setLeaf root w ⟨src.page, true, true, true, true, false, false, false, true⟩
  if previous ≠ Pte.zero ∧ some previous.page ≠ s.zeroPage then s.mappingRelease previous else s

/-- The tables of the first `count` target pages that are empty are taken back. -/
def pruneFirst (root target count : ℕ) : Machine :=
  (List.range count).foldl (fun s i => s.userTablePrune root (target / pageBytes + i)) s

def archUserAlias (root source target size : ℕ) : Machine × Bool :=
  if size = 0 ∨ source % pageBytes ≠ 0 ∨ target % pageBytes ≠ 0 ∨ size % pageBytes ≠ 0 ∨ source < userSpaceStart ∨
      source ≥ userHeapEnd ∨ size > userHeapEnd - source ∨ target < userSpaceStart ∨ target ≥ userHeapEnd ∨
        size > userHeapEnd - target ∨ (source < target + size ∧ target < source + size) then (s, false)
  else
    let count := size / pageBytes
    match Lib.untilFail (fun i s => s.aliasCheck root source target i) (List.range count) s with
    | (s, some i) => (s.pruneFirst root target (i + 1), false)
    | (s, none) =>
      match Lib.untilFail (fun i s => s.aliasOwn root source i) (List.range count) s with
      | (s, some _) => (s.pruneFirst root target count, false)
      | (s, none) => ((List.range count).foldl (fun s i => s.aliasJoin root source target i) s, true)

def archUserValidate (root address size : ℕ) : Bool :=
  (pagesOf address size).all fun v =>
    let e := s.leaf root v
    s.pageEntry root v && e.user && !e.device && !(e.shared && !s.userVmFilePage root (v * pageBytes))

def mustCopy (root v : ℕ) (e : Pte) : Bool :=
  (!e.shared && s.userVmFilePage root (v * pageBytes)) || some e.page = s.zeroPage || s.references e.page > 1

def protectedEntry (root v : ℕ) (protection : Protection) (e : Pte) : Pte :=
  let e := { e with
    present := protection.any
    write := false
    cow := false
    nx := !protection.exec }
  if protection.write then
    if e.shared || e.aliased then { e with write := true }
    else if s.mustCopy root v e then { e with cow := true }
    else { e with write := true }
  else e

/-- `user_pages_change` with `VM_PROTECT` -/
def archUserProtect (root address size : ℕ) (protection : Protection) : Machine × Bool :=
  if s.archUserValidate root address size then
    ((pagesOf address size).foldl (fun s v => s.setLeaf root v (s.protectedEntry root v protection (s.leaf root v))) s, true)
  else (s, false)

def discardPage (root v : ℕ) : Machine :=
  let e := s.leaf root v
  let frame := s.zeroPage.getD 0
  ((s.pageRetain frame).setLeaf root v (e.discarded frame)).mappingRelease e

/-- `user_pages_change` with `VM_DISCARD` -/
def archUserDiscard (root address size : ℕ) : Machine × Bool :=
  if s.archUserValidate root address size then ((pagesOf address size).foldl (fun s v => s.discardPage root v) s, true)
  else (s, false)

/-- `user_pages_change` with `VM_UNMAP` -/
def archUserUnmap (root address size : ℕ) : Machine × Bool :=
  if (pagesOf address size).all fun v => !(s.pageEntry root v) || !(s.leaf root v).user || !(s.leaf root v).device then
    (s.unmapPages root address size (·.user), true)
  else (s, false)

/-! ### Sharing -/

/-- The check of one page in `arch_address_space_share` -/
def shareCheck (source target fromRoot toRoot : ℕ) (i : ℕ) : Machine × Bool :=
  let v := source / pageBytes + i
  let w := target / pageBytes + i
  let present := s.pageEntry fromRoot v
  let (s, created) := s.pageEntryCreate toRoot w
  let src := s.leaf fromRoot v
  (s, present ∧ created ∧ src.reachable ∧ !src.device ∧ src.nx ∧ (src.write || src.cow) ∧ !(s.leaf toRoot w).present)

/-- A source page that is to be copied when it is written gets a page of its own. -/
def shareOwn (fromRoot v : ℕ) : Machine × Bool :=
  let src := s.leaf fromRoot v
  if src.cow then
    match s.userPageAllocate with
    | (s, none) => (s, false)
    | (s, some copy) =>
      (((s.copyPage copy src.page).setLeaf fromRoot v ⟨copy, true, true, true, true, false, false, false, false⟩).mappingRelease
        src, true)
  else (s, true)

/-- The target gets the entry of the source, and both are shared. -/
def publish (fromRoot v toRoot w : ℕ) : Machine :=
  let src := { s.leaf fromRoot v with shared := true, write := true }
  ((s.setLeaf fromRoot v src).pageRetain src.page).setLeaf toRoot w src

def sharePage (source target fromRoot toRoot : ℕ) (i : ℕ) : Machine × Bool :=
  match s.shareOwn fromRoot (source / pageBytes + i) with
  | (s, false) => (s, false)
  | (s, true) => (s.publish fromRoot (source / pageBytes + i) toRoot (target / pageBytes + i), true)

def archAddressSpaceUnmapShared (target size root : ℕ) : Machine × Bool :=
  if target % pageBytes ≠ 0 ∨ size % pageBytes ≠ 0 ∨ target < userSharedStart ∨ target ≥ userSharedEnd ∨
      size > userSharedEnd - target then (s, false)
  else (s.unmapPages root target size fun e => e.present && e.shared, true)

def archAddressSpaceShare (source target size fromRoot toRoot : ℕ) : Machine × Bool :=
  if size = 0 ∨ source % pageBytes ≠ 0 ∨ target % pageBytes ≠ 0 ∨ size % pageBytes ≠ 0 ∨ source < userSpaceStart ∨
      source ≥ userHeapEnd ∨ size > userHeapEnd - source ∨ target < userSharedStart ∨ target ≥ userSharedEnd ∨
        size > userSharedEnd - target then (s, false)
  else
    let count := size / pageBytes
    match Lib.untilFail (fun i s => s.shareCheck source target fromRoot toRoot i) (List.range count) s with
    | (s, some _) => (s, false)
    | (s, none) =>
      match Lib.untilFail (fun i s => s.sharePage source target fromRoot toRoot i) (List.range count) s with
      | (s, none) => (s, true)
      | (s, some i) => ((s.archAddressSpaceUnmapShared target (i * pageBytes) toRoot).1, false)

def archAddressSpaceMapUserDevice (root user physical size : ℕ) : Machine × Bool :=
  if size = 0 ∨ user % pageBytes ≠ 0 ∨ physical % pageBytes ≠ 0 ∨ size % pageBytes ≠ 0 ∨ user < userFramebufferStart ∨
      user ≥ userSpaceEnd ∨ size > userSpaceEnd - user then (s, false)
  else
    let (s, failed) := Lib.untilFail (fun i s =>
      let v := user / pageBytes + i
      match s.pageEntryCreate root v with
      | (s, false) => (s, false)
      | (s, true) =>
        let previous := s.leaf root v
        let s := s.setLeaf root v ⟨physical / pageBytes + i, true, true, true, true, false, false, true, false⟩
        (if previous.present then s.mappingRelease previous else s, true)) (List.range (size / pageBytes)) s
    (s, failed.isNone)

/-- `arch_address_space_prepare_exec_locked` -/
def prepareExecLocked (root : ℕ) : Machine :=
  (userSlots).foldl (fun s i => tableDestroy root 3 i s) s

def archAddressSpacePrepareExec (root : ℕ) : Machine × Bool :=
  if root = s.kernelRoot then (s, false) else ((s.prepareExecLocked root).userVmReleaseLocked root, true)

/-- `arch_address_space_release_locked`: a handle is given back, and the last one takes the address space with it. -/
def archAddressSpaceReleaseLocked (root : ℕ) : Machine :=
  if root = s.kernelRoot then s
  else
    let s := { s with handles := s.handles.erase root }
    if s.references root > 1 then s.pageRelease root
    else if s.references root = 1 then ((s.prepareExecLocked root).userVmReleaseLocked root).pageRelease root
    else s.pageRelease root

def archAddressSpaceRelease (root : ℕ) : Machine :=
  if root = s.kernelRoot then s
  else if s.references root > 1 then { s with handles := s.handles.erase root }.pageRelease root
  else s.archAddressSpaceReleaseLocked root

/-- `arch_address_space_clone` with the nodes that `malloc` has left -/
def archAddressSpaceClone (source nodes : ℕ) : Machine × Option ℕ :=
  match s.pageMallocOne with
  | (s, none) => (s, none)
  | (s, some root) =>
    let s := { s with handles := root ::ₘ s.handles }
    match Lib.untilFail (fun i s => tableClone source root 3 i s) (userSlots) s with
    | (s, some _) => (s.archAddressSpaceReleaseLocked root, none)
    | (s, none) =>
      match s.userVmClone source root nodes with
      | (s, true) => (s, some root)
      | (s, false) => (s.archAddressSpaceReleaseLocked root, none)

def archAddressSpaceRetain (root : ℕ) : Machine :=
  if root = s.kernelRoot then s else { s with handles := root ::ₘ s.handles }.pageRetain root

end Machine

/-! ### Runs -/

/-- What is done to the page tables, and what the rest of the kernel does with pages and with the extents of files -/
inductive PageEvent
  | map (root address size : ℕ) (protection : Protection) (replace : Bool) (backing : Option (List ℕ)) (shared : Bool)
  | unmap (root address size : ℕ)
  | protect (root address size : ℕ) (protection : Protection)
  | discard (root address size : ℕ)
  | alias (root source target size : ℕ)
  | link (root address : ℕ)
  | fault (root address : ℕ) (other fetch store : Bool)
  | store (root address : ℕ) (byte : UInt8)
  | clone (source nodes : ℕ)
  | share (source target size fromRoot toRoot : ℕ)
  | unmapShared (target size root : ℕ)
  | mapDevice (root user physical size : ℕ)
  | prepareExec (root : ℕ)
  | retain (root : ℕ)
  | release (root : ℕ)
  /-- pages are allocated, and the hint of the allocator is moved -/
  | allocate (pages : List ℕ) (hint : ℕ)
  /-- a page is given back by an owner -/
  | free (p : ℕ)
  /-- the extents of files change -/
  | files (regions : List Region) (backing : ℕ → Option VfsMapping)

namespace Machine

variable (s : Machine)

/-- The range is one that `user_vm_operation` lets pass. -/
def userRange (address size : ℕ) : Bool :=
  address % pageBytes = 0 ∧ size % pageBytes = 0 ∧ userSpaceStart ≤ address ∧ address + size ≤ userHeapEnd

/-- One step. The pages of a file are those of its cache, and a user program, which alone discards pages, is started with
zeroed pages for its stack. -/
def step : PageEvent → Option Machine
  | .map root address size protection replace backing shared =>
    if !s.halted ∧ root ∈ s.handles ∧ userRange address size ∧
        (∀ frames ∈ backing, (∀ p ∈ frames, p ∈ s.owners) ∧ frames.length = size / pageBytes) then
      some (s.archUserMapPages root address size protection replace backing shared).1
    else none
  | .unmap root address size =>
    if !s.halted ∧ root ∈ s.handles ∧ userRange address size then some (s.archUserUnmap root address size).1 else none
  | .protect root address size protection =>
    if !s.halted ∧ root ∈ s.handles ∧ userRange address size then
      some (s.archUserProtect root address size protection).1
    else none
  | .discard root address size =>
    if !s.halted ∧ root ∈ s.handles ∧ userRange address size ∧ s.zeroPage.isSome then
      some (s.archUserDiscard root address size).1
    else none
  | .alias root source target size =>
    if !s.halted ∧ root ∈ s.handles then some (s.archUserAlias root source target size).1 else none
  | .link root address => if !s.halted ∧ root ∈ s.handles then some (s.pageLink root address).1 else none
  | .fault root address other fetch store =>
    if !s.halted ∧ root ∈ s.handles then some (s.archPageFaultResolve root address other fetch store).1 else none
  | .store root address byte => if !s.halted ∧ root ∈ s.handles then some (s.userStore root address byte).1 else none
  | .clone source nodes =>
    if !s.halted ∧ (source ∈ s.handles ∨ source = s.kernelRoot) then some (s.archAddressSpaceClone source nodes).1 else none
  | .share source target size fromRoot toRoot =>
    if !s.halted ∧ fromRoot ∈ s.handles ∧ toRoot ∈ s.handles then
      some (s.archAddressSpaceShare source target size fromRoot toRoot).1
    else none
  | .unmapShared target size root =>
    if !s.halted ∧ root ∈ s.handles then some (s.archAddressSpaceUnmapShared target size root).1 else none
  | .mapDevice root user physical size =>
    if !s.halted ∧ root ∈ s.handles then some (s.archAddressSpaceMapUserDevice root user physical size).1 else none
  | .prepareExec root =>
    if !s.halted ∧ root ∈ s.handles then some (s.archAddressSpacePrepareExec root).1 else none
  | .retain root => if !s.halted ∧ root ∈ s.handles then some (s.archAddressSpaceRetain root) else none
  | .release root => if !s.halted ∧ root ∈ s.handles then some (s.archAddressSpaceRelease root) else none
  | .allocate pages hint =>
    if !s.halted ∧ pages.Nodup ∧ (∀ p ∈ pages, s.references p = 0 ∧ p < s.pageCount) ∧ hint ≤ s.pageCount then
      some { pages.foldl take s with allocationHint := hint, owners := pages + s.owners }
    else none
  | .free p =>
    if !s.halted ∧ p ∈ s.owners ∧ p ≠ s.kernelRoot then some { s.pageRelease p with owners := s.owners.erase p }
    else none
  | .files regions backing => if !s.halted then some { s with fileRegions := regions, backing := backing } else none

/-- Every reference is one of the kernel, and there is no address space but its own. -/
def initial (s : Machine) : Prop :=
  (∀ p, s.references p = s.owners.count p) ∧ s.handles = 0 ∧ s.zeroPage = none ∧ s.kernelRoot ∈ s.owners ∧
    (∀ root v, s.leaf root v = Pte.zero) ∧ (∀ root level index, s.table root level index = none) ∧
      (∀ p, s.references p ≠ 0 → p < s.pageCount) ∧ s.allocationHint ≤ s.pageCount ∧ s.userHint ≤ s.pageCount

end Machine

/-! ## The memory operations of user programs -/

/-- The operations of `SYSCALL_VM`; `other` is a number from `VM_OPERATION_COUNT` on. -/
inductive VmOperation
  | map | protect | unmap | discard | sync | alias | other
  deriving DecidableEq, Repr

/-- `vm_request_t` -/
structure VmRequest where
  address : ℕ
  length : ℕ
  alignment : ℕ
  protection : ℕ
  flags : ℕ
  offset : ℕ
  descriptor : ℤ
  reserved : ℕ
  deriving DecidableEq, Repr

def Protection.ofBits (n : ℕ) : Protection := ⟨n.testBit 0, n.testBit 1, n.testBit 2⟩

namespace VmRequest

variable (request : VmRequest)

/-- `VM_REPLACE`, `VM_FILE` and `VM_SHARED` in the flags -/
def replace : Bool := request.flags.testBit 0
def file : Bool := request.flags.testBit 1
def shared : Bool := request.flags.testBit 2

def rights : Protection := Protection.ofBits request.protection

def vmRequestSupported (operation : VmOperation) : Bool :=
  if operation = .other ∨ request.length = 0 ∨ (request.reserved ||| request.flags) >>> 3 ≠ 0 ∨ request.protection ≥ 8 ∨
      (request.rights.write ∧ request.rights.exec) then false
  else
    match operation with
    | .alias =>
      request.flags = 0 ∧ request.alignment = 0 ∧ request.descriptor = 0 ∧ request.offset ≥ userSpaceStart ∧
        request.offset < userHeapEnd ∧ request.offset % pageBytes = 0 ∧ request.length ≤ userHeapEnd - request.offset ∧
          request.rights = ⟨true, true, false⟩
    | .map =>
      if request.file then request.offset % pageBytes = 0
      else !(request.offset ≠ 0 ∨ request.descriptor ≠ 0 ∨ request.shared)
    | _ =>
      request.flags = 0 ∧ request.alignment = 0 ∧ request.offset = 0 ∧ request.descriptor = 0 ∧
        (operation = .protect ∨ request.protection = 0)

end VmRequest

namespace Machine

variable (s : Machine)

/-! ### Ranges of files -/

/-- `user_file_examine`: the status of the first loop, over the parts of the range -/
def examineParts (root : ℕ) (operation : VmOperation) (protection : Protection) : List (ℕ × ℕ × Option Region) → ℤ
  | [] => 0
  | (cursor, next, r) :: rest =>
    if !s.archUserValidate root cursor (next - cursor) then vmErrorInvalid
    else if operation = .protect ∧ protection.write ∧ (r.any fun r => (s.backing r.backing).any fun m => !m.writable) then
      vfsErrorAccess
    else examineParts root operation protection rest

/-- The status of the second loop for `VM_SYNC` -/
def syncParts (io : Answers) : List (ℕ × ℕ × Option Region) → ℤ
  | [] => 0
  | (_, _, none) :: rest => syncParts io rest
  | (cursor, next, some r) :: rest =>
    let status := s.fileMappingSync io r cursor (next - cursor)
    if status ≠ 0 then status else syncParts io rest

def userFileExamine (io : Answers) (operation : VmOperation) (root address length : ℕ) (protection : Protection) :
    Machine × ℤ :=
  let parts := s.fileRange root (length + 1) address (address + length)
  let status := if operation = .protect ∨ operation = .sync then s.examineParts root operation protection parts else 0
  if status ≠ 0 then (s, status)
  else if operation = .protect then
    match Lib.untilFail (fun part s => s.archUserProtect root part.1 (part.2.1 - part.1) protection) parts s with
    | (s, none) => (s, 0)
    | (s, some _) => (s, vmErrorInvalid)
  else (s, s.syncParts io parts)

/-- The length of the pages from one on that have its flags, up to the end of the part -/
def sameFlags (root cursor stop : ℕ) : ℕ :=
  let pages := (List.range ((stop - cursor) / pageBytes)).takeWhile fun i =>
    s.archUserPageFlags root (cursor / pageBytes + i) = s.archUserPageFlags root (cursor / pageBytes)
  max pages.length 1 * pageBytes

/-- The pages of a private extent are mapped again, in runs of one protection. -/
def discardRuns (root : ℕ) (r : Region) (frames : List ℕ) (stop : ℕ) : ℕ → ℕ → Machine → Machine × Bool
  | 0, _, s => (s, true)
  | fuel + 1, cursor, s =>
    if cursor ≥ stop then (s, true)
    else
      let run := s.sameFlags root cursor stop
      let flags := (s.archUserPageFlags root (cursor / pageBytes)).getD ⟨false, false, false⟩
      match s.archUserMapPages root cursor run flags true (some ((frames.drop (r.index cursor)).take (run / pageBytes)))
          false with
      | (s, false) => (s, false)
      | (s, true) => discardRuns root r frames stop fuel (cursor + run) s

/-- One part of `user_file_discard` -/
def discardPart (io : Answers) (root : ℕ) (part : ℕ × ℕ × Option Region) : Machine × Bool :=
  let (cursor, next, r) := part
  match r with
  | none => s.archUserDiscard root cursor (next - cursor)
  | some r =>
    match s.backing r.backing with
    | none => (s, false)
    | some m =>
      if !m.shared then discardRuns root r m.frames next (next - cursor) cursor s
      else (s, s.fileMappingSync io r cursor (next - cursor) = 0)

def userFileDiscard (io : Answers) (root address length : ℕ) : Machine × Bool :=
  let (s, failed) := Lib.untilFail (fun part s => s.discardPart io root part)
    (s.fileRange root (length + 1) address (address + length)) s
  (s, failed.isNone)

def userFileMap (io : Answers) (root address length : ℕ) (request : VmRequest) : Machine × ℤ :=
  if io.nodes = 0 then (s, vmErrorNomem)
  else
    match io.created with
    | .error status => (s, status)
    | .ok m =>
      if request.rights.write ∧ !m.writable then (s, vfsErrorAccess)
      else
        let s := { s with backing := Function.update s.backing io.number (some m) }
        let (status, split) :=
          if address < io.heapEnd then (vmErrorInvalid, false) else s.fileRegionsPrepare io root address length (io.nodes - 1)
        if status ≠ 0 then ({ s with backing := vfsMappingRelease s.backing io.number }, status)
        else
          match s.archUserMapPages root address length request.rights request.replace (some m.frames) m.shared with
          | (s, false) => ({ s with backing := vfsMappingRelease s.backing io.number }, vmErrorNomem)
          | (s, true) =>
            let s := s.fileRegionsRemove root address length split
            ({ s with fileRegions := ⟨root, address, length, 0, io.number⟩ :: s.fileRegions }, 0)

def userVmApply (io : Answers) (operation : VmOperation) (root address : ℕ) (request : VmRequest) : Machine × ℤ :=
  let length := request.length
  if operation = .alias then
    match s.archUserAlias root request.offset address length with
    | (s, true) => (s, 0)
    | (s, false) => (s, vmErrorNomem)
  else if operation = .discard then
    if !((pagesOf address length).all fun v => (s.archUserPageFlags root v).any (·.read)) then (s, vmErrorInvalid)
    else
      match s.userFileDiscard io root address length with
      | (s, true) => (s, 0)
      | (s, false) => (s, vmErrorNomem)
  else if operation = .protect ∨ operation = .sync then
    s.userFileExamine io operation root address length request.rights
  else if operation = .map ∧ request.file then s.userFileMap io root address length request
  else
    let (status, split) := s.fileRegionsPrepare io root address length io.nodes
    if status ≠ 0 then (s, status)
    else if address < io.heapEnd then (s, vmErrorInvalid)
    else
      let (s, success) :=
        if operation = .unmap then s.archUserUnmap root address length
        else s.archUserMap root address length request.rights request.replace
      if !success then (s, if operation = .map then vmErrorNomem else vmErrorInvalid)
      else (s.fileRegionsRemove root address length split, 0)

/-! ### Requests -/

/-- The loop of `arch_user_find_free`; `available` bytes are free from `page` on. -/
def findFreeFrom (root lower size alignment : ℕ) : ℕ → ℕ → ℕ → ℕ
  | 0, _, _ => 0
  | fuel + 1, page, available =>
    if page ≤ lower then 0
    else
      let page := page - pageBytes
      let available := if (s.archUserPageFlags root (page / pageBytes)).isSome then 0 else available + pageBytes
      if available ≥ size ∧ page % alignment = 0 then page else findFreeFrom root lower size alignment fuel page available

def archUserFindFree (root lower upper size alignment : ℕ) : ℕ := s.findFreeFrom root lower size alignment upper upper 0

def userVmRangeFree (root address length : ℕ) : Bool :=
  s.archUserFindFree root address (address + length) length pageBytes = address

/-- The address that is looked for downward from the hint, and then from the end of user space: 0 if there is none -/
def vmPlace (root lower hint length alignment : ℕ) : ℕ :=
  let upper := if hint > lower then hint else userHeapEnd
  let address := if length ≤ upper - lower then s.archUserFindFree root lower upper length alignment else 0
  if address = 0 ∧ upper ≠ userHeapEnd then s.archUserFindFree root lower userHeapEnd length alignment else address

/-- `user_vm_operation`: `heap` are `alloc_addr` and `*alloc_size`, and `hint` is the `vm_hint` of the owner. -/
def userVmOperation (io : Answers) (heap : Option (ℕ × ℕ)) (hint : ℕ) (operation : VmOperation) (root : ℕ)
    (request : VmRequest) : Machine × ℤ × ℕ :=
  let length := request.length
  let alignment := if operation = .alias then pageBytes else request.alignment
  match heap with
  | none => (s, vmErrorInvalid, hint)
  | some (base, size) =>
    if !request.vmRequestSupported operation ∨ request.address % pageBytes ≠ 0 ∨ length % pageBytes ≠ 0 ∨
        (operation = .map ∧ (alignment < pageBytes ∨ ¬alignment.isPowerOfTwo ∨ request.address % alignment ≠ 0 ∨
          (request.replace ∧ !request.file ∧ request.address = 0))) then (s, vmErrorInvalid, hint)
    else
      let lower := (base + size) % 2 ^ 64
      if lower < base ∨ lower ≥ userHeapEnd ∨ length > userHeapEnd - lower then (s, vmErrorNomem, hint)
      else
        let placed := operation = .map ∨ operation = .alias
        let address :=
          if request.address = 0 ∧ placed then s.vmPlace root lower hint length alignment else request.address
        if request.address = 0 ∧ placed ∧ address = 0 then (s, vmErrorNomem, hint)
        else if address < lower ∨ address ≥ userHeapEnd ∨ length > userHeapEnd - address then (s, vmErrorInvalid, hint)
        else if operation = .map ∧ !request.replace ∧ !s.userVmRangeFree root address length then (s, vmErrorExists, hint)
        else
          let (s, result) := s.userVmApply io operation root address request
          if placed then if result < 0 then (s, result, hint) else (s, address, address)
          else if result = 0 ∧ operation = .unmap ∧ address + length > hint then (s, 0, address + length)
          else (s, result, hint)

end Machine

/-! ### Runs -/

inductive VmEvent
  /-- a request of a program; `io` is what it gets from the rest of the kernel -/
  | operation (io : Answers) (heap : Option (ℕ × ℕ)) (hint : ℕ) (operation : VmOperation) (root : ℕ) (request : VmRequest)
  /-- the rights of a segment of a program: `x64_user_protect` in `arch_executable_load` -/
  | segment (root address size : ℕ) (write exec : Bool)
  /-- a page of the stack of a program: `arch_user_map_zero` -/
  | zeroed (root address : ℕ)
  | page (e : PageEvent)

def PageEvent.direct : PageEvent → Bool
  | .map .. | .protect .. | .discard .. | .alias .. | .files .. => false
  | _ => true

/-- A backing is new, and its pages are those of the cache. -/
def Answers.fits (io : Answers) (s : Machine) (request : VmRequest) : Bool :=
  match io.created with
  | .error status => status ≠ 0
  | .ok m =>
    m.references = 1 ∧ (∀ p ∈ m.frames, p ∈ s.owners) ∧ m.frames.length = request.length / pageBytes ∧
      m.shared = request.shared ∧ (m.shared || m.writable) ∧ (s.backing io.number).isNone

namespace Machine

/-- One step. The cache keeps the pages of the files that are mapped; there is a zero page since a program is started with
zeroed pages for its stack; `arch_executable_validate` refuses a segment that is both writable and executable. -/
def vmStep (s : Machine) : VmEvent → Option Machine
  | .operation io heap hint operation root request =>
    if !s.halted ∧ root ∈ s.handles ∧ s.zeroPage.isSome ∧ io.fits s request ∧
        (∀ r ∈ s.fileRegions, ∀ m ∈ s.backing r.backing, ∀ p ∈ m.frames, p ∈ s.owners) then
      some (s.userVmOperation io heap hint operation root request).1
    else none
  | .segment root address size write exec =>
    if !s.halted ∧ root ∈ s.handles ∧ userRange address size ∧ !(write && exec) then
      some (s.archUserProtect root address size ⟨true, write, exec⟩).1
    else none
  | .zeroed root address =>
    if !s.halted ∧ root ∈ s.handles ∧ userRange address pageBytes then
      some (s.archUserMap root address pageBytes ⟨true, true, false⟩ false).1
    else none
  | .page e => if e.direct then s.step e else none

/-- `initial`, and no file is mapped. -/
def vmInitial (s : Machine) : Prop := initial s ∧ s.fileRegions = [] ∧ ∀ b, s.backing b = none

def vm : Lib.System Machine VmEvent := ⟨vmInitial, vmStep⟩

end Machine

end PlantOS.Mm
