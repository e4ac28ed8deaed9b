import PlantOS.Vfs.FileCalls
import PlantOS.Vfs.Namespace

/-!
# Calls with paths

`vfs_open`, `vfs_mkdir`, `vfs_unlink`, `vfs_rmdir`, `vfs_rename` and `vfs_context_chdir` on one mount, each from its
first path walk to the end, and all calls on the mount.
-/

namespace PlantOS.Vfs

/-- `struct vfs_dentry` with its parents up to the root of the mount -/
structure FileDentry where
  node : VfsNode
  parents : List VfsNode
  deriving DecidableEq, Repr

namespace FileDentry

/-- The dentry of `..` -/
def up (dentry : FileDentry) : FileDentry :=
  match dentry.parents with
  | [] => dentry
  | parent :: parents => ⟨parent, parents⟩

/-- `vfs_dentry_create` -/
def child (dentry : FileDentry) (node : VfsNode) : FileDentry := ⟨node, dentry.node :: dentry.parents⟩

/-- The nodes that `vfs_node_is_cwd` looks at. -/
def ids (dentry : FileDentry) : List VfsNodeId := (dentry.node :: dentry.parents).map (·.id)

end FileDentry

/-- A mount with its open files, and the working directories in it. -/
structure MountedState (S : Type) extends FileState S where
  drive : ℕ
  root : VfsNode
  /-- `vfs_handles` -/
  handles : List ℕ
  /-- `vfs_contexts` -/
  contexts : List (ℕ × FileDentry)

/-- What `malloc` answers in a call: to the dentries of the two or three path walks, to the copies of the paths of
`vfs_resolve_parent`, and to the handle. -/
structure CallMemory where
  dentry : ℕ → ℕ → Bool
  copy : ℕ → Bool
  handle : Bool

namespace MountedState

variable {S : Type} (V : Volume S)

/-! ### Path walks -/

/-- The loop of `vfs_resolve` over the components -/
def walk (granted : ℕ → Bool) : List Component → S → FileDentry → S × Except VfsError FileDentry
  | [], v, current => (v, .ok current)
  | .here :: rest, v, current => walk granted rest v current
  | .up :: rest, v, current => walk granted rest v current.up
  | .name name :: rest, v, current =>
    if current.node.type ≠ .directory then (v, .error .notDirectory)
    else
      match V.normalizeName name with
      | .error e => (v, .error e)
      | .ok normalized =>
        let (v', status) := V.lookup v current.node normalized
        match V.mountStatus v' status with
        | .error e => (v', .error e)
        | .ok node => if granted rest.length then walk granted rest v' (current.child node) else (v', .error .noMemory)

variable (s : MountedState S)

/-- `vfs_resolve`; the mount has the only drive. -/
def vfsResolve (context : ℕ) (path : Path) (granted : ℕ → Bool) (v : S) : S × Except VfsError FileDentry :=
  match s.contexts.lookup context with
  | none => (v, .error .invalid)
  | some cwd =>
    if path.origin ≠ .cwd ∧ path.origin ≠ .root ∧ path.origin ≠ .drive s.drive then (v, .error .noEntry)
    else if !V.diskReady v then (v, .error .io)
    else walk V granted path.components v (if path.origin = .cwd then cwd else ⟨s.root, []⟩)

/-- `vfs_resolve_parent`: the parent, and the name in it. -/
def vfsResolveParent (context : ℕ) (path : Path) (copied : Bool) (granted : ℕ → Bool) (v : S) :
    S × Except VfsError (FileDentry × String) :=
  match path.splitLeaf with
  | none => (v, .error .invalid)
  | some (parentPath, leaf) =>
    if !copied then (v, .error .noMemory)
    else
      match s.vfsResolve V context parentPath granted v with
      | (v', .error e) => (v', .error e)
      | (v', .ok parent) =>
        if parent.node.type ≠ .directory then (v', .error .notDirectory)
        else
          match V.normalizeName leaf with
          | .error e => (v', .error e)
          | .ok normalized => (v', .ok (parent, normalized))

/-! ### `vfs_open` -/

/-- `filesystem->create` under the lock -/
def fsCreate (v : S) (parent : VfsNode) (name : String) (type : VfsNodeType) : S × Except VfsError VfsNode :=
  match V.create with
  | none => (v, .error .readOnly)
  | some create =>
    let (v', status) := if V.diskWritable v then create v parent name type else (v, .error .readOnly)
    (v', V.mountStatus v' status)

/-- The part of `vfs_open` that finds the file, or creates it. -/
def openDentry (context : ℕ) (path : Path) (flags : OpenFlags) (memory : CallMemory) (v : S) :
    S × Except VfsError FileDentry :=
  match s.vfsResolve V context path (memory.dentry 0) v with
  | (v, .error e) =>
    if e = .noEntry ∧ flags.create then
      match s.vfsResolveParent V context path (memory.copy 0) (memory.dentry 1) v with
      | (v, .error e) => (v, .error e)
      | (v, .ok (parent, name)) =>
        match fsCreate V v parent.node name .file with
        | (v, .error e) => (v, .error e)
        | (v, .ok node) => (v, if memory.dentry 2 0 then .ok (parent.child node) else .error .noMemory)
    else (v, .error e)
  | (v, .ok dentry) => (v, if flags.create && flags.exclusive then .error .exists_ else .ok dentry)

/-- The end of `vfs_open`: the new handle -/
def publish (handle : ℕ) (node : VfsNode) (flags : OpenFlags) (granted : Bool) : MountedState S × Except VfsError Unit :=
  if granted then
    ({ s with
        handle := Function.update s.handle handle
          (some ⟨node, flags.read, flags.write, flags.append, if flags.append then node.size else 0⟩)
        handles := handle :: s.handles }, .ok ())
  else (s, .error .noMemory)

/-- The checks of `vfs_open` on the file, and its truncation. -/
def openNode (handle : ℕ) (node : VfsNode) (flags : OpenFlags) (granted : Bool) :
    MountedState S × Except VfsError Unit :=
  if flags.directory ∧ node.type ≠ .directory then (s, .error .notDirectory)
  else if !flags.directory ∧ node.type ≠ .file then (s, .error .isDirectory)
  else if flags.write ∧ (V.write.isNone ∨ !V.diskWritable s.volume) then (s, .error .readOnly)
  else if !flags.truncate then s.publish handle node flags granted
  else if s.cache.vfsCacheMapped node.id then (s, .error .busy)
  else
    match flags.write, V.truncate with
    | true, some truncate =>
      let (v, status) : S × Except VfsError Unit :=
        if V.diskWritable s.volume then ((truncate s.volume node 0).1, (truncate s.volume node 0).2.2)
        else (s.volume, .error .readOnly)
      let s := { s with volume := v }
      match V.mountStatus v status with
      | .error e => (s, .error e)
      | .ok () =>
        let files := s.toFileState.vfsUpdateOpenSizes node.id 0
        let files := { files with cache := files.cache.vfsCacheInvalidateNode node.id }
        { s with toFileState := files }.publish handle { node with size := 0 } flags granted
    | _, _ => (s, .error .invalid)

/-- `vfs_open`; `handle` is the name of the new handle. -/
def vfsOpen (context : ℕ) (path : Path) (flags : OpenFlags) (handle : ℕ) (memory : CallMemory) :
    MountedState S × Except VfsError Unit :=
  if path = ⟨.cwd, []⟩ ∨ !flags.valid then (s, .error .invalid)
  else
    match s.openDentry V context path flags memory s.volume with
    | (v, .error e) => ({ s with volume := v }, .error e)
    | (v, .ok dentry) => { s with volume := v }.openNode V handle dentry.node flags memory.handle

/-- `vfs_close` of the last reference -/
def vfsClose (handle : ℕ) : MountedState S :=
  { s with handle := Function.update s.handle handle none, handles := s.handles.erase handle }

/-! ### The calls that change directories -/

def vfsNodeOpen (id : VfsNodeId) : Bool := s.handles.any fun h => (s.handle h).any (·.node.id = id)

def vfsNodeIsCwd (id : VfsNodeId) : Bool := s.contexts.any fun context => id ∈ context.2.ids

def inUse (node : VfsNode) : Bool := s.vfsNodeOpen node.id || node.type = .directory && s.vfsNodeIsCwd node.id

def vfsContextChdir (context : ℕ) (path : Path) (memory : CallMemory) : MountedState S × Except VfsError Unit :=
  match s.vfsResolve V context path (memory.dentry 0) s.volume with
  | (v, .error e) => ({ s with volume := v }, .error e)
  | (v, .ok directory) =>
    if directory.node.type ≠ .directory then ({ s with volume := v }, .error .notDirectory)
    else
      ({ s with
          volume := v
          contexts := s.contexts.map fun c => if c.1 = context then (context, directory) else c }, .ok ())

def vfsMkdir (context : ℕ) (path : Path) (memory : CallMemory) : MountedState S × Except VfsError Unit :=
  match s.vfsResolveParent V context path (memory.copy 0) (memory.dentry 0) s.volume with
  | (v, .error e) => ({ s with volume := v }, .error e)
  | (v, .ok (parent, name)) =>
    let (v, status) := fsCreate V v parent.node name .directory
    ({ s with volume := v }, status.map fun _ => ())

/-- The cache after a call that has removed or renamed the node, or failed. -/
def finish (v : S) (id : VfsNodeId) (status : Except VfsError Unit) : MountedState S × Except VfsError Unit :=
  match status with
  | .error e => ({ s with volume := v }, .error e)
  | .ok () => ({ s with volume := v, cache := s.cache.vfsCacheInvalidateNode id }, .ok ())

/-- `vfs_remove_entry`: `vfs_unlink` and `vfs_rmdir` -/
def vfsRemoveEntry (context : ℕ) (path : Path) (type : VfsNodeType) (memory : CallMemory) :
    MountedState S × Except VfsError Unit :=
  match s.vfsResolve V context path (memory.dentry 0) s.volume with
  | (v, .error e) => ({ s with volume := v }, .error e)
  | (v, .ok target) =>
    if target.node.type ≠ type then
      ({ s with volume := v }, .error (if type = .directory then .notDirectory else .isDirectory))
    else if s.inUse target.node then ({ s with volume := v }, .error .busy)
    else
      match s.vfsResolveParent V context path (memory.copy 0) (memory.dentry 1) v with
      | (v, .error e) => ({ s with volume := v }, .error e)
      | (v, .ok (parent, name)) =>
        match V.remove with
        | none => ({ s with volume := v }, .error .readOnly)
        | some remove =>
          let (v, status) := if V.diskWritable v then remove v parent.node name type else (v, .error .readOnly)
          s.finish v target.node.id (V.mountStatus v status)

def vfsRename (context : ℕ) (source destination : Path) (memory : CallMemory) : MountedState S × Except VfsError Unit :=
  match s.vfsResolve V context source (memory.dentry 0) s.volume with
  | (v, .error e) => ({ s with volume := v }, .error e)
  | (v, .ok target) =>
    if s.inUse target.node then ({ s with volume := v }, .error .busy)
    else
      match s.vfsResolveParent V context source (memory.copy 0) (memory.dentry 1) v with
      | (v, .error e) => ({ s with volume := v }, .error e)
      | (v, .ok (sourceParent, sourceName)) =>
        match s.vfsResolveParent V context destination (memory.copy 1) (memory.dentry 2) v with
        | (v, .error e) => ({ s with volume := v }, .error e)
        | (v, .ok (destinationParent, destinationName)) =>
          match V.rename with
          | none => ({ s with volume := v }, .error .readOnly)
          | some rename =>
            let (v, status) :=
              if V.diskWritable v then rename v sourceParent.node sourceName destinationParent.node destinationName
              else (v, .error .readOnly)
            s.finish v target.node.id (V.mountStatus v status)

end MountedState

/-! ### All calls -/

inductive VfsCall
  | open_ (context : ℕ) (path : Path) (flags : OpenFlags) (handle : ℕ) (memory : CallMemory)
  | close (handle : ℕ)
  | chdir (context : ℕ) (path : Path) (memory : CallMemory)
  | mkdir (context : ℕ) (path : Path) (memory : CallMemory)
  | removeEntry (context : ℕ) (path : Path) (type : VfsNodeType) (memory : CallMemory)
  | rename (context : ℕ) (source destination : Path) (memory : CallMemory)
  | read (handle length : ℕ) (memory : ℕ → LoadMemory)
  | pread (handle length offset : ℕ) (memory : ℕ → LoadMemory)
  | write (handle : ℕ) (bytes : List UInt8)
  | seek (handle : ℕ) (offset : ℤ) (whence : FileState.Whence)
  | sync (handle : ℕ)
  | fdTruncate (handle length : ℕ)
  | mappingCreate (mapping handle offset length : ℕ) (shared mapped : Bool) (memory : ℕ → LoadMemory)
  | mappingRetain (mapping : ℕ)
  | mappingRelease (mapping : ℕ)
  | mappingSync (mapping first count : ℕ)

inductive Answer
  | done
  | count (n : ℕ)
  | bytes (bytes : List UInt8)
  deriving DecidableEq, Repr

namespace MountedState

variable {S : Type} (V : Volume S) (s : MountedState S)

def onFiles {α : Type} (f : α → Answer) (result : FileState S × Except VfsError α) :
    MountedState S × Except VfsError Answer :=
  ({ s with toFileState := result.1 }, result.2.map f)

def perform : VfsCall → MountedState S × Except VfsError Answer
  | .open_ context path flags handle memory =>
    let (s, status) := s.vfsOpen V context path flags handle memory
    (s, status.map fun _ => .done)
  | .close handle => (s.vfsClose handle, .ok .done)
  | .chdir context path memory =>
    let (s, status) := s.vfsContextChdir V context path memory
    (s, status.map fun _ => .done)
  | .mkdir context path memory =>
    let (s, status) := s.vfsMkdir V context path memory
    (s, status.map fun _ => .done)
  | .removeEntry context path type memory =>
    let (s, status) := s.vfsRemoveEntry V context path type memory
    (s, status.map fun _ => .done)
  | .rename context source destination memory =>
    let (s, status) := s.vfsRename V context source destination memory
    (s, status.map fun _ => .done)
  | .read handle length memory => s.onFiles .bytes (s.vfsRead V handle length memory)
  | .pread handle length offset memory => s.onFiles .bytes (s.vfsPread V handle length offset memory)
  | .write handle bytes => s.onFiles .count (s.vfsWrite V handle bytes)
  | .seek handle offset whence => s.onFiles .count (s.vfsSeek handle offset whence)
  | .sync handle => s.onFiles (fun _ => .done) (s.vfsSync V handle)
  | .fdTruncate handle length => s.onFiles (fun _ => .done) (s.vfsFdTruncate V handle length)
  | .mappingCreate mapping handle offset length shared mapped memory =>
    s.onFiles (fun _ => .done) (s.vfsMappingCreate V mapping handle offset length shared mapped memory)
  | .mappingRetain mapping => ({ s with toFileState := s.vfsMappingRetain mapping }, .ok .done)
  | .mappingRelease mapping => ({ s with toFileState := s.vfsMappingRelease mapping }, .ok .done)
  | .mappingSync mapping first count => s.onFiles (fun _ => .done) (s.vfsMappingSync V mapping first count)

def performAll (calls : List VfsCall) : MountedState S := calls.foldl (fun s call => (s.perform V call).1) s

end MountedState

/-! ## Failed transfers are reported -/

open PlantOS.Disk (Program Session TransferWorld)

variable {S α β : Type}

/-! ### What a call of the filesystem may do -/

namespace Volume

variable (V : Volume S)

def Honest (v : S) : Prop := V.diskReady v = true → .failed ∉ V.transfers v

structure Evolves (v v' : S) : Prop where
  honest : V.Honest v → V.Honest v'
  log : V.transfers v <+: V.transfers v'

/-- Nothing has happened to the volume, or the disk has been found ready since. -/
def Settled (v v' : S) : Prop := v' = v ∨ V.diskReady v' = true

/-- The calls of the filesystem and of the disk do no more than issue transfers. -/
structure Steady : Prop where
  diskSync : ∀ v, V.Evolves v (V.diskSync v).1
  synced : ∀ v, (V.diskSync v).2 = true → V.diskReady (V.diskSync v).1 = true
  lookup : ∀ v node name, V.Evolves v (V.lookup v node name).1
  read : ∀ v node offset length, V.Evolves v (V.read v node offset length).1
  write : ∀ write, V.write = some write → ∀ v node offset bytes, V.Evolves v (write v node offset bytes).1
  truncate : ∀ truncate, V.truncate = some truncate → ∀ v node size, V.Evolves v (truncate v node size).1
  create : ∀ create, V.create = some create → ∀ v node name type, V.Evolves v (create v node name type).1
  remove : ∀ remove, V.remove = some remove → ∀ v node name type, V.Evolves v (remove v node name type).1
  rename : ∀ rename, V.rename = some rename →
    ∀ v source name destination name', V.Evolves v (rename v source name destination name').1
  sync : ∀ sync, V.sync = some sync → ∀ v, V.Evolves v (sync v).1

variable {V} {v v' v'' : S}

lemma Evolves.refl (v : S) : V.Evolves v v := ⟨id, List.prefix_rfl⟩

lemma Evolves.trans (h : V.Evolves v v') (h' : V.Evolves v' v'') : V.Evolves v v'' :=
  ⟨h'.honest ∘ h.honest, h.log.trans h'.log⟩

lemma Settled.refl (v : S) : V.Settled v v := .inl rfl

lemma Settled.trans (h : V.Settled v v') (h' : V.Settled v' v'') : V.Settled v v'' := by
  rcases h' with rfl | hrdy
  · exact h
  · exact .inr hrdy

lemma mountStatus_ok {status : Except VfsError α} {a : α} (h : V.mountStatus v status = .ok a) :
    V.diskReady v = true ∧ status = .ok a := by
  unfold mountStatus at h
  split at h
  · rename_i hrdy
    exact ⟨hrdy, h⟩
  · cases h

lemma Settled.no_failure (h : V.Settled v v') (hhon : V.Honest v') :
    .failed ∉ (V.transfers v').drop (V.transfers v).length := by
  rcases h with rfl | hrdy
  · simp
  · exact fun hmem => hhon hrdy (List.mem_of_mem_drop hmem)

end Volume

/-! ### Path walks -/

section Calls

variable {V : Volume S} (hV : V.Steady)

/-- A call leaves a volume and a status: an error, or else the disk has been found ready after the last transfer. -/
structure Answers (V : Volume S) (v : S) (result : S × Except VfsError α) : Prop where
  evolves : V.Evolves v result.1
  settled : ∀ a, result.2 = .ok a → V.Settled v result.1

namespace Answers

variable {v v' : S}

lemma error (h : V.Evolves v v') (e : VfsError) : Answers V v ((v', .error e) : S × Except VfsError α) := ⟨h, nofun⟩

lemma idle (status : Except VfsError α) : Answers V v (v, status) := ⟨.refl v, fun _ _ => .refl v⟩

lemma mountStatus (h : V.Evolves v v') (status : Except VfsError α) : Answers V v (v', V.mountStatus v' status) :=
  ⟨h, fun _ ha => .inr (Volume.mountStatus_ok ha).1⟩

lemma ok (h : V.Evolves v v') (hsett : V.Settled v v') (status : Except VfsError α) : Answers V v (v', status) :=
  ⟨h, fun _ _ => hsett⟩

lemma trans {a : α} (h : Answers V v (v', (.ok a : Except VfsError α))) {result : S × Except VfsError β}
    (h' : Answers V v' result) : Answers V v result :=
  ⟨h.evolves.trans h'.evolves, fun b hb => (h.settled a rfl).trans (h'.settled b hb)⟩

end Answers

include hV

lemma walk_answers (granted : ℕ → Bool) (path : List Component) (v : S) (current : FileDentry) :
    Answers V v (MountedState.walk V granted path v current) := by
  induction path generalizing v current with
  | nil => exact .idle _
  | cons component rest ih =>
    cases component with
    | here => exact ih v current
    | up => exact ih v current.up
    | name name =>
      unfold MountedState.walk
      split
      · exact .idle _
      split
      · exact .idle _
      rename_i normalized _
      have hlook := hV.lookup v current.node normalized
      have hstatus := Answers.mountStatus hlook (V.lookup v current.node normalized).2
      dsimp only
      split
      · exact .error hlook _
      · rename_i node heq
        rw [heq] at hstatus
        split
        · exact hstatus.trans (ih _ _)
        · exact .error hlook _

lemma resolve_answers (s : MountedState S) (context : ℕ) (path : Path) (granted : ℕ → Bool) (v : S) :
    Answers V v (s.vfsResolve V context path granted v) := by
  unfold MountedState.vfsResolve
  split
  · exact .idle _
  split
  · exact .idle _
  split
  · exact .idle _
  · exact walk_answers hV ..

lemma resolveParent_answers (s : MountedState S) (context : ℕ) (path : Path) (copied : Bool) (granted : ℕ → Bool)
    (v : S) : Answers V v (s.vfsResolveParent V context path copied granted v) := by
  unfold MountedState.vfsResolveParent
  split
  · exact .idle _
  rename_i parentPath leaf _
  split
  · exact .idle _
  have hres := resolve_answers hV s context parentPath granted v
  split
  · rename_i v' e heq
    rw [heq] at hres
    exact .error hres.evolves e
  rename_i v' parent heq
  rw [heq] at hres
  refine hres.trans ?_
  split
  · exact .idle _
  split <;> exact .idle _

lemma fsCreate_answers (v : S) (parent : VfsNode) (name : String) (type : VfsNodeType) :
    Answers V v (MountedState.fsCreate V v parent name type) ∧
      ∀ node, (MountedState.fsCreate V v parent name type).2 = .ok node →
        V.diskReady (MountedState.fsCreate V v parent name type).1 = true := by
  unfold MountedState.fsCreate
  split
  · exact ⟨.idle _, nofun⟩
  rename_i create hcr
  have hevol : V.Evolves v (if V.diskWritable v then create v parent name type else (v, .error .readOnly)).1 := by
    split
    · exact hV.create create hcr v parent name type
    · exact .refl v
  exact ⟨.mountStatus hevol _, fun node hnode => (Volume.mountStatus_ok hnode).1⟩

lemma openDentry_answers (s : MountedState S) (context : ℕ) (path : Path) (flags : OpenFlags) (memory : CallMemory)
    (v : S) : Answers V v (s.openDentry V context path flags memory v) := by
  unfold MountedState.openDentry
  have hres := resolve_answers hV s context path (memory.dentry 0) v
  split
  · rename_i v₁ e heq
    rw [heq] at hres
    split
    · have hpar := resolveParent_answers hV s context path (memory.copy 0) (memory.dentry 1) v₁
      split
      · rename_i v₂ e₂ heq₂
        rw [heq₂] at hpar
        exact .error (hres.evolves.trans hpar.evolves) e₂
      rename_i v₂ parent name heq₂
      rw [heq₂] at hpar
      have hcr := fsCreate_answers hV v₂ parent.node name .file
      split
      · rename_i v₃ e₃ heq₃
        rw [heq₃] at hcr
        exact .error ((hres.evolves.trans hpar.evolves).trans hcr.1.evolves) e₃
      · rename_i v₃ node heq₃
        rw [heq₃] at hcr
        exact .ok ((hres.evolves.trans hpar.evolves).trans hcr.1.evolves) (.inr (hcr.2 node rfl)) _
    · exact .error hres.evolves e
  · rename_i v₁ dentry heq
    rw [heq] at hres
    exact hres.trans (.idle _)

end Calls

/-! ### Filling pages -/

/-- No transfer of the read that has filled the page has failed. -/
def CachePage.Genuine (page : CachePage) : Prop := .failed ∉ page.filled

/-- Transfers have been issued and pages have been filled, none by a read that has failed. -/
structure Fills (V : Volume S) (v : S) (c : PageCache) (v' : S) (c' : PageCache) : Prop where
  evolves : V.Evolves v v'
  genuine : V.Honest v → c.All CachePage.Genuine → c'.All CachePage.Genuine

namespace Fills

variable {V : Volume S} {v v' v'' : S} {c c' c'' : PageCache}

lemma refl (v : S) (c : PageCache) : Fills V v c v c := ⟨.refl v, fun _ h => h⟩

lemma trans (h : Fills V v c v' c') (h' : Fills V v' c' v'' c'') : Fills V v c v'' c'' :=
  ⟨h.evolves.trans h'.evolves, fun hhon hc => h'.genuine (h.evolves.honest hhon) (h.genuine hhon hc)⟩

lemma fewer (h : V.Evolves v v') (hsub : c'.pages ⊆ c.pages) : Fills V v c v' c' := ⟨h, fun _ hc => hc.mono hsub⟩

lemma setPage {key : VfsNodeId × ℕ} {f : CachePage → CachePage} (hf : ∀ page, (f page).filled = page.filled) :
    Fills V v c v (c.setPage key f) :=
  ⟨.refl v, fun _ hc => hc.setPage fun page hpage => by rwa [CachePage.Genuine, hf]⟩

end Fills

section Files

variable {V : Volume S} (hV : V.Steady)

include hV

lemma Loads.fills {node : VfsNode} {index : ℕ} {v : S} {c : PageCache} {result : S × PageCache × Option CachePage}
    (h : PageCache.Loads V v node index c result) :
    Fills V v c result.1 result.2.1 ∧ (result.2.2 ≠ none → V.Settled v result.1) := by
  cases h with
  | idle c₁ hsub => exact ⟨.fewer (.refl v) hsub, fun h => absurd rfl h⟩
  | failed c₁ hsub length => exact ⟨.fewer (hV.read ..) hsub, fun h => absurd rfl h⟩
  | filled c₁ hsub n length bytes v' hv hstatus pages hpages =>
    have hevol : V.Evolves v v' := hv ▸ hV.read v node _ length
    have hrdy := (Volume.mountStatus_ok hstatus).1
    refine ⟨⟨hevol, fun hhon hc => ?_⟩, fun _ => .inr hrdy⟩
    refine (hc.mono hsub).insertAll fun page hpage => ?_
    rw [hpages] at hpage
    obtain ⟨i, -, rfl⟩ := List.mem_map.mp hpage
    exact fun hfail => hevol.honest hhon hrdy (List.mem_of_mem_drop hfail)

lemma cacheGet_fills (v : S) (c : PageCache) (node : VfsNode) (index count : ℕ) (memory : LoadMemory) :
    let result := c.vfsCacheGet V v node index count memory
    Fills V v c result.1 result.2.1 ∧ (result.2.2 ≠ none → V.Settled v result.1) := by
  have hfind := c.vfsCacheFind_pages node.id index
  dsimp only
  unfold PageCache.vfsCacheGet
  split
  · rename_i c₁ page heq
    rw [heq] at hfind
    exact ⟨.fewer (.refl v) (hfind ▸ List.Subset.refl _), fun _ => .refl v⟩
  · rename_i c₁ heq
    rw [heq] at hfind
    obtain ⟨hfil, hsett⟩ := Loads.fills hV (PageCache.vfsCacheLoad_loads V v node index c₁ count memory)
    exact ⟨(Fills.fewer (.refl v) (hfind ▸ List.Subset.refl _)).trans hfil, hsett⟩

/-! ### Reads -/

def Short (length : ℕ) (bytes : List UInt8) : Prop := 0 < bytes.length ∧ bytes.length < length

lemma readLoop_reports (node : VfsNode) (length : ℕ) (memory : ℕ → LoadMemory) (fuel : ℕ) (done : List UInt8)
    (offset : ℕ) (v : S) (c : PageCache) :
    let result := FileState.readLoop V node length memory fuel done offset v c
    Fills V v c result.1 result.2.1 ∧
      ∀ bytes, result.2.2.2 = .ok bytes → Short length bytes ∨ V.Settled v result.1 := by
  induction fuel generalizing done offset v c with
  | zero => exact ⟨.refl v c, fun _ _ => .inr (.refl v)⟩
  | succ fuel ih =>
    dsimp only
    unfold FileState.readLoop
    split
    · exact ⟨.refl v c, fun _ _ => .inr (.refl v)⟩
    rename_i hlen
    dsimp only
    have hget := cacheGet_fills hV v c node (offset / vfsCachePageSize)
      ((offset % vfsCachePageSize + length - done.length - 1) / vfsCachePageSize + 1) (memory done.length)
    split
    · rename_i v₁ c₁ heq
      rw [heq] at hget
      refine ⟨hget.1, fun bytes hbs => .inl ?_⟩
      split at hbs
      · cases hbs
      · rename_i hdone
        cases hbs
        exact ⟨List.length_pos_iff.mpr hdone, not_le.mp hlen⟩
    · rename_i v₁ c₁ page heq
      rw [heq] at hget
      obtain ⟨hfil, hsett⟩ := ih (done ++ (List.range (min (vfsCachePageSize - offset % vfsCachePageSize)
        (length - done.length))).map fun i => page.data (offset % vfsCachePageSize + i))
        (offset + min (vfsCachePageSize - offset % vfsCachePageSize) (length - done.length)) v₁ c₁
      exact ⟨hget.1.trans hfil, fun bytes hbs => (hsett bytes hbs).imp_right (hget.2 nofun).trans⟩

/-- A call on the open files: an error, an excused answer, or else the disk has been found ready since. -/
structure Reports (V : Volume S) (s : FileState S) (excused : α → Prop) (result : FileState S × Except VfsError α) :
    Prop where
  fills : Fills V s.volume s.cache result.1.volume result.1.cache
  settled : ∀ a, result.2 = .ok a → excused a ∨ V.Settled s.volume result.1.volume

omit hV in
lemma Reports.idle (s : FileState S) {s' : FileState S} (hvol : s'.volume = s.volume) (hcac : s'.cache = s.cache)
    (excused : α → Prop) (status : Except VfsError α) : Reports V s excused (s', status) := by
  refine ⟨?_, fun _ _ => .inr (.inl hvol)⟩
  dsimp only
  rw [hvol, hcac]
  exact .refl _ _

def FileState.available (s : FileState S) (h length offset : ℕ) : ℕ :=
  match s.handle h with
  | none => 0
  | some o => min length (o.node.size - offset)

lemma readAt_reports (s : FileState S) (h length offset : ℕ) (memory : ℕ → LoadMemory) :
    Reports V s (Short (s.available h length offset))
      ((s.vfsReadAt V h length offset memory).1, (s.vfsReadAt V h length offset memory).2.2) := by
  unfold FileState.vfsReadAt FileState.available
  cases s.handle h with
  | none => exact .idle s rfl rfl _ _
  | some o =>
  dsimp only
  split
  · exact .idle s rfl rfl _ _
  split
  · exact .idle s rfl rfl _ _
  split
  · exact .idle s rfl rfl _ _
  split
  · exact .idle s rfl rfl _ _
  · obtain ⟨hfil, hsett⟩ := readLoop_reports hV o.node (min length (o.node.size - offset)) memory
      (min length (o.node.size - offset)) [] offset s.volume s.cache
    exact ⟨hfil, hsett⟩

lemma read_reports (s : FileState S) (h length : ℕ) (memory : ℕ → LoadMemory) :
    Reports V s (fun bytes => ∃ o, s.handle h = some o ∧ Short (s.available h length o.offset) bytes)
      (s.vfsRead V h length memory) := by
  unfold FileState.vfsRead
  split
  · exact .idle s rfl rfl _ _
  rename_i o heq
  have hread := readAt_reports hV s h length o.offset memory
  exact ⟨hread.fills, fun bytes hbs => (hread.settled bytes hbs).imp_left fun hshrt => ⟨o, heq, hshrt⟩⟩

/-! ### Writes, synchronisation and mappings -/

lemma fsWrite_evolves (v : S) (node : VfsNode) (offset : ℕ) (bytes : List UInt8) :
    V.Evolves v (V.fsWrite v node offset bytes).1 := by
  unfold Volume.fsWrite
  split
  · rename_i write _ hwr
    exact hV.write write hwr v node offset bytes
  · exact .refl v

omit hV in
lemma writeLoop_fills (v : S) (id : VfsNodeId) (previousSize writeOffset written : ℕ) (bytes : List UInt8)
    (fuel copied : ℕ) (c : PageCache) :
    Fills V v c v (FileState.writeLoop id previousSize writeOffset written bytes fuel copied c) := by
  induction fuel generalizing copied c with
  | zero => exact .refl v c
  | succ fuel ih =>
    unfold FileState.writeLoop
    split
    · exact .refl v c
    dsimp only
    have hfind := c.vfsCacheFind_pages id ((writeOffset + copied) / vfsCachePageSize)
    refine Fills.trans ?_ (ih _ _)
    split
    · rename_i c₁ heq
      rw [heq] at hfind
      exact .fewer (.refl v) (hfind ▸ List.Subset.refl _)
    · rename_i c₁ page heq
      rw [heq] at hfind
      exact (Fills.fewer (.refl v) (hfind ▸ List.Subset.refl _)).trans (.setPage fun _ => rfl)

lemma write_reports (s : FileState S) (h : ℕ) (bytes : List UInt8) :
    Reports V s (fun _ => False) (s.vfsWrite V h bytes) := by
  unfold FileState.vfsWrite
  split
  · exact .idle s rfl rfl _ _
  rename_i o _
  split
  · exact .idle s rfl rfl _ _
  split
  · exact .idle s rfl rfl _ _
  split
  · exact .idle s rfl rfl _ _
  dsimp only
  generalize (if o.append = true then o.node.size else o.offset) = offset
  split
  · refine .idle s ?_ ?_ _ _ <;> rfl
  have hwr := fsWrite_evolves hV s.volume o.node offset bytes
  have hwrit : Fills V s.volume s.cache (V.fsWrite s.volume o.node offset bytes).1 s.cache :=
    ⟨hwr, fun _ hc => hc⟩
  split
  · exact ⟨hwrit, nofun⟩
  rename_i written hstatus
  have hrdy := (Volume.mountStatus_ok hstatus).1
  split
  · exact ⟨hwrit, fun _ _ => .inr (.inr hrdy)⟩
  · exact ⟨hwrit.trans (writeLoop_fills ..), fun _ _ => .inr (.inr hrdy)⟩

lemma writebackLoop_answers (first count : ℕ) (pages : List CachePage) (v : S) (node : VfsNode) :
    let result := writebackLoop V first count pages v node
    Answers V v (result.1, result.2.2) := by
  induction pages generalizing v node with
  | nil => exact .idle _
  | cons page rest ih =>
    dsimp only
    unfold writebackLoop
    dsimp only
    split
    · exact ih v node
    generalize page.index * vfsCachePageSize = offset
    generalize (List.range (min (node.size - offset) vfsCachePageSize)).map page.data = bytes
    have hwr := fsWrite_evolves hV v node offset bytes
    split
    · exact .error hwr _
    · rename_i written hstatus
      split
      · exact .error hwr _
      · have hthis : Answers V v ((V.fsWrite v node offset bytes).1, (.ok () : Except VfsError Unit)) :=
          .ok hwr (.inr (Volume.mountStatus_ok hstatus).1) _
        exact hthis.trans (ih _ _)

lemma syncVolume_reports (s : FileState S) : Reports V s (fun _ => False) (s.syncVolume V) := by
  have hlast : ∀ v, V.Evolves s.volume v → Reports V s (fun _ => False)
      ({ s with volume := (V.diskSync v).1 },
        if (V.diskSync v).2 then (.ok () : Except VfsError Unit) else .error .io) := by
    intro v hv
    refine ⟨⟨hv.trans (hV.diskSync v), fun _ hc => hc⟩, fun a ha => .inr (.inr ?_)⟩
    split at ha
    · rename_i hsyn
      exact hV.synced v hsyn
    · cases ha
  unfold FileState.syncVolume
  cases hsync : V.sync with
  | none => exact hlast s.volume (.refl _)
  | some sync =>
    have hevol := hV.sync sync hsync s.volume
    dsimp only
    cases V.mountStatus (sync s.volume).1 (sync s.volume).2 with
    | error e => exact ⟨⟨hevol, fun _ hc => hc⟩, nofun⟩
    | ok u => exact hlast _ hevol

lemma syncPages_reports (s : FileState S) (h : ℕ) (o : OpenHandle) (first count : ℕ) :
    Reports V s (fun _ => False) (s.syncPages V h o first count) := by
  unfold FileState.syncPages
  split
  · exact .idle s rfl rfl _ _
  have hback := writebackLoop_answers hV first count s.cache.byBucket s.volume o.node
  unfold FileState.vfsCacheWriteback
  generalize writebackLoop V first count s.cache.byBucket s.volume o.node = back at hback
  obtain ⟨v, node, status⟩ := back
  cases status with
  | error e => exact ⟨⟨hback.evolves, fun _ hc => hc⟩, nofun⟩
  | ok u =>
    have hsync := syncVolume_reports hV ({ s with volume := v }.setHandle h fun o => { o with node := node })
    have hwrit : Fills V s.volume s.cache v s.cache := ⟨hback.evolves, fun _ hc => hc⟩
    exact ⟨hwrit.trans hsync.fills,
      fun a ha => (hsync.settled a ha).imp_right (hback.settled () rfl).trans⟩

omit hV in
lemma unmapPages_pages (v : S) (id : VfsNodeId) (first count : ℕ) (writer : Bool) (c : PageCache) :
    Fills V v c v (FileState.unmapPages c id first count writer) := by
  unfold FileState.unmapPages
  generalize List.range count = indices
  induction indices generalizing c with
  | nil => exact .refl v c
  | cons i indices ih =>
    rw [List.foldl_cons]
    refine Fills.trans ?_ (ih _)
    have hfind := c.vfsCacheFind_pages id (first + i)
    split
    · rename_i c₁ heq
      rw [heq] at hfind
      exact .fewer (.refl v) (hfind ▸ List.Subset.refl _)
    · rename_i c₁ page heq
      rw [heq] at hfind
      have hfnd : Fills V v c v c₁ := .fewer (.refl v) (hfind ▸ List.Subset.refl _)
      have hset : Fills V v c₁ v (c₁.setPage page.key fun page =>
          { page with mappings := page.mappings - 1, writers := page.writers - if writer then 1 else 0 }) :=
        .setPage fun _ => rfl
      refine hfnd.trans ?_
      unfold FileState.unpinPage
      dsimp only
      split
      · exact hset.trans (.fewer (.refl v) (List.Subset.refl _))
      · exact hset

omit hV in
lemma pinPage_fills (v : S) (c : PageCache) (page : CachePage) (writer : Bool) :
    Fills V v c v (FileState.pinPage c page writer) := by
  have hset : ∀ c', Fills V v c' v (c'.setPage page.key fun page =>
      { page with mappings := page.mappings + 1, writers := page.writers + if writer then 1 else 0 }) :=
    fun c' => .setPage fun _ => rfl
  unfold FileState.pinPage
  dsimp only
  split
  · have heras : Fills V v c v { c with lru := c.lru.erase page.key } := .fewer (.refl v) (List.Subset.refl _)
    exact heras.trans (hset _)
  · exact hset c

lemma mapLoop_fills (node : VfsNode) (first count : ℕ) (writer : Bool) (memory : ℕ → LoadMemory) (fuel i : ℕ) (v : S)
    (c : PageCache) :
    let result := FileState.mapLoop V node first count writer memory fuel i v c
    Fills V v c result.1 result.2.1 ∧ (result.2.2.2 = true → V.Settled v result.1) := by
  induction fuel generalizing i v c with
  | zero => exact ⟨.refl v c, fun _ => .refl v⟩
  | succ fuel ih =>
    dsimp only
    unfold FileState.mapLoop
    have hget := cacheGet_fills hV v c node (first + i) (count - i) (memory i)
    split
    · rename_i v₁ c₁ heq
      rw [heq] at hget
      exact ⟨hget.1, nofun⟩
    · rename_i v₁ c₁ page heq
      rw [heq] at hget
      obtain ⟨hfil, hsett⟩ := ih (i + 1) v₁ (FileState.pinPage c₁ page writer)
      exact ⟨(hget.1.trans (pinPage_fills ..)).trans hfil, fun hdone => (hget.2 nofun).trans (hsett hdone)⟩

lemma mappingCreate_reports (s : FileState S) (m h offset length : ℕ) (shared mapped : Bool)
    (memory : ℕ → LoadMemory) :
    Reports V s (fun _ => False) (s.vfsMappingCreate V m h offset length shared mapped memory) := by
  unfold FileState.vfsMappingCreate
  split
  · exact .idle s rfl rfl _ _
  rename_i o _
  split
  · exact .idle s rfl rfl _ _
  split
  · exact .idle s rfl rfl _ _
  split
  · exact .idle s rfl rfl _ _
  split
  · exact .idle s rfl rfl _ _
  split
  · exact .idle s rfl rfl _ _
  dsimp only
  generalize (shared && (!shared || o.write)) = writer
  have hmap := mapLoop_fills hV o.node (offset / vfsCachePageSize) (length / vfsCachePageSize) writer memory
    (length / vfsCachePageSize) 0 s.volume s.cache
  split
  · rename_i v c n heq
    rw [heq] at hmap
    exact ⟨hmap.1, fun _ _ => .inr (hmap.2 rfl)⟩
  · rename_i v c n heq
    rw [heq] at hmap
    refine ⟨hmap.1.trans ((unmapPages_pages v o.node.id (offset / vfsCachePageSize) n writer c).trans ?_), nofun⟩
    exact .fewer (.refl v) (PageCache.vfsCacheEvict_pages _)

lemma mappingSync_reports (s : FileState S) (m first count : ℕ) :
    Reports V s (fun _ => False) (s.vfsMappingSync V m first count) := by
  unfold FileState.vfsMappingSync
  split
  · exact .idle s rfl rfl _ _
  split
  · exact .idle s rfl rfl _ _
  split
  · exact .idle s rfl rfl _ _
  · exact syncPages_reports hV ..

omit hV in
lemma mappingRelease_fills (s : FileState S) (m : ℕ) :
    (s.vfsMappingRelease m).volume = s.volume ∧
      Fills V s.volume s.cache s.volume (s.vfsMappingRelease m).cache := by
  unfold FileState.vfsMappingRelease
  split
  · exact ⟨rfl, .refl _ _⟩
  split
  · exact ⟨rfl, .refl _ _⟩
  split
  · exact ⟨rfl, .refl _ _⟩
  · exact ⟨rfl, (unmapPages_pages ..).trans (.fewer (.refl _) (PageCache.vfsCacheEvict_pages _))⟩

lemma fdTruncate_fills (s : FileState S) (h length : ℕ) :
    Fills V s.volume s.cache (s.vfsFdTruncate V h length).1.volume (s.vfsFdTruncate V h length).1.cache := by
  unfold FileState.vfsFdTruncate
  split
  · exact .refl _ _
  rename_i o _
  split
  · exact .refl _ _
  split
  · exact .refl _ _
  split
  · rename_i truncate _ htrun
    have hevol := hV.truncate truncate htrun s.volume o.node length
    split
    · exact .refl _ _
    dsimp only
    split
    · exact ⟨hevol, fun _ hc => hc⟩
    · exact .fewer hevol (PageCache.vfsCacheInvalidateNode_pages _ _)
  · exact .refl _ _

end Files

/-! ### Calls with paths -/

/-- As `Reports`, for a call on the mount. -/
structure Answered (V : Volume S) (s : MountedState S) (excused : α → Prop)
    (result : MountedState S × Except VfsError α) : Prop where
  fills : Fills V s.volume s.cache result.1.volume result.1.cache
  settled : ∀ a, result.2 = .ok a → excused a ∨ V.Settled s.volume result.1.volume

namespace Answered

variable {V : Volume S} {s : MountedState S} {v : S} {excused : α → Prop}

lemma error (h : V.Evolves s.volume v) (e : VfsError) :
    Answered V s excused ({ s with volume := v }, (.error e : Except VfsError α)) :=
  ⟨.fewer h (List.Subset.refl _), nofun⟩

lemma idle {s' : MountedState S} (hfiles : s'.toFileState = s.toFileState) (status : Except VfsError α) :
    Answered V s excused (s', status) := by
  refine ⟨?_, fun _ _ => .inr (.inl ?_)⟩ <;> dsimp only <;> rw [hfiles]
  exact .refl _ _

lemma after {a : β} (h : Answers V s.volume (v, (.ok a : Except VfsError β)))
    {result : MountedState S × Except VfsError α} (h' : Answered V { s with volume := v } excused result) :
    Answered V s excused result :=
  ⟨(Fills.fewer h.evolves (List.Subset.refl _)).trans h'.fills,
    fun b hb => (h'.settled b hb).imp_right (h.settled a rfl).trans⟩

lemma ready {s' : MountedState S} (h : V.Evolves s.volume s'.volume) (hcac : s'.cache.pages ⊆ s.cache.pages)
    (hrdy : V.diskReady s'.volume = true) (status : Except VfsError α) : Answered V s excused (s', status) :=
  ⟨.fewer h hcac, fun _ _ => .inr (.inr hrdy)⟩

end Answered

section Paths

variable {V : Volume S}

section Publish

variable (s : MountedState S) (handle : ℕ) (node : VfsNode) (flags : OpenFlags) (granted : Bool)

lemma publish_volume : (s.publish handle node flags granted).1.volume = s.volume := by
  unfold MountedState.publish
  split <;> rfl

lemma publish_cache : (s.publish handle node flags granted).1.cache = s.cache := by
  unfold MountedState.publish
  split <;> rfl

end Publish

lemma finish_answered {s : MountedState S} {v : S} (h : V.Evolves s.volume v) (id : VfsNodeId)
    (status : Except VfsError Unit) : Answered V s (fun _ => False) (s.finish v id (V.mountStatus v status)) := by
  unfold MountedState.finish
  split
  · exact .error h _
  · rename_i hstatus
    exact .ready h (PageCache.vfsCacheInvalidateNode_pages _ _) (Volume.mountStatus_ok hstatus).1 _

variable (hV : V.Steady)

include hV

lemma openNode_answered (s : MountedState S) (handle : ℕ) (node : VfsNode) (flags : OpenFlags) (granted : Bool) :
    Answered V s (fun _ => False) (s.openNode V handle node flags granted) := by
  unfold MountedState.openNode
  split
  · exact .idle rfl _
  split
  · exact .idle rfl _
  split
  · exact .idle rfl _
  split
  · refine ⟨?_, fun _ _ => .inr (.inl (publish_volume ..))⟩
    rw [publish_volume, publish_cache]
    exact .refl _ _
  split
  · exact .idle rfl _
  split
  · rename_i truncate _ htrun
    have hevol : V.Evolves s.volume (if V.diskWritable s.volume = true then
        ((truncate s.volume node 0).1, (truncate s.volume node 0).2.2)
        else (s.volume, .error .readOnly) : S × Except VfsError Unit).1 := by
      split
      · exact hV.truncate truncate htrun s.volume node 0
      · exact .refl _
    dsimp only
    split
    · exact .error hevol _
    rename_i hstatus
    refine ⟨?_, fun _ _ => .inr (.inr ?_)⟩
    · rw [publish_volume, publish_cache]
      exact .fewer hevol (PageCache.vfsCacheInvalidateNode_pages _ _)
    · rw [publish_volume]
      exact (Volume.mountStatus_ok hstatus).1
  · exact .idle rfl _

lemma open_answered (s : MountedState S) (context : ℕ) (path : Path) (flags : OpenFlags) (handle : ℕ)
    (memory : CallMemory) : Answered V s (fun _ => False) (s.vfsOpen V context path flags handle memory) := by
  unfold MountedState.vfsOpen
  split
  · exact .idle rfl _
  have hopen := openDentry_answers hV s context path flags memory s.volume
  split
  · rename_i v e heq
    rw [heq] at hopen
    exact .error hopen.evolves e
  · rename_i v dentry heq
    rw [heq] at hopen
    exact .after hopen (openNode_answered hV ..)

lemma chdir_answered (s : MountedState S) (context : ℕ) (path : Path) (memory : CallMemory) :
    Answered V s (fun _ => False) (s.vfsContextChdir V context path memory) := by
  unfold MountedState.vfsContextChdir
  have hres := resolve_answers hV s context path (memory.dentry 0) s.volume
  split
  · rename_i v e heq
    rw [heq] at hres
    exact .error hres.evolves e
  · rename_i v directory heq
    rw [heq] at hres
    split
    · exact .error hres.evolves _
    · refine .after hres (.idle ?_ _)
      rfl

lemma mkdir_answered (s : MountedState S) (context : ℕ) (path : Path) (memory : CallMemory) :
    Answered V s (fun _ => False) (s.vfsMkdir V context path memory) := by
  unfold MountedState.vfsMkdir
  have hpar := resolveParent_answers hV s context path (memory.copy 0) (memory.dentry 0) s.volume
  split
  · rename_i v e heq
    rw [heq] at hpar
    exact .error hpar.evolves e
  · rename_i v parent name heq
    rw [heq] at hpar
    refine .after hpar ?_
    obtain ⟨hcr, hrdy⟩ := fsCreate_answers hV v parent.node name .directory
    dsimp only
    generalize MountedState.fsCreate V v parent.node name .directory = created at hcr hrdy
    obtain ⟨v', status⟩ := created
    cases status with
    | error e => exact .error hcr.evolves e
    | ok node => exact ⟨.fewer hcr.evolves (List.Subset.refl _), fun _ _ => .inr (.inr (hrdy node rfl))⟩

lemma removeEntry_answered (s : MountedState S) (context : ℕ) (path : Path) (type : VfsNodeType)
    (memory : CallMemory) : Answered V s (fun _ => False) (s.vfsRemoveEntry V context path type memory) := by
  unfold MountedState.vfsRemoveEntry
  have hres := resolve_answers hV s context path (memory.dentry 0) s.volume
  split
  · rename_i v e heq
    rw [heq] at hres
    exact .error hres.evolves e
  rename_i v target heq
  rw [heq] at hres
  split
  · exact .error hres.evolves _
  split
  · exact .error hres.evolves _
  have hpar := resolveParent_answers hV s context path (memory.copy 0) (memory.dentry 1) v
  split
  · rename_i v₂ e heq₂
    rw [heq₂] at hpar
    exact .error (hres.evolves.trans hpar.evolves) e
  rename_i v₂ parent name heq₂
  rw [heq₂] at hpar
  have hboth := hres.evolves.trans hpar.evolves
  split
  · exact .error hboth _
  rename_i remove hrem
  have hremov : V.Evolves v₂ (if V.diskWritable v₂ = true then remove v₂ parent.node name type
      else (v₂, .error .readOnly)).1 := by
    split
    · exact hV.remove remove hrem ..
    · exact .refl _
  exact finish_answered (hboth.trans hremov) target.node.id _

lemma rename_answered (s : MountedState S) (context : ℕ) (source destination : Path) (memory : CallMemory) :
    Answered V s (fun _ => False) (s.vfsRename V context source destination memory) := by
  unfold MountedState.vfsRename
  have hres := resolve_answers hV s context source (memory.dentry 0) s.volume
  split
  · rename_i v e heq
    rw [heq] at hres
    exact .error hres.evolves e
  rename_i v target heq
  rw [heq] at hres
  split
  · exact .error hres.evolves _
  have hsrc := resolveParent_answers hV s context source (memory.copy 0) (memory.dentry 1) v
  split
  · rename_i v₂ e heq₂
    rw [heq₂] at hsrc
    exact .error (hres.evolves.trans hsrc.evolves) e
  rename_i v₂ sourceParent sourceName heq₂
  rw [heq₂] at hsrc
  have hdst := resolveParent_answers hV s context destination (memory.copy 1) (memory.dentry 2) v₂
  split
  · rename_i v₃ e heq₃
    rw [heq₃] at hdst
    exact .error ((hres.evolves.trans hsrc.evolves).trans hdst.evolves) e
  rename_i v₃ destinationParent destinationName heq₃
  rw [heq₃] at hdst
  have hall := (hres.evolves.trans hsrc.evolves).trans hdst.evolves
  split
  · exact .error hall _
  rename_i rename hren
  have hrenam : V.Evolves v₃ (if V.diskWritable v₃ = true then
      rename v₃ sourceParent.node sourceName destinationParent.node destinationName
      else (v₃, .error .readOnly)).1 := by
    split
    · exact hV.rename rename hren ..
    · exact .refl _
  exact finish_answered (hall.trans hrenam) target.node.id _

end Paths

/-! ### All calls -/

/-- The call is `vfs_fd_truncate`. -/
def VfsCall.isFdTruncate : VfsCall → Bool
  | .fdTruncate .. => true
  | _ => false

/-- The answer of a read that gives fewer bytes than it could, but some. -/
def MountedState.ShortRead (s : MountedState S) : VfsCall → Answer → Prop
  | .read h length _, .bytes bytes => ∃ o, s.handle h = some o ∧ Short (s.available h length o.offset) bytes
  | .pread h length offset _, .bytes bytes => Short (s.available h length offset) bytes
  | _, _ => False

section Perform

variable {V : Volume S} (hV : V.Steady) (s : MountedState S)

lemma Answered.map {excused : α → Prop} {excused' : Answer → Prop} {result : MountedState S × Except VfsError α}
    (h : Answered V s excused result) (f : α → Answer) (hexc : ∀ a, excused a → excused' (f a)) :
    Answered V s excused' (result.1, result.2.map f) := by
  refine ⟨h.fills, fun b hb => ?_⟩
  obtain ⟨s', status⟩ := result
  cases status with
  | error e => cases hb
  | ok a =>
    cases hb
    exact (h.settled a rfl).imp_left (hexc a)

lemma Reports.map {excused : α → Prop} {excused' : Answer → Prop} {result : FileState S × Except VfsError α}
    (h : Reports V s.toFileState excused result) (f : α → Answer) (hexc : ∀ a, excused a → excused' (f a)) :
    Answered V s excused' (s.onFiles f result) := by
  have hans : Answered V s excused ({ s with toFileState := result.1 }, result.2) := ⟨h.fills, h.settled⟩
  exact hans.map s f hexc

include hV

/-- **Every call but `vfs_fd_truncate`** gives an error, or a short read, or else the disk has been found ready after its
last transfer. -/
theorem perform_answered (call : VfsCall) (hcall : call.isFdTruncate = false) :
    Answered V s (s.ShortRead call) (s.perform V call) := by
  cases call with
  | open_ context path flags handle memory => exact (open_answered hV s context path flags handle memory).map _ _ nofun
  | close handle => exact ⟨.refl _ _, fun _ _ => .inr (.refl _)⟩
  | chdir context path memory => exact (chdir_answered hV s context path memory).map _ _ nofun
  | mkdir context path memory => exact (mkdir_answered hV s context path memory).map _ _ nofun
  | removeEntry context path type memory => exact (removeEntry_answered hV s context path type memory).map _ _ nofun
  | rename context source destination memory =>
    exact (rename_answered hV s context source destination memory).map _ _ nofun
  | read handle length memory => exact (read_reports hV s.toFileState handle length memory).map s _ fun _ => id
  | pread handle length offset memory =>
    have hread := readAt_reports hV s.toFileState handle length offset memory
    have hpread : Reports V s.toFileState (Short (s.available handle length offset))
        (s.vfsPread V handle length offset memory) := ⟨hread.fills, hread.settled⟩
    exact hpread.map s _ fun _ => id
  | write handle bytes => exact (write_reports hV s.toFileState handle bytes).map s _ nofun
  | seek handle offset whence =>
    have hseek : Reports V s.toFileState (fun _ => False) (s.vfsSeek handle offset whence) := by
      unfold FileState.vfsSeek
      split
      · exact .idle _ rfl rfl _ _
      cases whence
      all_goals
        dsimp only
        split
        · exact .idle _ rfl rfl _ _
        · refine .idle _ ?_ ?_ _ _ <;> rfl
    exact hseek.map s _ nofun
  | sync handle =>
    have hsync : Reports V s.toFileState (fun _ => False) (s.vfsSync V handle) := by
      unfold FileState.vfsSync
      split
      · exact .idle _ rfl rfl _ _
      · exact syncPages_reports hV ..
    exact hsync.map s _ nofun
  | fdTruncate handle length => cases hcall
  | mappingCreate mapping handle offset length shared mapped memory =>
    exact (mappingCreate_reports hV s.toFileState mapping handle offset length shared mapped memory).map s _ nofun
  | mappingRetain mapping => exact ⟨.refl _ _, fun _ _ => .inr (.refl _)⟩
  | mappingRelease mapping =>
    obtain ⟨hvol, hfil⟩ := mappingRelease_fills (V := V) s.toFileState mapping
    refine ⟨?_, fun _ _ => .inr (.inl hvol)⟩
    have hsame : ((s.perform V (.mappingRelease mapping)).1).volume = s.volume := hvol
    rw [hsame]
    exact hfil
  | mappingSync mapping first count =>
    exact (mappingSync_reports hV s.toFileState mapping first count).map s _ nofun

lemma perform_fills (call : VfsCall) :
    Fills V s.volume s.cache (s.perform V call).1.volume (s.perform V call).1.cache := by
  cases hcall : call.isFdTruncate with
  | false => exact (perform_answered hV s call hcall).fills
  | true =>
    cases call with
    | fdTruncate handle length => exact fdTruncate_fills hV s.toFileState handle length
    | _ => cases hcall

lemma performAll_fills (calls : List VfsCall) :
    Fills V s.volume s.cache (s.performAll V calls).volume (s.performAll V calls).cache := by
  induction calls generalizing s with
  | nil => exact .refl _ _
  | cons call calls ih => exact (perform_fills hV s call).trans (ih _)

end Perform

/-! ### Filesystems of programs -/

/-- The calls of a filesystem as programs of transfers; they may ignore the answers. -/
structure Filesystem (σ : Type) where
  normalizeName : String → Except VfsError String
  lookup : σ → VfsNode → String → Program (σ × Except VfsError VfsNode)
  read : σ → VfsNode → ℕ → ℕ → Program (σ × Except VfsError (List UInt8))
  write : Option (σ → VfsNode → ℕ → List UInt8 → Program (σ × ℕ × Except VfsError ℕ))
  truncate : Option (σ → VfsNode → ℕ → Program (σ × ℕ × Except VfsError Unit))
  create : Option (σ → VfsNode → String → VfsNodeType → Program (σ × Except VfsError VfsNode))
  remove : Option (σ → VfsNode → String → VfsNodeType → Program (σ × Except VfsError Unit))
  rename : Option (σ → VfsNode → String → VfsNode → String → Program (σ × Except VfsError Unit))
  sync : Option (σ → Program (σ × Except VfsError Unit))

namespace Filesystem

variable {σ : Type} (worlds : ℕ → TransferWorld)

def exec (program : σ → Program (σ × α)) (v : σ × Session) : (σ × Session) × α :=
  let (session, state, a) := (program v.1).run worlds v.2
  ((state, session), a)

/-- The filesystem on a disk; `worlds` is what the transfers meet, one after the other. -/
def volume (fs : Filesystem σ) : Volume (σ × Session) where
  diskReady v := v.2.disk.diskReady
  diskWritable v := v.2.disk.diskWritable
  diskSync v :=
    let (disk, synced) := v.2.disk.diskSync (worlds v.2.log.length)
    ((v.1, ⟨disk, v.2.log⟩), synced)
  transfers v := v.2.log
  normalizeName := fs.normalizeName
  lookup v node name := exec worlds (fs.lookup · node name) v
  read v node offset length := exec worlds (fs.read · node offset length) v
  write := fs.write.map fun write v node offset bytes => exec worlds (write · node offset bytes) v
  truncate := fs.truncate.map fun truncate v node size => exec worlds (truncate · node size) v
  create := fs.create.map fun create v node name type => exec worlds (create · node name type) v
  remove := fs.remove.map fun remove v node name type => exec worlds (remove · node name type) v
  rename := fs.rename.map fun rename v source name destination name' =>
    exec worlds (rename · source name destination name') v
  sync := fs.sync.map fun sync v => exec worlds sync v

lemma exec_evolves (fs : Filesystem σ) (program : σ → Program (σ × α)) (v : σ × Session) :
    (fs.volume worlds).Evolves v (exec worlds program v).1 :=
  ⟨fun h => Session.run_honest h (program v.1), Session.run_prefix (program v.1)⟩

theorem volume_steady (fs : Filesystem σ) : (fs.volume worlds).Steady where
  diskSync v := by
    refine ⟨fun h hrdy => h ?_, List.prefix_rfl⟩
    exact v.2.disk.diskSync_ready _ hrdy
  synced v h := v.2.disk.diskSync_success _ h
  lookup v node name := exec_evolves worlds fs _ v
  read v node offset length := exec_evolves worlds fs _ v
  write write hwr v node offset bytes := by
    obtain ⟨write', -, rfl⟩ := Option.map_eq_some_iff.mp hwr
    exact exec_evolves worlds fs _ v
  truncate truncate htrun v node size := by
    obtain ⟨truncate', -, rfl⟩ := Option.map_eq_some_iff.mp htrun
    exact exec_evolves worlds fs _ v
  create create hcr v node name type := by
    obtain ⟨create', -, rfl⟩ := Option.map_eq_some_iff.mp hcr
    exact exec_evolves worlds fs _ v
  remove remove hrem v node name type := by
    obtain ⟨remove', -, rfl⟩ := Option.map_eq_some_iff.mp hrem
    exact exec_evolves worlds fs _ v
  rename rename hren v source name destination name' := by
    obtain ⟨rename', -, rfl⟩ := Option.map_eq_some_iff.mp hren
    exact exec_evolves worlds fs _ v
  sync sync hsync v := by
    obtain ⟨sync', -, rfl⟩ := Option.map_eq_some_iff.mp hsync
    exact exec_evolves worlds fs _ v

end Filesystem

/-- A volume that has just been mounted; no transfer of it has been issued and no page is cached. -/
def MountedState.mounted {σ : Type} (state : σ) (disk : Disk.Vdisk) (drive limit : ℕ) (hash : VfsNodeId → ℕ → ℕ)
    (root : VfsNode) (contexts : List ℕ) : MountedState (σ × Session) where
  volume := (state, ⟨disk, []⟩)
  cache := ⟨[], [], limit, hash⟩
  handle := fun _ => none
  mapping := fun _ => none
  drive := drive
  root := root
  handles := []
  contexts := contexts.map fun context => (context, ⟨root, []⟩)

/-- **No call but `vfs_fd_truncate` reports success when one of its transfers has failed or found the disk in error**,
except a read that gives fewer bytes than it could; and no page of such a read is ever in the cache. -/
theorem transfers_reported {σ : Type} (fs : Filesystem σ) (worlds : ℕ → TransferWorld) (state : σ) (disk : Disk.Vdisk)
    (drive limit : ℕ) (hash : VfsNodeId → ℕ → ℕ) (root : VfsNode) (contexts : List ℕ) (calls : List VfsCall)
    (call : VfsCall) :
    let V := fs.volume worlds
    let s := (MountedState.mounted state disk drive limit hash root contexts).performAll V calls
    let result := s.perform V call
    (∀ page ∈ result.1.cache.pages, .failed ∉ page.filled) ∧
      (call.isFdTruncate = false → ∀ answer, result.2 = .ok answer →
        s.ShortRead call answer ∨ .failed ∉ result.1.volume.2.log.drop s.volume.2.log.length) := by
  intro V s result
  have hV : V.Steady := fs.volume_steady worlds
  have hstart : V.Honest ((state, ⟨disk, []⟩) : σ × Session) := fun _ => List.not_mem_nil
  have hrun := performAll_fills hV (MountedState.mounted state disk drive limit hash root contexts) calls
  have hhonest : V.Honest s.volume := hrun.evolves.honest hstart
  have hgenuine : s.cache.All CachePage.Genuine := hrun.genuine hstart fun _ hpage => absurd hpage List.not_mem_nil
  have hcall := perform_fills hV s call
  refine ⟨hcall.genuine hhonest hgenuine, fun htruncate answer hanswer => ?_⟩
  have hanswered := perform_answered hV s call htruncate
  exact (hanswered.settled answer hanswer).imp_right fun hsettled =>
    hsettled.no_failure (hcall.evolves.honest hhonest)

/-- A filesystem with one file from the first sector on; it makes nothing of the answers. -/
def flatFilesystem : Filesystem Unit where
  normalizeName := .ok
  lookup _ _ _ := .done ((), .ok ⟨.ofWords 1 0 0 0, .file, 8192⟩)
  read _ _ offset length :=
    .transfer ⟨true, offset / 512, (length + 511) / 512, false⟩ fun _ bytes => .done ((), .ok (bytes.take length))
  write := none
  truncate := none
  create := none
  remove := none
  rename := none
  sync := none

def secondFails (n : ℕ) : TransferWorld := ⟨0, true, fun _ => n = 0, fun _ => 7⟩

/-- The first page of the file is read, and then both. -/
theorem short_read_succeeds :
    let V := flatFilesystem.volume secondFails
    let memory : ℕ → LoadMemory := fun _ => ⟨fun _ => true, true⟩
    let disk : Disk.Vdisk := ⟨.block, 16384, true, true, false, 0, false, 0, none⟩
    let s := (MountedState.mounted () disk 67 16 (fun _ _ => 0) ⟨.ofWords 0 0 0 0, .directory, 0⟩ [0]).performAll V
      [.open_ 0 ⟨.cwd, [.name "F"]⟩ ⟨true, false, false, false, false, false, false⟩ 0
        ⟨fun _ _ => true, fun _ => true, true⟩, .pread 0 4096 0 memory]
    let result := s.perform V (.pread 0 8192 0 memory)
    result.2.toBool = true ∧ .failed ∈ result.1.volume.2.log.drop s.volume.2.log.length := by
  decide +kernel

end PlantOS.Vfs
