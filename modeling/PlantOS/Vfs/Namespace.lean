import PlantOS.Vfs.Handles

/-!
# Path walks and the calls that change the namespace

`vfs_open`, `vfs_unlink`, `vfs_rmdir`, `vfs_rename`, `vfs_context_chdir`, the mappings and
`vfs_fd_truncate`, as runs of steps between which other tasks run: a call waits for the lock of a mount
before every component of a path and before it changes the filesystem.
-/

namespace PlantOS.Vfs

structure Node where
  key : FileKey
  type : VfsNodeType
  deriving DecidableEq, Repr

/-- `struct vfs_dentry` with its parents up to the root of the mount -/
structure Dentry where
  node : Node
  parents : List Node
  deriving DecidableEq, Repr

namespace Dentry

/-- The nodes that `vfs_node_is_cwd` looks at. -/
def keys (dentry : Dentry) : List FileKey := (dentry.node :: dentry.parents).map (·.key)

/-- The dentry of `..` -/
def up (dentry : Dentry) : Dentry :=
  match dentry.parents with
  | [] => dentry
  | parent :: parents => ⟨parent, parents⟩

/-- `vfs_dentry_create` -/
def child (dentry : Dentry) (node : Node) : Dentry := ⟨node, dentry.node :: dentry.parents⟩

end Dentry

inductive Component
  | here
  | up
  | name (name : String)
  deriving DecidableEq, Repr

/-- Where a path starts: the working directory, the root of its mount, or the root of a drive. -/
inductive Origin
  | cwd
  | root
  | drive (drive : ℕ)
  deriving DecidableEq, Repr

structure Path where
  origin : Origin
  components : List Component
  deriving DecidableEq, Repr

/-- The path of the parent and the last name: the parsing part of `vfs_resolve_parent`. -/
def Path.splitLeaf (path : Path) : Option (Path × String) :=
  match path.components.getLast? with
  | some (.name leaf) => some ({ path with components := path.components.dropLast }, leaf)
  | _ => none

inductive Purpose
  | open_ (context : ℕ) (path : Path) (flags : OpenFlags)
  | openParent (flags : OpenFlags) (leaf : String)
  | chdir (context : ℕ)
  /-- `vfs_remove_entry`: the walk to the target -/
  | remove (context : ℕ) (path : Path) (type : VfsNodeType)
  /-- its walk to the parent, after the checks -/
  | removeParent (type : VfsNodeType) (target : Node) (leaf : String)
  /-- `vfs_rename`: the walk to the target -/
  | rename (context : ℕ) (source destination : Path)
  /-- its walks to the two parents, after the checks -/
  | renameSource (context : ℕ) (target : Node) (leaf : String) (destination : Path)
  | renameDestination (target : Node) (source : Dentry) (leaf destinationLeaf : String)
  deriving DecidableEq, Repr

inductive Call
  /-- no call, or one that has returned: `VFS_OK` or an error -/
  | returned (status : Except VfsError Unit)
  | walking (purpose : Purpose) (current : Dentry) (rest : List Component)
  /-- before the `create` of `vfs_open`, and after the `unlock` that follows it -/
  | creating (flags : OpenFlags) (parent : Dentry) (leaf : String)
  | created (flags : OpenFlags) (node : Node)
  /-- before the `truncate` of `vfs_open`, and after the `unlock` that follows it -/
  | truncating (flags : OpenFlags) (node : Node)
  | truncated (flags : OpenFlags) (node : Node)
  /-- before the `remove` of `vfs_remove_entry` -/
  | removing (type : VfsNodeType) (target : Node) (parent : Dentry) (leaf : String)
  /-- before the `rename` of `vfs_rename` -/
  | renaming (target : Node) (source : Dentry) (leaf : String) (destination : Dentry)
      (destinationLeaf : String)
  /-- `vfs_mapping_create` before `lock` -/
  | mapping (handle : ℕ)
  /-- `vfs_fd_truncate` before `lock`, and after `unlock` -/
  | fdTruncating (handle : ℕ)
  | fdTruncated (handle : ℕ) (status : Except VfsError Unit)

/-- A handle in `vfs_handles` -/
structure OpenFile where
  id : ℕ
  key : FileKey
  references : ℕ
  deriving DecidableEq, Repr

/-- A context in `vfs_contexts` -/
structure Context where
  id : ℕ
  cwd : Dentry
  deriving DecidableEq, Repr

structure Namespace where
  /-- the root of the mount of a drive -/
  root : ℕ → Option Node
  /-- the root of a mount -/
  mountRoot : MountId → Node
  /-- the filesystem of the mount has no calls that write, or its disk is read-only -/
  readOnly : MountId → Bool
  /-- the entries of the directories; several names may lead to one entry -/
  entry : FileKey → String → Option Node
  handles : List OpenFile
  contexts : List Context
  /-- the nodes of the mappings that have pages -/
  mapped : List FileKey
  call : ℕ → Call
  lock : MountId → Option ℕ
  /-- the nodes that a call has removed, renamed or truncated although they were in use -/
  harmed : List FileKey

/-- What the checks of `vfs_open` say about the node. -/
inductive OpenVerdict
  | refuse (error : VfsError)
  | truncate
  | publish
  deriving DecidableEq, Repr

namespace Namespace

variable (s : Namespace)

def setCall (t : ℕ) (call : Call) : Namespace := { s with call := Function.update s.call t call }

def unlock (mount : MountId) : Namespace := { s with lock := Function.update s.lock mount none }

/-- `vfs_node_open` -/
def nodeOpen (key : FileKey) : Bool := s.handles.any (·.key = key)

/-- `vfs_node_is_cwd` -/
def nodeIsCwd (key : FileKey) : Bool := s.contexts.any (key ∈ ·.cwd.keys)

/-- `vfs_cache_mapped` -/
def cacheMapped (key : FileKey) : Bool := key ∈ s.mapped

/-- The test of `vfs_remove_entry` and `vfs_rename` -/
def inUse (node : Node) : Bool :=
  s.nodeOpen node.key || (node.type = .directory && s.nodeIsCwd node.key)

def start (context : ℕ) (origin : Origin) : Except VfsError Dentry :=
  match s.contexts.find? (·.id = context), origin with
  | none, _ => .error .invalid
  | some context, .cwd => .ok context.cwd
  | some context, .root => .ok ⟨s.mountRoot context.cwd.node.key.mount, []⟩
  | some _, .drive drive =>
    match s.root drive with
    | none => .error .noEntry
    | some node => .ok ⟨node, []⟩

/-- The call of `t` goes on with a walk along `path`, or returns. -/
def walk (t context : ℕ) (path : Path) (purpose : Purpose) : Namespace :=
  match s.start context path.origin with
  | .ok dentry => s.setCall t (.walking purpose dentry path.components)
  | .error error => s.setCall t (.returned (.error error))

/-- `vfs_resolve_parent` -/
def walkParent (t context : ℕ) (path : Path) (purpose : String → Purpose) : Namespace :=
  match path.splitLeaf with
  | none => s.setCall t (.returned (.error .invalid))
  | some (parent, leaf) => s.walk t context parent (purpose leaf)

/-- The handle `id` is put into the list. -/
def publish (id : ℕ) (key : FileKey) : Namespace := { s with handles := ⟨id, key, 1⟩ :: s.handles }

/-- The checks of `vfs_open` after the walk. -/
def openVerdict (flags : OpenFlags) (node : Node) : OpenVerdict :=
  if flags.directory ∧ node.type ≠ .directory then .refuse .notDirectory
  else if ¬ flags.directory ∧ node.type ≠ .file then .refuse .isDirectory
  else if flags.write ∧ s.readOnly node.key.mount then .refuse .readOnly
  else if flags.truncate then
    if s.cacheMapped node.key then .refuse .busy
    else if ¬ flags.write then .refuse .invalid
    else .truncate
  else .publish

/-- The part of `vfs_open` after the walk, up to its next `lock` or its end. -/
def openNode (t id : ℕ) (flags : OpenFlags) (node : Node) : Namespace :=
  match s.openVerdict flags node with
  | .refuse error => s.setCall t (.returned (.error error))
  | .truncate => s.setCall t (.truncating flags node)
  | .publish => (s.publish id node.key).setCall t (.returned (.ok ()))

/-- What follows a path walk that has ended at `current`, up to the next `lock`. -/
def arrive (t id : ℕ) (purpose : Purpose) (current : Dentry) : Namespace :=
  match purpose with
  | .open_ _ _ flags =>
    if flags.create ∧ flags.exclusive then s.setCall t (.returned (.error .exists_))
    else s.openNode t id flags current.node
  | .openParent flags leaf =>
    if current.node.type ≠ .directory then s.setCall t (.returned (.error .notDirectory))
    else if s.readOnly current.node.key.mount then s.setCall t (.returned (.error .readOnly))
    else s.setCall t (.creating flags current leaf)
  | .chdir context =>
    if current.node.type ≠ .directory then s.setCall t (.returned (.error .notDirectory))
    else
      { s.setCall t (.returned (.ok ())) with
        contexts := s.contexts.map fun c => if c.id = context then { c with cwd := current } else c }
  | .remove context path type =>
    if current.node.type ≠ type then
      s.setCall t (.returned (.error (if type = .directory then .notDirectory else .isDirectory)))
    else if s.inUse current.node then s.setCall t (.returned (.error .busy))
    else s.walkParent t context path (.removeParent type current.node)
  | .removeParent type target leaf =>
    if current.node.type ≠ .directory then s.setCall t (.returned (.error .notDirectory))
    else if current.node.key.mount ≠ target.key.mount then s.setCall t (.returned (.error .invalid))
    else if s.readOnly current.node.key.mount then s.setCall t (.returned (.error .readOnly))
    else s.setCall t (.removing type target current leaf)
  | .rename context source destination =>
    if s.inUse current.node then s.setCall t (.returned (.error .busy))
    else s.walkParent t context source fun leaf => .renameSource context current.node leaf destination
  | .renameSource context target leaf destination =>
    if current.node.type ≠ .directory then s.setCall t (.returned (.error .notDirectory))
    else s.walkParent t context destination (.renameDestination target current leaf)
  | .renameDestination target source leaf destinationLeaf =>
    if current.node.type ≠ .directory then s.setCall t (.returned (.error .notDirectory))
    else if source.node.key.mount ≠ current.node.key.mount then
      s.setCall t (.returned (.error .notSupported))
    else if s.readOnly source.node.key.mount then s.setCall t (.returned (.error .readOnly))
    else s.setCall t (.renaming target source leaf current destinationLeaf)

def wantsLock : Call → Option MountId
  | .walking _ current (.name _ :: _) =>
    if current.node.type = .directory then some current.node.key.mount else none
  | .creating _ parent _ => some parent.node.key.mount
  | .truncating _ node => some node.key.mount
  | .removing _ _ parent _ => some parent.node.key.mount
  | .renaming _ source .. => some source.node.key.mount
  | .mapping h | .fdTruncating h => (s.handles.find? (·.id = h)).map (·.key.mount)
  | _ => none

/-- `vfs_close` -/
def close (id : ℕ) : Namespace :=
  { s with handles := s.handles.filterMap fun handle =>
            if handle.id ≠ id then some handle
            else if handle.references ≤ 1 then none
            else some { handle with references := handle.references - 1 } }

/-- `vfs_handle_retain` -/
def retain (id : ℕ) : Namespace :=
  { s with handles := s.handles.map fun handle =>
            if handle.id = id then { handle with references := handle.references + 1 } else handle }

/-- The names of the directory that `names` has lead to `node`, and none leads to `old` any more. -/
def setEntry (directory : FileKey) (old : Option Node) (names : String → Bool) (node : Option Node) :
    Namespace :=
  { s with entry := fun key name =>
            if key ≠ directory then s.entry key name
            else if names name then node
            else if old.isSome ∧ s.entry key name = old then none
            else s.entry key name }

def harm (key : FileKey) (used : Bool) : Namespace :=
  if used then { s with harmed := key :: s.harmed } else s

end Namespace

inductive NamespaceEvent
  | open_ (t context : ℕ) (path : Path) (flags : OpenFlags)
  | chdir (t context : ℕ) (path : Path)
  | remove (t context : ℕ) (path : Path) (type : VfsNodeType)
  | rename (t context : ℕ) (source destination : Path)
  | map (t handle : ℕ)
  | fdTruncate (t handle : ℕ)
  | acquire (t : ℕ)
  /-- a `lookup` of a path walk -/
  | lookup (t : ℕ)
  /-- the code of a call that needs no lock; `id` is the address of a new handle -/
  | proceed (t id : ℕ)
  /-- the filesystem has created `node` under the name, which it also finds under `names` -/
  | created (t : ℕ) (result : Except VfsError Node) (names : String → Bool)
  | truncated (t : ℕ) (result : Except VfsError Unit)
  | removed (t : ℕ) (result : Except VfsError Unit)
  | renamed (t : ℕ) (result : Except VfsError Node) (names : String → Bool)
  | fdTruncated (t : ℕ) (result : Except VfsError Unit)
  | mapped (t : ℕ) (result : Except VfsError Unit) (pages : Bool)
  /-- `vfs_mapping_release` of a mapping with pages of the node, made from the handle -/
  | release (handle : ℕ) (key : FileKey)
  | close (handle : ℕ)
  | retain (handle : ℕ)

namespace Namespace

def step (s : Namespace) : NamespaceEvent → Option Namespace
  | .open_ t context path flags =>
    match s.call t with
    | .returned _ =>
      if flags.valid then some (s.walk t context path (.open_ context path flags))
      else some (s.setCall t (.returned (.error .invalid)))
    | _ => none
  | .chdir t context path =>
    match s.call t with
    | .returned _ => some (s.walk t context path (.chdir context))
    | _ => none
  | .remove t context path type =>
    match s.call t with
    | .returned _ => some (s.walk t context path (.remove context path type))
    | _ => none
  | .rename t context source destination =>
    match s.call t with
    | .returned _ => some (s.walk t context source (.rename context source destination))
    | _ => none
  | .map t h =>
    match s.call t with
    | .returned _ =>
      if s.handles.any (·.id = h) then some ((s.retain h).setCall t (.mapping h)) else none
    | _ => none
  | .fdTruncate t h =>
    match s.call t with
    | .returned _ =>
      if s.handles.any (·.id = h) then some ((s.retain h).setCall t (.fdTruncating h)) else none
    | _ => none
  | .acquire t =>
    (s.wantsLock (s.call t)).bind fun mount =>
      if s.lock mount = none then some { s with lock := Function.update s.lock mount (some t) } else none
  | .lookup t =>
    match s.call t with
    | .walking purpose current (.name name :: rest) =>
      if s.lock current.node.key.mount ≠ some t then none
      else
        let s := s.unlock current.node.key.mount
        match s.entry current.node.key name, purpose with
        | some node, _ => some (s.setCall t (.walking purpose (current.child node) rest))
        | none, .open_ context path flags =>
          if flags.create then some (s.walkParent t context path (.openParent flags))
          else some (s.setCall t (.returned (.error .noEntry)))
        | none, _ => some (s.setCall t (.returned (.error .noEntry)))
    | _ => none
  | .proceed t id =>
    if s.handles.any (·.id = id) then none
    else
      match s.call t with
      | .walking purpose current [] => some (s.arrive t id purpose current)
      | .walking purpose current (.here :: rest) => some (s.setCall t (.walking purpose current rest))
      | .walking purpose current (.up :: rest) => some (s.setCall t (.walking purpose current.up rest))
      | .walking _ current (.name _ :: _) =>
        if current.node.type = .directory then none
        else some (s.setCall t (.returned (.error .notDirectory)))
      | .created flags node => some (s.openNode t id flags node)
      | .truncated _ node => some ((s.publish id node.key).setCall t (.returned (.ok ())))
      | .fdTruncated h status => some ((s.close h).setCall t (.returned status))
      | _ => none
  | .created t result names =>
    match s.call t with
    | .creating flags parent leaf =>
      if s.lock parent.node.key.mount ≠ some t then none
      else
        let s := s.unlock parent.node.key.mount
        match result, s.entry parent.node.key leaf with
        | .error error, _ => some (s.setCall t (.returned (.error error)))
        | .ok node, none =>
          some ((s.setEntry parent.node.key none names (some node)).setCall t (.created flags node))
        | .ok _, some _ => none
    | _ => none
  | .truncated t result =>
    match s.call t with
    | .truncating flags node =>
      if s.lock node.key.mount ≠ some t then none
      else
        let s := s.unlock node.key.mount
        match result with
        | .error error => some (s.setCall t (.returned (.error error)))
        | .ok () => some ((s.harm node.key (s.cacheMapped node.key)).setCall t (.truncated flags node))
    | _ => none
  | .removed t result =>
    match s.call t with
    | .removing _ _ parent leaf =>
      if s.lock parent.node.key.mount ≠ some t then none
      else
        let s := s.unlock parent.node.key.mount
        match result, s.entry parent.node.key leaf with
        | .error error, _ => some (s.setCall t (.returned (.error error)))
        | .ok (), none => none
        | .ok (), some node =>
          some (((s.harm node.key (s.inUse node)).setEntry parent.node.key (some node) (fun _ => false)
            none).setCall t (.returned (.ok ())))
    | _ => none
  | .renamed t result names =>
    match s.call t with
    | .renaming _ source leaf destination destinationLeaf =>
      if s.lock source.node.key.mount ≠ some t then none
      else
        let s := s.unlock source.node.key.mount
        match result, s.entry source.node.key leaf with
        | .error error, _ => some (s.setCall t (.returned (.error error)))
        | .ok _, none => none
        | .ok node', some node =>
          -- the two filesystems refuse a rename between directories and onto another entry
          if destination.node.key ≠ source.node.key ∨
              (s.entry source.node.key destinationLeaf ≠ none ∧
                s.entry source.node.key destinationLeaf ≠ some node) then none
          else
            some (((s.harm node.key (s.inUse node)).setEntry source.node.key (some node) names
              (some node')).setCall t (.returned (.ok ())))
    | _ => none
  | .fdTruncated t result =>
    match s.call t with
    | .fdTruncating h =>
      match s.handles.find? (·.id = h) with
      | none => none
      | some handle =>
        if s.lock handle.key.mount ≠ some t then none
        else
          let s := s.unlock handle.key.mount
          if s.cacheMapped handle.key then some (s.setCall t (.fdTruncated h (.error .busy)))
          else
            match result with
            | .error error => some (s.setCall t (.fdTruncated h (.error error)))
            | .ok () =>
              some ((s.harm handle.key (s.cacheMapped handle.key)).setCall t (.fdTruncated h (.ok ())))
    | _ => none
  | .mapped t result pages =>
    match s.call t with
    | .mapping h =>
      match s.handles.find? (·.id = h) with
      | none => none
      | some handle =>
        if s.lock handle.key.mount ≠ some t then none
        else
          let s := s.unlock handle.key.mount
          let s := if pages then { s with mapped := handle.key :: s.mapped } else s
          some (s.setCall t (.returned result))
    | _ => none
  | .release h key =>
    if key ∈ s.mapped then some { s.close h with mapped := s.mapped.erase key } else none
  | .close h => if s.handles.any (·.id = h) then some (s.close h) else none
  | .retain h => if s.handles.any (·.id = h) then some (s.retain h) else none

structure Init (s : Namespace) : Prop where
  handles : s.handles = []
  mapped : s.mapped = []
  call : ∀ t, ∃ status, s.call t = .returned status
  harmed : s.harmed = []

end Namespace

def namespaceSystem : Lib.System Namespace NamespaceEvent := ⟨Namespace.Init, Namespace.step⟩

/-! ## Nodes in use are left alone -/

open Lib (System)

/-- The node that the call has found unused, to remove or rename it. -/
def Purpose.target : Purpose → Option Node
  | .removeParent _ target _ => some target
  | .renameSource _ target _ _ => some target
  | .renameDestination target _ _ _ => some target
  | _ => none

@[simp] def Call.target : Call → Option Node
  | .walking purpose _ _ => purpose.target
  | .removing _ target _ _ => some target
  | .renaming target _ _ _ _ => some target
  | _ => none

/-- The node that the call has found unmapped, to truncate it. -/
@[simp] def Call.truncates : Call → Option FileKey
  | .truncating _ node => some node.key
  | _ => none

namespace Namespace

variable {s s' : Namespace} {t t' id : ℕ} {call : Call}

/-- No call is about to remove or rename a node with one of the keys. -/
def Untargeted (s : Namespace) (keys : List FileKey) : Prop :=
  ∀ t target, (s.call t).target = some target → target.key ∉ keys

/-- The nodes that the next step of the call puts into use: those of a new handle or a new working
directory. -/
def takesUp (s : Namespace) : Call → List FileKey
  | .walking (.open_ _ _ flags) current [] =>
    if ¬ (flags.create ∧ flags.exclusive) ∧ s.openVerdict flags current.node = .publish then
      [current.node.key]
    else []
  | .walking (.chdir _) current [] => if current.node.type = .directory then current.keys else []
  | .created flags node => if s.openVerdict flags node = .publish then [node.key] else []
  | .truncated _ node => [node.key]
  | _ => []

/-- The name still leads to the node that was found unused, or to none. -/
def LeadsTo (s : Namespace) (parent : Dentry) (leaf : String) (target : Node) : Prop :=
  ∀ node, s.entry parent.node.key leaf = some node → node = target

/-- The condition on a step. No handle and no working directory is made of a node, and no page of it is
mapped, between the check and the change of another call; and a name that is removed or renamed still
leads to the node that was checked. -/
def Spares (s : Namespace) : NamespaceEvent → Prop
  | .proceed t _ => s.Untargeted (s.takesUp (s.call t))
  | .removed t _ => ∀ type target parent leaf, s.call t = .removing type target parent leaf →
      s.LeadsTo parent leaf target
  | .renamed t _ _ => ∀ target source leaf destination destinationLeaf,
      s.call t = .renaming target source leaf destination destinationLeaf → s.LeadsTo source leaf target
  | .mapped t _ _ => ∀ h handle, s.call t = .mapping h → s.handles.find? (·.id = h) = some handle →
      ∀ t', (s.call t').truncates ≠ some handle.key
  | _ => True

structure Inv (s : Namespace) : Prop where
  target : ∀ {t target}, (s.call t).target = some target → s.inUse target = false
  truncates : ∀ {t key}, (s.call t).truncates = some key → s.cacheMapped key = false
  harmed : s.harmed = []

/-! ### The code without the lock -/

lemma Inv.setCall (h : s.Inv) (htgt : ∀ target, call.target = some target → s.inUse target = false)
    (htrun : ∀ key, call.truncates = some key → s.cacheMapped key = false) : (s.setCall t call).Inv := by
  have hcall : ∀ t', (s.setCall t call).call t' = if t' = t then call else s.call t' := fun t' => by
    simp [Namespace.setCall, Function.update_apply]
  constructor
  case target =>
    intro t' target ht
    rw [hcall] at ht
    split_ifs at ht
    · exact htgt target ht
    · exact h.target ht
  case truncates =>
    intro t' key ht
    rw [hcall] at ht
    split_ifs at ht
    · exact htrun key ht
    · exact h.truncates ht
  case harmed => exact h.harmed

lemma Inv.returned (h : s.Inv) (status : Except VfsError Unit) : (s.setCall t (.returned status)).Inv :=
  h.setCall (by simp) (by simp)

lemma Inv.mono (h : s.Inv) (hcall : s'.call = s.call) (hhar : s'.harmed = s.harmed)
    (huse : ∀ t target, (s.call t).target = some target → s.inUse target = false → s'.inUse target = false)
    (hmap : ∀ t key, (s.call t).truncates = some key → s.cacheMapped key = false →
      s'.cacheMapped key = false) : s'.Inv := by
  constructor
  case target =>
    intro t target ht
    rw [hcall] at ht
    exact huse t target ht (h.target ht)
  case truncates =>
    intro t key ht
    rw [hcall] at ht
    exact hmap t key ht (h.truncates ht)
  case harmed => exact hhar.trans h.harmed

lemma Inv.walk (h : s.Inv) {purpose : Purpose} (context : ℕ) (path : Path)
    (htgt : ∀ target, purpose.target = some target → s.inUse target = false) :
    (s.walk t context path purpose).Inv := by
  unfold Namespace.walk
  split
  · exact h.setCall htgt (by simp)
  · exact h.returned _

lemma Inv.walkParent (h : s.Inv) {purpose : String → Purpose} (context : ℕ) (path : Path)
    (htgt : ∀ leaf target, (purpose leaf).target = some target → s.inUse target = false) :
    (s.walkParent t context path purpose).Inv := by
  unfold Namespace.walkParent
  split
  · exact h.returned _
  · exact h.walk context _ (htgt _)

lemma inUse_publish (key : FileKey) (node : Node) :
    (s.publish id key).inUse node = (decide (key = node.key) || s.inUse node) := by
  simp [inUse, nodeOpen, nodeIsCwd, Namespace.publish, Bool.or_assoc]

lemma Inv.publish (h : s.Inv) {key : FileKey} (hfree : s.Untargeted [key]) : (s.publish id key).Inv := by
  refine h.mono rfl rfl (fun t target ht hu => ?_) fun _ _ _ hm => hm
  have hne : key ≠ target.key := fun he => hfree t target ht (he ▸ List.mem_singleton_self _)
  rw [inUse_publish, decide_eq_false hne, Bool.false_or]
  exact hu

lemma Inv.openNode (h : s.Inv) {flags : OpenFlags} {node : Node}
    (hfree : s.openVerdict flags node = .publish → s.Untargeted [node.key]) :
    (s.openNode t id flags node).Inv := by
  unfold Namespace.openNode
  split
  case h_1 => exact h.returned _
  case h_2 hv =>
    refine h.setCall (by simp) fun key hk => ?_
    have hmap : s.cacheMapped node.key = false := by
      unfold openVerdict at hv
      split_ifs at hv with _ _ _ _ hm
      exact Bool.eq_false_of_not_eq_true hm
    cases hk
    exact hmap
  case h_3 hv => exact (h.publish (hfree hv)).returned _

lemma Inv.setCwd (h : s.Inv) {context : ℕ} {current : Dentry} (hfree : s.Untargeted current.keys) :
    Inv { s with contexts := s.contexts.map fun c => if c.id = context then { c with cwd := current }
                              else c } := by
  refine h.mono rfl rfl (fun t target ht hu => ?_) fun _ _ _ => id
  have hnot := hfree t target ht
  simp only [inUse, Bool.or_eq_false_iff, Bool.and_eq_false_iff] at hu ⊢
  refine ⟨hu.1, hu.2.imp_right fun hcwd => ?_⟩
  simp only [nodeIsCwd, List.any_eq_false, List.mem_map, decide_eq_true_eq] at hcwd ⊢
  rintro c ⟨c₀, hc₀, rfl⟩
  split_ifs
  · exact hnot
  · exact hcwd c₀ hc₀

lemma Inv.arrive (h : s.Inv) {purpose : Purpose} {current : Dentry}
    (ht : s.call t = .walking purpose current [])
    (hfree : s.Untargeted (s.takesUp (.walking purpose current []))) :
    (s.arrive t id purpose current).Inv := by
  have hown : ∀ target, purpose.target = some target → s.inUse target = false := fun target hp =>
    h.target (t := t) (by rw [ht]; exact hp)
  cases purpose with
  | open_ context path flags =>
    unfold Namespace.arrive
    dsimp only
    split_ifs with hx
    · exact h.returned _
    · refine h.openNode fun hv => ?_
      simpa [takesUp, hx, hv] using hfree
  | openParent flags leaf =>
    unfold Namespace.arrive
    dsimp only
    split_ifs
    · exact h.returned _
    · exact h.returned _
    · exact h.setCall (by simp) (by simp)
  | chdir context =>
    unfold Namespace.arrive
    dsimp only
    split_ifs with hd
    · exact h.returned _
    · rw [not_not] at hd
      have hfree' : s.Untargeted current.keys := by simpa [takesUp, hd] using hfree
      exact Inv.returned (h.setCwd hfree') (.ok ())
  | remove context path type =>
    unfold Namespace.arrive
    dsimp only
    split_ifs with _ _ hu
    · exact h.returned _
    · exact h.returned _
    · exact h.returned _
    refine h.walkParent context path fun leaf target hp => ?_
    cases hp
    exact Bool.eq_false_of_not_eq_true hu
  | removeParent type target leaf =>
    unfold Namespace.arrive
    dsimp only
    split_ifs
    · exact h.returned _
    · exact h.returned _
    · exact h.returned _
    · exact h.setCall hown (by simp)
  | rename context source destination =>
    unfold Namespace.arrive
    dsimp only
    split_ifs with hu
    · exact h.returned _
    refine h.walkParent context source fun leaf target hp => ?_
    cases hp
    exact Bool.eq_false_of_not_eq_true hu
  | renameSource context target leaf destination =>
    unfold Namespace.arrive
    dsimp only
    split_ifs
    · exact h.returned _
    · exact h.walkParent context destination fun _ => hown
  | renameDestination target source leaf destinationLeaf =>
    unfold Namespace.arrive
    dsimp only
    split_ifs
    · exact h.returned _
    · exact h.returned _
    · exact h.returned _
    · exact h.setCall hown (by simp)

/-! ### Steps -/

lemma Inv.unlock (h : s.Inv) (mount : MountId) : (s.unlock mount).Inv :=
  ⟨h.target, h.truncates, h.harmed⟩

lemma Inv.setEntry (h : s.Inv) (directory : FileKey) (old : Option Node) (names : String → Bool)
    (node : Option Node) : (s.setEntry directory old names node).Inv :=
  ⟨h.target, h.truncates, h.harmed⟩

lemma Inv.harm (h : s.Inv) {key : FileKey} {used : Bool} (hused : used = false) : (s.harm key used).Inv := by
  subst hused
  exact h

lemma mem_close {h : ℕ} {handle : OpenFile} (hm : handle ∈ (s.close h).handles) :
    ∃ handle' ∈ s.handles, handle'.key = handle.key := by
  obtain ⟨handle', hmem, hf⟩ := List.mem_filterMap.mp hm
  refine ⟨handle', hmem, ?_⟩
  split_ifs at hf
  · exact congrArg _ (Option.some.inj hf)
  · rw [← Option.some.inj hf]

lemma inUse_close {h : ℕ} {node : Node} (hu : s.inUse node = false) : (s.close h).inUse node = false := by
  simp only [inUse, Bool.or_eq_false_iff] at hu ⊢
  refine ⟨?_, hu.2⟩
  simp only [nodeOpen, List.any_eq_false] at hu ⊢
  intro handle hm
  obtain ⟨handle', hm', hk⟩ := mem_close hm
  rw [← hk]
  exact hu.1 handle' hm'

lemma Inv.close (h : s.Inv) (handle : ℕ) : (s.close handle).Inv :=
  h.mono rfl rfl (fun _ _ _ => inUse_close) fun _ _ _ hm => hm

lemma inUse_retain {h : ℕ} {node : Node} : (s.retain h).inUse node = s.inUse node := by
  have : (s.retain h).nodeOpen node.key = s.nodeOpen node.key := by
    simp only [nodeOpen, Namespace.retain, List.any_map]
    congr 1
    funext handle
    simp only [Function.comp]
    split_ifs <;> rfl
  simp only [inUse, this]
  rfl

lemma Inv.retain (h : s.Inv) (handle : ℕ) : (s.retain handle).Inv :=
  h.mono rfl rfl (fun _ _ _ hu => inUse_retain.trans hu) fun _ _ _ hm => hm

/-- **A step that meets the condition harms no node in use.** -/
theorem Inv.step {e : NamespaceEvent} (h : s.Inv) (hg : s.Spares e) (hs : s.step e = some s') : s'.Inv := by
  cases e <;> simp only [Namespace.step] at hs
  case open_ t context path flags =>
    split at hs
    case h_2 => cases hs
    split at hs
    · cases hs
      exact h.walk context path (by simp [Purpose.target])
    · cases hs
      exact h.returned _
  case chdir t context path =>
    split at hs
    case h_2 => cases hs
    cases hs
    exact h.walk context path (by simp [Purpose.target])
  case remove t context path type =>
    split at hs
    case h_2 => cases hs
    cases hs
    exact h.walk context path (by simp [Purpose.target])
  case rename t context source destination =>
    split at hs
    case h_2 => cases hs
    cases hs
    exact h.walk context source (by simp [Purpose.target])
  case map t handle =>
    split at hs
    case h_2 => cases hs
    split_ifs at hs
    cases hs
    exact (h.retain handle).setCall (by simp) (by simp)
  case fdTruncate t handle =>
    split at hs
    case h_2 => cases hs
    split_ifs at hs
    cases hs
    exact (h.retain handle).setCall (by simp) (by simp)
  case acquire t =>
    obtain ⟨mount, -, hs⟩ := Option.bind_eq_some_iff.mp hs
    split_ifs at hs
    cases hs
    exact ⟨h.target, h.truncates, h.harmed⟩
  case lookup t =>
    split at hs
    case h_2 => cases hs
    case h_1 purpose current name rest hc =>
      split at hs
      · cases hs
      split at hs
      case h_1 =>
        cases hs
        refine (h.unlock _).setCall (fun target ht => ?_) (by simp)
        exact h.target (t := t) (by rw [hc]; exact ht)
      case h_2 =>
        split at hs
        · cases hs
          exact (h.unlock _).walkParent _ _ (by simp [Purpose.target])
        · cases hs
          exact (h.unlock _).returned _
      case h_3 =>
        cases hs
        exact (h.unlock _).returned _
  case proceed t id =>
    split at hs
    · cases hs
    split at hs
    case h_1 purpose current hc =>
      cases hs
      refine h.arrive hc ?_
      simpa only [Spares, hc] using hg
    case h_2 purpose current rest hc =>
      cases hs
      refine h.setCall (fun target ht => ?_) (by simp)
      exact h.target (t := t) (by rw [hc]; exact ht)
    case h_3 purpose current rest hc =>
      cases hs
      refine h.setCall (fun target ht => ?_) (by simp)
      exact h.target (t := t) (by rw [hc]; exact ht)
    case h_4 =>
      split at hs
      · cases hs
      · cases hs
        exact h.returned _
    case h_5 flags node hc =>
      cases hs
      refine h.openNode fun hv => ?_
      simpa [Spares, hc, takesUp, hv] using hg
    case h_6 flags node hc =>
      cases hs
      have hfree : s.Untargeted [node.key] := by simpa [Spares, hc, takesUp] using hg
      exact (h.publish hfree).returned _
    case h_7 =>
      cases hs
      exact (h.close _).returned _
    case h_8 => cases hs
  case created t result names =>
    split at hs
    case h_2 => cases hs
    split at hs
    · cases hs
    split at hs
    · cases hs
      exact (h.unlock _).returned _
    · cases hs
      exact ((h.unlock _).setEntry _ _ _ _).setCall (by simp) (by simp)
    · cases hs
  case truncated t result =>
    split at hs
    case h_2 => cases hs
    case h_1 flags node hc =>
      split at hs
      · cases hs
      split at hs
      · cases hs
        exact (h.unlock _).returned _
      · cases hs
        have hmap : s.cacheMapped node.key = false := h.truncates (t := t) (by rw [hc]; rfl)
        exact ((h.unlock _).harm hmap).setCall (by simp) (by simp)
  case removed t result =>
    split at hs
    case h_2 => cases hs
    case h_1 type target parent leaf hc =>
      split at hs
      · cases hs
      split at hs
      · cases hs
        exact (h.unlock _).returned _
      · cases hs
      case h_3 node hent =>
        cases hs
        have hnode : node = target := hg type target parent leaf hc node hent
        have hunus : s.inUse node = false := hnode ▸ h.target (t := t) (by rw [hc]; rfl)
        exact (((h.unlock _).harm hunus).setEntry _ _ _ _).returned _
  case renamed t result names =>
    split at hs
    case h_2 => cases hs
    case h_1 target source leaf destination destinationLeaf hc =>
      split at hs
      · cases hs
      split at hs
      · cases hs
        exact (h.unlock _).returned _
      · cases hs
      case h_3 node' node hent =>
        split at hs
        · cases hs
        cases hs
        have hnode : node = target := hg target source leaf destination destinationLeaf hc node hent
        have hunus : s.inUse node = false := hnode ▸ h.target (t := t) (by rw [hc]; rfl)
        exact (((h.unlock _).harm hunus).setEntry _ _ _ _).returned _
  case fdTruncated t result =>
    split at hs
    case h_2 => cases hs
    split at hs
    · cases hs
    split at hs
    · cases hs
    split at hs
    · cases hs
      exact (h.unlock _).setCall (by simp) (by simp)
    rename_i hmap
    split at hs
    · cases hs
      exact (h.unlock _).setCall (by simp) (by simp)
    · cases hs
      exact ((h.unlock _).harm (Bool.eq_false_of_not_eq_true hmap)).setCall (by simp) (by simp)
  case mapped t result pages =>
    split at hs
    case h_2 => cases hs
    case h_1 handle hc =>
      split at hs
      · cases hs
      case h_2 file hfind =>
        split at hs
        · cases hs
        cases hs
        refine Inv.returned ?_ _
        split_ifs
        · refine (h.unlock file.key.mount).mono rfl rfl (fun _ _ _ hu => hu) fun t' key ht hm => ?_
          have hne : key ≠ file.key := fun he => hg handle file hc hfind t' (he ▸ ht)
          simpa [cacheMapped, hne] using hm
        · exact h.unlock _
  case release handle key =>
    split_ifs at hs
    cases hs
    refine h.mono rfl rfl (fun _ _ _ hu => inUse_close hu) fun _ _ _ hm => ?_
    simp only [cacheMapped, decide_eq_false_iff_not] at hm ⊢
    exact fun hm' => hm (List.mem_of_mem_erase hm')
  case close handle =>
    split_ifs at hs
    cases hs
    exact h.close handle
  case retain handle =>
    split_ifs at hs
    cases hs
    exact h.retain handle

lemma Init.inv (h : s.Init) : s.Inv where
  target {t target} ht := by
    obtain ⟨status, hs⟩ := h.call t
    simp [hs, Call.target] at ht
  truncates {t key} ht := by
    obtain ⟨status, hs⟩ := h.call t
    simp [hs, Call.truncates] at ht
  harmed := h.harmed

/-- The walk of the call has ended at a node in use, and the call is to remove, rename or truncate it. -/
def MeetsBusy (s : Namespace) : Call → Prop
  | .walking (.remove _ _ type) current [] => current.node.type = type ∧ s.inUse current.node
  | .walking (.rename _ _ _) current [] => s.inUse current.node
  | .walking (.open_ _ _ flags) current [] =>
    ¬ (flags.create ∧ flags.exclusive) ∧ ¬ flags.directory ∧ current.node.type = .file ∧ flags.truncate ∧
      ¬ (flags.write ∧ s.readOnly current.node.key.mount) ∧ s.cacheMapped current.node.key
  | _ => False

/-- **A call that meets a node in use returns `VFS_ERROR_BUSY`.** -/
lemma proceed_busy (hb : s.MeetsBusy (s.call t)) (hs : s.step (.proceed t id) = some s') :
    s'.call t = .returned (.error .busy) := by
  simp only [Namespace.step] at hs
  split at hs
  · cases hs
  have hbusy : ∀ s : Namespace, (s.setCall t (.returned (.error .busy))).call t = .returned (.error .busy) :=
    fun s => by simp [Namespace.setCall]
  unfold MeetsBusy at hb
  split at hb
  case h_1 context path type current hc =>
    simp only [hc, Option.some.injEq] at hs
    rw [← hs]
    simpa [Namespace.arrive, hb.1, hb.2] using hbusy s
  case h_2 context source destination current hc =>
    simp only [hc, Option.some.injEq] at hs
    rw [← hs]
    simpa [Namespace.arrive, hb] using hbusy s
  case h_3 context path flags current hc =>
    simp only [hc, Option.some.injEq] at hs
    obtain ⟨hx, hd, htype, htr, hro, hm⟩ := hb
    have hv : s.openVerdict flags current.node = .refuse .busy := by
      simp [openVerdict, hd, htype, htr, hm, hro]
    rw [← hs]
    simpa only [Namespace.arrive, if_neg hx, Namespace.openNode, hv] using hbusy s
  case h_4 => exact hb.elim

end Namespace

/-- **No node in use is removed, renamed or truncated**, in every run whose steps meet the condition; and a
call that meets one returns `VFS_ERROR_BUSY`. -/
theorem unharmed_of_spares {s : Namespace} (h : namespaceSystem.Guarded Namespace.Spares s) :
    s.harmed = [] ∧ ∀ t id s', s.MeetsBusy (s.call t) → namespaceSystem.step s (.proceed t id) = some s' →
      s'.call t = .returned (.error .busy) := by
  have hi : s.Inv := by
    apply h.invariant
    · exact fun _ hinit => hinit.inv
    · exact fun s e s' hi hg hs => hi.step hg hs
  exact ⟨hi.harmed, fun _ _ _ hb hs => Namespace.proceed_busy hb hs⟩

def rootNode : Node := ⟨⟨0, .ofWords 1 0 0 0⟩, .directory⟩

def fileNode : Node := ⟨⟨0, .ofWords 2 0 0 0⟩, .file⟩

/-- One file `f` in the working directory of one context. -/
def oneEntry : Namespace where
  root _ := some rootNode
  mountRoot _ := rootNode
  readOnly _ := false
  entry key name := if key = rootNode.key ∧ name = "f" then some fileNode else none
  handles := []
  contexts := [⟨0, ⟨rootNode, []⟩⟩]
  mapped := []
  call _ := .returned (.ok ())
  lock _ := none
  harmed := []

lemma oneEntry_init : namespaceSystem.init oneEntry := ⟨rfl, rfl, fun _ => ⟨_, rfl⟩, rfl⟩

def filePath : Path := ⟨.cwd, [.name "f"]⟩

def findsTarget : List NamespaceEvent := [.remove 1 0 filePath .file, .acquire 1, .lookup 1]

def opens : List NamespaceEvent :=
  [.open_ 2 0 filePath ⟨true, false, false, false, false, false, false⟩, .acquire 2, .lookup 2, .proceed 2 7]

/-- The file is unlinked while nobody opens it. -/
theorem unharmed_unlink : (namespaceSystem.replay oneEntry
    (findsTarget ++ [.proceed 1 7, .proceed 1 7, .acquire 1, .removed 1 (.ok ())])).harmed = [] := by
  have hfound : namespaceSystem.Guarded Namespace.Spares (namespaceSystem.replay oneEntry findsTarget) := by
    refine System.replay_guarded (.init oneEntry_init) fun s e he => ?_
    simp only [findsTarget, List.mem_cons, List.not_mem_nil, or_false] at he
    rcases he with rfl | rfl | rfl <;> trivial
  have hnone : ∀ s : Namespace, s.Untargeted [] := fun _ _ _ _ => List.not_mem_nil
  have harrives : (namespaceSystem.replay oneEntry findsTarget).Spares (.proceed 1 7) := hnone _
  have hchecked : namespaceSystem.Guarded Namespace.Spares
      (namespaceSystem.replay oneEntry (findsTarget ++ [.proceed 1 7])) := .step hfound harrives rfl
  have hparent : (namespaceSystem.replay oneEntry (findsTarget ++ [.proceed 1 7])).Spares (.proceed 1 7) :=
    hnone _
  have hremoving : namespaceSystem.Guarded Namespace.Spares
      (namespaceSystem.replay oneEntry (findsTarget ++ [.proceed 1 7, .proceed 1 7])) :=
    .step hchecked hparent rfl
  have hacquires : (namespaceSystem.replay oneEntry (findsTarget ++ [.proceed 1 7, .proceed 1 7])).Spares
      (.acquire 1) := trivial
  have hlocked : namespaceSystem.Guarded Namespace.Spares
      (namespaceSystem.replay oneEntry (findsTarget ++ [.proceed 1 7, .proceed 1 7, .acquire 1])) :=
    .step hremoving hacquires rfl
  have hremoves : (namespaceSystem.replay oneEntry (findsTarget ++ [.proceed 1 7, .proceed 1 7,
      .acquire 1])).Spares (.removed 1 (.ok ())) := by
    intro type target parent leaf hc node hentry
    cases hc
    exact (Option.some.inj hentry).symm
  exact (unharmed_of_spares (.step hlocked hremoves rfl)).1

/-- The task 2 opens the file between the check of the task 1 and its `remove`. -/
theorem unlink_harms_open : ∃ s, namespaceSystem.Reachable s ∧ s.harmed = [fileNode.key] ∧
    s.handles = [⟨7, fileNode.key, 1⟩] ∧ s.call 1 = .returned (.ok ()) := by
  refine ⟨namespaceSystem.replay oneEntry (findsTarget ++ [.proceed 1 7, .proceed 1 7] ++ opens ++
    [.acquire 1, .removed 1 (.ok ())]), System.replay_reachable (.init oneEntry_init) _, ?_, ?_, ?_⟩
  · decide
  · decide
  · rfl

end PlantOS.Vfs
