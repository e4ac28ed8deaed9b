import PlantOS.Fat.Name
import PlantOS.Vfs.FileCalls

/-!
# Paths as text

`vfs.c`: `vfs_resolve` and `vfs_resolve_parent`, which take a path string apart, and `vfs_dentry_path`, which puts one
together. A string is the list of its bytes before the terminator.
-/

namespace PlantOS.Vfs.PathText

abbrev intMax : ℕ := 2 ^ 31 - 1

/-- `'/'`, `'\\'`, `':'` and `'.'` -/
abbrev slash : UInt8 := 47
abbrev backslash : UInt8 := 92
abbrev colon : UInt8 := 58
abbrev dot : UInt8 := 46

def isSeparator (c : UInt8) : Bool := c = slash || c = backslash

/-! ### Names -/

/-- The `normalize_name` of a registered filesystem; `null` is that of `init_devfs`. -/
inductive Normalizer
  | pfs | fat | iso | null
  deriving DecidableEq, Repr

def pfsVfsNormalize (name : List UInt8) : Except VfsError (List UInt8) :=
  if name.length = 0 ∨ name.length ≥ 255 then .error .invalid else .ok name

def fatNormalizeName (name : List UInt8) : Except VfsError (List UInt8) :=
  if name.length = 0 ∨ name.length ≥ 255 ∨ name.length ≥ Fat.fatNameBytes then .error .invalid
  else if (Fat.fatDecodeName name).isSome then .ok name
  else .error .invalid

/-- The upper case of `iso_normalize_name` -/
def isoUpper (ch : UInt8) : UInt8 := if 97 ≤ ch ∧ ch ≤ 122 then ch - 32 else ch

def isoNormalizeName (name : List UInt8) : Except VfsError (List UInt8) :=
  if name.length = 0 ∨ name.length ≥ 255 then .error .invalid else .ok (name.map isoUpper)

def Normalizer.apply : Normalizer → List UInt8 → Except VfsError (List UInt8)
  | pfs => pfsVfsNormalize
  | fat => fatNormalizeName
  | iso => isoNormalizeName
  | null => .ok

/-! ### Mounts and dentries -/

/-- `struct vfs_mount`, with what its filesystem answers -/
structure Mount where
  /-- `DiskReady` of its disk -/
  diskReady : Bool
  drive : UInt8
  /-- `VFS_MOUNT_ACTIVE` -/
  active : Bool
  normalizeName : Normalizer
  root : VfsNode
  lookup : VfsNode → List UInt8 → Except VfsError VfsNode

/-- The mounts, and the slots of `vfs_mounts` that are in use -/
structure Mounts where
  mount : MountId → Mount
  table : List MountId

/-- `struct vfs_dentry`: the root of a mount, or a name under another one -/
inductive Dentry
  | root (mount : MountId)
  | child (parent : Dentry) (name : List UInt8) (node : VfsNode)
  deriving DecidableEq, Repr

namespace Dentry

def mount : Dentry → MountId
  | root m => m
  | child parent _ _ => parent.mount

/-- `current->parent`, and a root itself -/
def up : Dentry → Dentry
  | root m => root m
  | child parent _ _ => parent

def names : Dentry → List (List UInt8)
  | root _ => []
  | child parent name _ => parent.names ++ [name]

end Dentry

/-- `vfs_mount_status` -/
def Mount.status {α : Type} (m : Mount) (status : Except VfsError α) : Except VfsError α :=
  if m.diskReady then status else .error .io

/-- `vfs_normalize_drive` -/
def normalizeDrive (drive : UInt8) : Option UInt8 :=
  let drive := if 97 ≤ drive ∧ drive ≤ 122 then drive - 32 else drive
  if drive < 65 ∨ drive > 90 then none else some drive

/-- `vfs_normalize_component` -/
def Mount.normalizeComponent (m : Mount) (component : List UInt8) : Except VfsError (List UInt8) :=
  if component.length = 0 ∨ component.length ≥ 255 then .error .invalid else m.normalizeName.apply component

namespace Mounts

variable (s : Mounts)

def node : Dentry → VfsNode
  | .root m => (s.mount m).root
  | .child _ _ node => node

/-- The call of `lookup` of a dentry's filesystem -/
def lookup (d : Dentry) (name : List UInt8) : Except VfsError VfsNode := (s.mount d.mount).lookup (s.node d) name

/-- `vfs_find_active_mount` -/
def findActiveMount (drive : UInt8) : Option MountId :=
  s.table.find? fun m => (s.mount m).active && (s.mount m).drive = drive

/-- `vfs_root_for_drive` -/
def rootForDrive (drive : UInt8) : Option Dentry := (normalizeDrive drive).bind fun drive => (s.findActiveMount drive).map .root

end Mounts

/-! ### `vfs_resolve` -/

/-- The components between the separators; the second argument is what has been read of the first one. -/
def componentsFrom : List UInt8 → List UInt8 → List (List UInt8)
  | [], component => if component = [] then [] else [component]
  | c :: cursor, component =>
    if isSeparator c then if component = [] then componentsFrom cursor [] else component :: componentsFrom cursor []
    else componentsFrom cursor (component ++ [c])

namespace Mounts

variable (s : Mounts)

/-- One pass of the loop of `vfs_resolve`, up to the memory for the new dentry -/
def enter (current : Dentry) (component : List UInt8) : Except VfsError Dentry :=
  if component = [dot] then .ok current
  else if component = [dot, dot] then .ok current.up
  else if (s.node current).type ≠ .directory then .error .notDirectory
  else
    match (s.mount current.mount).normalizeComponent component with
    | .error status => .error status
    | .ok normalized =>
      match (s.mount current.mount).status (s.lookup current normalized) with
      | .error status => .error status
      | .ok node => .ok (.child current normalized node)

/-- Where `vfs_resolve` starts, and what is left of the path -/
def start (cwd : Dentry) (path : List UInt8) : Except VfsError (Dentry × List UInt8) :=
  match path with
  | [] => .ok (cwd, [])
  | c :: rest =>
    if rest.head? = some colon then
      match s.rootForDrive c with
      | none => .error .noEntry
      | some root => .ok (root, rest.tail)
    else if isSeparator c then .ok (.root cwd.mount, path)
    else .ok (cwd, path)

/-- The loop of `vfs_resolve` -/
def walk (current : Dentry) : List (List UInt8) → Except VfsError Dentry
  | [] => .ok current
  | component :: rest =>
    match s.enter current component with
    | .error status => .error status
    | .ok next => walk next rest

def vfsResolve (cwd : Dentry) (path : List UInt8) : Except VfsError Dentry :=
  match s.start cwd path with
  | .error status => .error status
  | .ok (current, cursor) =>
    if (s.mount current.mount).diskReady then s.walk current (componentsFrom cursor []) else .error .io

/-- The loop of `vfs_resolve`, where the component `n` finds memory for its dentry if `memory n` -/
def walkWithin (memory : ℕ → Bool) (n : ℕ) (current : Dentry) : List (List UInt8) → Except VfsError Dentry
  | [] => .ok current
  | component :: rest =>
    match s.enter current component with
    | .error status => .error status
    | .ok next =>
      if component = [dot] ∨ component = [dot, dot] ∨ memory n then walkWithin memory (n + 1) next rest
      else .error .noMemory

lemma walkWithin_cases (memory : ℕ → Bool) (n : ℕ) (current : Dentry) (names : List (List UInt8)) :
    s.walkWithin memory n current names = s.walk current names ∨
      s.walkWithin memory n current names = .error .noMemory := by
  induction names generalizing n current with
  | nil => exact .inl rfl
  | cons component rest ih =>
    rw [walkWithin, walk]
    cases s.enter current component with
    | error status => exact .inl rfl
    | ok next =>
      dsimp only
      split
      · exact ih (n + 1) next
      · exact .inr rfl

end Mounts

def copyOf (path : List UInt8) : List UInt8 := path.map fun c => if c = backslash then slash else c

def stripped (copy : List UInt8) : List UInt8 := (copy.reverse.dropWhile fun c => c = slash).reverse

/-- The scan for the last separator: what is left of the copy, the index, and where the leaf starts so far -/
def leafFrom : List UInt8 → ℕ → ℕ → ℕ
  | [], _, leaf => leaf
  | c :: scan, index, leaf => leafFrom scan (index + 1) (if c = slash then index + 1 else leaf)

def leafStart (copy : List UInt8) : ℕ := leafFrom copy 0 (if copy.length > 2 ∧ copy[1]? = some colon then 2 else 0)

def parentPath (copy : List UInt8) (leaf : ℕ) : List UInt8 :=
  if leaf = 0 then []
  else if leaf = 2 ∧ copy[1]? = some colon then copy.take 2
  else if leaf - 1 = 0 then copy.take 1
  else copy.take (leaf - 1)

namespace Mounts

variable (s : Mounts)

/-- `vfs_resolve_parent`; there is memory for the copy. -/
def vfsResolveParent (cwd : Dentry) (path : List UInt8) : Except VfsError (Dentry × List UInt8) :=
  if path = [] then .error .invalid
  else if path.length ≥ intMax then .error .overflow
  else
    let copy := stripped (copyOf path)
    if copy.length = 0 ∨ copy.length = 2 ∧ copy[1]? = some colon then .error .invalid
    else
      let leaf := leafStart copy
      let leafName := copy.drop leaf
      if leafName = [] ∨ leafName = [dot] ∨ leafName = [dot, dot] then .error .invalid
      else if leafName.length ≥ 255 then .error .invalid
      else
        match s.vfsResolve cwd (parentPath copy leaf) with
        | .error status => .error status
        | .ok parent =>
          if (s.node parent).type ≠ .directory then .error .notDirectory
          else
            match (s.mount parent.mount).normalizeComponent leafName with
            | .error status => .error status
            | .ok normalized => .ok (parent, normalized)

end Mounts

/-! ### Paths of dentries -/

/-- The first loop of `vfs_dentry_path` -/
def measure : Dentry → ℕ → Option ℕ
  | .root _, length => some length
  | .child parent name _, length =>
    if name.length + 1 > intMax - length - 3 then none else measure parent (length + (name.length + 1))

/-- The second loop of `vfs_dentry_path`, from the end of the buffer -/
def write : Dentry → List UInt8 → List UInt8
  | .root _, buffer => buffer
  | .child parent name _, buffer => write parent (slash :: name ++ buffer)

/-- `vfs_dentry_path` without a buffer -/
def dentryPathLength (d : Dentry) (drive : Bool) : Except VfsError ℕ :=
  match measure d 0 with
  | none => .error .overflow
  | some length => .ok ((if length = 0 then 1 else length) + if drive then 2 else 0)

namespace Mounts

variable (s : Mounts)

/-- `vfs_dentry_path` -/
def dentryPath (d : Dentry) (capacity : ℕ) (drive : Bool) : Except VfsError (List UInt8) :=
  match dentryPathLength d drive with
  | .error status => .error status
  | .ok length =>
    if capacity ≤ length then .error .overflow
    else
      let text := write d []
      .ok ((if drive then [(s.mount d.mount).drive, colon] else []) ++ if text = [] then [slash] else text)

def vfsContextGetcwd (cwd : Dentry) (capacity : ℕ) : Except VfsError (List UInt8) := s.dentryPath cwd capacity false

/-- `vfs_realpath`; there is memory for the result. -/
def vfsRealpath (cwd : Dentry) (path : List UInt8) : Except VfsError (List UInt8) :=
  match s.vfsResolve cwd path with
  | .error status => .error status
  | .ok d =>
    match dentryPathLength d true with
    | .error status => .error status
    | .ok length => s.dentryPath d (length + 1) true

end Mounts

end PlantOS.Vfs.PathText
