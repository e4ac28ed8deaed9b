import Mathlib.Data.Vector.Basic

/-!
# Names of the VFS layer

Errors, open flags and the identity of a file object.
-/

namespace PlantOS.Vfs

/-- `enum vfs_error`, without `VFS_OK` -/
inductive VfsError
  | noEntry | interrupted | again | notSeekable | pipe | io | badDescriptor | noMemory | access | busy
  | exists_ | notDirectory | isDirectory | invalid | tooManyFiles | noSpace | readOnly | notEmpty
  | overflow | notSupported
  deriving DecidableEq, Repr

/-- `vfs_node_id_t` -/
structure VfsNodeId where
  value : Vector UInt32 4
  deriving DecidableEq, Repr

def VfsNodeId.ofWords (a b c d : UInt32) : VfsNodeId := ⟨#v[a, b, c, d]⟩

/-- The address of a `struct vfs_mount`. -/
abbrev MountId := ℕ

/-- A file object: the pair that `vfs_record_lock_key_equal` and its siblings compare. -/
structure FileKey where
  mount : MountId
  node : VfsNodeId
  deriving DecidableEq, Repr

/-- `VFS_NODE_FILE` and `VFS_NODE_DIRECTORY` -/
inductive VfsNodeType
  | file | directory
  deriving DecidableEq, Repr

end PlantOS.Vfs
