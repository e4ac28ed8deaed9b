import Mathlib.Data.Finset.Basic
import PlantOS.Lib.Run
import PlantOS.Vfs.Defs

/-!
# Handles and the size of their node

The lock of one mount and the calls that take it to open, write, truncate and close files. Every
dentry has a copy of its node, so every handle has a copy of the size. One step is the code between
two points at which another task can run: a call up to its `lock`, the code under the lock, the code
after `unlock`.
-/

namespace PlantOS.Vfs

/-- The flags of `vfs_open`, without the two that only the descriptor table reads -/
structure OpenFlags where
  read : Bool
  write : Bool
  create : Bool
  exclusive : Bool
  truncate : Bool
  append : Bool
  directory : Bool
  deriving DecidableEq, Repr

/-- The first test of `vfs_open` -/
def OpenFlags.valid (flags : OpenFlags) : Bool :=
  (flags.read || flags.write) &&
    !(flags.directory && (flags.write || flags.create || flags.truncate || flags.append))

structure FsNode where
  type : VfsNodeType
  size : ℕ
  deriving DecidableEq, Repr

/-- A reference to a handle: a descriptor's or a mapping's, or the one that `vfs_fd_truncate` takes. -/
inductive Reference
  | descriptor
  | truncation (task : ℕ)
  deriving DecidableEq, Repr

/-- `struct vfs_handle` with the node of its dentry -/
structure VfsHandle where
  node : VfsNodeId
  size : ℕ
  offset : ℕ
  flags : OpenFlags
  references : List Reference
  deriving DecidableEq, Repr

inductive Phase
  | idle
  /-- in `vfs_resolve`, before a `lookup` -/
  | resolving (flags : OpenFlags)
  /-- before the `create` of `vfs_open` -/
  | creating (flags : OpenFlags)
  /-- after `unlock`, with the dentry of the file -/
  | resolved (flags : OpenFlags) (node : VfsNodeId) (size : ℕ)
  /-- before the `truncate` of `vfs_open` -/
  | truncating (flags : OpenFlags) (node : VfsNodeId)
  /-- after the `unlock` that follows it -/
  | truncated (flags : OpenFlags) (node : VfsNodeId)
  /-- before the `write` of `vfs_write` -/
  | writing (handle length : ℕ)
  /-- before the `truncate` of `vfs_fd_truncate` -/
  | fdTruncating (handle length : ℕ)
  /-- after the `unlock` that follows it -/
  | fdTruncated (handle : ℕ)
  deriving DecidableEq, Repr

def Phase.wantsLock : Phase → Bool
  | .resolving _ | .creating _ | .truncating .. | .writing .. | .fdTruncating .. => true
  | _ => false

structure HandleState where
  fs : VfsNodeId → Option FsNode
  /-- `vfs_handles` -/
  handles : Finset ℕ
  /-- the memory of the handles; a freed one is left as it was -/
  handle : ℕ → VfsHandle
  phase : ℕ → Phase
  /-- the task that has the lock of the mount -/
  lock : Option ℕ

/-- What `lookup` found. -/
inductive LookupResult
  /-- a component that is not the last one -/
  | component
  | found (node : VfsNodeId)
  | noEntry
  | error

/-- How `write` or `truncate` of the filesystem ends. -/
inductive FsOutcome
  | succeeds
  /-- no space, or an I/O error; `restored`: the old size is stored in the node again -/
  | fails (restored : Bool)
  deriving DecidableEq, Repr

inductive HandleEvent
  | open_ (t : ℕ) (flags : OpenFlags)
  | acquire (t : ℕ)
  | lookup (t : ℕ) (result : LookupResult)
  /-- a path without components ends at the directory that it starts from -/
  | startsAt (t : ℕ) (node : VfsNodeId)
  | create (t : ℕ) (node : VfsNodeId) (outcome : FsOutcome) (ready : Bool)
  /-- a check or an allocation of `vfs_open` fails -/
  | openFails (t : ℕ)
  | openTruncate (t : ℕ)
  | truncate (t : ℕ) (outcome : FsOutcome) (ready : Bool)
  /-- the rest of `vfs_open`, with the new handle `handle` -/
  | publish (t handle : ℕ)
  | write (t handle length : ℕ)
  | fsWrite (t : ℕ) (readyBefore : Bool) (outcome : FsOutcome) (readyAfter : Bool)
  | fdTruncate (t handle length : ℕ)
  | fsTruncate (t : ℕ) (outcome : FsOutcome)
  | fdTruncateEnds (t : ℕ)
  /-- `vfs_handle_retain` for a new descriptor or a mapping -/
  | retain (handle : ℕ)
  | close (handle : ℕ)

namespace HandleState

variable (s : HandleState)

def setPhase (t : ℕ) (phase : Phase) : HandleState :=
  { s with phase := Function.update s.phase t phase }

def setHandle (h : ℕ) (f : VfsHandle → VfsHandle) : HandleState :=
  { s with handle := Function.update s.handle h (f (s.handle h)) }

def setSize (node : VfsNodeId) (size : ℕ) : HandleState :=
  { s with fs := Function.update s.fs node ((s.fs node).map ({ · with size := size })) }

def unlock : HandleState := { s with lock := none }

/-- `vfs_update_open_sizes` -/
def updateOpenSizes (node : VfsNodeId) (size : ℕ) : HandleState :=
  { s with handle := fun h =>
            if h ∈ s.handles ∧ (s.handle h).node = node then { s.handle h with size := size }
            else s.handle h }

/-- The offset at which `vfs_write` writes. -/
def writeOffset (h : ℕ) : ℕ := if (s.handle h).flags.append then (s.handle h).size else (s.handle h).offset

/-- `write` of the filesystem up to the end `writeEnd`. A file that grows has its new size in the record
and in the node of the call. -/
def fsWrite (h writeEnd : ℕ) (outcome : FsOutcome) : HandleState × Bool :=
  let node := (s.handle h).node
  match s.fs node, outcome with
  | some ⟨.file, recorded⟩, .succeeds =>
    if writeEnd > recorded then
      ((s.setSize node writeEnd).setHandle h ({ · with size := writeEnd }), true)
    else (s, true)
  | some ⟨.file, recorded⟩, .fails true =>
    if writeEnd > recorded then (s.setHandle h ({ · with size := recorded }), false) else (s, false)
  | _, _ => (s, false)

/-- The part of `vfs_write` between `lock` and `unlock` -/
def writeLocked (h length : ℕ) (readyBefore : Bool) (outcome : FsOutcome) (readyAfter : Bool) :
    HandleState :=
  if !readyBefore then s
  else
    let offset := s.writeOffset h
    let s := s.setHandle h ({ · with offset := offset })
    if offset > UInt32.size - 1 - length then s
    else
      let writeEnd := offset + length
      let (s, written) := s.fsWrite h writeEnd outcome
      if written && readyAfter then
        let size := max (s.handle h).size writeEnd
        (s.setHandle h ({ · with size := size, offset := writeEnd })).updateOpenSizes
          (s.handle h).node size
      else s

/-- The part of `vfs_fd_truncate` between `lock` and `unlock` -/
def fdTruncateLocked (h length : ℕ) (outcome : FsOutcome) : HandleState :=
  let node := (s.handle h).node
  match s.fs node, outcome with
  | some ⟨.file, _⟩, .succeeds =>
    ((s.setSize node length).setHandle h ({ · with size := length })).updateOpenSizes node length
  | _, _ => s

/-- `vfs_close` by the owner of the reference `reference` -/
def closeReference (h : ℕ) (reference : Reference) : HandleState :=
  let s := s.setHandle h fun handle => { handle with references := handle.references.erase reference }
  if (s.handle h).references = [] then { s with handles := s.handles.erase h } else s

/-- The end of `vfs_open`: the dentry of `node` gets a handle. -/
def publish (h : ℕ) (flags : OpenFlags) (node : VfsNodeId) (size : ℕ) : HandleState :=
  { s with
    handles := insert h s.handles
    handle := Function.update s.handle h
      ⟨node, size, if flags.append then size else 0, flags, [.descriptor]⟩ }

def step : HandleEvent → Option HandleState
  | .open_ t flags =>
    if s.phase t = .idle ∧ flags.valid then some (s.setPhase t (.resolving flags)) else none
  | .acquire t => if s.lock = none ∧ (s.phase t).wantsLock then some { s with lock := some t } else none
  | .lookup t result =>
    match s.phase t, result with
    | .resolving flags, result =>
      if s.lock ≠ some t then none
      else
        match result with
        | .component => some s.unlock
        | .found node => (s.fs node).map fun found => (s.unlock).setPhase t (.resolved flags node found.size)
        | .noEntry => some (s.unlock.setPhase t (if flags.create then .creating flags else .idle))
        | .error => some (s.unlock.setPhase t .idle)
    | _, _ => none
  | .startsAt t node =>
    match s.phase t, s.fs node with
    | .resolving flags, some ⟨.directory, size⟩ =>
      if s.lock = some t then none else some (s.setPhase t (.resolved flags node size))
    | _, _ => none
  | .create t node outcome ready =>
    match s.phase t with
    | .creating flags =>
      if s.lock ≠ some t then none
      else
        match s.fs node, outcome with
        | none, .succeeds =>
          let s := { s.unlock with fs := Function.update s.fs node (some ⟨.file, 0⟩) }
          some (s.setPhase t (if ready then .resolved flags node 0 else .idle))
        | _, .fails _ => some (s.unlock.setPhase t .idle)
        | _, _ => none
    | _ => none
  | .openFails t =>
    match s.phase t with
    | .resolved .. => some (s.setPhase t .idle)
    | .truncated _ node => some ((s.updateOpenSizes node 0).setPhase t .idle)
    | _ => none
  | .openTruncate t =>
    match s.phase t with
    | .resolved flags node _ =>
      if flags.truncate ∧ flags.write then some (s.setPhase t (.truncating flags node)) else none
    | _ => none
  | .truncate t outcome ready =>
    match s.phase t with
    | .truncating flags node =>
      if s.lock ≠ some t then none
      else
        match s.fs node, outcome with
        | some ⟨.file, _⟩, .succeeds =>
          some ((s.unlock.setSize node 0).setPhase t (if ready then .truncated flags node else .idle))
        | _, _ => some (s.unlock.setPhase t .idle)
    | _ => none
  | .publish t h =>
    if h ∈ s.handles then none
    else
      match s.phase t with
      | .resolved flags node size =>
        if flags.truncate then none else some ((s.setPhase t .idle).publish h flags node size)
      | .truncated flags node =>
        some (((s.setPhase t .idle).updateOpenSizes node 0).publish h flags node 0)
      | _ => none
  | .write t h length =>
    if s.phase t = .idle ∧ h ∈ s.handles ∧ (s.handle h).flags.write ∧ length ≠ 0 then
      some (s.setPhase t (.writing h length))
    else none
  | .fsWrite t readyBefore outcome readyAfter =>
    match s.phase t with
    | .writing h length =>
      if s.lock = some t then
        some (((s.writeLocked h length readyBefore outcome readyAfter).unlock).setPhase t .idle)
      else none
    | _ => none
  | .fdTruncate t h length =>
    if s.phase t = .idle ∧ h ∈ s.handles ∧ (s.handle h).flags.write then
      some ((s.setHandle h fun handle =>
        { handle with references := .truncation t :: handle.references }).setPhase t
          (.fdTruncating h length))
    else none
  | .fsTruncate t outcome =>
    match s.phase t with
    | .fdTruncating h length =>
      if s.lock = some t then
        some (((s.fdTruncateLocked h length outcome).unlock).setPhase t (.fdTruncated h))
      else none
    | _ => none
  | .fdTruncateEnds t =>
    match s.phase t with
    | .fdTruncated h => some ((s.closeReference h (.truncation t)).setPhase t .idle)
    | _ => none
  | .retain h =>
    if h ∈ s.handles then
      some (s.setHandle h fun handle => { handle with references := .descriptor :: handle.references })
    else none
  | .close h =>
    if h ∈ s.handles ∧ Reference.descriptor ∈ (s.handle h).references then
      some (s.closeReference h .descriptor)
    else none

structure Init (s : HandleState) : Prop where
  handles : s.handles = ∅
  phase : ∀ t, s.phase t = .idle
  lock : s.lock = none

end HandleState

def handleSystem : Lib.System HandleState HandleEvent := ⟨HandleState.Init, HandleState.step⟩

/-! ## One size for all handles of a node -/

open Lib (System)
open Function (update update_apply)

namespace HandleState

variable {s s' : HandleState} {t h h' : ℕ} {n m : VfsNodeId} {size : ℕ} {flags : OpenFlags}

def Recorded (s : HandleState) (n : VfsNodeId) (size : ℕ) : Prop := (s.fs n).map (·.size) = some size

/-- **Every open handle has the size that the filesystem records for its node**, whenever the lock is
free. -/
def Agree (s : HandleState) : Prop :=
  s.lock = none → ∀ h ∈ s.handles, s.Recorded (s.handle h).node (s.handle h).size

/-- A task is about to put a handle of the node into the list, with the size it has read or with 0. -/
def Unpublished (s : HandleState) (n : VfsNodeId) : Prop :=
  ∃ t flags, (∃ size, s.phase t = .resolved flags n size ∧ flags.truncate = false) ∨
    s.phase t = .truncated flags n

/-- The condition on a step. No size changes while a task is about to publish a handle of the node;
`vfs_open` truncates no node that has an open handle, unless it is empty; the disk does not fail behind
a `write` that has grown a file with other handles; and no handle is freed under a `vfs_write`. -/
def Spares (s : HandleState) : HandleEvent → Prop
  | .truncate t .succeeds _ => ∀ flags n, s.phase t = .truncating flags n →
      s.Recorded n 0 ∨ ¬ s.Unpublished n ∧ ∀ h ∈ s.handles, (s.handle h).node ≠ n
  | .fsWrite t true .succeeds readyAfter => ∀ h length, s.phase t = .writing h length →
      (∃ size, s.Recorded (s.handle h).node size ∧ s.writeOffset h + length ≤ size) ∨
        ¬ s.Unpublished (s.handle h).node ∧ (readyAfter ∨
          ∀ h' ∈ s.handles, (s.handle h').node = (s.handle h).node → h' = h)
  | .fsTruncate t .succeeds => ∀ h length, s.phase t = .fdTruncating h length →
      s.Recorded (s.handle h).node length ∨ ¬ s.Unpublished (s.handle h).node
  | .close h => (s.handle h).references = [.descriptor] → ∀ t length, s.phase t ≠ .writing h length
  | .fdTruncateEnds t => ∀ h, s.phase t = .fdTruncated h → (s.handle h).references = [.truncation t] →
      ∀ t' length, s.phase t' ≠ .writing h length
  | _ => True

structure Inv (s : HandleState) : Prop where
  agree : ∀ h ∈ s.handles, s.Recorded (s.handle h).node (s.handle h).size
  resolved : ∀ {t flags n size}, s.phase t = .resolved flags n size → flags.truncate = false →
    s.Recorded n size
  truncated : ∀ {t flags n}, s.phase t = .truncated flags n → s.Recorded n 0
  writing : ∀ {t h length}, s.phase t = .writing h length → h ∈ s.handles
  fdTruncating : ∀ {t h length}, s.phase t = .fdTruncating h length →
    h ∈ s.handles ∧ .truncation t ∈ (s.handle h).references
  fdTruncated : ∀ {t h}, s.phase t = .fdTruncated h →
    h ∈ s.handles ∧ .truncation t ∈ (s.handle h).references

/-! ### The operations -/

@[simp] lemma recorded_setSize : (s.setSize n size).Recorded m k ↔
    if m = n then (s.fs n).isSome ∧ k = size else s.Recorded m k := by
  unfold Recorded setSize
  split_ifs with hm
  · subst hm
    cases hs : s.fs m <;> simp [eq_comm]
  · simp [hm]

lemma Inv.setPhase (h : s.Inv) {phase : Phase}
    (hres : ∀ flags n size, phase = .resolved flags n size → flags.truncate = false → s.Recorded n size)
    (htr : ∀ flags n, phase = .truncated flags n → s.Recorded n 0)
    (hwr : ∀ h length, phase = .writing h length → h ∈ s.handles)
    (hft : ∀ h, (phase = .fdTruncated h ∨ ∃ length, phase = .fdTruncating h length) →
      h ∈ s.handles ∧ .truncation t ∈ (s.handle h).references) : (s.setPhase t phase).Inv := by
  have hp : ∀ t', (s.setPhase t phase).phase t' = if t' = t then phase else s.phase t' := fun t' => by
    simp [HandleState.setPhase, update_apply]
  constructor
  case agree => exact h.agree
  case resolved =>
    intro t' flags n size ht hf
    rw [hp] at ht
    split_ifs at ht
    · exact hres _ _ _ ht hf
    · exact h.resolved ht hf
  case truncated =>
    intro t' flags n ht
    rw [hp] at ht
    split_ifs at ht
    · exact htr _ _ ht
    · exact h.truncated ht
  case writing =>
    intro t' h' length ht
    rw [hp] at ht
    split_ifs at ht
    · exact hwr _ _ ht
    · exact h.writing ht
  case fdTruncating =>
    intro t' h' length ht
    rw [hp] at ht
    split_ifs at ht with htt
    · exact htt ▸ hft _ (.inr ⟨_, ht⟩)
    · exact h.fdTruncating ht
  case fdTruncated =>
    intro t' h' ht
    rw [hp] at ht
    split_ifs at ht with htt
    · exact htt ▸ hft _ (.inl ht)
    · exact h.fdTruncated ht

lemma Inv.unlock (h : s.Inv) : s.unlock.Inv :=
  { h with }

lemma Inv.setPhase_inert (h : s.Inv) {phase : Phase}
    (hp : phase = .idle ∨ (∃ flags, phase = .resolving flags) ∨ (∃ flags, phase = .creating flags) ∨
      ∃ flags n, phase = .truncating flags n) : (s.setPhase t phase).Inv := by
  refine h.setPhase ?_ ?_ ?_ ?_ <;>
    rcases hp with rfl | ⟨_, rfl⟩ | ⟨_, rfl⟩ | ⟨_, _, rfl⟩ <;> simp

structure Resized (s s' : HandleState) (n : VfsNodeId) (size : ℕ) : Prop where
  handles : s'.handles = s.handles
  phase : s'.phase = s.phase
  node : ∀ h, (s'.handle h).node = (s.handle h).node
  references : ∀ h, (s'.handle h).references = (s.handle h).references
  recorded : s'.Recorded n size
  others : ∀ m k, m ≠ n → (s'.Recorded m k ↔ s.Recorded m k)
  size : ∀ h ∈ s.handles, (s'.handle h).size = if (s.handle h).node = n then size else (s.handle h).size

lemma Resized.inv (hr : Resized s s' n size) (h : s.Inv) (hun : s.Recorded n size ∨ ¬ s.Unpublished n) :
    s'.Inv := by
  have hrec : ∀ {m k}, s.Recorded m k → (m = n → k = size) → s'.Recorded m k := by
    intro m k hm hk
    by_cases hmn : m = n
    · exact hmn ▸ hk hmn ▸ hr.recorded
    · exact (hr.others m k hmn).mpr hm
  have hsame : ∀ {k}, s.Recorded n k → s.Recorded n size → k = size := fun hk hs =>
    Option.some.inj (hk.symm.trans hs)
  constructor
  case agree =>
    intro h' hh
    rw [hr.handles] at hh
    rw [hr.node, hr.size h' hh]
    split_ifs with hn
    · exact hn ▸ hr.recorded
    · exact (hr.others _ _ hn).mpr (h.agree h' hh)
  case resolved =>
    intro t flags m k ht hf
    rw [hr.phase] at ht
    refine hrec (h.resolved ht hf) fun hm => ?_
    subst hm
    rcases hun with hs | hun
    · exact hsame (h.resolved ht hf) hs
    · exact absurd ⟨t, flags, .inl ⟨k, ht, hf⟩⟩ hun
  case truncated =>
    intro t flags m ht
    rw [hr.phase] at ht
    refine hrec (h.truncated ht) fun hm => ?_
    subst hm
    rcases hun with hs | hun
    · exact hsame (h.truncated ht) hs
    · exact absurd ⟨t, flags, .inr ht⟩ hun
  case writing =>
    intro t h' length ht
    rw [hr.phase] at ht
    exact hr.handles ▸ h.writing ht
  case fdTruncating =>
    intro t h' length ht
    rw [hr.phase] at ht
    rw [hr.handles, hr.references]
    exact h.fdTruncating ht
  case fdTruncated =>
    intro t h' ht
    rw [hr.phase] at ht
    rw [hr.handles, hr.references]
    exact h.fdTruncated ht

/-! ### The code under the lock -/

/-- A change of a handle that keeps its node and its references. -/
structure Keeps (s : HandleState) (h : ℕ) (f : VfsHandle → VfsHandle) (size : ℕ) : Prop where
  node : (f (s.handle h)).node = (s.handle h).node
  references : (f (s.handle h)).references = (s.handle h).references
  size : (f (s.handle h)).size = size

variable {f : VfsHandle → VfsHandle}

lemma handle_setHandle :
    (s.setHandle h f).handle h' = if h' = h then f (s.handle h) else s.handle h' := by
  simp [setHandle, update_apply]

lemma Keeps.node_eq (hf : s.Keeps h f size) (h' : ℕ) :
    ((s.setHandle h f).handle h').node = (s.handle h').node := by
  rw [handle_setHandle]
  split_ifs with hh
  · exact hh ▸ hf.node
  · rfl

lemma Keeps.references_eq (hf : s.Keeps h f size) (h' : ℕ) :
    ((s.setHandle h f).handle h').references = (s.handle h').references := by
  rw [handle_setHandle]
  split_ifs with hh
  · exact hh ▸ hf.references
  · rfl

lemma Inv.size_eq (hi : s.Inv) (hh : h ∈ s.handles) (hrec : s.Recorded (s.handle h).node size) :
    (s.handle h).size = size :=
  Option.some.inj ((hi.agree h hh).symm.trans hrec)

lemma Keeps.resized (hf : s'.Keeps h f size) (hi : s.Inv)
    (hs : s'.handle = s.handle) (hhds : s'.handles = s.handles) (hph : s'.phase = s.phase)
    (hrec : s'.Recorded (s.handle h).node size)
    (hoths : ∀ m k, m ≠ (s.handle h).node → (s'.Recorded m k ↔ s.Recorded m k))
    (honly : s.Recorded (s.handle h).node size ∨
      ∀ h' ∈ s.handles, (s.handle h').node = (s.handle h).node → h' = h) :
    Resized s (s'.setHandle h f) (s.handle h).node size := by
  constructor
  case handles => exact hhds
  case phase => exact hph
  case recorded => exact hrec
  case others => exact hoths
  case node => exact fun h' => (hf.node_eq h').trans (hs ▸ rfl)
  case references => exact fun h' => (hf.references_eq h').trans (hs ▸ rfl)
  case size =>
    intro h' hmem
    rw [handle_setHandle, hs]
    split_ifs with hh' hn hn
    · exact hs ▸ hf.size
    · exact absurd (hh' ▸ rfl) hn
    · rcases honly with hold | honly
      · exact hi.size_eq hmem (hn ▸ hold)
      · exact absurd (honly h' hmem hn) hh'
    · rfl

lemma Resized.updateOpenSizes (hrec : s'.Recorded n size) (hh : s'.handles = s.handles)
    (hp : s'.phase = s.phase) (hnode : ∀ h, (s'.handle h).node = (s.handle h).node)
    (href : ∀ h, (s'.handle h).references = (s.handle h).references)
    (hoths : ∀ m k, m ≠ n → (s'.Recorded m k ↔ s.Recorded m k))
    (hsize : ∀ h ∈ s.handles, (s.handle h).node ≠ n → (s'.handle h).size = (s.handle h).size) :
    Resized s (s'.updateOpenSizes n size) n size := by
  have hf : ∀ h, (s'.updateOpenSizes n size).handle h =
      if h ∈ s.handles ∧ (s.handle h).node = n then { s'.handle h with size := size } else s'.handle h :=
    fun h => by simp [HandleState.updateOpenSizes, hh, hnode]
  constructor
  case handles => exact hh
  case phase => exact hp
  case recorded => exact hrec
  case others => exact hoths
  case node =>
    intro h
    rw [hf]
    split_ifs <;> exact hnode h
  case references =>
    intro h
    rw [hf]
    split_ifs <;> exact href h
  case size =>
    intro h hmem
    rw [hf]
    by_cases hn : (s.handle h).node = n
    · simp [hmem, hn]
    · simp [hn, hsize h hmem hn]

lemma Keeps.told {k : ℕ} (hf : s'.Keeps h f k)
    (hs : s'.handle = s.handle) (hhds : s'.handles = s.handles) (hph : s'.phase = s.phase)
    (hrec : s'.Recorded (s.handle h).node size)
    (hoths : ∀ m k, m ≠ (s.handle h).node → (s'.Recorded m k ↔ s.Recorded m k)) :
    Resized s ((s'.setHandle h f).updateOpenSizes (s.handle h).node size) (s.handle h).node size := by
  refine Resized.updateOpenSizes hrec hhds hph (fun h' => (hf.node_eq h').trans (hs ▸ rfl))
    (fun h' => (hf.references_eq h').trans (hs ▸ rfl)) hoths fun h' _ hn => ?_
  have : h' ≠ h := fun hh => hn (hh ▸ rfl)
  rw [handle_setHandle, if_neg this, hs]

lemma fsWrite_cases (e : ℕ) (outcome : FsOutcome)
    (hrec : s.Recorded (s.handle h).node (s.handle h).size) :
    (∃ f written, s.Keeps h f (s.handle h).size ∧
        s.fsWrite h e outcome = (s.setHandle h f, written) ∧ (written = true → e ≤ (s.handle h).size)) ∨
      ((s.handle h).size < e ∧ outcome = .succeeds ∧ s.fsWrite h e outcome =
        ((s.setSize (s.handle h).node e).setHandle h ({ · with size := e }), true)) := by
  have hid : s.setHandle h id = s := by simp [setHandle]
  unfold fsWrite
  extract_lets node
  split
  case h_1 recorded hfs =>
    have : s.fs (s.handle h).node = some ⟨.file, recorded⟩ := hfs
    have hsize : recorded = (s.handle h).size := by simpa [Recorded, this] using hrec
    split_ifs with hgrow
    · exact .inr ⟨by omega, rfl, rfl⟩
    · exact .inl ⟨id, true, ⟨rfl, rfl, rfl⟩, by rw [hid], fun _ => by omega⟩
  case h_2 recorded hfs =>
    have : s.fs (s.handle h).node = some ⟨.file, recorded⟩ := hfs
    have hsize : recorded = (s.handle h).size := by simpa [Recorded, this] using hrec
    split_ifs with hgrow
    · exact .inl ⟨({ · with size := recorded }), false, ⟨rfl, rfl, hsize⟩, rfl, by simp⟩
    · exact .inl ⟨id, false, ⟨rfl, rfl, rfl⟩, by rw [hid], by simp⟩
  case h_3 => exact .inl ⟨id, false, ⟨rfl, rfl, rfl⟩, by rw [hid], by simp⟩

lemma Keeps.comp {g : VfsHandle → VfsHandle} {k : ℕ} (hf : s.Keeps h f k)
    (hg : (s.setHandle h f).Keeps h g size) : s.Keeps h (g ∘ f) size := by
  have hfh : (s.setHandle h f).handle h = f (s.handle h) := by simp [setHandle]
  obtain ⟨hn, hr, hs⟩ := hg
  rw [hfh] at hn hr hs
  exact ⟨hn.trans hf.node, hr.trans hf.references, hs⟩

lemma setHandle_setHandle (f g : VfsHandle → VfsHandle) :
    (s.setHandle h f).setHandle h g = s.setHandle h (g ∘ f) := by
  simp [setHandle]

/-- **What `vfs_write` leaves behind**, if its step meets the condition. -/
lemma writeLocked_resized (hi : s.Inv) (hh : h ∈ s.handles) (length : ℕ) (readyBefore : Bool)
    (outcome : FsOutcome) (readyAfter : Bool) (hspar : readyBefore = true → outcome = .succeeds →
      (∃ size, s.Recorded (s.handle h).node size ∧ s.writeOffset h + length ≤ size) ∨
        ¬ s.Unpublished (s.handle h).node ∧ (readyAfter ∨
          ∀ h' ∈ s.handles, (s.handle h').node = (s.handle h).node → h' = h)) :
    ∃ size, Resized s (s.writeLocked h length readyBefore outcome readyAfter) (s.handle h).node size ∧
      (s.Recorded (s.handle h).node size ∨ ¬ s.Unpublished (s.handle h).node) := by
  have hagr := hi.agree h hh
  have hkept : ∀ {f : VfsHandle → VfsHandle}, s.Keeps h f (s.handle h).size →
      Resized s (s.setHandle h f) (s.handle h).node (s.handle h).size := fun hf =>
    hf.resized hi rfl rfl rfl hagr (fun _ _ _ => Iff.rfl) (.inl hagr)
  unfold writeLocked
  by_cases hrdy : readyBefore = true
  swap
  · have : Resized s (s.setHandle h id) (s.handle h).node (s.handle h).size := hkept ⟨rfl, rfl, rfl⟩
    refine ⟨_, ?_, .inl hagr⟩
    simpa [hrdy, setHandle] using this
  rw [if_neg (by simp [hrdy])]
  extract_lets offset s₁ writeEnd
  split_ifs with hlg
  · exact ⟨_, hkept ⟨rfl, rfl, rfl⟩, .inl hagr⟩
  have hs₁ : s₁.handle h = { s.handle h with offset := offset } := by
    simp [s₁, handle_setHandle]
  have hoff : s.Keeps h ({ · with offset := offset }) (s.handle h).size := ⟨rfl, rfl, rfl⟩
  have hrec : s₁.Recorded (s₁.handle h).node (s₁.handle h).size := by
    rw [hs₁]
    exact hagr
  rcases fsWrite_cases writeEnd outcome hrec with
    ⟨f, written, hf, hfs, hend⟩ | ⟨hgrow, rfl, hfs⟩
  · -- the records are as before
    rw [hfs]
    dsimp only
    rw [hs₁] at hf hend
    have hcomp := hoff.comp hf
    have hs₂ : s₁.setHandle h f = s.setHandle h (f ∘ ({ · with offset := offset })) :=
      setHandle_setHandle ..
    have hsize : ((s₁.setHandle h f).handle h).size = (s.handle h).size := by
      rw [hs₂, handle_setHandle, if_pos rfl]
      exact hcomp.size
    refine ⟨(s.handle h).size, ?_, .inl hagr⟩
    split_ifs with hw
    · have hmax : max ((s₁.setHandle h f).handle h).size writeEnd = (s.handle h).size := by
        rw [hsize]
        exact max_eq_left (hend (Bool.and_eq_true_iff.mp hw).1)
      rw [hmax, hs₂, hcomp.node_eq h, setHandle_setHandle]
      have hlast : (s.setHandle h (f ∘ ({ · with offset := offset }))).Keeps h
          ({ · with size := (s.handle h).size, offset := writeEnd }) (s.handle h).size := ⟨rfl, rfl, rfl⟩
      exact (hcomp.comp hlast).told rfl rfl rfl hagr fun _ _ _ => Iff.rfl
    · rw [hs₂]
      exact hkept hcomp
  · -- the file has grown
    rw [hfs, hs₁]
    rw [hs₁] at hgrow
    dsimp only at hgrow ⊢
    set n := (s.handle h).node with hn
    have hsome : (s.fs n).isSome := by
      have := hagr
      rw [Recorded] at this
      cases hf : s.fs n with
      | none => simp [hf] at this
      | some _ => rfl
    have hrec' : (s.setSize n writeEnd).Recorded n writeEnd := by simp [hsome]
    have hoths : ∀ m k, m ≠ n → ((s.setSize n writeEnd).Recorded m k ↔ s.Recorded m k) := fun m k hm => by
      simp [hm]
    have hs₂ : (s₁.setSize n writeEnd).setHandle h ({ · with size := writeEnd }) =
        (s.setSize n writeEnd).setHandle h ({ · with offset := offset, size := writeEnd }) := by
      simp [s₁, setHandle, setSize]
    have hgrn : (s.setSize n writeEnd).Keeps h ({ · with offset := offset, size := writeEnd }) writeEnd :=
      ⟨rfl, rfl, rfl⟩
    -- the file was shorter, so the condition is the second one
    obtain ⟨hun, hoths'⟩ : ¬ s.Unpublished n ∧ (readyAfter ∨
        ∀ h' ∈ s.handles, (s.handle h').node = n → h' = h) := by
      rcases hspar hrdy rfl with ⟨size, hsize, hle⟩ | hall
      · have : (s.handle h).size = size := hi.size_eq hh hsize
        have : writeEnd ≤ size := hle
        omega
      · exact hall
    refine ⟨writeEnd, ?_, .inr hun⟩
    rw [hs₂]
    have hnode : (((s.setSize n writeEnd).setHandle h
        ({ · with offset := offset, size := writeEnd })).handle h).node = n := hgrn.node_eq h
    have hsize : (((s.setSize n writeEnd).setHandle h
        ({ · with offset := offset, size := writeEnd })).handle h).size = writeEnd := by
      simp [handle_setHandle]
    rw [hnode, hsize, max_self, Bool.true_and, setHandle_setHandle]
    split_ifs with haft
    · have hkps : (s.setSize n writeEnd).Keeps h
          ({ · with offset := writeEnd, size := writeEnd }) writeEnd := ⟨rfl, rfl, rfl⟩
      exact hkps.told rfl rfl rfl hrec' hoths
    · exact hgrn.resized hi rfl rfl rfl hrec' hoths (.inr (hoths'.resolve_left haft))

lemma fdTruncateLocked_resized (hi : s.Inv) (hh : h ∈ s.handles) (length : ℕ) (outcome : FsOutcome)
    (hspar : outcome = .succeeds → s.Recorded (s.handle h).node length ∨
      ¬ s.Unpublished (s.handle h).node) :
    ∃ size, Resized s (s.fdTruncateLocked h length outcome) (s.handle h).node size ∧
      (s.Recorded (s.handle h).node size ∨ ¬ s.Unpublished (s.handle h).node) := by
  have hagr := hi.agree h hh
  have hrefl : ∃ size, Resized s s (s.handle h).node size ∧
      (s.Recorded (s.handle h).node size ∨ ¬ s.Unpublished (s.handle h).node) := by
    have hid : s.Keeps h id (s.handle h).size := ⟨rfl, rfl, rfl⟩
    have := hid.resized hi rfl rfl rfl hagr (fun _ _ _ => Iff.rfl) (.inl hagr)
    refine ⟨_, ?_, .inl hagr⟩
    simpa [setHandle] using this
  unfold fdTruncateLocked
  extract_lets n
  split
  case h_1 recorded hfs =>
    have hsome : (s.fs n).isSome := by simp [hfs]
    have hkps : (s.setSize n length).Keeps h ({ · with size := length }) length := ⟨rfl, rfl, rfl⟩
    exact ⟨length, hkps.told rfl rfl rfl (by simp [hsome, n])
      (fun m k hm => by simp [hm, n]), hspar rfl⟩
  case h_2 => exact hrefl

/-- The truncation of `vfs_open`, of a node that no handle is open of or that is empty. -/
lemma setSize_resized (hi : s.Inv) (hsome : (s.fs n).isSome)
    (hspar : s.Recorded n size ∨ ∀ h ∈ s.handles, (s.handle h).node ≠ n) :
    Resized s (s.setSize n size) n size := by
  constructor
  case handles => rfl
  case phase => rfl
  case node => exact fun _ => rfl
  case references => exact fun _ => rfl
  case recorded => simp [hsome]
  case others => exact fun m k hm => by simp [hm]
  case size =>
    intro h hh
    show (s.handle h).size = _
    split_ifs with hn
    · rcases hspar with hrec | hnone
      · exact hi.size_eq hh (hn ▸ hrec)
      · exact absurd hn (hnone h hh)
    · rfl

/-! ### Steps -/

lemma Inv.setLock (h : s.Inv) (lock : Option ℕ) : Inv { s with lock := lock } :=
  { h with }

lemma Inv.setReferences (hi : s.Inv) {f : VfsHandle → VfsHandle} (hnode : (f (s.handle h)).node = (s.handle h).node)
    (hsize : (f (s.handle h)).size = (s.handle h).size)
    (href : ∀ t length, s.phase t = .fdTruncating h length ∨ s.phase t = .fdTruncated h →
      .truncation t ∈ (s.handle h).references → .truncation t ∈ (f (s.handle h)).references) :
    (s.setHandle h f).Inv := by
  have hkps : ∀ h', ((s.setHandle h f).handle h').node = (s.handle h').node ∧
      ((s.setHandle h f).handle h').size = (s.handle h').size := fun h' => by
    rw [handle_setHandle]
    split_ifs with hh
    · exact ⟨hh ▸ hnode, hh ▸ hsize⟩
    · exact ⟨rfl, rfl⟩
  constructor
  case agree =>
    intro h' hh
    rw [(hkps h').1, (hkps h').2]
    exact hi.agree h' hh
  case resolved => exact hi.resolved
  case truncated => exact hi.truncated
  case writing => exact hi.writing
  case fdTruncating =>
    intro t h' length ht
    obtain ⟨hmem, hr⟩ := hi.fdTruncating ht
    refine ⟨hmem, ?_⟩
    rw [handle_setHandle]
    split_ifs with hh
    · exact href t length (.inl (hh ▸ ht)) (hh ▸ hr)
    · exact hr
  case fdTruncated =>
    intro t h' ht
    obtain ⟨hmem, hr⟩ := hi.fdTruncated ht
    refine ⟨hmem, ?_⟩
    rw [handle_setHandle]
    split_ifs with hh
    · exact href t 0 (.inr (hh ▸ ht)) (hh ▸ hr)
    · exact hr

lemma Inv.erase (hi : s.Inv) (hwr : ∀ t length, s.phase t ≠ .writing h length)
    (hft : ∀ t, .truncation t ∉ (s.handle h).references) :
    Inv { s with handles := s.handles.erase h } := by
  constructor
  case agree => exact fun h' hh => hi.agree h' (Finset.mem_of_mem_erase hh)
  case resolved => exact hi.resolved
  case truncated => exact hi.truncated
  case writing =>
    intro t h' length ht
    exact Finset.mem_erase.mpr ⟨fun hh => hwr t length (hh ▸ ht), hi.writing ht⟩
  case fdTruncating =>
    intro t h' length ht
    obtain ⟨hmem, hr⟩ := hi.fdTruncating ht
    exact ⟨Finset.mem_erase.mpr ⟨fun hh => hft t (hh ▸ hr), hmem⟩, hr⟩
  case fdTruncated =>
    intro t h' ht
    obtain ⟨hmem, hr⟩ := hi.fdTruncated ht
    exact ⟨Finset.mem_erase.mpr ⟨fun hh => hft t (hh ▸ hr), hmem⟩, hr⟩

lemma Inv.closeReference (hi : s.Inv) {reference : Reference}
    (hnot : ∀ t length, reference = .truncation t → s.phase t ≠ .fdTruncating h length ∧
      s.phase t ≠ .fdTruncated h)
    (hwr : (s.handle h).references.erase reference = [] → ∀ t length, s.phase t ≠ .writing h length) :
    (s.closeReference h reference).Inv := by
  have hi' : (s.setHandle h fun handle =>
      { handle with references := handle.references.erase reference }).Inv := by
    refine hi.setReferences rfl rfl fun t length ht hr => ?_
    have hne : Reference.truncation t ≠ reference := by
      rintro rfl
      rcases ht with ht | ht
      · exact (hnot t length rfl).1 ht
      · exact (hnot t length rfl).2 ht
    exact (List.mem_erase_of_ne hne).mpr hr
  unfold HandleState.closeReference
  extract_lets s₁
  split_ifs with hemp
  · refine hi'.erase ?_ ?_
    · refine hwr ?_
      simpa [s₁, handle_setHandle] using hemp
    · intro t ht
      exact List.not_mem_nil (hemp ▸ ht)
  · exact hi'

lemma Inv.publish (hi : s.Inv) (hnew : h ∉ s.handles) (hrec : s.Recorded n size) :
    (s.publish h flags n size).Inv := by
  have hf : ∀ h' ∈ s.handles, (s.publish h flags n size).handle h' = s.handle h' := fun h' hh => by
    have : h' ≠ h := fun hhh => hnew (hhh ▸ hh)
    simp [HandleState.publish, this]
  constructor
  case agree =>
    intro h' hh
    rcases Finset.mem_insert.mp hh with rfl | hh
    · have hnew : ((s.publish h' flags n size).handle h').node = n ∧
          ((s.publish h' flags n size).handle h').size = size := by simp [HandleState.publish]
      rw [hnew.1, hnew.2]
      exact hrec
    · rw [hf h' hh]
      exact hi.agree h' hh
  case resolved => exact hi.resolved
  case truncated => exact hi.truncated
  case writing => exact fun ht => Finset.mem_insert_of_mem (hi.writing ht)
  case fdTruncating =>
    intro t h' length ht
    obtain ⟨hmem, hr⟩ := hi.fdTruncating ht
    exact ⟨Finset.mem_insert_of_mem hmem, by rwa [hf h' hmem]⟩
  case fdTruncated =>
    intro t h' ht
    obtain ⟨hmem, hr⟩ := hi.fdTruncated ht
    exact ⟨Finset.mem_insert_of_mem hmem, by rwa [hf h' hmem]⟩

lemma Inv.updateOpenSizes (hi : s.Inv) (hrec : s.Recorded n size) : (s.updateOpenSizes n size).Inv :=
  (Resized.updateOpenSizes hrec rfl rfl (fun _ => rfl) (fun _ => rfl) (fun _ _ _ => Iff.rfl)
    fun _ _ _ => rfl).inv hi (.inl hrec)

lemma Inv.create (hi : s.Inv) (hn : s.fs n = none) :
    Inv { s with fs := update s.fs n (some ⟨.file, 0⟩) } := by
  have hrec : ∀ {m k}, s.Recorded m k →
      Recorded { s with fs := update s.fs n (some ⟨.file, 0⟩) } m k := by
    intro m k hm
    have hmn : m ≠ n := by
      rintro rfl
      simp [Recorded, hn] at hm
    simpa [Recorded, hmn] using hm
  exact { hi with
    agree := fun h hh => hrec (hi.agree h hh), resolved := fun ht hf => hrec (hi.resolved ht hf),
    truncated := fun ht => hrec (hi.truncated ht) }

lemma erase_eq_nil {l : List Reference} {reference : Reference} (hmem : reference ∈ l)
    (h : l.erase reference = []) : l = [reference] := by
  have hlen := List.length_erase_of_mem hmem
  have hpos := List.length_pos_of_mem hmem
  rw [h, List.length_nil] at hlen
  obtain ⟨a, rfl⟩ := List.length_eq_one_iff.mp (by omega : l.length = 1)
  rw [List.mem_singleton.mp hmem]

/-- **A step that meets the condition keeps the sizes together.** -/
theorem Inv.step {e : HandleEvent} (hi : s.Inv) (hg : s.Spares e) (hs : s.step e = some s') : s'.Inv := by
  cases e <;> simp only [HandleState.step] at hs
  case open_ t flags =>
    split_ifs at hs
    cases hs
    exact hi.setPhase_inert (.inr (.inl ⟨_, rfl⟩))
  case acquire t =>
    split_ifs at hs
    cases hs
    exact hi.setLock _
  case lookup t result =>
    split at hs
    case h_2 => cases hs
    case h_1 flags hp =>
      split at hs
      · cases hs
      split at hs
      · cases hs
        exact hi.unlock
      · obtain ⟨found, hfs, rfl⟩ := Option.map_eq_some_iff.mp hs
        refine hi.unlock.setPhase ?_ (by simp) (by simp) (by simp)
        intro flags n size hp _
        injection hp with _ hn hsz
        subst hn hsz
        show (s.fs _).map _ = _
        rw [hfs]
        rfl
      · cases hs
        refine hi.unlock.setPhase_inert ?_
        by_cases hc : flags.create = true
        · exact .inr (.inr (.inl ⟨flags, by rw [if_pos hc]⟩))
        · exact .inl (if_neg hc)
      · cases hs
        exact hi.unlock.setPhase_inert (.inl rfl)
  case startsAt t node =>
    split at hs
    case h_2 => cases hs
    case h_1 flags size hp hfs =>
      split at hs
      · cases hs
      cases hs
      refine hi.setPhase ?_ (by simp) (by simp) (by simp)
      intro flags n size hp _
      injection hp with _ hn hsz
      subst hn hsz
      show (s.fs _).map _ = _
      rw [hfs]
      rfl
  case create t node outcome ready =>
    split at hs
    case h_2 => cases hs
    case h_1 flags hp =>
      split at hs
      · cases hs
      split at hs
      case h_2 =>
        cases hs
        exact hi.unlock.setPhase_inert (.inl rfl)
      case h_3 => cases hs
      case h_1 hfs =>
        cases hs
        have hnew : Inv { s.unlock with fs := update s.fs node (some ⟨.file, 0⟩) } :=
          hi.unlock.create hfs
        split_ifs
        · refine hnew.setPhase ?_ (by simp) (by simp) (by simp)
          intro flags n size hp _
          injection hp with _ hn hsz
          subst hn hsz
          simp [Recorded]
        · exact hnew.setPhase_inert (.inl rfl)
  case openFails t =>
    split at hs
    case h_1 =>
      cases hs
      exact hi.setPhase_inert (.inl rfl)
    case h_2 flags n hp =>
      cases hs
      exact (hi.updateOpenSizes (hi.truncated hp)).setPhase_inert (.inl rfl)
    case h_3 => cases hs
  case openTruncate t =>
    split at hs
    case h_2 => cases hs
    case h_1 flags n size hp =>
      split at hs
      · cases hs
        exact hi.setPhase_inert (.inr (.inr (.inr ⟨_, _, rfl⟩)))
      · cases hs
  case truncate t outcome ready =>
    split at hs
    case h_2 => cases hs
    case h_1 flags n hp =>
      split at hs
      · cases hs
      split at hs
      case h_2 =>
        cases hs
        exact hi.unlock.setPhase_inert (.inl rfl)
      case h_1 recorded hfs =>
        cases hs
        have hcond := hg flags n hp
        have hsome : (s.fs n).isSome := by simp [hfs]
        have hr : Resized s.unlock (s.unlock.setSize n 0) n 0 :=
          setSize_resized hi.unlock hsome (hcond.imp id (·.2))
        have hnew : (s.unlock.setSize n 0).Inv := hr.inv hi.unlock (hcond.imp id (·.1))
        split_ifs
        · refine hnew.setPhase (by simp) ?_ (by simp) (by simp)
          intro flags m hp
          injection hp with _ hm
          exact hm ▸ hr.recorded
        · exact hnew.setPhase_inert (.inl rfl)
  case publish t h =>
    split at hs
    · cases hs
    rename_i hnew
    split at hs
    case h_1 flags n size hp =>
      split at hs
      · cases hs
      rename_i htr
      cases hs
      have hrec : s.Recorded n size := hi.resolved hp (by simpa using htr)
      exact Inv.publish (hi.setPhase_inert (.inl rfl)) hnew hrec
    case h_2 flags n hp =>
      cases hs
      have hrec : s.Recorded n 0 := hi.truncated hp
      exact Inv.publish (Inv.updateOpenSizes (hi.setPhase_inert (.inl rfl)) hrec) hnew hrec
    case h_3 => cases hs
  case write t h length =>
    split_ifs at hs with hc
    cases hs
    refine hi.setPhase (by simp) (by simp) ?_ (by simp)
    rintro h' length' heq
    injection heq with hh
    exact hh ▸ hc.2.1
  case fsWrite t readyBefore outcome readyAfter =>
    split at hs
    case h_2 => cases hs
    case h_1 h length hp =>
      split_ifs at hs
      cases hs
      obtain ⟨size, hr, hun⟩ := writeLocked_resized hi (hi.writing hp) length readyBefore outcome
        readyAfter (by rintro rfl rfl; exact hg h length hp)
      exact (hr.inv hi hun).unlock.setPhase_inert (.inl rfl)
  case fdTruncate t h length =>
    split_ifs at hs with hc
    cases hs
    have href : (s.setHandle h fun handle =>
        { handle with references := .truncation t :: handle.references }).Inv :=
      hi.setReferences rfl rfl fun _ _ _ hr => List.mem_cons_of_mem _ hr
    refine href.setPhase (by simp) (by simp) (by simp) ?_
    rintro h' (heq | ⟨length', heq⟩)
    · cases heq
    · injection heq with hh
      subst hh
      refine ⟨hc.2.1, ?_⟩
      rw [handle_setHandle, if_pos rfl]
      exact List.mem_cons_self ..
  case fsTruncate t outcome =>
    split at hs
    case h_2 => cases hs
    case h_1 h length hp =>
      split_ifs at hs
      cases hs
      obtain ⟨hmem, href⟩ := hi.fdTruncating hp
      obtain ⟨size, hr, hun⟩ := fdTruncateLocked_resized hi hmem length outcome
        (by rintro rfl; exact hg h length hp)
      refine (hr.inv hi hun).unlock.setPhase (by simp) (by simp) (by simp) ?_
      rintro h' (heq | ⟨length', heq⟩)
      · injection heq with hh
        subst hh
        refine ⟨hr.handles.symm ▸ hmem, ?_⟩
        show _ ∈ ((s.fdTruncateLocked h length outcome).handle h).references
        rwa [hr.references]
      · cases heq
  case fdTruncateEnds t =>
    split at hs
    case h_2 => cases hs
    case h_1 h hp =>
      cases hs
      obtain ⟨hmem, href⟩ := hi.fdTruncated hp
      have hidle : (s.setPhase t .idle).Inv := hi.setPhase_inert (.inl rfl)
      have hcomm : (s.closeReference h (.truncation t)).setPhase t .idle =
          (s.setPhase t .idle).closeReference h (.truncation t) := by
        unfold HandleState.closeReference
        exact apply_ite (fun s => HandleState.setPhase s t .idle) ..
      rw [hcomm]
      refine hidle.closeReference (fun t' length heq => ?_) fun hemp t' length ht => ?_
      · injection heq with heq
        simp [HandleState.setPhase, heq]
      · have htt : t' ≠ t := by
          rintro rfl
          simp [HandleState.setPhase] at ht
        refine hg h hp (erase_eq_nil href hemp) t' length ?_
        simpa [HandleState.setPhase, htt] using ht
  case retain h =>
    split_ifs at hs
    cases hs
    exact hi.setReferences rfl rfl fun _ _ _ hr => List.mem_cons_of_mem _ hr
  case close h =>
    split_ifs at hs with hc
    cases hs
    exact hi.closeReference (by simp) fun hemp => hg (erase_eq_nil hc.2 hemp)

lemma Init.inv (h : s.Init) : s.Inv where
  agree h' hh := by simp [h.handles] at hh
  resolved ht := by simp [h.phase] at ht
  truncated ht := by simp [h.phase] at ht
  writing ht := by simp [h.phase] at ht
  fdTruncating ht := by simp [h.phase] at ht
  fdTruncated ht := by simp [h.phase] at ht

end HandleState

/-- **All handles of a node have its recorded size** whenever the lock is free, in every run whose steps
meet the condition. -/
theorem agree_of_spares {s : HandleState} (h : handleSystem.Guarded HandleState.Spares s) : s.Agree := by
  have hi : s.Inv := by
    apply h.invariant
    · exact fun _ hinit => hinit.inv
    · exact fun s e s' hi hg hs => hi.step hg hs
  exact fun _ => hi.agree

instance (s : HandleState) (n : VfsNodeId) (size : ℕ) : Decidable (s.Recorded n size) :=
  inferInstanceAs (Decidable (_ = _))

def oneFile : HandleState :=
  ⟨update (fun _ => none) (.ofWords 2 0 0 0) (some ⟨.file, 0⟩), ∅,
    fun _ => ⟨.ofWords 2 0 0 0, 0, 0, ⟨false, false, false, false, false, false, false⟩, []⟩, fun _ => .idle, none⟩

lemma oneFile_init : handleSystem.init oneFile := ⟨rfl, fun _ => rfl, rfl⟩

/-- The task `t` opens the file for reading and writing, as far as its last `unlock`. -/
def looksUp (t : ℕ) : List HandleEvent :=
  [.open_ t ⟨true, true, false, false, false, false, false⟩, .acquire t, .lookup t (.found (.ofWords 2 0 0 0))]

/-- The task `t` writes five bytes to the handle `h`. -/
def writes (t h : ℕ) : List HandleEvent := [.write t h 5, .acquire t, .fsWrite t true .succeeds true]

/-- Two tasks open the file, and then the first one writes. -/
theorem agree_openedBefore : (handleSystem.replay oneFile
    (looksUp 1 ++ [.publish 1 1] ++ looksUp 2 ++ [.publish 2 2] ++ writes 1 1)).Agree := by
  set before := looksUp 1 ++ [.publish 1 1] ++ looksUp 2 ++ [.publish 2 2] ++ (writes 1 1).take 2 with hb
  have hquiet : handleSystem.Guarded HandleState.Spares (handleSystem.replay oneFile before) := by
    refine System.replay_guarded (.init oneFile_init) fun s e he => ?_
    simp only [hb, looksUp, writes, List.take_succ_cons, List.take_zero, List.cons_append, List.nil_append,
      List.mem_cons, List.not_mem_nil, or_false] at he
    rcases he with rfl | rfl | rfl | rfl | rfl | rfl | rfl | rfl | rfl | rfl <;> trivial
  -- every task that has been at work is idle again, but for the writer
  have hphase : ∀ t, (handleSystem.replay oneFile before).phase t = .writing 1 5 ∨
      (handleSystem.replay oneFile before).phase t = .idle := by
    intro t
    by_cases h₁ : t = 1
    · subst h₁
      exact .inl rfl
    have hfold : (handleSystem.replay oneFile before).phase = update (update
        (update (update (update (update (update
          (fun _ => .idle) 1 _) 1 _) 1 _) 2 _) 2 _) 2 _) 1 _ := rfl
    simp [hfold, h₁]
  have hspares : (handleSystem.replay oneFile before).Spares (.fsWrite 1 true .succeeds true) := by
    rintro h length hp
    refine .inr ⟨?_, .inl rfl⟩
    rintro ⟨t, flags, ⟨size, ht, -⟩ | ht⟩ <;> rcases hphase t with hw | hw <;>
      exact absurd (ht.symm.trans hw) (by simp)
  exact agree_of_spares (.step hquiet hspares rfl)

/-- The second task has looked the file up before the first one writes, and opens it with the old size. -/
theorem openedDuring_stale : ∃ s, handleSystem.Reachable s ∧ ¬ s.Agree ∧ s.lock = none ∧
    (s.handle 1).node = (s.handle 2).node ∧ (s.handle 1).size = 5 ∧ (s.handle 2).size = 0 := by
  refine ⟨handleSystem.replay oneFile (looksUp 1 ++ [.publish 1 1] ++ looksUp 2 ++ writes 1 1 ++ [.publish 2 2]),
    System.replay_reachable (.init oneFile_init) _, fun h => ?_, by decide, by decide, by decide, by decide⟩
  exact absurd (h (by decide) 2 (by decide)) (by decide)

end PlantOS.Vfs
