import Mathlib.Data.Finset.Card
import PlantOS.Lib.Run
import PlantOS.Vfs.Defs

/-!
# Mount instances

The mount table of `vfs.c` and the life of a `struct vfs_mount`. One step is one stretch of code
between two points at which another task can run: the reservation of a slot, the end of
`filesystem->mount`, the destruction of an instance, both ends of a format. A call that is refused
leaves the state as it is and is no step.
-/

namespace PlantOS.Vfs

/-- `enum vfs_mount_state` -/
inductive MountState
  | initializing | active | retired
  deriving DecidableEq, Repr

/-- `struct vfs_mount` -/
structure VfsMount where
  diskNumber : ℕ
  drive : ℕ
  state : MountState
  references : ℕ
  retiredRegistered : Bool
  deriving DecidableEq, Repr

/-- `struct vfs_disk_state` -/
structure VfsDiskState where
  retiredCount : ℕ
  formatting : Bool
  deriving DecidableEq, Repr

def vfsMaxMounts : ℕ := 26

/-- `vfs_mounts` and `vfs_disks`, with all instances that are not freed. -/
structure MountTable where
  instances : Finset MountId
  mount : MountId → VfsMount
  slot : ℕ → Option MountId
  disk : ℕ → VfsDiskState
  /-- the mounts of the open handles, the working directories and the path walks under way -/
  handles : List MountId

/-- `vfs_normalize_drive` -/
def normalizeDrive (drive : ℕ) : Option ℕ :=
  let drive := if 97 ≤ drive ∧ drive ≤ 122 then drive - 32 else drive
  if drive < 65 ∨ 90 < drive then none else some drive

namespace MountTable

variable (s : MountTable)

def setMount (i : MountId) (f : VfsMount → VfsMount) : MountTable :=
  { s with mount := Function.update s.mount i (f (s.mount i)) }

def setDisk (d : ℕ) (f : VfsDiskState → VfsDiskState) : MountTable :=
  { s with disk := Function.update s.disk d (f (s.disk d)) }

def setSlot (k : ℕ) (o : Option MountId) : MountTable :=
  { s with slot := Function.update s.slot k o }

/-- The slots with an instance that meets `p`, in the order of the loops over `vfs_mounts`. -/
def slotsWith (p : VfsMount → Bool) : List (ℕ × MountId) :=
  (List.range vfsMaxMounts).filterMap fun k =>
    (s.slot k).bind fun i => if p (s.mount i) then some (k, i) else none

/-- `vfs_find_mount_slot` -/
def findMountSlot : Option ℕ := (List.range vfsMaxMounts).find? fun k => s.slot k = none

/-- `vfs_find_active_mount`, with its slot -/
def findActiveMount (drive : ℕ) : Option (ℕ × MountId) :=
  (s.slotsWith fun m => m.state = .active ∧ m.drive = drive).head?

/-- `vfs_mount_disk` as far as the reservation of a slot, for the new instance `i` -/
def mountReserve (i : MountId) (disk drive : ℕ) : Option MountTable :=
  if (s.disk disk).formatting then none
  else if s.slotsWith (fun m => m.diskNumber = disk ∨ m.drive = drive) ≠ [] then none
  else
    s.findMountSlot.map fun k =>
      { s with
        instances := insert i s.instances
        mount := Function.update s.mount i ⟨disk, drive, .initializing, 0, false⟩
        slot := Function.update s.slot k (some i) }

/-- The instance `i` leaves the slot `k` and is counted for its disk until it is destroyed. -/
def retire (k : ℕ) (i : MountId) : MountTable :=
  ((s.setSlot k none).setMount i ({ · with state := .retired, retiredRegistered := true })).setDisk
    (s.mount i).diskNumber fun d => { d with retiredCount := d.retiredCount + 1 }

/-- `vfs_unmount_disk` as far as the retirement of the instance -/
def unmountDisk (drive : ℕ) : MountTable :=
  match s.findActiveMount drive with
  | none => s
  | some (k, i) => s.retire k i

/-- `vfs_disk_removed` -/
def diskRemoved (disk : ℕ) : MountTable :=
  (List.range vfsMaxMounts).foldl
    (fun s k => match s.slot k with
      | none => s
      | some i =>
        if (s.mount i).diskNumber = disk ∧ (s.mount i).state = .active then
          s.unmountDisk (s.mount i).drive
        else s) s

/-- The end of `vfs_destroy_mount` -/
def destroyMount (i : MountId) : MountTable :=
  let s' := { s with instances := s.instances.erase i }
  if (s.mount i).retiredRegistered then
    s'.setDisk (s.mount i).diskNumber fun d => { d with retiredCount := d.retiredCount - 1 }
  else s'

/-- `vfs_format` as far as the reservation of the disk -/
def formatBegin (disk : ℕ) : Option MountTable :=
  if (s.disk disk).formatting ∨ (s.disk disk).retiredCount ≠ 0 then none
  else
    match s.slotsWith fun m => m.diskNumber = disk with
    | [] => some (s.setDisk disk ({ · with formatting := true }))
    | [(k, i)] =>
      if (s.mount i).state ≠ .active ∨ (s.mount i).references ≠ 0 then none
      else
        some (((s.setSlot k none).setMount i ({ · with state := .retired })).setDisk disk
          ({ · with formatting := true }))
    | _ => none

/-- A dentry of the mount `i` is retained. -/
def retain (i : MountId) : MountTable :=
  { s.setMount i (fun m => { m with references := m.references + 1 }) with handles := i :: s.handles }

/-- A dentry of the mount `i` is released. -/
def release (i : MountId) : MountTable :=
  { s.setMount i (fun m => { m with references := m.references - 1 }) with
    handles := s.handles.erase i }

def InSlot (i : MountId) : Prop := ∃ k < vfsMaxMounts, s.slot k = some i

instance (i : MountId) : Decidable (s.InSlot i) := by unfold InSlot; infer_instance

end MountTable

inductive MountEvent
  /-- `vfs_mount_disk` reserves a slot -/
  | mountReserve (i : MountId) (disk drive : ℕ)
  /-- `filesystem->mount` and `filesystem->root` succeed -/
  | mountReady (i : MountId)
  /-- one of them fails: the instance leaves the table, and `filesystem->unmount` begins -/
  | mountFails (i : MountId)
  | mountFreed (i : MountId)
  | unmountDisk (drive : ℕ)
  | diskRemoved (disk : ℕ)
  /-- the end of `vfs_destroy_mount` -/
  | destroyed (i : MountId)
  | formatBegin (disk : ℕ)
  | formatEnd (disk : ℕ)
  /-- an open, a chdir or a new context that starts from the root of a drive -/
  | openDrive (drive : ℕ)
  /-- an open, a chdir, a fork or a step of a path walk that starts from a dentry in use -/
  | openFrom (i : MountId)
  /-- the release of a dentry: a close, a chdir away, the end of a context or of a path walk -/
  | close (i : MountId)
  deriving DecidableEq, Repr

namespace MountTable

def step (s : MountTable) : MountEvent → Option MountTable
  | .mountReserve i disk drive => do
    let disk ← normalizeDrive disk
    let drive ← normalizeDrive drive
    if i ∈ s.instances then none else s.mountReserve i disk drive
  | .mountReady i =>
    if i ∈ s.instances ∧ (s.mount i).state = .initializing ∧ s.InSlot i then
      some (s.setMount i ({ · with state := .active }))
    else none
  | .mountFails i =>
    if (s.mount i).state = .initializing then
      (s.slotsWith fun m => m.state = .initializing).find? (·.2 = i) |>.map fun (k, _) => s.setSlot k none
    else none
  | .mountFreed i =>
    if i ∈ s.instances ∧ (s.mount i).state = .initializing ∧ ¬ s.InSlot i then
      some { s with instances := s.instances.erase i }
    else none
  | .unmountDisk drive => (normalizeDrive drive).map s.unmountDisk
  | .diskRemoved disk => some (s.diskRemoved disk)
  | .destroyed i =>
    if i ∈ s.instances ∧ (s.mount i).state = .retired ∧ (s.mount i).references = 0 then
      some (s.destroyMount i)
    else none
  | .formatBegin disk => (normalizeDrive disk).bind s.formatBegin
  | .formatEnd disk =>
    if (s.disk disk).formatting then some (s.setDisk disk ({ · with formatting := false })) else none
  | .openDrive drive => (s.findActiveMount drive).map fun (_, i) => s.retain i
  | .openFrom i => if i ∈ s.handles then some (s.retain i) else none
  | .close i => if i ∈ s.handles then some (s.release i) else none

def initial : MountTable := ⟨∅, fun _ => ⟨0, 0, .initializing, 0, false⟩, fun _ => none, fun _ => ⟨0, false⟩, []⟩

end MountTable

def mountSystem : Lib.System MountTable MountEvent := ⟨(· = MountTable.initial), MountTable.step⟩

/-! ## One live mount instance a disk -/

open Lib (System)
open Finset (mem_erase mem_insert mem_insert_of_mem mem_of_mem_erase)
open Function (update update_apply update_of_ne update_self)

/-- Not yet destroyed: INITIALIZING, ACTIVE, or RETIRED with references left. -/
def VfsMount.Live (m : VfsMount) : Prop := m.state ≠ .retired ∨ m.references ≠ 0

instance (m : VfsMount) : Decidable m.Live := by unfold VfsMount.Live; infer_instance

structure VfsMount.WellFormed (m : VfsMount) : Prop where
  initializing : m.state = .initializing → m.references = 0
  registered : m.retiredRegistered → m.state = .retired
  unregistered : m.state = .retired → m.retiredRegistered = false → m.references = 0

namespace MountTable

variable {s s' : MountTable} {i j : MountId} {k d drive : ℕ}

/-- **At most one live instance a disk**, none of a disk that is being formatted, and every handle is
one of a live instance. -/
structure Exclusive (s : MountTable) : Prop where
  unique : ∀ i ∈ s.instances, ∀ j ∈ s.instances, (s.mount i).Live → (s.mount j).Live →
    (s.mount i).diskNumber = (s.mount j).diskNumber → i = j
  formatting : ∀ i ∈ s.instances, (s.mount i).Live → (s.disk (s.mount i).diskNumber).formatting = false
  handles : ∀ i ∈ s.handles, i ∈ s.instances ∧ (s.mount i).Live

/-- The condition on a step: a mount finds no live instance of its disk outside the table, and a format
no instance whose mount has failed and whose `filesystem->unmount` is still under way. -/
def Spares (s : MountTable) : MountEvent → Prop
  | .mountReserve _ disk _ => ∀ d, normalizeDrive disk = some d → ∀ j ∈ s.instances,
      (s.mount j).Live → (s.mount j).diskNumber = d → s.InSlot j
  | .formatBegin disk => ∀ d, normalizeDrive disk = some d → ∀ j ∈ s.instances,
      (s.mount j).state = .initializing → (s.mount j).diskNumber = d → s.InSlot j
  | _ => True

structure Table (s : MountTable) : Prop where
  slot_lt : ∀ {k i}, s.slot k = some i → k < vfsMaxMounts
  slot_mem : ∀ {k i}, s.slot k = some i → i ∈ s.instances
  slot_state : ∀ {k i}, s.slot k = some i → (s.mount i).state ≠ .retired
  slot_inj : ∀ {k k' i}, s.slot k = some i → s.slot k' = some i → k = k'
  active : ∀ {i}, i ∈ s.instances → (s.mount i).state = .active → s.InSlot i
  wellFormed : ∀ {i}, i ∈ s.instances → (s.mount i).WellFormed
  references : ∀ {i}, i ∈ s.instances → (s.mount i).references = s.handles.count i
  handles : ∀ {i}, i ∈ s.handles → i ∈ s.instances

/-- The registered instances of the disk `d`. -/
def registered (s : MountTable) (d : ℕ) : Finset MountId :=
  s.instances.filter fun i => (s.mount i).retiredRegistered ∧ (s.mount i).diskNumber = d

structure Inv (s : MountTable) : Prop where
  table : s.Table
  retiredCount : ∀ d, (s.disk d).retiredCount = (s.registered d).card

/-! ### The loops over the table -/

lemma mem_slotsWith {p : VfsMount → Bool} :
    (k, i) ∈ s.slotsWith p ↔ k < vfsMaxMounts ∧ s.slot k = some i ∧ p (s.mount i) := by
  simp only [slotsWith, List.mem_filterMap, List.mem_range, Option.bind_eq_some_iff,
    Option.ite_none_right_eq_some, Option.some.injEq, Prod.mk.injEq]
  constructor
  · rintro ⟨_, hk, _, hslot, hp, rfl, rfl⟩
    exact ⟨hk, hslot, hp⟩
  · rintro ⟨hk, hslot, hp⟩
    exact ⟨k, hk, i, hslot, hp, rfl, rfl⟩

lemma slotsWith_eq_nil {p : VfsMount → Bool} (h : s.slotsWith p = []) (hk : k < vfsMaxMounts)
    (hs : s.slot k = some i) : p (s.mount i) = false := by
  by_contra hp
  exact List.not_mem_nil (h ▸ mem_slotsWith.mpr ⟨hk, hs, Bool.eq_true_of_not_eq_false hp⟩)

lemma findMountSlot_some (h : s.findMountSlot = some k) : k < vfsMaxMounts ∧ s.slot k = none := by
  have hk := List.mem_of_find?_eq_some h
  have hs := List.find?_some h
  exact ⟨List.mem_range.mp hk, of_decide_eq_true hs⟩

lemma findActiveMount_some (h : s.findActiveMount drive = some (k, i)) :
    k < vfsMaxMounts ∧ s.slot k = some i ∧ (s.mount i).state = .active := by
  obtain ⟨hk, hs, hp⟩ := mem_slotsWith.mp (List.mem_of_mem_head? h)
  simp only [Bool.decide_and, Bool.and_eq_true, decide_eq_true_eq] at hp
  exact ⟨hk, hs, hp.1⟩

lemma unmountDisk_cases (s : MountTable) (drive : ℕ) : s.unmountDisk drive = s ∨
    ∃ k i, s.slot k = some i ∧ (s.mount i).state = .active ∧ s.unmountDisk drive = s.retire k i := by
  unfold unmountDisk
  cases h : s.findActiveMount drive with
  | none => exact .inl rfl
  | some ki =>
    obtain ⟨k, i⟩ := ki
    obtain ⟨-, hs, ha⟩ := findActiveMount_some h
    exact .inr ⟨k, i, hs, ha, rfl⟩

lemma formatBegin_cases (h : s.formatBegin d = some s') :
    (s.disk d).formatting = false ∧ (s.disk d).retiredCount = 0 ∧
    ((s' = s.setDisk d ({ · with formatting := true }) ∧
        ∀ k < vfsMaxMounts, ∀ i, s.slot k = some i → (s.mount i).diskNumber ≠ d) ∨
      ∃ k i, s.slot k = some i ∧ (s.mount i).state = .active ∧ (s.mount i).references = 0 ∧
        (∀ k' < vfsMaxMounts, ∀ j, s.slot k' = some j → (s.mount j).diskNumber = d → j = i) ∧
        s' = ((s.setSlot k none).setMount i ({ · with state := .retired })).setDisk d
          ({ · with formatting := true })) := by
  unfold formatBegin at h
  split_ifs at h with hb
  simp only [not_or, Bool.not_eq_true, not_not] at hb
  refine ⟨hb.1, hb.2, ?_⟩
  split at h
  case h_1 hnil =>
    refine .inl ⟨(Option.some.inj h).symm, fun k hk i hs hd => ?_⟩
    have := slotsWith_eq_nil hnil hk hs
    simp [hd] at this
  case h_2 k i hone =>
    split_ifs at h with hu
    simp only [ne_eq, not_or, not_not] at hu
    have hmem : (k, i) ∈ s.slotsWith fun m => m.diskNumber = d := by simp [hone]
    refine .inr ⟨k, i, (mem_slotsWith.mp hmem).2.1, hu.1, hu.2, fun k' hk' j hs hd => ?_,
      (Option.some.inj h).symm⟩
    have hj : (k', j) ∈ s.slotsWith fun m => m.diskNumber = d :=
      mem_slotsWith.mpr ⟨hk', hs, by simpa using hd⟩
    rw [hone] at hj
    simpa using (congrArg Prod.snd (List.mem_singleton.mp hj))
  case h_3 => cases h

/-! ### The table -/

lemma initial_inv : initial.Inv := by
  refine ⟨?_, fun d => rfl⟩
  constructor <;> simp [initial]

lemma Table.setDisk (h : s.Table) (d : ℕ) (f : VfsDiskState → VfsDiskState) : (s.setDisk d f).Table :=
  { h with }

lemma Table.inSlot_setSlot (h : s.Table) (hi : s.slot k = some i) :
    (s.setSlot k none).InSlot j ↔ s.InSlot j ∧ j ≠ i := by
  constructor
  · rintro ⟨k', hlt, hk'⟩
    by_cases hk : k' = k
    · simp [setSlot, hk] at hk'
    · simp only [setSlot, update_of_ne hk] at hk'
      exact ⟨⟨k', hlt, hk'⟩, fun hj => hk (h.slot_inj (hj ▸ hk') hi)⟩
  · rintro ⟨⟨k', hlt, hk'⟩, hj⟩
    have : k' ≠ k := fun hk => hj (Option.some.inj ((hk ▸ hk').symm.trans hi))
    exact ⟨k', hlt, by simpa [setSlot, this] using hk'⟩

lemma mount_setMount (f : VfsMount → VfsMount) :
    (s.setMount i f).mount j = if j = i then f (s.mount i) else s.mount j := by
  simp [setMount, update_apply]

lemma mount_leave (f : VfsMount → VfsMount) (g : VfsDiskState → VfsDiskState) :
    (((s.setSlot k none).setMount i f).setDisk d g).mount j = if j = i then f (s.mount i) else s.mount j := by
  simp [setMount, setSlot, setDisk, update_apply]

lemma Table.reserve (h : s.Table) {disk : ℕ} (hi : i ∉ s.instances)
    (hs : s.mountReserve i disk drive = some s') : s'.Table := by
  unfold mountReserve at hs
  split_ifs at hs with hf hc
  obtain ⟨k, hk, rfl⟩ := Option.map_eq_some_iff.mp hs
  obtain ⟨hlt, hfree⟩ := findMountSlot_some hk
  have hold : ∀ j ∈ s.instances, j ≠ i := fun j hj hij => hi (hij ▸ hj)
  have hslot : ∀ {k' j}, update s.slot k (some i) k' = some j →
      (k' = k ∧ j = i) ∨ (k' ≠ k ∧ j ≠ i ∧ s.slot k' = some j) := by
    intro k' j hs
    by_cases hk' : k' = k
    · subst hk'
      rw [update_self, Option.some.injEq] at hs
      exact .inl ⟨rfl, hs.symm⟩
    · rw [update_of_ne hk'] at hs
      exact .inr ⟨hk', hold j (h.slot_mem hs), hs⟩
  constructor <;> dsimp only
  case slot_lt =>
    intro k' j hs
    rcases hslot hs with ⟨rfl, -⟩ | ⟨-, -, hs⟩
    · exact hlt
    · exact h.slot_lt hs
  case slot_mem =>
    intro k' j hs
    rcases hslot hs with ⟨-, rfl⟩ | ⟨-, -, hs⟩
    · exact Finset.mem_insert_self ..
    · exact mem_insert_of_mem (h.slot_mem hs)
  case slot_state =>
    intro k' j hs
    rcases hslot hs with ⟨-, rfl⟩ | ⟨-, hj, hs⟩
    · simp
    · simpa [update_of_ne hj] using h.slot_state hs
  case slot_inj =>
    intro k₁ k₂ j h₁ h₂
    rcases hslot h₁ with ⟨rfl, rfl⟩ | ⟨-, hj, h₁⟩ <;> rcases hslot h₂ with ⟨rfl, hj₂⟩ | ⟨-, hj₂, h₂⟩
    · rfl
    · exact absurd rfl hj₂
    · exact absurd hj₂ hj
    · exact h.slot_inj h₁ h₂
  case active =>
    intro j hj ha
    rcases mem_insert.mp hj with rfl | hj
    · simp at ha
    · rw [update_of_ne (hold j hj)] at ha
      obtain ⟨k', hk', hs'⟩ := h.active hj ha
      have : k' ≠ k := fun hkk => by simp [hkk ▸ hs'] at hfree
      exact ⟨k', hk', (update_of_ne this ..).trans hs'⟩
  case wellFormed =>
    intro j hj
    rcases mem_insert.mp hj with rfl | hj
    · rw [update_self]
      exact ⟨fun _ => rfl, by simp, by simp⟩
    · rw [update_of_ne (hold j hj)]
      exact h.wellFormed hj
  case references =>
    intro j hj
    rcases mem_insert.mp hj with rfl | hj
    · have : j ∉ s.handles := fun hh => hi (h.handles hh)
      simp [List.count_eq_zero_of_not_mem this]
    · rw [update_of_ne (hold j hj)]
      exact h.references hj
  case handles => exact fun hj => mem_insert_of_mem (h.handles hj)

lemma Table.change (h : s.Table) {f : VfsMount → VfsMount} {l : List MountId}
    (hi : i ∈ s.instances) (hwf : (f (s.mount i)).WellFormed)
    (hact : (f (s.mount i)).state = .active → s.InSlot i)
    (hslot : (f (s.mount i)).state = .retired → ∀ k, s.slot k ≠ some i)
    (href : (f (s.mount i)).references = l.count i)
    (hl : ∀ j, j ≠ i → l.count j = s.handles.count j) :
    Table { s.setMount i f with handles := l } := by
  constructor
  case slot_lt => exact h.slot_lt
  case slot_mem => exact h.slot_mem
  case slot_inj => exact h.slot_inj
  case slot_state =>
    intro k j hs
    rw [show _ = _ from mount_setMount f]
    split_ifs with hj
    · exact fun hr => hslot hr k (hj ▸ hs)
    · exact h.slot_state hs
  case active =>
    intro j hj ha
    rw [show _ = _ from mount_setMount f] at ha
    split_ifs at ha with hji
    · exact hji ▸ hact ha
    · exact h.active hj ha
  case wellFormed =>
    intro j hj
    rw [show _ = _ from mount_setMount f]
    split_ifs
    · exact hwf
    · exact h.wellFormed hj
  case references =>
    intro j hj
    rw [show _ = _ from mount_setMount f]
    split_ifs with hji
    · exact hji ▸ href
    · exact (h.references hj).trans (hl j hji).symm
  case handles =>
    intro j hj
    by_cases hji : j = i
    · exact hji ▸ hi
    · exact h.handles (List.count_pos_iff.mp (hl j hji ▸ List.count_pos_iff.mpr hj))

lemma Table.leave (h : s.Table) {f : VfsMount → VfsMount} (hi : s.slot k = some i)
    (hwf : (f (s.mount i)).WellFormed) (hact : (f (s.mount i)).state ≠ .active)
    (href : (f (s.mount i)).references = (s.mount i).references) :
    ((s.setSlot k none).setMount i f).Table := by
  have hold : ∀ {k' j}, (s.setSlot k none).slot k' = some j → s.slot k' = some j ∧ j ≠ i := by
    intro k' j hs
    by_cases hk : k' = k
    · simp [setSlot, hk] at hs
    · simp only [setSlot, update_of_ne hk] at hs
      exact ⟨hs, fun hji => hk (h.slot_inj (hji ▸ hs) hi)⟩
  constructor
  case slot_lt => exact fun hs => h.slot_lt (hold hs).1
  case slot_mem => exact fun hs => h.slot_mem (hold hs).1
  case slot_inj => exact fun h₁ h₂ => h.slot_inj (hold h₁).1 (hold h₂).1
  case slot_state =>
    intro k' j hs
    rw [mount_setMount, if_neg (hold hs).2]
    exact h.slot_state (hold hs).1
  case active =>
    intro j hj ha
    rw [mount_setMount] at ha
    split_ifs at ha with hji
    · exact absurd ha hact
    · exact (h.inSlot_setSlot hi).mpr ⟨h.active hj ha, hji⟩
  case wellFormed =>
    intro j hj
    rw [mount_setMount]
    split_ifs
    · exact hwf
    · exact h.wellFormed hj
  case references =>
    intro j hj
    rw [mount_setMount]
    split_ifs with hji
    · exact href.trans (hji ▸ h.references hj)
    · exact h.references hj
  case handles => exact h.handles

lemma Table.erase (h : s.Table) (hslot : ¬ s.InSlot i) (href : (s.mount i).references = 0)
    (hi : i ∈ s.instances) : Table { s with instances := s.instances.erase i } := by
  have hne : ∀ {k' j}, s.slot k' = some j → j ≠ i := fun hs hji =>
    hslot ⟨_, h.slot_lt hs, hji ▸ hs⟩
  have hcnt : i ∉ s.handles := List.count_eq_zero.mp ((h.references hi).symm.trans href)
  constructor <;> dsimp only
  case slot_lt => exact h.slot_lt
  case slot_mem => exact fun hs => mem_erase.mpr ⟨hne hs, h.slot_mem hs⟩
  case slot_state => exact h.slot_state
  case slot_inj => exact h.slot_inj
  case active => exact fun hj => h.active (mem_of_mem_erase hj)
  case wellFormed => exact fun hj => h.wellFormed (mem_of_mem_erase hj)
  case references => exact fun hj => h.references (mem_of_mem_erase hj)
  case handles => exact fun {j} hj => mem_erase.mpr ⟨fun hji => hcnt (hji ▸ hj), h.handles hj⟩

lemma Table.not_inSlot (h : s.Table) (hr : (s.mount i).state = .retired) : ¬ s.InSlot i := by
  rintro ⟨k, -, hk⟩
  exact h.slot_state hk hr

lemma Table.retain (h : s.Table) (hi : i ∈ s.instances) (hstt : (s.mount i).state = .active ∨
    i ∈ s.handles) : (s.retain i).Table := by
  have hwf := h.wellFormed hi
  -- an instance in use is not initializing, and is registered if it is retired
  have hpos : i ∈ s.handles → (s.mount i).references ≠ 0 := fun hh => by
    rw [h.references hi]
    exact (List.count_pos_iff.mpr hh).ne'
  refine h.change hi ⟨fun hinit => ?_, hwf.registered, fun hr hn => ?_⟩ (h.active hi)
    (fun hr k hk => h.slot_state hk hr) ?_ fun j hj => List.count_cons_of_ne hj.symm
  · rcases hstt with ha | hh
    · exact absurd (ha.symm.trans hinit) (by decide)
    · exact absurd (hwf.initializing hinit) (hpos hh)
  · rcases hstt with ha | hh
    · exact absurd (ha.symm.trans hr) (by decide)
    · exact absurd (hwf.unregistered hr hn) (hpos hh)
  · show (s.mount i).references + 1 = _
    rw [h.references hi, List.count_cons_self]

lemma Table.release (h : s.Table) (hi : i ∈ s.handles) : (s.release i).Table := by
  have hmem := h.handles hi
  have hwf := h.wellFormed hmem
  refine h.change hmem ⟨fun hinit => ?_, hwf.registered, fun hr hn => ?_⟩ (h.active hmem)
    (fun hr k hk => h.slot_state hk hr) ?_ fun j hj => List.count_erase_of_ne hj
  · show (s.mount i).references - 1 = 0
    rw [hwf.initializing hinit]
  · show (s.mount i).references - 1 = 0
    rw [hwf.unregistered hr hn]
  · show (s.mount i).references - 1 = _
    rw [h.references hmem, List.count_erase_self]

/-! ### The counters of the disks -/

lemma mem_registered : i ∈ s.registered d ↔
    i ∈ s.instances ∧ (s.mount i).retiredRegistered ∧ (s.mount i).diskNumber = d := by
  simp [registered]

lemma Inv.of_registered (h : s.Inv) (ht : s'.Table)
    (hreg : ∀ i d, i ∈ s'.registered d ↔ i ∈ s.registered d)
    (hdisk : ∀ d, (s'.disk d).retiredCount = (s.disk d).retiredCount) : s'.Inv := by
  refine ⟨ht, fun d => ?_⟩
  rw [hdisk, h.retiredCount, Finset.ext fun i => hreg i d]

lemma mem_registered_congr (hinst : s'.instances = s.instances)
    (hmnt : ∀ j, (s'.mount j).retiredRegistered = (s.mount j).retiredRegistered ∧
      (s'.mount j).diskNumber = (s.mount j).diskNumber) :
    j ∈ s'.registered d ↔ j ∈ s.registered d := by
  rw [mem_registered, mem_registered, hinst, (hmnt j).1, (hmnt j).2]

lemma retiredCount_setDisk (f : VfsDiskState → VfsDiskState)
    (hf : ∀ x, (f x).retiredCount = x.retiredCount) (d' : ℕ) :
    ((s.setDisk d f).disk d').retiredCount = (s.disk d').retiredCount := by
  by_cases hd : d' = d
  · simp [setDisk, hd, hf]
  · simp [setDisk, hd]

lemma mount_retire : (s.retire k i).mount j =
    if j = i then { s.mount i with state := .retired, retiredRegistered := true } else s.mount j :=
  mount_leave ..

lemma Inv.retire (h : s.Inv) (hi : s.slot k = some i) (ha : (s.mount i).state = .active) :
    (s.retire k i).Inv := by
  have hmem := h.table.slot_mem hi
  have hwf := h.table.wellFormed hmem
  refine ⟨(h.table.leave hi ⟨by simp, fun _ => rfl, by simp⟩ (by simp) rfl).setDisk .., fun d => ?_⟩
  have hreg : (s.mount i).retiredRegistered = false := by
    by_contra hr
    exact absurd (ha.symm.trans (hwf.registered (Bool.eq_true_of_not_eq_false hr))) (by decide)
  have hnew : ∀ j, j ∈ (s.retire k i).registered d ↔
      j ∈ s.registered d ∨ (j = i ∧ (s.mount i).diskNumber = d) := by
    intro j
    rw [mem_registered, mem_registered, mount_retire]
    split_ifs with hj
    · subst hj
      exact ⟨fun hh => .inr ⟨rfl, hh.2.2⟩, fun hh => ⟨hmem, rfl, hh.elim (·.2.2) (·.2)⟩⟩
    · simp only [hj, false_and, or_false]
      rfl
  by_cases hd : (s.mount i).diskNumber = d
  · have hset : (s.retire k i).registered d = insert i (s.registered d) := by
      ext j
      rw [hnew, mem_insert, or_comm, and_iff_left hd]
    have hnot : i ∉ s.registered d := fun hh => by simp [mem_registered, hreg] at hh
    rw [hset, Finset.card_insert_of_notMem hnot, ← h.retiredCount d]
    simp [MountTable.retire, MountTable.setDisk, hd, MountTable.setMount, MountTable.setSlot]
  · have hset : (s.retire k i).registered d = s.registered d := by
      ext j
      simp [hnew, hd]
    rw [hset, ← h.retiredCount d]
    simp [MountTable.retire, MountTable.setDisk, Ne.symm hd, MountTable.setMount, MountTable.setSlot]

lemma Inv.destroy (h : s.Inv) (hi : i ∈ s.instances) (hr : (s.mount i).state = .retired)
    (href : (s.mount i).references = 0) : (s.destroyMount i).Inv := by
  have ht := h.table.erase (h.table.not_inSlot hr) href hi
  unfold destroyMount
  extract_lets s'
  split_ifs with hreg
  · refine ⟨ht.setDisk .., fun d => ?_⟩
    have hset : (s'.setDisk (s.mount i).diskNumber
        fun d => { d with retiredCount := d.retiredCount - 1 }).registered d =
          (s.registered d).erase i := by
      ext j
      rw [mem_registered, mem_erase, mem_registered]
      show j ∈ s.instances.erase i ∧ _ ↔ _
      rw [mem_erase, and_assoc]
      rfl
    rw [hset]
    by_cases hd : (s.mount i).diskNumber = d
    · have hmem : i ∈ s.registered d := mem_registered.mpr ⟨hi, hreg, hd⟩
      rw [Finset.card_erase_of_mem hmem, ← h.retiredCount d]
      simp [MountTable.setDisk, hd, s']
    · have hmem : i ∉ s.registered d := fun hh => hd (mem_registered.mp hh).2.2
      rw [Finset.erase_eq_of_notMem hmem, ← h.retiredCount d]
      simp [MountTable.setDisk, Ne.symm hd, s']
  · refine h.of_registered ht (fun j d => ?_) fun d => rfl
    rw [mem_registered, mem_registered]
    show j ∈ s.instances.erase i ∧ _ ↔ _
    rw [mem_erase]
    refine ⟨fun hh => ⟨hh.1.2, hh.2⟩, fun hh => ⟨⟨fun hj => hreg (hj ▸ hh.2.1), hh.1⟩, hh.2⟩⟩

lemma Inv.unmountDisk (h : s.Inv) (drive : ℕ) : (s.unmountDisk drive).Inv := by
  rcases s.unmountDisk_cases drive with he | ⟨k, i, hi, ha, he⟩
  · rwa [he]
  · rw [he]
    exact h.retire hi ha

/-! ### The live instances -/

lemma Table.live_handle (h : s.Table) (hi : i ∈ s.handles) : i ∈ s.instances ∧ (s.mount i).Live := by
  refine ⟨h.handles hi, .inr ?_⟩
  rw [h.references (h.handles hi)]
  exact (List.count_pos_iff.mpr hi).ne'

lemma Exclusive.shrink (h : s.Exclusive) (ht : s'.Table) (hlive : ∀ i ∈ s'.instances, (s'.mount i).Live →
      i ∈ s.instances ∧ (s.mount i).Live ∧ (s'.mount i).diskNumber = (s.mount i).diskNumber)
    (hdisk : ∀ d, (s'.disk d).formatting → (s.disk d).formatting) : s'.Exclusive where
  unique i hi j hj li lj hd := by
    obtain ⟨hi, li, di⟩ := hlive i hi li
    obtain ⟨hj, lj, dj⟩ := hlive j hj lj
    exact h.unique i hi j hj li lj (by omega)
  formatting i hi li := by
    obtain ⟨hi, li, di⟩ := hlive i hi li
    have := h.formatting i hi li
    rw [di]
    by_contra hf
    simp [hdisk _ (Bool.eq_true_of_not_eq_false hf)] at this
  handles i hi := ht.live_handle hi

lemma Exclusive.unmountDisk (h : s.Exclusive) (hi : s.Inv) (drive : ℕ) :
    (s.unmountDisk drive).Exclusive := by
  rcases s.unmountDisk_cases drive with he | ⟨k, i, hs, ha, he⟩
  · rwa [he]
  · rw [he]
    refine h.shrink (hi.retire hs ha).table (fun j hj hl => ⟨hj, ?_⟩) fun d hd => ?_
    · rw [mount_retire] at hl ⊢
      split_ifs at hl ⊢ with hji
      · exact ⟨.inl (by rw [hji, ha]; decide), by rw [hji]⟩
      · exact ⟨hl, rfl⟩
    · by_cases hdd : d = (s.mount i).diskNumber
      · simpa [MountTable.retire, MountTable.setDisk, hdd, setMount, setSlot] using hd
      · simpa [MountTable.retire, MountTable.setDisk, hdd, setMount, setSlot] using hd

lemma diskRemoved_keeps (disk : ℕ) (h : s.Inv ∧ s.Exclusive) :
    (s.diskRemoved disk).Inv ∧ (s.diskRemoved disk).Exclusive := by
  unfold diskRemoved
  generalize List.range vfsMaxMounts = slots
  induction slots generalizing s with
  | nil => exact h
  | cons k slots ih =>
    refine ih ?_
    dsimp only
    split
    · exact h
    · split_ifs
      · exact ⟨h.1.unmountDisk _, h.2.unmountDisk h.1 _⟩
      · exact h

/-! ### Steps -/

/-- **A mount keeps the exclusion exactly if the disk has no live instance outside the table.** -/
lemma Exclusive.mountReserve_iff (h : s.Exclusive) (hi : s.Inv) (hnew : i ∉ s.instances)
    (hs : s.mountReserve i d drive = some s') :
    s'.Exclusive ↔ ∀ j ∈ s.instances, (s.mount j).Live → (s.mount j).diskNumber = d → s.InSlot j := by
  have ht := hi.table.reserve hnew hs
  unfold mountReserve at hs
  split_ifs at hs with hf hc
  rw [not_not] at hc
  obtain ⟨k, hk, rfl⟩ := Option.map_eq_some_iff.mp hs
  have hold : ∀ j ∈ s.instances, j ≠ i := fun j hj hij => hnew (hij ▸ hj)
  have hmnt : ∀ j ∈ s.instances,
      update s.mount i ⟨d, drive, .initializing, 0, false⟩ j = s.mount j :=
    fun j hj => update_of_ne (hold j hj) ..
  -- an instance of the disk in the table would have been met
  have hnone : ∀ j, s.InSlot j → (s.mount j).diskNumber ≠ d := by
    rintro j ⟨k', hk', hj⟩ hd
    have := slotsWith_eq_nil hc hk' hj
    simp [hd] at this
  constructor
  · intro hx j hj hl hd
    have := hx.unique i (Finset.mem_insert_self ..) j (mem_insert_of_mem hj)
      (.inl (by simp)) (by simpa [hmnt j hj] using hl) (by simp [hmnt j hj, hd])
    exact absurd this.symm (hold j hj)
  · intro hall
    have hfree : ∀ j ∈ s.instances, (s.mount j).Live → (s.mount j).diskNumber ≠ d := fun j hj hl hd =>
      hnone j (hall j hj hl hd) hd
    refine ⟨fun a ha b hb la lb hab => ?_, fun a ha la => ?_, fun a ha => ht.live_handle ha⟩
    · dsimp only at la lb hab
      rcases mem_insert.mp ha with rfl | ha' <;> rcases mem_insert.mp hb with rfl | hb'
      · rfl
      · rw [hmnt b hb'] at lb hab
        simp only [update_self] at hab
        exact absurd hab.symm (hfree b hb' lb)
      · rw [hmnt a ha'] at la hab
        simp only [update_self] at hab
        exact absurd hab (hfree a ha' la)
      · rw [hmnt a ha'] at la hab
        rw [hmnt b hb'] at lb hab
        exact h.unique a ha' b hb' la lb hab
    · dsimp only at la ⊢
      rcases mem_insert.mp ha with rfl | ha
      · simpa using hf
      · rw [hmnt a ha] at la ⊢
        exact h.formatting a ha la

lemma Inv.formatBegin (h : s.Inv) (hs : s.formatBegin d = some s') : s'.Inv := by
  obtain ⟨-, -, ⟨rfl, -⟩ | ⟨k, i, hi, ha, href, -, rfl⟩⟩ := formatBegin_cases hs
  · exact h.of_registered (h.table.setDisk ..) (fun i d' => Iff.rfl)
      (retiredCount_setDisk _ fun _ => rfl)
  · refine h.of_registered ((h.table.leave hi ⟨by simp, fun _ => rfl, fun _ _ => href⟩ (by simp)
      rfl).setDisk ..) (fun j d' => mem_registered_congr rfl fun j => ?_)
      (retiredCount_setDisk _ fun _ => rfl)
    rw [mount_leave]
    split_ifs with hj
    · exact ⟨hj ▸ rfl, hj ▸ rfl⟩
    · exact ⟨rfl, rfl⟩

/-- **A format keeps the exclusion exactly if no failed mount of the disk is still under way.** -/
lemma Exclusive.formatBegin_iff (h : s.Exclusive) (hi : s.Inv) (hs : s.formatBegin d = some s') :
    s'.Exclusive ↔ ∀ j ∈ s.instances, (s.mount j).state = .initializing →
      (s.mount j).diskNumber = d → s.InSlot j := by
  have hi' := hi.formatBegin hs
  obtain ⟨hf, hcnt, hcas⟩ := formatBegin_cases hs
  -- no registered instance of the disk is left
  have hretd : ∀ j ∈ s.instances, (s.mount j).diskNumber = d → (s.mount j).state = .retired →
      ¬ (s.mount j).Live := by
    intro j hj hd hr hl
    rcases hl with hl | hl
    · exact hl hr
    · by_cases hreg : (s.mount j).retiredRegistered
      · have : j ∈ s.registered d := mem_registered.mpr ⟨hj, hreg, hd⟩
        have := Finset.card_pos.mpr ⟨j, this⟩
        rw [← hi.retiredCount d] at this
        omega
      · exact hl ((hi.table.wellFormed hj).unregistered hr (by simpa using hreg))
  rcases hcas with ⟨rfl, hnone⟩ | ⟨k, i, hslot, ha, href, hone, rfl⟩
  · constructor
    · intro hx j hj hinit hd
      have := hx.formatting j hj (.inl fun hr => absurd (hr.symm.trans hinit) (by decide))
      simp [setDisk, hd] at this
    · intro hall
      refine ⟨h.unique, fun j hj hl => ?_, fun j hj => hi'.table.live_handle hj⟩
      have hd : (s.mount j).diskNumber ≠ d := by
        intro hd
        have hin : ¬ s.InSlot j := fun ⟨k, hk, hkj⟩ => hnone k hk j hkj hd
        cases hst : (s.mount j).state with
        | initializing => exact hin (hall j hj hst hd)
        | active => exact hin (hi.table.active hj hst)
        | retired => exact hretd j hj hd hst hl
      simpa [setDisk, hd] using h.formatting j hj hl
  · have hmem := hi.table.slot_mem hslot
    constructor
    · intro hx j hj hinit hd
      have hji : j ≠ i := fun hji => by simp [hji, ha] at hinit
      have := hx.formatting j hj (.inl (by rw [mount_leave, if_neg hji, hinit]; decide))
      rw [mount_leave, if_neg hji] at this
      simp [setDisk, hd] at this
    · intro hall
      -- the instance that makes room is not live any more
      have hlive : ∀ j, VfsMount.Live (if j = i then { s.mount i with state := .retired }
          else s.mount j) → j ≠ i ∧ (s.mount j).Live := by
        intro j hl
        split_ifs at hl with hji
        · exact absurd hl (by simp [VfsMount.Live, href])
        · exact ⟨hji, hl⟩
      refine ⟨fun a hma b hmb la lb hab => ?_, fun j hj hl => ?_, fun j hj => hi'.table.live_handle hj⟩
      · rw [mount_leave] at la lb
        obtain ⟨hai, la⟩ := hlive a la
        obtain ⟨hbi, lb⟩ := hlive b lb
        rw [mount_leave, mount_leave, if_neg hai, if_neg hbi] at hab
        exact h.unique a hma b hmb la lb hab
      · rw [mount_leave] at hl ⊢
        obtain ⟨hji, hl⟩ := hlive j hl
        rw [if_neg hji]
        have hd : (s.mount j).diskNumber ≠ d := by
          intro hd
          have hin : ¬ s.InSlot j := fun ⟨k', hk', hkj⟩ => hji (hone k' hk' j hkj hd)
          cases hst : (s.mount j).state with
          | initializing => exact hin (hall j hj hst hd)
          | active => exact hin (hi.table.active hj hst)
          | retired => exact hretd j hj hd hst hl
        simpa [setDisk, hd, MountTable.setMount, setSlot] using h.formatting j hj hl

lemma Exclusive.change (h : s.Exclusive) {f : VfsMount → VfsMount} {l : List MountId}
    (ht : Table { s.setMount i f with handles := l })
    (hdisk : (f (s.mount i)).diskNumber = (s.mount i).diskNumber)
    (hlive : (f (s.mount i)).Live → (s.mount i).Live) :
    Exclusive { s.setMount i f with handles := l } := by
  refine h.shrink ht (fun j hj hl => ⟨hj, ?_⟩) fun _ => id
  rw [show _ = _ from mount_setMount f] at hl ⊢
  split_ifs at hl ⊢ with hji
  · exact ⟨hji ▸ hlive hl, hji ▸ hdisk⟩
  · exact ⟨hl, rfl⟩

lemma Inv.change (h : s.Inv) {f : VfsMount → VfsMount} {l : List MountId}
    (ht : Table { s.setMount i f with handles := l })
    (hdisk : (f (s.mount i)).diskNumber = (s.mount i).diskNumber)
    (hreg : (f (s.mount i)).retiredRegistered = (s.mount i).retiredRegistered) :
    Inv { s.setMount i f with handles := l } := by
  refine h.of_registered ht (fun j d => mem_registered_congr rfl fun j => ?_) fun _ => rfl
  rw [show _ = _ from mount_setMount f]
  split_ifs with hj
  · exact ⟨hj ▸ hreg, hj ▸ hdisk⟩
  · exact ⟨rfl, rfl⟩

/-- **After a step the exclusion holds exactly if the step meets the condition.** -/
theorem Inv.step_iff {e : MountEvent} (h : s.Inv) (hx : s.Exclusive) (hs : s.step e = some s') :
    s'.Inv ∧ (s'.Exclusive ↔ s.Spares e) := by
  have htrue : ∀ {s' : MountTable}, s'.Inv → s'.Exclusive → s'.Inv ∧ (s'.Exclusive ↔ True) :=
    fun h hx => ⟨h, iff_true_intro hx⟩
  cases e <;> simp only [step, Option.bind_eq_bind, Option.bind_eq_some_iff] at hs
  case mountReserve i disk drive =>
    obtain ⟨d, hd, v, -, hs⟩ := hs
    split_ifs at hs with hi
    have ht := h.table.reserve hi hs
    refine ⟨?_, (hx.mountReserve_iff h hi hs).trans ?_⟩
    · unfold MountTable.mountReserve at hs
      split_ifs at hs
      obtain ⟨k, -, rfl⟩ := Option.map_eq_some_iff.mp hs
      refine h.of_registered ht (fun j d' => ?_) fun _ => rfl
      rw [mem_registered, mem_registered]
      dsimp only
      by_cases hj : j = i
      · simp [hj, hi]
      · simp [hj]
    · exact ⟨fun hall d' hd' => Option.some.inj (hd.symm.trans hd') ▸ hall, fun hall => hall d hd⟩
  case mountReady i =>
    split_ifs at hs with hc
    cases hs
    obtain ⟨hmem, hinit, hslot⟩ := hc
    have hwf := h.table.wellFormed hmem
    have hreg : ¬ (s.mount i).retiredRegistered := fun hr =>
      absurd (hinit.symm.trans (hwf.registered hr)) (by decide)
    have ht : Table { s.setMount i ({ · with state := .active }) with handles := s.handles } :=
      h.table.change hmem ⟨by simp, fun hr => absurd hr hreg, by simp⟩ (fun _ => hslot) (by simp)
        (h.table.references hmem) fun _ _ => rfl
    exact htrue (h.change ht rfl rfl) (hx.change ht rfl fun _ => .inl (by rw [hinit]; decide))
  case mountFails i =>
    split_ifs at hs with hinit
    obtain ⟨ki, hf, rfl⟩ := Option.map_eq_some_iff.mp hs
    have hi := List.find?_some hf
    obtain ⟨-, hslot, -⟩ := mem_slotsWith.mp (List.mem_of_find?_eq_some hf)
    rw [of_decide_eq_true hi] at hslot
    have ht : ((s.setSlot ki.1 none).setMount i id).Table :=
      h.table.leave hslot (h.table.wellFormed (h.table.slot_mem hslot)) (by simp [hinit]) rfl
    have hid : (s.setSlot ki.1 none).setMount i id = s.setSlot ki.1 none := by
      simp [setMount]
    rw [hid] at ht
    exact htrue (h.of_registered ht (fun _ _ => Iff.rfl) fun _ => rfl)
      (hx.shrink ht (fun j hj hl => ⟨hj, hl, rfl⟩) fun _ => id)
  case mountFreed i =>
    split_ifs at hs with hc
    cases hs
    obtain ⟨hmem, hinit, hslot⟩ := hc
    have hwf := h.table.wellFormed hmem
    have ht := h.table.erase hslot (hwf.initializing hinit) hmem
    refine htrue (h.of_registered ht (fun j d => ?_) fun _ => rfl)
      (hx.shrink ht (fun j hj hl => ⟨mem_of_mem_erase hj, hl, rfl⟩) fun _ => id)
    rw [mem_registered, mem_registered]
    show j ∈ s.instances.erase i ∧ _ ↔ _
    rw [mem_erase]
    refine ⟨fun hh => ⟨hh.1.2, hh.2⟩, fun hh => ⟨⟨fun hji => ?_, hh.1⟩, hh.2⟩⟩
    exact absurd (hinit.symm.trans (hwf.registered (hji ▸ hh.2.1))) (by decide)
  case unmountDisk drive =>
    obtain ⟨v, -, rfl⟩ := Option.map_eq_some_iff.mp hs
    exact htrue (h.unmountDisk v) (hx.unmountDisk h v)
  case diskRemoved disk =>
    cases hs
    exact htrue (diskRemoved_keeps disk ⟨h, hx⟩).1 (diskRemoved_keeps disk ⟨h, hx⟩).2
  case destroyed i =>
    split_ifs at hs with hc
    cases hs
    obtain ⟨hmem, hr, href⟩ := hc
    have hi' := h.destroy hmem hr href
    refine htrue hi' (hx.shrink hi'.table ?_ fun d => ?_)
    · unfold destroyMount
      split_ifs <;> exact fun j hj hl => ⟨mem_of_mem_erase hj, hl, rfl⟩
    · unfold destroyMount
      split_ifs
      · by_cases hd : d = (s.mount i).diskNumber <;> simp [setDisk, hd]
      · exact id
  case formatBegin disk =>
    obtain ⟨d, hd, hs⟩ := hs
    refine ⟨h.formatBegin hs, (hx.formatBegin_iff h hs).trans ?_⟩
    exact ⟨fun hall d' hd' => Option.some.inj (hd.symm.trans hd') ▸ hall, fun hall => hall d hd⟩
  case formatEnd disk =>
    split_ifs at hs
    cases hs
    refine htrue (h.of_registered (h.table.setDisk ..) (fun _ _ => Iff.rfl)
      (retiredCount_setDisk _ fun _ => rfl))
      (hx.shrink (h.table.setDisk ..) (fun j hj hl => ⟨hj, hl, rfl⟩) fun d => ?_)
    by_cases hd : d = disk <;> simp [setDisk, hd]
  case openDrive drive =>
    obtain ⟨⟨k, i⟩, hf, rfl⟩ := Option.map_eq_some_iff.mp hs
    obtain ⟨-, hslot, ha⟩ := findActiveMount_some hf
    have ht := h.table.retain (h.table.slot_mem hslot) (.inl ha)
    exact htrue (h.change ht rfl rfl) (hx.change ht rfl fun _ => .inl (by rw [ha]; decide))
  case openFrom i =>
    split_ifs at hs with hi
    cases hs
    have ht := h.table.retain (h.table.handles hi) (.inr hi)
    exact htrue (h.change ht rfl rfl) (hx.change ht rfl fun _ => (h.table.live_handle hi).2)
  case close i =>
    split_ifs at hs with hi
    cases hs
    have ht := h.table.release hi
    exact htrue (h.change ht rfl rfl) (hx.change ht rfl fun _ => (h.table.live_handle hi).2)

lemma initial_exclusive : initial.Exclusive := by
  constructor <;> simp [initial]

end MountTable

/-- **One live instance a disk**, in every run in which no disk is mounted while a retired or failed
instance of it is live outside the table, and none is formatted while a failed mount of it is under
way; and the first other step breaks it. -/
theorem exclusive_of_spares {s : MountTable} (h : mountSystem.Guarded MountTable.Spares s) :
    s.Exclusive ∧ ∀ e s', mountSystem.step s e = some s' → (s'.Exclusive ↔ s.Spares e) := by
  have hi : s.Inv ∧ s.Exclusive := by
    apply h.invariant
    · rintro _ rfl
      exact ⟨MountTable.initial_inv, MountTable.initial_exclusive⟩
    · rintro s e s' ⟨hi, hx⟩ hg hs
      exact ⟨(hi.step_iff hx hs).1, (hi.step_iff hx hs).2.mpr hg⟩
  exact ⟨hi.2, fun _ _ hs => (hi.1.step_iff hi.2 hs).2⟩

def retiresInUse : List MountEvent := [.mountReady 0, .openDrive 67, .unmountDisk 67]

/-- The state in which the disk `A` has just been reserved for the drive `C`. -/
def reserved : MountTable := mountSystem.replay MountTable.initial [.mountReserve 0 65 67]

/-- The file is closed, and the disk is mounted again. -/
theorem exclusive_remount :
    (mountSystem.replay reserved
      (retiresInUse ++ [.close 0, .destroyed 0, .mountReserve 1 65 67])).Exclusive := by
  have hreserved : mountSystem.Guarded MountTable.Spares reserved := by
    have hspares : MountTable.initial.Spares (.mountReserve 0 65 67) := fun d _ j hj =>
      absurd hj (Finset.notMem_empty j)
    exact .step (.init rfl) hspares rfl
  have hclosed : mountSystem.Guarded MountTable.Spares
      (mountSystem.replay reserved (retiresInUse ++ [.close 0, .destroyed 0])) := by
    refine System.replay_guarded hreserved fun s e he => ?_
    simp only [retiresInUse, List.cons_append, List.nil_append, List.mem_cons, List.not_mem_nil,
      or_false] at he
    rcases he with rfl | rfl | rfl | rfl | rfl <;> trivial
  have hspares : (mountSystem.replay reserved (retiresInUse ++ [.close 0, .destroyed 0])).Spares
      (.mountReserve 1 65 67) := fun d _ j hj => by
    have : (mountSystem.replay reserved (retiresInUse ++ [.close 0, .destroyed 0])).instances = ∅ := by decide
    simp [this] at hj
  exact (exclusive_of_spares (.step hclosed hspares rfl)).1

/-- The disk is mounted again while the file is open: the retired instance of the file and the new one
are live. -/
theorem remount_in_use : ∃ s, mountSystem.Reachable s ∧ ¬ s.Exclusive ∧ s.handles = [0] ∧
    0 ∈ s.instances ∧ (s.mount 0).state = .retired ∧ (s.mount 0).references = 1 ∧
    1 ∈ s.instances ∧ (s.mount 1).state = .initializing ∧
    (s.mount 0).diskNumber = (s.mount 1).diskNumber := by
  have hreach : mountSystem.Reachable reserved := System.replay_reachable (.init rfl) _
  refine ⟨mountSystem.replay reserved (retiresInUse ++ [.mountReserve 1 65 67]),
    System.replay_reachable hreach _, fun h => ?_, by decide, by decide, by decide, by decide, by decide,
    by decide, by decide⟩
  exact absurd (h.unique 0 (by decide) 1 (by decide) (by decide) (by decide) (by decide)) (by decide)

end PlantOS.Vfs
