import PlantOS.Lib.Interval
import PlantOS.Lib.Run
import PlantOS.Vfs.Defs

/-!
# Byte-range record locks

The list `vfs_record_locks` and the functions of `vfs.c` that edit it. The list is edited in place
there; here every function returns the list it leaves. The waiter list, which only decides when a
blocked task runs again, has no counterpart.
-/

namespace PlantOS.Vfs

/-- `F_RDLCK` and `F_WRLCK` -/
inductive LockType
  | rdlck | wrlck
  deriving DecidableEq, Repr

/-- `vfs_record_lock_t` -/
structure RecordLock where
  key : FileKey
  owner : ℕ
  type : LockType
  range : Lib.Interval ℕ
  deriving DecidableEq

/-- `struct flock` -/
structure Flock where
  lType : ℤ
  lWhence : ℤ
  lStart : ℤ
  lLen : ℤ
  lPid : ℤ
  deriving DecidableEq, Repr

/-- What a record-lock request reads of a `vfs_handle_t` and its dentry. -/
structure LockHandle where
  pipe : Bool
  type : VfsNodeType
  key : FileKey
  openRead : Bool
  openWrite : Bool
  offset : UInt32
  size : UInt32
  deriving DecidableEq

/-! ### Ranges -/

def int64Max : ℤ := 2 ^ 63 - 1

/-- `UINT64_MAX`, the end of the unbounded range -/
def uint64Max : ℕ := 2 ^ 64 - 1

/-- The conversion `(int64_t)n` of a `uint64_t`. -/
def toInt64 (n : ℕ) : ℤ := if (n : ℤ) ≤ int64Max then n else n - 2 ^ 64

/-- What `l_start` is relative to. -/
def lockBase (handle : LockHandle) (whence : ℤ) : Option UInt32 :=
  if whence = 0 then some 0
  else if whence = 1 then some handle.offset
  else if whence = 2 then some handle.size
  else none

/-- `base + l_start` leaves the range of `int64_t`. -/
def StartOverflows (base : UInt32) (lStart : ℤ) : Prop :=
  lStart < 0 ∧ (base.toNat : ℤ) < (-int64Max - 1) - lStart ∨
    0 < lStart ∧ int64Max - lStart < base.toNat

instance (base : UInt32) (lStart : ℤ) : Decidable (StartOverflows base lStart) := by
  unfold StartOverflows; infer_instance

lemma start_lt_uint64Max {base : UInt32} {lStart : ℤ} (h : ¬ StartOverflows base lStart) :
    (base.toNat + lStart).toNat < uint64Max := by
  have := base.toNat_lt
  simp only [StartOverflows, int64Max, uint64Max] at *
  omega

/-- `vfs_record_lock_normalize_range` -/
def normalizeRange (handle : LockHandle) (request : Flock) : Except VfsError (Lib.Interval ℕ) :=
  match lockBase handle request.lWhence with
  | none => .error .invalid
  | some base =>
    if h : StartOverflows base request.lStart then .error .overflow
    else if base.toNat + request.lStart < 0 then .error .invalid
    else
      let start := (base.toNat + request.lStart).toNat
      if request.lLen = 0 then .ok ⟨start, uint64Max, start_lt_uint64Max h⟩
      else if 0 < request.lLen then
        let length := request.lLen.toNat
        if uint64Max - start < length then .error .overflow
        else if h : start < start + length then .ok ⟨start, start + length, h⟩
        else .error .overflow
      else
        let length := (-(request.lLen + 1)).toNat + 1
        if start < length then .error .invalid
        else if h : start - length < start then .ok ⟨start - length, start, h⟩
        else .error .invalid

/-- `vfs_record_lock_describe` -/
def describe (record : RecordLock) : Flock where
  lType := match record.type with | .rdlck => 0 | .wrlck => 1
  lWhence := 0
  lStart := toInt64 record.range.start
  lLen :=
    if record.range.stop = uint64Max then 0
    else min (record.range.stop - record.range.start : ℕ) int64Max
  lPid := record.owner

/-! ### Editing the list -/

/-- The record is one of `owner` on the file `key`. -/
def RecordLock.Of (record : RecordLock) (key : FileKey) (owner : ℕ) : Prop :=
  record.key = key ∧ record.owner = owner

instance (record : RecordLock) (key : FileKey) (owner : ℕ) : Decidable (record.Of key owner) :=
  inferInstanceAs (Decidable (_ ∧ _))

/-- `vfs_record_lock_conflicts` -/
def RecordLock.Conflicts (record : RecordLock) (owner : ℕ) (type : LockType) (range : Lib.Interval ℕ) :
    Prop :=
  record.owner ≠ owner ∧ record.range.Overlaps range ∧ (type = .wrlck ∨ record.type = .wrlck)

instance (record : RecordLock) (owner : ℕ) (type : LockType) (range : Lib.Interval ℕ) :
    Decidable (record.Conflicts owner type range) := inferInstanceAs (Decidable (_ ∧ _))

/-- The record reaches beyond both ends of the range, so that unlocking the range splits it. -/
def RecordLock.Splits (record : RecordLock) (range : Lib.Interval ℕ) : Prop :=
  record.range.start < range.start ∧ range.stop < record.range.stop

instance (record : RecordLock) (range : Lib.Interval ℕ) : Decidable (record.Splits range) :=
  inferInstanceAs (Decidable (_ ∧ _))

/-- `vfs_record_lock_remove_owner_range` with `splits` nodes at hand; `none` is the panic
"VFS record lock split allocation mismatch". The result has the list and the nodes left over. -/
def removeOwnerRange (key : FileKey) (owner : ℕ) (range : Lib.Interval ℕ) :
    List RecordLock → ℕ → Option (List RecordLock × ℕ)
  | [], splits => some ([], splits)
  | record :: rest, splits =>
    if record.Of key owner ∧ record.range.Overlaps range then
      if h : record.Splits range then
        match splits with
        | 0 => none
        | splits + 1 =>
          (removeOwnerRange key owner range rest splits).map fun (rest, splits) =>
            ({ record with range := record.range.below range h.1 } ::
              { record with range := record.range.above range h.2 } :: rest, splits)
      else if hstar : range.start ≤ record.range.start then
        if hstop : record.range.stop ≤ range.stop then removeOwnerRange key owner range rest splits
        else
          (removeOwnerRange key owner range rest splits).map fun (rest, splits) =>
            ({ record with range := record.range.above range (not_le.mp hstop) } :: rest, splits)
      else
        (removeOwnerRange key owner range rest splits).map fun (rest, splits) =>
          ({ record with range := record.range.below range (not_le.mp hstar) } :: rest, splits)
    else
      (removeOwnerRange key owner range rest splits).map fun (rest, splits) => (record :: rest, splits)

/-- The inner loop of `vfs_record_lock_coalesce`: `left` takes in the records after it that it
touches. -/
def coalesceInto (key : FileKey) (owner : ℕ) (left : RecordLock) :
    List RecordLock → RecordLock × List RecordLock
  | [] => (left, [])
  | right :: rest =>
    if right.Of key owner ∧ right.type = left.type ∧ left.range.Touches right.range then
      coalesceInto key owner { left with range := left.range.hull right.range } rest
    else
      let (left, rest) := coalesceInto key owner left rest
      (left, right :: rest)

/-- The outer loop of `vfs_record_lock_coalesce` over at most `n` records. -/
def coalesceFrom (key : FileKey) (owner : ℕ) : ℕ → List RecordLock → List RecordLock
  | 0, records => records
  | _ + 1, [] => []
  | n + 1, left :: rest =>
    if left.Of key owner then
      let (left, rest) := coalesceInto key owner left rest
      left :: coalesceFrom key owner n rest
    else left :: coalesceFrom key owner n rest

/-- `vfs_record_lock_coalesce` -/
def coalesce (key : FileKey) (owner : ℕ) (records : List RecordLock) : List RecordLock :=
  coalesceFrom key owner records.length records

/-- How many split nodes `vfs_record_lock_apply` allocates. -/
def splitCount (key : FileKey) (owner : ℕ) (range : Lib.Interval ℕ) (records : List RecordLock) : ℕ :=
  records.countP fun record => record.Of key owner ∧ record.Splits range

/-- `vfs_record_lock_apply`, when `memory` calls of `malloc` succeed; `none` is the panic. The type is
`none` for `F_UNLCK`. -/
def recordLockApply (memory : ℕ) (key : FileKey) (owner : ℕ) (type : Option LockType)
    (range : Lib.Interval ℕ) (records : List RecordLock) :
    Option (Except VfsError Unit × List RecordLock) :=
  let splits := splitCount key owner range records
  if memory < splits then some (.error .noMemory, records)
  else
    match type with
    | none => (removeOwnerRange key owner range records splits).map fun (records, _) => (.ok (), records)
    | some type =>
      if memory < splits + 1 then some (.error .noMemory, records)
      else
        (removeOwnerRange key owner range records splits).map fun (records, _) =>
          (.ok (), coalesce key owner (⟨key, owner, type, range⟩ :: records))

/-! ### Requests -/

/-- `F_GETLK`, `F_SETLK` and `F_SETLKW` -/
inductive Command
  | getlk | setlk | setlkw
  deriving DecidableEq, Repr

/-- A request whose range is known: what the loop of `vfs_record_lock_operation` works on. -/
structure LockRequest where
  key : FileKey
  owner : ℕ
  /-- `none` is `F_UNLCK` -/
  type : Option LockType
  range : Lib.Interval ℕ
  deriving DecidableEq

/-- The checks of `vfs_record_lock_operation` before its loop. -/
def lockRequest (handle : LockHandle) (owner : ℕ) (request : Flock) : Except VfsError LockRequest :=
  if handle.pipe ∨ handle.type ≠ .file then .error .notSeekable
  else if request.lType ≠ 0 ∧ request.lType ≠ 1 ∧ request.lType ≠ 2 then .error .invalid
  else if request.lType = 0 ∧ !handle.openRead then .error .access
  else if request.lType = 1 ∧ !handle.openWrite then .error .access
  else
    (normalizeRange handle request).map fun range =>
      { key := handle.key
        owner := owner
        type := if request.lType = 0 then some .rdlck else if request.lType = 1 then some .wrlck else none
        range := range }

inductive Pass
  | done (status : Except VfsError Unit)
  | described (result : Flock)
  | wait

def conflict (request : LockRequest) (records : List RecordLock) : Option RecordLock :=
  request.type.bind fun type =>
    records.find? fun record =>
      record.key = request.key ∧ record.Conflicts request.owner type request.range

/-- One pass of the loop of `vfs_record_lock_operation`: `retired` is the state of the mount and
`signal` says whether a signal is pending; `none` is the panic of `vfs_record_lock_apply`. -/
def recordLockPass (retired signal : Bool) (memory : ℕ) (command : Command) (request : LockRequest)
    (records : List RecordLock) : Option (Pass × List RecordLock) :=
  if retired then some (.done (.error .io), records)
  else
    match command, conflict request records with
    | .getlk, some record => some (.described (describe record), records)
    | .getlk, none =>
      some (.described ⟨2, 0, toInt64 request.range.start,
        if request.range.stop = uint64Max then 0
        else toInt64 (request.range.stop - request.range.start), 0⟩, records)
    | _, none =>
      (recordLockApply memory request.key request.owner request.type request.range records).map
        fun (status, records) => (.done status, records)
    | .setlk, some _ => some (.done (.error .again), records)
    | .setlkw, some _ =>
      if signal then some (.done (.error .interrupted), records) else some (.wait, records)

/-- `vfs_record_lock_close` -/
def recordLockClose (owner : ℕ) (handle : LockHandle) (records : List RecordLock) : List RecordLock :=
  if handle.pipe then records else records.filter fun record => ¬ record.Of handle.key owner

/-- `vfs_record_lock_task_cleanup` -/
def recordLockTaskCleanup (owner : ℕ) (records : List RecordLock) : List RecordLock :=
  records.filter fun record => record.owner ≠ owner

/-! ## The byte map of the record locks -/

abbrev ByteMap := FileKey → ℕ → ℕ → Option LockType

/-- The owner's lock on the bytes of the range becomes `type`. -/
def ByteMap.assign (m : ByteMap) (key : FileKey) (owner : ℕ) (type : Option LockType)
    (range : Lib.Interval ℕ) : ByteMap :=
  fun key' owner' b => if key' = key ∧ owner' = owner ∧ b ∈ range then type else m key' owner' b

def Holds (records : List RecordLock) (key : FileKey) (owner b : ℕ) (type : LockType) : Prop :=
  ∃ record ∈ records, record.Of key owner ∧ record.type = type ∧ b ∈ record.range

def Refines (records : List RecordLock) (m : ByteMap) : Prop :=
  ∀ key owner b type, m key owner b = some type ↔ Holds records key owner b type

def Disjoint (records : List RecordLock) : Prop :=
  records.Pairwise fun x y => x.key = y.key → x.owner = y.owner → ¬ x.range.Overlaps y.range

def Compatible (records : List RecordLock) : Prop :=
  ∀ x ∈ records, ∀ y ∈ records, x.key = y.key → x.owner ≠ y.owner → x.range.Overlaps y.range →
    x.type = .rdlck ∧ y.type = .rdlck

section

variable {key key' : FileKey} {owner owner' b : ℕ} {type : LockType} {range : Lib.Interval ℕ}
  {record left : RecordLock} {records rest : List RecordLock}

lemma holds_cons : Holds (record :: records) key owner b type ↔
    (record.Of key owner ∧ record.type = type ∧ b ∈ record.range) ∨
      Holds records key owner b type := by
  simp [Holds]

def byteMap (records : List RecordLock) : ByteMap := fun key owner b =>
  (records.find? fun record => record.Of key owner ∧ b ∈ record.range).map (·.type)

lemma refines_byteMap (h : Disjoint records) : Refines records (byteMap records) := by
  intro key owner b type
  induction records with
  | nil => simp [byteMap, Holds]
  | cons record rest ih =>
    obtain ⟨hrec, hrest⟩ := List.pairwise_cons.mp h
    rw [holds_cons, ← ih hrest]
    unfold byteMap
    rw [List.find?_cons]
    by_cases hb : record.Of key owner ∧ b ∈ record.range
    · rw [decide_eq_true hb]
      constructor
      · exact fun ht => .inl ⟨hb.1, Option.some.inj ht, hb.2⟩
      · rintro (⟨-, rfl, -⟩ | ht)
        · rfl
        · obtain ⟨x, hx, hxof, -, hbx⟩ := (ih hrest).mp ht
          exact absurd (Lib.Interval.overlaps_iff.mpr ⟨b, hb.2, hbx⟩)
            (hrec x hx (hb.1.1.trans hxof.1.symm) (hb.1.2.trans hxof.2.symm))
    · rw [decide_eq_false hb]
      have : ¬ (record.Of key owner ∧ record.type = type ∧ b ∈ record.range) :=
        fun hn => hb ⟨hn.1, hn.2.2⟩
      simp [this]

lemma holds_recordLockClose {handle : LockHandle} :
    Holds (recordLockClose owner handle records) key' owner' b type ↔
      Holds records key' owner' b type ∧ ¬ (!handle.pipe ∧ key' = handle.key ∧ owner' = owner) := by
  unfold recordLockClose
  split_ifs with hp
  · simp [hp]
  · constructor
    · rintro ⟨record, hr, ⟨rfl, rfl⟩, ht, hb⟩
      obtain ⟨hr, hn⟩ := List.mem_filter.mp hr
      exact ⟨⟨record, hr, ⟨rfl, rfl⟩, ht, hb⟩, fun h => by simp [RecordLock.Of, h] at hn⟩
    · rintro ⟨⟨record, hr, ⟨rfl, rfl⟩, ht, hb⟩, hn⟩
      refine ⟨record, List.mem_filter.mpr ⟨hr, ?_⟩, ⟨rfl, rfl⟩, ht, hb⟩
      simpa [RecordLock.Of, hp, imp_iff_not_or] using hn

lemma recordLockClose_sublist {handle : LockHandle} :
    (recordLockClose owner handle records).Sublist records := by
  unfold recordLockClose
  split_ifs
  · exact .refl _
  · exact List.filter_sublist

lemma holds_recordLockTaskCleanup : Holds (recordLockTaskCleanup owner records) key' owner' b type ↔
    Holds records key' owner' b type ∧ owner' ≠ owner := by
  constructor
  · rintro ⟨record, hr, ⟨rfl, rfl⟩, ht, hb⟩
    obtain ⟨hr, hn⟩ := List.mem_filter.mp hr
    exact ⟨⟨record, hr, ⟨rfl, rfl⟩, ht, hb⟩, by simpa using hn⟩
  · rintro ⟨⟨record, hr, ⟨rfl, rfl⟩, ht, hb⟩, hn⟩
    exact ⟨record, List.mem_filter.mpr ⟨hr, by simpa using hn⟩, ⟨rfl, rfl⟩, ht, hb⟩

lemma Disjoint.sublist {records' : List RecordLock} (h : Disjoint records)
    (hs : records'.Sublist records) : Disjoint records' := List.Pairwise.sublist hs h

/-! ### `removeOwnerRange` -/

/-- What the removal of the owner's locks from the range leaves of a record. -/
def cut (key : FileKey) (owner : ℕ) (range : Lib.Interval ℕ) (record : RecordLock) : List RecordLock :=
  if record.Of key owner ∧ record.range.Overlaps range then
    (record.range.diff range).map ({ record with range := · })
  else [record]

theorem removeOwnerRange_eq (key : FileKey) (owner : ℕ) (range : Lib.Interval ℕ)
    (records : List RecordLock) (splits : ℕ) (h : splitCount key owner range records ≤ splits) :
    removeOwnerRange key owner range records splits =
      some (records.flatMap (cut key owner range), splits - splitCount key owner range records) := by
  induction records generalizing splits with
  | nil => simp [removeOwnerRange, splitCount]
  | cons record rest ih =>
    have hcnt : splitCount key owner range (record :: rest) = splitCount key owner range rest +
        if record.Of key owner ∧ record.Splits range then 1 else 0 := by
      simp [splitCount, List.countP_cons]
    rw [hcnt] at h ⊢
    unfold removeOwnerRange
    rw [List.flatMap_cons, cut]
    by_cases hov : record.Of key owner ∧ record.range.Overlaps range
    case neg =>
      have hns : ¬ (record.Of key owner ∧ record.Splits range) := fun hs =>
        hov ⟨hs.1, hs.2.1.trans range.nonempty, range.nonempty.trans hs.2.2⟩
      rw [if_neg hns, Nat.add_zero] at h ⊢
      rw [if_neg hov, if_neg hov, ih splits h]
      rfl
    case pos =>
      rw [if_pos hov, if_pos hov]
      by_cases hs : record.Splits range
      case pos =>
        rw [if_pos ⟨hov.1, hs⟩] at h ⊢
        obtain ⟨n, rfl⟩ : ∃ n, splits = n + 1 := ⟨splits - 1, by omega⟩
        rw [dif_pos hs]
        dsimp only
        rw [ih n (by omega)]
        simp [Lib.Interval.diff, hs.1, hs.2]
      case neg =>
        rw [if_neg fun h => hs h.2, Nat.add_zero] at h ⊢
        rw [dif_neg hs]
        by_cases hstar : range.start ≤ record.range.start
        · rw [dif_pos hstar]
          by_cases hstop : record.range.stop ≤ range.stop
          · rw [dif_pos hstop, ih splits h]
            simp [Lib.Interval.diff, hstar.not_gt, hstop.not_gt]
          · rw [dif_neg hstop, ih splits h]
            simp [Lib.Interval.diff, hstar.not_gt, not_le.mp hstop]
        · have hstop : ¬ range.stop < record.range.stop := fun hlt => hs ⟨not_le.mp hstar, hlt⟩
          rw [dif_neg hstar, ih splits h]
          simp [Lib.Interval.diff, not_le.mp hstar, hstop]

lemma of_mem_cut {piece : RecordLock} (h : piece ∈ cut key owner range record) :
    piece.key = record.key ∧ piece.owner = record.owner ∧ piece.type = record.type := by
  unfold cut at h
  split_ifs at h
  · obtain ⟨p, -, rfl⟩ := List.mem_map.mp h
    exact ⟨rfl, rfl, rfl⟩
  · obtain rfl := List.mem_singleton.mp h
    exact ⟨rfl, rfl, rfl⟩

lemma mem_cut : (∃ piece ∈ cut key owner range record, b ∈ piece.range) ↔
    b ∈ record.range ∧ ¬ (record.Of key owner ∧ b ∈ range) := by
  unfold cut
  split_ifs with h
  · have hdiff := Lib.Interval.mem_diff (b := b) h.2
    simp only [List.mem_map, exists_exists_and_eq_and, h.1, true_and]
    exact hdiff
  · have hnot : b ∈ record.range → ¬ (record.Of key owner ∧ b ∈ range) := fun hb hn =>
      h ⟨hn.1, Lib.Interval.overlaps_iff.mpr ⟨b, hb, hn.2⟩⟩
    simpa using hnot

lemma subset_of_mem_cut {piece : RecordLock} (h : piece ∈ cut key owner range record)
    (hb : b ∈ piece.range) : b ∈ record.range := (mem_cut.mp ⟨piece, h, hb⟩).1

lemma holds_flatMap_cut : Holds (records.flatMap (cut key owner range)) key' owner' b type ↔
    Holds records key' owner' b type ∧ ¬ (key' = key ∧ owner' = owner ∧ b ∈ range) := by
  constructor
  · rintro ⟨piece, hp, ⟨rfl, rfl⟩, rfl, hb⟩
    obtain ⟨record, hr, hp⟩ := List.mem_flatMap.mp hp
    obtain ⟨hk, ho, ht⟩ := of_mem_cut hp
    obtain ⟨hb', hn⟩ := mem_cut.mp ⟨piece, hp, hb⟩
    exact ⟨⟨record, hr, ⟨hk.symm, ho.symm⟩, ht.symm, hb'⟩,
      fun h => hn ⟨⟨hk.symm.trans h.1, ho.symm.trans h.2.1⟩, h.2.2⟩⟩
  · rintro ⟨⟨record, hr, ⟨rfl, rfl⟩, rfl, hb⟩, hn⟩
    obtain ⟨piece, hp, hb'⟩ := mem_cut.mpr ⟨hb, fun h => hn ⟨h.1.1, h.1.2, h.2⟩⟩
    obtain ⟨hk, ho, ht⟩ := of_mem_cut hp
    exact ⟨piece, List.mem_flatMap.mpr ⟨record, hr, hp⟩, ⟨hk, ho⟩, ht, hb'⟩

lemma Disjoint.flatMap_cut (h : Disjoint records) :
    Disjoint (records.flatMap (cut key owner range)) := by
  refine List.pairwise_flatMap.mpr ⟨fun record _ => ?_, h.imp fun hxy x hx y hy hk ho hov => ?_⟩
  · unfold cut
    split_ifs
    · rw [List.pairwise_map]
      exact (Lib.Interval.diff_pairwise _ _).imp fun hxy _ _ => hxy
    · simp
  · obtain ⟨hkx, hox, -⟩ := of_mem_cut hx
    obtain ⟨hky, hoy, -⟩ := of_mem_cut hy
    refine hxy (hkx.symm.trans (hk.trans hky)) (hox.symm.trans (ho.trans hoy)) ?_
    exact ((hov.of_subset fun b => subset_of_mem_cut hx).symm.of_subset fun b =>
      subset_of_mem_cut hy).symm

/-! ### `coalesce` -/

lemma coalesceInto_sublist : (coalesceInto key owner left rest).2.Sublist rest := by
  induction rest generalizing left with
  | nil => exact .slnil
  | cons right rest ih =>
    unfold coalesceInto
    split
    · exact ih.cons _
    · exact ih.cons_cons _

/-- The bytes of the records stay where they are when `left` takes in the records it touches. -/
lemma holds_coalesceInto (hleft : left.Of key owner) :
    Holds ((coalesceInto key owner left rest).1 :: (coalesceInto key owner left rest).2)
      key' owner' b type ↔ Holds (left :: rest) key' owner' b type := by
  induction rest generalizing left with
  | nil => rfl
  | cons right rest ih =>
    unfold coalesceInto
    split
    case isTrue h =>
      have hhull := Lib.Interval.mem_hull (b := b) h.2.2
      have hof : left.Of key' owner' ↔ right.Of key' owner' := by
        simp [RecordLock.Of, hleft.1, hleft.2, h.1.1, h.1.2]
      refine Iff.trans (ih hleft) ?_
      simp only [holds_cons, RecordLock.Of, hhull, h.2.1] at hof ⊢
      tauto
    case isFalse =>
      have hih := ih hleft
      rw [holds_cons, holds_cons] at hih
      rw [holds_cons, holds_cons, holds_cons, holds_cons, or_left_comm, hih, or_left_comm]

lemma Disjoint.coalesceInto (hleft : left.Of key owner) (h : Disjoint (left :: rest)) :
    Disjoint ((coalesceInto key owner left rest).1 :: (coalesceInto key owner left rest).2) := by
  induction rest generalizing left with
  | nil => exact h
  | cons right rest ih =>
    obtain ⟨hl, hr, hrest⟩ : (∀ y ∈ right :: rest, left.key = y.key → left.owner = y.owner →
        ¬ left.range.Overlaps y.range) ∧ (∀ y ∈ rest, right.key = y.key → right.owner = y.owner →
        ¬ right.range.Overlaps y.range) ∧ Disjoint rest := by
      obtain ⟨hl, h⟩ := List.pairwise_cons.mp h
      exact ⟨hl, List.pairwise_cons.mp h⟩
    unfold Vfs.coalesceInto
    split
    case isTrue ht =>
      refine ih hleft (List.pairwise_cons.mpr ⟨fun y hy hk ho hov => ?_, hrest⟩)
      obtain ⟨b, hb, hby⟩ := Lib.Interval.overlaps_iff.mp hov
      rcases (Lib.Interval.mem_hull ht.2.2).mp hb with hb | hb
      · exact hl y (by simp [hy]) hk ho (Lib.Interval.overlaps_iff.mpr ⟨b, hb, hby⟩)
      · refine hr y hy ?_ ?_ (Lib.Interval.overlaps_iff.mpr ⟨b, hb, hby⟩)
        · exact ht.1.1.trans (hleft.1.symm.trans hk)
        · exact ht.1.2.trans (hleft.2.symm.trans ho)
    case isFalse =>
      have hlr : Disjoint (left :: rest) :=
        List.pairwise_cons.mpr ⟨fun y hy => hl y (by simp [hy]), hrest⟩
      have hih := ih hleft hlr
      refine List.pairwise_cons.mpr ⟨fun y hy hk ho hov => ?_, List.pairwise_cons.mpr
        ⟨fun y hy => hr y (coalesceInto_sublist.subset hy), (List.pairwise_cons.mp hih).2⟩⟩
      rcases List.mem_cons.mp hy with rfl | hy
      · -- every byte of the grown record was in `left` or in a record of `rest`
        obtain ⟨b, hb, hby⟩ := Lib.Interval.overlaps_iff.mp hov
        obtain ⟨x, hx, hxof, -, hbx⟩ := (holds_coalesceInto hleft).mp
          (holds_cons.mpr (.inl ⟨⟨hk, ho⟩, rfl, hb⟩))
        rcases List.mem_cons.mp hx with rfl | hx
        · exact hl y (by simp) hxof.1 hxof.2 (Lib.Interval.overlaps_iff.mpr ⟨b, hbx, hby⟩)
        · exact hr x hx hxof.1.symm hxof.2.symm (Lib.Interval.overlaps_iff.mpr ⟨b, hby, hbx⟩)
      · exact (List.pairwise_cons.mp hih).1 y hy hk ho hov

lemma holds_coalesceFrom {n : ℕ} : Holds (coalesceFrom key owner n records) key' owner' b type ↔
    Holds records key' owner' b type := by
  induction n generalizing records with
  | zero => rfl
  | succ n ih =>
    cases records with
    | nil => rfl
    | cons left rest =>
      unfold coalesceFrom
      split
      case isTrue hleft => rw [← holds_coalesceInto hleft, holds_cons, holds_cons, ih]
      case isFalse => rw [holds_cons, holds_cons, ih]

lemma coalesceFrom_disjoint {n : ℕ} (h : Disjoint records) :
    Disjoint (coalesceFrom key owner n records) := by
  induction n generalizing records with
  | zero => exact h
  | succ n ih =>
    have hcons : ∀ {left : RecordLock} {rest : List RecordLock}, Disjoint (left :: rest) →
        Disjoint (left :: coalesceFrom key owner n rest) := by
      intro left rest h
      obtain ⟨hl, hrest⟩ := List.pairwise_cons.mp h
      refine List.pairwise_cons.mpr ⟨fun y hy hk ho hov => ?_, ih hrest⟩
      obtain ⟨b, hb, hby⟩ := Lib.Interval.overlaps_iff.mp hov
      obtain ⟨x, hx, hxof, -, hbx⟩ := holds_coalesceFrom.mp
        (⟨y, hy, ⟨hk.symm, ho.symm⟩, rfl, hby⟩ : Holds _ left.key left.owner b y.type)
      exact hl x hx hxof.1.symm hxof.2.symm (Lib.Interval.overlaps_iff.mpr ⟨b, hb, hbx⟩)
    cases records with
    | nil => exact h
    | cons left rest =>
      unfold coalesceFrom
      split
      case isTrue hleft => exact hcons (h.coalesceInto hleft)
      case isFalse => exact hcons h

/-- **`vfs_record_lock_apply` is an assignment to the byte map**, or it runs out of memory and leaves
the list alone. The split nodes it allocates suffice. -/
theorem recordLockApply_spec {m : ByteMap} (hd : Disjoint records) (hr : Refines records m)
    (memory : ℕ) (key : FileKey) (owner : ℕ) (type : Option LockType) (range : Lib.Interval ℕ) :
    recordLockApply memory key owner type range records = some (.error .noMemory, records) ∨
    ∃ records', recordLockApply memory key owner type range records = some (.ok (), records') ∧
      Refines records' (m.assign key owner type range) ∧ Disjoint records' := by
  have hcut := removeOwnerRange_eq key owner range records _ le_rfl
  have hd' : Disjoint (records.flatMap (cut key owner range)) := hd.flatMap_cut
  have hnone : Refines (records.flatMap (cut key owner range)) (m.assign key owner none range) := by
    intro key' owner' b ty
    rw [holds_flatMap_cut, ← hr]
    unfold ByteMap.assign
    split_ifs with h <;> simp [h]
  unfold recordLockApply
  dsimp only
  split
  case isTrue => exact .inl rfl
  case isFalse =>
    cases type with
    | none => exact .inr ⟨_, by rw [hcut]; rfl, hnone, hd'⟩
    | some type =>
      dsimp only
      split
      case isTrue => exact .inl rfl
      case isFalse =>
        refine .inr ⟨coalesce key owner (⟨key, owner, type, range⟩ :: records.flatMap (cut key owner range)),
          by rw [hcut]; rfl, fun key' owner' b ty => ?_, coalesceFrom_disjoint ?_⟩
        · rw [coalesce, holds_coalesceFrom, holds_cons, ← hnone]
          unfold ByteMap.assign
          split_ifs with h
          · obtain ⟨rfl, rfl, hb⟩ := h
            simp [RecordLock.Of, hb]
          · have : ¬ (RecordLock.Of ⟨key, owner, type, range⟩ key' owner' ∧ type = ty ∧ b ∈ range) :=
              fun hn => h ⟨hn.1.1.symm, hn.1.2.symm, hn.2.2⟩
            simp [this]
        · -- what is left of the owner's records is outside the range
          refine List.pairwise_cons.mpr ⟨fun y hy hk ho hov => ?_, hd'⟩
          obtain ⟨b, hb, hby⟩ := Lib.Interval.overlaps_iff.mp hov
          have := holds_flatMap_cut.mp
            (⟨y, hy, ⟨hk.symm, ho.symm⟩, rfl, hby⟩ : Holds _ key owner b y.type)
          exact this.2 ⟨rfl, rfl, hb⟩

/-! ### Locks of several owners -/

lemma compatible_iff : Compatible records ↔ ∀ key owner owner' b type type', owner ≠ owner' →
    Holds records key owner b type → Holds records key owner' b type' →
    type = .rdlck ∧ type' = .rdlck := by
  constructor
  · rintro h key owner owner' b type type' hne ⟨x, hx, ⟨rfl, rfl⟩, rfl, hbx⟩ ⟨y, hy, ⟨hk, rfl⟩, rfl, hby⟩
    exact h x hx y hy hk.symm hne (Lib.Interval.overlaps_iff.mpr ⟨b, hbx, hby⟩)
  · intro h x hx y hy hk hne hov
    obtain ⟨b, hbx, hby⟩ := Lib.Interval.overlaps_iff.mp hov
    exact h x.key x.owner y.owner b x.type y.type hne ⟨x, hx, ⟨rfl, rfl⟩, rfl, hbx⟩
      ⟨y, hy, ⟨hk.symm, rfl⟩, rfl, hby⟩

lemma Compatible.assign {request : LockRequest} {records' : List RecordLock} {m : ByteMap}
    (h : Compatible records) (hr : Refines records m)
    (hr' : Refines records' (m.assign request.key request.owner request.type request.range))
    (hno : conflict request records = none) : Compatible records' := by
  rw [compatible_iff] at h ⊢
  have hnew : ∀ {owner b type type'}, request.type = some type → b ∈ request.range →
      owner ≠ request.owner → Holds records request.key owner b type' →
      type = .rdlck ∧ type' = .rdlck := by
    rintro owner b type type' ht hb hne ⟨x, hx, ⟨hk, rfl⟩, rfl, hbx⟩
    simp only [conflict, ht, Option.bind_some, List.find?_eq_none, decide_eq_true_eq] at hno
    have := hno x hx
    simp only [RecordLock.Conflicts, hk, true_and, hne, ne_eq, not_false_eq_true,
      Lib.Interval.overlaps_iff.mpr ⟨b, hbx, hb⟩] at this
    revert this
    cases type <;> cases x.type <;> simp
  intro key owner owner' b type type' hne h₁ h₂
  rw [← hr'] at h₁ h₂
  unfold ByteMap.assign at h₁ h₂
  split_ifs at h₁ h₂ with c₁ c₂ c₂
  · exact absurd (c₁.2.1.trans c₂.2.1.symm) hne
  · obtain ⟨rfl, rfl, hb⟩ := c₁
    exact hnew h₁ hb hne.symm ((hr _ _ _ _).mp h₂)
  · obtain ⟨rfl, rfl, hb⟩ := c₂
    exact (hnew h₂ hb hne ((hr _ _ _ _).mp h₁)).symm
  · exact h key owner owner' b type type' hne ((hr _ _ _ _).mp h₁) ((hr _ _ _ _).mp h₂)

end

/-! ## Runs of record-lock requests -/

open Lib (System)

structure LockState where
  records : List RecordLock
  /-- the request that a blocked task will try again -/
  blocked : ℕ → Option LockRequest
  /-- the kernel has panicked -/
  panicked : Bool
  /-- what the granted requests add up to -/
  granted : ByteMap

structure PassContext where
  retired : Bool
  signal : Bool
  memory : ℕ

inductive LockEvent
  /-- `fcntl` with `F_GETLK`, `F_SETLK` or `F_SETLKW` by a task of the process `owner` -/
  | request (task owner : ℕ) (handle : LockHandle) (command : Command) (flock : Flock)
      (context : PassContext)
  /-- a blocked task runs again -/
  | retry (task : ℕ) (context : PassContext)

namespace LockState

/-- One pass of the loop of `vfs_record_lock_operation` in `task`. -/
def pass (s : LockState) (task : ℕ) (command : Command) (request : LockRequest)
    (context : PassContext) : LockState :=
  match recordLockPass context.retired context.signal context.memory command request s.records with
  | none => { s with panicked := true }
  | some (.wait, records) =>
    { s with records := records, blocked := Function.update s.blocked task (some request) }
  | some (.done (.ok ()), records) =>
    { s with
      records := records
      blocked := Function.update s.blocked task none
      granted := s.granted.assign request.key request.owner request.type request.range }
  | some (_, records) =>
    { s with records := records, blocked := Function.update s.blocked task none }

def step (s : LockState) : LockEvent → Option LockState
  | .request task owner handle command flock context =>
    match s.blocked task, lockRequest handle owner flock with
    | none, .ok request => some (s.pass task command request context)
    | none, .error _ => some s
    | some _, _ => none
  | .retry task context => (s.blocked task).map fun request => s.pass task .setlkw request context

def initial : LockState := ⟨[], fun _ => none, false, fun _ _ _ => none⟩

end LockState

def lockSystem : System LockState LockEvent := ⟨(· = LockState.initial), LockState.step⟩

namespace LockState

/-- The list of records stands for what was granted, without overlap and without conflict. -/
structure Inv (s : LockState) : Prop where
  running : s.panicked = false
  refines : Refines s.records s.granted
  disjoint : Disjoint s.records
  compatible : Compatible s.records

lemma initial_inv : initial.Inv where
  running := rfl
  refines key owner b type := by simp [initial, Holds]
  disjoint := .nil
  compatible x hx := by simp [initial] at hx

lemma recordLockPass_cases (context : PassContext) (command : Command) (request : LockRequest)
    {records : List RecordLock} {m : ByteMap} (hd : Disjoint records) (hr : Refines records m) :
    (∃ result, recordLockPass context.retired context.signal context.memory command request records =
      some (result, records) ∧ ∀ status, result = .done status → status ≠ .ok ()) ∨
    ∃ records', recordLockPass context.retired context.signal context.memory command request records =
      some (.done (.ok ()), records') ∧ conflict request records = none ∧ Disjoint records' ∧
      Refines records' (m.assign request.key request.owner request.type request.range) := by
  have happ := recordLockApply_spec hd hr context.memory request.key request.owner request.type
    request.range
  unfold recordLockPass
  split
  case isTrue => exact .inl ⟨_, rfl, by rintro _ ⟨⟩; simp⟩
  case isFalse =>
    have hgran : conflict request records = none →
        (∃ result, (recordLockApply context.memory request.key request.owner request.type
          request.range records).map (fun out => (Pass.done out.1, out.2)) =
          some (result, records) ∧ ∀ status, result = .done status → status ≠ .ok ()) ∨
        ∃ records', (recordLockApply context.memory request.key request.owner request.type
          request.range records).map (fun out => (Pass.done out.1, out.2)) =
          some (.done (.ok ()), records') ∧ conflict request records = none ∧ Disjoint records' ∧
          Refines records' (m.assign request.key request.owner request.type request.range) := by
      intro hno
      rcases happ with he | ⟨records', he, hr', hd'⟩
      · exact .inl ⟨.done (.error .noMemory), by rw [he]; rfl, by rintro _ ⟨⟩; simp⟩
      · exact .inr ⟨records', by rw [he]; rfl, hno, hd', hr'⟩
    split
    case h_1 => exact .inl ⟨_, rfl, by rintro _ ⟨⟩⟩
    case h_2 => exact .inl ⟨_, rfl, by rintro _ ⟨⟩⟩
    case h_3 hno => exact hgran hno
    case h_4 => exact .inl ⟨_, rfl, by rintro _ ⟨⟩; simp⟩
    case h_5 =>
      split
      · exact .inl ⟨_, rfl, by rintro _ ⟨⟩; simp⟩
      · exact .inl ⟨_, rfl, by rintro _ ⟨⟩⟩

lemma Inv.pass {s : LockState} (h : s.Inv) (task : ℕ) (command : Command) (request : LockRequest)
    (context : PassContext) : (s.pass task command request context).Inv := by
  unfold LockState.pass
  rcases recordLockPass_cases context command request
    h.disjoint h.refines with ⟨result, he, hres⟩ | ⟨records', he, hno, hd, hr⟩
  · rw [he]
    match result, hres with
    | .wait, _ => exact { h with }
    | .described _, _ => exact { h with }
    | .done (.error _), _ => exact { h with }
    | .done (.ok ()), hres => exact absurd rfl (hres _ rfl)
  · rw [he]
    exact ⟨h.running, hr, hd, h.compatible.assign h.refines hr hno⟩

lemma Inv.step {s s' : LockState} {e : LockEvent} (h : s.Inv) (hs : s.step e = some s') : s'.Inv := by
  cases e with
  | request task owner handle command flock context =>
    simp only [LockState.step] at hs
    split at hs
    case h_1 request _ _ =>
      cases hs
      exact h.pass task command request context
    case h_2 =>
      cases hs
      exact h
    case h_3 => simp at hs
  | retry task context =>
    obtain ⟨request, -, rfl⟩ := Option.map_eq_some_iff.mp hs
    exact h.pass task .setlkw request context

end LockState

/-- **The record list refines the byte map of the granted requests** in every run: the records of one
owner on one file are disjoint, different owners share read locks only, the next request is an
assignment to the map or fails for want of memory without any change, and the kernel does not panic. -/
theorem records_refine {s : LockState} (h : lockSystem.Reachable s) :
    s.panicked = false ∧ Refines s.records s.granted ∧ Disjoint s.records ∧ Compatible s.records ∧
    ∀ memory key owner type range,
      recordLockApply memory key owner type range s.records = some (.error .noMemory, s.records) ∨
      ∃ records', recordLockApply memory key owner type range s.records = some (.ok (), records') ∧
        Refines records' (s.granted.assign key owner type range) := by
  have hi : s.Inv := h.invariant (fun _ h => h ▸ LockState.initial_inv) fun _ _ _ hi hs => hi.step hs
  refine ⟨hi.running, hi.refines, hi.disjoint, hi.compatible, fun memory key owner type range => ?_⟩
  rcases recordLockApply_spec hi.disjoint hi.refines memory key owner type range with
    he | ⟨records', he, hr, -⟩
  · exact .inl he
  · exact .inr ⟨records', he, hr⟩

def sampleFile : LockHandle := ⟨false, .file, ⟨0, .ofWords 0 0 0 0⟩, true, true, 0, 0⟩

/-- A process locks the whole file for writing and unlocks the bytes 10 to 19; the request of another
process for the whole file waits. -/
def splitRun : List LockEvent :=
  [.request 1 1 sampleFile .setlk ⟨1, 0, 0, 0, 0⟩ ⟨false, false, 2⟩,
    .request 1 1 sampleFile .setlk ⟨2, 0, 20, -10, 0⟩ ⟨false, false, 2⟩,
    .request 2 2 sampleFile .setlkw ⟨0, 0, 0, 0, 0⟩ ⟨false, false, 2⟩]

/-- The state after `splitRun`. -/
def splitState : LockState := lockSystem.replay LockState.initial splitRun

theorem records_refine_split :
    splitState.panicked = false ∧ Refines splitState.records splitState.granted ∧
    Disjoint splitState.records ∧ Compatible splitState.records ∧
    splitState.records.map (fun record => (record.range.start, record.range.stop)) =
      [(0, 10), (20, uint64Max)] ∧ (splitState.blocked 2).isSome := by
  obtain ⟨h₁, h₂, h₃, h₄, -⟩ := records_refine (System.replay_reachable (.init rfl) splitRun)
  exact ⟨h₁, h₂, h₃, h₄, by decide, by decide⟩

/-! ## Who takes record locks away -/

open Function (update)

structure FdTask where
  tgid : ℕ
  /-- `kind == TASK_PROCESS && tid == tgid` -/
  leader : Bool
  fsContext : Option ℕ
  deriving DecidableEq, Repr

/-- `struct vfs_context`: its references and the handles of its descriptors -/
structure FdContext where
  references : ℕ
  entries : List (Option ℕ)
  deriving DecidableEq, Repr

structure FdState where
  task : ℕ → Option FdTask
  context : ℕ → Option FdContext
  handle : ℕ → LockHandle
  records : List RecordLock
  blocked : ℕ → Option LockRequest
  /-- what the processes were granted and have not given back -/
  held : ByteMap

namespace ByteMap

def close (m : ByteMap) (owner : ℕ) (handle : LockHandle) : ByteMap := fun key' owner' b =>
  if !handle.pipe ∧ key' = handle.key ∧ owner' = owner then none else m key' owner' b

def exit (m : ByteMap) (owner : ℕ) : ByteMap := fun key' owner' b =>
  if owner' = owner then none else m key' owner' b

end ByteMap

def vfsInitialFdCapacity : ℕ := 16

/-- The empty table of `vfs_fd_table_initialize`. -/
def fdTableInitialize : List (Option ℕ) := List.replicate vfsInitialFdCapacity none

/-- `vfs_fd_reserve` with `minimum` 3 -/
def fdReserve (entries : List (Option ℕ)) : ℕ × List (Option ℕ) :=
  match (entries.drop 3).findIdx? (·.isNone) with
  | some i => (3 + i, entries)
  | none => (entries.length, entries ++ List.replicate entries.length none)

namespace FdState

/-- The handles that `vfs_fd_table_destroy` closes. -/
def tableHandles (s : FdState) (context : FdContext) : List LockHandle :=
  ((context.entries.drop 3).filterMap id).map s.handle

/-- `vfs_context_release` in a task of the process `current`. -/
def contextRelease (s : FdState) (current : ℕ) (id : ℕ) : FdState :=
  match s.context id with
  | none => s
  | some context =>
    if context.references = 1 then
      { s with
        context := update s.context id none
        records := (s.tableHandles context).foldl (fun l handle => recordLockClose current handle l)
          s.records }
    else
      { s with context := update s.context id
                (some { context with references := context.references - 1 }) }

/-- The handles that the exit of the task closes: those of its table if it has the last reference. -/
def lastHandles (s : FdState) (task : FdTask) : List LockHandle :=
  match task.fsContext.bind s.context with
  | none => []
  | some context => if context.references = 1 then s.tableHandles context else []

/-- `task_release_resources` of the task `t`, run by a task of the process `current`. -/
def taskReleaseResources (s : FdState) (current t : ℕ) : FdState :=
  match s.task t with
  | none => s
  | some task =>
    let held := if task.leader then s.held.exit task.tgid else s.held
    let held := (s.lastHandles task).foldl (fun m handle => m.close task.tgid handle) held
    -- `vfs_record_lock_cancel_task` and `vfs_record_lock_task_cleanup`
    let s := { s with
      blocked := update s.blocked t none
      records := if task.leader then recordLockTaskCleanup task.tgid s.records else s.records }
    let s := match task.fsContext with
      | none => s
      | some id => s.contextRelease current id
    { s with task := update s.task t none, held := held }

/-! ### Steps -/

/-- One pass of the loop of `vfs_record_lock_operation` in the task `t`. -/
def pass (s : FdState) (t : ℕ) (command : Command) (request : LockRequest) (context : PassContext) :
    FdState :=
  match recordLockPass context.retired context.signal context.memory command request s.records with
  | none => s
  | some (.wait, records) =>
    { s with records := records, blocked := update s.blocked t (some request) }
  | some (.done (.ok ()), records) =>
    { s with
      records := records
      blocked := update s.blocked t none
      held := s.held.assign request.key request.owner request.type request.range }
  | some (_, records) => { s with records := records, blocked := update s.blocked t none }

/-- The handle of a descriptor of the task: `vfs_fd_get`. -/
def fdGet (s : FdState) (task : FdTask) (descriptor : ℕ) : Option ℕ :=
  (task.fsContext.bind s.context).bind fun context =>
    if descriptor < 3 then none else (context.entries[descriptor]?).join

/-- The context `id` gets the descriptor table `entries`. -/
def setEntries (s : FdState) (id : ℕ) (entries : List (Option ℕ)) : FdState :=
  { s with context := update s.context id
            ((s.context id).map fun context => { context with entries := entries }) }

/-- `task_fork`: the child `t` gets the context `id`, with the descriptors of its parent. -/
def fork (s : FdState) (parent : FdContext) (t id : ℕ) : FdState :=
  { s with
    task := update s.task t (some ⟨t, true, some id⟩)
    context := update s.context id (some ⟨1, parent.entries⟩) }

end FdState

inductive FdEvent
  /-- `create_task` of a thread of the process of `cur` -/
  | createThread (cur t : ℕ)
  /-- `create_task` of a process, with an empty table -/
  | createProcess (t id : ℕ)
  | fork (cur t id : ℕ)
  /-- a `task_fork` that fails after `vfs_context_fork`: `task_abort_creation` of the child -/
  | forkFails (cur t id : ℕ)
  /-- `vfs_fd_open` with the new handle `handle` -/
  | open_ (cur handle : ℕ)
  /-- reads, writes, seeks and `F_SETFL` change the offset, the size and the flags of a handle -/
  | touch (handle : ℕ) (openRead openWrite : Bool) (offset size : UInt32)
  /-- `vfs_fd_close` -/
  | close (cur descriptor : ℕ)
  /-- `fcntl` with `F_GETLK`, `F_SETLK` or `F_SETLKW` -/
  | fcntl (cur descriptor : ℕ) (command : Command) (flock : Flock) (context : PassContext)
  /-- a blocked `F_SETLKW` runs its loop again -/
  | retry (cur : ℕ) (context : PassContext)
  /-- the task `t` is finished while `cur` is `current_task()`: it exits itself, `cur` kills it, or the
  scheduler of the CPU of `cur` meets it -/
  | finish (cur t : ℕ)

namespace FdState

def step (s : FdState) : FdEvent → Option FdState
  | .createThread cur t => do
    let task ← s.task cur
    let id ← task.fsContext
    let context ← s.context id
    if s.task t = none then
      some { s with
        task := update s.task t (some { task with leader := false })
        context := update s.context id
          (some { context with references := context.references + 1 }) }
    else none
  | .createProcess t id =>
    if s.task t = none ∧ s.context id = none then
      some { s with
        task := update s.task t (some ⟨t, true, some id⟩)
        context := update s.context id (some ⟨1, fdTableInitialize⟩) }
    else none
  | .fork cur t id => do
    let parent ← (← s.task cur).fsContext.bind s.context
    if s.task t = none ∧ s.context id = none then some (s.fork parent t id) else none
  | .forkFails cur t id => do
    let task ← s.task cur
    let parent ← task.fsContext.bind s.context
    if s.task t = none ∧ s.context id = none then
      some ((s.fork parent t id).taskReleaseResources task.tgid t)
    else none
  | .open_ cur handle => do
    let id ← (← s.task cur).fsContext
    let context ← s.context id
    let (descriptor, entries) := fdReserve context.entries
    some (s.setEntries id (entries.set descriptor (some handle)))
  | .touch handle openRead openWrite offset size =>
    some { s with handle := update s.handle handle
                    { s.handle handle with
                      openRead := openRead, openWrite := openWrite, offset := offset, size := size } }
  | .close cur descriptor => do
    let task ← s.task cur
    let id ← task.fsContext
    let context ← s.context id
    let handle ← s.fdGet task descriptor
    let s := s.setEntries id (context.entries.set descriptor none)
    some { s with
      records := recordLockClose task.tgid (s.handle handle) s.records
      held := s.held.close task.tgid (s.handle handle) }
  | .fcntl cur descriptor command flock context => do
    let task ← s.task cur
    let handle ← s.fdGet task descriptor
    if (s.blocked cur).isSome then none
    else
      match lockRequest (s.handle handle) task.tgid flock with
      | .error _ => some s
      | .ok request => some (s.pass cur command request context)
  | .retry cur context => do
    let _ ← s.task cur
    let request ← s.blocked cur
    some (s.pass cur .setlkw request context)
  | .finish cur t => do
    let current ← s.task cur
    let _ ← s.task t
    some (s.taskReleaseResources current.tgid t)

structure Init (s : FdState) : Prop where
  records : s.records = []
  held : s.held = fun _ _ _ => none

/-- **No lock is lost**: what a process holds is in the list of records. -/
def Keeps (s : FdState) : Prop :=
  ∀ key owner b type, s.held key owner b = some type → Holds s.records key owner b type

/-- The process `current` releases the table of a task of another process only if it holds no lock on
a file that is open there. -/
def SparesTable (s : FdState) (current : ℕ) (task : FdTask) : Prop :=
  current = task.tgid ∨ ∀ handle ∈ s.lastHandles task, !handle.pipe →
    ∀ b, s.held handle.key current b = none

def Spares (s : FdState) : FdEvent → Prop
  | .finish cur t => ∀ current task, s.task cur = some current → s.task t = some task →
      s.SparesTable current.tgid task
  | .forkFails cur t id => ∀ current parent, s.task cur = some current →
      current.fsContext.bind s.context = some parent →
      (s.fork parent t id).SparesTable current.tgid ⟨t, true, some id⟩
  | _ => True

end FdState

def fdSystem : System FdState FdEvent := ⟨FdState.Init, FdState.step⟩

namespace FdState

variable {s : FdState} {key : FileKey} {owner b : ℕ} {type : LockType}

/-! ### The exit of a task -/

variable {handles : List LockHandle}
variable {current t : ℕ}

lemma holds_closeAll {records : List RecordLock} :
    Holds (handles.foldl (fun l handle => recordLockClose current handle l) records) key owner b type ↔
      Holds records key owner b type ∧
        ∀ handle ∈ handles, ¬ (!handle.pipe ∧ key = handle.key ∧ owner = current) := by
  induction handles generalizing records with
  | nil => simp
  | cons handle handles ih => rw [List.foldl_cons, ih, holds_recordLockClose, List.forall_mem_cons, and_assoc]

lemma closeAll_sublist {records : List RecordLock} :
    (handles.foldl (fun l handle => recordLockClose current handle l) records).Sublist records := by
  induction handles generalizing records with
  | nil => exact .refl _
  | cons handle handles ih => exact ih.trans recordLockClose_sublist

lemma held_closeAll {m : ByteMap} :
    (handles.foldl (fun m handle => m.close current handle) m) key owner b = some type ↔
      m key owner b = some type ∧
        ∀ handle ∈ handles, ¬ (!handle.pipe ∧ key = handle.key ∧ owner = current) := by
  induction handles generalizing m with
  | nil => simp
  | cons handle handles ih =>
    rw [List.foldl_cons, ih, List.forall_mem_cons, ← and_assoc]
    refine and_congr_left fun _ => ?_
    unfold ByteMap.close
    split_ifs with h
    · simp [h]
    · exact (and_iff_left h).symm

/-- The records after the exit of a task: the leader's are gone, and so are those that the process
`current` has on the files of a table that is released. -/
lemma holds_taskReleaseResources {task : FdTask} (ht : s.task t = some task) :
    Holds (s.taskReleaseResources current t).records key owner b type ↔
      Holds s.records key owner b type ∧ (task.leader → owner ≠ task.tgid) ∧
        ∀ handle ∈ s.lastHandles task, ¬ (!handle.pipe ∧ key = handle.key ∧ owner = current) := by
  have hcln : Holds (if task.leader then recordLockTaskCleanup task.tgid s.records else s.records)
      key owner b type ↔ Holds s.records key owner b type ∧ (task.leader → owner ≠ task.tgid) := by
    cases task.leader
    · simp
    · simp [holds_recordLockTaskCleanup]
  rw [← and_assoc, ← hcln]
  unfold taskReleaseResources lastHandles
  rw [ht]
  dsimp only
  cases hid : task.fsContext with
  | none => simp
  | some id =>
    cases hc : s.context id with
    | none => simp [contextRelease, hc]
    | some context =>
      by_cases href : context.references = 1
      · simp only [contextRelease, hc, href, if_true, Option.bind_some]
        exact holds_closeAll
      · simp [contextRelease, hc, href]

lemma held_taskReleaseResources {task : FdTask} (ht : s.task t = some task) :
    (s.taskReleaseResources current t).held key owner b = some type ↔
      s.held key owner b = some type ∧ (task.leader → owner ≠ task.tgid) ∧
        ∀ handle ∈ s.lastHandles task, ¬ (!handle.pipe ∧ key = handle.key ∧ owner = task.tgid) := by
  unfold taskReleaseResources
  rw [ht]
  dsimp only
  rw [held_closeAll, ← and_assoc]
  refine and_congr_left fun _ => ?_
  cases task.leader
  · simp
  · simp [ByteMap.exit, and_comm]

/-! ### The invariant -/

structure Inv (s : FdState) : Prop where
  disjoint : Disjoint s.records
  keeps : s.Keeps

lemma Init.inv (h : s.Init) : s.Inv where
  disjoint := by rw [h.records]; exact .nil
  keeps key owner b type hh := by simp [h.held] at hh

lemma taskReleaseResources_disjoint (h : Disjoint s.records) :
    Disjoint (s.taskReleaseResources current t).records := by
  have hcln : ∀ task : FdTask, Disjoint
      (if task.leader then recordLockTaskCleanup task.tgid s.records else s.records) := fun task => by
    split_ifs
    · exact h.sublist List.filter_sublist
    · exact h
  unfold taskReleaseResources
  split
  case h_1 => exact h
  case h_2 task _ =>
    dsimp only
    cases hid : task.fsContext with
    | none => exact hcln task
    | some id =>
      dsimp only [contextRelease]
      cases hc : s.context id with
      | none => exact hcln task
      | some context =>
        dsimp only
        split_ifs
        · exact (h.sublist List.filter_sublist).sublist closeAll_sublist
        · exact h.sublist closeAll_sublist
        · exact h.sublist List.filter_sublist
        · exact h

/-- **A task of another process takes a lock away exactly if its process holds one** on a file that
is open in the table it releases. -/
theorem keeps_taskReleaseResources_iff {task : FdTask} (h : s.Keeps)
    (ht : s.task t = some task) :
    (s.taskReleaseResources current t).Keeps ↔ s.SparesTable current task := by
  constructor
  · intro hk
    by_contra hn
    simp only [SparesTable, not_or, not_forall] at hn
    obtain ⟨hne, handle, hmem, hp, b, hb⟩ := hn
    obtain ⟨type, hb⟩ := Option.ne_none_iff_exists'.mp hb
    -- the exit itself gives back nothing of the process `current`
    have hheld : (s.taskReleaseResources current t).held handle.key current b = some type :=
      (held_taskReleaseResources ht).mpr ⟨hb, fun _ => hne, fun _ _ hc => hne hc.2.2⟩
    exact ((holds_taskReleaseResources ht).mp (hk _ _ _ _ hheld)).2.2 handle hmem ⟨hp, rfl, rfl⟩
  · intro hsp key owner b type hheld
    obtain ⟨hh, hl, hc⟩ := (held_taskReleaseResources ht).mp hheld
    refine (holds_taskReleaseResources ht).mpr ⟨h key owner b type hh, hl, ?_⟩
    rintro handle hmem ⟨hp, rfl, rfl⟩
    rcases hsp with rfl | hsp
    · exact hc handle hmem ⟨hp, rfl, rfl⟩
    · exact absurd ((hsp handle hmem hp b).symm.trans hh) (by simp)

lemma Inv.pass (h : s.Inv) (t : ℕ) (command : Command) (request : LockRequest)
    (context : PassContext) : (s.pass t command request context).Inv := by
  unfold FdState.pass
  rcases LockState.recordLockPass_cases context command request
    h.disjoint (refines_byteMap h.disjoint) with ⟨result, he, hres⟩ | ⟨records', he, -, hd, hr⟩
  · rw [he]
    match result, hres with
    | .wait, _ => exact ⟨h.disjoint, h.keeps⟩
    | .described _, _ => exact ⟨h.disjoint, h.keeps⟩
    | .done (.error _), _ => exact ⟨h.disjoint, h.keeps⟩
    | .done (.ok ()), hres => exact absurd rfl (hres _ rfl)
  · rw [he]
    refine ⟨hd, fun key owner b type hh => (hr key owner b type).mp ?_⟩
    dsimp only [ByteMap.assign] at hh ⊢
    split_ifs at hh ⊢
    · exact hh
    · exact (refines_byteMap h.disjoint key owner b type).mpr (h.keeps key owner b type hh)

/-- **After a step no lock is lost exactly if the step meets the condition.** -/
theorem Inv.step_iff {s' : FdState} {e : FdEvent} (h : s.Inv) (hs : s.step e = some s') :
    Disjoint s'.records ∧ (s'.Keeps ↔ s.Spares e) := by
  have htrue : ∀ {s' : FdState}, s'.Inv → Disjoint s'.records ∧ (s'.Keeps ↔ True) := fun h =>
    ⟨h.disjoint, iff_true_intro h.keeps⟩
  cases e <;> simp only [FdState.step, Option.bind_eq_bind, Option.bind_eq_some_iff] at hs
  case createThread cur t =>
    obtain ⟨task, -, id, -, context, -, hs⟩ := hs
    simp only [Option.ite_none_right_eq_some, Option.some.injEq] at hs
    obtain ⟨-, rfl⟩ := hs
    exact htrue ⟨h.disjoint, h.keeps⟩
  case createProcess t id =>
    simp only [Option.ite_none_right_eq_some, Option.some.injEq] at hs
    obtain ⟨-, rfl⟩ := hs
    exact htrue ⟨h.disjoint, h.keeps⟩
  case fork cur t id =>
    obtain ⟨task, -, parent, -, hs⟩ := hs
    simp only [Option.ite_none_right_eq_some, Option.some.injEq] at hs
    obtain ⟨-, rfl⟩ := hs
    exact htrue ⟨h.disjoint, h.keeps⟩
  case forkFails cur t id =>
    obtain ⟨task, htsk, parent, hpar, hs⟩ := hs
    simp only [Option.ite_none_right_eq_some, Option.some.injEq] at hs
    obtain ⟨-, rfl⟩ := hs
    have hfork : (s.fork parent t id).Inv := ⟨h.disjoint, h.keeps⟩
    have hchd : (s.fork parent t id).task t = some ⟨t, true, some id⟩ := by simp [FdState.fork]
    refine ⟨taskReleaseResources_disjoint hfork.disjoint,
      (keeps_taskReleaseResources_iff hfork.keeps hchd).trans ⟨fun hsp current parent' hc hp => ?_,
        fun hsp => hsp task parent htsk (Option.bind_eq_some_iff.mpr hpar)⟩⟩
    obtain rfl := Option.some.inj (htsk.symm.trans hc)
    obtain rfl := Option.some.inj ((Option.bind_eq_some_iff.mpr hpar).symm.trans hp)
    exact hsp
  case open_ cur handle =>
    obtain ⟨task, -, id, -, context, -, hs⟩ := hs
    cases hs
    exact htrue ⟨h.disjoint, h.keeps⟩
  case touch handle openRead openWrite offset size =>
    cases hs
    exact htrue ⟨h.disjoint, h.keeps⟩
  case close cur descriptor =>
    obtain ⟨task, -, id, -, context, -, handle, -, hs⟩ := hs
    cases hs
    refine htrue ⟨h.disjoint.sublist recordLockClose_sublist, fun key owner b type hh => ?_⟩
    simp only [ByteMap.close] at hh
    split_ifs at hh with hc
    exact holds_recordLockClose.mpr ⟨h.keeps key owner b type hh, hc⟩
  case fcntl cur descriptor command flock context =>
    obtain ⟨task, -, handle, -, hs⟩ := hs
    split_ifs at hs
    split at hs
    · cases hs
      exact htrue h
    · cases hs
      exact htrue (h.pass _ _ _ _)
  case retry cur context =>
    obtain ⟨task, -, request, -, hs⟩ := hs
    cases hs
    exact htrue (h.pass _ _ _ _)
  case finish cur t =>
    obtain ⟨current, hcur, task, ht, hs⟩ := hs
    cases hs
    refine ⟨taskReleaseResources_disjoint h.disjoint,
      (keeps_taskReleaseResources_iff h.keeps ht).trans ?_⟩
    simp [Spares, hcur, ht]

end FdState

/-- **No process loses a record lock** but by unlocking, closing or exiting itself, in every run in
which a table is released by its own process, or by a process that holds no lock on a file open in it;
and the first other step loses one. -/
theorem keeps_of_spares {s : FdState} (h : fdSystem.Guarded FdState.Spares s) :
    s.Keeps ∧ ∀ e s', fdSystem.step s e = some s' → (s'.Keeps ↔ s.Spares e) := by
  have hi : s.Inv := h.invariant (fun _ => FdState.Init.inv) fun s e s' hi hg hs =>
    ⟨(hi.step_iff hs).1, (hi.step_iff hs).2.mpr hg⟩
  exact ⟨hi.keeps, fun _ _ hs => (hi.step_iff hs).2⟩

def noProcesses : FdState :=
  ⟨fun _ => none, fun _ => none, fun _ => sampleFile, [], fun _ => none, fun _ _ _ => none⟩

lemma noProcesses_init : fdSystem.init noProcesses := ⟨rfl, rfl⟩

/-- A process forks, opens the file, locks it and kills its child. -/
def killsChild : List FdEvent :=
  [.createProcess 1 1, .fork 1 2 2, .open_ 1 0, .fcntl 1 3 .setlk ⟨1, 0, 0, 0, 0⟩ ⟨false, false, 1⟩,
    .finish 1 2]

theorem keeps_killsChild : (fdSystem.replay noProcesses killsChild).Keeps ∧
    (fdSystem.replay noProcesses killsChild).records.length = 1 := by
  have hquiet : fdSystem.Guarded FdState.Spares (fdSystem.replay noProcesses (killsChild.take 4)) := by
    refine System.replay_guarded (.init noProcesses_init) fun s e he => ?_
    simp only [killsChild, List.take_succ_cons, List.take_zero, List.mem_cons, List.not_mem_nil,
      or_false] at he
    rcases he with rfl | rfl | rfl | rfl <;> trivial
  have hspares : (fdSystem.replay noProcesses (killsChild.take 4)).Spares (.finish 1 2) := by
    intro current task _ ht
    have h₂ : (fdSystem.replay noProcesses (killsChild.take 4)).task 2 = some ⟨2, true, some 2⟩ := by
      decide
    obtain rfl := Option.some.inj (h₂.symm.trans ht)
    exact .inr fun handle hmem => absurd hmem (List.not_mem_nil)
  exact ⟨(keeps_of_spares (.step hquiet hspares rfl)).1, by decide⟩

/-- A process opens a file and forks, locks the file and kills its child. -/
def killsHeir : List FdEvent :=
  [.createProcess 1 1, .open_ 1 0, .fork 1 2 2, .fcntl 1 3 .setlk ⟨1, 0, 0, 0, 0⟩ ⟨false, false, 1⟩,
    .finish 1 2]

/-- The killing process loses its lock with the descriptor table of the child. -/
theorem killsHeir_loses_lock : ∃ s, fdSystem.Reachable s ∧ ¬ s.Keeps ∧ s.records = [] ∧
    s.held sampleFile.key 1 0 = some .wrlck := by
  have hrecords : (fdSystem.replay noProcesses killsHeir).records = [] := by decide
  have hheld : (fdSystem.replay noProcesses killsHeir).held sampleFile.key 1 0 = some .wrlck := by decide
  refine ⟨_, System.replay_reachable (.init noProcesses_init) killsHeir, fun h => ?_, hrecords, hheld⟩
  obtain ⟨record, hr, -⟩ := h _ _ _ _ hheld
  simp [hrecords] at hr

end PlantOS.Vfs
