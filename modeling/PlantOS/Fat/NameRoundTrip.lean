import PlantOS.Fat.Name
import PlantOS.Vfs.Defs

/-!
# Entries of a FAT directory

Reserving slots and the operations of `fat.c` on one directory. What an operation does besides (the
memory and the clusters it gets, the state of the directory it removes) is what its environment says.
-/

namespace PlantOS.Fat

open Vfs (VfsError VfsNodeType)

/-- How the first loop of `fat_reserve_entries` ends. -/
inductive Scan
  /-- a run of slots from `start` on; `atEnd`: it reaches the end marker -/
  | found (start : ℕ) (atEnd : Bool)
  /-- no run, but `run` slots at the end of the buffer are free -/
  | full (run : ℕ)
  deriving DecidableEq, Repr

/-- The first loop of `fat_reserve_entries`, from the slot `i` on. -/
def scan (d : Directory) (needed : ℕ) : ℕ → ℕ → ℕ → Bool → Scan
  | 0, _, run, _ => .full run
  | fuel + 1, i, run, atEnd =>
    let atEnd := atEnd || d.slot i 0 = 0
    let run := if atEnd || d.slot i 0 = 0xe5 then run + 1 else 0
    if run = needed then .found (i + 1 - needed) atEnd else scan d needed fuel (i + 1) run atEnd

/-- What an operation meets outside the directory. -/
structure Env where
  /-- the slots of a cluster -/
  perCluster : ℕ
  /-- the directory is the root of a volume of type 12 or 16 -/
  fixedRoot : Bool
  /-- the buffers of `fat_create` and of `fat_reserve_entries` are allocated -/
  memory : Bool
  growMemory : Bool
  /-- `fat_ensure_clusters` for so many clusters succeeds -/
  ensureClusters : ℕ → Bool
  /-- `fat_find_free_cluster` -/
  freeCluster : Option ℕ
  /-- the lists of directories take one more -/
  addDirectory : Bool
  time : UInt16
  date : UInt16
  /-- the chain of the file that is removed is sound, the directory that is removed is loaded and empty -/
  chainSound : Bool
  directoryLoaded : Bool
  directoryEmpty : Bool

/-- `INT_MAX / 32` -/
def maxSlots : ℕ := 2147483647 / 32

def fatReserveEntries (env : Env) (d : Directory) (needed : ℕ) : Option (ℕ × Directory) :=
  match scan d needed d.max 0 0 false with
  | .found start atEnd =>
    if atEnd ∧ start + needed < d.max then
      some (start, { d with slot := Function.update d.slot (start + needed)
                              (Function.update (d.slot (start + needed)) 0 0) })
    else some (start, d)
  | .full run =>
    let newMax := (d.max + needed - run + env.perCluster - 1) / env.perCluster * env.perCluster
    if env.fixedRoot ∨ newMax > maxSlots ∨ !env.growMemory ∨ !env.ensureClusters (newMax / env.perCluster) then
      none
    else some (d.max - run, ⟨newMax, fun i => if i < d.max then d.slot i else fun _ => 0⟩)

/-- The entry that `fat_create` stores, but for its name. -/
def newEntry (type : VfsNodeType) (cluster : ℕ) (time date : UInt16) : Slot := fun b =>
  if b = 11 then if type = .directory then 16 else 32
  else if b = 20 then .ofNat (cluster >>> 16) else if b = 21 then .ofNat (cluster >>> 24)
  else if b = 22 then .ofNat time.toNat else if b = 23 then .ofNat (time.toNat >>> 8)
  else if b = 24 then .ofNat date.toNat else if b = 25 then .ofNat (date.toNat >>> 8)
  else if b = 26 then .ofNat cluster else if b = 27 then .ofNat (cluster >>> 8)
  else 0

/-- `fat_create`: the directory behind it, and the slot of the new entry -/
def fatCreate (env : Env) (d : Directory) (name : List UInt8) (type : VfsNodeType) :
    Directory × Except VfsError ℕ :=
  if (fatSearch name d).isSome then (d, .error .exists_)
  else
    match fatPrepareName name d with
    | none => (d, .error .invalid)
    | some parsed =>
      if !env.memory then (d, .error .noMemory)
      else
        match fatReserveEntries env d (parsed.slots + 1) with
        | none => (d, .error .noSpace)
        | some (slot, d) =>
          match env.freeCluster with
          | none => (d, .error .noSpace)
          | some cluster =>
            if type = .directory ∧ !env.addDirectory then (d, .error .noMemory)
            else
              (fatStoreName d slot parsed (newEntry type cluster env.time env.date),
                .ok (slot + parsed.slots))

/-! ### The end marker -/

def Directory.end_ (d : Directory) : ℕ := d.used.length

variable {d d' : Directory} {i : ℕ}

lemma takeWhile_range (p : ℕ → Bool) (n : ℕ) :
    ∃ m ≤ n, (List.range n).takeWhile p = List.range m ∧ (∀ i < m, p i = true) ∧
      (m < n → p m = false) := by
  induction n with
  | zero => exact ⟨0, le_rfl, rfl, by simp, by simp⟩
  | succ n ih =>
    obtain ⟨m, hm, htake, hall, hstop⟩ := ih
    rw [List.range_succ, List.takeWhile_append, htake]
    simp only [List.length_range]
    by_cases hmn : m = n
    · subst hmn
      rw [if_pos rfl]
      by_cases hp : p m = true
      · exact ⟨m + 1, le_rfl, by simp [hp, List.range_succ], fun i hi => by
          rcases Nat.lt_succ_iff_lt_or_eq.mp hi with h | rfl
          · exact hall i h
          · exact hp, by simp⟩
      · exact ⟨m, by omega, by simp [hp], hall, fun _ => by simpa using hp⟩
    · rw [if_neg hmn]
      exact ⟨m, by omega, rfl, hall, fun _ => hstop (by omega)⟩

lemma end_spec (d : Directory) : d.end_ ≤ d.max ∧ d.used = List.range d.end_ ∧
    (∀ i < d.end_, d.slot i 0 ≠ 0) ∧ (d.end_ < d.max → d.slot d.end_ 0 = 0) := by
  obtain ⟨m, hle, htake, hall, hstop⟩ := takeWhile_range (fun i => d.slot i 0 ≠ 0) d.max
  have hm : d.end_ = m := by
    unfold Directory.end_ Directory.used
    rw [htake, List.length_range]
  rw [hm]
  exact ⟨hle, htake, fun i hi => by simpa using hall i hi, fun h => by simpa using hstop h⟩

lemma end_le (d : Directory) : d.end_ ≤ d.max := (end_spec d).1

lemma used_eq_range (d : Directory) : d.used = List.range d.end_ := (end_spec d).2.1

lemma slot_ne_zero (h : i < d.end_) : d.slot i 0 ≠ 0 := (end_spec d).2.2.1 i h

lemma slot_end (h : d.end_ < d.max) : d.slot d.end_ 0 = 0 := (end_spec d).2.2.2 h

lemma end_eq {m : ℕ} (hle : m ≤ d.max) (hall : ∀ i < m, d.slot i 0 ≠ 0) (hstop : m < d.max → d.slot m 0 = 0) :
    d.end_ = m := by
  have hend := end_le d
  rcases Nat.lt_trichotomy d.end_ m with h | h | h
  · exact absurd (slot_end (by omega)) (hall _ h)
  · exact h
  · exact absurd (hstop (by omega)) (slot_ne_zero h)

/-! ### Reserving slots -/

def Directory.Free (d : Directory) (i : ℕ) : Prop := i < d.end_ → d.slot i 0 = 0xe5

/-- What the scan knows at the slot `i`. -/
structure ScanInv (d : Directory) (needed i run : ℕ) (atEnd : Bool) : Prop where
  le_max : i ≤ d.max
  run_le : run ≤ i
  run_lt : run < needed
  free : ∀ j, i - run ≤ j → j < i → d.Free j
  start_le : i - run ≤ d.end_
  atEnd : atEnd = true ↔ d.end_ < i

inductive ScanResult (d : Directory) (needed : ℕ) : Scan → Prop
  | found {start : ℕ} {atEnd : Bool} (fits : start + needed ≤ d.max) (start_le : start ≤ d.end_)
      (free : ∀ j, start ≤ j → j < start + needed → d.Free j)
      (atEnd_iff : atEnd = true ↔ d.end_ < start + needed) : ScanResult d needed (.found start atEnd)
  | full {run : ℕ} (run_le : run ≤ d.max) (run_lt : run < needed) (start_le : d.max - run ≤ d.end_)
      (free : ∀ j, d.max - run ≤ j → j < d.max → d.Free j) : ScanResult d needed (.full run)

lemma scan_spec {needed fuel run : ℕ} {atEnd : Bool} (h : ScanInv d needed i run atEnd)
    (hfuel : i + fuel = d.max) : ScanResult d needed (scan d needed fuel i run atEnd) := by
  induction fuel generalizing i run atEnd with
  | zero =>
    obtain rfl : i = d.max := by omega
    exact .full h.run_le h.run_lt h.start_le h.free
  | succ fuel ih =>
    have hlt : i < d.max := by omega
    have hi := h.run_le
    have hstar := h.start_le
    have hrun := h.run_lt
    -- the slot `i` is behind the first marker exactly if one has been met
    have hatEnd : (atEnd || decide (d.slot i 0 = 0)) = true ↔ d.end_ < i + 1 := by
      rw [Bool.or_eq_true, decide_eq_true_eq, h.atEnd]
      constructor
      · rintro (hlt | hz)
        · omega
        · by_contra hn
          exact slot_ne_zero (by omega) hz
      · intro hle
        by_cases he : d.end_ = i
        · exact .inr (he ▸ slot_end (he ▸ hlt))
        · exact .inl (by omega)
    rw [scan]
    set atEnd' := atEnd || decide (d.slot i 0 = 0) with ha
    by_cases hfree : (atEnd' || decide (d.slot i 0 = 0xe5)) = true
    · rw [if_pos hfree]
      have hslot : d.Free i := by
        intro hlt'
        rcases Bool.or_eq_true_iff.mp hfree with he | he
        · have := hatEnd.mp he
          omega
        · exact of_decide_eq_true he
      have hfree' : ∀ j, i - run ≤ j → j < i + 1 → d.Free j := by
        intro j h₁ h₂
        rcases Nat.lt_succ_iff_lt_or_eq.mp h₂ with h₂ | rfl
        · exact h.free j h₁ h₂
        · exact hslot
      split_ifs with hneed
      · refine .found (by omega) (by omega) (fun j h₁ h₂ => hfree' j (by omega) (by omega)) ?_
        rw [hatEnd]
        omega
      · refine ih ⟨hlt, by omega, by omega, fun j h₁ h₂ => hfree' j (by omega) h₂, by omega, hatEnd⟩ (by omega)
    · rw [if_neg hfree]
      have hnot : ¬ d.end_ < i + 1 := by
        rw [← hatEnd]
        intro he
        exact hfree (by rw [he, Bool.true_or])
      split_ifs with hneed
      · omega
      · exact ih ⟨hlt, by omega, by omega, fun j h₁ h₂ => by omega, by omega, hatEnd⟩ (by omega)

/-- What `fat_reserve_entries` has made ready: `needed` slots from `start` on that hold no entry, and an
end marker behind them if they reach the old one. -/
structure Reserved (d d' : Directory) (start needed : ℕ) : Prop where
  start_le : start ≤ d.end_
  fits : start + needed ≤ d'.max
  end_le : d.end_ ≤ d'.max
  free : ∀ j, start ≤ j → j < start + needed → d.Free j
  same : ∀ j < d.end_, d'.slot j = d.slot j
  behind : d.end_ ≤ start + needed → start + needed < d'.max → d'.slot (start + needed) 0 = 0
  marker : start + needed < d.end_ → d.end_ < d'.max → d'.slot d.end_ 0 = 0

/-- **`fat_reserve_entries` reserves.** -/
theorem fatReserveEntries_reserved {env : Env} {start needed : ℕ} (hneed : 0 < needed)
    (hclus : 0 < env.perCluster) (h : fatReserveEntries env d needed = some (start, d')) :
    Reserved d d' start needed := by
  have hend := end_le d
  have hscan : ScanResult d needed (scan d needed d.max 0 0 false) := by
    refine scan_spec ⟨Nat.zero_le _, le_rfl, hneed, fun j _ hj => by omega, Nat.zero_le _, ?_⟩ (Nat.zero_add _)
    simp
  unfold fatReserveEntries at h
  generalize scan d needed d.max 0 0 false = result at h hscan
  cases hscan with
  | @found start atEnd fits start_le free atEnd_iff =>
    dsimp only at h
    split_ifs at h with hmark
    · obtain ⟨rfl, rfl⟩ := Prod.mk.inj (Option.some.inj h)
      have hbeh := atEnd_iff.mp hmark.1
      refine ⟨start_le, fits, hend, free, fun j hj => ?_, fun _ _ => ?_, fun hlt => by omega⟩
      · exact Function.update_of_ne (by omega) ..
      · simp
    · obtain ⟨rfl, rfl⟩ := Prod.mk.inj (Option.some.inj h)
      refine ⟨start_le, fits, hend, free, fun _ _ => rfl, fun hle hlt => ?_, fun _ hlt => slot_end hlt⟩
      have hne : ¬ d.end_ < start + needed := fun hlt' => hmark ⟨atEnd_iff.mpr hlt', hlt⟩
      have he : start + needed = d.end_ := by omega
      rw [he] at hlt ⊢
      exact slot_end hlt
  | @full run run_le run_lt start_le free =>
    dsimp only at h
    split_ifs at h with hbad
    obtain ⟨rfl, rfl⟩ := Prod.mk.inj (Option.some.inj h)
    have hnew : d.max + needed - run ≤
        (d.max + needed - run + env.perCluster - 1) / env.perCluster * env.perCluster := by
      have hdiv := Nat.div_add_mod (d.max + needed - run + env.perCluster - 1) env.perCluster
      have hmod := Nat.mod_lt (d.max + needed - run + env.perCluster - 1) hclus
      rw [Nat.mul_comm] at hdiv
      omega
    refine ⟨start_le, ?_, ?_, fun j h₁ h₂ hj => ?_, fun j hj => ?_, fun _ _ => ?_, fun hlt => by omega⟩
    · dsimp only
      omega
    · dsimp only
      omega
    · exact free j h₁ (by omega) hj
    · exact if_pos (by omega)
    · have : ¬ d.max - run + needed < d.max := by omega
      simp [this]

/-! ## A stored name is read back -/

variable {d : Directory} {name : List UInt8} {units chars : List ℕ} {parsed : FatName} {checksum : UInt8}

lemma readWord {u : ℕ} (hu : u < 65536) :
    (UInt8.ofNat u).toNat ||| (UInt8.ofNat (u >>> 8)).toNat <<< 8 = u := by
  rw [UInt8.toNat_ofNat', UInt8.toNat_ofNat', Nat.shiftRight_eq_div_pow, Nat.or_comm,
    ← Nat.shiftLeft_add_eq_or_of_lt (by omega), Nat.shiftLeft_eq]
  omega

lemma storedUnit_lt (h : ∀ u ∈ units, u < 65536) (index : ℕ) : storedUnit units index < 65536 := by
  unfold storedUnit
  split_ifs with hlt
  · simp only [List.getD, List.getElem?_eq_getElem hlt, Option.getD_some]
    exact h _ (List.getElem_mem hlt)
  · omega
  · omega

lemma slotUnits_longSlot (h : ∀ u ∈ parsed.units, u < 65536) (ordinal : ℕ) :
    slotUnits (longSlot parsed checksum ordinal) =
      (List.range 13).map fun j => storedUnit parsed.units ((ordinal - 1) * 13 + j) := by
  refine List.ext_getElem rfl fun j hj _ => ?_
  have hj : j < 13 := hj
  have hread := fun k => readWord (storedUnit_lt h k)
  interval_cases j <;> exact hread _

lemma ordinal_byte {ordinal : ℕ} (slots : ℕ) (h₁ : 1 ≤ ordinal) (h₂ : ordinal ≤ 20) :
    ((UInt8.ofNat (ordinal ||| if ordinal = slots then 0x40 else 0)) &&& 0xbf).toNat = ordinal ∧
      ((UInt8.ofNat (ordinal ||| if ordinal = slots then 0x40 else 0)) &&& 0x40 ≠ 0 ↔ ordinal = slots) ∧
      UInt8.ofNat (ordinal ||| if ordinal = slots then 0x40 else 0) ≠ 0 ∧
      UInt8.ofNat (ordinal ||| if ordinal = slots then 0x40 else 0) ≠ 0xe5 := by
  by_cases h : ordinal = slots
  · simp only [h, if_true, iff_true]
    subst h
    interval_cases ordinal <;> decide
  · simp only [h, if_false, iff_false]
    interval_cases ordinal <;> decide

/-! ### All long-name slots of a name -/

/-- The slots in front of `slot` are those of the name. -/
def HoldsLong (d : Directory) (slot : ℕ) (parsed : FatName) (checksum : UInt8) : Prop :=
  ∀ ordinal, 1 ≤ ordinal → ordinal ≤ parsed.slots →
    ordinal ≤ slot ∧ d.slot (slot - ordinal) = longSlot parsed checksum ordinal

variable {slot : ℕ}

lemma longSlots_holdsLong (h : HoldsLong d slot parsed checksum) (hsl : parsed.slots ≤ 20)
    {fuel ordinal : ℕ} (h₁ : 1 ≤ ordinal) (h₂ : ordinal ≤ parsed.slots) (hfuel : parsed.slots < fuel + ordinal) :
    longSlots d slot checksum fuel ordinal = some parsed.slots := by
  induction fuel generalizing ordinal with
  | zero => omega
  | succ fuel ih =>
    obtain ⟨hle, hslot⟩ := h ordinal h₁ h₂
    obtain ⟨hord, hlast, -⟩ := ordinal_byte parsed.slots h₁ (h₂.trans hsl)
    have h0 : longSlot parsed checksum ordinal 0 =
        .ofNat (ordinal ||| if ordinal = parsed.slots then 0x40 else 0) := rfl
    have hgood : ¬ (longSlot parsed checksum ordinal 11 ≠ 15 ∨ longSlot parsed checksum ordinal 12 ≠ 0 ∨
        longSlot parsed checksum ordinal 13 ≠ checksum ∨ fatReadU16 (longSlot parsed checksum ordinal) 26 ≠ 0 ∨
        (longSlot parsed checksum ordinal 0 &&& 0xbf).toNat ≠ ordinal) := by
      rw [h0, hord]
      have h26 : fatReadU16 (longSlot parsed checksum ordinal) 26 = 0 := by
        show (0 : UInt8).toNat ||| (0 : UInt8).toNat <<< 8 = 0
        decide
      have h11 : longSlot parsed checksum ordinal 11 = 15 := rfl
      have h12 : longSlot parsed checksum ordinal 12 = 0 := rfl
      have h13 : longSlot parsed checksum ordinal 13 = checksum := rfl
      simp [h26, h11, h12, h13]
    rw [longSlots, if_neg (by omega), hslot]
    dsimp only
    rw [if_neg hgood, h0]
    by_cases he : ordinal = parsed.slots
    · rw [if_pos (hlast.mpr he), he]
    · rw [if_neg (fun hn => he (hlast.mp hn))]
      exact ih (by omega) (by omega) (by omega)

lemma flatMap_range_chunks {α : Type*} (f : ℕ → α) (n m : ℕ) :
    ((List.range n).flatMap fun k => (List.range m).map fun j => f (k * m + j)) =
      (List.range (n * m)).map f := by
  induction n with
  | zero => simp
  | succ n ih =>
    rw [List.range_succ, List.flatMap_append, ih, Nat.succ_mul, List.range_add, List.map_append, List.map_map]
    simp [Function.comp_def]

lemma map_storedUnit (units : List ℕ) {n : ℕ} (h : units.length ≤ n) :
    ∃ tail, (List.range n).map (storedUnit units) = units ++ tail ∧
    (tail = [] ∨ ∃ pad, tail = 0 :: pad ∧ ∀ u ∈ pad, u = 0xffff) := by
  obtain ⟨k, rfl⟩ := Nat.exists_eq_add_of_le h
  rw [List.range_add, List.map_append, List.map_map]
  refine ⟨_, congrArg (· ++ _) ?_, ?_⟩
  · refine List.ext_getElem (by simp) fun i h₁ h₂ => ?_
    simp [storedUnit, h₂]
  · cases k with
    | zero => exact .inl rfl
    | succ k =>
      have hend : storedUnit units (units.length + 0) = 0 := by simp [storedUnit]
      refine .inr ⟨(List.range k).map fun i => storedUnit units (units.length + (i + 1)), ?_, ?_⟩
      · rw [List.range_succ_eq_map, List.map_cons, List.map_map, Function.comp_apply, hend]
        rfl
      intro u hu
      obtain ⟨i, -, rfl⟩ := List.mem_map.mp hu
      unfold storedUnit
      rw [if_neg (by omega), if_neg (by omega)]

lemma longUnits_holdsLong (h : HoldsLong d slot parsed checksum) (hu : ∀ u ∈ parsed.units, u < 65536) :
    longUnits d slot parsed.slots = (List.range (parsed.slots * 13)).map (storedUnit parsed.units) := by
  rw [← flatMap_range_chunks]
  unfold longUnits
  refine List.flatMap_congr fun k hk => ?_
  have hk := List.mem_range.mp hk
  rw [(h (k + 1) (by omega) (by omega)).2, slotUnits_longSlot hu, Nat.add_sub_cancel]

/-! ### Reading the name back -/

lemma Decoded.unit_lt (hd : Decoded name units chars) : ∀ u ∈ units, u < 65536 := by
  intro u hu
  rw [hd.units_eq, List.mem_flatMap] at hu
  obtain ⟨c, hc, hu⟩ := hu
  exact ((hd.accepted c hc).unit hu).2

lemma Decoded.mem_ffff (hd : Decoded name units chars) : 0xffff ∈ chars ↔ 0xffff ∈ units := by
  rw [hd.units_eq, List.mem_flatMap]
  constructor
  · intro hmem
    exact ⟨0xffff, hmem, by rw [unitsOf_single (by omega)]; exact List.mem_singleton_self _⟩
  · rintro ⟨c, hc, hu⟩
    have hle := (hd.accepted c hc).le
    by_cases hbmp : c < 0x10000
    · rw [unitsOf_single hbmp, List.mem_singleton] at hu
      exact hu ▸ hc
    · rw [unitsOf_pair (by omega) hle] at hu
      simp only [List.mem_cons, List.not_mem_nil, or_false] at hu
      omega

lemma Decoded.units_ne_nil (hd : Decoded name units chars) : units ≠ [] := by
  intro hnil
  obtain ⟨c, chars', rfl⟩ := List.exists_cons_of_ne_nil hd.nonempty
  have hu := hd.units_eq
  rw [hnil, List.flatMap_cons] at hu
  have : (unitsOf c).length = 0 := by
    have := congrArg List.length hu
    simp only [List.length_nil, List.length_append] at this
    omega
  unfold unitsOf at this
  split_ifs at this

lemma Decoded.last_unit (hd : Decoded name units chars) {x : ℕ} (hx : x = 32 ∨ x = 46) :
    units.getLast? ≠ some x := by
  intro hlast
  obtain ⟨init, c, hchar⟩ := List.eq_nil_or_concat'  chars |>.resolve_left hd.nonempty
  have hacc := hd.accepted c (by rw [hchar]; simp)
  have hle := hacc.le
  have hname := hd.name_eq
  have huns := hd.units_eq
  rw [hchar, List.flatMap_append, List.flatMap_singleton] at hname huns
  by_cases hbmp : c < 0x10000
  · rw [unitsOf_single hbmp] at huns
    rw [huns, List.getLast?_append, List.getLast?_singleton, Option.some_or, Option.some.injEq] at hlast
    have henc : encodeChar c = [.ofNat c] := by
      unfold encodeChar
      rw [if_pos (by omega)]
    rw [henc] at hname
    rcases hx with hx | hx
    · refine hd.last.1 ?_
      rw [hname, List.getLast?_append, List.getLast?_singleton, Option.some_or, hlast, hx]
      rfl
    · refine hd.last.2 ?_
      rw [hname, List.getLast?_append, List.getLast?_singleton, Option.some_or, hlast, hx]
      rfl
  · rw [unitsOf_pair (Nat.le_of_not_lt hbmp) hle] at huns
    rw [huns, List.getLast?_append, List.getLast?_cons_cons, List.getLast?_singleton, Option.some_or,
      Option.some.injEq] at hlast
    omega

/-- **`fat_long_name` of the stored slots is the name, or nothing if it has the character U+FFFF.** -/
theorem longName_holdsLong {bounded : Bool} (hd : Decoded name parsed.units chars)
    (hsl : parsed.slots = slotsFor parsed.units.length) (h : HoldsLong d slot parsed checksum) :
    longName bounded d slot checksum =
      if 0xffff ∈ parsed.units then none else some (parsed.slots, name) := by
  have hle := hd.units_le
  unfold fatLfnUnits at hle
  have hpos := List.length_pos_iff.mpr hd.units_ne_nil
  unfold slotsFor at hsl
  have hscan : longSlots d slot checksum 20 1 = some parsed.slots :=
    longSlots_holdsLong h (by omega) le_rfl (by omega) (by omega)
  obtain ⟨tail, hmap, htail⟩ := map_storedUnit parsed.units (n := parsed.slots * 13) (by omega)
  have huns := longUnits_holdsLong h hd.unit_lt
  rw [hmap] at huns
  have hlen := hd.units_le
  have hbs := hd.bytes_lt
  rw [hd.units_eq] at hlen
  rw [hd.name_eq] at hbs
  unfold longName
  rw [hscan, Option.bind_some]
  dsimp only
  rw [huns]
  by_cases hffff : 0xffff ∈ parsed.units
  · have hloop : longLoop bounded (parsed.units ++ tail) 0 [] = none := by
      rw [hd.units_eq]
      exact longLoop_chars_padding hd.accepted (hd.mem_ffff.mpr hffff) (by simpa using hlen) (by simpa using hbs)
    rw [hloop, Option.bind_none, if_pos hffff]
  · have hloop : longLoop bounded (parsed.units ++ tail) 0 [] = some (parsed.units.length, name) := by
      conv_lhs => rw [hd.units_eq]
      rw [longLoop_chars hd.accepted (fun hm => hffff (hd.mem_ffff.mp hm)) (by simpa using hlen)
        (by simpa using hbs), ← hd.units_eq, List.nil_append, ← hd.name_eq, Nat.zero_add]
      rcases htail with rfl | ⟨pad, rfl, hpad⟩
      · rfl
      · exact longLoop_end hpad
    have hget : ∀ x, x = 32 ∨ x = 46 → (parsed.units ++ tail).getD (parsed.units.length - 1) 0 ≠ x := by
      intro x hx hget
      refine hd.last_unit hx ?_
      rw [List.getLast?_eq_getElem?]
      have hlt : parsed.units.length - 1 < parsed.units.length := by omega
      rw [List.getD, List.getElem?_append_left hlt] at hget
      rw [List.getElem?_eq_getElem hlt] at hget ⊢
      simpa using hget
    rw [hloop, Option.bind_some, if_neg hffff]
    dsimp only
    rw [if_neg]
    simp only [not_or]
    exact ⟨by omega, by omega, hget 32 (.inl rfl), hget 46 (.inr rfl)⟩

/-! ## Names kept as plain short entries -/

variable {d : Directory} {name base text : List UInt8} {dot : Option (List UInt8)} {parsed : FatName}
  {ch : UInt8}

/-- The name of which `base` stands in front of the last dot and `dot` behind it. -/
def joined (base : List UInt8) : Option (List UInt8) → List UInt8
  | none => base
  | some extension => base ++ 46 :: extension

lemma splitDot_joined (h : splitDot name = (base, dot)) : name = joined base dot := by
  unfold splitDot at h
  extract_lets extension at h
  have hspl : (name.reverse.dropWhile (· ≠ 46)).reverse ++ extension = name := by
    rw [← List.reverse_append, List.takeWhile_append_dropWhile, List.reverse_reverse]
  have hhead : ∀ x, (name.reverse.dropWhile (· ≠ 46)).head? = some x → x = 46 := by
    intro x hx
    have := List.head?_dropWhile_not (fun b : UInt8 => decide (b ≠ 46)) name.reverse
    rw [hx] at this
    simpa using this
  generalize name.reverse.dropWhile (· ≠ 46) = front at hspl hhead
  split_ifs at h with hlen
  · obtain ⟨rfl, rfl⟩ := Prod.mk.inj h
    rfl
  · obtain ⟨rfl, rfl⟩ := Prod.mk.inj h
    cases front with
    | nil => exact absurd (congrArg List.length hspl) (by simpa using hlen)
    | cons b front =>
      obtain rfl := hhead b rfl
      rw [List.reverse_cons, List.append_assoc] at hspl
      have htake : name.length - extension.length - 1 = front.reverse.length := by
        rw [← hspl]
        simp only [List.length_append, List.length_singleton, List.length_reverse]
        omega
      rw [joined, htake]
      conv_rhs => rw [← hspl, List.take_left]
      exact hspl.symm

/-! ### Characters of an alias -/

lemma fatAliasCharacter_upper (h : fatAliasCharacter ch = true) : 32 < fatUpper ch ∧ fatUpper ch < 127 := by
  revert ch
  apply UInt8.forall_of_nat
  decide +kernel

lemma lower_upper (h : ¬ (65 ≤ ch ∧ ch ≤ 90)) :
    (if 65 ≤ fatUpper ch ∧ fatUpper ch ≤ 90 then fatUpper ch + 32 else fatUpper ch) = ch := by
  revert ch
  apply UInt8.forall_of_nat
  decide +kernel

lemma fatUpper_eq (h : ¬ (97 ≤ ch ∧ ch ≤ 122)) : fatUpper ch = ch := if_neg h

lemma eq_of_hasUpper (h : hasUpper text = false) : ∀ ch ∈ text, ¬ (65 ≤ ch ∧ ch ≤ 90) := by
  simpa [hasUpper] using h

lemma eq_of_hasLower (h : hasLower text = false) : ∀ ch ∈ text, ¬ (97 ≤ ch ∧ ch ≤ 122) := by
  simpa [hasLower] using h

/-- What `fat_short_display` makes of a capital, with the flag for the small letters of its part. -/
lemma shown_upper (hmem : ch ∈ text) (hmix : ¬ (hasLower text = true ∧ hasUpper text = true)) :
    (if hasLower text = true ∧ 65 ≤ fatUpper ch ∧ fatUpper ch ≤ 90 then fatUpper ch + 32 else fatUpper ch) =
      ch := by
  by_cases hlo : hasLower text = true
  · have hupp : hasUpper text = false := by
      simpa using fun h => hmix ⟨hlo, h⟩
    simp only [hlo, true_and]
    exact lower_upper (eq_of_hasUpper hupp ch hmem)
  · rw [if_neg (fun h => hlo h.1)]
    exact fatUpper_eq (eq_of_hasLower (Bool.eq_false_of_not_eq_true hlo) ch hmem)

lemma flatMap_getElem? {α : Type*} (l : List α) {n : ℕ} (h : l.length ≤ n) :
    ((List.range n).flatMap fun i => l[i]?.toList) = l := by
  induction l generalizing n with
  | nil => simp
  | cons a l ih =>
    obtain ⟨n, rfl⟩ : ∃ m, n = m + 1 := ⟨n - 1, by simp at h; omega⟩
    rw [List.range_succ_eq_map, List.flatMap_cons, List.flatMap_map]
    simpa using ih (by simpa using h)

lemma fatShortDisplay_eq {entry : Slot} (stem extension : List UInt8)
    (hstem : ∀ i : Fin 8, displayByte entry (i.castLE (by omega)) = stem[(i : ℕ)]?.toList)
    (hext : ∀ i : Fin 3, displayByte entry (i.natAdd 8) = extension[(i : ℕ)]?.toList)
    (hlen : stem.length ≤ 8) (hlen' : extension.length ≤ 3) :
    fatShortDisplay entry = stem ++ ((if entry 8 ≠ 32 then [46] else []) ++ extension) := by
  conv_rhs => rw [← flatMap_getElem? stem hlen, ← flatMap_getElem? extension hlen']
  have hstem' := fun i (h : i < 8) => hstem ⟨i, h⟩
  have hext' := fun i (h : i < 3) => hext ⟨i, h⟩
  have hfin : List.finRange 11 = [0, 1, 2, 3, 4, 5, 6, 7, 8, 9, 10] := by decide
  have h8 : List.range 8 = [0, 1, 2, 3, 4, 5, 6, 7] := by decide
  have h3 : List.range 3 = [0, 1, 2] := by decide
  unfold fatShortDisplay
  rw [hfin, h8, h3]
  simp only [List.flatMap_cons, List.flatMap_nil, List.append_nil]
  rw [← hstem' 0 (by omega), ← hstem' 1 (by omega), ← hstem' 2 (by omega), ← hstem' 3 (by omega),
    ← hstem' 4 (by omega), ← hstem' 5 (by omega), ← hstem' 6 (by omega), ← hstem' 7 (by omega),
    ← hext' 0 (by omega), ← hext' 1 (by omega), ← hext' 2 (by omega)]
  simp [Fin.ext_iff]

/-! ### `fat_prepare_name` -/

/-- The name is kept as a plain short entry. -/
structure Plain (name : List UInt8) (parsed : FatName) (base : List UInt8) (dot : Option (List UInt8)) :
    Prop where
  name_eq : name = joined base dot
  base_pos : 0 < base.length
  base_le : base.length ≤ 8
  extension_le : (dot.getD []).length ≤ 3
  base_alias : ∀ ch ∈ base, fatAliasCharacter ch = true
  extension_alias : ∀ ch ∈ dot.getD [], fatAliasCharacter ch = true
  alias_eq : parsed.alias_ = aliasOf (base.map fatUpper) ((dot.getD []).map fatUpper)
  flags : parsed.caseFlags =
    (if hasLower base then 8 else 0) ||| (if hasLower (dot.getD []) then 16 else 0)
  base_mixed : ¬ (hasLower base = true ∧ hasUpper base = true)
  extension_mixed : ¬ (hasLower (dot.getD []) = true ∧ hasUpper (dot.getD []) = true)

lemma isShort_spec (hname : name = joined base dot) (h : isShort name base dot = true) :
    0 < base.length ∧ base.length ≤ 8 ∧ (dot.getD []).length ≤ 3 ∧
      (∀ ch ∈ base, fatAliasCharacter ch = true) ∧ ∀ ch ∈ dot.getD [], fatAliasCharacter ch = true := by
  unfold isShort at h
  simp only [Bool.and_eq_true, decide_eq_true_eq] at h
  obtain ⟨⟨⟨hpos, hle⟩, hext⟩, hall⟩ := h
  refine ⟨hpos, hle, hext, ?_⟩
  cases dot with
  | none =>
    rw [hname, joined] at hall
    exact ⟨by simpa using hall, by simp⟩
  | some extension =>
    dsimp only at hall
    rw [List.all_append, Bool.and_eq_true] at hall
    exact ⟨by simpa using hall.1, by simpa using hall.2⟩

lemma aliasStem_spec (base : List UInt8) :
    aliasStem base ≠ [] ∧ ∀ ch ∈ aliasStem base, 32 < ch ∧ ch < 127 := by
  unfold aliasStem
  extract_lets stem
  split_ifs with h
  · exact ⟨List.cons_ne_nil _ _, by simp⟩
  · refine ⟨h, fun ch hch => ?_⟩
    obtain ⟨b, -, rfl⟩ := List.mem_map.mp (List.mem_of_mem_take hch)
    split_ifs with hb
    · exact fatAliasCharacter_upper hb
    · decide

lemma aliasNumbered_zero (base extension : List UInt8) (serial : ℕ) :
    32 < aliasNumbered (aliasStem base) extension serial 0 ∧
      aliasNumbered (aliasStem base) extension serial 0 < 127 := by
  obtain ⟨hne, hch⟩ := aliasStem_spec base
  obtain ⟨b, stem, hstem⟩ := List.exists_cons_of_ne_nil hne
  rw [hstem] at hch ⊢
  unfold aliasNumbered aliasOf
  generalize 7 - (digits 7 serial).length = n
  cases n with
  | zero => simp
  | succ n => simpa using hch b (by simp)

lemma firstUnused_some {stem extension : List UInt8} {alias_ : Fin 11 → UInt8} {fuel serial : ℕ}
    (h : firstUnused d stem extension fuel serial = some alias_) :
    ∃ n, alias_ = aliasNumbered stem extension n ∧ aliasUsed d alias_ = false := by
  induction fuel generalizing serial with
  | zero => cases h
  | succ fuel ih =>
    rw [firstUnused] at h
    split_ifs at h with hused
    · exact ih h
    · cases h
      exact ⟨serial, rfl, Bool.eq_false_of_not_eq_true hused⟩

/-- What `fat_prepare_name` answers. -/
structure Prepared (d : Directory) (name : List UInt8) (parsed : FatName) : Prop where
  decoded : ∃ chars, Decoded name parsed.units chars
  alias_zero : 32 < parsed.alias_ 0 ∧ parsed.alias_ 0 < 127
  form : parsed.slots = slotsFor parsed.units.length ∨ parsed.slots = 0 ∧ ∃ base dot, Plain name parsed base dot

/-- **`fat_prepare_name` prepares.** -/
theorem fatPrepareName_prepared (h : fatPrepareName name d = some parsed) : Prepared d name parsed := by
  obtain ⟨units, huns, h⟩ := Option.bind_eq_some_iff.mp h
  rcases hspl : splitDot name with ⟨base, dot⟩
  have hname := splitDot_joined hspl
  have hdec := fatDecodeName_some huns
  rw [hspl] at h
  dsimp only at h
  by_cases hshrt : isShort name base dot = true
  · rw [if_pos hshrt] at h
    obtain ⟨hpos, hle, hext, hbase, hdot⟩ := isShort_spec hname hshrt
    cases h
    refine ⟨hdec, ?_, ?_⟩
    · obtain ⟨b, base, rfl⟩ := List.exists_cons_of_ne_nil (List.length_pos_iff.mp hpos)
      exact fatAliasCharacter_upper (hbase b (by simp))
    · by_cases hmix : (hasLower base && hasUpper base ||
          hasLower (dot.getD []) && hasUpper (dot.getD [])) = true
      · exact .inl (if_pos hmix)
      · have hpts := hmix
        simp only [Bool.or_eq_true, Bool.and_eq_true, not_or] at hpts
        exact .inr ⟨if_neg hmix, base, dot, hname, hpos, hle, hext, hbase, hdot, rfl, if_neg hmix,
          hpts.1, hpts.2⟩
  · rw [if_neg hshrt] at h
    obtain ⟨alias_, halias, rfl⟩ := Option.map_eq_some_iff.mp h
    obtain ⟨n, hn, -⟩ := firstUnused_some halias
    refine ⟨hdec, ?_, .inl rfl⟩
    show 32 < alias_ 0 ∧ alias_ 0 < 127
    rw [hn]
    exact aliasNumbered_zero ..

/-! ### The display of a plain entry -/

section

variable {extension : List UInt8} {entry : Slot}

lemma shortEntry_alias (parsed : FatName) (entry : Slot) (i : Fin 11) : shortEntry parsed entry (i.castLE nameBytes_le) =
    parsed.alias_ i := by
  unfold shortEntry
  rw [dif_pos (show (i.castLE nameBytes_le : Fin 32).1 < 11 from i.2)]
  rfl

lemma shortEntry_flags : shortEntry parsed entry 12 = parsed.caseFlags := rfl

lemma shortEntry_of_le {b : Fin 32} (h : 13 ≤ b.1 ∨ b.1 = 11) : shortEntry parsed entry b = entry b := by
  unfold shortEntry
  rw [dif_neg (by omega), if_neg (by rintro rfl; simp at h)]

lemma shown_part {text : List UInt8} {k : ℕ} {bit flags : UInt8} {first : Prop} [Decidable first]
    (hflag : flags &&& bit ≠ 0 ↔ hasLower text = true)
    (hmix : ¬ (hasLower text = true ∧ hasUpper text = true))
    (halias : ∀ ch ∈ text, fatAliasCharacter ch = true) :
    (let ch := (text.map fatUpper).getD k 32
      if ch = 32 then []
      else
        let ch := if first ∧ ch = 5 then 0xe5 else ch
        [if flags &&& bit ≠ 0 ∧ 65 ≤ ch ∧ ch ≤ 90 then ch + 32 else ch]) = text[k]?.toList := by
  by_cases hk : k < text.length
  · have hmem := List.getElem_mem hk
    have hup := (fatAliasCharacter_upper (halias _ hmem)).1
    have hget : (text.map fatUpper).getD k 32 = fatUpper text[k] := by simp [hk]
    have h32 : ¬ fatUpper text[k] = 32 := fun h => by simp [h] at hup
    have h5 : ¬ fatUpper text[k] = 5 := fun h => by simp [h] at hup
    rw [hget, List.getElem?_eq_getElem hk]
    simp only [h32, h5, and_false, if_false, hflag, shown_upper hmem hmix, Option.toList_some]
  · simp [Nat.le_of_not_lt hk]

/-- **A plain entry shows the name that it was made for.** -/
theorem fatShortDisplay_plain (h : Plain name parsed base dot) (hdot : dot ≠ some []) :
    fatShortDisplay (shortEntry parsed entry) = name := by
  have hbit8 : parsed.caseFlags &&& 8 ≠ 0 ↔ hasLower base = true := by
    rw [h.flags]
    split_ifs with h₁ h₂ h₂ <;> simp [h₁] <;> decide
  have hbit : parsed.caseFlags &&& 16 ≠ 0 ↔ hasLower (dot.getD []) = true := by
    rw [h.flags]
    split_ifs with h₁ h₂ h₂ <;> simp [h₂] <;> decide
  have hle := h.base_le
  have hle' := h.extension_le
  rw [fatShortDisplay_eq base (dot.getD []) ?_ ?_ hle hle', h.name_eq]
  · have h8 : shortEntry parsed entry 8 = ((dot.getD []).map fatUpper).getD 0 32 := by
      have hent := shortEntry_alias parsed entry 8
      rw [h.alias_eq] at hent
      exact hent
    cases dot with
    | none => simp [h8, joined]
    | some extension =>
      obtain ⟨b, extension, rfl⟩ := List.exists_cons_of_ne_nil (fun he => hdot (congrArg some he))
      have hup := (fatAliasCharacter_upper (h.extension_alias b (by simp))).1
      have h32 : fatUpper b ≠ 32 := fun he => by simp [he] at hup
      simp [h8, h32, joined]
  · intro i
    have hent := shortEntry_alias parsed entry (i.castLE (by omega))
    have hget : parsed.alias_ (i.castLE (by omega)) = (base.map fatUpper).getD i 32 := by
      rw [h.alias_eq]
      exact if_pos i.2
    have hpart : (i.castLE (by omega) : Fin 11) < 8 := i.2
    unfold displayByte
    rw [hent, hget, shortEntry_flags]
    simp only [hpart, if_true]
    exact shown_part hbit8 h.base_mixed h.base_alias
  · intro i
    have hent := shortEntry_alias parsed entry (i.natAdd 8)
    have hget : parsed.alias_ (i.natAdd 8) = ((dot.getD []).map fatUpper).getD i 32 := by
      rw [h.alias_eq]
      unfold aliasOf
      rw [if_neg (show ¬ (i.natAdd 8 : Fin 11) < 8 from Nat.not_lt.mpr (Nat.le_add_right 8 i))]
      exact congrArg (List.getD _ · _) (Nat.add_sub_cancel_left 8 i)
    have hpart : ¬ (i.natAdd 8 : Fin 11) < 8 := Nat.not_lt.mpr (Nat.le_add_right 8 i)
    unfold displayByte
    rw [hent, hget, shortEntry_flags]
    simp only [hpart, if_false]
    exact shown_part hbit h.extension_mixed h.extension_alias

end

/-! ## A created entry is found under its name -/

variable {d d₁ d' : Directory} {start slot i : ℕ} {parsed : FatName} {name : List UInt8} {entry : Slot}
  {checksum : UInt8}

/-! ### What reading depends on -/

lemma fatChecksum_congr {entry entry' : Slot}
    (h : ∀ j : Fin 11, entry (j.castLE nameBytes_le) = entry' (j.castLE nameBytes_le)) :
    fatChecksum entry = fatChecksum entry' := by
  unfold fatChecksum
  simp only [h]

lemma longSlots_congr (h : ∀ j < slot, d.slot j = d'.slot j) {fuel ordinal : ℕ} (hord : 1 ≤ ordinal) :
    longSlots d slot checksum fuel ordinal = longSlots d' slot checksum fuel ordinal := by
  induction fuel generalizing ordinal with
  | zero => rfl
  | succ fuel ih =>
    rw [longSlots, longSlots, ih (by omega)]
    by_cases hle : ordinal > slot
    · rw [if_pos hle, if_pos hle]
    · rw [h (slot - ordinal) (by omega)]

lemma longSlots_le {fuel ordinal total : ℕ} (h : longSlots d slot checksum fuel ordinal = some total) :
    ordinal ≤ total ∧ total ≤ slot := by
  induction fuel generalizing ordinal with
  | zero => cases h
  | succ fuel ih =>
    rw [longSlots] at h
    dsimp only at h
    split_ifs at h with h₁ h₂ h₃
    · cases h
      omega
    · have := ih h
      omega

lemma longName_congr {bounded : Bool} (h : ∀ j < slot, d.slot j = d'.slot j) :
    longName bounded d slot checksum = longName bounded d' slot checksum := by
  unfold longName
  rw [longSlots_congr h le_rfl]
  cases htot : longSlots d' slot checksum 20 1 with
  | none => rfl
  | some total =>
    have hle := longSlots_le htot
    have huns : longUnits d slot total = longUnits d' slot total := by
      unfold longUnits
      refine List.flatMap_congr fun k hk => ?_
      have hk := List.mem_range.mp hk
      rw [h (slot - (k + 1)) (by omega)]
    simp only [Option.bind_some, huns]

lemma fatLongName_congr (h : ∀ j ≤ slot, d.slot j = d'.slot j) : fatLongName d slot = fatLongName d' slot := by
  unfold fatLongName
  rw [h slot le_rfl]
  exact longName_congr fun j hj => h j hj.le

lemma matchesName_congr (h : ∀ j ≤ i, d.slot j = d'.slot j) : matchesName d name i = matchesName d' name i := by
  unfold matchesName
  rw [fatLongName_congr h, h i le_rfl]

lemma fatNameEqual_refl (name : List UInt8) : fatNameEqual name name = true := by
  induction name with
  | nil => rfl
  | cons b name ih => simp [fatNameEqual, ih]

/-! ### A stored entry -/

/-- An entry has been stored in slots of `d` that held none. -/
structure Stored (d d' : Directory) (start : ℕ) (parsed : FatName) (entry : Slot) : Prop where
  start_le : start ≤ d.end_
  end_eq : d'.end_ = max d.end_ (start + parsed.slots + 1)
  free : ∀ j, start ≤ j → j ≤ start + parsed.slots → d.Free j
  same : ∀ j < d.end_, j < start ∨ start + parsed.slots < j → d'.slot j = d.slot j
  long : HoldsLong d' (start + parsed.slots) parsed (fatChecksum (shortEntry parsed entry))
  short : d'.slot (start + parsed.slots) = shortEntry parsed entry

lemma longSlot_zero_ne {ordinal : ℕ} (h₁ : 1 ≤ ordinal) (h₂ : ordinal ≤ 20) :
    longSlot parsed checksum ordinal 0 ≠ 0 ∧ longSlot parsed checksum ordinal 0 ≠ 0xe5 := by
  obtain ⟨-, -, hne, hne'⟩ := ordinal_byte parsed.slots h₁ h₂
  exact ⟨hne, hne'⟩

lemma Prepared.slots_le (h : Prepared d name parsed) : parsed.slots ≤ 20 := by
  rcases h.form with hsl | ⟨hsl, -⟩
  · obtain ⟨chars, hd⟩ := h.decoded
    have hle := hd.units_le
    unfold slotsFor at hsl
    unfold fatLfnUnits at hle
    omega
  · omega

lemma Prepared.shortEntry_zero (h : Prepared d name parsed) :
    shortEntry parsed entry 0 ≠ 0 ∧ shortEntry parsed entry 0 ≠ 0xe5 := by
  obtain ⟨h₁, h₂⟩ := h.alias_zero
  have h0 : shortEntry parsed entry 0 = parsed.alias_ 0 := shortEntry_alias parsed entry 0
  rw [h0]
  exact ⟨fun he => by simp [he] at h₁, fun he => by simp [he] at h₂⟩

/-- **`fat_store_name` stores in the slots that `fat_reserve_entries` reserved.** -/
theorem stored_of_reserved (hp : Prepared d name parsed) (hr : Reserved d d₁ start (parsed.slots + 1)) :
    Stored d (fatStoreName d₁ start parsed entry) start parsed entry := by
  have hle := hp.slots_le
  have hfits := hr.fits
  have hend := hr.end_le
  have hlong : ∀ ordinal, 1 ≤ ordinal → ordinal ≤ parsed.slots →
      (fatStoreName d₁ start parsed entry).slot (start + parsed.slots - ordinal) =
        longSlot parsed (fatChecksum (shortEntry parsed entry)) ordinal := by
    intro ordinal h₁ h₂
    dsimp only [fatStoreName]
    rw [if_pos ⟨by omega, by omega⟩]
    congr 1
    omega
  have hshrt : (fatStoreName d₁ start parsed entry).slot (start + parsed.slots) = shortEntry parsed entry := by
    simp [fatStoreName]
  have hsame : ∀ j, j < start ∨ start + parsed.slots < j →
      (fatStoreName d₁ start parsed entry).slot j = d₁.slot j := by
    intro j hj
    dsimp only [fatStoreName]
    rw [if_neg (by omega), if_neg (by omega)]
  refine ⟨hr.start_le, ?_, fun j h₁ h₂ => hr.free j h₁ (by omega), fun j hj hout => ?_, ?_, hshrt⟩
  · refine Fat.end_eq (max_le hend hfits) (fun j hj => ?_) fun hlt => ?_
    · by_cases hin : start ≤ j ∧ j ≤ start + parsed.slots
      · obtain ⟨k, hk⟩ := Nat.exists_eq_add_of_le hin.2
        by_cases hk0 : k = 0
        · obtain rfl : j = start + parsed.slots := by omega
          rw [hshrt]
          exact hp.shortEntry_zero.1
        · obtain rfl : j = start + parsed.slots - k := by omega
          rw [hlong k (by omega) (by omega)]
          exact (longSlot_zero_ne (by omega) (by omega)).1
      · have hlt : j < d.end_ := by
          have := hr.start_le
          rcases lt_max_iff.mp hj with h | h <;> omega
        rw [hsame j (by omega), hr.same j hlt]
        exact slot_ne_zero hlt
    · have hlt : max d.end_ (start + (parsed.slots + 1)) < d₁.max := hlt
      show (fatStoreName d₁ start parsed entry).slot (max d.end_ (start + (parsed.slots + 1))) 0 = 0
      rw [hsame _ (by omega)]
      rcases Nat.lt_or_ge (start + (parsed.slots + 1)) d.end_ with h | h
      · rw [max_eq_left h.le] at hlt ⊢
        exact hr.marker h hlt
      · rw [max_eq_right h] at hlt ⊢
        exact hr.behind h hlt
  · rw [hsame j hout, hr.same j hj]
  · exact fun ordinal h₁ h₂ => ⟨by omega, hlong ordinal h₁ h₂⟩

/-! ### Reading a stored entry back -/

lemma fatChecksum_shortEntry (entry entry' : Slot) :
    fatChecksum (shortEntry parsed entry) = fatChecksum (shortEntry parsed entry') :=
  fatChecksum_congr fun j => by rw [shortEntry_alias, shortEntry_alias]

def firstFree (d : Directory) : ℕ :=
  ((List.range d.max).find? fun i => d.slot i 0 = 0 || d.slot i 0 = 0xe5).getD d.max

/-- The name in long-name slots that no entry owns, in front of the first slot that holds no entry and
with the checksum of the alias. -/
def orphanName (d : Directory) (parsed : FatName) : Option (List UInt8) :=
  (longName true d (firstFree d) (fatChecksum (shortEntry parsed fun _ => 0))).map (·.2)

/-- The slot reads back as the name that was prepared as `parsed`. -/
structure ReadsBack (d : Directory) (slot : ℕ) (name : List UInt8) (parsed : FatName) : Prop where
  /-- `fat_long_name`, or `fat_short_display` of a plain entry -/
  decoded : if parsed.slots ≠ 0 then fatLongName d slot = some (parsed.slots, name)
    else fatShortDisplay (d.slot slot) = name
  /-- `fat_search` -/
  found : fatSearch name d = some slot
  /-- `fat_iterate` -/
  listed : ∃ wanted, fatIterate d wanted = some (name, slot)
  /-- `fat_erase_entry` -/
  erased : ∀ i, slot - parsed.slots ≤ i → i ≤ slot → (fatEraseEntry d slot).slot i 0 = 0xe5

def Readable (d : Directory) (name : List UInt8) (parsed : FatName) : Prop :=
  0xffff ∉ parsed.units ∧ (parsed.slots = 0 → ∀ other, orphanName d parsed = some other → other = name)

lemma fatCreate_ok {env : Env} {type : VfsNodeType} (h : fatCreate env d name type = (d', .ok slot)) :
    fatSearch name d = none ∧ ∃ parsed start d₁ cluster, fatPrepareName name d = some parsed ∧
      fatReserveEntries env d (parsed.slots + 1) = some (start, d₁) ∧
      d' = fatStoreName d₁ start parsed (newEntry type cluster env.time env.date) ∧
      slot = start + parsed.slots := by
  unfold fatCreate at h
  by_cases hsrch : (fatSearch name d).isSome
  · rw [if_pos hsrch] at h
    cases h
  rw [if_neg hsrch] at h
  refine ⟨by simpa using hsrch, ?_⟩
  cases hp : fatPrepareName name d with
  | none =>
    rw [hp] at h
    cases h
  | some parsed =>
    rw [hp] at h
    dsimp only at h
    split at h
    · cases h
    cases hr : fatReserveEntries env d (parsed.slots + 1) with
    | none =>
      rw [hr] at h
      cases h
    | some reserved =>
      obtain ⟨start, d₁⟩ := reserved
      rw [hr] at h
      dsimp only at h
      cases hc : env.freeCluster with
      | none =>
        rw [hc] at h
        cases h
      | some cluster =>
        rw [hc] at h
        dsimp only at h
        split at h
        · cases h
        · obtain ⟨rfl, hok⟩ := Prod.mk.inj h
          exact ⟨parsed, start, d₁, cluster, rfl, hr, rfl, (Except.ok.inj hok).symm⟩

lemma newEntry_visible (type : VfsNodeType) (cluster : ℕ) (time date : UInt16) :
    newEntry type cluster time date 11 &&& 8 = 0 := by
  unfold newEntry
  simp only [if_true]
  split_ifs <;> decide

lemma Stored.lt_end (hs : Stored d d' start parsed entry) : start + parsed.slots < d'.end_ := by
  rw [hs.end_eq]
  exact lt_max_of_lt_right (Nat.lt_succ_self _)

lemma Stored.same_before (hs : Stored d d' start parsed entry) (hi : i < start) : d'.slot i = d.slot i :=
  hs.same i (hi.trans_le hs.start_le) (.inl hi)

lemma Stored.visible (hs : Stored d d' start parsed entry) (hp : Prepared d name parsed)
    (hvis : entry 11 &&& 8 = 0) : visible (d'.slot (start + parsed.slots)) = true := by
  have h11 : shortEntry parsed entry 11 = entry 11 := shortEntry_of_le (.inr rfl)
  unfold Fat.visible
  rw [hs.short, h11]
  simp [hvis, hp.shortEntry_zero.2]

lemma Stored.not_visible (hs : Stored d d' start parsed entry) (h₁ : start ≤ i) (h₂ : i < start + parsed.slots) :
    Fat.visible (d'.slot i) = false := by
  obtain ⟨-, hslot⟩ := hs.long (start + parsed.slots - i) (by omega) (by omega)
  have hi : start + parsed.slots - (start + parsed.slots - i) = i := by omega
  have h11 : longSlot parsed (fatChecksum (shortEntry parsed entry)) (start + parsed.slots - i) 11 = 15 := rfl
  rw [hi] at hslot
  unfold Fat.visible
  rw [hslot, h11, show (15 : UInt8) &&& 8 = 8 from rfl]
  simp

lemma Stored.fatLongName_eq (hs : Stored d d' start parsed entry) (hp : Prepared d name parsed)
    (hsl : parsed.slots ≠ 0) : fatLongName d' (start + parsed.slots) =
      if 0xffff ∈ parsed.units then none else some (parsed.slots, name) := by
  obtain ⟨chars, hd⟩ := hp.decoded
  have hform : parsed.slots = slotsFor parsed.units.length := hp.form.resolve_right fun h => hsl h.1
  unfold fatLongName
  rw [hs.short]
  exact longName_holdsLong hd hform hs.long

lemma Stored.fatLongName_plain (hs : Stored d d' start parsed entry) (hsl : parsed.slots = 0)
    (hfst : start = firstFree d) : (fatLongName d' (start + parsed.slots)).map (·.2) = orphanName d parsed := by
  unfold fatLongName orphanName
  rw [hs.short, hsl, Nat.add_zero, fatChecksum_shortEntry entry fun _ => 0, ← hfst]
  exact congrArg _ (longName_congr fun j hj => hs.same_before hj)

lemma Stored.not_matches (hs : Stored d d' start parsed entry) (hnone : fatSearch name d = none)
    (hi : i < start + parsed.slots) : matchesName d' name i = false := by
  rcases Nat.lt_or_ge i start with h | h
  · rw [matchesName_congr fun j hj => hs.same_before (hj.trans_lt h)]
    have hmem : i ∈ d.used := by
      rw [used_eq_range, List.mem_range]
      exact h.trans_le hs.start_le
    simpa using List.find?_eq_none.mp hnone i hmem
  · unfold matchesName
    rw [hs.not_visible h hi, Bool.false_and]

lemma Stored.search (hs : Stored d d' start parsed entry) (hnone : fatSearch name d = none)
    (hmat : matchesName d' name (start + parsed.slots) = true) :
    fatSearch name d' = some (start + parsed.slots) := by
  unfold fatSearch
  rw [used_eq_range, List.find?_range_eq_some]
  exact ⟨hmat, List.mem_range.mpr hs.lt_end, fun j hj => by simp [hs.not_matches hnone hj]⟩

/-- `fat_iterate` lists an entry that is shown under a name other than the directory itself and its
parent. -/
lemma fatIterate_lists (hi : i < d.end_) (hvis : Fat.visible (d.slot i) = true)
    (hdot : name.getLast? ≠ some 46) :
    (∃ wanted, fatIterate d wanted = some (name, i)) ↔ displayName d i = name := by
  unfold fatIterate
  rw [← List.mem_iff_getElem?, List.mem_map]
  constructor
  · rintro ⟨j, -, hj⟩
    obtain ⟨hname, rfl⟩ := Prod.mk.inj hj
    exact hname
  · rintro rfl
    refine ⟨i, List.mem_filter.mpr ⟨?_, ?_⟩, rfl⟩
    · rw [used_eq_range]
      exact List.mem_range.mpr hi
    · have h₁ : displayName d i ≠ [46] := fun h => hdot (by rw [h]; rfl)
      have h₂ : displayName d i ≠ [46, 46] := fun h => hdot (by rw [h]; rfl)
      simp [hvis, h₁, h₂]

/-! ### When it reads back -/

lemma Directory.delete_zero {first last : ℕ} (h₁ : first ≤ i) (h₂ : i ≤ last) :
    (d.delete first last).slot i 0 = 0xe5 := by
  simp [Directory.delete, h₁, h₂]

lemma Stored.fatLongSlots_eq (hs : Stored d d' start parsed entry) (hp : Prepared d name parsed)
    (hsl : parsed.slots ≠ 0) (huns : 0xffff ∉ parsed.units) :
    fatLongSlots d' (start + parsed.slots) = parsed.slots := by
  obtain ⟨chars, hd⟩ := hp.decoded
  have hform : parsed.slots = slotsFor parsed.units.length := hp.form.resolve_right fun h => hsl h.1
  unfold fatLongSlots
  rw [hs.short, longName_holdsLong hd hform hs.long, if_neg huns]
  rfl

lemma Prepared.plain (hp : Prepared d name parsed) (hsl : parsed.slots = 0) :
    ∃ base dot, Plain name parsed base dot := by
  obtain ⟨chars, hd⟩ := hp.decoded
  have hpos := List.length_pos_iff.mpr hd.units_ne_nil
  rcases hp.form with h | h
  · unfold slotsFor at h
    omega
  · exact h.2

lemma Plain.not_mem_ffff {base : List UInt8} {dot : Option (List UInt8)} {units chars : List ℕ}
    (hp : Plain name parsed base dot) (hd : Decoded name units chars) : 0xffff ∉ units := by
  intro hmem
  have hbyte : (0xef : UInt8) ∈ name := by
    rw [hd.name_eq, List.mem_flatMap]
    exact ⟨0xffff, hd.mem_ffff.mpr hmem, by decide⟩
  have halias : fatAliasCharacter 0xef = false := by decide
  rw [hp.name_eq] at hbyte
  cases dot with
  | none => exact absurd (hp.base_alias _ hbyte) (by simp [halias])
  | some extension =>
    rcases List.mem_append.mp hbyte with h | h
    · exact absurd (hp.base_alias _ h) (by simp [halias])
    · rcases List.mem_cons.mp h with h | h
      · cases h
      · exact absurd (hp.extension_alias _ h) (by simp [halias])

theorem Stored.reads_iff (hs : Stored d d' start parsed entry) (hp : Prepared d name parsed)
    (hvis : entry 11 &&& 8 = 0) (hnone : fatSearch name d = none)
    (hfst : parsed.slots = 0 → start = firstFree d) :
    ReadsBack d' (start + parsed.slots) name parsed ↔ Readable d name parsed := by
  obtain ⟨chars, hd⟩ := hp.decoded
  have hls := fatIterate_lists hs.lt_end (hs.visible hp hvis) hd.last.2
  by_cases hsl : parsed.slots = 0
  · obtain ⟨base, dot, hpl⟩ := hp.plain hsl
    have hshow : fatShortDisplay (d'.slot (start + parsed.slots)) = name := by
      rw [hs.short]
      refine fatShortDisplay_plain hpl fun hdot => hd.last.2 ?_
      rw [hpl.name_eq, hdot]
      simp [joined]
    have horp := hs.fatLongName_plain hsl (hfst hsl)
    have hdis : displayName d' (start + parsed.slots) = name ↔
        ∀ other, orphanName d parsed = some other → other = name := by
      rw [← horp]
      unfold displayName
      cases hlong : fatLongName d' (start + parsed.slots) with
      | none => simp [hshow]
      | some pair => simp
    constructor
    · rintro ⟨-, -, hlst, -⟩
      exact ⟨hpl.not_mem_ffff hd, fun _ => hdis.mp (hls.mp hlst)⟩
    · rintro ⟨-, hsafe⟩
      refine ⟨by rw [if_neg (not_not.mpr hsl)]; exact hshow, hs.search hnone ?_,
        hls.mpr (hdis.mpr (hsafe hsl)), fun i h₁ h₂ => Directory.delete_zero ?_ h₂⟩
      · unfold matchesName
        rw [hs.visible hp hvis, hshow, fatNameEqual_refl]
        simp
      · omega
  · have hlong := hs.fatLongName_eq hp hsl
    constructor
    · rintro ⟨hdec, -⟩
      rw [if_pos hsl, hlong] at hdec
      refine ⟨fun hffff => ?_, fun h => absurd h hsl⟩
      rw [if_pos hffff] at hdec
      cases hdec
    · rintro ⟨huns, -⟩
      rw [if_neg huns] at hlong
      refine ⟨by rw [if_pos hsl]; exact hlong, hs.search hnone ?_, hls.mpr ?_, fun i h₁ h₂ => ?_⟩
      · unfold matchesName
        rw [hs.visible hp hvis, hlong]
        simp [fatNameEqual_refl]
      · unfold displayName
        rw [hlong]
      · unfold fatEraseEntry
        rw [hs.fatLongSlots_eq hp hsl huns]
        exact Directory.delete_zero h₁ h₂

lemma scan_one (d : Directory) (fuel i : ℕ) : scan d 1 fuel i 0 false =
    ((List.range' i fuel).find? fun i => d.slot i 0 = 0 || d.slot i 0 = 0xe5).elim (.full 0)
      fun j => .found j (d.slot j 0 = 0) := by
  induction fuel generalizing i with
  | zero => rfl
  | succ fuel ih =>
    rw [List.range'_succ, List.find?_cons, scan]
    by_cases h₀ : d.slot i 0 = 0
    · simp [h₀]
    · by_cases h₁ : d.slot i 0 = 0xe5
      · simp [h₁]
      · simp [h₀, h₁, ih]

lemma start_eq_firstFree {env : Env} (h : fatReserveEntries env d 1 = some (start, d₁)) : start = firstFree d := by
  unfold fatReserveEntries at h
  rw [scan_one, ← List.range_eq_range'] at h
  unfold firstFree
  cases hfind : (List.range d.max).find? fun i => d.slot i 0 = 0 || d.slot i 0 = 0xe5 with
  | none =>
    rw [hfind, Option.elim_none] at h
    dsimp only at h
    split_ifs at h
    exact (Prod.mk.inj (Option.some.inj h)).1.symm
  | some j =>
    rw [hfind, Option.elim_some] at h
    dsimp only at h
    split_ifs at h
    · exact (Prod.mk.inj (Option.some.inj h)).1.symm
    · exact (Prod.mk.inj (Option.some.inj h)).1.symm

/-! ### `fat_create` -/

/-- **A created entry reads back as its name exactly when the name has no U+FFFF and, if it is kept as a
plain entry, its entry does not come to stand behind the long-name slots of another name.** -/
theorem readsBack_iff {env : Env} {type : VfsNodeType} (hcluster : 0 < env.perCluster)
    (hcreate : fatCreate env d name type = (d', .ok slot)) (hparsed : fatPrepareName name d = some parsed) :
    ReadsBack d' slot name parsed ↔ Readable d name parsed := by
  obtain ⟨hnone, parsed', start, d₁, cluster, hparsed', hreserve, rfl, rfl⟩ := fatCreate_ok hcreate
  obtain rfl := Option.some.inj (hparsed.symm.trans hparsed')
  have hp := fatPrepareName_prepared hparsed
  have hstored : Stored d _ start parsed (newEntry type cluster env.time env.date) :=
    stored_of_reserved hp (fatReserveEntries_reserved (Nat.succ_pos _) hcluster hreserve)
  refine hstored.reads_iff hp (newEntry_visible ..) hnone fun hslots => ?_
  rw [hslots] at hreserve
  exact start_eq_firstFree hreserve

/-- An empty directory of a cluster of sixteen slots, and an environment in which nothing fails. -/
def emptyDirectory : Directory := ⟨16, fun _ _ => 0⟩
def plentiful : Env where
  perCluster := 16
  fixedRoot := false
  memory := true
  growMemory := true
  ensureClusters := fun _ => true
  freeCluster := some 3
  addDirectory := true
  time := 0
  date := 0
  chainSound := true
  directoryLoaded := true
  directoryEmpty := true

/-- `Ab.txt` is kept in a long-name slot and reads back. -/
theorem readsBack_mixedCase : ∃ d' parsed,
    fatCreate plentiful emptyDirectory [65, 98, 46, 116, 120, 116] .file = (d', .ok 1) ∧
      fatPrepareName [65, 98, 46, 116, 120, 116] emptyDirectory = some parsed ∧
      (ReadsBack d' 1 [65, 98, 46, 116, 120, 116] parsed ↔
        Readable emptyDirectory [65, 98, 46, 116, 120, 116] parsed) ∧
      Readable emptyDirectory [65, 98, 46, 116, 120, 116] parsed := by
  have hparsed : ∃ parsed, fatPrepareName [65, 98, 46, 116, 120, 116] emptyDirectory = some parsed ∧
      Readable emptyDirectory [65, 98, 46, 116, 120, 116] parsed := by
    refine ⟨_, rfl, by decide, fun h => absurd h (by decide)⟩
  obtain ⟨parsed, hparsed, hreadable⟩ := hparsed
  have hcreate : ∃ d', fatCreate plentiful emptyDirectory [65, 98, 46, 116, 120, 116] .file = (d', .ok 1) :=
    ⟨_, rfl⟩
  obtain ⟨d', hcreate⟩ := hcreate
  exact ⟨d', parsed, hcreate, hparsed, readsBack_iff (by decide) hcreate hparsed, hreadable⟩

/-- A name of the character U+FFFF is stored and not found. -/
theorem padding_lost : ∃ d' parsed, fatDecodeName [0xef, 0xbf, 0xbf] = some [0xffff] ∧
    fatCreate plentiful emptyDirectory [0xef, 0xbf, 0xbf] .file = (d', .ok 1) ∧
      fatPrepareName [0xef, 0xbf, 0xbf] emptyDirectory = some parsed ∧
      fatLongName d' 1 = none ∧ fatSearch [0xef, 0xbf, 0xbf] d' = none ∧
      ¬ ReadsBack d' 1 [0xef, 0xbf, 0xbf] parsed := by
  have hsearch : ∃ d' parsed, fatDecodeName [0xef, 0xbf, 0xbf] = some [0xffff] ∧
      fatCreate plentiful emptyDirectory [0xef, 0xbf, 0xbf] .file = (d', .ok 1) ∧
      fatPrepareName [0xef, 0xbf, 0xbf] emptyDirectory = some parsed ∧
      fatLongName d' 1 = none ∧ fatSearch [0xef, 0xbf, 0xbf] d' = none := by
    refine ⟨_, _, by decide, rfl, rfl, ?_, ?_⟩
    · decide +kernel
    · decide +kernel
  obtain ⟨d', parsed, hdecode, hcreate, hparsed, hlong, hnone⟩ := hsearch
  refine ⟨d', parsed, hdecode, hcreate, hparsed, hlong, hnone, fun h => ?_⟩
  rw [h.found] at hnone
  cases hnone

end PlantOS.Fat
