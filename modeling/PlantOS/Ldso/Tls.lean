import Mathlib.Data.List.GetD
import Mathlib.Data.Nat.ModEq
import PlantOS.Lib.Align
import PlantOS.Lib.Run

/-!
# Thread-local storage

`prepare_tls`, `tls_allocate`, `tls_address` and `tls_release` of `ldso/link.c`, and `__tls_get_addr` of
`libp/pthread.c`. The numbers of modules are `tls_count` long lists and have no upper bound here; sizes and addresses
are machine words. A call that ends in `fail` is no event. `load_runtime_object` has the lock of the loader, and runs
no code of the program before it has published its objects, or has failed and restored the linker: it is one step.
-/

namespace PlantOS.Ldso.Tls

open Lib

def sizeMax : UInt64 := 0xFFFFFFFFFFFFFFFF

def vmPageSize : UInt64 := 4096

/-- `sizeof(void *)` -/
def pointerSize : UInt64 := 8

/-- `sizeof(tls_control_t)` -/
def controlSize : UInt64 := 80

/-- `sizeof(tls_allocation_t)` -/
def allocationSize : UInt64 := 16

/-- `x & ~(a - 1)` -/
def roundDown (x a : UInt64) : UInt64 := x &&& ~~~(a - 1)

/-- `vm_map`, with the address that it answers: a range of the address space, or `NULL` -/
def vmMap (answer size : UInt64) : Option UInt64 :=
  if answer ≠ 0 ∧ answer.toNat + size.toNat ≤ 2 ^ 64 then some answer else none

/-! ### Objects -/

/-- What `prepare_tls` reads of a segment of the program header -/
structure Phdr where
  load : Bool
  readable : Bool
  offset : UInt64
  vaddr : UInt64
  filesz : UInt64
  memsz : UInt64

/-- `object->tls`: `object_load` has checked that the alignment is zero or a power of two. -/
structure TlsSegment where
  offset : UInt64
  vaddr : UInt64
  filesz : UInt64
  memsz : UInt64
  align : UInt64
  aligned : align &&& (align - 1) = 0

structure Object where
  segments : List Phdr
  tls : Option TlsSegment
  tlsModule : ℕ
  tlsOffset : UInt64

/-- What `object_load` leaves -/
def Object.loaded (segments : List Phdr) (tls : Option TlsSegment) : Object := ⟨segments, tls, 0, 0⟩

structure Linker where
  objects : List Object
  tlsCount : ℕ
  tlsSize : UInt64
  tlsAlignment : UInt64
  staticTlsCount : ℕ

namespace TlsSegment

variable (tls : TlsSegment)

def alignment : UInt64 := if tls.align = 0 then 1 else tls.align

def skew : UInt64 := tls.vaddr &&& (tls.alignment - 1)

/-- `object_at` succeeds -/
def objectAt (segments : List Phdr) : Bool :=
  segments.any fun p => p.load && p.readable && p.vaddr ≤ tls.vaddr && tls.vaddr - p.vaddr ≤ p.memsz &&
    tls.filesz ≤ p.memsz - (tls.vaddr - p.vaddr)

def covered (segments : List Phdr) : Bool :=
  segments.any fun load => load.load && load.vaddr ≤ tls.vaddr && tls.vaddr - load.vaddr ≤ load.filesz &&
    tls.filesz ≤ load.filesz - (tls.vaddr - load.vaddr) && load.offset ≤ tls.offset &&
    tls.offset - load.offset == tls.vaddr - load.vaddr

/-- The first check of `prepare_tls` fails. -/
def Overflows (tlsSize : UInt64) : Prop :=
  tls.memsz > sizeMax - tlsSize ∨ tlsSize + tls.memsz > sizeMax - tls.skew ∨
    tlsSize + tls.memsz + tls.skew > sizeMax - (tls.alignment - 1)

instance (tlsSize : UInt64) : Decidable (tls.Overflows tlsSize) := by unfold Overflows; infer_instance

def staticOffset (tlsSize : UInt64) : UInt64 :=
  roundDown (tlsSize + tls.memsz + tls.skew + tls.alignment - 1) tls.alignment - tls.skew

end TlsSegment

/-- The body of the loop of `prepare_tls` -/
def prepareObject (startup : Bool) (l : Linker) (object : Object) : Option (Linker × Object) :=
  match object.tls with
  | none => some (l, object)
  | some tls =>
    if object.tlsModule ≠ 0 then some (l, object)
    else if tls.Overflows l.tlsSize then none
    else if tls.filesz ≠ 0 ∧ ¬(tls.objectAt object.segments ∧ tls.covered object.segments) then none
    else if startup then
      some ({ l with
          tlsSize := tls.staticOffset l.tlsSize
          tlsAlignment := if tls.alignment > l.tlsAlignment then tls.alignment else l.tlsAlignment
          tlsCount := l.tlsCount + 1 },
        { object with tlsOffset := tls.staticOffset l.tlsSize, tlsModule := l.tlsCount + 1 })
    else some ({ l with tlsCount := l.tlsCount + 1 }, { object with tlsModule := l.tlsCount + 1 })

/-- `prepare_tls` on the objects from the first one on -/
def prepareTls (startup : Bool) : Linker → List Object → Option (Linker × List Object)
  | l, [] => some (l, [])
  | l, object :: objects =>
    (prepareObject startup l object).bind fun first =>
      (prepareTls startup first.1 objects).map fun rest => (rest.1, first.2 :: rest.2)

/-- `Main` up to the count of the static modules -/
def start (objects : List (List Phdr × Option TlsSegment)) : Option Linker :=
  (prepareTls true ⟨[], 0, 0, 16, 0⟩ (objects.map fun elf => .loaded elf.1 elf.2)).map fun out =>
    { out.1 with objects := out.2, staticTlsCount := out.1.tlsCount }

/-- The objects that `load_runtime_object` adds -/
def Linker.load (l : Linker) (objects : List (List Phdr × Option TlsSegment)) : Option Linker :=
  (prepareTls false l (objects.map fun elf => .loaded elf.1 elf.2)).map fun out =>
    { out.1 with objects := l.objects ++ out.2 }

/-! ### Threads -/

/-- `thread_region_t` -/
structure Region where
  address : UInt64
  size : UInt64

/-- A block in the list of `tls_allocation_t`. The module, its segment and the base are not stored there. -/
structure DynamicBlock where
  region : Region
  module : ℕ
  segment : TlsSegment
  base : UInt64

/-- `tls_control_t` of a thread -/
structure TlsControl where
  /-- the mapping that it is in -/
  region : Region
  /-- its own address -/
  self : UInt64
  /-- what its owner asked for behind it -/
  runtimeSize : UInt64
  moduleCount : ℕ
  /-- the entries at `modules` -/
  modules : List UInt64
  dynamicVector : Region
  dynamicBlocks : List DynamicBlock
  /-- `tls_release` has been called. -/
  released : Bool

/-- The body of the loop of `tls_allocate` over the objects -/
def Object.setEntry (self : UInt64) (modules : List UInt64) (object : Object) : List UInt64 :=
  if object.tlsOffset = 0 then modules else modules.set object.tlsModule (self - object.tlsOffset)

/-- `control` -/
def controlBytes (runtimeSize : UInt64) : UInt64 := roundDown (controlSize + runtimeSize + pointerSize - 1) pointerSize

namespace Linker

variable (l : Linker)

/-- `vectors` -/
def vectorBytes : UInt64 := UInt64.ofNat (l.staticTlsCount + 1) * pointerSize

/-- A check of `tls_allocate` fails. -/
def AllocationOverflows (runtimeSize : UInt64) : Prop :=
  runtimeSize > sizeMax - controlSize - pointerSize ∨ l.staticTlsCount + 1 > (sizeMax / pointerSize).toNat ∨
    controlBytes runtimeSize > sizeMax - l.vectorBytes ∨
    controlBytes runtimeSize + l.vectorBytes > sizeMax - l.tlsSize ∨
    controlBytes runtimeSize + l.vectorBytes + l.tlsSize > sizeMax - l.tlsAlignment ∨
    controlBytes runtimeSize + l.vectorBytes + l.tlsSize + l.tlsAlignment > sizeMax - vmPageSize

instance (runtimeSize : UInt64) : Decidable (l.AllocationOverflows runtimeSize) := by
  unfold AllocationOverflows; infer_instance

def allocationBytes (runtimeSize : UInt64) : UInt64 :=
  roundDown (controlBytes runtimeSize + l.vectorBytes + l.tlsSize + l.tlsAlignment + vmPageSize - 1) vmPageSize

def tlsAllocate (runtimeSize memory : UInt64) : Option TlsControl :=
  if l.AllocationOverflows runtimeSize then none
  else
    (vmMap memory (l.allocationBytes runtimeSize)).map fun memory =>
      let self := roundDown (memory + l.tlsSize + l.tlsAlignment - 1) l.tlsAlignment
      ⟨⟨memory, l.allocationBytes runtimeSize⟩, self, runtimeSize, l.staticTlsCount,
        l.objects.foldl (Object.setEntry self) (List.replicate (l.staticTlsCount + 1) 0), ⟨0, 0⟩, [], false⟩

end Linker

namespace TlsControl

variable (tls : TlsControl)

/-- `tls->modules[module]` -/
def entry (module : ℕ) : UInt64 := tls.modules.getD module 0

/-- A longer vector, as `tls_address` makes it -/
def grow (tlsCount : ℕ) (memory : UInt64) : Option TlsControl :=
  if tlsCount > (sizeMax / pointerSize - 1).toNat then none
  else
    let size := UInt64.ofNat (tlsCount + 1) * pointerSize
    if size > sizeMax - vmPageSize + 1 then none
    else
      let size := roundDown (size + vmPageSize - 1) vmPageSize
      (vmMap memory size).map fun vector =>
        { tls with
          modules := tls.modules.take (tls.moduleCount + 1) ++ List.replicate (tlsCount - tls.moduleCount) 0
          moduleCount := tlsCount
          dynamicVector := ⟨vector, size⟩ }

/-- A block for a module, as `tls_address` makes it -/
def addBlock (module : ℕ) (segment : TlsSegment) (memory : UInt64) : Option TlsControl :=
  if segment.alignment > sizeMax - allocationSize - vmPageSize ∨
      segment.memsz > sizeMax - segment.alignment - allocationSize - vmPageSize then none
  else
    let size := roundDown (allocationSize + segment.alignment + segment.memsz + vmPageSize - 1) vmPageSize
    (vmMap memory size).map fun block =>
      let base := roundDown (block + allocationSize - segment.skew + segment.alignment - 1) segment.alignment + segment.skew
      { tls with
        dynamicBlocks := ⟨⟨block, size⟩, module, segment, base⟩ :: tls.dynamicBlocks
        modules := tls.modules.set module base }

/-- `tls_release` -/
def release : TlsControl := { tls with dynamicBlocks := [], dynamicVector := ⟨0, 0⟩, released := true }

end TlsControl

/-- `tls_index_t` -/
structure TlsIndex where
  module : ℕ
  offset : UInt64
  deriving DecidableEq

/-- The segment of the module, when `tls_address` accepts the index -/
def Linker.tlsSegment (l : Linker) (index : TlsIndex) : Option TlsSegment :=
  (l.objects.find? fun object => object.tlsModule == index.module).bind fun object =>
    object.tls.bind fun tls => if index.module = 0 ∨ index.offset ≥ tls.memsz then none else some tls

/-- `tls_address`: `vector` and `block` are the addresses that `vm_map` answers -/
def tlsAddress (l : Linker) (tls : TlsControl) (index : TlsIndex) (vector block : UInt64) : Option (TlsControl × UInt64) :=
  (l.tlsSegment index).bind fun segment =>
    (if index.module > tls.moduleCount then tls.grow l.tlsCount vector else some tls).bind fun tls =>
      (if tls.entry index.module = 0 then tls.addBlock index.module segment block else some tls).map fun tls =>
        (tls, tls.entry index.module + index.offset)

/-- `__tls_get_addr` where it does not call `tls_address` -/
def tlsGetAddr (tls : TlsControl) (index : TlsIndex) : Option UInt64 :=
  if index.module ≠ 0 ∧ index.module ≤ tls.moduleCount ∧ tls.entry index.module ≠ 0 then
    some (tls.entry index.module + index.offset)
  else none

structure Answer where
  thread : ℕ
  index : TlsIndex
  address : UInt64

structure World where
  /-- the linker at the end of the startup -/
  started : Linker
  linker : Linker
  threads : List TlsControl
  answers : List Answer

inductive Event
  /-- `load_runtime_object` prepares new objects; if it fails later, `linker = saved`. -/
  | load (objects : List (List Phdr × Option TlsSegment)) (fails : Bool)
  | allocate (runtimeSize memory : UInt64)
  | address (t : ℕ) (index : TlsIndex) (vector block : UInt64)
  | getAddr (t : ℕ) (index : TlsIndex)
  | release (t : ℕ)

namespace World

variable (w : World)

def running (t : ℕ) : Option TlsControl := (w.threads[t]?).bind fun tls => if tls.released then none else some tls

def step : Event → Option World
  | .load objects fails =>
    let saved := w.linker
    (w.linker.load objects).map fun l => { w with linker := if fails then saved else l }
  | .allocate runtimeSize memory =>
    (w.linker.tlsAllocate runtimeSize memory).map fun tls => { w with threads := w.threads ++ [tls] }
  | .address t index vector block =>
    (w.running t).bind fun tls => (tlsAddress w.linker tls index vector block).map fun out =>
      { w with threads := w.threads.set t out.1, answers := ⟨t, index, out.2⟩ :: w.answers }
  | .getAddr t index =>
    (w.running t).bind fun tls => (tlsGetAddr tls index).map fun address =>
      { w with answers := ⟨t, index, address⟩ :: w.answers }
  | .release t => (w.running t).map fun tls => { w with threads := w.threads.set t tls.release }

def Init : Prop :=
  ∃ objects l, start objects = some l ∧ w = ⟨l, l, [], []⟩

end World

def tlsSystem : System World Event := ⟨World.Init, World.step⟩

/-! ## Where thread-local storage lies -/

open Lib Lib.Align
open UInt64 (lt_iff_toNat_lt reduceSub reduceToNat toNat toNat_add toNat_sub toNat_zero)
open List (mem_append mem_cons mem_cons_of_mem mem_cons_self mem_singleton)
open Option (bind_eq_some_iff getD_some ite_none_left_eq_some map_eq_some_iff)

variable {l l' started : Linker} {object object' : Object} {objects objects' : List Object} {p : TlsSegment}
  {tls tls' : TlsControl} {index : TlsIndex} {w w' : World} {size memory block vector self : UInt64} {m n : ℕ}

/-! ### Segments -/

namespace TlsSegment

lemma alignment_powerOfTwo (p : TlsSegment) : p.alignment.toNat.isPowerOfTwo := by
  unfold alignment
  split
  · exact Nat.isPowerOfTwo_one
  · exact powerOfTwo_of_and ‹_› p.aligned

lemma alignment_pos (p : TlsSegment) : 0 < p.alignment.toNat := Nat.pos_of_isPowerOfTwo p.alignment_powerOfTwo

lemma skew_eq (p : TlsSegment) : p.skew.toNat = p.vaddr.toNat % p.alignment.toNat :=
  toNat_and_low p.vaddr p.alignment_powerOfTwo

lemma skew_lt (p : TlsSegment) : p.skew.toNat < p.alignment.toNat := by
  rw [skew_eq]
  exact Nat.mod_lt _ p.alignment_pos

lemma staticOffset_spec (h : ¬p.Overflows size) :
    size.toNat + p.memsz.toNat ≤ (p.staticOffset size).toNat ∧
      ((p.staticOffset size).toNat + p.skew.toNat) % p.alignment.toNat = 0 := by
  have hpos := p.alignment_pos
  have hskew := p.skew_lt
  have hbd := p.alignment.toNat_lt
  have hsize := size.toNat_lt
  have hmems := p.memsz.toNat_lt
  simp only [Overflows, gt_iff_lt, lt_iff_toNat_lt, toNat_sub, toNat_add, not_or, Nat.not_lt, sizeMax,
    reduceToNat] at h
  have hsum : (size + p.memsz + p.skew + p.alignment - 1).toNat =
      size.toNat + p.memsz.toNat + p.skew.toNat + p.alignment.toNat - 1 := by
    simp only [toNat_sub, toNat_add, reduceToNat]
    omega
  have hdown := toNat_and_not (size + p.memsz + p.skew + p.alignment - 1) p.alignment_powerOfTwo
  rw [hsum] at hdown
  have hle := down_le (size.toNat + p.memsz.toNat + p.skew.toNat + p.alignment.toNat - 1) p.alignment.toNat
  have hlt := lt_down_add (size.toNat + p.memsz.toNat + p.skew.toNat + p.alignment.toNat - 1) hpos
  have hofs : (p.staticOffset size).toNat + p.skew.toNat =
      down (size.toNat + p.memsz.toNat + p.skew.toNat + p.alignment.toNat - 1) p.alignment.toNat := by
    rw [← hdown]
    unfold staticOffset roundDown
    rw [UInt64.toNat_sub_of_le]
    · omega
    · rw [UInt64.le_iff_toNat_le, hdown]
      omega
  refine ⟨by omega, ?_⟩
  rw [hofs, down_mod]

end TlsSegment

/-! ### The layout of the startup -/

/-- An object that lies behind another one in the list has a greater offset and a greater number. -/
def Object.Before (object object' : Object) : Prop :=
  ∀ p, object'.tls = some p →
    object.tlsOffset.toNat + p.memsz.toNat ≤ object'.tlsOffset.toNat ∧ object.tlsModule < object'.tlsModule

/-- What `prepare_tls` leaves of the objects it has passed -/
structure Linker.Laid (l : Linker) (objects : List Object) : Prop where
  power : l.tlsAlignment.toNat.isPowerOfTwo
  numbered : ∀ object ∈ objects, object.tlsModule ≤ l.tlsCount
  bare : ∀ object ∈ objects, object.tls = none → object.tlsOffset = 0
  offset : ∀ object ∈ objects, object.tlsOffset.toNat ≤ l.tlsSize.toNat
  memsz : ∀ object ∈ objects, ∀ p, object.tls = some p → p.memsz.toNat ≤ object.tlsOffset.toNat
  divides : ∀ object ∈ objects, ∀ p, object.tls = some p → p.alignment.toNat ∣ l.tlsAlignment.toNat
  skewed : ∀ object ∈ objects, ∀ p, object.tls = some p →
    (object.tlsOffset.toNat + p.skew.toNat) % p.alignment.toNat = 0
  order : objects.Pairwise Object.Before

lemma prepareObject_startup (h : prepareObject true l object = some (l', object')) (hnew : object.tlsModule = 0) :
    (object.tls = none ∧ l' = l ∧ object' = object) ∨
      ∃ p, object.tls = some p ∧ ¬p.Overflows l.tlsSize ∧
        l' = { l with
          tlsSize := p.staticOffset l.tlsSize
          tlsAlignment := if p.alignment > l.tlsAlignment then p.alignment else l.tlsAlignment
          tlsCount := l.tlsCount + 1 } ∧
        object' = { object with tlsOffset := p.staticOffset l.tlsSize, tlsModule := l.tlsCount + 1 } := by
  unfold prepareObject at h
  cases htls : object.tls with
  | none =>
    simp only [htls, Option.some.injEq, Prod.mk.injEq] at h
    exact .inl ⟨rfl, h.1.symm, h.2.symm⟩
  | some p =>
    simp only [htls, hnew, ne_eq, not_true_eq_false, if_false, if_true, ite_none_left_eq_some, Option.some.injEq,
      Prod.mk.injEq] at h
    obtain ⟨hfits, -, rfl, rfl⟩ := h
    exact .inr ⟨p, rfl, hfits, rfl, rfl⟩

lemma Linker.Laid.append (h : l.Laid objects) (hstep : prepareObject true l object = some (l', object'))
    (hnew : object.tlsModule = 0 ∧ object.tlsOffset = 0) : l'.Laid (objects ++ [object']) := by
  obtain ⟨htls, rfl, rfl⟩ | ⟨p, htls, hfits, rfl, rfl⟩ := prepareObject_startup hstep hnew.1
  · refine ⟨h.power, ?_, ?_, ?_, ?_, ?_, ?_, ?_⟩
    · simpa [or_imp, forall_and, hnew.1] using h.numbered
    · simpa [or_imp, forall_and, hnew.2] using h.bare
    · simpa [or_imp, forall_and, hnew.2] using h.offset
    · simpa [or_imp, forall_and, htls] using h.memsz
    · simpa [or_imp, forall_and, htls] using h.divides
    · simpa [or_imp, forall_and, htls] using h.skewed
    · refine List.pairwise_append.mpr ⟨h.order, List.pairwise_singleton .., fun o _ o' ho' p hp => ?_⟩
      obtain rfl := mem_singleton.mp ho'
      simp [htls] at hp
  · obtain ⟨hroom, hskewed⟩ := TlsSegment.staticOffset_spec hfits
    have hpow := p.alignment_powerOfTwo
    have hmax : l.tlsAlignment.toNat ∣ (if p.alignment > l.tlsAlignment then p.alignment else l.tlsAlignment).toNat ∧
        p.alignment.toNat ∣ (if p.alignment > l.tlsAlignment then p.alignment else l.tlsAlignment).toNat := by
      split
      · next hgt => exact ⟨dvd_of_le h.power hpow (Nat.le_of_lt (lt_iff_toNat_lt.mp hgt)), dvd_rfl⟩
      · next hle => exact ⟨dvd_rfl, dvd_of_le hpow h.power (Nat.le_of_not_lt fun hlt => hle (lt_iff_toNat_lt.mpr hlt))⟩
    have hall {P : Object → Prop} {o : Object} (hold : ∀ o ∈ objects, P o) (hlast : P o) : ∀ o' ∈ objects ++ [o], P o' :=
      List.forall_mem_append.mpr ⟨hold, List.forall_mem_singleton.mpr hlast⟩
    have hone {q : TlsSegment} (hq : object.tls = some q) : p = q := Option.some.inj (htls.symm.trans hq)
    refine ⟨?_, ?_, ?_, ?_, ?_, ?_, ?_, ?_⟩
    · dsimp only
      split
      · exact hpow
      · exact h.power
    · exact hall (fun o ho => Nat.le_succ_of_le (h.numbered o ho)) (Nat.le_refl _)
    · exact hall h.bare fun hnone => by cases htls.symm.trans hnone
    · refine hall (fun o ho => (h.offset o ho).trans ?_) (Nat.le_refl _)
      dsimp only
      omega
    · refine hall h.memsz fun q hq => ?_
      obtain rfl := hone hq
      dsimp only
      omega
    · refine hall (fun o ho q hq => (h.divides o ho q hq).trans hmax.1) fun q hq => ?_
      obtain rfl := hone hq
      exact hmax.2
    · refine hall h.skewed fun q hq => ?_
      obtain rfl := hone hq
      exact hskewed
    · refine List.pairwise_append.mpr ⟨h.order, List.pairwise_singleton .., fun o ho o' ho' q hq => ?_⟩
      obtain rfl := mem_singleton.mp ho'
      obtain rfl := hone hq
      have hold := h.offset o ho
      have hnum := h.numbered o ho
      dsimp only
      omega

lemma Linker.Laid.prepareTls (h : l.Laid objects) {news news' : List Object}
    (hnew : ∀ object ∈ news, object.tlsModule = 0 ∧ object.tlsOffset = 0)
    (hrun : prepareTls true l news = some (l', news')) : l'.Laid (objects ++ news') := by
  induction news generalizing l l' objects news' with
  | nil =>
    simp only [Tls.prepareTls, Option.some.injEq, Prod.mk.injEq] at hrun
    obtain ⟨rfl, rfl⟩ := hrun
    simpa using h
  | cons object news ih =>
    rw [Tls.prepareTls] at hrun
    obtain ⟨⟨l₁, object₁⟩, hfst, hrest⟩ := bind_eq_some_iff.mp hrun
    obtain ⟨⟨l₂, news₂⟩, hnext, hpair⟩ := map_eq_some_iff.mp hrest
    cases hpair
    have hstep := h.append hfst (hnew object (mem_cons_self ..))
    have hall := ih hstep (fun o ho => hnew o (mem_cons_of_mem _ ho)) hnext
    rwa [List.append_assoc] at hall

lemma loaded_new {elfs : List (List Phdr × Option TlsSegment)} :
    ∀ object ∈ elfs.map fun elf => Object.loaded elf.1 elf.2, object.tlsModule = 0 ∧ object.tlsOffset = 0 := by
  intro object hobj
  obtain ⟨elf, -, rfl⟩ := List.mem_map.mp hobj
  exact ⟨rfl, rfl⟩

structure Linker.Started (l : Linker) : Prop where
  laid : l.Laid l.objects
  static : l.staticTlsCount = l.tlsCount

lemma start_started {elfs : List (List Phdr × Option TlsSegment)} (h : start elfs = some l) : l.Started := by
  obtain ⟨⟨l₁, objects⟩, hrun, rfl⟩ := map_eq_some_iff.mp h
  have hemp : (⟨[], 0, 0, 16, 0⟩ : Linker).Laid [] :=
    ⟨⟨4, rfl⟩, by simp, by simp, by simp, by simp, by simp, by simp, .nil⟩
  have hlaid := hemp.prepareTls loaded_new hrun
  exact ⟨{ hlaid with }, rfl⟩

/-! ### Later loads -/

/-- The linker after loads: the layout of the startup is the same. -/
structure Linker.After (started l : Linker) : Prop where
  objects : ∃ later, l.objects = started.objects ++ later ∧ ∀ object ∈ later, object.tlsOffset = 0
  numbered : ∀ object ∈ l.objects, object.tlsModule ≤ l.tlsCount
  tlsSize : l.tlsSize = started.tlsSize
  tlsAlignment : l.tlsAlignment = started.tlsAlignment
  static : l.staticTlsCount = started.staticTlsCount

lemma Linker.Started.after (h : l.Started) : Linker.After l l :=
  ⟨⟨[], by simp, by simp⟩, h.laid.numbered, rfl, rfl, rfl⟩

lemma prepareObject_load (h : prepareObject false l object = some (l', object'))
    (hnew : object.tlsModule = 0 ∧ object.tlsOffset = 0) :
    ∃ n, l' = { l with tlsCount := l.tlsCount + n } ∧ object'.tlsOffset = 0 ∧ object'.tlsModule ≤ l.tlsCount + n := by
  unfold prepareObject at h
  cases htls : object.tls with
  | none =>
    simp only [htls, Option.some.injEq, Prod.mk.injEq] at h
    obtain ⟨rfl, rfl⟩ := h
    exact ⟨0, rfl, hnew.2, by omega⟩
  | some p =>
    simp only [htls, hnew.1, ne_eq, not_true_eq_false, if_false, Bool.false_eq_true, ite_none_left_eq_some,
      Option.some.injEq, Prod.mk.injEq] at h
    obtain ⟨-, -, rfl, rfl⟩ := h
    exact ⟨1, rfl, hnew.2, Nat.le_refl _⟩

lemma prepareTls_load {news news' : List Object} (hnew : ∀ object ∈ news, object.tlsModule = 0 ∧ object.tlsOffset = 0)
    (hrun : prepareTls false l news = some (l', news')) :
    ∃ n, l' = { l with tlsCount := l.tlsCount + n } ∧
      ∀ object ∈ news', object.tlsOffset = 0 ∧ object.tlsModule ≤ l.tlsCount + n := by
  induction news generalizing l l' news' with
  | nil =>
    simp only [prepareTls, Option.some.injEq, Prod.mk.injEq] at hrun
    obtain ⟨rfl, rfl⟩ := hrun
    exact ⟨0, rfl, by simp⟩
  | cons object news ih =>
    rw [prepareTls] at hrun
    obtain ⟨⟨l₁, object₁⟩, hfst, hrest⟩ := bind_eq_some_iff.mp hrun
    obtain ⟨⟨l₂, news₂⟩, hnext, hpair⟩ := map_eq_some_iff.mp hrest
    cases hpair
    obtain ⟨n, rfl, hofs, hmodul⟩ := prepareObject_load hfst (hnew object (mem_cons_self ..))
    obtain ⟨k, rfl, hnews⟩ := ih (fun o ho => hnew o (mem_cons_of_mem _ ho)) hnext
    refine ⟨n + k, by simp [Nat.add_assoc], fun o ho => ?_⟩
    rcases mem_cons.mp ho with rfl | ho
    · exact ⟨hofs, by omega⟩
    · obtain ⟨hofs', hmodul'⟩ := hnews o ho
      exact ⟨hofs', by simpa [Nat.add_assoc] using hmodul'⟩

lemma Linker.After.load (h : Linker.After started l) {elfs : List (List Phdr × Option TlsSegment)}
    (hload : l.load elfs = some l') : Linker.After started l' := by
  obtain ⟨⟨l₁, news⟩, hrun, rfl⟩ := map_eq_some_iff.mp hload
  obtain ⟨n, rfl, hnews⟩ := prepareTls_load loaded_new hrun
  obtain ⟨later, hobjs, hlat⟩ := h.objects
  refine { h with objects := ⟨later ++ news, by simp [hobjs], fun o ho => ?_⟩, numbered := fun o ho => ?_ }
  · rcases mem_append.mp ho with ho | ho
    · exact hlat o ho
    · exact (hnews o ho).1
  · rcases mem_append.mp ho with ho | ho
    · exact (h.numbered o ho).trans (Nat.le_add_right ..)
    · exact (hnews o ho).2

/-! ### Module vectors -/

namespace TlsControl

def areaStart (tls : TlsControl) (object : Object) : ℕ := tls.self.toNat - object.tlsOffset.toNat

/-- The static areas, the control block and the vector that a thread starts with are inside the mapping, and do not
overlap. -/
structure Placed (started : Linker) (tls : TlsControl) : Prop where
  memory : 0 < tls.region.address.toNat
  /-- all areas are behind the start of the mapping and in front of the control block -/
  inside : ∀ object ∈ started.objects, ∀ p, object.tls = some p → object.tlsOffset.toNat ≤ tls.self.toNat ∧
    tls.region.address.toNat ≤ tls.areaStart object ∧ tls.areaStart object + p.memsz.toNat ≤ tls.self.toNat
  aligned : ∀ object ∈ started.objects, ∀ p, object.tls = some p →
    tls.areaStart object % p.alignment.toNat = p.vaddr.toNat % p.alignment.toNat
  disjoint : started.objects.Pairwise fun object object' => ∀ p p', object.tls = some p → object'.tls = some p' →
    tls.areaStart object' + p'.memsz.toNat ≤ tls.areaStart object
  /-- the control block has room for what was asked for, and the vector is behind it -/
  control : controlSize.toNat + tls.runtimeSize.toNat ≤ (controlBytes tls.runtimeSize).toNat
  vector : tls.self.toNat + (controlBytes tls.runtimeSize).toNat + 8 * (started.staticTlsCount + 1) ≤
    tls.region.address.toNat + tls.region.size.toNat

end TlsControl

/-- The block holds the segment, aligned as it asks, behind the header. -/
structure DynamicBlock.Fits (b : DynamicBlock) : Prop where
  header : b.region.address.toNat + allocationSize.toNat ≤ b.base.toNat
  inside : b.base.toNat + b.segment.memsz.toNat ≤ b.region.address.toNat + b.region.size.toNat
  aligned : b.base.toNat % b.segment.alignment.toNat = b.segment.vaddr.toNat % b.segment.alignment.toNat

/-- The module of the block is an object, and its segment is the one of the object. -/
def Linker.Names (l : Linker) (b : DynamicBlock) : Prop :=
  ∃ object ∈ l.objects, object.tlsModule = b.module ∧ object.tls = some b.segment

/-- A thread's vector: the entries of the startup are the static areas, the others are the bases of its blocks. -/
structure TlsControl.Linked (started : Linker) (tls : TlsControl) : Prop where
  length : tls.modules.length = tls.moduleCount + 1
  static : ∀ object ∈ started.objects, object.tlsOffset ≠ 0 → (tls.entry object.tlsModule).toNat = tls.areaStart object
  dynamic : tls.released = false → ∀ m, tls.entry m ≠ 0 →
    (∃ object ∈ started.objects, object.tlsOffset ≠ 0 ∧ object.tlsModule = m) ∨
      ∃ b ∈ tls.dynamicBlocks, b.module = m ∧ b.base = tls.entry m
  fits : ∀ b ∈ tls.dynamicBlocks, b.Fits

/-- The entries that were set are the same, and so are the areas of the thread. -/
structure TlsControl.Extends (tls tls' : TlsControl) : Prop where
  self : tls'.self = tls.self
  region : tls'.region = tls.region
  runtimeSize : tls'.runtimeSize = tls.runtimeSize
  entry : ∀ m, tls.entry m ≠ 0 → tls'.entry m = tls.entry m

lemma TlsControl.Extends.refl (tls : TlsControl) : tls.Extends tls := ⟨rfl, rfl, rfl, fun _ _ => rfl⟩

lemma TlsControl.Extends.trans {tls'' : TlsControl} (h : tls.Extends tls') (h' : tls'.Extends tls'') :
    tls.Extends tls'' :=
  ⟨h'.self.trans h.self, h'.region.trans h.region, h'.runtimeSize.trans h.runtimeSize, fun m hm => by
    rw [h'.entry m (by rwa [h.entry m hm]), h.entry m hm]⟩

lemma TlsControl.Extends.placed (h : tls.Extends tls') (hp : tls.Placed started) : tls'.Placed started := by
  obtain ⟨hself, hrgn, hrunt, -⟩ := h
  have harea (o : Object) : tls'.areaStart o = tls.areaStart o := by rw [TlsControl.areaStart, hself]; rfl
  refine ⟨by rw [hrgn]; exact hp.memory, fun o ho p hp' => ?_, fun o ho p hp' => ?_, ?_, ?_, ?_⟩
  · rw [harea, hself, hrgn]
    exact hp.inside o ho p hp'
  · rw [harea]
    exact hp.aligned o ho p hp'
  · simpa only [harea] using hp.disjoint
  · rw [hrunt]
    exact hp.control
  · rw [hself, hrunt, hrgn]
    exact hp.vector

lemma TlsControl.Placed.entry_ne_zero (hp : tls.Placed started) (hs : started.Started) (hl : tls.Linked started)
    (ho : object ∈ started.objects) (hofs : object.tlsOffset ≠ 0) : tls.entry object.tlsModule ≠ 0 := by
  intro hzero
  have hstar := hl.static object ho hofs
  cases htls : object.tls with
  | none => exact hofs (hs.laid.bare object ho htls)
  | some p =>
    have hin := (hp.inside object ho p htls).2.1
    have hmemo := hp.memory
    rw [hzero, toNat_zero] at hstar
    omega

/-! ### A new thread -/

section Entries

variable {modules : List UInt64}

lemma setEntry_length (object : Object) : (object.setEntry self modules).length = modules.length := by
  unfold Object.setEntry
  split
  · rfl
  · exact List.length_set

lemma entries_length : (objects.foldl (Object.setEntry self) modules).length = modules.length := by
  induction objects generalizing modules with
  | nil => rfl
  | cons object objects ih => exact ih.trans (setEntry_length object)

lemma entries_other (h : ∀ object ∈ objects, object.tlsOffset ≠ 0 → object.tlsModule ≠ m) :
    (objects.foldl (Object.setEntry self) modules).getD m 0 = modules.getD m 0 := by
  induction objects generalizing modules with
  | nil => rfl
  | cons object objects ih =>
    refine (ih fun o ho => h o (mem_cons_of_mem _ ho)).trans ?_
    unfold Object.setEntry
    split
    · rfl
    · next hofs =>
      have hne := h object (mem_cons_self ..) hofs
      simp [List.getD_eq_getElem?_getD, List.getElem?_set_ne hne]

lemma entries_entry (self : UInt64) (hdist : objects.Pairwise fun o o' => o'.tlsOffset ≠ 0 → o.tlsModule ≠ o'.tlsModule)
    (ho : object ∈ objects) (hofs : object.tlsOffset ≠ 0) (hlt : object.tlsModule < modules.length) :
    (objects.foldl (Object.setEntry self) modules).getD object.tlsModule 0 = self - object.tlsOffset := by
  induction objects generalizing modules with
  | nil => cases ho
  | cons first objects ih =>
    obtain ⟨hfst, hrest⟩ := List.pairwise_cons.mp hdist
    rcases mem_cons.mp ho with rfl | ho
    · refine (entries_other fun o ho hoff heq => hfst o ho hoff heq.symm).trans ?_
      rw [Object.setEntry, if_neg hofs, List.getD_eq_getElem?_getD, List.getElem?_set_self hlt, getD_some]
    · exact ih hrest ho (by rwa [setEntry_length])

end Entries

lemma vmMap_some (h : vmMap memory size = some block) :
    block = memory ∧ 0 < memory.toNat ∧ memory.toNat + size.toNat ≤ 2 ^ 64 := by
  simp only [vmMap, Option.ite_none_right_eq_some, Option.some.injEq] at h
  obtain ⟨⟨hne, hle⟩, rfl⟩ := h
  exact ⟨rfl, Nat.pos_of_ne_zero fun hzero => hne (UInt64.toNat_inj.mp hzero), hle⟩

lemma toNat_roundDown_page (x : UInt64) : (roundDown x vmPageSize).toNat = down x.toNat 4096 :=
  toNat_and_not x (show vmPageSize.toNat.isPowerOfTwo from ⟨12, rfl⟩)

lemma allocation_sizes {runtimeSize : UInt64} (h : ¬l.AllocationOverflows runtimeSize) :
    controlSize.toNat + runtimeSize.toNat ≤ (controlBytes runtimeSize).toNat ∧
      l.vectorBytes.toNat = 8 * (l.staticTlsCount + 1) ∧
      (controlBytes runtimeSize).toNat + 8 * (l.staticTlsCount + 1) + l.tlsSize.toNat + l.tlsAlignment.toNat ≤
        (l.allocationBytes runtimeSize).toNat := by
  have hrunt := runtimeSize.toNat_lt
  have hsize := l.tlsSize.toNat_lt
  have halig := l.tlsAlignment.toNat_lt
  simp only [Linker.AllocationOverflows, gt_iff_lt, not_or, Nat.not_lt] at h
  obtain ⟨h₁, hcnt, h₂, h₃, h₄, h₅⟩ := h
  rw [show (sizeMax / pointerSize).toNat = 2305843009213693951 by decide +kernel] at hcnt
  have hvec : l.vectorBytes.toNat = 8 * (l.staticTlsCount + 1) := by
    unfold Linker.vectorBytes pointerSize
    rw [UInt64.toNat_mul, UInt64.toNat_ofNat']
    simp only [reduceToNat]
    omega
  have hvect := l.vectorBytes.toNat_lt
  have hcont := (controlBytes runtimeSize).toNat_lt
  simp only [lt_iff_toNat_lt, toNat_sub, toNat_add, Nat.not_lt, sizeMax, controlSize, pointerSize,
    vmPageSize, reduceToNat, reduceSub] at h₁ h₂ h₃ h₄ h₅
  have hcon : (controlBytes runtimeSize).toNat = down (80 + runtimeSize.toNat + 8 - 1) 8 := by
    refine (toNat_and_not _ (show pointerSize.toNat.isPowerOfTwo from ⟨3, rfl⟩)).trans ?_
    rw [show pointerSize.toNat = 8 from rfl]
    congr 1
    simp only [toNat_sub, toNat_add, controlSize, pointerSize, reduceToNat]
    omega
  have hlt := lt_down_add (80 + runtimeSize.toNat + 8 - 1) (show 0 < 8 by omega)
  have hbs : (l.allocationBytes runtimeSize).toNat = down ((controlBytes runtimeSize).toNat + l.vectorBytes.toNat +
      l.tlsSize.toNat + l.tlsAlignment.toNat + 4096 - 1) 4096 := by
    rw [Linker.allocationBytes, toNat_roundDown_page]
    refine congrArg (down · 4096) ?_
    simp only [toNat_sub, toNat_add, vmPageSize, reduceToNat]
    omega
  have hlt' := lt_down_add ((controlBytes runtimeSize).toNat + l.vectorBytes.toNat + l.tlsSize.toNat +
    l.tlsAlignment.toNat + 4096 - 1) (show 0 < 4096 by omega)
  refine ⟨?_, hvec, by omega⟩
  simp only [controlSize, reduceToNat]
  omega

lemma tlsAllocate_spec {runtimeSize : UInt64} (hs : started.Started) (ha : Linker.After started l)
    (h : l.tlsAllocate runtimeSize memory = some tls) : tls.Placed started ∧ tls.Linked started := by
  simp only [Linker.tlsAllocate, ite_none_left_eq_some] at h
  obtain ⟨hfits, h⟩ := h
  obtain ⟨address, hmap, rfl⟩ := map_eq_some_iff.mp h
  obtain ⟨rfl, hmemo, hrng⟩ := vmMap_some hmap
  obtain ⟨hcon, -, hbs⟩ := allocation_sizes hfits
  have hpower := hs.laid.power
  have hpos := Nat.pos_of_isPowerOfTwo hpower
  rw [ha.tlsSize, ha.tlsAlignment, ha.static] at hbs
  have hself : (roundDown (address + l.tlsSize + l.tlsAlignment - 1) l.tlsAlignment).toNat =
      down (address.toNat + started.tlsSize.toNat + started.tlsAlignment.toNat - 1) started.tlsAlignment.toNat := by
    rw [ha.tlsSize, ha.tlsAlignment]
    unfold roundDown
    rw [toNat_and_not _ hpower]
    congr 1
    have hsize := (l.allocationBytes runtimeSize).toNat_lt
    simp only [toNat_sub, toNat_add, reduceToNat]
    omega
  have hle := down_le (address.toNat + started.tlsSize.toNat + started.tlsAlignment.toNat - 1) started.tlsAlignment.toNat
  have hlt := lt_down_add (address.toNat + started.tlsSize.toNat + started.tlsAlignment.toNat - 1) hpos
  have hmod := down_mod (address.toNat + started.tlsSize.toNat + started.tlsAlignment.toNat - 1) started.tlsAlignment.toNat
  rw [← hself] at hle hlt hmod
  set self := roundDown (address + l.tlsSize + l.tlsAlignment - 1) l.tlsAlignment with hsel
  have hplac : TlsControl.Placed started ⟨⟨address, l.allocationBytes runtimeSize⟩, self, runtimeSize, l.staticTlsCount,
      l.objects.foldl (Object.setEntry self) (List.replicate (l.staticTlsCount + 1) 0), ⟨0, 0⟩, [], false⟩ := by
    refine ⟨hmemo, fun o ho p hp => ?_, fun o ho p hp => ?_, ?_, hcon, ?_⟩
    · have hofs := hs.laid.offset o ho
      have hmems := hs.laid.memsz o ho p hp
      simp only [TlsControl.areaStart]
      omega
    · have hofs := hs.laid.offset o ho
      have hdvd := hs.laid.divides o ho p hp
      have hskewed := hs.laid.skewed o ho p hp
      have hself' : self.toNat = o.tlsOffset.toNat + (self.toNat - o.tlsOffset.toNat) := by omega
      have hzero : self.toNat % p.alignment.toNat = 0 :=
        Nat.mod_eq_zero_of_dvd (hdvd.trans (Nat.dvd_of_mod_eq_zero hmod))
      have hmodEq : o.tlsOffset.toNat + (self.toNat - o.tlsOffset.toNat) ≡ o.tlsOffset.toNat + p.skew.toNat
          [MOD p.alignment.toNat] := by
        rw [Nat.ModEq, ← hself', hzero, hskewed]
      have hstar : (self.toNat - o.tlsOffset.toNat) % p.alignment.toNat = p.skew.toNat % p.alignment.toNat :=
        Nat.ModEq.add_left_cancel' _ hmodEq
      simp only [TlsControl.areaStart]
      rw [hstar, p.skew_eq, Nat.mod_mod]
    · refine hs.laid.order.imp_of_mem fun {o o'} ho ho' hbef p p' _ hp' => ?_
      have hroom := (hbef p' hp').1
      have hofs := hs.laid.offset o' ho'
      simp only [TlsControl.areaStart]
      omega
    · simp only
      omega
  refine ⟨hplac, ?_, ?_, ?_, by simp⟩
  · exact entries_length.trans List.length_replicate
  · intro o ho hofs
    have hlt' : o.tlsModule < (List.replicate (l.staticTlsCount + 1) (0 : UInt64)).length := by
      rw [List.length_replicate, ha.static, hs.static]
      exact Nat.lt_succ_of_le (hs.laid.numbered o ho)
    obtain ⟨later, hobjs, hlat⟩ := ha.objects
    have hdist : l.objects.Pairwise fun o o' => o'.tlsOffset ≠ 0 → o.tlsModule ≠ o'.tlsModule := by
      rw [hobjs]
      refine List.pairwise_append.mpr ⟨?_, ?_, fun a _ b hb hne => absurd (hlat b hb) hne⟩
      · refine hs.laid.order.imp_of_mem fun {a b} _ hb hbef hne => ?_
        cases htls : b.tls with
        | none => exact absurd (hs.laid.bare b hb htls) hne
        | some p => exact Nat.ne_of_lt (hbef p htls).2
      · exact List.Pairwise.imp_of_mem (R := fun _ _ => True) (fun {a b} _ hb _ hne => absurd (hlat b hb) hne)
          (List.pairwise_of_forall (fun _ _ => trivial))
    have hent := entries_entry self hdist (by rw [hobjs]; exact List.mem_append_left _ ho) hofs hlt'
    have hle' : o.tlsOffset.toNat ≤ self.toNat := (hs.laid.offset o ho).trans (by omega)
    refine (congrArg toNat hent).trans ?_
    rw [UInt64.toNat_sub_of_le _ _ (UInt64.le_iff_toNat_le.mpr hle')]
    rfl
  · intro _ m hm
    refine .inl (by_contra fun hnone => hm ?_)
    obtain ⟨later, hobjs, hlat⟩ := ha.objects
    refine (entries_other fun o ho hofs heq => ?_).trans ?_
    · rw [hobjs] at ho
      rcases mem_append.mp ho with ho | ho
      · exact hnone ⟨o, ho, hofs, heq⟩
      · exact hofs (hlat o ho)
    · rw [List.getD_eq_getElem?_getD, List.getElem?_getD_replicate_default_eq]

/-! ### Addresses -/

lemma grow_spec {tlsCount : ℕ} (hl : tls.Linked started) (hcnt : tls.moduleCount < tlsCount)
    (h : tls.grow tlsCount memory = some tls') :
    tls.Extends tls' ∧ tls'.Linked started ∧ tls'.moduleCount = tlsCount ∧ tls'.released = tls.released := by
  simp only [TlsControl.grow, ite_none_left_eq_some] at h
  obtain ⟨-, -, h⟩ := h
  obtain ⟨vector, -, rfl⟩ := map_eq_some_iff.mp h
  have hent (m : ℕ) : (tls.modules.take (tls.moduleCount + 1) ++
      List.replicate (tlsCount - tls.moduleCount) 0).getD m 0 = tls.entry m := by
    rw [List.take_of_length_le (Nat.le_of_eq hl.length), TlsControl.entry]
    by_cases hm : m < tls.modules.length
    · rw [List.getD_append _ _ _ _ hm]
    · rw [List.getD_append_right _ _ _ _ (Nat.le_of_not_lt hm), List.getD_eq_default _ _ (Nat.le_of_not_lt hm)]
      rw [List.getD_eq_getElem?_getD, List.getElem?_getD_replicate_default_eq]
  refine ⟨⟨rfl, rfl, rfl, fun m _ => hent m⟩, ⟨?_, fun o ho hofs => ?_, fun hr m hm => ?_, hl.fits⟩, rfl, rfl⟩
  · simp only [List.length_append, List.length_take, List.length_replicate, hl.length]
    omega
  · exact (congrArg toNat (hent o.tlsModule)).trans (hl.static o ho hofs)
  · have hm' : tls.entry m ≠ 0 := fun hzero => hm ((hent m).trans hzero)
    rcases hl.dynamic hr m hm' with hstat | ⟨b, hb, hmodul, hbase⟩
    · exact .inl hstat
    · exact .inr ⟨b, hb, hmodul, hbase.trans (hent m).symm⟩

lemma block_fits (hlen : ¬p.memsz > sizeMax - p.alignment - allocationSize - vmPageSize)
    (halig : ¬p.alignment > sizeMax - allocationSize - vmPageSize)
    (hrng : block.toNat +
      (roundDown (allocationSize + p.alignment + p.memsz + vmPageSize - 1) vmPageSize).toNat ≤ 2 ^ 64) :
    DynamicBlock.Fits ⟨⟨block, roundDown (allocationSize + p.alignment + p.memsz + vmPageSize - 1) vmPageSize⟩, m, p,
      roundDown (block + allocationSize - p.skew + p.alignment - 1) p.alignment + p.skew⟩ := by
  have hpos := p.alignment_pos
  have hskew := p.skew_lt
  have hmems := p.memsz.toNat_lt
  have hbd := p.alignment.toNat_lt
  simp only [gt_iff_lt, lt_iff_toNat_lt, toNat_sub, Nat.not_lt, sizeMax, allocationSize, vmPageSize,
    reduceToNat, reduceSub] at hlen halig
  have hsize : (roundDown (allocationSize + p.alignment + p.memsz + vmPageSize - 1) vmPageSize).toNat =
      down (16 + p.alignment.toNat + p.memsz.toNat + 4096 - 1) 4096 := by
    rw [toNat_roundDown_page]
    refine congrArg (down · 4096) ?_
    simp only [toNat_sub, toNat_add, allocationSize, vmPageSize, reduceToNat]
    omega
  have hlt := lt_down_add (16 + p.alignment.toNat + p.memsz.toNat + 4096 - 1) (show 0 < 4096 by omega)
  rw [← hsize] at hlt
  have hdown : (roundDown (block + allocationSize - p.skew + p.alignment - 1) p.alignment).toNat =
      down (block.toNat + 16 + (p.alignment.toNat - 1 - p.skew.toNat)) p.alignment.toNat := by
    unfold roundDown
    rw [toNat_and_not _ p.alignment_powerOfTwo]
    congr 1
    simp only [toNat_sub, toNat_add, allocationSize, reduceToNat]
    omega
  have hle' := down_le (block.toNat + 16 + (p.alignment.toNat - 1 - p.skew.toNat)) p.alignment.toNat
  have hlt' := lt_down_add (block.toNat + 16 + (p.alignment.toNat - 1 - p.skew.toNat)) hpos
  have hmod := down_mod (block.toNat + 16 + (p.alignment.toNat - 1 - p.skew.toNat)) p.alignment.toNat
  rw [← hdown] at hle' hlt' hmod
  have hbase : (roundDown (block + allocationSize - p.skew + p.alignment - 1) p.alignment + p.skew).toNat =
      (roundDown (block + allocationSize - p.skew + p.alignment - 1) p.alignment).toNat + p.skew.toNat := by
    rw [toNat_add]
    omega
  refine ⟨?_, ?_, ?_⟩
  · rw [hbase, show allocationSize.toNat = 16 from rfl]
    dsimp only
    omega
  · rw [hbase]
    dsimp only
    omega
  · rw [hbase, Nat.add_mod, hmod, Nat.zero_add, Nat.mod_mod, p.skew_eq, Nat.mod_mod]

lemma addBlock_spec (hl : tls.Linked started) (hr : tls.released = false) (hm : m ≤ tls.moduleCount)
    (hzero : tls.entry m = 0)
    (hstat : ∀ object ∈ started.objects, object.tlsOffset ≠ 0 → object.tlsModule ≠ m)
    (h : tls.addBlock m p memory = some tls') :
    tls.Extends tls' ∧ tls'.Linked started ∧ tls'.entry m ≠ 0 ∧ tls'.released = false := by
  simp only [TlsControl.addBlock, ite_none_left_eq_some, not_or] at h
  obtain ⟨⟨halig, hlen⟩, h⟩ := h
  obtain ⟨address, hmap, rfl⟩ := map_eq_some_iff.mp h
  obtain ⟨rfl, hmemo, hrng⟩ := vmMap_some hmap
  have hfits := block_fits (m := m) hlen halig hrng
  set base := roundDown (address + allocationSize - p.skew + p.alignment - 1) p.alignment + p.skew with hbase
  have hlt : m < tls.modules.length := by
    rw [hl.length]
    omega
  have hself : (tls.modules.set m base).getD m 0 = base := by
    rw [List.getD_eq_getElem?_getD, List.getElem?_set_self hlt, getD_some]
  have hoth (k : ℕ) (hk : m ≠ k) : (tls.modules.set m base).getD k 0 = tls.entry k := by
    rw [List.getD_eq_getElem?_getD, List.getElem?_set_ne hk, ← List.getD_eq_getElem?_getD, TlsControl.entry]
  have hne : base ≠ 0 := by
    intro heq
    have hhdr := hfits.header
    rw [heq, toNat_zero] at hhdr
    dsimp only at hhdr
    omega
  refine ⟨⟨rfl, rfl, rfl, fun k hk => hoth k fun heq => hk (heq ▸ hzero)⟩, ⟨?_, fun o ho hofs => ?_, fun _ k hk => ?_,
    fun b hb => ?_⟩, fun heq => hne (hself.symm.trans heq), hr⟩
  · exact List.length_set.trans hl.length
  · exact (congrArg toNat (hoth _ (hstat o ho hofs).symm)).trans (hl.static o ho hofs)
  · by_cases hmk : m = k
    · subst hmk
      exact .inr ⟨_, mem_cons_self .., rfl, hself.symm⟩
    · have hk' : tls.entry k ≠ 0 := fun heq => hk ((hoth k hmk).trans heq)
      rcases hl.dynamic hr k hk' with hold | ⟨b, hb, hmodul, hbase'⟩
      · exact .inl hold
      · exact .inr ⟨b, mem_cons_of_mem _ hb, hmodul, hbase'.trans (hoth k hmk).symm⟩
  · rcases mem_cons.mp hb with rfl | hb
    · exact hfits
    · exact hl.fits b hb

/-- **What a call of `tls_address` leaves.** The vector has an entry for the module, and those it had are the same. -/
lemma tlsAddress_spec {address : UInt64} (hs : started.Started) (ha : Linker.After started l) (hp : tls.Placed started)
    (hl : tls.Linked started) (hr : tls.released = false)
    (h : tlsAddress l tls index vector block = some (tls', address)) :
    tls.Extends tls' ∧ tls'.Linked started ∧ tls'.entry index.module ≠ 0 ∧
      address = tls'.entry index.module + index.offset := by
  obtain ⟨segment, hseg, h⟩ := bind_eq_some_iff.mp h
  obtain ⟨tls₁, hgrow, h⟩ := bind_eq_some_iff.mp h
  obtain ⟨tls₂, hblk, hpair⟩ := map_eq_some_iff.mp h
  cases hpair
  obtain ⟨found, hfnd, -⟩ := bind_eq_some_iff.mp hseg
  have hmodul : index.module ≤ l.tlsCount := by
    have hnum := ha.numbered found (List.mem_of_find?_eq_some hfnd)
    rwa [show found.tlsModule = index.module by simpa using List.find?_some hfnd] at hnum
  obtain ⟨hext, hl₁, hle, hr₁⟩ : tls.Extends tls₁ ∧ tls₁.Linked started ∧ index.module ≤ tls₁.moduleCount ∧
      tls₁.released = false := by
    split at hgrow
    · next hgt =>
      obtain ⟨hext, hl₁, hcnt, hr₁⟩ := grow_spec hl (by omega) hgrow
      exact ⟨hext, hl₁, by omega, hr₁.trans hr⟩
    · next hle =>
      cases hgrow
      exact ⟨.refl tls, hl, by omega, hr⟩
  split at hblk
  · next hzero =>
    have hstat (o : Object) (ho : o ∈ started.objects) (hofs : o.tlsOffset ≠ 0) : o.tlsModule ≠ index.module :=
      fun heq => (hext.placed hp).entry_ne_zero hs hl₁ ho hofs (heq ▸ hzero)
    obtain ⟨hext', hl₂, hne, -⟩ := addBlock_spec hl₁ hr₁ hle hzero hstat hblk
    exact ⟨hext.trans hext', hl₂, hne, rfl⟩
  · next hne =>
    cases hblk
    exact ⟨hext, hl₁, hne, rfl⟩

lemma tlsAllocate_blocks {runtimeSize : UInt64} (h : l.tlsAllocate runtimeSize memory = some tls) :
    tls.dynamicBlocks = [] := by
  simp only [Linker.tlsAllocate, ite_none_left_eq_some] at h
  obtain ⟨address, -, rfl⟩ := map_eq_some_iff.mp h.2
  rfl

/-- **A new block is the one of the object that has the module.** -/
lemma tlsAddress_blocks {address : UInt64} (h : tlsAddress l tls index vector block = some (tls', address))
    (hold : ∀ b ∈ tls.dynamicBlocks, l.Names b) : ∀ b ∈ tls'.dynamicBlocks, l.Names b := by
  obtain ⟨segment, hseg, h⟩ := bind_eq_some_iff.mp h
  obtain ⟨tls₁, hgrow, h⟩ := bind_eq_some_iff.mp h
  obtain ⟨tls₂, hblk, hpair⟩ := map_eq_some_iff.mp h
  cases hpair
  obtain ⟨found, hfnd, hseg⟩ := bind_eq_some_iff.mp hseg
  obtain ⟨p, hp, hseg⟩ := bind_eq_some_iff.mp hseg
  simp only [ite_none_left_eq_some, Option.some.injEq] at hseg
  obtain ⟨-, rfl⟩ := hseg
  have hsame : tls₁.dynamicBlocks = tls.dynamicBlocks := by
    split_ifs at hgrow
    · simp only [TlsControl.grow, ite_none_left_eq_some] at hgrow
      obtain ⟨memory, -, rfl⟩ := map_eq_some_iff.mp hgrow.2.2
      rfl
    · cases hgrow
      rfl
  split_ifs at hblk
  · simp only [TlsControl.addBlock, ite_none_left_eq_some] at hblk
    obtain ⟨memory, -, rfl⟩ := map_eq_some_iff.mp hblk.2
    refine List.forall_mem_cons.mpr ⟨⟨found, List.mem_of_find?_eq_some hfnd, ?_, hp⟩, hsame ▸ hold⟩
    simpa using List.find?_some hfnd
  · cases hblk
    exact hsame ▸ hold

/-! ### Every run -/

/-- The address of an answer is still what the thread's vector gives. -/
def World.Answered (w : World) (a : Answer) : Prop :=
  ∃ tls, w.threads[a.thread]? = some tls ∧ tls.entry a.index.module ≠ 0 ∧
    a.address = tls.entry a.index.module + a.index.offset

structure World.Inv (w : World) : Prop where
  started : w.started.Started
  linker : Linker.After w.started w.linker
  placed : ∀ tls ∈ w.threads, tls.Placed w.started
  linked : ∀ tls ∈ w.threads, tls.Linked w.started
  blocks : ∀ tls ∈ w.threads, ∀ b ∈ tls.dynamicBlocks, w.linker.Names b
  answered : ∀ a ∈ w.answers, w.Answered a

lemma World.running_some {t : ℕ} (h : w.running t = some tls) : w.threads[t]? = some tls ∧ tls.released = false := by
  obtain ⟨tls₀, ht, h⟩ := bind_eq_some_iff.mp h
  simp only [ite_none_left_eq_some, Option.some.injEq] at h
  obtain ⟨hr, rfl⟩ := h
  exact ⟨ht, by simpa using hr⟩

lemma World.Answered.extend {t : ℕ} {a : Answer} (h : w.Answered a) (ht : w.threads[t]? = some tls)
    (hext : tls.Extends tls') : World.Answered { w with threads := w.threads.set t tls' } a := by
  obtain ⟨u, hu, hne, haddr⟩ := h
  by_cases htu : t = a.thread
  · subst htu
    obtain rfl := Option.some.inj (ht.symm.trans hu)
    refine ⟨tls', ?_, ?_, ?_⟩
    · exact List.getElem?_set_self (List.getElem?_eq_some_iff.mp ht).1
    · rwa [hext.entry _ hne]
    · rwa [hext.entry _ hne]
  · exact ⟨u, (List.getElem?_set_ne htu).trans hu, hne, haddr⟩

lemma World.Inv.setThread {t : ℕ} (h : w.Inv) (ht : w.threads[t]? = some tls) (hext : tls.Extends tls')
    (hlink : tls'.Linked w.started) (hblks : ∀ b ∈ tls'.dynamicBlocks,
    w.linker.Names b) : World.Inv { w with threads := w.threads.set t tls' } := by
  refine ⟨h.started, h.linker, fun u hu => ?_, fun u hu => ?_, fun u hu => ?_,
    fun a ha => (h.answered a ha).extend ht hext⟩
  · rcases List.mem_or_eq_of_mem_set hu with hu | rfl
    · exact h.placed u hu
    · exact hext.placed (h.placed tls (List.mem_of_getElem? ht))
  · rcases List.mem_or_eq_of_mem_set hu with hu | rfl
    · exact h.linked u hu
    · exact hlink
  · rcases List.mem_or_eq_of_mem_set hu with hu | rfl
    · exact h.blocks u hu
    · exact hblks

lemma World.Inv.answer {a : Answer} (h : w.Inv) (ha : w.Answered a) : World.Inv { w with answers := a :: w.answers } :=
  { h with answered := List.forall_mem_cons.mpr ⟨ha, h.answered⟩ }

lemma World.Inv.step {e : Event} (h : w.Inv) (hstep : w.step e = some w') : w'.Inv := by
  cases e with
  | load elfs fails =>
    obtain ⟨l, hload, rfl⟩ := map_eq_some_iff.mp hstep
    cases fails with
    | true => exact h
    | false =>
      refine { h with linker := h.linker.load hload, blocks := fun tls htls b hb => ?_ }
      obtain ⟨object, hobj, hnam⟩ := h.blocks tls htls b hb
      obtain ⟨out, -, rfl⟩ := map_eq_some_iff.mp hload
      exact ⟨object, mem_append.mpr (.inl hobj), hnam⟩
  | allocate runtimeSize memory =>
    obtain ⟨tls, halc, rfl⟩ := map_eq_some_iff.mp hstep
    obtain ⟨hplac, hlink⟩ := tlsAllocate_spec h.started (h.linker) halc
    refine ⟨h.started, h.linker, fun u hu => ?_, fun u hu => ?_, fun u hu => ?_, fun a ha => ?_⟩
    · rcases mem_append.mp hu with hu | hu
      · exact h.placed u hu
      · exact mem_singleton.mp hu ▸ hplac
    · rcases mem_append.mp hu with hu | hu
      · exact h.linked u hu
      · exact mem_singleton.mp hu ▸ hlink
    · rcases mem_append.mp hu with hu | hu
      · exact h.blocks u hu
      · rw [mem_singleton.mp hu, tlsAllocate_blocks halc]
        exact nofun
    · obtain ⟨u, hu, hrest⟩ := h.answered a ha
      exact ⟨u, (List.getElem?_append_left (List.getElem?_eq_some_iff.mp hu).1).trans hu, hrest⟩
  | address t index vector block =>
    obtain ⟨tls, hrun, hstep⟩ := bind_eq_some_iff.mp hstep
    obtain ⟨⟨tls', address⟩, hcall, rfl⟩ := map_eq_some_iff.mp hstep
    obtain ⟨ht, hr⟩ := World.running_some hrun
    have hmem := List.mem_of_getElem? ht
    obtain ⟨hext, hlink, hne, haddr⟩ := tlsAddress_spec h.started (h.linker)
      (h.placed tls hmem) (h.linked tls hmem) hr hcall
    exact (h.setThread ht hext hlink (tlsAddress_blocks hcall (h.blocks tls hmem))).answer
      ⟨tls', List.getElem?_set_self (List.getElem?_eq_some_iff.mp ht).1, hne, haddr⟩
  | getAddr t index =>
    obtain ⟨tls, hrun, hstep⟩ := bind_eq_some_iff.mp hstep
    obtain ⟨address, hcall, rfl⟩ := map_eq_some_iff.mp hstep
    obtain ⟨ht, -⟩ := World.running_some hrun
    simp only [tlsGetAddr, Option.ite_none_right_eq_some, Option.some.injEq] at hcall
    obtain ⟨⟨-, -, hne⟩, rfl⟩ := hcall
    exact h.answer ⟨tls, ht, hne, rfl⟩
  | release t =>
    obtain ⟨tls, hrun, rfl⟩ := map_eq_some_iff.mp hstep
    obtain ⟨ht, -⟩ := World.running_some hrun
    have hold := h.linked tls (List.mem_of_getElem? ht)
    exact h.setThread ht ⟨rfl, rfl, rfl, fun _ _ => rfl⟩
      ⟨hold.length, hold.static, fun hr => by simp [TlsControl.release] at hr, by simp [TlsControl.release]⟩ nofun

lemma World.inv_reachable (hw : tlsSystem.Reachable w) : w.Inv := by
  refine hw.invariant (P := World.Inv) (fun s hs => ?_) fun s e s' hs hstep => hs.step hstep
  obtain ⟨elfs, l, hstar, rfl⟩ := hs
  have hstrt := start_started hstar
  exact ⟨hstrt, hstrt.after, by simp, by simp, by simp, by simp⟩

/-- **Thread-local storage.** In every block of `tls_allocate` the static areas, the control block and the vector lie
inside the mapping, do not overlap and are aligned; the entries of a vector are these areas and the bases of dynamic
blocks, which hold the segment of their module's object; and the address of a byte never changes. -/
theorem thread_storage (hw : tlsSystem.Reachable w) :
    (∀ tls ∈ w.threads, tls.Placed w.started) ∧ (∀ tls ∈ w.threads, tls.Linked w.started) ∧
      (∀ tls ∈ w.threads, ∀ b ∈ tls.dynamicBlocks, w.linker.Names b) ∧
      ∀ a ∈ w.answers, ∀ b ∈ w.answers, a.thread = b.thread → a.index = b.index → a.address = b.address := by
  have h := World.inv_reachable hw
  refine ⟨h.placed, h.linked, h.blocks, fun a ha b hb hthread hindex => ?_⟩
  obtain ⟨tls, ht, -, haddress⟩ := h.answered a ha
  obtain ⟨tls', ht', -, haddress'⟩ := h.answered b hb
  rw [hthread] at ht
  obtain rfl := Option.some.inj (ht.symm.trans ht')
  rw [haddress, haddress', hindex]

/-- The linker of a program and a library with the segments `⟨0x2010, 40, 32⟩` and `⟨0x3008, 100, 64⟩` -/
def twoModules : Linker :=
  (start [([], some ⟨0x2010, 0x2010, 0, 40, 32, by decide⟩), ([], some ⟨0x3008, 0x3008, 0, 100, 64, by decide⟩)]).getD
    ⟨[], 0, 0, 16, 0⟩

lemma twoModules_init : tlsSystem.init ⟨twoModules, twoModules, [], []⟩ := by
  obtain ⟨l, hl⟩ := Option.isSome_iff_exists.mp
    (show (start [([], some ⟨0x2010, 0x2010, 0, 40, 32, by decide⟩),
      ([], some ⟨0x3008, 0x3008, 0, 100, 64, by decide⟩)]).isSome = true by decide +kernel)
  exact ⟨_, twoModules, by rw [twoModules, hl]; rfl, rfl⟩

/-- A thread uses the library's storage, then that of a module which is loaded later, after a load that fails, and
both again. -/
def pluginRun : List Event :=
  [.allocate 64 0x10000, .getAddr 0 ⟨2, 4⟩, .load [([], some ⟨0x7020, 0x7020, 0, 24, 64, by decide⟩)] true,
    .load [([], some ⟨0x5030, 0x5030, 0, 24, 128, by decide⟩)] false,
    .address 0 ⟨3, 8⟩ 0x20000 0x30000, .address 0 ⟨2, 4⟩ 0 0, .address 0 ⟨3, 8⟩ 0 0, .allocate 64 0x40000, .release 0]

theorem thread_storage_plugin :
    let w := tlsSystem.replay ⟨twoModules, twoModules, [], []⟩ pluginRun
    w.answers.map (fun a => (a.index.module, a.address)) = [(3, 196664), (2, 65548), (3, 196664), (2, 65548)] ∧
      (∀ tls ∈ w.threads, tls.Placed w.started) ∧ (∀ tls ∈ w.threads, tls.Linked w.started) ∧
      (∀ tls ∈ w.threads, ∀ b ∈ tls.dynamicBlocks, w.linker.Names b) ∧
      ∀ a ∈ w.answers, ∀ b ∈ w.answers, a.thread = b.thread → a.index = b.index → a.address = b.address :=
  ⟨by decide +kernel, thread_storage (System.replay_reachable (.init twoModules_init) pluginRun)⟩

end PlantOS.Ldso.Tls
