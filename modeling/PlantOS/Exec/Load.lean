import Mathlib.Algebra.Group.Nat.Defs
import Mathlib.Data.List.Basic

/-!
# Executable images

The ELF headers of an image, `arch_executable_validate` of x86_64, and what an accepted image promises.
-/

namespace PlantOS.Exec

abbrev userSpaceStart : ℕ := 0x100000000

abbrev userHeapEnd : ℕ := 0x400000000000

abbrev pageSizeBytes : ℕ := 4096

/-- The values of a `uint64_t` -/
abbrev words : ℕ := 18446744073709551616

def addWord (a b : ℕ) : ℕ := (a + b) % words

def subWord (a b : ℕ) : ℕ := (a + words - b) % words

/-- `& ~4095ull` -/
def pageMask (address : ℕ) : ℕ := address / pageSizeBytes * pageSizeBytes

/-! ### Headers -/

/-- The little-endian number of `size` bytes at the offset -/
def field (image : List UInt8) (offset size : ℕ) : ℕ :=
  ((image.drop offset).take size).foldr (fun byte n => byte.toNat + 256 * n) 0

/-- `sizeof(Elf64_Ehdr)` -/
abbrev ehdrSize : ℕ := 64

/-- `sizeof(Elf64_Phdr)` -/
abbrev phdrSize : ℕ := 56

/-- The fields of `Elf64_Ehdr` that are read. -/
structure Elf64Ehdr where
  ident : List UInt8
  type : ℕ
  machine : ℕ
  version : ℕ
  entry : ℕ
  phoff : ℕ
  ehsize : ℕ
  phentsize : ℕ
  phnum : ℕ
  deriving DecidableEq, Repr

def elf64Ehdr (image : List UInt8) : Elf64Ehdr where
  ident := image.take 16
  type := field image 16 2
  machine := field image 18 2
  version := field image 20 4
  entry := field image 24 8
  phoff := field image 32 8
  ehsize := field image 52 2
  phentsize := field image 54 2
  phnum := field image 56 2

/-- The fields of `Elf64_Phdr` that are read. -/
structure Elf64Phdr where
  type : ℕ
  flags : ℕ
  offset : ℕ
  vaddr : ℕ
  filesz : ℕ
  memsz : ℕ
  align : ℕ
  deriving DecidableEq, Repr

def elf64Phdr (image : List UInt8) (base : ℕ) : Elf64Phdr where
  type := field image base 4
  flags := field image (base + 4) 4
  offset := field image (base + 8) 8
  vaddr := field image (base + 16) 8
  filesz := field image (base + 32) 8
  memsz := field image (base + 40) 8
  align := field image (base + 48) 8

def segments (image : List UInt8) : List Elf64Phdr :=
  (List.range (elf64Ehdr image).phnum).map fun i => elf64Phdr image ((elf64Ehdr image).phoff + i * phdrSize)

abbrev ptLoad : ℕ := 1
abbrev ptDynamic : ℕ := 2
abbrev ptInterp : ℕ := 3
abbrev pfX : ℕ := 1
abbrev pfW : ℕ := 2
abbrev etExec : ℕ := 2

def headerValid (image : List UInt8) (type : ℕ) : Bool :=
  let header := elf64Ehdr image
  ehdrSize ≤ image.length && header.ident.take 7 == [0x7f, 0x45, 0x4c, 0x46, 2, 1, 1] && header.type == type &&
    header.machine == 62 && header.version == 1 && header.ehsize == ehdrSize

/-! ### `arch_executable_validate` -/

namespace Elf64Phdr

variable (p : Elf64Phdr)

def load : Bool := p.type == ptLoad && p.memsz != 0

def writable : Bool := p.flags &&& pfW != 0

def executable : Bool := p.flags &&& pfX != 0

/-- `start` and `limit` -/
def start : ℕ := pageMask p.vaddr

def limit : ℕ := pageMask (addWord (addWord p.vaddr p.memsz) 4095)

def refused (size : ℕ) : Bool :=
  p.filesz > p.memsz || p.offset > size || p.filesz > size - p.offset || p.vaddr < userSpaceStart ||
    p.vaddr ≥ userHeapEnd || p.memsz > subWord (userHeapEnd - 4096) p.vaddr || p.writable && p.executable ||
    p.align > 1 && (p.align &&& (p.align - 1) != 0 || subWord p.vaddr p.offset &&& (p.align - 1) != 0)

def overlaps (previous : Elf64Phdr) : Bool :=
  previous.load && p.start < previous.limit && previous.start < p.limit

def hasEntry (entry : ℕ) : Bool := p.executable && entry ≥ p.vaddr && entry < addWord p.vaddr p.memsz

end Elf64Phdr

/-- The loop over the segments: `*end` and `entry_found`. -/
def validateLoop (size entry : ℕ) : List Elf64Phdr → List Elf64Phdr → ℕ × Bool → Option (ℕ × Bool)
  | _, [], found => some found
  | previous, p :: rest, found =>
    if p.type = ptInterp ∨ p.type = ptDynamic then none
    else if !p.load then validateLoop size entry (previous ++ [p]) rest found
    else if p.refused size ∨ previous.any p.overlaps then none
    else
      validateLoop size entry (previous ++ [p]) rest
        (if p.limit > found.1 then p.limit else found.1, found.2 || p.hasEntry entry)

/-- `arch_executable_validate`: `*entry` and `*end` of an image that is accepted. -/
def archExecutableValidate (image : List UInt8) : Option (ℕ × ℕ) :=
  let header := elf64Ehdr image
  if !headerValid image etExec ∨ header.phnum = 0 ∨ header.phentsize ≠ phdrSize ∨ header.phoff > image.length ∨
      header.phnum > (image.length - header.phoff) / phdrSize then none
  else
    match validateLoop image.length header.entry [] (segments image) (userSpaceStart, false) with
    | some (end_, true) => some (header.entry, end_)
    | _ => none

def loadSegments (image : List UInt8) : List Elf64Phdr := (segments image).filter (·.load)

namespace Elf64Phdr

variable (p : Elf64Phdr)

def pageEnd : ℕ := (p.vaddr + p.memsz + 4095) / pageSizeBytes * pageSizeBytes

def Covers (page : ℕ) : Prop := p.vaddr / pageSizeBytes ≤ page ∧ page * pageSizeBytes < p.vaddr + p.memsz

/-- Nothing that is computed from the addresses of the segment wraps. -/
def Exact : Prop :=
  p.vaddr + 4096 ≤ userHeapEnd ∧ addWord p.vaddr p.memsz = p.vaddr + p.memsz ∧
    addWord (addWord p.vaddr p.memsz) 4095 = p.vaddr + p.memsz + 4095

end Elf64Phdr

/-- **What the entry and the end of an accepted image stand for.** -/
structure Placed (image : List UInt8) (entry end_ : ℕ) : Prop where
  headers : (elf64Ehdr image).phoff + (elf64Ehdr image).phnum * phdrSize ≤ image.length
  exact : ∀ p ∈ loadSegments image, p.Exact
  inside : ∀ p ∈ loadSegments image, userSpaceStart ≤ p.vaddr ∧ p.vaddr + p.memsz ≤ userHeapEnd
  backed : ∀ p ∈ loadSegments image, p.filesz ≤ p.memsz ∧ p.offset + p.filesz ≤ image.length
  disjoint : (loadSegments image).Pairwise fun p q => ∀ page, ¬(p.Covers page ∧ q.Covers page)
  last : ∃ p ∈ loadSegments image, end_ = p.pageEnd
  covers : ∀ p ∈ loadSegments image, p.pageEnd ≤ end_
  below : end_ < userHeapEnd
  separate : ∀ p ∈ loadSegments image, ¬(p.writable = true ∧ p.executable = true)
  entered : ∃ p ∈ loadSegments image, p.executable = true ∧ p.vaddr ≤ entry ∧ entry < p.vaddr + p.memsz

/-- A segment that begins in the last page below `USER_HEAP_END`. -/
def InLastPage (p : Elf64Phdr) : Prop := userHeapEnd < p.vaddr + 4096

/-! ## The segments of an accepted image -/

/-! ### The loop -/

structure Tested (size entry : ℕ) (previous : List Elf64Phdr) (found : ℕ × Bool) : Prop where
  accepted : ∀ p ∈ previous.filter (·.load), p.refused size = false
  apart : (previous.filter (·.load)).Pairwise fun p q => q.overlaps p = false
  covers : ∀ p ∈ previous.filter (·.load), p.limit ≤ found.1
  last : found.1 = userSpaceStart ∨ ∃ p ∈ previous.filter (·.load), found.1 = p.limit
  entered : found.2 = true → ∃ p ∈ previous.filter (·.load), p.hasEntry entry = true

variable {size entry : ℕ} {previous rest : List Elf64Phdr} {found found' : ℕ × Bool} {p : Elf64Phdr}

lemma Tested.skip (h : Tested size entry previous found) (hload : p.load = false) :
    Tested size entry (previous ++ [p]) found := by
  have hsame : (previous ++ [p]).filter (·.load) = previous.filter (·.load) := by simp [hload]
  constructor <;> rw [hsame]
  exacts [h.accepted, h.apart, h.covers, h.last, h.entered]

lemma Tested.add (h : Tested size entry previous found) (hload : p.load = true) (hp : p.refused size = false)
    (hapar : previous.any p.overlaps = false) :
    Tested size entry (previous ++ [p])
      (if p.limit > found.1 then p.limit else found.1, found.2 || p.hasEntry entry) := by
  have hmore : (previous ++ [p]).filter (·.load) = previous.filter (·.load) ++ [p] := by simp [hload]
  have hp_mem : p ∈ previous.filter (·.load) ++ [p] := List.mem_append_right _ (List.mem_singleton_self p)
  constructor <;> rw [hmore]
  · intro q hq
    rcases List.mem_append.mp hq with hq | hq
    · exact h.accepted q hq
    · rwa [List.mem_singleton.mp hq]
  · refine List.pairwise_append.mpr ⟨h.apart, List.pairwise_singleton _ _, fun q hq r hr => ?_⟩
    obtain rfl := List.mem_singleton.mp hr
    rw [List.any_eq_false] at hapar
    simpa using hapar q (List.mem_of_mem_filter hq)
  · intro q hq
    rcases List.mem_append.mp hq with hq | hq
    · have hcover := h.covers q hq
      dsimp only
      split <;> omega
    · obtain rfl := List.mem_singleton.mp hq
      dsimp only
      split <;> omega
  · dsimp only
    split
    · exact .inr ⟨p, hp_mem, rfl⟩
    · exact h.last.imp_right fun ⟨q, hq, heq⟩ => ⟨q, List.mem_append_left _ hq, heq⟩
  · intro hentd
    rcases Bool.or_eq_true_iff.mp hentd with hfnd | hp
    · obtain ⟨q, hq, hent⟩ := h.entered hfnd
      exact ⟨q, List.mem_append_left _ hq, hent⟩
    · exact ⟨p, hp_mem, hp⟩

lemma validateLoop_tested (h : Tested size entry previous found)
    (hloop : validateLoop size entry previous rest found = some found') :
    Tested size entry (previous ++ rest) found' := by
  induction rest generalizing previous found with
  | nil =>
    cases hloop
    rwa [List.append_nil]
  | cons p rest ih =>
    rw [show previous ++ p :: rest = previous ++ [p] ++ rest by simp]
    unfold validateLoop at hloop
    split at hloop
    · cases hloop
    split at hloop
    · rename_i hload
      exact ih (h.skip (by simpa using hload)) hloop
    · rename_i hload
      split at hloop
      · cases hloop
      · rename_i htes
        rw [not_or, Bool.not_eq_true, Bool.not_eq_true] at htes
        exact ih (h.add (by simpa using hload) htes.1 htes.2) hloop

/-- What `arch_executable_validate` has tested of an image that it accepts. -/
structure Validated (image : List UInt8) (entry end_ : ℕ) : Prop where
  headers : (elf64Ehdr image).phoff + (elf64Ehdr image).phnum * phdrSize ≤ image.length
  tested : Tested image.length entry (segments image) (end_, true)

theorem validated_of_accepted {image : List UInt8} {entry end_ : ℕ}
    (h : archExecutableValidate image = some (entry, end_)) : Validated image entry end_ := by
  unfold archExecutableValidate at h
  dsimp only at h
  split at h
  · cases h
  rename_i hhdr
  simp only [not_or, Nat.not_lt] at hhdr
  obtain ⟨-, -, -, hphof, hphn⟩ := hhdr
  split at h
  · rename_i end₁ hloop
    cases h
    have hstar : Tested image.length (elf64Ehdr image).entry [] (userSpaceStart, false) :=
      ⟨nofun, List.Pairwise.nil, nofun, .inl rfl, nofun⟩
    refine ⟨?_, validateLoop_tested hstar hloop⟩
    have hfits := (Nat.le_div_iff_mul_le (by decide)).mp hphn
    omega
  · cases h

/-! ### The tests of one segment -/

structure Elf64Phdr.Fits (p : Elf64Phdr) (size : ℕ) : Prop where
  exact : p.Exact
  lower : userSpaceStart ≤ p.vaddr
  upper : p.vaddr + p.memsz + 4096 ≤ userHeapEnd
  file : p.filesz ≤ p.memsz ∧ p.offset + p.filesz ≤ size
  separate : ¬(p.writable = true ∧ p.executable = true)

lemma Elf64Phdr.fits (h : p.refused size = false) (hlast : ¬InLastPage p) : p.Fits size := by
  simp only [Elf64Phdr.refused, InLastPage, Bool.or_eq_false_iff, Bool.and_eq_false_iff, decide_eq_false_iff_not,
    subWord, userHeapEnd, userSpaceStart, words] at h hlast
  obtain ⟨⟨⟨⟨⟨⟨⟨hfil, hoff⟩, hfile⟩, hlo⟩, hup⟩, hmem⟩, hfl⟩, -⟩ := h
  have hmem := of_decide_eq_false hmem
  have hbd : p.vaddr + p.memsz + 4096 ≤ 0x400000000000 := by omega
  have hsum : addWord p.vaddr p.memsz = p.vaddr + p.memsz := Nat.mod_eq_of_lt (by unfold words; omega)
  have hrd : addWord (p.vaddr + p.memsz) 4095 = p.vaddr + p.memsz + 4095 :=
    Nat.mod_eq_of_lt (by unfold words; omega)
  refine ⟨⟨?_, hsum, by rw [hsum, hrd]⟩, ?_, hbd, ⟨?_, ?_⟩, ?_⟩
  · unfold userHeapEnd
    omega
  · unfold userSpaceStart
    omega
  · omega
  · omega
  · rintro ⟨hwrit, hexec⟩
    rw [hwrit, hexec] at hfl
    simp at hfl

lemma Elf64Phdr.limit_eq (h : p.Exact) : p.limit = p.pageEnd := by
  unfold Elf64Phdr.limit Elf64Phdr.pageEnd pageMask
  rw [h.2.2]

lemma Elf64Phdr.disjoint {q : Elf64Phdr} (hp : p.Exact) (hq : q.Exact) (hload : p.load = true)
    (h : q.overlaps p = false) (page : ℕ) : ¬(p.Covers page ∧ q.Covers page) := by
  rintro ⟨⟨hp₁, hp₂⟩, hq₁, hq₂⟩
  simp only [Elf64Phdr.overlaps, hload, Bool.true_and, Bool.and_eq_false_iff, decide_eq_false_iff_not,
    Elf64Phdr.limit_eq hp, Elf64Phdr.limit_eq hq, Elf64Phdr.start, Elf64Phdr.pageEnd, pageMask, pageSizeBytes]
    at h hp₁ hp₂ hq₁ hq₂
  omega

/-- **Where no segment begins in the last page, the image is placed as the tests are meant to ensure.** -/
theorem Validated.placed {image : List UInt8} {end_ : ℕ} (h : Validated image entry end_)
    (hlast : ∀ p ∈ loadSegments image, ¬InLastPage p) : Placed image entry end_ := by
  have hfits : ∀ p ∈ loadSegments image, p.Fits image.length := fun p hp =>
    p.fits (h.tested.accepted p hp) (hlast p hp)
  have hcov : ∀ p ∈ loadSegments image, p.pageEnd ≤ end_ := fun p hp => by
    rw [← p.limit_eq (hfits p hp).exact]
    exact h.tested.covers p hp
  obtain ⟨q, hq, hent⟩ := h.tested.entered rfl
  simp only [Elf64Phdr.hasEntry, (hfits q hq).exact.2.1, Bool.and_eq_true, decide_eq_true_eq] at hent
  obtain ⟨⟨hexec, hlo⟩, hup⟩ := hent
  have hlast_end : ∃ p ∈ loadSegments image, end_ = p.pageEnd := by
    rcases h.tested.last with hstar | ⟨p, hp, hend⟩
    · have hq_end := hcov q hq
      have hq_lower := (hfits q hq).lower
      simp only [Elf64Phdr.pageEnd, pageSizeBytes, userSpaceStart] at hstar hq_end hq_lower
      omega
    · exact ⟨p, hp, hend.trans (p.limit_eq (hfits p hp).exact)⟩
  refine ⟨h.headers, fun p hp => (hfits p hp).exact, fun p hp => ⟨(hfits p hp).lower, ?_⟩,
    fun p hp => (hfits p hp).file, ?_, hlast_end, hcov, ?_, fun p hp => (hfits p hp).separate,
    ⟨q, hq, hexec, hlo, hup⟩⟩
  · have hup := (hfits p hp).upper
    omega
  · refine h.tested.apart.imp_of_mem fun {p r} hp hr hapar => ?_
    exact Elf64Phdr.disjoint (hfits p hp).exact (hfits r hr).exact (List.mem_filter.mp hp).2 hapar
  · obtain ⟨p, hp, rfl⟩ := hlast_end
    have hup := (hfits p hp).upper
    simp only [Elf64Phdr.pageEnd, pageSizeBytes, userHeapEnd] at hup ⊢
    omega

lemma Placed.not_inLastPage {image : List UInt8} {end_ : ℕ} (h : Placed image entry end_) :
    ∀ p ∈ loadSegments image, ¬InLastPage p := by
  intro p hp hlast
  have hcov := h.covers p hp
  have hbel := h.below
  have hload : p.load = true := (List.mem_filter.mp hp).2
  simp only [Elf64Phdr.load, Bool.and_eq_true, bne_iff_ne] at hload
  obtain ⟨-, hmem⟩ := hload
  simp only [Elf64Phdr.pageEnd, InLastPage, pageSizeBytes, userHeapEnd] at hcov hlast hbel
  omega

/-! ## Loading an image -/

structure UserPage where
  data : Fin pageSizeBytes → UInt8
  writable : Bool
  executable : Bool

/-- A page of `user_page_allocate`, and the shared zero page as a store finds it. -/
def zeroPage : UserPage := ⟨fun _ => 0, true, false⟩

/-- The page at `base` after a write of the bytes to the address -/
def UserPage.write (page : UserPage) (base address : ℕ) (bytes : List UInt8) : UserPage :=
  { page with
    data := fun o =>
      if address ≤ base + o ∧ base + o < address + bytes.length then bytes.getD (base + o - address) 0
      else page.data o }

structure UserSpace where
  page : ℕ → Option UserPage
  /-- the pages that have been mapped since the call began; no code reads it -/
  linked : List ℕ
  /-- the addresses that have been written in other pages; no code reads it -/
  stray : List ℕ

/-- How a call ends that does not enter the program. -/
inductive Failure
  /-- `goto failed` -/
  | refused (s : UserSpace)
  /-- the kernel writes to an address that it may not -/
  | fault (s : UserSpace)

namespace UserSpace

variable (s : UserSpace)

def link (n : ℕ) : UserSpace :=
  { s with page := fun m => if m = n then some zeroPage else s.page m, linked := n :: s.linked }

/-- `page_link`; `granted` is what the allocation of the pages answers. -/
def pageLink (granted : ℕ → Bool) (address : ℕ) : UserSpace × Bool :=
  if address < userSpaceStart ∨ userHeapEnd < address ∨ address % pageSizeBytes ≠ 0 then (s, false)
  else if granted s.linked.length then (s.link (address / pageSizeBytes), true)
  else (s, false)

def archUserMapZero (granted : ℕ → Bool) (address : ℕ) : UserSpace × Bool :=
  if address < userSpaceStart ∨ userHeapEnd ≤ address ∨ address % pageSizeBytes ≠ 0 then (s, false)
  else if (s.page (address / pageSizeBytes)).isSome then (s, false)
  else if granted s.linked.length then (s.link (address / pageSizeBytes), true)
  else (s, false)

/-- The loops over pages: `count` pages from the address on. -/
def forPages (f : UserSpace → ℕ → UserSpace × Bool) : ℕ → ℕ → UserSpace → UserSpace × Bool
  | 0, _, s => (s, true)
  | count + 1, address, s =>
    match f s address with
    | (s, true) => forPages f count (address + pageSizeBytes) s
    | (s, false) => (s, false)

def writableAt (address : ℕ) : Bool := (s.page (address / pageSizeBytes)).any (·.writable)

/-- `memcpy` of the bytes to the address, if it does not fault. -/
def copy (address : ℕ) (bytes : List UInt8) : Option UserSpace :=
  if (List.range bytes.length).all fun k => s.writableAt (address + k) then
    some
      { page := fun n => (s.page n).map (·.write (n * pageSizeBytes) address bytes)
        linked := s.linked
        stray := s.stray ++ ((List.range bytes.length).map (address + ·)).filter (· / pageSizeBytes ∉ s.linked) }
  else none

def x64UserProtect (address size : ℕ) (writable executable : Bool) : Option UserSpace :=
  if (List.range (size / pageSizeBytes)).all fun i => (s.page (address / pageSizeBytes + i)).isSome then
    some
      { s with
        page := fun n =>
          if address / pageSizeBytes ≤ n ∧ n < address / pageSizeBytes + size / pageSizeBytes then
            (s.page n).map fun page => { page with writable := writable, executable := executable }
          else s.page n }
  else none

end UserSpace

def loadSegment (image : List UInt8) (granted : ℕ → Bool) (p : Elf64Phdr) (s : UserSpace) : Except Failure UserSpace :=
  match UserSpace.forPages (·.pageLink granted) ((p.limit - p.start) / pageSizeBytes) p.start s with
  | (s, false) => .error (.refused s)
  | (s, true) =>
    match s.copy p.vaddr ((image.drop p.offset).take p.filesz) with
    | none => .error (.fault s)
    | some s =>
      match s.x64UserProtect p.start (subWord p.limit p.start) p.writable p.executable with
      | none => .error (.refused s)
      | some s => .ok s

def loadLoop (image : List UInt8) (granted : ℕ → Bool) : List Elf64Phdr → UserSpace → Except Failure UserSpace
  | [], s => .ok s
  | p :: rest, s =>
    match loadSegment image granted p s with
    | .error e => .error e
    | .ok s => loadLoop image granted rest s

def archExecutableLoad (image : List UInt8) (granted : ℕ → Bool) (s : UserSpace) : Except Failure (UserSpace × ℕ) :=
  match archExecutableValidate image with
  | none => .error (.refused s)
  | some (entry, _) =>
    match loadLoop image granted (loadSegments image) s with
    | .error e => .error e
    | .ok s => .ok (s, entry)

/-! ### `task_to_user_mode_elf` -/

abbrev userStackPages : ℕ := 512

/-- `*task->alloc_size` of a new program -/
abbrev allocSize : ℕ := 2097152

def sizeDivRoundUp (value divisor : ℕ) : ℕ := value / divisor + if value % divisor ≠ 0 then 1 else 0

/-- `struct user_runtime_layout` -/
structure UserRuntimeLayout where
  totalPages : ℕ
  stackTop : ℕ
  allocationBase : ℕ
  deriving DecidableEq, Repr

def userRuntimeLayoutCalculate (alignedImageEnd heapPages stackPages entry : ℕ) : Option UserRuntimeLayout :=
  if alignedImageEnd < userSpaceStart ∨ userHeapEnd ≤ alignedImageEnd ∨ alignedImageEnd % pageSizeBytes ≠ 0 ∨
      entry < userSpaceStart ∨ userHeapEnd ≤ entry then none
  else
    let totalPages := addWord heapPages stackPages
    let runtimeEnd := addWord alignedImageEnd (totalPages * pageSizeBytes)
    let stackTop := addWord alignedImageEnd (stackPages * pageSizeBytes)
    if userHeapEnd < runtimeEnd ∨ runtimeEnd < stackTop then none
    else some ⟨totalPages % 4294967296, stackTop, stackTop⟩

def littleEndian (size n : ℕ) : List UInt8 := (List.range size).map fun i => UInt8.ofNat (n / 256 ^ i)

/-- `sizeof(loader_start_t)` -/
abbrev loaderStartSize : ℕ := 24

/-- `loader_start_t` -/
def loaderStart (descriptor path interpreterPath : ℕ) : List UInt8 :=
  littleEndian 4 loaderStartSize ++ littleEndian 4 descriptor ++ littleEndian 8 path ++ littleEndian 8 interpreterPath

/-- What `arch_task_enter_user` is called with, the address space, and where the stack and the heap are. -/
structure Entered where
  space : UserSpace
  entry : ℕ
  stackTop : ℕ
  argument : ℕ
  stack : ℕ
  heap : ℕ

/-- The strings for an interpreter: the stack pointer below them, which is also the argument. -/
def pushStart (descriptor stackTop : ℕ) (path interpreter : List UInt8) (s : UserSpace) :
    Except Failure (UserSpace × ℕ) :=
  let available := userStackPages * pageSizeBytes - loaderStartSize - 64
  if available < path.length ∨ available - path.length < interpreter.length then .error (.refused s)
  else
    let interpreterPath := stackTop - interpreter.length
    match s.copy interpreterPath interpreter with
    | none => .error (.fault s)
    | some s =>
      let pathTop := interpreterPath - path.length
      match s.copy pathTop path with
      | none => .error (.fault s)
      | some s =>
        let top := (pathTop - loaderStartSize) / 16 * 16
        match s.copy top (loaderStart descriptor pathTop interpreterPath) with
        | none => .error (.fault s)
        | some s => .ok (s, top)

/-- `task_to_user_mode_elf` from the image on; `dynamic` are the path and the interpreter, each with the byte behind
it, where the program has an interpreter. -/
def taskToUserModeElf (image : List UInt8) (dynamic : Option (List UInt8 × List UInt8)) (descriptor : ℕ)
    (granted : ℕ → Bool) (s : UserSpace) : Except Failure Entered :=
  match archExecutableValidate image with
  | none => .error (.refused s)
  | some (userEip, imageEnd) =>
    if words - 1 - (pageSizeBytes - 1) < imageEnd then .error (.refused s)
    else
      let allocAddr := pageMask (imageEnd + pageSizeBytes - 1)
      match userRuntimeLayoutCalculate allocAddr (sizeDivRoundUp allocSize pageSizeBytes) userStackPages userEip with
      | none => .error (.refused s)
      | some layout =>
        match UserSpace.forPages (·.archUserMapZero granted) layout.totalPages allocAddr s with
        | (s, false) => .error (.refused s)
        | (s, true) =>
          match archExecutableLoad image granted s with
          | .error e => .error e
          | .ok (s, entry) =>
            match dynamic with
            | none => .ok ⟨s, entry, layout.stackTop, 0, allocAddr, layout.allocationBase⟩
            | some (path, interpreter) =>
              match pushStart descriptor layout.stackTop path interpreter s with
              | .error e => .error e
              | .ok (s, top) => .ok ⟨s, entry, top, top, allocAddr, layout.allocationBase⟩

end PlantOS.Exec

/-! ## What is loaded is what the image says -/

namespace PlantOS.Exec

open UserSpace

variable {image : List UInt8} {granted : ℕ → Bool} {s s' : UserSpace} {p : Elf64Phdr}

/-! ### Mapping pages -/

/-- Pages have been mapped, and written, but none of the others. -/
structure Grows (s s' : UserSpace) : Prop where
  stray : s'.stray = s.stray
  linked : s.linked ⊆ s'.linked

lemma Grows.refl (s : UserSpace) : Grows s s := ⟨rfl, List.Subset.refl _⟩

lemma Grows.trans {s'' : UserSpace} (h : Grows s s') (h' : Grows s' s'') : Grows s s'' :=
  ⟨h'.stray.trans h.stray, List.Subset.trans h.linked h'.linked⟩

def Fresh (s : UserSpace) (n : ℕ) : Prop := s.page n = some zeroPage ∧ n ∈ s.linked

/-- What a function that maps a page does: nothing, or the page of the address is fresh. -/
def Maps (f : UserSpace → ℕ → UserSpace × Bool) : Prop :=
  ∀ s address, f s address = (s, false) ∨ f s address = (s.link (address / pageSizeBytes), true)

lemma pageLink_maps (granted : ℕ → Bool) : Maps (·.pageLink granted) := by
  intro s address
  dsimp only
  unfold pageLink
  split
  · exact .inl rfl
  split
  · exact .inr rfl
  · exact .inl rfl

lemma archUserMapZero_maps (granted : ℕ → Bool) : Maps (·.archUserMapZero granted) := by
  intro s address
  dsimp only
  unfold archUserMapZero
  split
  · exact .inl rfl
  split
  · exact .inl rfl
  split
  · exact .inr rfl
  · exact .inl rfl

lemma link_grows (s : UserSpace) (n : ℕ) : Grows s (s.link n) := ⟨rfl, List.subset_cons_self n s.linked⟩

lemma forPages_spec {f : UserSpace → ℕ → UserSpace × Bool} (hf : Maps f) (count first : ℕ) (s : UserSpace) :
    let result := forPages f count (first * pageSizeBytes) s
    Grows s result.1 ∧ (∀ n, ¬(first ≤ n ∧ n < first + count) → result.1.page n = s.page n) ∧
      (result.2 = true → ∀ n, first ≤ n → n < first + count → Fresh result.1 n) := by
  induction count generalizing first s with
  | zero => exact ⟨.refl s, fun _ _ => rfl, fun _ n hn hn' => by omega⟩
  | succ count ih =>
    dsimp only
    unfold forPages
    rcases hf s (first * pageSizeBytes) with hfail | hlink
    · rw [hfail]
      exact ⟨.refl s, fun _ _ => rfl, nofun⟩
    · rw [hlink]
      rw [Nat.mul_div_cancel _ (by decide), show first * pageSizeBytes + pageSizeBytes = (first + 1) * pageSizeBytes
        by rw [Nat.succ_mul]]
      obtain ⟨hgrw, hoth, hfr⟩ := ih (first + 1) (s.link first)
      refine ⟨(link_grows s first).trans hgrw, fun n hn => ?_, fun hdone n hn hn' => ?_⟩
      · refine (hoth n (by omega)).trans ?_
        simp only [link, if_neg (show n ≠ first by omega)]
      · by_cases hfst : n = first
        · subst hfst
          refine ⟨(hoth n (by omega)).trans ?_, hgrw.linked List.mem_cons_self⟩
          simp only [link, if_pos]
        · exact hfr hdone n (by omega) (by omega)

/-- The kernel may write to the page, which has been mapped since. -/
def Open (s : UserSpace) (n : ℕ) : Prop := n ∈ s.linked ∧ ∃ page, s.page n = some page ∧ page.writable = true

variable {end_ entry n : ℕ}

lemma Fresh.opened (h : Fresh s n) : Open s n := ⟨h.2, zeroPage, h.1, rfl⟩

/-- **A write to pages that have been mapped since does not fault and is not stray.** -/
lemma copy_spec (s : UserSpace) (address : ℕ) (bytes : List UInt8)
    (hopen : ∀ k < bytes.length, Open s ((address + k) / pageSizeBytes)) :
    ∃ s', s.copy address bytes = some s' ∧ Grows s s' ∧ Grows s' s ∧
      s'.page = fun n => (s.page n).map (·.write (n * pageSizeBytes) address bytes) := by
  have hall : ((List.range bytes.length).all fun k => s.writableAt (address + k)) = true := by
    rw [List.all_eq_true]
    intro k hk
    obtain ⟨-, page, hpage, hwrit⟩ := hopen k (List.mem_range.mp hk)
    unfold writableAt
    rw [hpage]
    exact hwrit
  have hstr : ((List.range bytes.length).map (address + ·)).filter (· / pageSizeBytes ∉ s.linked) = [] := by
    rw [List.filter_eq_nil_iff]
    intro a ha
    obtain ⟨k, hk, rfl⟩ := List.mem_map.mp ha
    simpa using (hopen k (List.mem_range.mp hk)).1
  unfold copy
  rw [if_pos hall, hstr, List.append_nil]
  exact ⟨_, rfl, ⟨rfl, List.Subset.refl _⟩, ⟨rfl, List.Subset.refl _⟩, rfl⟩

lemma x64UserProtect_spec (s : UserSpace) (address size : ℕ) (writable executable : Bool)
    (hmap : ∀ i < size / pageSizeBytes, (s.page (address / pageSizeBytes + i)).isSome = true) :
    ∃ s', s.x64UserProtect address size writable executable = some s' ∧ Grows s s' ∧
      s'.page = fun n =>
        if address / pageSizeBytes ≤ n ∧ n < address / pageSizeBytes + size / pageSizeBytes then
          (s.page n).map fun page => { page with writable := writable, executable := executable }
        else s.page n := by
  have hall : ((List.range (size / pageSizeBytes)).all fun i => (s.page (address / pageSizeBytes + i)).isSome) = true := by
    rw [List.all_eq_true]
    exact fun i hi => hmap i (List.mem_range.mp hi)
  unfold x64UserProtect
  rw [if_pos hall]
  exact ⟨_, rfl, ⟨rfl, List.Subset.refl _⟩, rfl⟩

/-! ### One segment -/

def segmentByte (image : List UInt8) (p : Elf64Phdr) (address : ℕ) : UInt8 :=
  if p.vaddr ≤ address ∧ address < p.vaddr + p.filesz then image.getD (p.offset + (address - p.vaddr)) 0 else 0

def segmentPage (image : List UInt8) (p : Elf64Phdr) (n : ℕ) : UserPage :=
  ⟨fun o => segmentByte image p (n * pageSizeBytes + o), p.writable, p.executable⟩

/-- How a part of the loader ends: refused without a stray write, or with a space that is as it must be. -/
def Ends {α : Type} (s : UserSpace) (space : α → UserSpace) (good : α → Prop) : Except Failure α → Prop
  | .error (.fault _) => False
  | .error (.refused s') => s'.stray = s.stray
  | .ok a => Grows s (space a) ∧ good a

/-- A segment that the tests accept and that is not in the last page. -/
structure Loadable (image : List UInt8) (p : Elf64Phdr) : Prop where
  exact : p.Exact
  nonempty : 0 < p.memsz
  file : p.filesz ≤ p.memsz ∧ p.offset + p.filesz ≤ image.length

lemma Elf64Phdr.start_aligned (p : Elf64Phdr) : p.start / pageSizeBytes * pageSizeBytes = p.start := by
  unfold Elf64Phdr.start pageMask
  rw [Nat.mul_div_cancel _ (by decide)]

lemma Loadable.covers (h : Loadable image p) (n : ℕ) :
    p.Covers n ↔ p.start / pageSizeBytes ≤ n ∧ n < p.start / pageSizeBytes + (p.limit - p.start) / pageSizeBytes := by
  simp only [Elf64Phdr.Covers, p.limit_eq h.exact, Elf64Phdr.start, Elf64Phdr.pageEnd, pageMask, pageSizeBytes]
  omega

lemma Loadable.size (h : Loadable image p) : subWord p.limit p.start = p.limit - p.start := by
  obtain ⟨hlast, -⟩ := h.exact
  have hsum : p.vaddr + p.memsz + 4095 < words := by
    rw [← h.exact.2.2]
    exact Nat.mod_lt _ (by decide)
  simp only [subWord, p.limit_eq h.exact, Elf64Phdr.start, Elf64Phdr.pageEnd, pageMask, pageSizeBytes, words]
    at hsum ⊢
  omega

lemma Loadable.file_bytes (h : Loadable image p) : ((image.drop p.offset).take p.filesz).length = p.filesz := by
  have hfile := h.file.2
  rw [List.length_take, List.length_drop]
  omega

lemma Loadable.write_zeroPage (h : Loadable image p) (n : ℕ) :
    { zeroPage.write (n * pageSizeBytes) p.vaddr ((image.drop p.offset).take p.filesz) with
      writable := p.writable, executable := p.executable } = segmentPage image p n := by
  unfold UserPage.write segmentPage segmentByte
  rw [h.file_bytes]
  dsimp only
  congr 1
  funext o
  split
  · rename_i hin
    rw [List.getD_eq_getElem?_getD, List.getD_eq_getElem?_getD, List.getElem?_take_of_lt (by omega),
      List.getElem?_drop]
  · rfl

lemma Loadable.write_other (h : Loadable image p) {n : ℕ} (hn : ¬p.Covers n) (page : Option UserPage) :
    page.map (·.write (n * pageSizeBytes) p.vaddr ((image.drop p.offset).take p.filesz)) = page := by
  have hfile := h.file.1
  cases page with
  | none => rfl
  | some page =>
    unfold UserPage.write
    rw [Option.map_some, h.file_bytes]
    congr 1
    have hsame : ∀ o : Fin pageSizeBytes, ¬(p.vaddr ≤ n * pageSizeBytes + o ∧
        n * pageSizeBytes + o < p.vaddr + p.filesz) := by
      rintro o ⟨hlo, hup⟩
      refine hn ⟨?_, Nat.lt_of_lt_of_le (Nat.lt_of_le_of_lt (Nat.le_add_right _ _) hup) (Nat.add_le_add_left hfile _)⟩
      have ho := o.isLt
      generalize (o : ℕ) = k at hlo ho
      exact Nat.lt_succ_iff.mp (Nat.div_lt_of_lt_mul (by rw [Nat.mul_succ, Nat.mul_comm pageSizeBytes]; omega))
    simp only [hsame, if_false]

theorem loadSegment_spec (granted : ℕ → Bool) (h : Loadable image p) (s : UserSpace) :
    Ends s id (fun s' => (∀ n, p.Covers n → s'.page n = some (segmentPage image p n)) ∧
      ∀ n, ¬p.Covers n → s'.page n = s.page n) (loadSegment image granted p s) := by
  have hbs := h.file_bytes
  have hlnk := forPages_spec (pageLink_maps granted) ((p.limit - p.start) / pageSizeBytes)
    (p.start / pageSizeBytes) s
  rw [p.start_aligned] at hlnk
  unfold loadSegment
  rw [h.size]
  generalize forPages (·.pageLink granted) ((p.limit - p.start) / pageSizeBytes) p.start s = linked at hlnk
  obtain ⟨s₁, done⟩ := linked
  obtain ⟨hgrw₁, hoth, hfr⟩ := hlnk
  cases done with
  | false => exact hgrw₁.stray
  | true =>
  have hfr : ∀ n, p.Covers n → Fresh s₁ n := fun n hn =>
    hfr rfl n ((h.covers n).mp hn).1 ((h.covers n).mp hn).2
  have hoth : ∀ n, ¬p.Covers n → s₁.page n = s.page n := fun n hn =>
    hoth n fun hrng => hn ((h.covers n).mpr hrng)
  obtain ⟨s₂, hcopy, hgrw₂, -, hpage₂⟩ := copy_spec s₁ p.vaddr ((image.drop p.offset).take p.filesz) fun k hk => by
    refine (hfr _ ⟨Nat.div_le_div_right (Nat.le_add_right _ _), ?_⟩).opened
    rw [hbs] at hk
    exact Nat.lt_of_le_of_lt (Nat.div_mul_le_self _ _) (Nat.add_lt_add_left (Nat.lt_of_lt_of_le hk h.file.1) _)
  obtain ⟨s₃, hprot, hgrw₃, hpage₃⟩ := x64UserProtect_spec s₂ p.start (p.limit - p.start) p.writable
    p.executable fun i hi => by
      have hcov : p.Covers (p.start / pageSizeBytes + i) :=
        (h.covers _).mpr ⟨Nat.le_add_right _ _, Nat.add_lt_add_left hi _⟩
      rw [hpage₂]
      dsimp only
      rw [(hfr _ hcov).1]
      rfl
  have hcov : ∀ n, p.Covers n → s₃.page n = some (segmentPage image p n) := by
    intro n hn
    rw [hpage₃, hpage₂]
    dsimp only
    rw [if_pos ((h.covers n).mp hn), (hfr n hn).1, Option.map_some, Option.map_some, h.write_zeroPage]
  have hkept : ∀ n, ¬p.Covers n → s₃.page n = s.page n := by
    intro n hn
    rw [hpage₃, hpage₂]
    dsimp only
    rw [if_neg (mt (h.covers n).mpr hn), hoth n hn, h.write_other hn]
  simp only [hcopy, hprot]
  exact ⟨(hgrw₁.trans hgrw₂).trans hgrw₃, hcov, hkept⟩

theorem loadLoop_spec (granted : ℕ → Bool) (rest : List Elf64Phdr) (hloadab : ∀ p ∈ rest, Loadable image p)
    (hdis : rest.Pairwise fun p q => ∀ n, ¬(p.Covers n ∧ q.Covers n)) (s : UserSpace) :
    Ends s id (fun s' => (∀ p ∈ rest, ∀ n, p.Covers n → s'.page n = some (segmentPage image p n)) ∧
      ∀ n, (∀ p ∈ rest, ¬p.Covers n) → s'.page n = s.page n) (loadLoop image granted rest s) := by
  induction rest generalizing s with
  | nil => exact ⟨.refl s, nofun, fun _ _ => rfl⟩
  | cons p rest ih =>
    obtain ⟨hp, hrest⟩ := List.pairwise_cons.mp hdis
    have hone := loadSegment_spec granted (hloadab p List.mem_cons_self) s
    unfold loadLoop
    cases hload : loadSegment image granted p s with
    | error e => cases e <;> rw [hload] at hone <;> exact hone
    | ok s₁ =>
      rw [hload] at hone
      obtain ⟨hgrw₁, hcov₁, hkept₁⟩ := hone
      have hoths := ih (fun q hq => hloadab q (List.mem_cons_of_mem _ hq)) hrest s₁
      dsimp only
      cases hloop : loadLoop image granted rest s₁ with
      | error e =>
        rw [hloop] at hoths
        cases e with
        | fault s' => exact hoths
        | refused s' => exact (show s'.stray = s₁.stray from hoths).trans hgrw₁.stray
      | ok s₂ =>
        rw [hloop] at hoths
        obtain ⟨hgrw₂, hcov₂, hkept₂⟩ := hoths
        refine ⟨hgrw₁.trans hgrw₂, fun q hq n hn => ?_, fun n hn => ?_⟩
        · rcases List.mem_cons.mp hq with rfl | hq
          · exact (hkept₂ n fun r hr hrn => hp r hr n ⟨hn, hrn⟩).trans (hcov₁ n hn)
          · exact hcov₂ q hq n hn
        · exact (hkept₂ n fun r hr => hn r (List.mem_cons_of_mem _ hr)).trans (hkept₁ n (hn p List.mem_cons_self))

/-! ### The stack -/

def StackOpen (s : UserSpace) (stack : ℕ) : Prop :=
  ∀ a, stack ≤ a → a < stack + userStackPages * pageSizeBytes → Open s (a / pageSizeBytes)

def OffStack (stack n : ℕ) : Prop := (n + 1) * pageSizeBytes ≤ stack

lemma Grows.opened (h : Grows s s') {f : UserPage → UserPage} (hf : ∀ page, (f page).writable = page.writable) {n : ℕ}
    (hpage : s'.page n = (s.page n).map f) (hopen : Open s n) : Open s' n := by
  obtain ⟨hlnk, page, heq, hwrit⟩ := hopen
  exact ⟨h.linked hlnk, f page, by rw [hpage, heq, Option.map_some], by rw [hf, hwrit]⟩

lemma copy_stack {stack : ℕ} (address : ℕ) (bytes : List UInt8) (hopen : StackOpen s stack) (hlo : stack ≤ address)
    (hup : address + bytes.length ≤ stack + userStackPages * pageSizeBytes) :
    ∃ s', s.copy address bytes = some s' ∧ Grows s s' ∧ StackOpen s' stack ∧
      ∀ n, OffStack stack n → s'.page n = s.page n := by
  obtain ⟨s', hcopy, hgrw, -, hpage⟩ := copy_spec s address bytes fun k hk =>
    hopen (address + k) (Nat.le_add_right_of_le hlo) (by omega)
  refine ⟨s', hcopy, hgrw, fun a ha ha' => ?_, fun n hn => ?_⟩
  · exact hgrw.opened (f := (·.write (a / pageSizeBytes * pageSizeBytes) address bytes)) (fun _ => rfl) (by rw [hpage])
      (hopen a ha ha')
  · rw [hpage]
    dsimp only
    cases s.page n with
    | none => rfl
    | some page =>
      unfold UserPage.write
      rw [Option.map_some]
      congr 1
      have hbel : ∀ o : Fin pageSizeBytes, ¬(address ≤ n * pageSizeBytes + o ∧
          n * pageSizeBytes + o < address + bytes.length) := by
        rintro o ⟨hin, -⟩
        unfold OffStack at hn
        rw [Nat.succ_mul] at hn
        omega
      simp only [hbel, if_false]

lemma littleEndian_length (size n : ℕ) : (littleEndian size n).length = size := by simp [littleEndian]

lemma loaderStart_length (descriptor path interpreterPath : ℕ) :
    (loaderStart descriptor path interpreterPath).length = loaderStartSize := by
  simp [loaderStart, littleEndian_length]

theorem pushStart_spec {stack : ℕ} (hopen : StackOpen s stack) (descriptor : ℕ) (path interpreter : List UInt8) :
    Ends s Prod.fst (fun r => (stack ≤ r.2 ∧ r.2 ≤ stack + userStackPages * pageSizeBytes) ∧
      ∀ n, OffStack stack n → r.1.page n = s.page n)
      (pushStart descriptor (stack + userStackPages * pageSizeBytes) path interpreter s) := by
  have hsize : userStackPages * pageSizeBytes = 2097152 := rfl
  unfold pushStart
  rw [hsize, show 2097152 - loaderStartSize - 64 = 2097064 from rfl]
  dsimp only
  split
  · exact rfl
  rename_i hfits
  rw [not_or, Nat.not_lt, Nat.not_lt] at hfits
  obtain ⟨hpath, hint⟩ := hfits
  obtain ⟨s₁, hcopy₁, hgrw₁, hopen₁, hkept₁⟩ := copy_stack (stack + 2097152 - interpreter.length)
    interpreter hopen (by omega) (by omega)
  obtain ⟨s₂, hcopy₂, hgrw₂, hopen₂, hkept₂⟩ :=
    copy_stack (stack + 2097152 - interpreter.length - path.length) path hopen₁ (by omega) (by omega)
  obtain ⟨s₃, hcopy₃, hgrw₃, -, hkept₃⟩ :=
    copy_stack ((stack + 2097152 - interpreter.length - path.length - loaderStartSize) / 16 * 16)
      (loaderStart descriptor (stack + 2097152 - interpreter.length - path.length)
        (stack + 2097152 - interpreter.length)) hopen₂ (by unfold loaderStartSize; omega)
      (by rw [loaderStart_length]; unfold loaderStartSize; omega)
  simp only [hcopy₁, hcopy₂, hcopy₃]
  refine ⟨(hgrw₁.trans hgrw₂).trans hgrw₃, ⟨?_, ?_⟩, fun n hn => ?_⟩
  · unfold loaderStartSize
    omega
  · unfold loaderStartSize
    omega
  · exact (hkept₃ n hn).trans ((hkept₂ n hn).trans (hkept₁ n hn))

/-! ### The whole call -/

def UserSpace.byte (s : UserSpace) (address : ℕ) : Option UInt8 :=
  (s.page (address / pageSizeBytes)).map (·.data ⟨address % pageSizeBytes, Nat.mod_lt _ (by decide)⟩)

/-- **What the program finds**: its segments hold the bytes of the image and zeros behind them, below the stack, which
is below the heap, which is below `USER_HEAP_END`. -/
structure Loaded (image : List UInt8) (e : Entered) : Prop where
  bytes : ∀ p ∈ loadSegments image, ∀ k < p.memsz,
    e.space.byte (p.vaddr + k) = some (if k < p.filesz then image.getD (p.offset + k) 0 else 0)
  above : ∀ p ∈ loadSegments image, p.vaddr + p.memsz ≤ e.stack
  stack : e.stack ≤ e.stackTop ∧ e.stackTop ≤ e.stack + userStackPages * pageSizeBytes
  heap : e.stack + userStackPages * pageSizeBytes ≤ e.heap ∧ e.heap + allocSize ≤ userHeapEnd

/-- However the call ends, it has written only to pages that it has mapped before. -/
def Runs (image : List UInt8) : Prop :=
  ∀ (dynamic : Option (List UInt8 × List UInt8)) (descriptor : ℕ) (granted : ℕ → Bool) (page : ℕ → Option UserPage),
    match taskToUserModeElf image dynamic descriptor granted ⟨page, [], []⟩ with
    | .error (.fault _) => False
    | .error (.refused s) => s.stray = []
    | .ok e => e.space.stray = [] ∧ Loaded image e

lemma Placed.loadable (h : Placed image entry end_) : ∀ p ∈ loadSegments image, Loadable image p := by
  intro p hp
  have hload : p.load = true := (List.mem_filter.mp hp).2
  simp only [Elf64Phdr.load, Bool.and_eq_true, bne_iff_ne] at hload
  exact ⟨h.exact p hp, Nat.pos_of_ne_zero hload.2, h.backed p hp⟩

lemma byte_of_segmentPage {address : ℕ} (hpage : s.page (address / pageSizeBytes) = some (segmentPage image p
    (address / pageSizeBytes))) : s.byte address = some (segmentByte image p address) := by
  unfold UserSpace.byte
  rw [hpage, Option.map_some]
  unfold segmentPage
  dsimp only
  rw [Nat.div_add_mod']

lemma layout_spec {layout : UserRuntimeLayout}
    (h : userRuntimeLayoutCalculate end_ 512 userStackPages entry = some layout) :
    layout = ⟨1024, end_ + userStackPages * pageSizeBytes, end_ + userStackPages * pageSizeBytes⟩ ∧
      end_ + userStackPages * pageSizeBytes + allocSize ≤ userHeapEnd := by
  unfold userRuntimeLayoutCalculate at h
  split at h
  · cases h
  rename_i hrng
  dsimp only at h
  split at h
  · cases h
  rename_i hbds
  cases h
  simp only [userHeapEnd, not_or, Nat.not_lt, Nat.not_le] at hrng hbds
  have hpages : addWord 512 userStackPages = 1024 := by decide
  have hstk : addWord end_ (userStackPages * pageSizeBytes) = end_ + 2097152 :=
    Nat.mod_eq_of_lt (by simp only [words, userStackPages, pageSizeBytes]; omega)
  have hrun : addWord end_ (1024 * pageSizeBytes) = end_ + 4194304 :=
    Nat.mod_eq_of_lt (by simp only [words, pageSizeBytes]; omega)
  rw [hpages, hstk, hrun] at hbds
  rw [hpages, hstk]
  refine ⟨rfl, ?_⟩
  simp only [userStackPages, pageSizeBytes, allocSize, userHeapEnd]
  omega

lemma Placed.end_aligned (h : Placed image entry end_) :
    pageMask (end_ + pageSizeBytes - 1) = end_ ∧ end_ / pageSizeBytes * pageSizeBytes = end_ := by
  obtain ⟨p, -, rfl⟩ := h.last
  simp only [pageMask, Elf64Phdr.pageEnd, pageSizeBytes]
  omega

lemma Placed.not_covers (h : Placed image entry end_) (hn : end_ ≤ n * pageSizeBytes) :
    ∀ p ∈ loadSegments image, ¬p.Covers n := by
  intro p hp hcover
  have hend := h.covers p hp
  obtain ⟨-, hcover⟩ := hcover
  simp only [Elf64Phdr.pageEnd, pageSizeBytes] at hend hcover hn
  omega

lemma Placed.offStack (h : Placed image entry end_) (hp : p ∈ loadSegments image)
    (hn : p.Covers n) : OffStack end_ n := by
  have hend := h.covers p hp
  obtain ⟨-, hn⟩ := hn
  unfold Elf64Phdr.pageEnd at hend
  unfold OffStack
  refine Nat.le_trans (Nat.mul_le_mul_right _ (Nat.succ_le_of_lt ?_)) hend
  refine (Nat.lt_div_iff_mul_lt (by decide)).mpr ?_
  rwa [show pageSizeBytes - 1 = 4095 from rfl, Nat.add_sub_cancel]

lemma Placed.stack_open (h : Placed image entry end_) {s₁ s₂ : UserSpace}
    (hfr : ∀ n, end_ / pageSizeBytes ≤ n → n < end_ / pageSizeBytes + 1024 → Fresh s₁ n) (hgrw : Grows s₁ s₂)
    (hkept : ∀ n, (∀ p ∈ loadSegments image, ¬p.Covers n) → s₂.page n = s₁.page n) : StackOpen s₂ end_ := by
  intro a ha ha'
  have hlo : end_ / pageSizeBytes ≤ a / pageSizeBytes := Nat.div_le_div_right ha
  have hup : a / pageSizeBytes < end_ / pageSizeBytes + 1024 := by
    simp only [userStackPages, pageSizeBytes] at ha' ⊢
    omega
  have hpage := hfr _ hlo hup
  refine Fresh.opened ⟨(hkept _ (h.not_covers ?_)).trans hpage.1, hgrw.linked hpage.2⟩
  rw [← h.end_aligned.2]
  exact Nat.mul_le_mul_right _ hlo

lemma Placed.loaded (h : Placed image entry end_) {e : Entered} (hstk : e.stack = end_)
    (hpages : ∀ p ∈ loadSegments image, ∀ n, p.Covers n → e.space.page n = some (segmentPage image p n))
    (htop : e.stack ≤ e.stackTop ∧ e.stackTop ≤ e.stack + userStackPages * pageSizeBytes)
    (hheap : e.stack + userStackPages * pageSizeBytes ≤ e.heap ∧ e.heap + allocSize ≤ userHeapEnd) :
    Loaded image e := by
  refine ⟨fun p hp k hk => ?_, fun p hp => ?_, htop, hheap⟩
  · have hcover : p.Covers ((p.vaddr + k) / pageSizeBytes) :=
      ⟨Nat.div_le_div_right (Nat.le_add_right _ _),
        Nat.lt_of_le_of_lt (Nat.div_mul_le_self _ _) (Nat.add_lt_add_left hk _)⟩
    rw [byte_of_segmentPage (hpages p hp _ hcover)]
    unfold segmentByte
    rw [Nat.add_sub_cancel_left]
    by_cases hfile : k < p.filesz
    · rw [if_pos hfile, if_pos ⟨Nat.le_add_right _ _, Nat.add_lt_add_left hfile _⟩]
    · rw [if_neg hfile, if_neg (by omega)]
  · have hend := h.covers p hp
    rw [hstk]
    simp only [Elf64Phdr.pageEnd, pageSizeBytes] at hend
    omega

theorem Placed.runs (h : Placed image entry end_)
    (hacc : archExecutableValidate image = some (entry, end_)) : Runs image := by
  intro dynamic descriptor granted page
  have hword : ¬words - 1 - (pageSizeBytes - 1) < end_ := by
    have hbel := h.below
    simp only [userHeapEnd, words, pageSizeBytes] at hbel ⊢
    omega
  unfold taskToUserModeElf
  rw [hacc]
  dsimp only
  rw [if_neg hword, h.end_aligned.1, show sizeDivRoundUp allocSize pageSizeBytes = 512 from rfl]
  cases hlay : userRuntimeLayoutCalculate end_ 512 userStackPages entry with
  | none => exact rfl
  | some layout =>
  obtain ⟨rfl, hheap⟩ := layout_spec hlay
  dsimp only
  have hmap := forPages_spec (archUserMapZero_maps granted) 1024 (end_ / pageSizeBytes) ⟨page, [], []⟩
  rw [h.end_aligned.2] at hmap
  generalize forPages (·.archUserMapZero granted) 1024 end_ ⟨page, [], []⟩ = mapped at hmap
  obtain ⟨s₁, done⟩ := mapped
  obtain ⟨hgrw₁, -, hfr⟩ := hmap
  cases done with
  | false => exact hgrw₁.stray
  | true =>
  have hload := loadLoop_spec granted (loadSegments image) h.loadable h.disjoint s₁
  unfold archExecutableLoad
  rw [hacc]
  dsimp only
  cases hloop : loadLoop image granted (loadSegments image) s₁ with
  | error e =>
    rw [hloop] at hload
    cases e with
    | fault s' => exact hload
    | refused s' => exact (show s'.stray = s₁.stray from hload).trans hgrw₁.stray
  | ok s₂ =>
  rw [hloop] at hload
  obtain ⟨hgrw₂, hpages, hkept⟩ := hload
  change Grows s₁ s₂ at hgrw₂
  have hgrw := hgrw₁.trans hgrw₂
  cases dynamic with
  | none => exact ⟨hgrw.stray, h.loaded rfl hpages ⟨Nat.le_add_right _ _, Nat.le_refl _⟩ ⟨Nat.le_refl _, hheap⟩⟩
  | some strings =>
  obtain ⟨path, interpreter⟩ := strings
  have hpush := pushStart_spec (h.stack_open (hfr rfl) hgrw₂ hkept) descriptor path interpreter
  dsimp only
  cases hstar : pushStart descriptor (end_ + userStackPages * pageSizeBytes) path interpreter s₂ with
  | error e =>
    rw [hstar] at hpush
    cases e with
    | fault s' => exact hpush
    | refused s' => exact (show s'.stray = s₂.stray from hpush).trans hgrw.stray
  | ok r =>
  rw [hstar] at hpush
  obtain ⟨s₃, top⟩ := r
  obtain ⟨hgrw₃, htop, hbel⟩ := hpush
  refine ⟨(hgrw.trans hgrw₃).stray, h.loaded rfl (fun p hp n hn => ?_) htop ⟨Nat.le_refl _, hheap⟩⟩
  exact (hbel n (h.offStack hp hn)).trans (hpages p hp n hn)

/-- **An accepted image is placed and loaded as it promises exactly if no segment begins in the last page below
`USER_HEAP_END`**, where the subtraction that bounds `p_memsz` wraps. -/
theorem accepted_sound_iff {entry end_ : ℕ} (haccepted : archExecutableValidate image = some (entry, end_)) :
    Placed image entry end_ ∧ Runs image ↔ ∀ p ∈ loadSegments image, ¬InLastPage p := by
  refine ⟨fun h => h.1.not_inLastPage, fun hlast => ?_⟩
  have hplaced := (validated_of_accepted haccepted).placed hlast
  exact ⟨hplaced, hplaced.runs haccepted⟩

instance (p : Elf64Phdr) : Decidable (InLastPage p) := inferInstanceAs (Decidable (_ < _))

/-- An ELF header with the entry and segments right behind it -/
def elfHeader (entry phnum : ℕ) : List UInt8 :=
  [0x7f, 0x45, 0x4c, 0x46, 2, 1, 1] ++ List.replicate 9 0 ++ littleEndian 2 etExec ++ littleEndian 2 62 ++
    littleEndian 4 1 ++ littleEndian 8 entry ++ littleEndian 8 ehdrSize ++ List.replicate 12 0 ++
    littleEndian 2 ehdrSize ++ littleEndian 2 phdrSize ++ littleEndian 2 phnum ++ List.replicate 6 0

def elfSegment (flags vaddr filesz memsz : ℕ) : List UInt8 :=
  littleEndian 4 ptLoad ++ littleEndian 4 flags ++ littleEndian 8 0 ++ littleEndian 8 vaddr ++ List.replicate 8 0 ++
    littleEndian 8 filesz ++ littleEndian 8 memsz ++ List.replicate 8 0

def plainImage : List UInt8 := elfHeader userSpaceStart 1 ++ elfSegment 5 userSpaceStart 64 5000

theorem accepted_sound_plain : Placed plainImage userSpaceStart (userSpaceStart + 8192) ∧ Runs plainImage :=
  (accepted_sound_iff (by decide +kernel)).mpr (by decide +kernel)

/-- The second segment begins with the last byte below `USER_HEAP_END`, and its end wraps to 0. -/
def wrappedImage : List UInt8 :=
  elfHeader userSpaceStart 2 ++ elfSegment 5 userSpaceStart 64 64 ++
    elfSegment 6 (userHeapEnd - 1) 64 (words - userHeapEnd + 1)

/-- The image is accepted, and the kernel writes to a page that it has not mapped. -/
theorem wrapped_accepted :
    archExecutableValidate wrappedImage = some (userSpaceStart, userSpaceStart + 4096) ∧
      ¬(Placed wrappedImage userSpaceStart (userSpaceStart + 4096) ∧ Runs wrappedImage) ∧
      (match archExecutableLoad wrappedImage (fun _ => true) ⟨fun _ => none, [], []⟩ with
        | .error (.fault _) => true
        | _ => false) = true := by
  refine ⟨by decide +kernel, fun h => ?_, by decide +kernel⟩
  have hlast : ∃ p ∈ loadSegments wrappedImage, InLastPage p := by decide +kernel
  obtain ⟨p, hp, hin⟩ := hlast
  exact h.1.not_inLastPage p hp hin

end PlantOS.Exec
