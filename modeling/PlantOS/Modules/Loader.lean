import Mathlib.Algebra.BigOperators.Group.Finset.Basic
import Mathlib.Tactic.Abel
import PlantOS.Exec.Load
import PlantOS.Lib.Loop
import PlantOS.Lib.Run

/-!
# Relocatable images

The section headers, symbols and relocations of an image, `elf64_validate_relocatable`, and the helpers of x86_64 that
find a section, its name, the symbols and the strings.
-/

namespace PlantOS.Modules

open Exec

abbrev Name := List UInt8

abbrev etRel : ℕ := 1
abbrev shtSymtab : ℕ := 2
abbrev shtStrtab : ℕ := 3
abbrev shtRela : ℕ := 4
abbrev shtNobits : ℕ := 8
abbrev shfWrite : ℕ := 1
abbrev shfAlloc : ℕ := 2
abbrev shfExecinstr : ℕ := 4
abbrev shnUndef : ℕ := 0
abbrev shnAbs : ℕ := 65521

/-- `sizeof(Elf64_Shdr)` -/
abbrev shdrSize : ℕ := 64

/-- `sizeof(Elf64_Sym)` and `sizeof(Elf64_Rela)` -/
abbrev symSize : ℕ := 24
abbrev relaSize : ℕ := 24

/-- The fields of `Elf64_Shdr` that are read -/
structure Elf64Shdr where
  name : ℕ
  type : ℕ
  flags : ℕ
  offset : ℕ
  size : ℕ
  link : ℕ
  info : ℕ
  entsize : ℕ
  deriving DecidableEq, Repr

def elf64Shdr (image : List UInt8) (base : ℕ) : Elf64Shdr where
  name := field image base 4
  type := field image (base + 4) 4
  flags := field image (base + 8) 8
  offset := field image (base + 24) 8
  size := field image (base + 32) 8
  link := field image (base + 40) 4
  info := field image (base + 44) 4
  entsize := field image (base + 56) 8

/-- The fields of `Elf64_Sym` that are read -/
structure Elf64Sym where
  name : ℕ
  info : ℕ
  shndx : ℕ
  value : ℕ
  deriving DecidableEq, Repr

def elf64Sym (image : List UInt8) (base : ℕ) : Elf64Sym where
  name := field image base 4
  info := field image (base + 4) 1
  shndx := field image (base + 6) 2
  value := field image (base + 8) 8

structure Elf64Rela where
  offset : ℕ
  info : ℕ
  addend : ℕ
  deriving DecidableEq, Repr

def elf64Rela (image : List UInt8) (base : ℕ) : Elf64Rela where
  offset := field image base 8
  info := field image (base + 8) 8
  addend := field image (base + 16) 8

namespace Elf64Rela

variable (rel : Elf64Rela)

/-- `ELF64_R_SYM` and `ELF64_R_TYPE` -/
def sym : ℕ := rel.info / 2 ^ 32

def type : ℕ := rel.info % 2 ^ 32

end Elf64Rela

/-- The fields of `Elf64_Ehdr` that describe the section headers -/
def shoff (image : List UInt8) : ℕ := field image 40 8

def shentsize (image : List UInt8) : ℕ := field image 58 2

def shnum (image : List UInt8) : ℕ := field image 60 2

def shstrndx (image : List UInt8) : ℕ := field image 62 2

/-! ### The helpers -/

def elf64Section (image : List UInt8) (index : ℕ) : Option Elf64Shdr :=
  if index ≥ shnum image then none else some (elf64Shdr image (shoff image + index * shdrSize))

def stringAt (image : List UInt8) (offset : ℕ) : Name := (image.drop offset).takeWhile (· ≠ 0)

def elf64StringTable (section_ : Option Elf64Shdr) : Option Elf64Shdr := section_.filter (·.type == shtStrtab)

def elf64SectionName (image : List UInt8) (index : ℕ) : Option Name := do
  let strings ← elf64StringTable (elf64Section image (shstrndx image))
  let section_ ← elf64Section image index
  if section_.name < strings.size then some (stringAt image (strings.offset + section_.name)) else none

def elf64Symtab (image : List UInt8) : Option Elf64Shdr :=
  ((List.range (shnum image)).filterMap (elf64Section image)).find? (·.type == shtSymtab)

def Elf64Shdr.refused (s : Elf64Shdr) (image : List UInt8) : Bool :=
  s.size > 0x7fffffff || s.type != shtNobits && (s.offset > image.length || s.size > image.length - s.offset) ||
    s.type == shtStrtab && s.size != 0 && field image (s.offset + s.size - 1) 1 != 0 ||
    s.type == shtSymtab && (s.entsize != symSize || s.link ≥ shnum image) ||
    s.type == shtRela && (s.entsize != relaSize || s.info ≥ shnum image)

def elf64ValidateRelocatable (image : List UInt8) : Bool :=
  headerValid image etRel && shnum image != 0 && shoff image ≤ image.length && shentsize image == shdrSize &&
    shnum image ≤ (image.length - shoff image) / shdrSize && shstrndx image < shnum image &&
    (List.range (shnum image)).all fun i => !(elf64Shdr image (shoff image + i * shdrSize)).refused image

/-! ## The module table -/

/-! ### Memory -/

abbrev Memory := ℕ → UInt8

namespace Memory

variable (m : Memory)

/-- The little-endian number of `size` bytes at an address -/
def read (address size : ℕ) : ℕ := field ((List.range size).map fun i => m (addWord address i)) 0 size

def write (address : ℕ) (bytes : List UInt8) : Memory :=
  fun a => if address ≤ a then (bytes[a - address]?).getD (m a) else m a

/-- The string at an address, read for at most so many bytes -/
def stringFrom : ℕ → ℕ → Name
  | 0, _ => []
  | fuel + 1, p => if m p = 0 then [] else m p :: stringFrom fuel (addWord p 1)

@[irreducible] def string (p : ℕ) : Name := m.stringFrom words p

end Memory

/-- The `size` bytes of a number, the low one first -/
def bytesOf (value size : ℕ) : List UInt8 := (List.range size).map fun i => UInt8.ofNat (value / 256 ^ i)

/-- What has been allocated: a block of `malloc`, pages of `page_malloc`, a range of `arch_module_allocate`. -/
inductive Block
  | heap (address : ℕ)
  | pages (address size : ℕ)
  | mapping (address size : ℕ)
  deriving DecidableEq, Repr

/-! ### Modules -/

/-- `module_section_t` -/
structure Section where
  name : Name
  addr : ℕ
  size : ℕ
  shndx : ℕ
  flags : ℕ
  deriving DecidableEq, Repr

/-- `module_exported_symbol_t`: the name as it was when the symbol was registered. -/
structure Export where
  name : Name
  addr : ℕ
  deriving DecidableEq, Repr

/-- What the symbol of a relocation stands for: a name, a number, or a place in a section of the module. -/
inductive Origin
  | undef (name : Name)
  | abs (value : ℕ)
  | place (shndx value : ℕ)
  deriving DecidableEq, Repr

/-- An address against which a module was relocated, and where it came from -/
structure Use where
  origin : Origin
  address : ℕ
  deriving DecidableEq, Repr

/-- `module_loaded_t`. The blocks that the pointers `sections` and `exports` hold are `0` for `NULL`. No code reads
`serial`, the number of loads before this one, and `uses`, what the relocations used. -/
structure Module where
  used : Bool := false
  id : ℕ := 0
  serial : ℕ := 0
  name : Name := []
  path : Name := []
  info : ℕ := 0
  image : ℕ := 0
  imageSize : ℕ := 0
  sectionBlock : ℕ := 0
  sections : List Section := []
  exportBlock : ℕ := 0
  exports : List Export := []
  uses : List Use := []
  deriving DecidableEq, Repr

abbrev moduleNameMax : ℕ := 31
abbrev modulePathMax : ℕ := 255
abbrev moduleInfoMagic : ℕ := 0x4d4f444c
abbrev moduleApiVersion : ℕ := 1
abbrev maxModules : ℕ := 32
abbrev maxModuleExports : ℕ := 256
abbrev intMax : ℕ := 2147483647

/-- `sizeof(module_info_t)` and `sizeof(module_export_t)` -/
abbrev infoSize : ℕ := 48
abbrev exportSize : ℕ := 16

/-- The variables of the loader, `module_next` of x86_64, how many loads there have been, and what is allocated -/
structure Loader where
  modules : Fin maxModules → Module
  kernelSymbols : List Export
  nextModuleId : ℕ
  loads : ℕ
  moduleNext : ℕ
  held : Multiset Block

namespace Loader

variable (s : Loader)

def setModule (i : Fin maxModules) (m : Module) : Loader := { s with modules := Function.update s.modules i m }

def moduleFindByName (name : Name) : Option (Fin maxModules) :=
  (List.finRange maxModules).find? fun i => (s.modules i).used && (s.modules i).name == name

def newModule : Module := { used := true, id := s.nextModuleId, serial := s.loads }

def moduleAllocSlot : Option (Fin maxModules × Loader) :=
  ((List.finRange maxModules).find? fun i => !(s.modules i).used).map fun i =>
    (i, { s.setModule i s.newModule with nextModuleId := (s.nextModuleId + 1) % 2 ^ 32, loads := s.loads + 1 })

def moduleFreeSlot (i : Fin maxModules) : Loader := s.setModule i {}

def moduleFindExportInModule (m : Module) (name : Name) : ℕ :=
  if m.exportBlock = 0 then 0 else ((m.exports.find? (·.name == name)).map (·.addr)).getD 0

def moduleResolveSymbol (name : Name) : ℕ :=
  if name = [] then 0
  else
    match s.kernelSymbols.find? (·.name == name) with
    | some e => e.addr
    | none =>
      (((List.finRange maxModules).map fun i => moduleFindExportInModule (s.modules i) name).find? (· != 0)).getD 0

def moduleRegisterKernelSymbol (name : Name) (addr : ℕ) : Loader × Bool :=
  if name = [] ∨ addr = 0 then (s, false)
  else
    match s.kernelSymbols.findIdx? (·.name == name) with
    | some i => ({ s with kernelSymbols := s.kernelSymbols.set i ⟨name, addr⟩ }, true)
    | none =>
      if s.kernelSymbols.length ≥ maxModuleExports then (s, false)
      else ({ s with kernelSymbols := s.kernelSymbols ++ [⟨name, addr⟩] }, true)

/-- The end of the addresses of modules, `0xffffbffffffff000ull` -/
abbrev moduleEnd : ℕ := 0xffffbffffffff000

/-- `arch_module_allocate`: `pages` says whether there are pages for the whole range. What a failure has mapped is
freed again. -/
def archModuleAllocate (size : ℕ) (pages : Bool) : Loader × Option ℕ :=
  if size = 0 ∨ size > intMax ∨ s.moduleNext > moduleEnd - size then (s, none)
  else
    let start := s.moduleNext
    let s := { s with moduleNext := s.moduleNext + (size + 4095) / 4096 * 4096 }
    if pages then ({ s with held := .mapping start size ::ₘ s.held }, some start) else (s, none)

/-- `arch_module_protect` of a range that is mapped -/
def archModuleProtect (writable executable : Bool) : Bool := !(writable && executable)

end Loader

def Module.moduleReleaseMemory (m : Module) (held : Multiset Block) : Multiset Block :=
  let held :=
    if m.sectionBlock ≠ 0 then
      (m.sections.foldl (fun held s => if s.addr ≠ 0 then held.erase (.mapping s.addr s.size) else held) held).erase
        (.heap m.sectionBlock)
    else held
  let held := if m.exportBlock ≠ 0 then held.erase (.heap m.exportBlock) else held
  if m.image ≠ 0 then held.erase (.pages m.image m.imageSize) else held

/-- The names that `module_register_builtin_symbols` registers, one after the other -/
def builtinNames : List Name :=
  ["printk", "malloc", "free", "page_malloc", "page_free", "memcpy", "memset", "strcmp", "strcpy", "strncpy", "strlen",
  "snprintf",
    "sprintf", "logk", "__asan_load1_noabort", "__asan_load2_noabort", "__asan_load4_noabort", "__asan_load8_noabort",
    "__asan_load16_noabort", "__asan_loadN_noabort", "__asan_store1_noabort", "__asan_store2_noabort", "__asan_store4_noabort",
    "__asan_store8_noabort", "__asan_store16_noabort", "__asan_storeN_noabort", "__asan_handle_no_return"].map
    fun name : String => name.toUTF8.data.toList

abbrev moduleStart : ℕ := 0xffffa00000000000

/-- `module_init_system`, when the kernel functions are at the addresses and nothing has been allocated for modules -/
def moduleInitSystem (address : Name → ℕ) (held : Multiset Block) : Loader :=
  builtinNames.foldl (fun s name => (s.moduleRegisterKernelSymbol name (address name)).1) ⟨fun _ => {}, [], 1, 0,
  moduleStart, held⟩

/-! ## Loading and unloading modules -/

open Exec Lib

/-- What the rest of the kernel answers during one `module_load` -/
structure Environment where
  /-- `vfs_stat`: the size of the file, negative when it fails -/
  size : ℤ
  /-- `page_malloc` -/
  image : ℕ
  /-- What `fread` reads; nothing when the file cannot be opened -/
  contents : List UInt8
  /-- `malloc` of `sections` -/
  sectionBlock : ℕ
  /-- There are pages for a section. -/
  pages : ℕ → Bool
  /-- The memory at the call; new pages have any contents -/
  memory : Memory
  /-- `malloc` of `exports` -/
  exportBlock : ℕ
  /-- What `init` returns -/
  init : ℤ

/-- The bytes that a relocation writes, and the section for which it was written -/
structure Patch where
  target : Section
  address : ℕ
  bytes : List UInt8
  deriving DecidableEq, Repr

/-- The state during a load. `copied` is the memory as the copied sections left it and `patches` what the relocations
wrote since; no code reads them. -/
structure Work where
  loader : Loader
  memory : Memory
  copied : Memory
  patches : List Patch

abbrev Work.module (w : Work) (i : Fin maxModules) : Module := w.loader.modules i

def Work.setModule (w : Work) (i : Fin maxModules) (m : Module) : Work := { w with loader := w.loader.setModule i m }

def Work.hold (w : Work) (b : Block) : Work := { w with loader := { w.loader with held := b ::ₘ w.loader.held } }

variable (env : Environment) (image : List UInt8) (i : Fin maxModules)

def Elf64Shdr.allocated (section_ : Elf64Shdr) : Bool := section_.flags &&& shfAlloc != 0 && section_.size != 0

/-- The bytes of a section: `memset`, and `memcpy` unless it is `SHT_NOBITS` -/
def fill (memory : Memory) (buffer : ℕ) (section_ : Elf64Shdr) : Memory :=
  let memory := memory.write buffer (List.replicate section_.size 0)
  if section_.type ≠ shtNobits then memory.write buffer ((image.drop section_.offset).take section_.size) else memory

def copySection (k : ℕ) (w : Work) : Work × Bool :=
  match (elf64Section image k).filter (·.allocated) with
  | none => (w, true)
  | some section_ =>
    match w.loader.archModuleAllocate section_.size (env.pages k) with
    | (loader, none) => ({ w with loader }, false)
    | (loader, some buffer) =>
      let dst : Section :=
        { name := ((elf64SectionName image k).getD []).take 31, addr := buffer, size := section_.size, shndx := k % 65536,
          flags := section_.flags % 2 ^ 32 }
      let m := loader.modules i
      let memory := fill image w.memory buffer section_
      ({ w with loader := loader.setModule i { m with sections := m.sections ++ [dst] }, memory, copied := memory }, true)

def allocCount : ℕ := ((List.range (shnum image)).filterMap (elf64Section image)).countP (·.allocated)

def moduleCopySections (w : Work) : Work × Bool :=
  if env.sectionBlock = 0 ∧ allocCount image ≠ 0 then (w, false)
  else
    let w := if env.sectionBlock = 0 then w else w.hold (.heap env.sectionBlock)
    let w := w.setModule i { w.module i with sectionBlock := env.sectionBlock, sections := [] }
    let r := untilFail (copySection env image i) (List.range (shnum image)) w
    (r.1, r.2.isNone)

/-! ### `module_apply_relocations` -/

def moduleFindSection (m : Module) (shndx : ℕ) : Option Section :=
  if m.sectionBlock = 0 then none else m.sections.find? (·.shndx == shndx)

def symbolOrigin (strtab : Elf64Shdr) (sym : Elf64Sym) : Origin :=
  if sym.shndx = shnUndef then .undef (stringAt image (strtab.offset + sym.name))
  else if sym.shndx = shnAbs then .abs sym.value
  else .place sym.shndx sym.value

def moduleSymbolValue (s : Loader) (m : Module) : Origin → ℕ
  | .undef name => s.moduleResolveSymbol name
  | .abs value => value
  | .place shndx value =>
    match moduleFindSection m shndx with
    | none => 0
    | some section_ => addWord section_.addr value

def asInt (bits n : ℕ) : ℤ := if n % 2 ^ bits < 2 ^ (bits - 1) then (n % 2 ^ bits : ℕ) else (n % 2 ^ bits : ℕ) - 2 ^ bits

/-- `ELF_RELOCATION_WIDTH` -/
def relocationWidth (type : ℕ) : ℕ := if type = 1 then 8 else 4

/-- The number that a relocation of the type stores, `none` when it is refused -/
def relocationValue (type value p : ℕ) : Option ℕ :=
  match type with
  | 1 => some value
  | 2 | 4 => if asInt 64 (subWord value p) < -2147483648 ∨
    asInt 64 (subWord value p) > 2147483647 then none else some (subWord value p)
  | 10 => if value > 4294967295 then none else some value
  | 11 => if asInt 64 value ≠ asInt 32 value then none else some value
  | _ => none

/-- The bytes are written, and the module has used the address. -/
def Work.patch (w : Work) (target : Section) (address : ℕ) (bytes : List UInt8) (use : Use) : Work :=
  { w.setModule i { w.module i with uses := (w.module i).uses ++ [use] } with
    memory := w.memory.write address bytes, patches := w.patches ++ [⟨target, address, bytes⟩] }

def relocate (symtab strtab : Elf64Shdr) (target : Section) (rel : Elf64Rela) (w : Work) : Work × Bool :=
  if rel.type = 0 then (w, true)
  else if rel.sym ≥ symtab.size / symSize then (w, false)
  else
    let sym := elf64Sym image (symtab.offset + rel.sym * symSize)
    let width := relocationWidth rel.type
    if sym.name ≥ strtab.size ∨ rel.offset > target.size ∨ width > target.size - rel.offset then (w, false)
    else
      let origin := symbolOrigin image strtab sym
      let s := moduleSymbolValue w.loader (w.module i) origin
      let p := addWord target.addr rel.offset
      if s = 0 ∧ sym.shndx = shnUndef ∧ sym.info / 16 ≠ 2 then (w, false)
      else
        match relocationValue rel.type (addWord s rel.addend) p with
        | none => (w, false)
        | some value => (w.patch i target p (bytesOf value width) ⟨origin, s⟩, true)

def relocateSection (symtab strtab : Elf64Shdr) (k : ℕ) (w : Work) : Work × Bool :=
  match (elf64Section image k).filter (·.type == shtRela) with
  | none => (w, true)
  | some relsec =>
    match moduleFindSection (w.module i) (relsec.info % 65536) with
    | none => (w, false)
    | some target =>
      let rels := (List.range (relsec.size / relaSize)).map fun j => elf64Rela image (relsec.offset + j * relaSize)
      let r := untilFail (relocate image i symtab strtab target) rels w
      (r.1, r.2.isNone)

def moduleApplyRelocations (w : Work) : Work × Bool :=
  match elf64Symtab image with
  | none => (w, false)
  | some symtab =>
    match elf64StringTable (elf64Section image symtab.link) with
    | none => (w, false)
    | some strtab =>
      let r := untilFail (relocateSection image i symtab strtab) (List.range (shnum image)) w
      (r.1, r.2.isNone)

def modinfoName : Name := ".modinfo".toUTF8.data.toList

def moduleFindInfo (m : Module) : ℕ :=
  match m.sections.find? (·.name == modinfoName) with
  | none => 0
  | some section_ => if section_.size < infoSize then 0 else section_.addr

/-- What `module_load_image` asks of the metadata -/
def validMetadata (memory : Memory) (info : ℕ) : Bool :=
  info != 0 && memory.read info 4 == moduleInfoMagic && memory.read (addWord info 4) 4 == moduleApiVersion &&
    memory.read (addWord info 8) 8 != 0 && memory.read (addWord info 16) 8 != 0 && memory.read (addWord info 24) 8 != 0

def moduleLoadImage (w : Work) : Work × Bool :=
  if env.size ≤ 0 ∨ env.image = 0 then (w, false)
  else
    let w := w.hold (.pages env.image env.size.toNat)
    let w := w.setModule i { w.module i with image := env.image, imageSize := env.size.toNat }
    if (env.contents.length : ℤ) ≠ env.size ∨ !elf64ValidateRelocatable env.contents then (w, false)
    else
      match moduleCopySections env env.contents i w with
      | (w, false) => (w, false)
      | (w, true) =>
        match moduleApplyRelocations env.contents i w with
        | (w, false) => (w, false)
        | (w, true) =>
          if !(w.module i).sections.all fun s => Loader.archModuleProtect (s.flags &&& shfWrite != 0)
            (s.flags &&& shfExecinstr != 0) then
            (w, false)
          else
            let info := moduleFindInfo (w.module i)
            (w.setModule i { w.module i with info }, validMetadata w.memory info)

/-- One round of the loop over the table at `exports` -/
def registerExport (exports k : ℕ) (w : Work) : Work × Bool :=
  let p := w.memory.read (addWord exports (k * exportSize)) 8
  let addr := w.memory.read (addWord (addWord exports (k * exportSize)) 8) 8
  let name := w.memory.string p
  let m := w.module i
  if p = 0 ∨ name = [] ∨ addr = 0 ∨ w.loader.moduleResolveSymbol name ≠ 0 then (w.setModule i { m with exports := [] }, false)
  else (w.setModule i { m with exports := m.exports ++ [⟨name, addr⟩] }, true)

def moduleRegisterExports (w : Work) : Work × Bool :=
  let m := w.module i
  if m.info = 0 then (w, false)
  else
    let exportCount := w.memory.read (addWord m.info 40) 4
    let exports := w.memory.read (addWord m.info 32) 8
    if exportCount = 0 then (w.setModule i { m with exportBlock := 0, exports := [] }, true)
    else if exports = 0 ∨ exportCount > intMax / exportSize then (w, false)
    else if env.exportBlock = 0 then (w.setModule i { m with exportBlock := 0 }, false)
    else
      let w := (w.hold (.heap env.exportBlock)).setModule i { m with exportBlock := env.exportBlock, exports := [] }
      let r := untilFail (registerExport i exports) (List.range exportCount) w
      (r.1, r.2.isNone)

/-! ### `module_load` and `module_unload` -/

/-- `module_release_memory` and `module_free_slot` of the module in a slot -/
def Loader.drop (s : Loader) : Loader :=
  { s with held := (s.modules i).moduleReleaseMemory s.held }.moduleFreeSlot i

def Work.fail (w : Work) : Work × ℤ := ({ w with loader := w.loader.drop i }, -1)

/-- `module_load` of a slot that was allocated -/
def loadSlot (path : Name) (w : Work) : Work × ℤ :=
  let w := w.setModule i { w.module i with path := path.take modulePathMax }
  match moduleLoadImage env i w with
  | (w, false) => w.fail i
  | (w, true) =>
    let name := (w.memory.string (w.memory.read (addWord (w.module i).info 8) 8)).take moduleNameMax
    let w := w.setModule i { w.module i with name }
    if w.loader.moduleFindByName name ≠ some i then w.fail i
    else
      match moduleRegisterExports env i w with
      | (w, false) => w.fail i
      | (w, true) => if env.init ≠ 0 then w.fail i else (w, 0)

/-- `module_load`: the empty path stands for `NULL` too. -/
def moduleLoad (path : Name) (s : Loader) : Work × ℤ :=
  let w : Work := ⟨s, env.memory, env.memory, []⟩
  if path = [] then (w, -1)
  else
    match s.moduleAllocSlot with
    | none => (w, -1)
    | some (i, loader) => loadSlot env i path { w with loader }

/-- `module_unload`: `exit` is what the function of the module returns. -/
def moduleUnload (name : Name) (exit : ℤ) (s : Loader) : Loader × ℤ :=
  match s.moduleFindByName name with
  | none => (s, -1)
  | some i => if exit ≠ 0 then (s, -1) else (s.drop i, 0)

/-- The loader in a run: `gone` has the modules that were unloaded, each with the number of loads before. -/
structure History where
  loader : Loader
  gone : List (ℕ × Module)

inductive Call
  | load (env : Environment) (path : Name)
  | unload (name : Name) (exit : ℤ)

def History.step (h : History) : Call → Option History
  | .load env path => some { h with loader := (moduleLoad env path h.loader).1.loader }
  | .unload name exit =>
    some
      { loader := (moduleUnload name exit h.loader).1
        gone :=
          if exit ≠ 0 then h.gone
          else ((h.loader.moduleFindByName name).map fun i => (h.loader.loads, h.loader.modules i)).toList ++ h.gone }

/-- The runs from a kernel with its functions at the addresses and with these blocks allocated -/
def sys (address : Name → ℕ) (held : Multiset Block) : System History Call where
  init h := h = ⟨moduleInitSystem address held, []⟩
  step := History.step

/-! ## What the module table provides and owns -/

open Loader

variable {s s' : Loader} {i j : Fin maxModules} {m : Module} {name : Name}

@[simp] lemma Loader.setModule_self (m : Module) : (s.setModule i m).modules i = m := Function.update_self ..

lemma Loader.setModule_of_ne (h : j ≠ i) (m : Module) : (s.setModule i m).modules j = s.modules j := Function.update_of_ne h ..

@[simp] lemma Loader.setModule_held (m : Module) : (s.setModule i m).held = s.held := rfl

/-! ### Names -/

/-- Every symbol that is provided has a name and an address, and is in a table that `module_resolve_symbol` reads. -/
structure Loader.Named (s : Loader) : Prop where
  kernel : ∀ e ∈ s.kernelSymbols, e.name ≠ [] ∧ e.addr ≠ 0
  exports : ∀ i, ∀ e ∈ (s.modules i).exports, e.name ≠ [] ∧ e.addr ≠ 0 ∧ (s.modules i).exportBlock ≠ 0

/-- **No name is provided twice**: not in the kernel table, not by one module, not by the kernel and a module, and not
by two modules. -/
structure Loader.Sole (s : Loader) : Prop where
  kernel : (s.kernelSymbols.map (·.name)).Nodup
  own : ∀ i, ((s.modules i).exports.map (·.name)).Nodup
  apart : ∀ i, ∀ e ∈ (s.modules i).exports, ∀ k ∈ s.kernelSymbols, e.name ≠ k.name
  others : ∀ i j, i ≠ j → ∀ e ∈ (s.modules i).exports, ∀ f ∈ (s.modules j).exports, e.name ≠ f.name

def Loader.Unprovided (s : Loader) (name : Name) : Prop :=
  (∀ k ∈ s.kernelSymbols, k.name ≠ name) ∧ ∀ i, ∀ e ∈ (s.modules i).exports, e.name ≠ name

lemma Loader.Named.congr (h : s.Named) (hk : s'.kernelSymbols = s.kernelSymbols)
    (hm : ∀ j, (s'.modules j).exports = (s.modules j).exports ∧ (s'.modules j).exportBlock = (s.modules j).exportBlock) :
    s'.Named := by
  refine ⟨hk ▸ h.kernel, fun j e he => ?_⟩
  rw [(hm j).1] at he
  rw [(hm j).2]
  exact h.exports j e he

lemma Loader.Sole.congr (h : s.Sole) (hk : s'.kernelSymbols = s.kernelSymbols)
    (hm : ∀ j, (s'.modules j).exports = (s.modules j).exports) : s'.Sole := by
  refine ⟨hk ▸ h.kernel, fun j => hm j ▸ h.own j, fun j e he k hk' => ?_, fun j l hjl e he f hf => ?_⟩
  · exact h.apart j e (hm j ▸ he) k (hk ▸ hk')
  · exact h.others j l hjl e (hm j ▸ he) f (hm l ▸ hf)

lemma Loader.Named.clear (h : s.Named) (hm : m.exports = []) : (s.setModule i m).Named := by
  refine ⟨h.kernel, fun j e he => ?_⟩
  by_cases hj : j = i
  · subst hj
    simp [hm] at he
  · rw [setModule_of_ne hj] at he ⊢
    exact h.exports j e he

lemma Loader.Sole.clear (h : s.Sole) (hm : m.exports = []) : (s.setModule i m).Sole := by
  have hmem : ∀ {j e}, e ∈ ((s.setModule i m).modules j).exports → e ∈ (s.modules j).exports := by
    intro j e he
    by_cases hj : j = i
    · subst hj
      simp [hm] at he
    · rwa [setModule_of_ne hj] at he
  refine ⟨h.kernel, fun j => ?_, fun j e he k hk => h.apart j e (hmem he) k hk,
    fun j l hjl e he f hf => h.others j l hjl e (hmem he) f (hmem hf)⟩
  by_cases hj : j = i
  · subst hj
    simp [hm]
  · rw [setModule_of_ne hj]
    exact h.own j

lemma Loader.Sole.publish (h : s.Sole) {e : Export} (hfree : s.Unprovided e.name)
    (hm : m.exports = (s.modules i).exports ++ [e]) :
    (s.setModule i m).Sole := by
  have hmem : ∀ {j f}, f ∈ ((s.setModule i m).modules j).exports → f ∈ (s.modules j).exports ∨ j = i ∧ f = e := by
    intro j f hf
    by_cases hj : j = i
    · subst hj
      rw [setModule_self, hm, List.mem_append, List.mem_singleton] at hf
      exact hf.imp_right fun hf => ⟨rfl, hf⟩
    · rw [setModule_of_ne hj] at hf
      exact .inl hf
  refine ⟨h.kernel, fun j => ?_, fun j f hf k hk => ?_, fun j l hjl f hf g hg => ?_⟩
  · by_cases hj : j = i
    · subst hj
      rw [setModule_self, hm, List.map_append]
      refine List.Nodup.append (h.own j) (List.nodup_singleton _) ?_
      intro n hn hn'
      obtain ⟨f, hf, rfl⟩ := List.mem_map.mp hn
      exact hfree.2 j f hf (List.mem_singleton.mp hn')
    · rw [setModule_of_ne hj]
      exact h.own j
  · rcases hmem hf with hf | ⟨-, rfl⟩
    · exact h.apart j f hf k hk
    · exact fun heq => hfree.1 k hk heq.symm
  · rcases hmem hf with hf | ⟨hj, hf⟩ <;> rcases hmem hg with hg | ⟨hl, hg⟩
    · exact h.others j l hjl f hf g hg
    · exact hg ▸ hfree.2 j f hf
    · exact fun heq => hfree.2 l g hg (hf ▸ heq.symm)
    · exact absurd (hj.trans hl.symm) hjl

/-! ### `module_resolve_symbol` -/

lemma moduleFindExportInModule_mem (h : moduleFindExportInModule m name ≠ 0) :
    ⟨name, moduleFindExportInModule m name⟩ ∈ m.exports := by
  unfold moduleFindExportInModule at h ⊢
  split at h
  · exact absurd rfl h
  · rename_i hblk
    rw [if_neg hblk]
    cases hf : m.exports.find? (·.name == name) with
    | none =>
      rw [hf] at h
      exact absurd rfl h
    | some e =>
      have hname : e.name = name := by simpa using List.find?_some hf
      exact hname ▸ List.mem_of_find?_eq_some hf

/-- **What is found is provided.** -/
theorem moduleResolveSymbol_provided (h : s.moduleResolveSymbol name ≠ 0) :
    ⟨name, s.moduleResolveSymbol name⟩ ∈ s.kernelSymbols ∨ ∃ i, ⟨name, s.moduleResolveSymbol name⟩ ∈ (s.modules i).exports := by
  unfold Loader.moduleResolveSymbol at h ⊢
  by_cases hname : name = []
  · rw [if_pos hname] at h
    exact absurd rfl h
  · rw [if_neg hname] at h ⊢
    cases hk : s.kernelSymbols.find? (·.name == name) with
    | some e =>
      have hname : e.name = name := by simpa using List.find?_some hk
      exact .inl (hname ▸ List.mem_of_find?_eq_some hk)
    | none =>
      rw [hk] at h
      dsimp only at h ⊢
      cases hf : ((List.finRange maxModules).map fun i => moduleFindExportInModule (s.modules i) name).find? (· != 0) with
      | none =>
        rw [hf] at h
        exact absurd rfl h
      | some addr =>
        obtain ⟨i, -, rfl⟩ := List.mem_map.mp (List.mem_of_find?_eq_some hf)
        exact .inr ⟨i, moduleFindExportInModule_mem (by simpa using List.find?_some hf)⟩

/-- **What is not found is not provided.** -/
theorem unprovided_of_resolve (h : s.Named) (hname : name ≠ []) (hr : s.moduleResolveSymbol name = 0) : s.Unprovided name := by
  unfold Loader.moduleResolveSymbol at hr
  rw [if_neg hname] at hr
  cases hk : s.kernelSymbols.find? (·.name == name) with
  | some e =>
    rw [hk] at hr
    exact absurd hr (h.kernel e (List.mem_of_find?_eq_some hk)).2
  | none =>
    rw [hk] at hr
    refine ⟨fun k hk' => by simpa using List.find?_eq_none.mp hk k hk', fun i e he heq => ?_⟩
    -- The first module that provides the name has an address for it.
    have hfnd : moduleFindExportInModule (s.modules i) name ≠ 0 := by
      obtain ⟨-, -, hblk⟩ := h.exports i e he
      unfold moduleFindExportInModule
      rw [if_neg hblk]
      cases hf : (s.modules i).exports.find? (·.name == name) with
      | none => exact absurd heq (by simpa using List.find?_eq_none.mp hf e he)
      | some f => exact (h.exports i f (List.mem_of_find?_eq_some hf)).2.1
    cases hf : ((List.finRange maxModules).map fun i => moduleFindExportInModule (s.modules i) name).find? (· != 0) with
    | none =>
      have := List.find?_eq_none.mp hf _ (List.mem_map.mpr ⟨i, List.mem_finRange i, rfl⟩)
      exact hfnd (by simpa using this)
    | some addr =>
      rw [hf] at hr
      have : addr ≠ 0 := by simpa using List.find?_some hf
      exact this hr

/-! ### Blocks -/

/-- The block of `malloc` at an address, unless it is `NULL` -/
def heapBlock (address : ℕ) : Multiset Block := if address ≠ 0 then {.heap address} else 0

def mappings (sections : List Section) : Multiset Block :=
  ((sections.filter (·.addr ≠ 0)).map fun s => Block.mapping s.addr s.size : List Block)

/-- What a module owns: its image, its sections with the array that describes them, and its table of exports -/
def Module.owned (m : Module) : Multiset Block :=
  (if m.image ≠ 0 then {.pages m.image m.imageSize} else 0) + heapBlock m.exportBlock +
    if m.sectionBlock ≠ 0 then .heap m.sectionBlock ::ₘ mappings m.sections else 0

lemma mappings_append {sections : List Section} {sec : Section} (h : sec.addr ≠ 0) :
    mappings (sections ++ [sec]) = .mapping sec.addr sec.size ::ₘ mappings sections := by
  unfold mappings
  rw [List.filter_append, List.map_append, List.filter_cons_of_pos (by simpa using h), ← Multiset.coe_add, add_comm]
  rfl

lemma owned_append {sec : Section} (hm : m.sectionBlock ≠ 0) (h : sec.addr ≠ 0) :
    { m with sections := m.sections ++ [sec] }.owned = .mapping sec.addr sec.size ::ₘ m.owned := by
  unfold Module.owned
  simp only [ne_eq, hm, not_false_eq_true, if_true, mappings_append h]
  rw [Multiset.cons_swap, Multiset.add_cons]

lemma erase_mappings (sections : List Section) (held : Multiset Block) :
    sections.foldl (fun held s => if s.addr ≠ 0 then held.erase (.mapping s.addr s.size) else held) (mappings sections + held) =
      held := by
  induction sections with
  | nil => exact zero_add held
  | cons s l ih =>
    rw [List.foldl_cons]
    by_cases hs : s.addr = 0
    · rw [if_neg (not_not.mpr hs)]
      simpa [mappings, hs] using ih
    · rw [if_pos hs]
      have : mappings (s :: l) = .mapping s.addr s.size ::ₘ mappings l := by simp [mappings, hs]
      rw [this, Multiset.cons_add, Multiset.erase_cons_head]
      exact ih

lemma erase_heapBlock (address : ℕ) (held : Multiset Block) :
    (if address ≠ 0 then (heapBlock address + held).erase (.heap address) else heapBlock address + held) = held := by
  unfold heapBlock
  split
  · rw [Multiset.singleton_add, Multiset.erase_cons_head]
  · exact zero_add held

/-- **Releasing a module frees what it owns and nothing else.** -/
theorem moduleReleaseMemory_owned (m : Module) (held : Multiset Block) : m.moduleReleaseMemory (held + m.owned) = held := by
  let image : Multiset Block := if m.image ≠ 0 then {.pages m.image m.imageSize} else 0
  let sections : Multiset Block := if m.sectionBlock ≠ 0 then .heap m.sectionBlock ::ₘ mappings m.sections else 0
  have howd : held + m.owned = sections + (heapBlock m.exportBlock + (image + held)) := by
    show held + (image + heapBlock m.exportBlock + sections) = _
    abel
  have hsecs (h : Multiset Block) :
      (if m.sectionBlock ≠ 0 then
        (m.sections.foldl (fun held s => if s.addr ≠ 0 then held.erase (.mapping s.addr s.size) else held) (sections + h)).erase
          (.heap m.sectionBlock)
      else sections + h) = h := by
    by_cases hblk : m.sectionBlock = 0
    · simp [sections, hblk]
    · have hsum : sections + h = mappings m.sections + (.heap m.sectionBlock ::ₘ h) := by
        simp only [sections, ne_eq, hblk, not_false_eq_true, if_true, Multiset.cons_add, Multiset.add_cons]
      rw [if_pos hblk, hsum, erase_mappings, Multiset.erase_cons_head]
  have himg : (if m.image ≠ 0 then (image + held).erase (.pages m.image m.imageSize) else image + held) = held := by
    by_cases h : m.image = 0
    · simp [image, h]
    · rw [if_pos h]
      simp only [image, ne_eq, h, not_false_eq_true, if_true, Multiset.singleton_add, Multiset.erase_cons_head]
  unfold Module.moduleReleaseMemory
  rw [howd]
  dsimp only
  rw [hsecs, erase_heapBlock, himg]

end PlantOS.Modules
