import Mathlib.Data.Fintype.Fin
import PlantOS.Modules.Loader

/-!
# What a load keeps

`Loading` is what holds at every point of a load into a slot that was free: the rest of the table is as it was, what
has been allocated since belongs to the module, its relocations were written into its own sections, and what they used
came from the table.
-/

namespace PlantOS.Modules

open Exec Lib Loader

/-- What a module used came from the table `s`, from its own sections or from the image. -/
def FromTable (s : Loader) (m : Module) (u : Use) : Prop :=
  match u.origin with
  | .undef name =>
    u.address = 0 ∨ ⟨name, u.address⟩ ∈ s.kernelSymbols ∨ ∃ j, ⟨name, u.address⟩ ∈ (s.modules j).exports
  | .abs value => u.address = value
  | .place shndx value =>
    (∀ sec ∈ m.sections, sec.shndx ≠ shndx) ∧ u.address = 0 ∨
      ∃ sec ∈ m.sections, sec.shndx = shndx ∧ u.address = addWord sec.addr value

namespace Patch

variable (p : Patch)

def Inside : Prop := p.target.addr ≤ p.address ∧ p.address + p.bytes.length ≤ p.target.addr + p.target.size

def Covers (a : ℕ) : Prop := p.address ≤ a ∧ a < p.address + p.bytes.length

end Patch

/-- The section was allocated when the next address went from `first` to `next`. -/
def Section.Between (sec : Section) (first next : ℕ) : Prop :=
  sec.addr ≠ 0 ∧ first ≤ sec.addr ∧ sec.addr + sec.size ≤ next ∧ sec.addr + sec.size ≤ moduleEnd

/-- **A load into the slot `i` of the table `s₀`.** -/
structure Loading (s₀ : Loader) (i : Fin maxModules) (w : Work) : Prop where
  others : ∀ j, j ≠ i → w.module j = s₀.modules j
  symbols : w.loader.kernelSymbols = s₀.kernelSymbols
  ids : w.loader.loads = s₀.loads + 1
  slot : (w.module i).used = true ∧ (w.module i).serial = s₀.loads
  held : w.loader.held = s₀.held + (w.module i).owned
  next : s₀.moduleNext ≤ w.loader.moduleNext
  sections : ∀ sec ∈ (w.module i).sections, sec.Between s₀.moduleNext w.loader.moduleNext
  block : (w.module i).sectionBlock = 0 → (w.module i).sections = []
  named : w.loader.Named
  sole : w.loader.Sole
  uses : ∀ u ∈ (w.module i).uses, FromTable s₀ (w.module i) u
  patches : ∀ p ∈ w.patches, p.Inside ∧ p.target ∈ (w.module i).sections
  log : ∀ a, w.memory a ≠ w.copied a → ∃ p ∈ w.patches, p.Covers a

variable {env : Environment} {image : List UInt8} {s₀ : Loader} {i j : Fin maxModules} {w : Work} {k : ℕ}

@[simp] lemma Work.setModule_module (m : Module) : (w.setModule i m).module i = m := setModule_self m

namespace Loading

lemma note (h : Loading s₀ i w) {m : Module} (hslot : m.used = (w.module i).used ∧ m.serial = (w.module i).serial)
    (himg : m.image = (w.module i).image ∧ m.imageSize = (w.module i).imageSize)
    (hsecs : m.sectionBlock = (w.module i).sectionBlock ∧ m.sections = (w.module i).sections)
    (hexp : m.exportBlock = (w.module i).exportBlock ∧ m.exports = (w.module i).exports) (huses : m.uses = (w.module i).uses) :
    Loading s₀ i (w.setModule i m) := by
  have hsame (l : Fin maxModules) : ((w.setModule i m).module l).exports = (w.module l).exports ∧
      ((w.setModule i m).module l).exportBlock = (w.module l).exportBlock := by
    by_cases hl : l = i
    · subst hl
      rw [Work.setModule_module]
      exact ⟨hexp.2, hexp.1⟩
    · exact ⟨congrArg Module.exports (setModule_of_ne hl m), congrArg Module.exportBlock (setModule_of_ne hl m)⟩
  have howd : m.owned = (w.module i).owned := by
    unfold Module.owned
    rw [himg.1, himg.2, hsecs.1, hsecs.2, hexp.1]
  refine ⟨fun l hl => (setModule_of_ne hl m).trans (h.others l hl), h.symbols, h.ids, ?_, ?_, h.next, ?_, ?_, ?_, ?_,
    ?_, ?_, h.log⟩
  · rw [Work.setModule_module, hslot.1, hslot.2]
    exact h.slot
  · rw [Work.setModule_module, howd]
    exact h.held
  · rw [Work.setModule_module, hsecs.2]
    exact h.sections
  · rw [Work.setModule_module, hsecs.1, hsecs.2]
    exact h.block
  · exact h.named.congr rfl hsame
  · exact h.sole.congr rfl fun l => (hsame l).1
  · rw [Work.setModule_module, huses]
    intro u hu
    have := h.uses u hu
    unfold FromTable at this ⊢
    rwa [hsecs.2]
  · rw [Work.setModule_module, hsecs.2]
    exact h.patches

/-! ### The image and the sections -/

/-- The blocks of the module before anything else: `hold` and the field that has the block. -/
lemma hold (h : Loading s₀ i w) {b : Block} {m : Module} (hslot : m.used = (w.module i).used ∧ m.serial = (w.module i).serial)
    (howd : m.owned = b ::ₘ (w.module i).owned)
    (hsecs : m.sections = (w.module i).sections ∧ (m.sectionBlock = 0 → m.sections = []))
    (hexp : m.exports = []) (huses : m.uses = (w.module i).uses) :
    Loading s₀ i ((w.hold b).setModule i m) := by
  refine ⟨fun l hl => (setModule_of_ne hl m).trans (h.others l hl), h.symbols, h.ids, ?_, ?_, h.next, ?_, ?_, ?_, ?_,
    ?_, ?_, h.log⟩
  · rw [Work.setModule_module, hslot.1, hslot.2]
    exact h.slot
  · rw [Work.setModule_module, howd]
    show b ::ₘ w.loader.held = _
    rw [h.held, Multiset.add_cons]
  · rw [Work.setModule_module, hsecs.1]
    exact h.sections
  · rw [Work.setModule_module]
    exact hsecs.2
  · exact (h.named.congr rfl fun _ => ⟨rfl, rfl⟩ : (w.hold b).loader.Named).clear hexp
  · exact (h.sole.congr rfl fun _ => rfl : (w.hold b).loader.Sole).clear hexp
  · rw [Work.setModule_module, huses]
    intro u hu
    have := h.uses u hu
    unfold FromTable at this ⊢
    rwa [hsecs.1]
  · rw [Work.setModule_module, hsecs.1]
    exact h.patches

end Loading

lemma archModuleAllocate_modules (s : Loader) (size : ℕ) (pages : Bool) :
    (s.archModuleAllocate size pages).1.modules = s.modules ∧
      (s.archModuleAllocate size pages).1.kernelSymbols = s.kernelSymbols ∧
      (s.archModuleAllocate size pages).1.loads = s.loads ∧
      s.moduleNext ≤ (s.archModuleAllocate size pages).1.moduleNext := by
  unfold archModuleAllocate
  dsimp only
  split
  · exact ⟨rfl, rfl, rfl, Nat.le_refl _⟩
  · split <;> exact ⟨rfl, rfl, rfl, Nat.le_add_right ..⟩

lemma archModuleAllocate_none {s s' : Loader} {size : ℕ} {pages : Bool} (h : s.archModuleAllocate size pages = (s', none)) :
    s'.held = s.held := by
  unfold archModuleAllocate at h
  dsimp only at h
  split at h
  · cases h
    rfl
  · split at h <;> cases h
    rfl

lemma archModuleAllocate_some {s s' : Loader} {size a : ℕ} {pages : Bool} (h : s.archModuleAllocate size pages = (s', some a)) :
    a = s.moduleNext ∧ a + size ≤ s'.moduleNext ∧ a + size ≤ moduleEnd ∧ s'.held = .mapping a size ::ₘ s.held := by
  unfold archModuleAllocate at h
  dsimp only at h
  split at h
  · cases h
  · rename_i hfits
    split at h
    · cases h
      refine ⟨rfl, ?_, ?_, rfl⟩
      · show s.moduleNext + size ≤ s.moduleNext + (size + 4095) / 4096 * 4096
        omega
      · have : intMax ≤ moduleEnd := by decide
        omega
    · cases h

def Module.Unpublished (m : Module) : Prop := m.exports = [] ∧ m.exportBlock = 0

structure Copying (env : Environment) (s₀ : Loader) (i : Fin maxModules) (w : Work) : Prop extends Loading s₀ i w where
  sectionBlock : (w.module i).sectionBlock = env.sectionBlock
  noUses : (w.module i).uses = []
  noExports : (w.module i).Unpublished
  noPatches : w.patches = []

lemma copySection_keeps (h : Copying env s₀ i w) (hpos : 0 < s₀.moduleNext)
    (hblk : (elf64Section image k).filter (·.allocated) ≠ none → env.sectionBlock ≠ 0) :
    Copying env s₀ i (copySection env image i k w).1 := by
  unfold copySection
  cases hsec : (elf64Section image k).filter (·.allocated) with
  | none => exact h
  | some section_ =>
    have hblk : env.sectionBlock ≠ 0 := hblk (by simp [hsec])
    have hkept := archModuleAllocate_modules w.loader section_.size (env.pages k)
    dsimp only
    rcases hr : w.loader.archModuleAllocate section_.size (env.pages k) with ⟨loader, _ | buffer⟩ <;> rw [hr] at hkept
    · -- There is no memory: only the next address may have advanced.
      obtain ⟨hm, hk, hid, hnext⟩ := hkept
      dsimp only at hm hk hid hnext ⊢
      have hheld := archModuleAllocate_none hr
      have hmod : loader.modules i = w.module i := congrFun hm i
      refine ⟨⟨fun l hl => (congrFun hm l).trans (h.others l hl), hk.trans h.symbols, hid.trans h.ids, ?_, ?_,
        h.next.trans hnext, ?_,
        ?_, h.named.congr hk fun l => ⟨congrArg _ (congrFun hm l), congrArg _ (congrFun hm l)⟩,
        h.sole.congr hk fun l => congrArg _ (congrFun hm l), ?_, ?_, h.log⟩, ?_, ?_, ?_, h.noPatches⟩
      all_goals
        dsimp only [Work.module]
        rw [hmod]
      · exact h.slot
      · exact hheld.trans h.held
      · intro sec hs
        obtain ⟨h0, h1, h2, h3⟩ := h.sections sec hs
        exact ⟨h0, h1, h2.trans hnext, h3⟩
      · exact h.block
      · exact h.uses
      · exact h.patches
      · exact h.sectionBlock
      · exact h.noUses
      · exact h.noExports
    · obtain ⟨hm, hk, hid, hnext⟩ := hkept
      obtain ⟨ha, hend, hmax, hheld⟩ := archModuleAllocate_some hr
      dsimp only at hm hk hid hnext ⊢
      have hmod : loader.modules i = w.module i := congrFun hm i
      have hne : buffer ≠ 0 := by
        have := h.next
        omega
      rw [hmod]
      refine ⟨⟨fun l hl => ?_, hk.trans h.symbols, hid.trans h.ids, ?_, ?_, h.next.trans hnext, ?_, ?_, ?_, ?_, ?_, ?_,
        ?_⟩, ?_, ?_, ?_,
        h.noPatches⟩
      · exact (setModule_of_ne hl _).trans ((congrFun hm l).trans (h.others l hl))
      all_goals dsimp only [Work.module]
      · rw [setModule_self]
        exact h.slot
      · have hb : (w.module i).sectionBlock ≠ 0 := h.sectionBlock ▸ hblk
        rw [setModule_self, setModule_held, hheld, h.held, owned_append hb (by exact hne), Multiset.add_cons]
      · rw [setModule_self]
        intro sec hs
        rw [List.mem_append, List.mem_singleton] at hs
        rcases hs with hs | rfl
        · obtain ⟨h0, h1, h2, h3⟩ := h.sections sec hs
          exact ⟨h0, h1, h2.trans hnext, h3⟩
        · exact ⟨hne, ha ▸ h.next, hend, hmax⟩
      · rw [setModule_self]
        exact fun h0 => absurd (h.sectionBlock.symm.trans h0) hblk
      · exact (h.named.congr hk fun l => ⟨congrArg _ (congrFun hm l),
          congrArg _ (congrFun hm l)⟩ : loader.Named).clear h.noExports.1
      · exact (h.sole.congr hk fun l => congrArg _ (congrFun hm l) : loader.Sole).clear h.noExports.1
      · rw [setModule_self]
        dsimp only
        rw [h.noUses]
        exact nofun
      · rw [h.noPatches]
        exact nofun
      · exact fun a hne => absurd rfl hne
      · rw [setModule_self]
        exact h.sectionBlock
      · rw [setModule_self]
        exact h.noUses
      · rw [setModule_self]
        exact h.noExports

lemma allocCount_ne_zero {section_ : Elf64Shdr} (hk : k < shnum image)
    (h : (elf64Section image k).filter (·.allocated) = some section_) : allocCount image ≠ 0 := by
  obtain ⟨hsec, hall⟩ := Option.filter_eq_some_iff.mp h
  have : 0 < allocCount image :=
    List.countP_pos_iff.mpr ⟨section_, List.mem_filterMap.mpr ⟨k, List.mem_range.mpr hk, hsec⟩, hall⟩
  omega

structure Starting (s₀ : Loader) (i : Fin maxModules) (w : Work) : Prop extends Loading s₀ i w where
  noBlock : (w.module i).sectionBlock = 0
  noUses : (w.module i).uses = []
  noExports : (w.module i).Unpublished
  noPatches : w.patches = []

/-- **`module_copy_sections` keeps what a load keeps.** -/
theorem moduleCopySections_keeps (env : Environment) (image : List UInt8) (h : Starting s₀ i w) (hpos : 0 < s₀.moduleNext) :
    Loading s₀ i (moduleCopySections env image i w).1 ∧ ((moduleCopySections env image i w).1.module i).Unpublished := by
  unfold moduleCopySections
  split
  · exact ⟨h.toLoading, h.noExports⟩
  · rename_i hfail
    have hsecs := h.block h.noBlock
    have hbeg : Copying env s₀ i
        ((if env.sectionBlock = 0 then w else w.hold (.heap env.sectionBlock)).setModule i
          { w.module i with sectionBlock := env.sectionBlock, sections := [] }) := by
      have hload : Loading s₀ i
          ((if env.sectionBlock = 0 then w else w.hold (.heap env.sectionBlock)).setModule i
            { w.module i with sectionBlock := env.sectionBlock, sections := [] }) := by
        split
        · rename_i hnull
          exact h.note ⟨rfl, rfl⟩ ⟨rfl, rfl⟩ ⟨hnull.trans h.noBlock.symm, hsecs.symm⟩ ⟨rfl, rfl⟩ rfl
        · rename_i hblk
          refine h.hold ⟨rfl, rfl⟩ ?_ ⟨hsecs.symm, fun _ => rfl⟩ h.noExports.1 rfl
          unfold Module.owned
          simp only [ne_eq, hblk, h.noBlock, mappings, not_true_eq_false, not_false_eq_true, if_true, if_false, List.filter_nil,
            List.map_nil, Multiset.coe_nil, add_zero]
          rw [add_comm, Multiset.cons_add, zero_add]
      refine ⟨hload, ?_, ?_, ?_, ?_⟩
      · rw [Work.setModule_module]
      · rw [Work.setModule_module]
        exact h.noUses
      · rw [Work.setModule_module]
        exact h.noExports
      · split <;> exact h.noPatches
    have hmodul : (if env.sectionBlock = 0 then w else w.hold (.heap env.sectionBlock)).module i = w.module i := by
      split <;> rfl
    dsimp only
    rw [hmodul]
    have hrun := untilFail_invariant (f := copySection env image i) (P := Copying env s₀ i) (l := List.range (shnum image))
      (fun k hk w' hw' => copySection_keeps hw' hpos fun hsec => ?_) hbeg
    · exact ⟨hrun.toLoading, hrun.noExports⟩
    · obtain ⟨section_, hsec⟩ := Option.ne_none_iff_exists'.mp hsec
      exact fun hnull => hfail ⟨hnull, allocCount_ne_zero (List.mem_range.mp hk) hsec⟩

/-! ### Relocations -/

lemma moduleFindSection_mem {m : Module} {shndx : ℕ} {sec : Section} (h : moduleFindSection m shndx = some sec) :
    sec ∈ m.sections ∧ sec.shndx = shndx := by
  unfold moduleFindSection at h
  split at h
  · cases h
  · exact ⟨List.mem_of_find?_eq_some h, by simpa using List.find?_some h⟩

/-- **The value of a symbol comes from the table, from a section of the module or from the image.** -/
lemma moduleSymbolValue_fromTable (h : Loading s₀ i w) (hexp : (w.module i).Unpublished) (origin : Origin) :
    FromTable s₀ (w.module i) ⟨origin, moduleSymbolValue w.loader (w.module i) origin⟩ := by
  cases origin with
  | undef name =>
    by_cases hr : w.loader.moduleResolveSymbol name = 0
    · exact .inl hr
    · rcases moduleResolveSymbol_provided hr with hk | ⟨j, hj⟩
      · exact .inr (.inl (h.symbols ▸ hk))
      · -- The module itself does not provide anything yet.
        have hji : j ≠ i := by
          rintro rfl
          rw [show w.loader.modules j = w.module j from rfl, hexp.1] at hj
          cases hj
        exact .inr (.inr ⟨j, h.others j hji ▸ hj⟩)
  | abs value => exact rfl
  | place shndx value =>
    show (∀ sec ∈ (w.module i).sections, sec.shndx ≠ shndx) ∧
      moduleSymbolValue w.loader (w.module i) (.place shndx value) = 0 ∨ _
    unfold moduleSymbolValue
    dsimp only
    cases hf : moduleFindSection (w.module i) shndx with
    | some sec => exact .inr ⟨sec, (moduleFindSection_mem hf).1, (moduleFindSection_mem hf).2, rfl⟩
    | none =>
      refine .inl ⟨fun sec hsec => ?_, rfl⟩
      unfold moduleFindSection at hf
      split at hf
      · rename_i hblk
        rw [h.block hblk] at hsec
        cases hsec
      · simpa using List.find?_eq_none.mp hf sec hsec

lemma write_of_not_covers {memory : Memory} {address a : ℕ} {bytes : List UInt8}
    (h : ¬(address ≤ a ∧ a < address + bytes.length)) :
    memory.write address bytes a = memory a := by
  unfold Memory.write
  split
  · rename_i hle
    rw [List.getElem?_eq_none (by omega), Option.getD_none]
  · rfl

lemma Loading.patch (h : Loading s₀ i w) (hexp : (w.module i).Unpublished) {target : Section} {address : ℕ} {bytes : List UInt8}
    {origin : Origin} (htgt : target ∈ (w.module i).sections)
    (hin : target.addr ≤ address ∧ address + bytes.length ≤ target.addr + target.size) :
    Loading s₀ i (w.patch i target address bytes ⟨origin, moduleSymbolValue w.loader (w.module i) origin⟩) := by
  refine ⟨fun l hl => (setModule_of_ne hl _).trans (h.others l hl), h.symbols, h.ids, ?_, ?_, h.next, ?_, ?_,
    h.named.clear hexp.1, h.sole.clear hexp.1, ?_, ?_, ?_⟩
  all_goals dsimp only [Work.patch, Work.module, Work.setModule]
  · rw [setModule_self]
    exact h.slot
  · rw [setModule_self]
    exact h.held
  · rw [setModule_self]
    exact h.sections
  · rw [setModule_self]
    exact h.block
  · rw [setModule_self]
    intro u hu
    rw [List.mem_append, List.mem_singleton] at hu
    rcases hu with hu | rfl
    · exact h.uses u hu
    · exact moduleSymbolValue_fromTable h hexp origin
  · rw [setModule_self]
    intro p hp
    rw [List.mem_append, List.mem_singleton] at hp
    rcases hp with hp | rfl
    · exact h.patches p hp
    · exact ⟨hin, htgt⟩
  · intro a hne
    by_cases hcov : address ≤ a ∧ a < address + bytes.length
    · exact ⟨⟨target, address, bytes⟩, List.mem_append_right _ (List.mem_singleton.mpr rfl), hcov⟩
    · rw [write_of_not_covers hcov] at hne
      obtain ⟨p, hp, hp'⟩ := h.log a hne
      exact ⟨p, List.mem_append_left _ hp, hp'⟩

@[simp] lemma length_bytesOf (value size : ℕ) : (bytesOf value size).length = size := by
  unfold bytesOf
  rw [List.length_map, List.length_range]

lemma relocate_keeps (image : List UInt8) (symtab strtab : Elf64Shdr) (rel : Elf64Rela) {target : Section} (h : Loading s₀ i w)
    (hexp : (w.module i).Unpublished) (htgt : target ∈ (w.module i).sections) :
    Loading s₀ i (relocate image i symtab strtab target rel w).1 ∧
      ((relocate image i symtab strtab target rel w).1.module i).Unpublished ∧
      ((relocate image i symtab strtab target rel w).1.module i).sections = (w.module i).sections := by
  have hsame : Loading s₀ i w ∧ (w.module i).Unpublished ∧ (w.module i).sections = (w.module i).sections := ⟨h, hexp, rfl⟩
  unfold relocate
  dsimp only
  split
  · exact hsame
  split
  · exact hsame
  split
  · exact hsame
  rename_i hfits
  split
  · exact hsame
  split
  · exact hsame
  · obtain ⟨-, -, -, hmax⟩ := h.sections target htgt
    -- The section ends below the end of the addresses of modules, so that the sum does not wrap.
    have haddr : addWord target.addr rel.offset = target.addr + rel.offset := by
      have : moduleEnd < words := by decide
      exact Nat.mod_eq_of_lt (by omega)
    refine ⟨h.patch hexp htgt ⟨?_, ?_⟩, ?_, ?_⟩
    · omega
    · rw [length_bytesOf]
      omega
    all_goals
      dsimp only [Work.patch, Work.module, Work.setModule]
      rw [setModule_self]
    exact hexp

/-- What the relocations keep of a load whose module has these sections -/
def Relocating (s₀ : Loader) (i : Fin maxModules) (sections : List Section) (w : Work) : Prop :=
  Loading s₀ i w ∧ (w.module i).Unpublished ∧ (w.module i).sections = sections

lemma relocateSection_keeps {symtab strtab : Elf64Shdr} {sections : List Section} (h : Relocating s₀ i sections w) :
    Relocating s₀ i sections (relocateSection image i symtab strtab k w).1 := by
  unfold relocateSection
  dsimp only
  split
  · exact h
  split
  · exact h
  · rename_i target hfind
    have htgt := (moduleFindSection_mem hfind).1
    rw [h.2.2] at htgt
    refine untilFail_invariant (P := Relocating s₀ i sections) (fun rel _ w' hw' => ?_) h
    obtain ⟨hload, hexp, hsecs⟩ := relocate_keeps image symtab strtab rel hw'.1
      hw'.2.1 (hw'.2.2 ▸ htgt)
    exact ⟨hload, hexp, hsecs.trans hw'.2.2⟩

/-- **`module_apply_relocations` keeps what a load keeps.** -/
theorem moduleApplyRelocations_keeps (image : List UInt8) {sections : List Section} (h : Relocating s₀ i sections w) :
    Relocating s₀ i sections (moduleApplyRelocations image i w).1 := by
  unfold moduleApplyRelocations
  dsimp only
  split
  · exact h
  split
  · exact h
  · exact untilFail_invariant (P := Relocating s₀ i sections) (fun _ _ _ hw' => relocateSection_keeps hw') h

/-! ## What a call leaves -/

open Lib Loader

variable {env : Environment} {s s₀ : Loader} {i j : Fin maxModules} {w : Work} {k exports : ℕ} {path name : Name} {exit : ℤ}

/-! ### `module_register_exports` -/

lemma Loader.Named.publish (h : s.Named) {e : Export} {m : Module} (he : e.name ≠ [] ∧ e.addr ≠ 0)
    (hblk : m.exportBlock = (s.modules i).exportBlock ∧ m.exportBlock ≠ 0) (hm : m.exports = (s.modules i).exports ++ [e]) :
    (s.setModule i m).Named := by
  refine ⟨h.kernel, fun j f hf => ?_⟩
  by_cases hj : j = i
  · subst hj
    rw [setModule_self] at hf ⊢
    rw [hm, List.mem_append, List.mem_singleton] at hf
    rcases hf with hf | rfl
    · exact ⟨(h.exports j f hf).1, (h.exports j f hf).2.1, hblk.2⟩
    · exact ⟨he.1, he.2, hblk.2⟩
  · rw [setModule_of_ne hj] at hf ⊢
    exact h.exports j f hf

lemma Loading.setExports (h : Loading s₀ i w) {exports : List Export}
    (hnmd : (w.setModule i { w.module i with exports }).loader.Named)
    (hsole : (w.setModule i { w.module i with exports }).loader.Sole) :
    Loading s₀ i (w.setModule i { w.module i with exports }) := by
  refine ⟨fun l hl => (setModule_of_ne hl _).trans (h.others l hl), h.symbols, h.ids, ?_, ?_, h.next, ?_, ?_, hnmd,
    hsole, ?_, ?_,
    h.log⟩
  all_goals rw [Work.setModule_module]
  · exact h.slot
  · exact h.held
  · exact h.sections
  · exact h.block
  · exact h.uses
  · exact h.patches

lemma Loading.withdraw (h : Loading s₀ i w) : Loading s₀ i (w.setModule i { w.module i with exports := [] }) :=
  have hnmd : (w.loader.setModule i { w.module i with exports := [] }).Named := h.named.clear rfl
  have hsole : (w.loader.setModule i { w.module i with exports := [] }).Sole := h.sole.clear rfl
  h.setExports hnmd hsole

lemma Loading.publish (h : Loading s₀ i w) {e : Export} (he : e.name ≠ [] ∧ e.addr ≠ 0) (hblk : (w.module i).exportBlock ≠ 0)
    (hfree : w.loader.Unprovided e.name) :
    Loading s₀ i (w.setModule i { w.module i with exports := (w.module i).exports ++ [e] }) :=
  have hnmd : (w.loader.setModule i { w.module i with exports := (w.module i).exports ++ [e] }).Named :=
    h.named.publish he ⟨rfl, hblk⟩ rfl
  have hsole : (w.loader.setModule i { w.module i with exports := (w.module i).exports ++ [e] }).Sole :=
    h.sole.publish hfree rfl
  h.setExports hnmd hsole

lemma registerExport_keeps (h : Loading s₀ i w ∧ (w.module i).exportBlock ≠ 0) :
    Loading s₀ i (registerExport i exports k w).1 ∧ ((registerExport i exports k w).1.module i).exportBlock ≠ 0 := by
  unfold registerExport
  dsimp only
  split
  · refine ⟨h.1.withdraw, ?_⟩
    rw [Work.setModule_module]
    exact h.2
  · rename_i hval
    obtain ⟨-, hname, haddr, hres⟩ : _ ∧ _ ∧ _ ∧ _ := by simpa only [not_or, not_not] using hval
    refine ⟨h.1.publish ⟨hname, haddr⟩ h.2 (unprovided_of_resolve h.1.named hname hres), ?_⟩
    rw [Work.setModule_module]
    exact h.2

/-- **`module_register_exports` keeps what a load keeps.** -/
theorem moduleRegisterExports_keeps (env : Environment) (h : Loading s₀ i w) (hexp : (w.module i).Unpublished) :
    Loading s₀ i (moduleRegisterExports env i w).1 := by
  unfold moduleRegisterExports
  dsimp only
  split
  · exact h
  split
  · exact h.note ⟨rfl, rfl⟩ ⟨rfl, rfl⟩ ⟨rfl, rfl⟩ ⟨hexp.2.symm, hexp.1.symm⟩ rfl
  split
  · exact h
  split
  · exact h.note ⟨rfl, rfl⟩ ⟨rfl, rfl⟩ ⟨rfl, rfl⟩ ⟨hexp.2.symm, rfl⟩ rfl
  · rename_i hblk
    have hload : Loading s₀ i ((w.hold (.heap env.exportBlock)).setModule i
        { w.module i with exportBlock := env.exportBlock, exports := [] }) := by
      refine h.hold ⟨rfl, rfl⟩ ?_ ⟨rfl, h.block⟩ rfl rfl
      unfold Module.owned heapBlock
      simp only [ne_eq, hblk, hexp.2, not_true_eq_false, not_false_eq_true, if_true, if_false, add_zero]
      rw [add_assoc, Multiset.singleton_add, Multiset.add_cons]
    refine (untilFail_invariant (P := fun w' => Loading s₀ i w' ∧ (w'.module i).exportBlock ≠ 0)
      (fun _ _ _ hw' => registerExport_keeps hw') ⟨hload, ?_⟩).1
    rw [Work.setModule_module]
    exact hblk

/-- **`module_load_image` keeps what a load keeps**, and nothing is exported yet. -/
theorem moduleLoadImage_keeps (env : Environment) (h : Starting s₀ i w) (hpos : 0 < s₀.moduleNext)
    (himag : (w.module i).image = 0) :
    Loading s₀ i (moduleLoadImage env i w).1 ∧ ((moduleLoadImage env i w).1.module i).Unpublished := by
  unfold moduleLoadImage
  dsimp only
  split
  · exact ⟨h.toLoading, h.noExports⟩
  rename_i hpages
  have hloaded : Starting s₀ i ((w.hold (.pages env.image env.size.toNat)).setModule i
      { w.module i with image := env.image, imageSize := env.size.toNat }) := by
    refine ⟨h.hold ⟨rfl, rfl⟩ ?_ ⟨rfl, h.block⟩ h.noExports.1 rfl, ?_, ?_, ?_, h.noPatches⟩
    · have : env.image ≠ 0 := by omega
      unfold Module.owned
      simp only [ne_eq, this, himag, not_true_eq_false, not_false_eq_true, if_true, if_false, zero_add]
      rw [add_assoc, Multiset.singleton_add]
    all_goals rw [Work.setModule_module]
    · exact h.noBlock
    · exact h.noUses
    · exact h.noExports
  show Loading s₀ i (if _ then _ else _ : Work × Bool).1 ∧ _
  split
  · exact ⟨hloaded.toLoading, hloaded.noExports⟩
  have hcop := moduleCopySections_keeps env env.contents hloaded hpos
  split <;> rename_i w₁ hcopy <;> erw [hcopy] at hcop
  · exact hcop
  have hrel := moduleApplyRelocations_keeps env.contents ⟨hcop.1, hcop.2, rfl⟩
  split <;> rename_i w₂ happ <;> rw [happ] at hrel
  · exact ⟨hrel.1, hrel.2.1⟩
  split
  · exact ⟨hrel.1, hrel.2.1⟩
  · refine ⟨hrel.1.note ⟨rfl, rfl⟩ ⟨rfl, rfl⟩ ⟨rfl, rfl⟩ ⟨rfl, rfl⟩ rfl, ?_⟩
    rw [Work.setModule_module]
    exact hrel.2.1

/-! ### `module_load` -/

structure Restored (s₀ s : Loader) : Prop where
  modules : s.modules = s₀.modules
  symbols : s.kernelSymbols = s₀.kernelSymbols
  held : s.held = s₀.held
  next : s₀.moduleNext ≤ s.moduleNext
  ids : s₀.loads ≤ s.loads

/-- The relocations of the call wrote inside of their targets, which it has allocated, and nothing else was written
since the sections had been copied. -/
structure Patched (s₀ : Loader) (w : Work) : Prop where
  inside : ∀ p ∈ w.patches, p.Inside ∧ p.target.Between s₀.moduleNext w.loader.moduleNext
  log : ∀ a, w.memory a ≠ w.copied a → ∃ p ∈ w.patches, p.Covers a

lemma Loading.patched (h : Loading s₀ i w) : Patched s₀ w :=
  ⟨fun p hp => ⟨(h.patches p hp).1, h.sections _ (h.patches p hp).2⟩, h.log⟩

lemma Loading.fail (h : Loading s₀ i w) (hfree : s₀.modules i = {}) :
    Restored s₀ (w.fail i).1.loader ∧ Patched s₀ (w.fail i).1 := by
  refine ⟨⟨?_, h.symbols, ?_, h.next, ?_⟩, ⟨h.patched.inside, h.patched.log⟩⟩
  · funext j
    by_cases hj : j = i
    · subst hj
      exact (setModule_self _).trans hfree.symm
    · exact (setModule_of_ne hj _).trans (h.others j hj)
  · show (w.module i).moduleReleaseMemory w.loader.held = s₀.held
    rw [h.held, moduleReleaseMemory_owned]
  · show s₀.loads ≤ w.loader.loads
    rw [h.ids]
    exact Nat.le_succ _

structure LoadOutcome (s₀ : Loader) (i : Fin maxModules) (r : Work × ℤ) : Prop where
  status : r.2 = 0 ∨ r.2 = -1
  loaded : r.2 = 0 → Loading s₀ i r.1
  failed : r.2 ≠ 0 → Restored s₀ r.1.loader
  patched : Patched s₀ r.1

lemma LoadOutcome.fail (h : Loading s₀ i w) (hfree : s₀.modules i = {}) : LoadOutcome s₀ i (w.fail i) :=
  ⟨.inr rfl, fun h0 => absurd h0 (show ¬(-1 : ℤ) = 0 by decide), fun _ => (h.fail hfree).1, (h.fail hfree).2⟩

theorem loadSlot_outcome (env : Environment) (path : Name) (h : Starting s₀ i w) (hpos : 0 < s₀.moduleNext)
    (himag : (w.module i).image = 0)
    (hfree : s₀.modules i = {}) : LoadOutcome s₀ i (loadSlot env i path w) := by
  unfold loadSlot
  dsimp only
  have hstar : Starting s₀ i (w.setModule i { w.module i with path := path.take modulePathMax }) := by
    refine ⟨h.note ⟨rfl, rfl⟩ ⟨rfl, rfl⟩ ⟨rfl, rfl⟩ ⟨rfl, rfl⟩ rfl, ?_, ?_, ?_, h.noPatches⟩
    all_goals rw [Work.setModule_module]
    · exact h.noBlock
    · exact h.noUses
    · exact h.noExports
  have hmap := moduleLoadImage_keeps env hstar hpos (by rw [Work.setModule_module]; exact himag)
  split <;> rename_i w₁ himg <;> rw [himg] at hmap
  · exact .fail hmap.1 hfree
  generalize (w₁.memory.string _).take moduleNameMax = name
  have hnmd : Loading s₀ i (w₁.setModule i { w₁.module i with name }) :=
    hmap.1.note ⟨rfl, rfl⟩ ⟨rfl, rfl⟩ ⟨rfl, rfl⟩ ⟨rfl, rfl⟩ rfl
  split
  · exact .fail hnmd hfree
  have hpub := moduleRegisterExports_keeps env hnmd (by rw [Work.setModule_module]; exact hmap.2)
  split <;> rename_i w₂ hreg <;> rw [hreg] at hpub
  · exact .fail hpub hfree
  split
  · exact .fail hpub hfree
  · exact ⟨.inl rfl, fun _ => hpub, fun h0 => absurd rfl h0, hpub.patched⟩

lemma moduleAllocSlot_some {s' : Loader} (h : s.moduleAllocSlot = some (i, s')) :
    (s.modules i).used = false ∧
      s' = { s.setModule i s.newModule with nextModuleId := (s.nextModuleId + 1) % 2 ^ 32, loads := s.loads + 1 } := by
  unfold moduleAllocSlot at h
  obtain ⟨l, hfind, heq⟩ := Option.map_eq_some_iff.mp h
  cases heq
  exact ⟨by simpa using List.find?_some hfind, rfl⟩

/-- **What `module_load` leaves.** Either nothing but new numbers, or a module in a slot that was free. -/
theorem moduleLoad_outcome (env : Environment) (path : Name) (hfree : ∀ i, (s.modules i).used = false → s.modules i = {})
    (hpos : 0 < s.moduleNext) (hnmd : s.Named) (hsole : s.Sole) :
    ((moduleLoad env path s).2 ≠ 0 → Restored s (moduleLoad env path s).1.loader) ∧
      ((moduleLoad env path s).2 = 0 → ∃ i, s.modules i = {} ∧ Loading s i (moduleLoad env path s).1) ∧
        Patched s (moduleLoad env path s).1 := by
  have href : Restored s s := ⟨rfl, rfl, rfl, Nat.le_refl _, Nat.le_refl _⟩
  have hnone : Patched s ⟨s, env.memory, env.memory, []⟩ := ⟨nofun, fun a h => absurd rfl h⟩
  unfold moduleLoad
  dsimp only
  split
  · exact ⟨fun _ => href, fun h => absurd h (show ¬(-1 : ℤ) = 0 by decide), hnone⟩
  split
  · exact ⟨fun _ => href, fun h => absurd h (show ¬(-1 : ℤ) = 0 by decide), hnone⟩
  rename_i i loader hall
  obtain ⟨hunus, rfl⟩ := moduleAllocSlot_some hall
  have hslot := hfree i hunus
  have hstar : Starting s i
      ⟨{ s.setModule i s.newModule with nextModuleId := (s.nextModuleId + 1) % 2 ^ 32, loads := s.loads + 1 }, env.memory,
        env.memory, []⟩ := by
    have hn : (s.setModule i s.newModule).Named := hnmd.clear rfl
    have hs : (s.setModule i s.newModule).Sole := hsole.clear rfl
    refine ⟨⟨fun l hl => setModule_of_ne hl _, rfl, rfl, ?_, ?_, Nat.le_refl _, ?_, ?_, hn.congr rfl fun _ => ⟨rfl, rfl⟩,
      hs.congr rfl fun _ => rfl, ?_, nofun, fun a h => absurd rfl h⟩, ?_, ?_, ?_, rfl⟩
    all_goals
      dsimp only [Work.module]
      rw [setModule_self, Loader.newModule]
    · exact ⟨rfl, rfl⟩
    · exact (add_zero s.held).symm
    · exact nofun
    · exact fun _ => rfl
    · exact nofun
    · exact ⟨rfl, rfl⟩
  have hout := loadSlot_outcome env path hstar hpos
    (by dsimp only [Work.module]; rw [setModule_self, Loader.newModule]) hslot
  exact ⟨hout.failed, fun h => ⟨i, hslot, hout.loaded h⟩, hout.patched⟩

/-! ## What can be relied on in the module table -/

variable {address : Name → ℕ} {held : Multiset Block} {h h' : History} {s : Loader} {i j : Fin maxModules} {m : Module}
  {env : Environment} {path name : Name} {exit : ℤ} {c : Call}

/-! ### The invariant -/

/-- A module was loaded before the load with this number, and has been loaded since or was unloaded after that load. -/
def History.Provider (h : History) (serial : ℕ) (m : Module) : Prop :=
  m.serial < serial ∧ ((∃ j, (h.loader.modules j).used = true ∧ m = h.loader.modules j) ∨ ∃ n, serial < n ∧ (n, m) ∈ h.gone)

/-- **Where an address came from** that a module used: a symbol of the kernel or of a module that was loaded then, `0`
when the name was not provided, a section of the module, the image. -/
def History.Sourced (h : History) (m : Module) (u : Use) : Prop :=
  match u.origin with
  | .undef name =>
    u.address = 0 ∨ ⟨name, u.address⟩ ∈ h.loader.kernelSymbols ∨ ∃ m', h.Provider m.serial m' ∧ ⟨name, u.address⟩ ∈ m'.exports
  | .abs value => u.address = value
  | .place shndx value =>
    (∀ sec ∈ m.sections, sec.shndx ≠ shndx) ∧ u.address = 0 ∨
      ∃ sec ∈ m.sections, sec.shndx = shndx ∧ u.address = addWord sec.addr value

/-- **The invariant.** -/
structure Consistent (held : Multiset Block) (h : History) : Prop where
  free : ∀ i, (h.loader.modules i).used = false → h.loader.modules i = {}
  ids : ∀ i, (h.loader.modules i).used = true → (h.loader.modules i).serial < h.loader.loads
  next : 0 < h.loader.moduleNext
  named : h.loader.Named
  sole : h.loader.Sole
  held : h.loader.held = held + ∑ i, (h.loader.modules i).owned
  uses : ∀ i, ∀ u ∈ (h.loader.modules i).uses, h.Sourced (h.loader.modules i) u

lemma owned_default : ({} : Module).owned = 0 := rfl

lemma sum_owned (f g : Fin maxModules → Module) (i : Fin maxModules) (hoths : ∀ j, j ≠ i → g j = f j) :
    ∑ j, (g j).owned + (f i).owned = ∑ j, (f j).owned + (g i).owned := by
  rw [← Finset.add_sum_erase _ _ (Finset.mem_univ i), ← Finset.add_sum_erase _ (fun j => (f j).owned) (Finset.mem_univ i),
    Finset.sum_congr rfl fun j hj => congrArg Module.owned (hoths j (Finset.ne_of_mem_erase hj))]
  abel

lemma Sourced.mono {u : Use} (hu : h.Sourced m u) (hk : h'.loader.kernelSymbols = h.loader.kernelSymbols)
    (hprov : ∀ m', h.Provider m.serial m' → h'.Provider m.serial m') : h'.Sourced m u := by
  obtain ⟨origin, address⟩ := u
  cases origin with
  | undef name =>
    rcases hu with hu | hu | ⟨m', hm', hexp⟩
    · exact .inl hu
    · exact .inr (.inl (hk ▸ hu))
    · exact .inr (.inr ⟨m', hprov m' hm', hexp⟩)
  | abs value => exact hu
  | place shndx value => exact hu

lemma FromTable.sourced {u : Use} (hu : FromTable s m u) (hk : h.loader.kernelSymbols = s.kernelSymbols)
    (hprov : ∀ l, ∀ e ∈ (s.modules l).exports, h.Provider m.serial (s.modules l)) : h.Sourced m u := by
  obtain ⟨origin, address⟩ := u
  cases origin with
  | undef name =>
    rcases hu with hu | hu | ⟨l, hl⟩
    · exact .inl hu
    · exact .inr (.inl (hk ▸ hu))
    · exact .inr (.inr ⟨_, hprov l _ hl, hl⟩)
  | abs value => exact hu
  | place shndx value => exact hu

/-! ### Steps -/

lemma Consistent.restored (hinv : Consistent held h) (hr : Restored h.loader s) : Consistent held { h with loader := s } := by
  obtain ⟨hm, hk, hheld, hnext, hids⟩ := hr
  refine ⟨?_, ?_, hinv.next.trans_le hnext, hinv.named.congr hk fun j => ?_, hinv.sole.congr hk fun j => ?_, ?_, ?_⟩
  · show ∀ i, (s.modules i).used = false → s.modules i = {}
    exact hm ▸ hinv.free
  · intro i hi
    rw [show s.modules i = h.loader.modules i from congrFun hm i] at hi ⊢
    exact (hinv.ids i hi).trans_le hids
  · exact ⟨congrArg _ (congrFun hm j), congrArg _ (congrFun hm j)⟩
  · exact congrArg _ (congrFun hm j)
  · show s.held = held + ∑ i, (s.modules i).owned
    rw [hheld, hm]
    exact hinv.held
  · intro i u hu
    rw [show s.modules i = h.loader.modules i from congrFun hm i] at hu ⊢
    refine Sourced.mono (hinv.uses i u hu) hk fun m' hm' => ⟨hm'.1, hm'.2.imp_left ?_⟩
    rintro ⟨j, hj, rfl⟩
    exact ⟨j, (congrArg Module.used (congrFun hm j)).trans hj, (congrFun hm j).symm⟩

lemma Consistent.load (hinv : Consistent held h) : Consistent held { h with loader := (moduleLoad env path h.loader).1.loader } := by
  obtain ⟨hfail, hloaded, -⟩ := moduleLoad_outcome env path hinv.free hinv.next hinv.named hinv.sole
  by_cases hstatus : (moduleLoad env path h.loader).2 = 0
  swap
  · exact hinv.restored (hfail hstatus)
  obtain ⟨i, hslot, hload⟩ := hloaded hstatus
  generalize (moduleLoad env path h.loader).1 = w at hload
  have hunus : (h.loader.modules i).used = false := by rw [hslot]
  have hne {j : Fin maxModules} (hj : (h.loader.modules j).used = true) : j ≠ i := by
    rintro rfl
    rw [hunus] at hj
    cases hj
  -- The modules that were there are still there.
  have hkps {serial : ℕ} {m' : Module} (hm' : h.Provider serial m') :
      ({ h with loader := w.loader } : History).Provider serial m' := by
    refine ⟨hm'.1, hm'.2.imp_left ?_⟩
    rintro ⟨j, hj, rfl⟩
    exact ⟨j, by rw [show w.loader.modules j = _ from hload.others j (hne hj)]; exact hj, (hload.others j (hne hj)).symm⟩
  refine ⟨fun j hj => ?_, fun j hj => ?_, hinv.next.trans_le hload.next, hload.named, hload.sole, ?_, fun j u hu => ?_⟩
  · by_cases hji : j = i
    · subst hji
      rw [show (w.loader.modules j).used = true from hload.slot.1] at hj
      cases hj
    · rw [show w.loader.modules j = _ from hload.others j hji] at hj ⊢
      exact hinv.free j hj
  · show (w.loader.modules j).serial < w.loader.loads
    rw [hload.ids]
    by_cases hji : j = i
    · subst hji
      rw [show (w.loader.modules j).serial = _ from hload.slot.2]
      exact Nat.lt_succ_self _
    · rw [show w.loader.modules j = _ from hload.others j hji] at hj ⊢
      exact (hinv.ids j hj).trans (Nat.lt_succ_self _)
  · show w.loader.held = held + ∑ j, (w.loader.modules j).owned
    have hsum := sum_owned h.loader.modules w.loader.modules i hload.others
    rw [hslot, owned_default, add_zero] at hsum
    rw [hload.held, hinv.held, hsum, add_assoc]
  · by_cases hji : j = i
    · subst hji
      refine FromTable.sourced (hload.uses u hu) hload.symbols fun l e hl => ?_
      -- A module that provides something is loaded, and its number is lower.
      have hused : (h.loader.modules l).used = true := by
        by_contra hfls
        rw [hinv.free l (by simpa using hfls)] at hl
        cases hl
      refine hkps ⟨?_, .inl ⟨l, hused, rfl⟩⟩
      rw [show (w.loader.modules j).serial = _ from hload.slot.2]
      exact hinv.ids l hused
    · show ({ h with loader := w.loader } : History).Sourced (w.loader.modules j) u
      have hsame : w.loader.modules j = h.loader.modules j := hload.others j hji
      rw [show ({ h with loader := w.loader } : History).loader.modules j = _ from hsame] at hu
      rw [hsame]
      exact Sourced.mono (hinv.uses j u hu) hload.symbols fun m' hm' => hkps hm'

lemma Consistent.drop (hinv : Consistent held h) (hused : (h.loader.modules i).used = true) :
    Consistent held ⟨h.loader.drop i, (h.loader.loads, h.loader.modules i) :: h.gone⟩ := by
  have hself : (h.loader.drop i).modules i = {} := setModule_self _
  have hoths {j : Fin maxModules} (hj : j ≠ i) : (h.loader.drop i).modules j = h.loader.modules j := setModule_of_ne hj _
  have hnmd : (h.loader.setModule i {}).Named := hinv.named.clear rfl
  have hsole : (h.loader.setModule i {}).Sole := hinv.sole.clear rfl
  refine ⟨fun j hj => ?_, fun j hj => ?_, hinv.next, hnmd.congr rfl fun _ => ⟨rfl, rfl⟩, hsole.congr rfl fun _ => rfl, ?_,
    fun j u hu => ?_⟩
  · by_cases hji : j = i
    · exact hji ▸ hself
    · rw [hoths hji] at hj ⊢
      exact hinv.free j hj
  · by_cases hji : j = i
    · subst hji
      rw [hself] at hj
      cases hj
    · rw [hoths hji] at hj ⊢
      exact hinv.ids j hj
  · have hsum := sum_owned h.loader.modules (h.loader.drop i).modules i fun j hj => hoths hj
    rw [hself, owned_default, add_zero] at hsum
    show (h.loader.modules i).moduleReleaseMemory h.loader.held = _
    rw [hinv.held, ← hsum, ← add_assoc, moduleReleaseMemory_owned]
  · by_cases hji : j = i
    · subst hji
      rw [hself] at hu
      cases hu
    · rw [hoths hji] at hu ⊢
      refine Sourced.mono (hinv.uses j u hu) rfl fun m' hm' => ⟨hm'.1, ?_⟩
      have hid : (h.loader.modules j).serial < h.loader.loads := by
        refine hinv.ids j ?_
        by_contra hfls
        rw [hinv.free j (by simpa using hfls)] at hu
        cases hu
      rcases hm'.2 with ⟨l, hl, rfl⟩ | ⟨n, hn, hgone⟩
      · by_cases hli : l = i
        · exact .inr ⟨_, hid, hli ▸ List.mem_cons_self ..⟩
        · exact .inl ⟨l, by rw [hoths hli]; exact hl, (hoths hli).symm⟩
      · exact .inr ⟨n, hn, List.mem_cons_of_mem _ hgone⟩

theorem Consistent.step (hinv : Consistent held h) (hstep : h.step c = some h') : Consistent held h' := by
  cases c with
  | load env path =>
    cases hstep
    exact hinv.load
  | unload name exit =>
    cases hstep
    unfold moduleUnload
    cases hfind : h.loader.moduleFindByName name with
    | none => simpa using hinv
    | some i =>
      have hused : (h.loader.modules i).used = true := by
        have := List.find?_some hfind
        simp only [Bool.and_eq_true] at this
        exact this.1
      by_cases hexit : exit = 0
      · simpa [hexit] using hinv.drop hused
      · simpa [hexit] using hinv

/-! ### The beginning -/

structure Booting (held : Multiset Block) (s : Loader) : Prop where
  modules : s.modules = fun _ => {}
  next : s.moduleNext = moduleStart
  held : s.held = held
  symbols : ∀ e ∈ s.kernelSymbols, e.name ≠ [] ∧ e.addr ≠ 0
  names : (s.kernelSymbols.map (·.name)).Nodup

lemma Booting.register (hs : Booting held s) (name : Name) (addr : ℕ) :
    Booting held (s.moduleRegisterKernelSymbol name addr).1 := by
  unfold moduleRegisterKernelSymbol
  split
  · exact hs
  rename_i hval
  have hval : name ≠ [] ∧ addr ≠ 0 := not_or.mp hval
  split
  · -- The name is there: it gets the new address.
    rename_i k hfind
    obtain ⟨hk, hname, -⟩ := List.findIdx?_eq_some_iff_getElem.mp hfind
    have hmap : (s.kernelSymbols.set k ⟨name, addr⟩).map (·.name) = s.kernelSymbols.map (·.name) := by
      rw [List.map_set]
      refine List.ext_getElem (by simp) fun l hl hl' => ?_
      rw [List.getElem_set]
      split
      · rename_i hkl
        subst hkl
        simpa using (beq_iff_eq.mp hname).symm
      · rfl
    refine ⟨hs.modules, hs.next, hs.held, fun e he => ?_, ?_⟩
    · rcases List.mem_or_eq_of_mem_set he with he | rfl
      · exact hs.symbols e he
      · exact hval
    · show ((s.kernelSymbols.set k ⟨name, addr⟩).map (·.name)).Nodup
      rw [hmap]
      exact hs.names
  · rename_i hfind
    split
    · exact hs
    · refine ⟨hs.modules, hs.next, hs.held, fun e he => ?_, ?_⟩
      · rcases List.mem_append.mp he with he | he
        · exact hs.symbols e he
        · rw [List.mem_singleton.mp he]
          exact hval
      · show ((s.kernelSymbols ++ [(⟨name, addr⟩ : Export)]).map (·.name)).Nodup
        rw [List.map_append]
        refine List.Nodup.append hs.names (List.nodup_singleton _) fun n hn hn' => ?_
        obtain ⟨e, he, rfl⟩ := List.mem_map.mp hn
        have := List.findIdx?_eq_none_iff.mp hfind e he
        rw [List.mem_singleton.mp hn'] at this
        simp at this

lemma booting_init (address : Name → ℕ) (held : Multiset Block) : Booting held (moduleInitSystem address held) := by
  unfold moduleInitSystem
  generalize builtinNames = names
  have hstar : Booting held ⟨fun _ => {}, [], 1, 0, moduleStart, held⟩ := ⟨rfl, rfl, rfl, nofun, List.nodup_nil⟩
  generalize (⟨fun _ => {}, [], 1, 0, moduleStart, held⟩ : Loader) = s at hstar
  induction names generalizing s with
  | nil => exact hstar
  | cons name names ih => exact ih _ (hstar.register name _)

/-- **The invariant holds before the first load.** -/
theorem consistent_init : Consistent held ⟨moduleInitSystem address held, []⟩ := by
  have hboot := booting_init address held
  generalize moduleInitSystem address held = s at hboot
  have hdef (i : Fin maxModules) : s.modules i = {} := congrFun hboot.modules i
  refine ⟨fun i _ => hdef i, fun i hi => ?_, ?_, ⟨hboot.symbols, fun i e he => ?_⟩,
    ⟨hboot.names, fun i => ?_, fun i e he => ?_, fun i j _ e he => ?_⟩, ?_, fun i u hu => ?_⟩
  · rw [hdef] at hi
    cases hi
  · show 0 < s.moduleNext
    rw [hboot.next]
    decide
  · rw [hdef] at he
    cases he
  · show ((s.modules i).exports.map (·.name)).Nodup
    rw [hdef]
    exact List.nodup_nil
  · rw [hdef] at he
    cases he
  · rw [hdef] at he
    cases he
  · show s.held = held + ∑ i, (s.modules i).owned
    rw [hboot.held, hboot.modules, Finset.sum_congr rfl fun _ _ => owned_default, Finset.sum_const_zero, add_zero]
  · rw [hdef] at hu
    cases hu

/-- **The invariant holds in every run.** -/
theorem consistent_of_reachable (hh : (sys address held).Reachable h) : Consistent held h :=
  hh.invariant (P := Consistent held) (fun s (hs : s = ⟨moduleInitSystem address held, []⟩) => hs ▸ consistent_init)
    fun _ _ _ hinv hstep => hinv.step hstep

/-- A section header, a relocation of type 1, and a module with one section, `.modinfo`, with one entry in its table
of exports -/
def headerBytes (name type flags offset size link info entsize : ℕ) : List UInt8 :=
  bytesOf name 4 ++ bytesOf type 4 ++ bytesOf flags 8 ++ bytesOf 0 8 ++ bytesOf offset 8 ++ bytesOf size 8 ++ bytesOf link 4 ++
    bytesOf info 4 ++ bytesOf 1 8 ++ bytesOf entsize 8

def relaBytes (offset sym addend : ℕ) : List UInt8 := bytesOf offset 8 ++ bytesOf (sym * 2 ^ 32 + 1) 8 ++ bytesOf addend 8

def moduleBytes (name : UInt8) (exportCount : ℕ) (rels : List UInt8) : List UInt8 :=
  let rels := relaBytes 8 1 64 ++ relaBytes 16 1 64 ++ relaBytes 24 1 64 ++ relaBytes 32 1 48 ++ rels
  let ident : List UInt8 := [0x7f, 0x45, 0x4c, 0x46, 2, 1, 1, 0, 0, 0, 0, 0, 0, 0, 0, 0]
  let strings : List UInt8 := [0, 0x73, 0] ++ modinfoName ++ [0]
  ident ++ bytesOf etRel 2 ++ bytesOf 62 2 ++ bytesOf 1 4 ++ bytesOf 0 16 ++ bytesOf (220 + rels.length) 8 ++ bytesOf 0 4 ++
    bytesOf ehdrSize 2 ++ bytesOf 0 4 ++ bytesOf shdrSize 2 ++ bytesOf 5 2 ++ bytesOf 3 2 ++
    -- the section at 64: the metadata, the entry of the table, the two names
    bytesOf moduleInfoMagic 4 ++ bytesOf moduleApiVersion 4 ++ bytesOf 0 32 ++ bytesOf exportCount 8 ++ bytesOf 0 16 ++
    [name, 0, 0x73, 0] ++ bytesOf 0 4 ++
    -- the symbols at 136: none, the section, and a symbol that is not defined here
    bytesOf 0 24 ++ (bytesOf 0 4 ++ [3, 0] ++ bytesOf 1 2 ++ bytesOf 0 16) ++ (bytesOf 1 4 ++ [16, 0] ++ bytesOf 0 18) ++
    strings ++ rels ++ headerBytes 0 0 0 0 0 0 0 0 ++ headerBytes 3 1 (shfWrite + shfAlloc) 64 72 0 0 0 ++
    headerBytes 0 shtSymtab 0 136 72 3 0 symSize ++ headerBytes 0 shtStrtab 0 208 12 0 0 0 ++
    headerBytes 0 shtRela 0 220 rels.length 2 1 relaSize

/-- A module that exports a symbol at its beginning, and a module that has the address of that symbol -/
def exporter : List UInt8 := moduleBytes 0x61 1 (relaBytes 48 1 66 ++ relaBytes 56 1 0)

def importer : List UInt8 := moduleBytes 0x62 0 (relaBytes 48 2 0)

/-- The memory of a load; `block` is the first of the blocks that it may keep. -/
def answers (file : List UInt8) (block : ℕ) : Environment where
  size := file.length
  image := 4096
  contents := file
  sectionBlock := block
  pages _ := true
  memory _ := 0
  exportBlock := block + 16
  init := 0

def unloadUsed : History :=
  (sys (fun _ => 1) 0).replay ⟨moduleInitSystem (fun _ => 1) 0, []⟩
    [.load (answers exporter 16) [0x61], .load (answers importer 48) [0x62], .unload [0x61] 0]

lemma unloadUsed_reachable : (sys (fun _ => 1) 0).Reachable unloadUsed := System.replay_reachable (.init rfl) _

/-- The address belongs to the kernel, which has everything that is not for modules, or to a module that is loaded,
which has its sections and what it exports. -/
def Loader.Belongs (s : Loader) (a : ℕ) : Prop :=
  a < moduleStart ∨ moduleEnd ≤ a ∨ (∃ e ∈ s.kernelSymbols, e.addr = a) ∨
    ∃ i, (s.modules i).used = true ∧
      ((∃ e ∈ (s.modules i).exports, e.addr = a) ∨ ∃ sec ∈ (s.modules i).sections, sec.addr ≤ a ∧ a ≤ sec.addr + sec.size)

instance (s : Loader) (a : ℕ) : Decidable (s.Belongs a) := by
  unfold Loader.Belongs
  infer_instance

end PlantOS.Modules
