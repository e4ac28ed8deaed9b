import Mathlib.Algebra.Group.Nat.Defs
import Mathlib.Data.List.Perm.Subperm
import Mathlib.Data.Nat.Find
import PlantOS.Lib.Chain

/-!
# The symbol tables of an object

`dynamic_parse` of `ldso/object.c`, from the hash tables to the symbol table, and `object_lookup` of `ldso/link.c`,
for 64-bit objects. Addresses are relative to the `bias` of the object, and its memory is read as the words that the
tables consist of. A call of `fail` does not return: it is an error.
-/

namespace PlantOS.Ldso.Symbols

/-- `SIZE_MAX` and `UINTPTR_MAX` -/
def sizeMax : ℕ := 18446744073709551615

def uint32Max : ℕ := 4294967295

/-- `sizeof(Elf_Sym)` -/
def symbolBytes : ℕ := 24

/-- The calls of `fail`. -/
inductive Failure
  /-- "ELF address outside its load segment" -/
  | outsideSegment
  /-- "invalid dynamic string" -/
  | invalidString
  /-- "unaligned SysV hash table" -/
  | unalignedSysv
  /-- "invalid SysV hash table" -/
  | invalidSysv
  /-- "invalid GNU hash table" -/
  | invalidGnu
  /-- "GNU hash table size overflow" -/
  | gnuSizeOverflow
  /-- "invalid GNU hash bucket" -/
  | invalidGnuBucket
  /-- "GNU hash chain overflow" -/
  | gnuChainOverflow
  /-- "invalid dynamic symbol table" -/
  | invalidSymbolTable
  /-- "inconsistent symbol hash tables" -/
  | inconsistentTables
  /-- "missing or invalid symbol hash table" -/
  | missingTable
  /-- "unterminated GNU hash chain" -/
  | unterminatedGnuChain
  /-- "invalid SysV hash chain" -/
  | invalidSysvChain
  /-- "cyclic SysV hash chain" -/
  | cyclicSysvChain
  deriving DecidableEq, Repr

/-- `Elf_Phdr` -/
structure Phdr where
  /-- `p_type == PT_LOAD` -/
  load : Bool
  /-- `PF_R` -/
  readable : Bool
  vaddr : ℕ
  filesz : ℕ
  memsz : ℕ

/-- `Elf_Sym` without the value and the size -/
structure ElfSym where
  name : UInt32
  info : UInt8
  other : UInt8
  shndx : UInt16

/-- `object_t`: what the tables are found with, and the memory of the object. -/
structure Object where
  segments : List Phdr
  /-- `DT_HASH`, 0 if there is none -/
  hash : ℕ
  /-- the address of `gnu_hash` -/
  gnuHash : Option ℕ
  symtab : ℕ
  strtab : ℕ
  strsz : ℕ
  /-- `DT_REL`, `DT_RELA`, `DT_JMPREL`, `DT_INIT_ARRAY`, `DT_FINI_ARRAY` and `DT_PREINIT_ARRAY` -/
  tables : List ℕ
  byte : ℕ → UInt8
  word : ℕ → UInt32
  long : ℕ → UInt64
  symbol : ℕ → ElfSym

namespace Object

variable (o : Object)

/-! ### Addresses and strings -/

/-- `object_at` finds a segment for the bytes. -/
def objectAt (address size : ℕ) : Bool :=
  o.segments.any fun p =>
    p.load && p.readable && p.vaddr ≤ address && address - p.vaddr ≤ p.memsz && size ≤ p.memsz - (address - p.vaddr)

/-- The string at an address, if it ends within `n` bytes. -/
def cString (address : ℕ) : ℕ → Option (List UInt8)
  | 0 => none
  | n + 1 => if o.byte address = 0 then some [] else (cString (address + 1) n).map (o.byte address :: ·)

def objectString (offset : ℕ) : Except Failure (List UInt8) :=
  if offset ≥ o.strsz then .error .invalidString
  else
    match o.cString (o.strtab + offset) (o.strsz - offset) with
    | none => .error .invalidString
    | some string => .ok string

def sysvBucketCount : ℕ := (o.word o.hash).toNat
def sysvChainCount : ℕ := (o.word (o.hash + 4)).toNat
def sysvBucket (i : ℕ) : ℕ := (o.word (o.hash + 8 + 4 * i)).toNat
def sysvChain (i : ℕ) : ℕ := (o.word (o.hash + 8 + 4 * o.sysvBucketCount + 4 * i)).toNat

/-- `dynamic_parse`: the number of symbols after the SysV table, 0 without one -/
def sysvParse : Except Failure ℕ :=
  let words := 2 + o.sysvBucketCount + o.sysvChainCount
  if o.hash = 0 then .ok 0
  else if o.hash % 4 ≠ 0 then .error .unalignedSysv
  else if ¬o.objectAt o.hash 8 then .error .outsideSegment
  else if o.sysvBucketCount = 0 ∨ o.sysvChainCount = 0 ∨ words > sizeMax / 4 then .error .invalidSysv
  else if ¬o.objectAt o.hash (words * 4) then .error .outsideSegment
  else .ok o.sysvChainCount

/-! ### The GNU table -/

variable (table : ℕ)

def gnuBucketCount : ℕ := (o.word table).toNat
def gnuFirst : ℕ := (o.word (table + 4)).toNat
def bloomCount : ℕ := (o.word (table + 8)).toNat
def bloomShift : UInt32 := o.word (table + 12)
def bloomWord (i : ℕ) : UInt64 := o.long (table + 16 + 8 * i)
def gnuBucket (i : ℕ) : ℕ := (o.word (table + 16 + 8 * o.bloomCount table + 4 * i)).toNat

def gnuBytes : ℕ := 16 + o.bloomCount table * 8 + o.gnuBucketCount table * 4

def gnuChainAddress (i : ℕ) : ℕ := table + (o.gnuBytes table + (i - o.gnuFirst table) * 4)

def gnuChain (i : ℕ) : UInt32 := o.word (o.gnuChainAddress table i)

/-- The loop of `dynamic_parse` over the buckets: `n` of them are left. -/
def maximumBucket : (n i maximum : ℕ) → Except Failure ℕ
  | 0, _, maximum => .ok maximum
  | n + 1, i, maximum =>
    if o.gnuBucket table i ≠ 0 ∧ o.gnuBucket table i < o.gnuFirst table then .error .invalidGnuBucket
    else maximumBucket n (i + 1) (if o.gnuBucket table i > maximum then o.gnuBucket table i else maximum)

/-- The loop of `dynamic_parse` to the end of a chain; `n` is what is left of `count` up to `UINT32_MAX`. -/
def chainEnd : (n count : ℕ) → Except Failure ℕ
  | 0, _ => .error .gnuChainOverflow
  | n + 1, count =>
    let offset := o.gnuBytes table + (count - o.gnuFirst table) * 4
    if offset > sizeMax - table then .error .gnuChainOverflow
    else if ¬o.objectAt (table + offset) 4 then .error .outsideSegment
    else if o.gnuChain table count &&& 1 ≠ 0 then .ok (count + 1)
    else chainEnd n (count + 1)

/-- The bound of a symbol table without hashed symbols: the end of the segment, or the next table. -/
def symbolLimit : ℕ :=
  let limit := o.segments.foldl
    (fun limit p => if p.load && p.vaddr ≤ o.symtab && o.symtab - p.vaddr < p.filesz then p.vaddr + p.filesz else limit)
    sizeMax
  let limit := (o.strtab :: o.hash :: o.tables).foldl
    (fun limit t => if t > o.symtab ∧ t < limit then t else limit) limit
  if table > o.symtab ∧ table < limit then table else limit

/-- `dynamic_parse`: `count`, from the largest bucket -/
def gnuSymbols (symbolCount maximum : ℕ) : Except Failure ℕ :=
  if maximum ≠ 0 then o.chainEnd table (uint32Max - maximum) maximum
  else if symbolCount = 0 then
    if o.symbolLimit table = sizeMax ∨ o.symbolLimit table ≤ o.symtab then .error .invalidSymbolTable
    else .ok ((o.symbolLimit table - o.symtab) / symbolBytes)
  else .ok (o.gnuFirst table)

/-- `dynamic_parse`: the number of symbols after the GNU table -/
def gnuParse (symbolCount : ℕ) : Except Failure ℕ :=
  if o.gnuBucketCount table = 0 ∨ o.bloomCount table = 0 ∨ o.word (table + 8) &&& (o.word (table + 8) - 1) ≠ 0 ∨
      o.bloomShift table ≥ 32 then .error .invalidGnu
  else if o.gnuBytes table > sizeMax then .error .gnuSizeOverflow
  else if ¬o.objectAt table (o.gnuBytes table) then .error .outsideSegment
  else do
    let maximum ← o.maximumBucket table (o.gnuBucketCount table) 0 0
    let count ← o.gnuSymbols table symbolCount maximum
    if symbolCount ≠ 0 ∧ count > symbolCount then .error .inconsistentTables
    else .ok (if symbolCount = 0 then count else symbolCount)

/-- `dynamic_parse`: `symbol_count` -/
def dynamicParse : Except Failure ℕ := do
  let symbolCount ← o.sysvParse
  let symbolCount ← o.gnuHash.elim (.ok symbolCount) (o.gnuParse · symbolCount)
  if symbolCount = 0 ∨ symbolCount > sizeMax / symbolBytes then .error .missingTable
  else if ¬o.objectAt o.symtab (symbolCount * symbolBytes) then .error .outsideSegment
  else .ok symbolCount

/-! ### The lookup -/

/-- One byte of `symbol_hash`, the SysV hash -/
def sysvStep (hash : UInt32) (c : UInt8) : UInt32 :=
  let hash := (hash <<< 4) + c.toUInt32
  let high := hash &&& 0xf0000000
  (if high ≠ 0 then hash ^^^ (high >>> 24) else hash) &&& ~~~high

/-- One byte of `symbol_hash`, the GNU hash -/
def gnuStep (hash : UInt32) (c : UInt8) : UInt32 := hash * 33 + c.toUInt32

def symbolHash (name : List UInt8) : UInt32 × UInt32 :=
  name.foldl (fun hash c => (sysvStep hash.1 c, gnuStep hash.2 c)) (0, 5381)

/-- The tests of `symbol_exported` but for the name: a definition that is global, weak or unique, and neither hidden nor
internal. -/
def definition (symbol : ElfSym) : Bool :=
  let binding := symbol.info >>> 4
  let visibility := symbol.other &&& 3
  symbol.shndx ≠ 0 && (binding = 1 || binding = 2 || binding = 10) && visibility ≠ 2 && visibility ≠ 1

def symbolExported (index : ℕ) (name : List UInt8) : Except Failure Bool :=
  if definition (o.symbol index) then
    match o.objectString (o.symbol index).name.toNat with
    | .error failure => .error failure
    | .ok string => .ok (string = name)
  else .ok false

def bloomMask (gnu : UInt32) : UInt64 :=
  ((1 : UInt64) <<< (gnu % 64).toUInt64) ||| ((1 : UInt64) <<< ((gnu >>> o.bloomShift table) % 64).toUInt64)

/-- `bloom[(gnu / bits) & (hash[2] - 1)]` has the bits. -/
def bloomContains (gnu : UInt32) : Bool :=
  o.bloomWord table ((gnu / 64) &&& (o.word (table + 8) - 1)).toNat &&& o.bloomMask table gnu = o.bloomMask table gnu

/-- The loop of `object_lookup` over a GNU chain; `n` symbols are left up to `symbol_count`. -/
def gnuLookupFrom (name : List UInt8) (gnu : UInt32) : (n index : ℕ) → Except Failure (Option ℕ)
  | 0, _ => .error .unterminatedGnuChain
  | n + 1, index =>
    if ¬o.objectAt (o.gnuChainAddress table index) 4 then .error .outsideSegment
    else
      let value := o.gnuChain table index
      match if value ||| 1 = gnu ||| 1 then o.symbolExported index name else .ok false with
      | .error failure => .error failure
      | .ok true => .ok (some index)
      | .ok false => if value &&& 1 ≠ 0 then .ok none else gnuLookupFrom name gnu n (index + 1)

/-- `object_lookup` with the GNU table -/
def gnuLookup (symbolCount : ℕ) (name : List UInt8) (gnu : UInt32) : Except Failure (Option ℕ) :=
  if ¬o.bloomContains table gnu then .ok none
  else
    let index := o.gnuBucket table (gnu.toNat % o.gnuBucketCount table)
    if index = 0 then .ok none
    else if index < o.gnuFirst table then .error .invalidGnuBucket
    else o.gnuLookupFrom table name gnu (symbolCount - index) index

/-- The loop of `object_lookup` over a SysV chain; `n` is what is left of `visited` up to `symbol_count`. -/
def sysvLookupFrom (symbolCount : ℕ) (name : List UInt8) : (n index : ℕ) → Except Failure (Option ℕ)
  | 0, index => if index ≠ 0 then .error .cyclicSysvChain else .ok none
  | n + 1, index =>
    if index = 0 then .ok none
    else if index ≥ symbolCount then .error .invalidSysvChain
    else
      match o.symbolExported index name with
      | .error failure => .error failure
      | .ok true => .ok (some index)
      | .ok false => sysvLookupFrom symbolCount name n (o.sysvChain index)

/-- `object_lookup` with the SysV table -/
def sysvLookup (symbolCount : ℕ) (name : List UInt8) (sysv : UInt32) : Except Failure (Option ℕ) :=
  o.sysvLookupFrom symbolCount name symbolCount (o.sysvBucket (sysv.toNat % o.sysvBucketCount))

def objectLookup (symbolCount : ℕ) (name : List UInt8) (sysv gnu : UInt32) : Except Failure (Option ℕ) :=
  match o.gnuHash with
  | some table => o.gnuLookup table symbolCount name gnu
  | none => o.sysvLookup symbolCount name sysv

/-! ### What a lookup is for -/

def Exported (name : List UInt8) (index : ℕ) : Prop := o.symbolExported index name = .ok true

/-- The first of the symbols from `i` on, `n` of them, that is an exported definition of the name -/
def scanFrom (name : List UInt8) : (n i : ℕ) → Except Failure (Option ℕ)
  | 0, _ => .ok none
  | n + 1, i =>
    match o.symbolExported i name with
    | .error failure => .error failure
    | .ok true => .ok (some i)
    | .ok false => scanFrom name n (i + 1)

/-- A linear scan of a table of `total` symbols -/
def linearScan (total : ℕ) (name : List UInt8) : Except Failure (Option ℕ) := o.scanFrom name total 0

/-- The symbol is on the chain of a bucket of the GNU table. -/
def OnGnuChain (bucket index : ℕ) : Prop :=
  o.gnuBucket table bucket ≠ 0 ∧ o.gnuBucket table bucket ≤ index ∧
    ∀ j, o.gnuBucket table bucket ≤ j → j < index → o.gnuChain table j &&& 1 = 0

def linkOf (index : ℕ) : Option ℕ := if index = 0 then none else some index

/-- The chain from an index of the SysV table on goes through `l` and ends there. -/
def SysvChain (index : ℕ) (l : List ℕ) : Prop := Lib.Chain.IsChain (fun i => linkOf (o.sysvChain i)) (linkOf index) l

/-- A table of `total` symbols has a string for the name of every definition, and no name twice. -/
structure Named (total : ℕ) : Prop where
  string : ∀ i < total, ∀ name, ∃ b, o.symbolExported i name = .ok b
  once : ∀ name, ∀ i < total, ∀ j < total, o.Exported name i → o.Exported name j → i = j

/-- **A GNU table is well formed.** -/
structure GnuWellFormed (total : ℕ) : Prop where
  /-- the hashes of all symbols are in one segment -/
  readable : o.objectAt table (o.gnuBytes table + (total - o.gnuFirst table) * 4) = true
  /-- no chain begins below the first symbol with a hash, and each ends in the table -/
  terminated : ∀ b < o.gnuBucketCount table, o.gnuBucket table b ≠ 0 →
    o.gnuFirst table ≤ o.gnuBucket table b ∧ ∃ e, o.gnuBucket table b ≤ e ∧ e < total ∧ o.gnuChain table e &&& 1 ≠ 0
  /-- the chains come in the order of the buckets -/
  sorted : ∀ b b', b < b' → b' < o.gnuBucketCount table → o.gnuBucket table b ≠ 0 → o.gnuBucket table b' ≠ 0 →
    ∃ e, o.gnuBucket table b ≤ e ∧ e < o.gnuBucket table b' ∧ o.gnuChain table e &&& 1 ≠ 0
  /-- an exported symbol is on the chain of its bucket, with its hash -/
  exported : ∀ i < total, ∀ name, o.Exported name i →
    o.OnGnuChain table ((symbolHash name).2.toNat % o.gnuBucketCount table) i ∧
      o.gnuChain table i ||| 1 = (symbolHash name).2 ||| 1
  /-- and in the filter -/
  bloom : ∀ i < total, ∀ name, o.Exported name i → o.bloomContains table (symbolHash name).2 = true

/-- **A SysV table is well formed.** -/
structure SysvWellFormed (total : ℕ) : Prop where
  count : o.sysvChainCount = total
  /-- every chain ends, in the table -/
  chains : ∀ b < o.sysvBucketCount, ∃ l, o.SysvChain (o.sysvBucket b) l ∧ ∀ i ∈ l, i < total
  /-- an exported symbol is on the chain of its bucket -/
  exported : ∀ i < total, ∀ name, o.Exported name i → ∀ l,
    o.SysvChain (o.sysvBucket ((symbolHash name).1.toNat % o.sysvBucketCount)) l → i ∈ l

end Object

/-! ## What a symbol lookup finds -/

open Lib.Chain

namespace Object

variable {o : Object} {table total : ℕ} {name : List UInt8}

/-- The answer is right in a table of `total` symbols. -/
def Finds (o : Object) (total : ℕ) (name : List UInt8) : Option ℕ → Prop
  | some i => i < total ∧ o.Exported name i
  | none => ∀ i < total, ¬o.Exported name i

lemma Finds.unique {r r' : Option ℕ} (hnmd : o.Named total) (h : o.Finds total name r) (h' : o.Finds total name r') :
    r = r' := by
  cases r with
  | none =>
    cases r' with
    | none => rfl
    | some j => exact absurd h'.2 (h j h'.1)
  | some i =>
    cases r' with
    | none => exact absurd h.2 (h' i h.1)
    | some j => exact congrArg some (hnmd.once name i h.1 j h'.1 h.2 h'.2)

variable {count i : ℕ}

lemma not_exported (h : o.symbolExported i name = .ok false) : ¬o.Exported name i := fun htrue => by
  unfold Exported at htrue
  rw [h] at htrue
  cases htrue

lemma scanFrom_spec (hnmd : o.Named total) (n i : ℕ) (hi : i + n = total) (hbef : ∀ j < i, ¬o.Exported name j) :
    ∃ r, o.scanFrom name n i = .ok r ∧ o.Finds total name r := by
  induction n generalizing i with
  | zero => exact ⟨none, rfl, fun j hj => hbef j (by omega)⟩
  | succ n ih =>
    obtain ⟨b, hb⟩ := hnmd.string i (by omega) name
    rw [scanFrom, hb]
    cases b with
    | true => exact ⟨some i, rfl, by omega, hb⟩
    | false =>
      refine ih (i + 1) (by omega) fun j hj => ?_
      by_cases hlast : j = i
      · exact hlast ▸ not_exported hb
      · exact hbef j (by omega)

lemma linearScan_spec (hnmd : o.Named total) (name : List UInt8) :
    ∃ r, o.linearScan total name = .ok r ∧ o.Finds total name r :=
  scanFrom_spec hnmd total 0 (Nat.zero_add _) fun _ hj => absurd hj (Nat.not_lt_zero _)

/-! ### What the parser has found out -/

lemma maximumBucket_spec (n : ℕ) {i m M : ℕ} (h : o.maximumBucket table n i m = .ok M) :
    m ≤ M ∧ (∀ b, i ≤ b → b < i + n → o.gnuBucket table b ≤ M) ∧
      (M = m ∨ ∃ b, i ≤ b ∧ b < i + n ∧ o.gnuBucket table b = M) := by
  induction n generalizing i m with
  | zero =>
    obtain rfl := Except.ok.inj h
    exact ⟨Nat.le_refl _, fun b h1 h2 => by omega, .inl rfl⟩
  | succ n ih =>
    rw [maximumBucket] at h
    split at h
    · cases h
    · obtain ⟨hle, hall, hwher⟩ := ih h
      have hstep : m ≤ M ∧ o.gnuBucket table i ≤ M := by
        split at hle <;> omega
      refine ⟨hstep.1, fun b h1 h2 => ?_, ?_⟩
      · by_cases hb : b = i
        · exact hb ▸ hstep.2
        · exact hall b (by omega) (by omega)
      · rcases hwher with hM | ⟨b, h1, h2, hb⟩
        · split at hM
          · exact .inr ⟨i, Nat.le_refl _, by omega, hM.symm⟩
          · exact .inl hM
        · exact .inr ⟨b, by omega, by omega, hb⟩

lemma chainEnd_spec (n : ℕ) {count k : ℕ} (h : o.chainEnd table n count = .ok k) :
    ∃ e, count ≤ e ∧ k = e + 1 ∧ o.gnuChain table e &&& 1 ≠ 0 ∧ ∀ j, count ≤ j → j < e → o.gnuChain table j &&& 1 = 0 := by
  induction n generalizing count with
  | zero => cases h
  | succ n ih =>
    rw [chainEnd] at h
    split at h
    · cases h
    · split at h
      · cases h
      · split at h
        · rename_i hend
          exact ⟨count, Nat.le_refl _, (Except.ok.inj h).symm, hend, fun j h1 h2 => by omega⟩
        · rename_i hend
          obtain ⟨e, hle, hk, he, hbef⟩ := ih h
          refine ⟨e, by omega, hk, he, fun j h1 h2 => ?_⟩
          by_cases hj : j = count
          · exact hj ▸ Decidable.not_not.mp hend
          · exact hbef j (by omega) h2

lemma bind_ok {α β : Type} {x : Except Failure α} {f : α → Except Failure β} {b : β} (h : x >>= f = .ok b) :
    ∃ a, x = .ok a ∧ f a = .ok b := by
  cases x with
  | error failure => cases h
  | ok a => exact ⟨a, rfl, h⟩

/-- **The GNU table**: it has buckets, and the last chain ends among the symbols. -/
lemma gnuParse_spec {symbolCount : ℕ} (h : o.gnuParse table symbolCount = .ok count) :
    o.gnuBucketCount table ≠ 0 ∧ (symbolCount ≠ 0 → count = symbolCount) ∧
    ∃ M, o.maximumBucket table (o.gnuBucketCount table) 0 0 = .ok M ∧
      (M ≠ 0 → ∃ e, M ≤ e ∧ e < count ∧ o.gnuChain table e &&& 1 ≠ 0 ∧
        ∀ j, M ≤ j → j < e → o.gnuChain table j &&& 1 = 0) := by
  unfold gnuParse at h
  split at h
  · cases h
  rename_i hhead
  split at h
  · cases h
  split at h
  · cases h
  obtain ⟨M, hM, h⟩ := bind_ok h
  obtain ⟨k, hk, h⟩ := bind_ok h
  split at h
  · cases h
  rename_i hcon
  have hcnt := Except.ok.inj h
  refine ⟨fun hzero => hhead (.inl hzero), fun hpos => ?_, M, hM, fun hmax => ?_⟩
  · rw [if_neg hpos] at hcnt
    exact hcnt.symm
  · unfold gnuSymbols at hk
    rw [if_pos hmax] at hk
    obtain ⟨e, hle, rfl, hend, hbef⟩ := chainEnd_spec _ hk
    refine ⟨e, hle, ?_, hend, hbef⟩
    split at hcnt <;> omega

/-- **The symbols on the GNU chains are among the symbols of the object.** -/
lemma gnuChain_lt (hwell : o.GnuWellFormed table total) {symbolCount count : ℕ}
    (h : o.gnuParse table symbolCount = .ok count)
    {b i : ℕ} (hb : b < o.gnuBucketCount table) (hi : o.OnGnuChain table b i) : i < count := by
  obtain ⟨-, -, M, hM, hlast⟩ := gnuParse_spec h
  obtain ⟨-, hall, hwher⟩ := maximumBucket_spec _ hM
  obtain ⟨hpos, hle, hbef⟩ := hi
  have hbM := hall b (Nat.zero_le _) (by omega)
  obtain ⟨e, hMe, he, hend, -⟩ := hlast (by omega)
  by_cases hmax : o.gnuBucket table b = M
  · -- the last chain: its end is `e`
    by_contra hlong
    exact hend (hbef e (by omega) (by omega))
  · obtain ⟨m, -, hm, hmM⟩ := hwher.resolve_left (by omega)
    rcases Nat.lt_trichotomy b m with hlt | rfl | hgt
    · -- the chain ends before the last one begins
      obtain ⟨e', h1, h2, hend'⟩ := hwell.sorted b m hlt (by omega) hpos (by omega)
      have hie : i ≤ e' := by
        by_contra hlong
        exact hend' (hbef e' h1 (by omega))
      omega
    · exact absurd hmM hmax
    · obtain ⟨e', h1, h2, -⟩ := hwell.sorted m b hgt hb (by omega) hpos
      omega

lemma sysvParse_spec (hhash : o.hash ≠ 0) {count : ℕ} (h : o.sysvParse = .ok count) :
    o.sysvBucketCount ≠ 0 ∧ count ≠ 0 ∧ count = o.sysvChainCount := by
  unfold sysvParse at h
  dsimp only at h
  rw [if_neg hhash] at h
  split at h
  · cases h
  split at h
  · cases h
  split at h
  · cases h
  rename_i hcnts
  split at h
  · cases h
  obtain rfl := Except.ok.inj h
  exact ⟨fun hzero => hcnts (.inl hzero), fun hzero => hcnts (.inr (.inl hzero)), rfl⟩

lemma dynamicParse_spec (h : o.dynamicParse = .ok count) :
    count ≠ 0 ∧ ∃ symbolCount, o.sysvParse = .ok symbolCount ∧
      match o.gnuHash with
      | none => count = symbolCount
      | some table => o.gnuParse table symbolCount = .ok count := by
  unfold dynamicParse at h
  obtain ⟨symbolCount, hsysv, h⟩ := bind_ok h
  obtain ⟨k, hk, h⟩ := bind_ok h
  split at h
  · cases h
  rename_i hmis
  split at h
  · cases h
  obtain rfl := Except.ok.inj h
  refine ⟨fun hzero => hmis (.inl hzero), symbolCount, hsysv, ?_⟩
  cases hgnu : o.gnuHash with
  | none =>
    rw [hgnu] at hk
    exact (Except.ok.inj hk).symm
  | some table =>
    rw [hgnu] at hk
    exact hk

/-! ### The GNU lookup -/

lemma objectAt_sub {a n b m : ℕ} (h : o.objectAt a n = true) (hab : a ≤ b) (hend : b + m ≤ a + n) :
    o.objectAt b m = true := by
  unfold objectAt at h ⊢
  rw [List.any_eq_true] at h ⊢
  obtain ⟨p, hp, htes⟩ := h
  refine ⟨p, hp, ?_⟩
  simp only [Bool.and_eq_true, decide_eq_true_eq] at htes ⊢
  obtain ⟨⟨⟨hfl, hlow⟩, hin⟩, hsize⟩ := htes
  exact ⟨⟨⟨hfl, by omega⟩, by omega⟩, by omega⟩

/-- **A GNU chain up to its end.** The answer is an exported symbol of the chain, or there is none with the hash. -/
lemma gnuLookupFrom_spec (hnmd : o.Named total) {gnu : UInt32} (n : ℕ) {index e : ℕ} (hidx : index ≤ e)
    (hroom : e < index + n) (htot : e < total) (hend : o.gnuChain table e &&& 1 ≠ 0)
    (hrdbl : ∀ j, index ≤ j → j ≤ e → o.objectAt (o.gnuChainAddress table j) 4 = true) :
    ∃ r, o.gnuLookupFrom table name gnu n index = .ok r ∧
      match r with
      | some i => i < total ∧ o.Exported name i
      | none => ∀ i, index ≤ i → (∀ j, index ≤ j → j < i → o.gnuChain table j &&& 1 = 0) →
          o.gnuChain table i ||| 1 = gnu ||| 1 → ¬o.Exported name i := by
  induction n generalizing index with
  | zero => omega
  | succ n ih =>
    rw [gnuLookupFrom, if_neg (by rw [hrdbl index (Nat.le_refl _) hidx]; exact fun h => h rfl)]
    dsimp only
    -- whether this symbol is the one
    obtain ⟨b, hb, hfnd, hnot⟩ : ∃ b,
        (if o.gnuChain table index ||| 1 = gnu ||| 1 then o.symbolExported index name else .ok false) = .ok b ∧
        (b = true → o.Exported name index) ∧
        (b = false → o.gnuChain table index ||| 1 = gnu ||| 1 → ¬o.Exported name index) := by
      by_cases hhash : o.gnuChain table index ||| 1 = gnu ||| 1
      · obtain ⟨b, hb⟩ := hnmd.string index (by omega) name
        rw [if_pos hhash]
        refine ⟨b, hb, ?_, ?_⟩
        · rintro rfl
          exact hb
        · rintro rfl _
          exact not_exported hb
      · rw [if_neg hhash]
        exact ⟨false, rfl, nofun, fun _ h => absurd h hhash⟩
    rw [hb]
    cases b with
    | true => exact ⟨some index, rfl, by omega, hfnd rfl⟩
    | false =>
      dsimp only
      by_cases hlast : o.gnuChain table index &&& 1 ≠ 0
      · rw [if_pos hlast]
        refine ⟨none, rfl, fun i hi hbef hhash => ?_⟩
        obtain rfl : i = index := by
          by_contra hne
          exact hlast (hbef index (Nat.le_refl _) (by omega))
        exact hnot rfl hhash
      · rw [if_neg hlast]
        have hmore : index ≠ e := fun heq => hlast (heq ▸ hend)
        obtain ⟨r, hr, hans⟩ := @ih (index + 1) (by omega) (by omega) fun j h1 h2 => hrdbl j (by omega) h2
        refine ⟨r, hr, ?_⟩
        cases r with
        | some i => exact hans
        | none =>
          intro i hi hbef hhash
          by_cases hfst : i = index
          · rw [hfst] at hhash ⊢
            exact hnot rfl hhash
          · exact hans i (by omega) (fun j h1 h2 => hbef j (by omega) h2) hhash

lemma gnuLookup_spec (hnmd : o.Named total) (hwell : o.GnuWellFormed table total) {symbolCount count : ℕ}
    (h : o.gnuParse table symbolCount = .ok count) (name : List UInt8) :
    ∃ r, o.gnuLookup table count name (symbolHash name).2 = .ok r ∧ o.Finds total name r := by
  have hbkts : (symbolHash name).2.toNat % o.gnuBucketCount table < o.gnuBucketCount table :=
    Nat.mod_lt _ (Nat.pos_of_ne_zero (gnuParse_spec h).1)
  unfold gnuLookup
  by_cases hbloom : o.bloomContains table (symbolHash name).2 = true
  · rw [if_neg fun hnot => hnot hbloom]
    dsimp only
    generalize hb : (symbolHash name).2.toNat % o.gnuBucketCount table = b at hbkts
    by_cases hemp : o.gnuBucket table b = 0
    · rw [if_pos hemp]
      refine ⟨none, rfl, fun i hi hexp => ?_⟩
      have hch := (hwell.exported i hi name hexp).1.1
      rw [hb] at hch
      exact hch hemp
    · obtain ⟨hfst, e, hle, htot, hend⟩ := hwell.terminated b hbkts hemp
      -- the end of this chain
      have hex : ∃ e, o.gnuBucket table b ≤ e ∧ o.gnuChain table e &&& 1 ≠ 0 := ⟨e, hle, hend⟩
      obtain ⟨hle', hend'⟩ := Nat.find_spec hex
      have hmin := Nat.find_min' hex ⟨hle, hend⟩
      have hon : o.OnGnuChain table b (Nat.find hex) := ⟨hemp, hle', fun j h1 h2 => by
        by_contra hj
        exact Nat.find_min hex h2 ⟨h1, hj⟩⟩
      have hcnt := gnuChain_lt hwell h hbkts hon
      rw [if_neg hemp, if_neg (by omega)]
      obtain ⟨r, hr, hans⟩ := @gnuLookupFrom_spec o table total name hnmd (symbolHash name).2
        (count - o.gnuBucket table b) _ _ hle' (by omega) (by omega) hend' fun j h1 h2 =>
          objectAt_sub hwell.readable (Nat.le_add_right _ _) (by
            have hj : j - o.gnuFirst table + 1 ≤ total - o.gnuFirst table := by omega
            unfold gnuChainAddress
            omega)
      refine ⟨r, hr, ?_⟩
      cases r with
      | some i => exact hans
      | none =>
        intro i hi hexp
        obtain ⟨⟨-, hle, hbef⟩, hhash⟩ := hwell.exported i hi name hexp
        rw [hb] at hle hbef
        exact hans i hle hbef hhash hexp
  · rw [if_pos hbloom]
    exact ⟨none, rfl, fun i hi hexp => hbloom (hwell.bloom i hi name hexp)⟩

/-! ### The SysV lookup -/

lemma linkOf_eq_some {index : ℕ} : linkOf index = some i ↔ index = i ∧ i ≠ 0 := by
  unfold linkOf
  by_cases h : index = 0
  · rw [if_pos h]
    exact ⟨nofun, fun hboth => absurd (hboth.1 ▸ h) hboth.2⟩
  · rw [if_neg h, Option.some.injEq]
    exact ⟨fun heq => ⟨heq, heq ▸ h⟩, fun hboth => hboth.1⟩

lemma sysvLookupFrom_spec (hnmd : o.Named total) {count : ℕ} (hcnt : count ≤ total) {l : List ℕ} (n : ℕ) {index : ℕ}
    (hch : o.SysvChain index l) (hl : ∀ i ∈ l, i < count) (hroom : l.length ≤ n) :
    ∃ r, o.sysvLookupFrom count name n index = .ok r ∧
      match r with
      | some i => i < total ∧ o.Exported name i
      | none => ∀ i ∈ l, ¬o.Exported name i := by
  induction l generalizing n index with
  | nil =>
    have hidx : index = 0 := by
      by_contra hne
      have hnone : linkOf index = none := hch
      rw [linkOf, if_neg hne] at hnone
      cases hnone
    refine ⟨none, ?_, fun i hi => (List.not_mem_nil hi).elim⟩
    cases n with
    | zero => rw [sysvLookupFrom, if_neg (fun h => h hidx)]
    | succ n => rw [sysvLookupFrom, if_pos hidx]
  | cons i l ih =>
    obtain ⟨hhead, htail⟩ := hch
    obtain ⟨rfl, hpos⟩ := linkOf_eq_some.mp hhead
    have hlt := hl index List.mem_cons_self
    cases n with
    | zero => cases hroom
    | succ n =>
      obtain ⟨b, hb⟩ := hnmd.string index (by omega) name
      rw [sysvLookupFrom, if_neg hpos, if_neg (by omega), hb]
      cases b with
      | true => exact ⟨some index, rfl, by omega, hb⟩
      | false =>
        obtain ⟨r, hr, hans⟩ := ih n htail (fun j hj => hl j (.tail _ hj)) (Nat.le_of_succ_le_succ hroom)
        refine ⟨r, hr, ?_⟩
        cases r with
        | some i => exact hans
        | none =>
          intro j hj
          rcases List.mem_cons.mp hj with rfl | hj
          · exact not_exported hb
          · exact hans j hj

lemma sysvLookup_spec (hnmd : o.Named total) (hwell : o.SysvWellFormed total) (hbkts : o.sysvBucketCount ≠ 0)
    (name : List UInt8) : ∃ r, o.sysvLookup total name (symbolHash name).1 = .ok r ∧ o.Finds total name r := by
  obtain ⟨l, hch, hl⟩ := hwell.chains ((symbolHash name).1.toNat % o.sysvBucketCount)
    (Nat.mod_lt _ (Nat.pos_of_ne_zero hbkts))
  have hlen : l.length ≤ total := by
    have hsub : l ⊆ List.range total := fun i hi => List.mem_range.mpr (hl i hi)
    have hle := (hch.nodup.subperm hsub).length_le
    rwa [List.length_range] at hle
  obtain ⟨r, hr, hans⟩ := @sysvLookupFrom_spec o total name hnmd total (Nat.le_refl _) l total _ hch hl hlen
  refine ⟨r, hr, ?_⟩
  cases r with
  | some i => exact hans
  | none => exact fun i hi hexp => hans i (hwell.exported i hi name hexp l hch) hexp

/-! ### Any tables -/

lemma gnuLookupFrom_sound {gnu : UInt32} (n : ℕ) {index i : ℕ} (h : o.gnuLookupFrom table name gnu n index = .ok (some i)) :
    i < index + n ∧ o.Exported name i := by
  induction n generalizing index with
  | zero => cases h
  | succ n ih =>
    rw [gnuLookupFrom] at h
    split at h
    · cases h
    dsimp only at h
    split at h
    · cases h
    · rename_i hfnd
      obtain rfl := Option.some.inj (Except.ok.inj h)
      split at hfnd
      · exact ⟨by omega, hfnd⟩
      · cases hfnd
    · split at h
      · cases h
      · obtain ⟨hlt, hexp⟩ := ih h
        exact ⟨by omega, hexp⟩

lemma sysvLookupFrom_sound (n : ℕ) {index : ℕ} (h : o.sysvLookupFrom count name n index = .ok (some i)) :
    i < count ∧ o.Exported name i := by
  induction n generalizing index with
  | zero =>
    rw [sysvLookupFrom] at h
    split at h <;> cases h
  | succ n ih =>
    rw [sysvLookupFrom] at h
    split at h
    · cases h
    split at h
    · cases h
    split at h
    · cases h
    · rename_i hfnd
      obtain rfl := Option.some.inj (Except.ok.inj h)
      exact ⟨by omega, hfnd⟩
    · exact ih h

lemma objectLookup_sound {sysv gnu : UInt32} (h : o.objectLookup count name sysv gnu = .ok (some i)) :
    i < count ∧ o.Exported name i := by
  unfold objectLookup at h
  split at h
  · unfold gnuLookup at h
    split at h
    · cases h
    dsimp only at h
    split at h
    · cases h
    split at h
    · cases h
    obtain ⟨hlt, hexp⟩ := gnuLookupFrom_sound _ h
    refine ⟨?_, hexp⟩
    by_contra hlong
    have hzero : ∀ k, count - k = 0 ∨ k + (count - k) = count := fun k => by omega
    rcases hzero (o.gnuBucket _ (gnu.toNat % o.gnuBucketCount _)) with h0 | h0
    · rw [h0] at h
      cases h
    · omega
  · exact sysvLookupFrom_sound _ h

/-! ### The contract -/

lemma count_of_sysv (hpar : o.dynamicParse = .ok count) (hhash : o.hash ≠ 0) :
    count = o.sysvChainCount ∧ o.sysvBucketCount ≠ 0 := by
  obtain ⟨-, symbolCount, hsysv, hgnu⟩ := dynamicParse_spec hpar
  obtain ⟨hbkts, hpos, hchains⟩ := sysvParse_spec hhash hsysv
  refine ⟨?_, hbkts⟩
  cases htab : o.gnuHash with
  | none =>
    rw [htab] at hgnu
    exact hgnu.trans hchains
  | some table =>
    rw [htab] at hgnu
    exact ((gnuParse_spec hgnu).2.1 hpos).trans hchains

/-- **One answer from three searches.** With a well-formed GNU or SysV table the lookup is the linear scan of the
symbol table. Whatever the tables hold, it ends, and a symbol that it finds is an exported definition of the name. -/
theorem object_lookup_agrees {count : ℕ} (hparse : o.dynamicParse = .ok count) (name : List UInt8) :
    (∀ table total, o.gnuHash = some table → o.Named total → o.GnuWellFormed table total →
      (∀ b < o.gnuBucketCount table, ∀ i, o.OnGnuChain table b i → i < count) ∧
      o.gnuLookup table count name (symbolHash name).2 = o.linearScan total name ∧
      o.objectLookup count name (symbolHash name).1 (symbolHash name).2 = o.linearScan total name) ∧
    (∀ total, o.hash ≠ 0 → o.Named total → o.SysvWellFormed total →
      (∀ b < o.sysvBucketCount, ∀ l, o.SysvChain (o.sysvBucket b) l → ∀ i ∈ l, i < count) ∧
      o.sysvLookup count name (symbolHash name).1 = o.linearScan total name) ∧
    (o.gnuHash = none → o.hash ≠ 0 ∧
      o.objectLookup count name (symbolHash name).1 (symbolHash name).2 = o.sysvLookup count name (symbolHash name).1) ∧
    ∀ sysv gnu, (∃ failure, o.objectLookup count name sysv gnu = .error failure) ∨
      o.objectLookup count name sysv gnu = .ok none ∨
      ∃ i, o.objectLookup count name sysv gnu = .ok (some i) ∧ i < count ∧ o.Exported name i := by
  obtain ⟨hpos, symbolCount, hsysv, hgnu⟩ := dynamicParse_spec hparse
  refine ⟨fun table total htable hnamed hwell => ?_, fun total hhash hnamed hwell => ?_, fun hnone => ?_, fun sysv gnu => ?_⟩
  · rw [htable] at hgnu
    obtain ⟨r, hr, hfinds⟩ := gnuLookup_spec hnamed hwell hgnu name
    obtain ⟨r', hr', hfinds'⟩ := linearScan_spec hnamed name
    have hscan : o.gnuLookup table count name (symbolHash name).2 = o.linearScan total name := by
      rw [hr, hr', hfinds.unique hnamed hfinds']
    refine ⟨fun b hb i hi => gnuChain_lt hwell hgnu hb hi, hscan, ?_⟩
    unfold objectLookup
    rw [htable]
    exact hscan
  · obtain ⟨hcount, hbuckets⟩ := count_of_sysv hparse hhash
    have htotal : count = total := hcount.trans hwell.count
    subst htotal
    obtain ⟨r, hr, hfinds⟩ := sysvLookup_spec hnamed hwell hbuckets name
    obtain ⟨r', hr', hfinds'⟩ := linearScan_spec hnamed name
    refine ⟨fun b hb l hl i hi => ?_, by rw [hr, hr', hfinds.unique hnamed hfinds']⟩
    obtain ⟨l', hchain, hl'⟩ := hwell.chains b hb
    exact hl' i (IsChain.unique hl hchain ▸ hi)
  · refine ⟨fun hzero => ?_, by unfold objectLookup; rw [hnone]⟩
    -- without any table there are no symbols
    rw [hnone] at hgnu
    unfold sysvParse at hsysv
    dsimp only at hsysv
    rw [if_pos hzero] at hsysv
    exact hpos (hgnu.trans (Except.ok.inj hsysv).symm)
  · cases hlookup : o.objectLookup count name sysv gnu with
    | error failure => exact .inl ⟨failure, rfl⟩
    | ok r =>
      cases r with
      | none => exact .inr (.inl rfl)
      | some i => exact .inr (.inr ⟨i, rfl, objectLookup_sound hlookup⟩)

/-- An object with both tables, of two buckets, that exports `a`, `c` and `b`. The first two are on one chain of each
table. -/
def exports : Object where
  segments := [⟨true, true, 0, 4096, 4096⟩]
  hash := 256
  gnuHash := some 512
  symtab := 1024
  strtab := 2048
  strsz := 7
  tables := []
  byte a := if a = 2049 then 97 else if a = 2051 then 99 else if a = 2053 then 98 else 0
  word a :=
    match a with
    | 256 => 2 | 260 => 4 | 264 => 3 | 268 => 1 | 276 => 2
    | 512 => 2 | 516 => 1 | 520 => 1 | 536 => 1 | 540 => 3 | 544 => 177670 | 548 => 177673 | 552 => 177671
    | _ => 0
  long _ := 0xffffffffffffffff
  symbol i := if i = 0 then ⟨0, 0, 0, 0⟩ else ⟨2 * i.toUInt32 - 1, 0x12, 0, 1⟩

lemma exports_string (hi : i < 4) (name : List UInt8) : exports.symbolExported i name =
    .ok (decide ((i, name) ∈ [(1, [97]), (2, [99]), (3, [98])])) := by
  have hstr : ∀ s : List UInt8, decide (s = name) = decide (name = s) := fun s => by simp only [eq_comm]
  obtain rfl | rfl | rfl | rfl : i = 0 ∨ i = 1 ∨ i = 2 ∨ i = 3 := by omega
  · rfl
  · exact (show _ = Except.ok (decide ([97] = name)) from rfl).trans (by simp [hstr])
  · exact (show _ = Except.ok (decide ([99] = name)) from rfl).trans (by simp [hstr])
  · exact (show _ = Except.ok (decide ([98] = name)) from rfl).trans (by simp [hstr])

lemma exports_exported (hi : i < 4) (h : exports.Exported name i) :
    i = 1 ∧ name = [97] ∨ i = 2 ∧ name = [99] ∨ i = 3 ∧ name = [98] := by
  have hmem := of_decide_eq_true (Except.ok.inj ((exports_string hi name).symm.trans h))
  simpa using hmem

lemma exports_named : exports.Named 4 := by
  refine ⟨fun i hi name => ⟨_, exports_string hi name⟩, fun name i hi j hj h h' => ?_⟩
  rcases exports_exported hi h with ⟨rfl, rfl⟩ | ⟨rfl, rfl⟩ | ⟨rfl, rfl⟩ <;>
    rcases exports_exported hj h' with ⟨rfl, hn⟩ | ⟨rfl, hn⟩ | ⟨rfl, hn⟩ <;> first | rfl | cases hn

lemma exports_gnu : exports.GnuWellFormed 512 4 := by
  have hcount : exports.gnuBucketCount 512 = 2 := rfl
  have hfst : exports.gnuBucket 512 0 = 1 := rfl
  have hsnd : exports.gnuBucket 512 1 = 3 := rfl
  refine ⟨by decide +kernel, fun b hb _ => ?_, fun b b' hlt hb' => ?_, fun i hi name h => ?_, fun i hi name h => ?_⟩
  · obtain rfl | rfl : b = 0 ∨ b = 1 := by omega
    · exact ⟨by decide +kernel, 2, by decide +kernel, by decide, by decide +kernel⟩
    · exact ⟨by decide +kernel, 3, by decide +kernel, by decide, by decide +kernel⟩
  · obtain ⟨rfl, rfl⟩ : b = 0 ∧ b' = 1 := by omega
    exact fun _ _ => ⟨2, by decide +kernel, by decide +kernel, by decide +kernel⟩
  · rcases exports_exported hi h with ⟨rfl, rfl⟩ | ⟨rfl, rfl⟩ | ⟨rfl, rfl⟩
    all_goals
      refine ⟨⟨by decide +kernel, by decide +kernel, ?_⟩, by decide +kernel⟩
    · rw [show (symbolHash [97]).2.toNat % exports.gnuBucketCount 512 = 0 by decide +kernel, hfst]
      omega
    · rw [show (symbolHash [99]).2.toNat % exports.gnuBucketCount 512 = 0 by decide +kernel, hfst]
      intro j h1 h2
      obtain rfl : j = 1 := by omega
      decide +kernel
    · rw [show (symbolHash [98]).2.toNat % exports.gnuBucketCount 512 = 1 by decide +kernel, hsnd]
      omega
  · rcases exports_exported hi h with ⟨rfl, rfl⟩ | ⟨rfl, rfl⟩ | ⟨rfl, rfl⟩ <;> decide +kernel

lemma exports_sysv : exports.SysvWellFormed 4 := by
  have hfst : exports.SysvChain (exports.sysvBucket 0) [3] := ⟨rfl, rfl⟩
  have hsnd : exports.SysvChain (exports.sysvBucket 1) [1, 2] := ⟨rfl, rfl, rfl⟩
  refine ⟨rfl, fun b hb => ?_, fun i hi name h l hl => ?_⟩
  · have hcount : exports.sysvBucketCount = 2 := rfl
    obtain rfl | rfl : b = 0 ∨ b = 1 := by omega
    · exact ⟨[3], hfst, by decide⟩
    · exact ⟨[1, 2], hsnd, by decide⟩
  · rcases exports_exported hi h with ⟨rfl, rfl⟩ | ⟨rfl, rfl⟩ | ⟨rfl, rfl⟩
    · exact IsChain.unique hsnd hl ▸ by decide
    · exact IsChain.unique hsnd hl ▸ by decide
    · exact IsChain.unique hfst hl ▸ by decide

/-- The lookups of `c`, the second one on its chains, are the linear scan. -/
theorem object_lookup_agrees_c : exports.objectLookup 4 [99] (symbolHash [99]).1 (symbolHash [99]).2 = .ok (some 2) ∧
    exports.sysvLookup 4 [99] (symbolHash [99]).1 = .ok (some 2) := by
  have hparse : exports.dynamicParse = .ok 4 := by decide +kernel
  have hscan : exports.linearScan 4 [99] = .ok (some 2) := by decide +kernel
  have hboth := object_lookup_agrees hparse [99]
  exact ⟨(hboth.1 512 4 rfl exports_named exports_gnu).2.2.trans hscan,
    (hboth.2.1 4 (by decide) exports_named exports_sysv).2.trans hscan⟩

end Object

end PlantOS.Ldso.Symbols
