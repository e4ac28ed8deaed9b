import Mathlib.Data.List.Basic
import Mathlib.Tactic.IntervalCases

/-!
# Names in a FAT directory

The name part of `fat.c`: a component of a path is decoded to UTF-16 units, stored in long-name slots in
front of its short entry, and read back. A name is the list of the bytes of a C string without its
terminator.
-/

namespace PlantOS.Fat

/-- `struct FAT_FILEINFO`, as the 32 bytes that it overlays -/
abbrev Slot := Fin 32 → UInt8

scoped instance neZero_thirtyTwo : NeZero 32 := ⟨by decide⟩

lemma nameBytes_le : 11 ≤ 32 := by decide

structure Directory where
  max : ℕ
  slot : ℕ → Slot

/-- `FAT_LFN_UNITS` and `FAT_NAME_BYTES` -/
def fatLfnUnits : ℕ := 255
def fatNameBytes : ℕ := 255

def fatLfnOffsets : List (Fin 31) := [1, 3, 5, 7, 9, 14, 16, 18, 20, 22, 24, 28, 30]

/-- `fat_name_t` -/
structure FatName where
  units : List ℕ
  slots : ℕ
  alias_ : Fin 11 → UInt8
  caseFlags : UInt8

def fatUpper (ch : UInt8) : UInt8 := if 97 ≤ ch ∧ ch ≤ 122 then ch - 32 else ch

def fatNameEqual : List UInt8 → List UInt8 → Bool
  | a :: as, b :: bs => fatUpper a = fatUpper b && fatNameEqual as bs
  | [], [] => true
  | _, _ => false

/-! ### `fat_decode_name` -/

def continuation : ℕ → ℕ → List UInt8 → Option (ℕ × List UInt8)
  | 0, ch, p => some (ch, p)
  | _ + 1, _, [] => none
  | count + 1, ch, b :: p =>
    if b &&& 0xc0 ≠ 0x80 then none else continuation count (ch <<< 6 ||| (b &&& 63).toNat) p

def decodeChar (b : UInt8) (p : List UInt8) : Option (ℕ × List UInt8) :=
  let ch := b.toNat
  let checked (count ch minimum : ℕ) : Option (ℕ × List UInt8) :=
    (continuation count ch p).bind fun (ch, p) =>
      if ch < minimum ∨ ch > 0x10ffff ∨ (0xd800 ≤ ch ∧ ch ≤ 0xdfff) then none else some (ch, p)
  if ch < 0x80 then some (ch, p)
  else if 0xc2 ≤ ch ∧ ch ≤ 0xdf then checked 1 (ch &&& 31) 0x80
  else if 0xe0 ≤ ch ∧ ch ≤ 0xef then checked 2 (ch &&& 15) 0x800
  else if 0xf0 ≤ ch ∧ ch ≤ 0xf4 then checked 3 (ch &&& 7) 0x10000
  else none

/-- A control character, or one of `"*/:<>?\|`. -/
def forbidden (ch : ℕ) : Bool :=
  ch < 32 || (ch < 128 && ch ∈ [34, 42, 47, 58, 60, 62, 63, 92, 124])

def unitsOf (ch : ℕ) : List ℕ :=
  if ch ≥ 0x10000 then
    [0xd800 ||| (ch - 0x10000) >>> 10, 0xdc00 ||| ((ch - 0x10000) &&& 1023)]
  else [ch]

/-- The loop of `fat_decode_name`; every character takes a byte or more, so `fuel` bytes are enough. -/
def decodeLoop : ℕ → List UInt8 → List ℕ → Option (List ℕ)
  | _, [], units => some units
  | 0, _ :: _, _ => none
  | fuel + 1, b :: p, units =>
    (decodeChar b p).bind fun (ch, p) =>
      if forbidden ch then none
      else if units.length + (unitsOf ch).length > fatLfnUnits then none
      else decodeLoop fuel p (units ++ unitsOf ch)

def fatDecodeName (name : List UInt8) : Option (List ℕ) :=
  if name = [] ∨ name.length ≥ fatNameBytes ∨ name.getLast? = some 32 ∨ name.getLast? = some 46 then none
  else decodeLoop name.length name []

/-! ### Reading a slot -/

def fatChecksum (entry : Slot) : UInt8 :=
  (List.finRange 11).foldl (fun sum i => ((sum &&& 1) <<< 7) + (sum >>> 1) + entry (i.castLE nameBytes_le)) 0

/-- One byte of the short name as `fat_short_display` shows it. -/
def displayByte (entry : Slot) (i : Fin 11) : List UInt8 :=
  let ch := entry (i.castLE nameBytes_le)
  if ch = 32 then []
  else
    let ch := if i = 0 ∧ ch = 5 then 0xe5 else ch
    let flag : UInt8 := if i < 8 then 8 else 16
    [if entry 12 &&& flag ≠ 0 ∧ 65 ≤ ch ∧ ch ≤ 90 then ch + 32 else ch]

def fatShortDisplay (entry : Slot) : List UInt8 :=
  (List.finRange 11).flatMap fun i =>
    (if i = 8 ∧ entry 8 ≠ 32 then [46] else []) ++ displayByte entry i

def fatReadU16 (raw : Slot) (offset : Fin 31) : ℕ :=
  (raw offset.castSucc).toNat ||| (raw offset.succ).toNat <<< 8

def slotUnits (raw : Slot) : List ℕ := fatLfnOffsets.map (fatReadU16 raw)

/-- The number of long-name slots in front of `slot`: the first loop of `fat_long_name`, from the
ordinal on that the slot nearest to the entry has to have. -/
def longSlots (d : Directory) (slot : ℕ) (checksum : UInt8) : ℕ → ℕ → Option ℕ
  | 0, _ => none
  | fuel + 1, ordinal =>
    if ordinal > slot then none
    else
      let raw := d.slot (slot - ordinal)
      if raw 11 ≠ 15 ∨ raw 12 ≠ 0 ∨ raw 13 ≠ checksum ∨ fatReadU16 raw 26 ≠ 0 ∨
          (raw 0 &&& 0xbf).toNat ≠ ordinal then none
      else if raw 0 &&& 0x40 ≠ 0 then some ordinal
      else longSlots d slot checksum fuel (ordinal + 1)

/-- The units of the long-name slots of the ordinals 1 to `total`. -/
def longUnits (d : Directory) (slot total : ℕ) : List ℕ :=
  (List.range total).flatMap fun k => slotUnits (d.slot (slot - (k + 1)))

/-- The bytes of a character: the end of the second loop of `fat_long_name`. -/
def encodeChar (ch : ℕ) : List UInt8 :=
  if ch < 0x80 then [.ofNat ch]
  else if ch < 0x800 then [.ofNat (0xc0 ||| ch >>> 6), .ofNat (0x80 ||| (ch &&& 63))]
  else if ch < 0x10000 then
    [.ofNat (0xe0 ||| ch >>> 12), .ofNat (0x80 ||| (ch >>> 6 &&& 63)), .ofNat (0x80 ||| (ch &&& 63))]
  else
    [.ofNat (0xf0 ||| ch >>> 18), .ofNat (0x80 ||| (ch >>> 12 &&& 63)), .ofNat (0x80 ||| (ch >>> 6 &&& 63)),
      .ofNat (0x80 ||| (ch &&& 63))]

/-- The second loop of `fat_long_name`: the number of units before the end and the bytes of the name.
With `bounded = false` no name is asked for, and its length is not checked. -/
def longLoop (bounded : Bool) : List ℕ → ℕ → List UInt8 → Option (ℕ × List UInt8)
  | [], length, bytes => some (length, bytes)
  | ch :: rest, length, bytes =>
    if ch = 0 then if rest.all (· = 0xffff) then some (length, bytes) else none
    else if length + 1 > fatLfnUnits ∨ ch = 0xffff then none
    else if 0xd800 ≤ ch ∧ ch ≤ 0xdbff then
      match rest with
      | [] => none
      | low :: rest =>
        let ch := 0x10000 + (ch - 0xd800) <<< 10 + low - 0xdc00
        if low < 0xdc00 ∨ low > 0xdfff ∨ length + 2 > fatLfnUnits then none
        else if bounded ∧ bytes.length + (encodeChar ch).length ≥ fatNameBytes then none
        else longLoop bounded rest (length + 2) (bytes ++ encodeChar ch)
    else if 0xdc00 ≤ ch ∧ ch ≤ 0xdfff then none
    else if forbidden ch then none
    else if bounded ∧ bytes.length + (encodeChar ch).length ≥ fatNameBytes then none
    else longLoop bounded rest (length + 1) (bytes ++ encodeChar ch)

/-- `fat_long_name` of a short entry with the checksum at `slot`: the number of its long-name slots and
the name. -/
def longName (bounded : Bool) (d : Directory) (slot : ℕ) (checksum : UInt8) : Option (ℕ × List UInt8) :=
  (longSlots d slot checksum 20 1).bind fun total =>
    let units := longUnits d slot total
    (longLoop bounded units 0 []).bind fun (length, bytes) =>
      if length = 0 ∨ (length + 12) / 13 ≠ total ∨ units.getD (length - 1) 0 = 32 ∨
          units.getD (length - 1) 0 = 46 then none
      else some (total, bytes)

/-- `fat_long_name` with a buffer for the name -/
def fatLongName (d : Directory) (slot : ℕ) : Option (ℕ × List UInt8) :=
  longName true d slot (fatChecksum (d.slot slot))

/-- `fat_long_name` without one: the number of slots, 0 if there is no long name -/
def fatLongSlots (d : Directory) (slot : ℕ) : ℕ :=
  ((longName false d slot (fatChecksum (d.slot slot))).map (·.1)).getD 0

def Directory.used (d : Directory) : List ℕ := (List.range d.max).takeWhile fun i => d.slot i 0 ≠ 0

/-- The slot is neither deleted nor a long-name slot nor a volume label. -/
def visible (entry : Slot) : Bool := entry 0 ≠ 0xe5 && entry 11 &&& 8 = 0

/-- The entry at `i` has the name: the body of the loop of `fat_search`. -/
def matchesName (d : Directory) (name : List UInt8) (i : ℕ) : Bool :=
  visible (d.slot i) &&
    ((match fatLongName d i with
      | some (_, display) => fatNameEqual name display
      | none => false) ||
      fatNameEqual name (fatShortDisplay (d.slot i)))

def fatSearch (name : List UInt8) (d : Directory) : Option ℕ := d.used.find? (matchesName d name)

/-- The name that `fat_iterate` gives the entry. -/
def displayName (d : Directory) (i : ℕ) : List UInt8 :=
  match fatLongName d i with
  | some (_, name) => name
  | none => fatShortDisplay (d.slot i)

/-- `fat_iterate`: the name and the slot of the entry number `wanted` -/
def fatIterate (d : Directory) (wanted : ℕ) : Option (List UInt8 × ℕ) :=
  ((d.used.filter fun i => visible (d.slot i) &&
    displayName d i ≠ [46] && displayName d i ≠ [46, 46]).map fun i => (displayName d i, i))[wanted]?

/-! ### `fat_prepare_name` -/

def fatAliasCharacter (ch : UInt8) : Bool :=
  32 < ch && ch < 127 && ch ∉ [34, 42, 43, 44, 46, 47, 58, 59, 60, 61, 62, 63, 91, 92, 93, 124]

/-- The part of the name before its last dot, and the part behind it. -/
def splitDot (name : List UInt8) : List UInt8 × Option (List UInt8) :=
  let extension := (name.reverse.takeWhile (· ≠ 46)).reverse
  if extension.length = name.length then (name, none)
  else (name.take (name.length - extension.length - 1), some extension)

/-- An alias: eight bytes of a stem and three of an extension, filled up with blanks. -/
def aliasOf (stem extension : List UInt8) (i : Fin 11) : UInt8 :=
  if i < 8 then stem.getD i 32 else extension.getD (i - 8) 32

/-- The entry has the alias: `fat_name_matches`. -/
def fatNameMatches (entry : Slot) (target : Fin 11 → UInt8) : Bool :=
  (List.finRange 11).all fun i => entry (i.castLE nameBytes_le) = target i

def aliasUsed (d : Directory) (target : Fin 11 → UInt8) : Bool :=
  d.used.any fun i => visible (d.slot i) && fatNameMatches (d.slot i) target

def hasLower (text : List UInt8) : Bool := text.any fun ch => 97 ≤ ch ∧ ch ≤ 122
def hasUpper (text : List UInt8) : Bool := text.any fun ch => 65 ≤ ch ∧ ch ≤ 90

def aliasStem (base : List UInt8) : List UInt8 :=
  let stem := ((base.filter fun ch => ch ≠ 32 ∧ ch ≠ 46).map fun ch =>
    if fatAliasCharacter ch then fatUpper ch else 95).take 8
  if stem = [] then [95] else stem

/-- The decimal digits of the number, which has `fuel` of them at most. -/
def digits : ℕ → ℕ → List UInt8
  | 0, _ => []
  | fuel + 1, value => (if value / 10 = 0 then [] else digits fuel (value / 10)) ++ [.ofNat (48 + value % 10)]

/-- The alias number `serial`. -/
def aliasNumbered (stem extension : List UInt8) (serial : ℕ) : Fin 11 → UInt8 :=
  aliasOf (stem.take (7 - (digits 7 serial).length) ++ 126 :: digits 7 serial) extension

/-- The first alias from `serial` on that no live entry has. -/
def firstUnused (d : Directory) (stem extension : List UInt8) : ℕ → ℕ → Option (Fin 11 → UInt8)
  | 0, _ => none
  | fuel + 1, serial =>
    if aliasUsed d (aliasNumbered stem extension serial) then firstUnused d stem extension fuel (serial + 1)
    else some (aliasNumbered stem extension serial)

def slotsFor (units : ℕ) : ℕ := (units + 12) / 13

def isShort (name base : List UInt8) (extension : Option (List UInt8)) : Bool :=
  0 < base.length && base.length ≤ 8 && (extension.getD []).length ≤ 3 &&
    (match extension with
      | some extension => (base ++ extension).all fatAliasCharacter
      | none => name.all fatAliasCharacter)

def fatPrepareName (name : List UInt8) (d : Directory) : Option FatName :=
  (fatDecodeName name).bind fun units =>
    let (base, dot) := splitDot name
    let extension := dot.getD []
    if isShort name base dot then
      let alias_ := aliasOf (base.map fatUpper) (extension.map fatUpper)
      let mixed := (hasLower base && hasUpper base) || (hasLower extension && hasUpper extension)
      let flags : UInt8 := (if hasLower base then 8 else 0) ||| (if hasLower extension then 16 else 0)
      some ⟨units, if mixed then slotsFor units.length else 0, alias_, if mixed then 0 else flags⟩
    else
      let stem := aliasStem base
      let extension := (extension.take 3).map fun ch => if fatAliasCharacter ch then fatUpper ch else 95
      (firstUnused d stem extension 999999 1).map fun alias_ => ⟨units, slotsFor units.length, alias_, 0⟩

/-- The short entry with the alias and the case flags of the name. -/
def shortEntry (name : FatName) (entry : Slot) : Slot := fun b =>
  if h : b.1 < 11 then name.alias_ ⟨b, h⟩ else if b = 12 then name.caseFlags else entry b

/-- The unit number `index` of the long-name slots of the name. -/
def storedUnit (units : List ℕ) (index : ℕ) : ℕ :=
  if index < units.length then units.getD index 0 else if index = units.length then 0 else 0xffff

/-- The long-name slot of the ordinal: the body of the loop of `fat_store_name`. -/
def longSlot (name : FatName) (checksum : UInt8) (ordinal : ℕ) : Slot :=
  let raw : Slot := fun b =>
    if b = 0 then .ofNat (ordinal ||| if ordinal = name.slots then 0x40 else 0)
    else if b = 11 then 15 else if b = 13 then checksum else 0
  (fatLfnOffsets.zipIdx).foldl (fun raw (offset, j) =>
    let ch := storedUnit name.units ((ordinal - 1) * 13 + j)
    Function.update (Function.update raw offset.castSucc (.ofNat ch)) offset.succ (.ofNat (ch >>> 8))) raw

def fatStoreName (d : Directory) (start : ℕ) (name : FatName) (entry : Slot) : Directory :=
  let entry := shortEntry name entry
  { d with slot := fun i =>
            if start ≤ i ∧ i < start + name.slots then
              longSlot name (fatChecksum entry) (name.slots - (i - start))
            else if i = start + name.slots then entry else d.slot i }

/-- The slots `first` to `last` are marked as deleted. -/
def Directory.delete (d : Directory) (first last : ℕ) : Directory :=
  { d with slot := fun i =>
            if first ≤ i ∧ i ≤ last then Function.update (d.slot i) 0 0xe5 else d.slot i }

def fatEraseEntry (d : Directory) (slot : ℕ) : Directory := d.delete (slot - fatLongSlots d slot) slot

/-! ## Decoding and encoding a name -/

variable {b : UInt8} {p rest : List UInt8} {c ch : ℕ}

/-- The characters that `fat_decode_name` accepts in a name. -/
structure Accepted (c : ℕ) : Prop where
  le : c ≤ 0x10ffff
  scalar : c < 0xd800 ∨ 0xdfff < c
  allowed : forbidden c = false

/-! ### Bytes -/

lemma UInt8.forall_of_nat {P : UInt8 → Prop} (h : ∀ n < 256, P (.ofNat n)) (b : UInt8) : P b := by
  have := h b.toNat b.toNat_lt
  rwa [UInt8.ofNat_toNat] at this

lemma isContinuation_iff (b : UInt8) : b &&& 0xc0 = 0x80 ↔ 128 ≤ b.toNat ∧ b.toNat < 192 := by
  revert b
  apply UInt8.forall_of_nat
  decide +kernel

lemma and_63 (b : UInt8) : (b &&& 63).toNat = b.toNat % 64 := by
  revert b
  apply UInt8.forall_of_nat
  decide +kernel

lemma shiftLeft_or (ch : ℕ) (b : UInt8) : ch <<< 6 ||| (b &&& 63).toNat = ch * 64 + b.toNat % 64 := by
  rw [and_63, Nat.shiftLeft_eq, ← Nat.shiftLeft_eq, ← Nat.shiftLeft_add_eq_or_of_lt (by omega),
    Nat.shiftLeft_eq]

lemma eq_ofNat (b : UInt8) {n : ℕ} (h : b.toNat = n) : b = .ofNat n := by
  rw [← h, UInt8.ofNat_toNat]

lemma or_eq_add {k a x : ℕ} (hx : x < 2 ^ k) : 2 ^ k * a ||| x = 2 ^ k * a + x :=
  (Nat.two_pow_add_eq_or_of_lt hx a).symm

lemma encodeChar_two (h₁ : 0x80 ≤ c) (h₂ : c < 0x800) :
    encodeChar c = [.ofNat (0xc0 + c / 64), .ofNat (0x80 + c % 64)] := by
  have hlow : c &&& 63 = c % 64 := Nat.and_two_pow_sub_one_eq_mod c 6
  unfold encodeChar
  rw [if_neg (by omega), if_pos h₂, hlow, Nat.shiftRight_eq_div_pow]
  rw [show (0xc0 : ℕ) = 2 ^ 5 * 6 by rfl, or_eq_add (by omega), show (0x80 : ℕ) = 2 ^ 6 * 2 by rfl,
    or_eq_add (by omega)]

lemma encodeChar_three (h₁ : 0x800 ≤ c) (h₂ : c < 0x10000) :
    encodeChar c = [.ofNat (0xe0 + c / 4096), .ofNat (0x80 + c / 64 % 64), .ofNat (0x80 + c % 64)] := by
  have hlow : ∀ c, c &&& 63 = c % 64 := fun c => Nat.and_two_pow_sub_one_eq_mod c 6
  unfold encodeChar
  rw [if_neg (by omega), if_neg (by omega), if_pos h₂, hlow, hlow, Nat.shiftRight_eq_div_pow,
    Nat.shiftRight_eq_div_pow]
  rw [show (0xe0 : ℕ) = 2 ^ 4 * 14 by rfl, or_eq_add (by omega), show (0x80 : ℕ) = 2 ^ 6 * 2 by rfl,
    or_eq_add (by omega), or_eq_add (by omega)]

lemma encodeChar_four (h₁ : 0x10000 ≤ c) (h₂ : c ≤ 0x10ffff) :
    encodeChar c = [.ofNat (0xf0 + c / 262144), .ofNat (0x80 + c / 4096 % 64),
      .ofNat (0x80 + c / 64 % 64), .ofNat (0x80 + c % 64)] := by
  have hlow : ∀ c, c &&& 63 = c % 64 := fun c => Nat.and_two_pow_sub_one_eq_mod c 6
  unfold encodeChar
  rw [if_neg (by omega), if_neg (by omega), if_neg (by omega), hlow, hlow, hlow, Nat.shiftRight_eq_div_pow,
    Nat.shiftRight_eq_div_pow, Nat.shiftRight_eq_div_pow]
  rw [show (0xf0 : ℕ) = 2 ^ 3 * 30 by rfl, or_eq_add (by omega), show (0x80 : ℕ) = 2 ^ 6 * 2 by rfl,
    or_eq_add (by omega), or_eq_add (by omega), or_eq_add (by omega)]

/-! ### One character -/

lemma continuation_succ {count : ℕ} (h : continuation (count + 1) ch p = some (c, rest)) :
    ∃ b p', p = b :: p' ∧ 128 ≤ b.toNat ∧ b.toNat < 192 ∧
      continuation count (ch * 64 + b.toNat % 64) p' = some (c, rest) := by
  cases p with
  | nil => cases h
  | cons b p' =>
    rw [continuation] at h
    split_ifs at h with hb
    rw [not_not, isContinuation_iff] at hb
    rw [shiftLeft_or] at h
    exact ⟨b, p', rfl, hb.1, hb.2, h⟩

lemma continuation_zero (h : continuation 0 ch p = some (c, rest)) : c = ch ∧ rest = p := by
  simp only [continuation, Option.some.injEq, Prod.mk.injEq] at h
  exact ⟨h.1.symm, h.2.symm⟩

/-- **A decoded character is encoded by the bytes that it was read from.** -/
lemma decodeChar_some (h : decodeChar b p = some (c, rest)) :
    b :: p = encodeChar c ++ rest ∧ c ≤ 0x10ffff ∧ (c < 0xd800 ∨ 0xdfff < c) := by
  have h31 : ∀ n : ℕ, n &&& 31 = n % 32 := fun n => Nat.and_two_pow_sub_one_eq_mod n 5
  have h15 : ∀ n : ℕ, n &&& 15 = n % 16 := fun n => Nat.and_two_pow_sub_one_eq_mod n 4
  have h7 : ∀ n : ℕ, n &&& 7 = n % 8 := fun n => Nat.and_two_pow_sub_one_eq_mod n 3
  unfold decodeChar at h
  extract_lets ch checked at h
  have hchk : ∀ {count x minimum}, checked count x minimum = some (c, rest) →
      continuation count x p = some (c, rest) ∧ minimum ≤ c ∧ c ≤ 0x10ffff ∧ (c < 0xd800 ∨ 0xdfff < c) := by
    intro count x minimum hc
    obtain ⟨⟨c', rest'⟩, hcont, hif⟩ := Option.bind_eq_some_iff.mp hc
    dsimp only at hif
    split_ifs at hif with hbad
    obtain ⟨rfl, rfl⟩ := Prod.mk.inj (Option.some.inj hif)
    exact ⟨hcont, by omega, by omega, by omega⟩
  have hch : ch = b.toNat := rfl
  split_ifs at h with h₁ h₂ h₃ h₄
  · obtain ⟨rfl, rfl⟩ := Prod.mk.inj (Option.some.inj h)
    refine ⟨?_, by omega, by omega⟩
    rw [encodeChar, if_pos h₁, hch, UInt8.ofNat_toNat]
    rfl
  · obtain ⟨hcont, hmin, hmax, hs⟩ := hchk h
    obtain ⟨b₁, p₁, rfl, hl₁, hu₁, hcont⟩ := continuation_succ hcont
    obtain ⟨rfl, rfl⟩ := continuation_zero hcont
    rw [h31] at *
    refine ⟨?_, hmax, hs⟩
    rw [encodeChar_two hmin (by omega), ← eq_ofNat b (by omega), ← eq_ofNat b₁ (by omega)]
    rfl
  · obtain ⟨hcont, hmin, hmax, hs⟩ := hchk h
    obtain ⟨b₁, p₁, rfl, hl₁, hu₁, hcont⟩ := continuation_succ hcont
    obtain ⟨b₂, p₂, rfl, hl₂, hu₂, hcont⟩ := continuation_succ hcont
    obtain ⟨rfl, rfl⟩ := continuation_zero hcont
    rw [h15] at *
    refine ⟨?_, hmax, hs⟩
    rw [encodeChar_three hmin (by omega), ← eq_ofNat b (by omega), ← eq_ofNat b₁ (by omega),
      ← eq_ofNat b₂ (by omega)]
    rfl
  · obtain ⟨hcont, hmin, hmax, hs⟩ := hchk h
    obtain ⟨b₁, p₁, rfl, hl₁, hu₁, hcont⟩ := continuation_succ hcont
    obtain ⟨b₂, p₂, rfl, hl₂, hu₂, hcont⟩ := continuation_succ hcont
    obtain ⟨b₃, p₃, rfl, hl₃, hu₃, hcont⟩ := continuation_succ hcont
    obtain ⟨rfl, rfl⟩ := continuation_zero hcont
    rw [h7] at *
    refine ⟨?_, hmax, hs⟩
    rw [encodeChar_four hmin hmax, ← eq_ofNat b (by omega), ← eq_ofNat b₁ (by omega),
      ← eq_ofNat b₂ (by omega), ← eq_ofNat b₃ (by omega)]
    rfl

/-! ### Units -/

lemma unitsOf_pair (h₁ : 0x10000 ≤ c) (h₂ : c ≤ 0x10ffff) :
    unitsOf c = [0xd800 + (c - 0x10000) / 1024, 0xdc00 + (c - 0x10000) % 1024] := by
  have hlow : (c - 0x10000) &&& 1023 = (c - 0x10000) % 1024 :=
    Nat.and_two_pow_sub_one_eq_mod (c - 0x10000) 10
  unfold unitsOf
  rw [if_pos h₁, hlow, Nat.shiftRight_eq_div_pow]
  rw [show (0xd800 : ℕ) = 2 ^ 10 * 54 by rfl, or_eq_add (by omega), show (0xdc00 : ℕ) = 2 ^ 10 * 55 by rfl,
    or_eq_add (by omega)]

lemma unitsOf_single (h : c < 0x10000) : unitsOf c = [c] := by
  unfold unitsOf
  rw [if_neg (by omega)]

lemma Accepted.ne_zero (h : Accepted c) : c ≠ 0 := by
  intro hc
  have hall := h.allowed
  simp only [forbidden, hc, Bool.or_eq_false_iff, decide_eq_false_iff_not] at hall
  omega

lemma Accepted.unit (h : Accepted c) {u : ℕ} (hu : u ∈ unitsOf c) : 0 < u ∧ u < 0x10000 := by
  have hle := h.le
  by_cases hc : c < 0x10000
  · rw [unitsOf_single hc, List.mem_singleton] at hu
    have := h.ne_zero
    omega
  · rw [unitsOf_pair (Nat.le_of_not_lt hc) hle] at hu
    simp only [List.mem_cons, List.not_mem_nil, or_false] at hu
    rcases hu with hu | hu <;> omega

lemma decodeLoop_some {fuel : ℕ} {units units' : List ℕ} (h : decodeLoop fuel p units = some units') :
    ∃ chars : List ℕ, p = chars.flatMap encodeChar ∧ units' = units ++ chars.flatMap unitsOf ∧
      (∀ c ∈ chars, Accepted c) ∧ (units.length ≤ fatLfnUnits → units'.length ≤ fatLfnUnits) := by
  induction fuel generalizing p units with
  | zero =>
    cases p with
    | nil =>
      cases h
      exact ⟨[], by simp⟩
    | cons b p => cases h
  | succ fuel ih =>
    cases p with
    | nil =>
      cases h
      exact ⟨[], by simp⟩
    | cons b p =>
      obtain ⟨⟨c, rest⟩, hc, h⟩ := Option.bind_eq_some_iff.mp h
      dsimp only at h
      split_ifs at h with hforb hlen
      obtain ⟨hbs, hle, hscal⟩ := decodeChar_some hc
      obtain ⟨chars, rfl, rfl, hacc, huns⟩ := ih h
      refine ⟨c :: chars, ?_, ?_, ?_, fun _ => huns ?_⟩
      · rw [List.flatMap_cons, hbs]
      · rw [List.flatMap_cons, List.append_assoc]
      · rw [List.forall_mem_cons]
        exact ⟨⟨hle, hscal, Bool.eq_false_of_not_eq_true hforb⟩, hacc⟩
      · rw [List.length_append]
        omega

/-- The characters of a name that `fat_decode_name` accepts. -/
structure Decoded (name : List UInt8) (units chars : List ℕ) : Prop where
  name_eq : name = chars.flatMap encodeChar
  units_eq : units = chars.flatMap unitsOf
  accepted : ∀ c ∈ chars, Accepted c
  nonempty : chars ≠ []
  units_le : units.length ≤ fatLfnUnits
  bytes_lt : name.length < fatNameBytes
  last : name.getLast? ≠ some 32 ∧ name.getLast? ≠ some 46

lemma fatDecodeName_some {name : List UInt8} {units : List ℕ} (h : fatDecodeName name = some units) :
    ∃ chars, Decoded name units chars := by
  unfold fatDecodeName at h
  split_ifs at h with hbad
  simp only [not_or] at hbad
  obtain ⟨chars, hname, huns, hacc, hle⟩ := decodeLoop_some h
  refine ⟨chars, hname, huns, hacc, ?_, hle (Nat.zero_le _), not_le.mp hbad.2.1, hbad.2.2⟩
  rintro rfl
  exact hbad.1 (by simpa using hname)

/-! ### The second loop of `fat_long_name` -/

variable {bounded : Bool} {tail : List ℕ} {length : ℕ} {bytes : List UInt8}

lemma longLoop_char (hc : Accepted c) (hne : c ≠ 0xffff)
    (hlen : length + (unitsOf c).length ≤ fatLfnUnits)
    (hbs : bytes.length + (encodeChar c).length < fatNameBytes) :
    longLoop bounded (unitsOf c ++ tail) length bytes =
      longLoop bounded tail (length + (unitsOf c).length) (bytes ++ encodeChar c) := by
  have hzero := hc.ne_zero
  have hle := hc.le
  have hscal := hc.scalar
  unfold fatLfnUnits at hlen
  by_cases hbmp : c < 0x10000
  · rw [unitsOf_single hbmp] at hlen ⊢
    simp only [List.length_singleton] at hlen
    rw [List.singleton_append, List.length_singleton, longLoop.eq_def]
    dsimp only
    rw [if_neg hzero, if_neg (by unfold fatLfnUnits; omega), if_neg (by omega), if_neg (by omega),
      if_neg (by simp [hc.allowed]), if_neg (by omega)]
  · rw [unitsOf_pair (by omega) hle] at hlen ⊢
    simp only [List.length_cons, List.length_nil] at hlen
    simp only [List.cons_append, List.nil_append, longLoop, List.length_cons, List.length_nil]
    have hchar : 0x10000 + (0xd800 + (c - 0x10000) / 1024 - 0xd800) <<< 10 +
        (0xdc00 + (c - 0x10000) % 1024) - 0xdc00 = c := by
      rw [Nat.shiftLeft_eq]
      omega
    rw [if_neg (by omega), if_neg (by unfold fatLfnUnits; omega), if_pos (by omega), hchar,
      if_neg (by unfold fatLfnUnits; omega), if_neg (by omega)]

lemma longLoop_chars {chars : List ℕ} (hacc : ∀ c ∈ chars, Accepted c) (hne : 0xffff ∉ chars)
    (hlen : length + (chars.flatMap unitsOf).length ≤ fatLfnUnits)
    (hbs : bytes.length + (chars.flatMap encodeChar).length < fatNameBytes) :
    longLoop bounded (chars.flatMap unitsOf ++ tail) length bytes =
      longLoop bounded tail (length + (chars.flatMap unitsOf).length)
        (bytes ++ chars.flatMap encodeChar) := by
  induction chars generalizing length bytes with
  | nil => simp
  | cons c chars ih =>
    rw [List.forall_mem_cons] at hacc
    rw [List.mem_cons, not_or] at hne
    simp only [List.flatMap_cons, List.length_append] at hlen hbs ⊢
    rw [List.append_assoc, longLoop_char hacc.1 (Ne.symm hne.1) (by omega) (by omega),
      ih hacc.2 hne.2 (by omega) (by rw [List.length_append]; omega), List.append_assoc, Nat.add_assoc]

lemma longLoop_padding : longLoop bounded (0xffff :: tail) length bytes = none := by
  rw [longLoop.eq_def]
  dsimp only
  rw [if_neg (by omega), if_pos (.inr rfl)]

lemma longLoop_chars_padding {chars : List ℕ} (hacc : ∀ c ∈ chars, Accepted c) (hmem : 0xffff ∈ chars)
    (hlen : length + (chars.flatMap unitsOf).length ≤ fatLfnUnits)
    (hbs : bytes.length + (chars.flatMap encodeChar).length < fatNameBytes) :
    longLoop bounded (chars.flatMap unitsOf ++ tail) length bytes = none := by
  induction chars generalizing length bytes with
  | nil => cases hmem
  | cons c chars ih =>
    rw [List.forall_mem_cons] at hacc
    simp only [List.flatMap_cons, List.length_append] at hlen hbs ⊢
    rw [List.append_assoc]
    by_cases hc : c = 0xffff
    · subst hc
      exact longLoop_padding
    · rw [longLoop_char hacc.1 hc (by omega) (by omega)]
      refine ih hacc.2 ?_ (by omega) (by rw [List.length_append]; omega)
      exact (List.mem_cons.mp hmem).resolve_left (Ne.symm hc)

lemma longLoop_end {pad : List ℕ} (hpad : ∀ u ∈ pad, u = 0xffff) :
    longLoop bounded (0 :: pad) length bytes = some (length, bytes) := by
  have : pad.all (· = 0xffff) = true := by simpa using hpad
  rw [longLoop.eq_def]
  simp only [if_true, this]

end PlantOS.Fat
