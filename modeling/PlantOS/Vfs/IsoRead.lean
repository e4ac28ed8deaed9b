import Mathlib.Algebra.GroupWithZero.Nat
import PlantOS.Vfs.Defs

/-!
# Reading files of ISO 9660

`iso_read` with its buffer of one sector. A file is read through a `l9660_file` of its own, so that its calls share
nothing; whole sectors go around the buffer.
-/

namespace PlantOS.Vfs.Iso

open VfsError

def vfsErrorCode : VfsError → ℤ
  | noEntry => -2
  | _ => -5

def u32 (x : ℕ) : ℕ := x % 2 ^ 32

/-- The conversion to `int` -/
def int32 (x : ℕ) : ℤ := if u32 x < 2 ^ 31 then u32 x else u32 x - 2 ^ 32

/-- A disk: the bytes of its sectors of 2048 bytes, and which of its transfers succeed, in their order -/
structure Cdrom where
  sector : ℕ → ℕ → UInt8
  ok : ℕ → Bool

/-- `CDROM_Read`, as the transfer `n` -/
def Cdrom.read (d : Cdrom) (lba number n : ℕ) : Option (List UInt8) :=
  if d.ok n then some ((List.range (number * 2048)).map (fun i => d.sector (u32 (lba + i / 2048)) (i % 2048))) else none

/-- `l9660_file` -/
structure File where
  buf : ℕ → UInt8
  firstSector : ℕ
  position : ℕ
  length : ℕ

/-- What `iso_read` reads of a `vfs_node_t`; `id.value` has the kind, the first sector and the length. -/
structure Node where
  isFile : Bool
  value : List ℕ
  size : ℕ

/-- `iso_node_from_file` of a file -/
def isoNodeFromFile (firstSector length : ℕ) : Node := ⟨true, [2, firstSector, length, 0], length⟩

def isoFileFromNode (node : Node) : File := ⟨fun _ => 0, node.value.getD 1 0, 0, node.value.getD 2 0⟩

namespace File

variable (d : Cdrom) (f : File)

def fsectoff : ℕ := f.position % 2048
def fsector : ℕ := f.position / 2048

def buffer (n : ℕ) : Option File :=
  if d.ok n then some { f with buf := d.sector (u32 (f.firstSector + f.position / 2048)) } else none

/-- `prebuffer`, with the number of the next transfer -/
def prebuffer (n : ℕ) : Option (File × ℕ) :=
  if f.position % 2048 = 0 then (f.buffer d n).map (·, n + 1) else some (f, n)

/-- `l9660_seek` with `L9660_SEEK_SET` -/
def l9660Seek (offset n : ℕ) : Option (File × ℕ) :=
  let f' := { f with position := offset }
  if f'.fsector ≠ f.fsector ∧ f'.fsectoff ≠ 0 then (f'.buffer d n).map (·, n + 1) else some (f', n)

def l9660Read (size n : ℕ) : Option (File × List UInt8 × ℕ) :=
  if size = 0 ∨ f.position ≥ f.length then some (f, [], n)
  else
    (f.prebuffer d n).map fun (f, n) =>
      let size := min size (min (2048 - f.fsectoff) (f.length - f.position))
      ({ f with position := f.position + size }, (List.range size).map (fun i => f.buf (f.fsectoff + i)), n)

/-- What a pass of the loop of `iso_read` reads of the `remaining` bytes -/
def readPart (remaining n : ℕ) : Option (File × List UInt8 × ℕ) :=
  if f.fsectoff = 0 ∧ remaining ≥ 2048 then
    (d.read (u32 (f.firstSector + f.fsector)) (remaining / 2048) n).map
      ({ f with position := f.position + remaining / 2048 * 2048 }, ·, n + 1)
  else f.l9660Read d remaining n

/-- The loop of `iso_read`: the number it returns and the bytes in the caller's buffer, `none` without an end. -/
def readLoop (length : ℕ) : (fuel : ℕ) → File → List UInt8 → ℕ → Option (ℤ × List UInt8)
  | 0, _, _, _ => none
  | fuel + 1, f, data, n =>
    if data.length < length then
      match f.readPart d (length - data.length) n with
      | none => some (if data.length = 0 then vfsErrorCode io else int32 data.length, data)
      | some (f, bytes, n) =>
        if bytes.length = 0 then some (int32 data.length, data) else readLoop length fuel f (data ++ bytes) n
    else some (int32 data.length, data)

end File

/-- `iso_read`, on a disk whose next transfer is `n` -/
def isoRead (d : Cdrom) (n : ℕ) (node : Node) (offset length : ℕ) : Option (ℤ × List UInt8) :=
  if ¬ node.isFile ∨ offset > node.size then some (vfsErrorCode noEntry, [])
  else
    let length := min length (node.size - offset)
    match (isoFileFromNode node).l9660Seek d offset n with
    | none => some (vfsErrorCode io, [])
    | some (file, n) => file.readLoop d length (length + 1) [] n

/-! ### The bytes of a file -/

/-- The bytes of the file from `offset` on, in consecutive sectors -/
def stored (d : Cdrom) (firstSector offset length : ℕ) : List UInt8 :=
  (List.range length).map fun i => d.sector (u32 (firstSector + (offset + i) / 2048)) ((offset + i) % 2048)

variable {d : Cdrom} {f f' : File} {n n' offset length firstSector size remaining fuel a b : ℕ} {bytes data : List UInt8}

@[simp] lemma stored_length : (stored d firstSector offset length).length = length := by simp [stored]

lemma stored_add :
    stored d firstSector offset (a + b) = stored d firstSector offset a ++ stored d firstSector (offset + a) b := by
  simp [stored, List.range_add, Nat.add_assoc]

namespace File

def Current (d : Cdrom) (f : File) : Prop :=
  f.position % 2048 ≠ 0 → f.buf = d.sector (u32 (f.firstSector + f.position / 2048))

/-- What a pass leaves: the next bytes have been read, or a transfer has failed. -/
lemma readPart_spec (hf : f.Current d) (hremn : 0 < remaining) (hlen : f.position + remaining ≤ f.length) :
    (f.readPart d remaining n = none ∧ d.ok n = false) ∨ ∃ f' m n', f.readPart d remaining n =
      some (f', stored d f.firstSector f.position m, n') ∧ 0 < m ∧ m ≤ remaining ∧ n ≤ n' ∧ f'.Current d ∧
      f' = { f with buf := f'.buf, position := f.position + m } := by
  by_cases hwh : f.fsectoff = 0 ∧ remaining ≥ 2048
  · cases hok : d.ok n with
    | false => exact .inl ⟨by simp [readPart, hwh, Cdrom.read, hok], rfl⟩
    | true =>
      obtain ⟨hoff, hlg⟩ := hwh
      have hoff' : f.position % 2048 = 0 := hoff
      refine .inr ⟨{ f with position := f.position + remaining / 2048 * 2048 }, remaining / 2048 * 2048, n + 1, ?_,
        by omega, by omega, by omega, by simp only [Current]; omega, rfl⟩
      simp only [readPart, hoff, hlg, Cdrom.read, hok, fsector, stored, and_self, if_true, Option.map_some]
      congr 3
      refine List.map_congr_left ?_
      intro i _
      have hlba : u32 (u32 (f.firstSector + f.position / 2048) + i / 2048) =
          u32 (f.firstSector + (f.position + i) / 2048) := by
        simp only [u32]
        omega
      rw [hlba, show i % 2048 = (f.position + i) % 2048 by omega]
  · have hread : f.readPart d remaining n = f.l9660Read d remaining n := if_neg hwh
    rw [hread, l9660Read, if_neg (by omega)]
    -- the buffer after `prebuffer`
    have hbuf : (f.prebuffer d n = none ∧ d.ok n = false) ∨ ∃ n', n ≤ n' ∧ f.prebuffer d n =
        some ({ f with buf := d.sector (u32 (f.firstSector + f.position / 2048)) }, n') := by
      by_cases hoff : f.position % 2048 = 0
      · cases hok : d.ok n with
        | false => exact .inl ⟨by simp [prebuffer, buffer, hoff, hok], rfl⟩
        | true => exact .inr ⟨n + 1, by omega, by simp [prebuffer, buffer, hoff, hok]⟩
      · refine .inr ⟨n, by omega, ?_⟩
        rw [prebuffer, if_neg hoff, ← hf hoff]
    rcases hbuf with ⟨hnone, hok⟩ | ⟨n', hn, hsome⟩
    · exact .inl ⟨by rw [hnone]; rfl, hok⟩
    · obtain ⟨m, hm⟩ : ∃ m, m = min remaining (min (2048 - f.position % 2048) (f.length - f.position)) := ⟨_, rfl⟩
      have hsec (i : ℕ) (hi : i < m) : (f.position + i) / 2048 = f.position / 2048 ∧
          (f.position + i) % 2048 = f.position % 2048 + i := by omega
      refine .inr ⟨{ f with buf := d.sector (u32 (f.firstSector + f.position / 2048)), position := f.position + m }, m, n',
        ?_, by omega, by omega, hn, ?_, rfl⟩
      · rw [hsome]
        simp only [Option.map_some, fsectoff, ← hm, stored]
        congr 3
        refine List.map_congr_left ?_
        intro i hi
        rw [(hsec i (List.mem_range.mp hi)).1, (hsec i (List.mem_range.mp hi)).2]
      · intro hoff
        dsimp only at hoff ⊢
        rw [show (f.position + m) / 2048 = f.position / 2048 by omega]

/-- How a read ends: with all bytes, or with those before a transfer that failed, and an error if there are none. -/
def Ends (d : Cdrom) (n firstSector offset length : ℕ) (r : ℤ × List UInt8) : Prop :=
  r = (int32 length, stored d firstSector offset length) ∨ ∃ k m, n ≤ k ∧ d.ok k = false ∧ (m = 0 ∨ m < length) ∧
    r = (if m = 0 then vfsErrorCode io else int32 m, stored d firstSector offset m)

lemma readLoop_spec (hf : f.Current d) (hdata : data = stored d f.firstSector offset a) (hpos : f.position = offset + a)
    (ha : a ≤ length) (hlen : offset + length ≤ f.length) (hfuel : length - a < fuel) :
    ∃ r, f.readLoop d length fuel data n = some r ∧ Ends d n f.firstSector offset length r := by
  induction fuel generalizing f data a n with
  | zero => omega
  | succ fuel ih =>
    have hlng : data.length = a := by rw [hdata, stored_length]
    rw [readLoop, hlng]
    by_cases hmore : a < length
    · rw [if_pos hmore]
      rcases readPart_spec (n := n) hf (by omega : 0 < length - a) (by omega) with
        ⟨hnone, hok⟩ | ⟨f', m, n', hsome, hm, hle, hn, hf', heq⟩
      · rw [hnone]
        exact ⟨_, rfl, .inr ⟨n, a, Nat.le_refl n, hok, .inr hmore, by rw [hdata]⟩⟩
      · rw [hsome]
        have hfst : f'.firstSector = f.firstSector := by rw [heq]
        have hdata' : data ++ stored d f.firstSector f.position m = stored d f'.firstSector offset (a + m) := by
          rw [hdata, hfst, hpos, stored_add]
        obtain ⟨r, hr, hends⟩ := ih (n := n') hf' hdata' (by rw [heq]; dsimp only; omega) (by omega)
          (by rw [heq]; exact hlen) (by omega)
        refine ⟨r, by simpa [Nat.ne_of_gt hm] using hr, ?_⟩
        rw [hfst] at hends
        rcases hends with hall | ⟨k, m', hk, hfail⟩
        · exact .inl hall
        · exact .inr ⟨k, m', by omega, hfail⟩
    · obtain rfl : a = length := by omega
      rw [if_neg hmore, hdata]
      exact ⟨_, rfl, .inl rfl⟩

end File

lemma int32_eq (h : a < 2 ^ 31) : int32 a = a := by
  have hu : u32 a = a := Nat.mod_eq_of_lt (by omega)
  rw [int32, hu, if_pos h]

/-- The file when the loop begins; inside of the first sector, `l9660_seek` leaves the buffer empty. -/
lemma isoRead_ends (d : Cdrom) (n firstSector length : ℕ) (hofs : offset = 0 ∨ 2048 ≤ offset) (hsize : offset ≤ size) :
    ∃ r, isoRead d n (isoNodeFromFile firstSector size) offset length = some r ∧
      File.Ends d n firstSector offset (min length (size - offset)) r := by
  have hloop (f : File) (n : ℕ) (hf : f.Current d) (hfst : f.firstSector = firstSector) (hpos : f.position = offset)
      (hlng : f.length = size) :
      ∃ r, f.readLoop d (min length (size - offset)) (min length (size - offset) + 1) [] n = some r ∧
        File.Ends d n firstSector offset (min length (size - offset)) r := by
    rw [← hfst]
    exact File.readLoop_spec (a := 0) hf rfl (by omega) (by omega) (by omega) (by omega)
  rw [isoRead, if_neg (by simp [isoNodeFromFile, hsize])]
  have hfile : isoFileFromNode (isoNodeFromFile firstSector size) = ⟨fun _ => 0, firstSector, 0, size⟩ := rfl
  rw [hfile]
  by_cases hseek : offset / 2048 ≠ 0 / 2048 ∧ offset % 2048 ≠ 0
  · have hbuf : (⟨fun _ => 0, firstSector, 0, size⟩ : File).l9660Seek d offset n =
        ((⟨fun _ => 0, firstSector, offset, size⟩ : File).buffer d n).map (·, n + 1) := if_pos hseek
    rw [hbuf]
    cases hok : d.ok n with
    | false => exact ⟨_, by simp [File.buffer, hok, stored], .inr ⟨n, 0, Nat.le_refl n, hok, .inl rfl, rfl⟩⟩
    | true =>
      simp only [File.buffer, hok, if_true, Option.map_some]
      obtain ⟨r, hr, hends⟩ := hloop ⟨d.sector (u32 (firstSector + offset / 2048)), firstSector, offset, size⟩ (n + 1)
        (by intro _; rfl) rfl rfl rfl
      refine ⟨r, hr, ?_⟩
      rcases hends with hall | ⟨k, m, hk, hfail⟩
      · exact .inl hall
      · exact .inr ⟨k, m, by omega, hfail⟩
  · have hskip : (⟨fun _ => 0, firstSector, 0, size⟩ : File).l9660Seek d offset n =
        some (⟨fun _ => 0, firstSector, offset, size⟩, n) := if_neg hseek
    rw [hskip]
    exact hloop ⟨fun _ => 0, firstSector, offset, size⟩ n (by intro h; dsimp only at h; omega) rfl rfl rfl

/-- The bytes of reads one after the other, from `offset` on -/
def readParts (d : Cdrom) (node : Node) : (offset : ℕ) → (lengths : List ℕ) → List UInt8
  | _, [] => []
  | offset, length :: lengths =>
    ((isoRead d 0 node offset length).getD (0, [])).2 ++ readParts d node (offset + length) lengths

def Starts (size : ℕ) : (offset : ℕ) → (lengths : List ℕ) → Prop
  | offset, [] => offset ≤ size
  | offset, length :: lengths => (offset = 0 ∨ 2048 ≤ offset) ∧ Starts size (offset + length) lengths

lemma Starts.le {lengths : List ℕ} (h : Starts size offset lengths) : offset + lengths.sum ≤ size := by
  induction lengths generalizing offset with
  | nil => exact h
  | cons length lengths ih =>
    have := ih h.2
    rw [List.sum_cons]
    omega

/-- **What `iso_read` returns.** It reads the bytes of the range from the consecutive sectors of the file, up to the first
transfer that fails; with no byte before that, it fails. So a range can be split into any reads. -/
theorem isoRead_exact (d : Cdrom) (firstSector size : ℕ) :
    (∀ n offset length, offset = 0 ∨ 2048 ≤ offset → offset ≤ size → min length (size - offset) < 2 ^ 31 →
      ∃ result data, isoRead d n (isoNodeFromFile firstSector size) offset length = some (result, data) ∧
        data = stored d firstSector offset data.length ∧
        (result = data.length ∧ data.length = min length (size - offset) ∨
          (∃ k, n ≤ k ∧ d.ok k = false) ∧ data.length ≤ min length (size - offset) ∧
            result = if data.length = 0 then -5 else (data.length : ℤ))) ∧
    ((∀ k, d.ok k = true) → ∀ offset lengths, Starts size offset lengths →
      readParts d (isoNodeFromFile firstSector size) offset lengths = stored d firstSector offset lengths.sum) := by
  refine ⟨?_, ?_⟩
  · intro n offset length hoffset hsize hint
    obtain ⟨r, hr, rfl | ⟨k, m, hk, hok, hm, rfl⟩⟩ := isoRead_ends d n firstSector length hoffset hsize
    · exact ⟨_, _, hr, by rw [stored_length], .inl ⟨by rw [stored_length, int32_eq hint], stored_length⟩⟩
    · refine ⟨_, _, hr, by rw [stored_length], .inr ⟨⟨k, hk, hok⟩, by rw [stored_length]; omega, ?_⟩⟩
      simp only [stored_length, int32_eq (by omega : m < 2 ^ 31)]
      rfl
  · intro hok offset lengths h
    induction lengths generalizing offset with
    | nil => rfl
    | cons length lengths ih =>
      have hle := h.le
      rw [List.sum_cons] at hle
      obtain ⟨r, hr, rfl | ⟨k, m, -, hfail, -⟩⟩ := isoRead_ends d 0 firstSector length h.1
        (by omega : offset ≤ size)
      · rw [readParts, hr, ih _ h.2, List.sum_cons, stored_add, Nat.min_eq_left (by omega)]
        rfl
      · rw [hok k] at hfail
        cases hfail

/-- The end of a file -/
theorem isoRead_exact_tail : ∃ result data, isoRead ⟨fun _ _ => 1, fun _ => true⟩ 0 (isoNodeFromFile 20 5000) 4096 2000 =
    some (result, data) ∧ result = 904 := by
  obtain ⟨result, data, h, -, ⟨hall, hlen⟩ | ⟨⟨k, -, hfail⟩, -⟩⟩ := (isoRead_exact ⟨fun _ _ => 1, fun _ => true⟩ 20
    5000).1 0 4096 2000 (by decide) (by decide) (by decide)
  · exact ⟨result, data, h, by rw [hall, hlen]; rfl⟩
  · cases hfail

/-- A sector that cannot be read ends a read without an error, behind the bytes before it. -/
theorem isoRead_cut_short : ¬ ∀ (d : Cdrom) (n firstSector size offset length : ℕ), offset ≤ size →
    ∃ result data, isoRead d n (isoNodeFromFile firstSector size) offset length = some (result, data) ∧
      (result = min length (size - offset) ∧ data = stored d firstSector offset (min length (size - offset)) ∨
        result < 0 ∧ ∃ k, n ≤ k ∧ d.ok k = false) := by
  intro h
  obtain ⟨result, data, hr, hends⟩ := h ⟨fun _ _ => 1, (· = 0)⟩ 0 20 5000 0 5000 (by decide)
  have hshort : (isoRead ⟨fun _ _ => 1, (· = 0)⟩ 0 (isoNodeFromFile 20 5000) 0 5000).map Prod.fst = some 4096 := by
    decide +kernel
  rw [hr] at hshort
  obtain rfl : result = 4096 := Option.some.inj hshort
  rcases hends with ⟨hall, -⟩ | ⟨hneg, -⟩
  · exact absurd hall (by decide)
  · exact absurd hneg (by decide)

end PlantOS.Vfs.Iso
