import Mathlib.Data.Finset.Prod
import PlantOS.Lib.Grid
import PlantOS.Lib.Run

/-!
# Sheets

The compositor of `apps/gui/sheet.c`. A call is `none` where a signed sum overflows, or an access leaves its memory.
-/

namespace PlantOS.Gui.Compositor

open Lib

/-- `vram_t` -/
abbrev Pixel := BitVec 32

structure Buffer where
  size : ℕ
  pixel : ℕ → Pixel

def Buffer.load (b : Buffer) (i : ℕ) : Option Pixel := if i < b.size then some (b.pixel i) else none

def Buffer.store (b : Buffer) (i : ℕ) (p : Pixel) : Option Buffer :=
  if i < b.size then some { b with pixel := Function.update b.pixel i p } else none

/-- `struct SHEET`, with its pixels that changed since they were painted -/
structure Sheet where
  buf : Buffer
  bxsize : ℤ
  bysize : ℤ
  vx0 : ℤ
  vy0 : ℤ
  col_inv : ℤ
  height : ℤ
  stale : List (ℤ × ℤ)

/-- `struct SHTCTL`; sheets are numbered by their addresses, a number without a sheet is an address that is not
allocated. -/
structure Ctl where
  vram : Buffer
  map : ℕ → Option ℕ
  xsize : ℤ
  ysize : ℤ
  top : ℤ
  stride : ℕ
  red_shift : ℕ
  green_shift : ℕ
  blue_shift : ℕ
  sheets : ℕ → ℕ
  allocated : List ℕ
  count : ℕ
  capacity : ℕ
  sheet : ℕ → Option Sheet

/-! ### Arithmetic and memory -/

/-- The values of an `int` -/
def IsInt (z : ℤ) : Prop := -2147483648 ≤ z ∧ z ≤ 2147483647

instance (z : ℤ) : Decidable (IsInt z) := inferInstanceAs (Decidable (_ ∧ _))

/-- A sum of two `int`s -/
def sum (a b : ℤ) : Option ℤ := if IsInt (a + b) then some (a + b) else none

/-- `(size_t)(y - vy0) * bxsize + x - vx0` -/
def Sheet.index (sh : Sheet) (x y : ℤ) : Option ℕ :=
  (sum y (-sh.vy0)).map fun row => ((row * sh.bxsize + x - sh.vx0) % 18446744073709551616).toNat

/-- The cell of a point in `map`, which has `xsize * ysize` of them -/
def Ctl.mapIndex (s : Ctl) (x y : ℤ) : Option ℕ :=
  if cell s.xsize.toNat x y < (s.xsize * s.ysize).toNat then some (cell s.xsize.toNat x y) else none

/-- `sheets[h]` -/
def Ctl.sheetAt (s : Ctl) (h : ℤ) : Option ℕ :=
  if 0 ≤ h ∧ h < s.capacity then some (s.sheets h.toNat) else none

/-- `sheets[h] = sheet` -/
def Ctl.setSheetAt (s : Ctl) (h : ℤ) (id : ℕ) : Option Ctl :=
  if 0 ≤ h ∧ h < s.capacity then some { s with sheets := Function.update s.sheets h.toNat id } else none

def Ctl.setSheet (s : Ctl) (id : ℕ) (sh : Sheet) : Ctl := { s with sheet := Function.update s.sheet id (some sh) }

/-- `sheets[h]->height = height` -/
def Ctl.setHeightAt (s : Ctl) (h height : ℤ) : Option Ctl :=
  (s.sheetAt h).bind fun id => (s.sheet id).map fun sh => s.setSheet id { sh with height := height }

/-! ### `sheet_refreshsub` -/

def Ctl.native (s : Ctl) : Bool := s.red_shift = 16 ∧ s.green_shift = 8 ∧ s.blue_shift = 0

def Ctl.colour (s : Ctl) (color : Pixel) : Pixel :=
  if s.native then color
  else ((color >>> 16 &&& 255) <<< s.red_shift ||| (color >>> 8 &&& 255) <<< s.green_shift) |||
    (color &&& 255) <<< s.blue_shift

/-- The end of the run of points with the same owner, `n` points before the end of the area -/
def runEnd (s : Ctl) (y : ℤ) (owner : Option ℕ) : ℕ → ℤ → Option ℤ
  | 0, x => some x
  | n + 1, x => (s.mapIndex x y).bind fun i => if s.map i = owner then runEnd s y owner n (x + 1) else some x

/-- The points from `first` to `last` of a row -/
def copyRun (s : Ctl) (sh : Sheet) (y first last : ℤ) (vram : Buffer) : Option Buffer :=
  (sh.index first y).bind fun source =>
    forUp 0 (last - first) (fun i vram =>
      (sh.buf.load (source + i.toNat)).bind fun color => vram.store (cell s.stride first y + i.toNat) (s.colour color)) vram

/-- A run, where its owner is a sheet of one of the heights -/
def refreshRun (s : Ctl) (h₀ h₁ y first last : ℤ) (owner : Option ℕ) (vram : Buffer) : Option Buffer :=
  match owner with
  | none => some vram
  | some id => (s.sheet id).bind fun sh =>
    if sh.height < h₀ ∨ sh.height > h₁ then some vram else copyRun s sh y first last vram

/-- A row from `x` on; every run has a point, so that `n` runs reach the end. -/
def refreshRow (s : Ctl) (h₀ h₁ y x₁ : ℤ) : ℕ → ℤ → Buffer → Option Buffer
  | 0, _, vram => some vram
  | n + 1, x, vram =>
    if x < x₁ then
      (s.mapIndex x y).bind fun i =>
        (runEnd s y (s.map i) (x₁ - (x + 1)).toNat (x + 1)).bind fun last =>
          (refreshRun s h₀ h₁ y x last (s.map i) vram).bind (refreshRow s h₀ h₁ y x₁ n last)
    else some vram

def refreshsub (s : Ctl) (x₀ y₀ x₁ y₁ h₀ h₁ : ℤ) : Option Ctl :=
  let x₀ := max x₀ 0
  let y₀ := max y₀ 0
  let x₁ := min x₁ s.xsize
  let y₁ := min y₁ s.ysize
  (forUp y₀ y₁ (fun y => refreshRow s h₀ h₁ y x₁ (x₁ - x₀).toNat x₀) s.vram).map fun vram => { s with vram := vram }

/-- A pixel of a sheet: it becomes the owner of the point, where that has none and the pixel is not transparent. -/
def own (s : Ctl) (id : ℕ) (sh : Sheet) (x y : ℤ) (m : (ℕ → Option ℕ) × ℕ) : Option ((ℕ → Option ℕ) × ℕ) :=
  (s.mapIndex x y).bind fun i =>
    if m.1 i ≠ none then some m
    else if sh.col_inv ≠ -1 then
      (sh.index x y).bind fun j => (sh.buf.load j).bind fun color =>
        if color = BitVec.ofInt 32 sh.col_inv then some m else some (Function.update m.1 i (some id), m.2 - 1)
    else some (Function.update m.1 i (some id), m.2 - 1)

/-- The sheet of a height, unless no point of the area is without an owner -/
def layer (s : Ctl) (x₀ y₀ x₁ y₁ h : ℤ) (m : (ℕ → Option ℕ) × ℕ) : Option ((ℕ → Option ℕ) × ℕ) :=
  if m.2 = 0 then some m
  else
    (s.sheetAt h).bind fun id => (s.sheet id).bind fun sh =>
      (sum sh.vx0 sh.bxsize).bind fun right => (sum sh.vy0 sh.bysize).bind fun bottom =>
        forBox (max x₀ sh.vx0) (max y₀ sh.vy0) (min x₁ right) (min y₁ bottom) (own s id sh) m

def recompose (s : Ctl) (x₀ y₀ x₁ y₁ : ℤ) : Option Ctl :=
  let x₀ := max x₀ 0
  let y₀ := max y₀ 0
  let x₁ := min x₁ s.xsize
  let y₁ := min y₁ s.ysize
  if x₀ ≥ x₁ ∨ y₀ ≥ y₁ then some s
  else
    (forBox x₀ y₀ x₁ y₁ (fun x y map => (s.mapIndex x y).map fun i => Function.update map i none) s.map).bind fun map =>
      (forDown s.top 0 (layer s x₀ y₀ x₁ y₁) (map, ((x₁ - x₀) * (y₁ - y₀)).toNat)).bind fun m =>
        refreshsub { s with map := m.1 } x₀ y₀ x₁ y₁ 0 s.top

/-! ### The calls -/

/-- `sheet_alloc`, by whether `realloc` and `calloc` find memory -/
def sheet_alloc (s : Ctl) (grown : Bool) (address : Option ℕ) : Option Ctl :=
  if s.count = 2147483647 then some s
  else if s.count = s.capacity ∧ grown = false then some s
  else
    let s := if s.count = s.capacity then { s with capacity := if s.capacity = 0 then 16 else s.capacity * 2 } else s
    match address with
    | none => some s
    | some id => some { s with
        sheet := Function.update s.sheet id (some ⟨⟨0, fun _ => 0⟩, 0, 0, 0, 0, 0, -1, []⟩)
        allocated := id :: s.allocated
        count := s.count + 1 }

/-- The new buffer is painted where the sheet is visible, so that no pixel of it is stale. -/
def sheet_setbuf (s : Ctl) (id : ℕ) (buffer : Buffer) (width height transparent : ℤ) : Option Ctl :=
  (s.sheet id).bind fun sh =>
    let s := s.setSheet id
      { sh with buf := buffer, bxsize := width, bysize := height, col_inv := transparent, stale := [] }
    if sh.height ≥ 0 then
      (sum sh.vx0 (max sh.bxsize width)).bind fun right => (sum sh.vy0 (max sh.bysize height)).bind fun bottom =>
        recompose s sh.vx0 sh.vy0 right bottom
    else some s

/-- The sheets above `old` come down. -/
def lower (s : Ctl) (old : ℤ) : Option Ctl :=
  if old ≥ 0 then
    (forUp old s.top (fun i s => (s.sheetAt (i + 1)).bind fun id => (s.setSheetAt i id).bind fun s => s.setHeightAt i i)
      s).map fun s => { s with top := s.top - 1 }
  else some s

/-- The sheets from `height` on go up, and the sheet takes the place. -/
def raise (s : Ctl) (id : ℕ) (height : ℤ) : Option Ctl :=
  if height ≥ 0 then
    (forDown s.top height (fun i s => (s.sheetAt i).bind fun id =>
        (s.setSheetAt (i + 1) id).bind fun s => s.setHeightAt (i + 1) (i + 1)) s).bind fun s =>
      (s.setSheetAt height id).map fun s => { s with top := s.top + 1 }
  else some s

def sheet_updown (s : Ctl) (id : ℕ) (height : ℤ) : Option Ctl :=
  (s.sheet id).bind fun sh =>
    let maximum := if sh.height < 0 then s.top + 1 else s.top
    let height := max (min height maximum) (-1)
    if sh.height = height then some s
    else
      (lower s sh.height).bind fun s => (raise s id height).bind fun s => (s.sheet id).bind fun sh =>
        let s := s.setSheet id { sh with height := height, stale := [] }
        (sum sh.vx0 sh.bxsize).bind fun right => (sum sh.vy0 sh.bysize).bind fun bottom =>
          recompose s sh.vx0 sh.vy0 right bottom

def sheet_refresh (s : Ctl) (id : ℕ) (x₀ y₀ x₁ y₁ : ℤ) : Option Ctl :=
  (s.sheet id).bind fun sh =>
    if sh.height ≥ 0 then
      (sum sh.vx0 x₀).bind fun left => (sum sh.vy0 y₀).bind fun top =>
        (sum sh.vx0 x₁).bind fun right => (sum sh.vy0 y₁).bind fun bottom =>
          (refreshsub s left top right bottom sh.height sh.height).map fun s =>
            s.setSheet id { sh with
              stale := sh.stale.filter fun p => ¬ (x₀ ≤ p.1 ∧ p.1 < x₁ ∧ y₀ ≤ p.2 ∧ p.2 < y₁) }
    else some s

def sheet_slide (s : Ctl) (id : ℕ) (x y : ℤ) : Option Ctl :=
  (s.sheet id).bind fun sh =>
    if sh.vx0 = x ∧ sh.vy0 = y then some s
    else
      let s := s.setSheet id { sh with vx0 := x, vy0 := y, stale := [] }
      if sh.height < 0 then some s
      else
        (sum sh.vx0 sh.bxsize).bind fun old_right => (sum sh.vy0 sh.bysize).bind fun old_bottom =>
          (sum x sh.bxsize).bind fun right => (sum y sh.bysize).bind fun bottom =>
            let left := max sh.vx0 x
            let top := max sh.vy0 y
            let overlap_right := min old_right right
            let overlap_bottom := min old_bottom bottom
            (if left ≥ overlap_right ∨ top ≥ overlap_bottom then recompose s sh.vx0 sh.vy0 old_right old_bottom
            else
              (recompose s sh.vx0 sh.vy0 old_right top).bind fun s =>
                (recompose s sh.vx0 overlap_bottom old_right old_bottom).bind fun s =>
                  (recompose s sh.vx0 top left overlap_bottom).bind fun s =>
                    recompose s overlap_right top old_right overlap_bottom).bind fun s =>
              recompose s x y right bottom

def sheet_free (s : Ctl) (id : ℕ) : Option Ctl :=
  (sheet_updown s id (-1)).map fun s =>
    if id ∈ s.allocated then
      { s with
        allocated := s.allocated.erase id
        count := s.count - 1
        sheet := Function.update s.sheet id none }
    else s

def draw (s : Ctl) (id : ℕ) (x y : ℤ) (p : Pixel) : Option Ctl :=
  (s.sheet id).bind fun sh => (sh.buf.store (cell sh.bxsize.toNat x y) p).map fun buf =>
    s.setSheet id { sh with buf := buf, stale := (x, y) :: sh.stale }

/-! ## Painting -/

/-! ### What is to be seen -/

def Sheet.Covers (sh : Sheet) (x y : ℤ) : Prop :=
  sh.vx0 ≤ x ∧ x < sh.vx0 + sh.bxsize ∧ sh.vy0 ≤ y ∧ y < sh.vy0 + sh.bysize

def Sheet.at (sh : Sheet) (x y : ℤ) : Pixel := sh.buf.pixel (cell sh.bxsize.toNat (x - sh.vx0) (y - sh.vy0))

/-- The sheet covers the point with a pixel that is not transparent. -/
def Sheet.Shows (sh : Sheet) (x y : ℤ) : Prop :=
  sh.Covers x y ∧ (sh.col_inv = -1 ∨ sh.at x y ≠ BitVec.ofInt 32 sh.col_inv)

instance (sh : Sheet) (x y : ℤ) : Decidable (sh.Covers x y) := inferInstanceAs (Decidable (_ ∧ _))

instance (sh : Sheet) (x y : ℤ) : Decidable (sh.Shows x y) := inferInstanceAs (Decidable (_ ∧ _))

/-- The highest sheet from a height on that shows at the point -/
def TopmostFrom (s : Ctl) (h x y : ℤ) : Option ℕ → Prop
  | none => ∀ id sh, s.sheet id = some sh → h ≤ sh.height → ¬ sh.Shows x y
  | some id => ∃ sh, s.sheet id = some sh ∧ h ≤ sh.height ∧ sh.Shows x y ∧
      ∀ id' sh', s.sheet id' = some sh' → sh'.Shows x y → sh'.height ≤ sh.height

/-- **The highest visible sheet that shows at the point**, or none -/
def Topmost (s : Ctl) (x y : ℤ) (owner : Option ℕ) : Prop := TopmostFrom s 0 x y owner

/-- The ends of the sheet are `int`s, and its buffer is as large as it is. -/
structure Fitting (sh : Sheet) : Prop where
  bxsize : IsInt sh.bxsize
  bysize : IsInt sh.bysize
  right : IsInt (sh.vx0 + sh.bxsize)
  bottom : IsInt (sh.vy0 + sh.bysize)
  size : sh.bxsize.toNat * sh.bysize.toNat ≤ sh.buf.size

structure Screen (s : Ctl) : Prop where
  xsize : 0 < s.xsize
  ysize : 0 < s.ysize
  stride : s.xsize ≤ s.stride
  vram : (s.ysize - 1) * s.stride + s.xsize ≤ s.vram.size

/-- **The heights of the visible sheets** are those up to `top`, and each is where its height says. -/
structure Heights (s : Ctl) : Prop where
  top : -1 ≤ s.top
  taken : ∀ h, 0 ≤ h → h ≤ s.top → ∃ sh, s.sheet (s.sheets h.toNat) = some sh ∧ sh.height = h
  place : ∀ id sh, s.sheet id = some sh → -1 ≤ sh.height ∧
    (0 ≤ sh.height → sh.height ≤ s.top ∧ s.sheets sh.height.toNat = id)

structure Paintable (s : Ctl) : Prop where
  screen : Screen s
  heights : Heights s
  room : s.top < s.capacity
  fitting : ∀ id sh, s.sheet id = some sh → 0 ≤ sh.height → Fitting sh

def OnScreen (s : Ctl) (x y : ℤ) : Prop := (x, y) ∈ box 0 0 s.xsize s.ysize

/-! ### Memory -/

section Memory

variable {s : Ctl} {sh : Sheet} {x y u v : ℤ}

lemma sum_eq {a b : ℤ} (h : IsInt (a + b)) : sum a b = some (a + b) := if_pos h

lemma mapIndex_eq (hs : Screen s) (h : OnScreen s x y) : s.mapIndex x y = some (cell s.xsize.toNat x y) := by
  obtain ⟨hx, hxs, hy, hys⟩ := h
  have hwid : ((s.xsize.toNat : ℕ) : ℤ) = s.xsize := Int.toNat_of_nonneg (le_of_lt hs.xsize)
  refine if_pos (cell_lt _ _ hx hxs hy hys ?_)
  have harea : (s.ysize - 1) * s.xsize + s.xsize = s.xsize * s.ysize := by ring
  rw [hwid, harea]
  exact Int.self_le_toNat _

lemma map_cell_inj (hs : Screen s) (h : OnScreen s x y) (h' : OnScreen s u v)
    (heq : cell s.xsize.toNat x y = cell s.xsize.toNat u v) : x = u ∧ y = v := by
  have hwid : ((s.xsize.toNat : ℕ) : ℤ) = s.xsize := Int.toNat_of_nonneg (le_of_lt hs.xsize)
  obtain ⟨hx, hxs, hy, -⟩ := h
  obtain ⟨hu, hus, hv, -⟩ := h'
  exact cell_inj hx (by rw [hwid]; exact hxs) hy hu (by rw [hwid]; exact hus) hv heq

lemma vram_cell_inj (hs : Screen s) (h : OnScreen s x y) (h' : OnScreen s u v)
    (heq : cell s.stride x y = cell s.stride u v) : x = u ∧ y = v := by
  obtain ⟨hx, hxs, hy, -⟩ := h
  obtain ⟨hu, hus, hv, -⟩ := h'
  exact cell_inj hx (lt_of_lt_of_le hxs hs.stride) hy hu (lt_of_lt_of_le hus hs.stride) hv heq

lemma vram_cell_lt (hs : Screen s) (h : OnScreen s x y) : cell s.stride x y < s.vram.size := by
  obtain ⟨hx, hxs, hy, hys⟩ := h
  exact cell_lt _ _ hx hxs hy hys hs.vram

lemma index_eq (hsh : Fitting sh) (h : sh.Covers x y) :
    sh.index x y = some (cell sh.bxsize.toNat (x - sh.vx0) (y - sh.vy0)) ∧
      cell sh.bxsize.toNat (x - sh.vx0) (y - sh.vy0) < sh.buf.size := by
  obtain ⟨hx₀, hx₁, hy₀, hy₁⟩ := h
  obtain ⟨⟨-, hw⟩, ⟨-, hh⟩, -, -, hsize⟩ := hsh
  have hwid : ((sh.bxsize.toNat : ℕ) : ℤ) = sh.bxsize := Int.toNat_of_nonneg (by omega)
  have hlast : (sh.bysize - 1) * sh.bxsize + sh.bxsize = sh.bxsize * sh.bysize := by ring
  constructor
  · have hrow : IsInt (y + -sh.vy0) := by
      unfold IsInt
      omega
    unfold Sheet.index
    rw [sum_eq hrow]
    refine congrArg some ?_
    unfold cell
    rw [hwid]
    have hfst : 0 ≤ (y + -sh.vy0) * sh.bxsize := Int.mul_nonneg (by omega) (by omega)
    have hbd : (y + -sh.vy0) * sh.bxsize ≤ 2147483647 * 2147483647 :=
      Int.mul_le_mul (by omega) (by omega) (by omega) (by omega)
    have hsub : y - sh.vy0 = y + -sh.vy0 := by ring
    dsimp only
    rw [hsub, Int.emod_eq_of_lt (by omega) (by omega)]
    exact congrArg Int.toNat (by omega)
  · refine cell_lt sh.bxsize sh.bysize (by omega) (by omega) (by omega) (by omega) ?_
    rw [hwid, hlast]
    have hboth : ((sh.bxsize.toNat * sh.bysize.toNat : ℕ) : ℤ) = sh.bxsize * sh.bysize := by
      rw [Nat.cast_mul, hwid, Int.toNat_of_nonneg (by omega)]
    omega

end Memory

/-! ### The framebuffer -/

section Refresh

variable {s : Ctl} {h₀ h₁ : ℤ} {vram₀ vram : Buffer} {done : Set (ℤ × ℤ)} {x y : ℤ}

/-- What is painted at a point: the pixel of its owner, where that has one of the heights -/
def painted (s : Ctl) (h₀ h₁ x y : ℤ) : Option Pixel :=
  (s.map (cell s.xsize.toNat x y)).bind fun id => (s.sheet id).bind fun sh =>
    if sh.height < h₀ ∨ sh.height > h₁ then none else some (s.colour (sh.at x y))

/-- The points that are done have been painted, the others are as before. -/
structure Refreshed (s : Ctl) (h₀ h₁ : ℤ) (vram₀ : Buffer) (done : Set (ℤ × ℤ)) (vram : Buffer) : Prop where
  size : vram.size = vram₀.size
  inside : ∀ x y, OnScreen s x y → (x, y) ∈ done →
    vram.pixel (cell s.stride x y) = (painted s h₀ h₁ x y).getD (vram₀.pixel (cell s.stride x y))
  outside : ∀ x y, OnScreen s x y → (x, y) ∉ done → vram.pixel (cell s.stride x y) = vram₀.pixel (cell s.stride x y)

lemma refreshed_empty : Refreshed s h₀ h₁ vram₀ ∅ vram₀ :=
  ⟨rfl, fun _ _ _ hmem => absurd hmem (Set.notMem_empty _), fun _ _ _ _ => rfl⟩

lemma Refreshed.skip {done' : Set (ℤ × ℤ)} (h : Refreshed s h₀ h₁ vram₀ done vram) (hsub : done ⊆ done')
    (hnone : ∀ x y, (x, y) ∈ done' → (x, y) ∉ done → painted s h₀ h₁ x y = none) :
    Refreshed s h₀ h₁ vram₀ done' vram := by
  refine ⟨h.size, fun x y hon hmem => ?_, fun x y hon hmem => h.outside x y hon fun hin => hmem (hsub hin)⟩
  by_cases hin : (x, y) ∈ done
  · exact h.inside x y hon hin
  · rw [h.outside x y hon hin, hnone x y hmem hin]
    rfl

lemma Refreshed.store (hs : Screen s) (hsize : vram₀.size = s.vram.size) (h : Refreshed s h₀ h₁ vram₀ done vram)
    (hon : OnScreen s x y) {p : Pixel} (hp : painted s h₀ h₁ x y = some p) :
    ∃ vram', vram.store (cell s.stride x y) p = some vram' ∧ Refreshed s h₀ h₁ vram₀ (insert (x, y) done) vram' := by
  refine ⟨{ vram with pixel := Function.update vram.pixel (cell s.stride x y) p }, ?_, h.size, ?_, ?_⟩
  · refine if_pos ?_
    rw [h.size, hsize]
    exact vram_cell_lt hs hon
  · intro u v hon' hmem
    by_cases hsame : (u, v) = (x, y)
    · cases hsame
      dsimp only
      rw [Function.update_self, hp]
      rfl
    · have hcell : cell s.stride u v ≠ cell s.stride x y := by
        intro heq
        obtain ⟨hu, hv⟩ := vram_cell_inj hs hon' hon heq
        exact hsame (by rw [hu, hv])
      refine (Function.update_of_ne hcell _ _).trans ?_
      exact h.inside u v hon' (Set.mem_of_mem_insert_of_ne hmem hsame)
  · intro u v hon' hmem
    have hcell : cell s.stride u v ≠ cell s.stride x y := by
      intro heq
      obtain ⟨hu, hv⟩ := vram_cell_inj hs hon' hon heq
      exact hmem (by rw [hu, hv]; exact Set.mem_insert _ _)
    refine (Function.update_of_ne hcell _ _).trans ?_
    exact h.outside u v hon' fun hin => hmem (Set.mem_insert_of_mem _ hin)

/-- What painting an area relies on: the owners are sheets that cover their points. -/
def Owned (s : Ctl) (h₀ h₁ : ℤ) (area : Set (ℤ × ℤ)) : Prop :=
  ∀ x y id, (x, y) ∈ area → s.map (cell s.xsize.toNat x y) = some id →
    ∃ sh, s.sheet id = some sh ∧ (h₀ ≤ sh.height → sh.height ≤ h₁ → Fitting sh ∧ sh.Covers x y)

variable {x₀ x₁ y₀ y₁ : ℤ}

lemma copyRun_spec {first last : ℤ} {id : ℕ} {sh : Sheet} (hs : Screen s) (hsize : vram₀.size = s.vram.size)
    (hon : ∀ x y, (x, y) ∈ box x₀ y₀ x₁ y₁ → OnScreen s x y) (hy : y₀ ≤ y ∧ y < y₁) (hfst : x₀ ≤ first)
    (hrun : first < last) (hlast : last ≤ x₁) (hsheet : s.sheet id = some sh) (hht : ¬ (sh.height < h₀ ∨ sh.height > h₁))
    (hfits : Fitting sh) (hown : ∀ u, first ≤ u → u < last → s.map (cell s.xsize.toNat u y) = some id)
    (hcov : ∀ u, first ≤ u → u < last → sh.Covers u y)
    (h : Refreshed s h₀ h₁ vram₀ (before x₀ y₀ x₁ y₁ first y) vram) :
    ∃ vram', copyRun s sh y first last vram = some vram' ∧
      Refreshed s h₀ h₁ vram₀ (before x₀ y₀ x₁ y₁ last y) vram' := by
  have hin : ∀ u, first ≤ u → u < last → (u, y) ∈ box x₀ y₀ x₁ y₁ := fun u hu hu' =>
    ⟨by omega, by omega, hy.1, hy.2⟩
  obtain ⟨hstar, -⟩ := index_eq hfits (hcov first le_rfl hrun)
  have hloop := forUp_spec 0 (last - first)
    (fun i vram => (sh.buf.load (cell sh.bxsize.toNat (first - sh.vx0) (y - sh.vy0) + i.toNat)).bind fun color =>
      vram.store (cell s.stride first y + i.toNat) (s.colour color))
    (fun i vram => Refreshed s h₀ h₁ vram₀ (before x₀ y₀ x₁ y₁ (first + i) y) vram) ?_ (s := vram)
    (by rwa [add_zero])
  · obtain ⟨vram', hvram', hdone⟩ := hloop
    refine ⟨vram', ?_, ?_⟩
    · unfold copyRun
      rw [hstar]
      exact hvram'
    · have hend : first + max 0 (last - first) = last := by omega
      rwa [hend] at hdone
  · intro i vram hi hi' hvram
    have hpoin := hin (first + i) (by omega) (by omega)
    have hcover := hcov (first + i) (by omega) (by omega)
    obtain ⟨-, hload⟩ := index_eq hfits hcover
    obtain ⟨hx₀, -, hy₀, -⟩ := hcov first le_rfl hrun
    have hsrc : cell sh.bxsize.toNat (first - sh.vx0) (y - sh.vy0) + i.toNat =
        cell sh.bxsize.toNat (first + i - sh.vx0) (y - sh.vy0) := by
      have hsum : first + i - sh.vx0 = first - sh.vx0 + i := by ring
      rw [hsum, cell_add (by omega) (by omega) hi]
    have hscr := hon _ _ (hin first le_rfl hrun)
    have htgt : cell s.stride first y + i.toNat = cell s.stride (first + i) y :=
      (cell_add hscr.1 hscr.2.2.1 hi).symm
    have hpain : painted s h₀ h₁ (first + i) y = some (s.colour (sh.at (first + i) y)) := by
      unfold painted
      rw [hown (first + i) (by omega) (by omega), Option.bind_some, hsheet, Option.bind_some, if_neg hht]
    obtain ⟨vram', hstor, hdone⟩ := hvram.store hs hsize (hon _ _ hpoin) hpain
    refine ⟨vram', ?_, ?_⟩
    · rw [hsrc, htgt]
      unfold Buffer.load
      rw [if_pos hload]
      exact hstor
    · rw [insert_before hpoin] at hdone
      rwa [← add_assoc]

lemma runEnd_spec (hs : Screen s) (owner : Option ℕ) (n : ℕ) (x : ℤ) (hon : ∀ u, x ≤ u → u < x + n → OnScreen s u y) :
    ∃ last, runEnd s y owner n x = some last ∧ x ≤ last ∧ last ≤ x + n ∧
      ∀ u, x ≤ u → u < last → s.map (cell s.xsize.toNat u y) = owner := by
  induction n generalizing x with
  | zero => exact ⟨x, rfl, le_rfl, by omega, fun u hu hu' => absurd hu' (not_lt.mpr hu)⟩
  | succ n ih =>
    unfold runEnd
    rw [mapIndex_eq hs (hon x le_rfl (by omega)), Option.bind_some]
    by_cases hsame : s.map (cell s.xsize.toNat x y) = owner
    · rw [if_pos hsame]
      obtain ⟨last, hlast, hle, hle', hrun⟩ := ih (x + 1) fun u hu hu' => hon u (by omega) (by omega)
      refine ⟨last, hlast, by omega, by omega, fun u hu hu' => ?_⟩
      by_cases hx : u = x
      · rw [hx]
        exact hsame
      · exact hrun u (by omega) hu'
    · rw [if_neg hsame]
      exact ⟨x, rfl, le_rfl, by omega, fun u hu hu' => absurd hu' (not_lt.mpr hu)⟩

lemma refreshRun_spec {first last : ℤ} {owner : Option ℕ} (hs : Screen s) (hsize : vram₀.size = s.vram.size)
    (hon : ∀ x y, (x, y) ∈ box x₀ y₀ x₁ y₁ → OnScreen s x y) (howd : Owned s h₀ h₁ (box x₀ y₀ x₁ y₁))
    (hy : y₀ ≤ y ∧ y < y₁) (hfst : x₀ ≤ first) (hrun : first < last) (hlast : last ≤ x₁)
    (hown : ∀ u, first ≤ u → u < last → s.map (cell s.xsize.toNat u y) = owner)
    (h : Refreshed s h₀ h₁ vram₀ (before x₀ y₀ x₁ y₁ first y) vram) :
    ∃ vram', refreshRun s h₀ h₁ y first last owner vram = some vram' ∧
      Refreshed s h₀ h₁ vram₀ (before x₀ y₀ x₁ y₁ last y) vram' := by
  have hin : ∀ u, first ≤ u → u < last → (u, y) ∈ box x₀ y₀ x₁ y₁ := fun u hu hu' =>
    ⟨by omega, by omega, hy.1, hy.2⟩
  have hsub : before x₀ y₀ x₁ y₁ first y ⊆ before x₀ y₀ x₁ y₁ last y := by
    rintro ⟨u, v⟩ ⟨hbox, hbef⟩
    exact ⟨hbox, by dsimp only at *; omega⟩
  -- the points in between are those of the run
  have hbet : ∀ u v, (u, v) ∈ before x₀ y₀ x₁ y₁ last y → (u, v) ∉ before x₀ y₀ x₁ y₁ first y →
      v = y ∧ first ≤ u ∧ u < last := by
    rintro u v ⟨hbox, hbef⟩ hnot
    have hnot' : ¬ (v < y ∨ v = y ∧ u < first) := fun hcase => hnot ⟨hbox, hcase⟩
    dsimp only at hbef
    omega
  unfold refreshRun
  cases hown' : owner with
  | none =>
    refine ⟨vram, rfl, h.skip hsub fun u v hmem hnot => ?_⟩
    obtain ⟨rfl, hu, hu'⟩ := hbet u v hmem hnot
    unfold painted
    rw [hown u hu hu', hown']
    rfl
  | some id =>
    subst hown'
    obtain ⟨sh, hsheet, hcase⟩ := howd first y id (hin first le_rfl hrun) (hown first le_rfl hrun)
    dsimp only
    rw [hsheet, Option.bind_some]
    by_cases hht : sh.height < h₀ ∨ sh.height > h₁
    · rw [if_pos hht]
      refine ⟨vram, rfl, h.skip hsub fun u v hmem hnot => ?_⟩
      obtain ⟨rfl, hu, hu'⟩ := hbet u v hmem hnot
      unfold painted
      rw [hown u hu hu', Option.bind_some, hsheet, Option.bind_some, if_pos hht]
    · rw [if_neg hht]
      have hlow : h₀ ≤ sh.height ∧ sh.height ≤ h₁ := by omega
      refine copyRun_spec hs hsize hon hy hfst hrun hlast hsheet hht (hcase hlow.1 hlow.2).1 hown ?_ h
      intro u hu hu'
      obtain ⟨sh', hsheet', hcase'⟩ := howd u y id (hin u hu hu') (hown u hu hu')
      rw [hsheet] at hsheet'
      cases hsheet'
      exact (hcase' hlow.1 hlow.2).2

lemma refreshRow_spec (hs : Screen s) (hsize : vram₀.size = s.vram.size)
    (hon : ∀ x y, (x, y) ∈ box x₀ y₀ x₁ y₁ → OnScreen s x y) (howd : Owned s h₀ h₁ (box x₀ y₀ x₁ y₁))
    (hy : y₀ ≤ y ∧ y < y₁) (n : ℕ) (x : ℤ) (hx : x₀ ≤ x) (hn : x₁ ≤ x + n)
    (h : Refreshed s h₀ h₁ vram₀ (before x₀ y₀ x₁ y₁ x y) vram) :
    ∃ vram', refreshRow s h₀ h₁ y x₁ n x vram = some vram' ∧
      Refreshed s h₀ h₁ vram₀ (before x₀ y₀ x₁ y₁ x₀ (y + 1)) vram' := by
  induction n generalizing x vram with
  | zero =>
    rw [before_row (by omega)] at h
    exact ⟨vram, rfl, h⟩
  | succ n ih =>
    unfold refreshRow
    by_cases hend : x < x₁
    · rw [if_pos hend]
      have hscr : ∀ u, x ≤ u → u < x₁ → OnScreen s u y := fun u hu hu' => hon u y ⟨by omega, hu', hy.1, hy.2⟩
      rw [mapIndex_eq hs (hscr x le_rfl hend), Option.bind_some]
      obtain ⟨last, hlast, hle, hle', hrun⟩ := runEnd_spec hs (s.map (cell s.xsize.toNat x y)) (x₁ - (x + 1)).toNat (x + 1)
        (y := y) fun u hu hu' => hscr u (by omega) (by omega)
      rw [hlast, Option.bind_some]
      have hown : ∀ u, x ≤ u → u < last → s.map (cell s.xsize.toNat u y) = s.map (cell s.xsize.toNat x y) := by
        intro u hu hu'
        by_cases hsame : u = x
        · rw [hsame]
        · exact hrun u (by omega) hu'
      obtain ⟨vram₁, hvram₁, hdone⟩ := refreshRun_spec hs hsize hon howd hy hx (by omega) (by omega) hown h
      rw [hvram₁, Option.bind_some]
      exact ih last (by omega) (by omega) hdone
    · rw [if_neg hend]
      rw [before_row (by omega)] at h
      exact ⟨vram, rfl, h⟩

def clipped (s : Ctl) (x₀ y₀ x₁ y₁ : ℤ) : Set (ℤ × ℤ) := box (max x₀ 0) (max y₀ 0) (min x₁ s.xsize) (min y₁ s.ysize)

lemma clipped_onScreen (h : (x, y) ∈ clipped s x₀ y₀ x₁ y₁) : OnScreen s x y := by
  obtain ⟨hx₀, hx₁, hy₀, hy₁⟩ := h
  exact ⟨by omega, by omega, by omega, by omega⟩

lemma mem_clipped (h : OnScreen s x y) :
    (x, y) ∈ clipped s x₀ y₀ x₁ y₁ ↔ (x, y) ∈ box x₀ y₀ x₁ y₁ := by
  obtain ⟨hx₀, hx₁, hy₀, hy₁⟩ := h
  simp only [clipped, mem_box]
  dsimp only at *
  omega

/-- **`sheet_refreshsub` paints the points of the area that sheets of these heights own.** -/
theorem refreshsub_spec (hs : Screen s) (howd : Owned s h₀ h₁ (clipped s x₀ y₀ x₁ y₁)) :
    ∃ vram, refreshsub s x₀ y₀ x₁ y₁ h₀ h₁ = some { s with vram := vram } ∧
      Refreshed s h₀ h₁ s.vram (clipped s x₀ y₀ x₁ y₁) vram := by
  have hloop := forUp_spec (max y₀ 0) (min y₁ s.ysize)
    (fun y => refreshRow s h₀ h₁ y (min x₁ s.xsize) (min x₁ s.xsize - max x₀ 0).toNat (max x₀ 0))
    (fun y vram => Refreshed s h₀ h₁ s.vram
      (before (max x₀ 0) (max y₀ 0) (min x₁ s.xsize) (min y₁ s.ysize) (max x₀ 0) y) vram) ?_ (s := s.vram) ?_
  · obtain ⟨vram, hvram, hdone⟩ := hloop
    rw [before_last] at hdone
    refine ⟨vram, ?_, hdone⟩
    unfold refreshsub
    dsimp only
    rw [hvram]
    rfl
  · intro y vram hy hy' hvram
    exact refreshRow_spec hs rfl (fun _ _ => clipped_onScreen) howd ⟨hy, hy'⟩ _ _ le_rfl (by omega) hvram
  · rw [before_first]
    exact refreshed_empty

end Refresh

/-! ## Composition -/

open Function (update update_of_ne update_self)

variable {s : Ctl} {x y : ℤ}

/-! ### One sheet -/

def free (s : Ctl) (area : Finset (ℤ × ℤ)) (map : ℕ → Option ℕ) : Finset (ℤ × ℤ) :=
  area.filter fun p => map (cell s.xsize.toNat p.1 p.2) = none

def points (x₀ y₀ x₁ y₁ : ℤ) : Finset (ℤ × ℤ) :=
  (Finset.range (x₁ - x₀).toNat ×ˢ Finset.range (y₁ - y₀).toNat).image fun p => (x₀ + p.1, y₀ + p.2)

variable {x₀ x₁ y₀ y₁ : ℤ}

lemma mem_points : (x, y) ∈ points x₀ y₀ x₁ y₁ ↔ (x, y) ∈ box x₀ y₀ x₁ y₁ := by
  simp only [points, Finset.mem_image, Finset.mem_product, Finset.mem_range, mem_box, Prod.mk.injEq, Prod.exists]
  constructor
  · rintro ⟨i, j, ⟨hi, hj⟩, hx, hy⟩
    omega
  · intro hin
    exact ⟨(x - x₀).toNat, (y - y₀).toNat, ⟨by omega, by omega⟩, by omega, by omega⟩

lemma card_points (x₀ y₀ x₁ y₁ : ℤ) : (points x₀ y₀ x₁ y₁).card = (x₁ - x₀).toNat * (y₁ - y₀).toNat := by
  have hinj : Function.Injective fun p : ℕ × ℕ => ((x₀ + p.1, y₀ + p.2) : ℤ × ℤ) := by
    rintro ⟨i, j⟩ ⟨i', j'⟩ heq
    simp only [Prod.mk.injEq] at heq ⊢
    omega
  unfold points
  rw [Finset.card_image_of_injective _ hinj, Finset.card_product, Finset.card_range, Finset.card_range]

variable {m : (ℕ → Option ℕ) × ℕ}

lemma own_eq {id : ℕ} {sh : Sheet} (hs : Screen s) (hon : OnScreen s x y) (hfits : Fitting sh)
    (hcov : sh.Covers x y) : own s id sh x y m =
      some (if m.1 (cell s.xsize.toNat x y) = none ∧ sh.Shows x y then
        (update m.1 (cell s.xsize.toNat x y) (some id), m.2 - 1) else m) := by
  unfold own
  rw [mapIndex_eq hs hon, Option.bind_some]
  by_cases hfree : m.1 (cell s.xsize.toNat x y) = none
  · rw [if_neg (not_not.mpr hfree)]
    by_cases hopaq : sh.col_inv = -1
    · rw [if_neg (not_not.mpr hopaq), if_pos ⟨hfree, hcov, .inl hopaq⟩]
    · obtain ⟨hidx, hlt⟩ := index_eq hfits hcov
      rw [if_pos hopaq, hidx, Option.bind_some]
      unfold Buffer.load
      rw [if_pos hlt, Option.bind_some]
      by_cases hclr : sh.buf.pixel (cell sh.bxsize.toNat (x - sh.vx0) (y - sh.vy0)) = BitVec.ofInt 32 sh.col_inv
      · rw [if_pos hclr, if_neg]
        rintro ⟨-, -, hcase | hcase⟩
        · exact hopaq hcase
        · exact hcase hclr
      · rw [if_neg hclr, if_pos ⟨hfree, hcov, .inr hclr⟩]
  · rw [if_pos hfree, if_neg fun hboth => hfree hboth.1]

/-- A sheet has been put under the points that are done. -/
structure Layered (s : Ctl) (area : Finset (ℤ × ℤ)) (id : ℕ) (sh : Sheet) (map : ℕ → Option ℕ) (done : Set (ℤ × ℤ))
    (m : (ℕ → Option ℕ) × ℕ) : Prop where
  inside : ∀ x y, OnScreen s x y → (x, y) ∈ done → m.1 (cell s.xsize.toNat x y) =
    if map (cell s.xsize.toNat x y) = none ∧ sh.Shows x y then some id else map (cell s.xsize.toNat x y)
  outside : ∀ x y, OnScreen s x y → (x, y) ∉ done → m.1 (cell s.xsize.toNat x y) = map (cell s.xsize.toNat x y)
  count : m.2 = (free s area m.1).card

lemma Layered.own {area : Finset (ℤ × ℤ)} {id : ℕ} {sh : Sheet} {map : ℕ → Option ℕ} {done : Set (ℤ × ℤ)}
    (hs : Screen s) (harea : ∀ x y, (x, y) ∈ area → OnScreen s x y) (hin : (x, y) ∈ area)
    (hnew : (x, y) ∉ done) (h : Layered s area id sh map done m) :
    Layered s area id sh map (insert (x, y) done)
      (if m.1 (cell s.xsize.toNat x y) = none ∧ sh.Shows x y then
        (update m.1 (cell s.xsize.toNat x y) (some id), m.2 - 1) else m) := by
  have hon := harea x y hin
  have hold := h.outside x y hon hnew
  have hoth : ∀ u v, OnScreen s u v → (u, v) ≠ (x, y) → cell s.xsize.toNat u v ≠ cell s.xsize.toNat x y := by
    intro u v hon' hne heq
    obtain ⟨hu, hv⟩ := map_cell_inj hs hon' hon heq
    exact hne (by rw [hu, hv])
  by_cases hcase : m.1 (cell s.xsize.toNat x y) = none ∧ sh.Shows x y
  · rw [if_pos hcase]
    refine ⟨fun u v hon' hmem => ?_, fun u v hon' hmem => ?_, ?_⟩
    · by_cases hsame : (u, v) = (x, y)
      · cases hsame
        dsimp only
        rw [update_self, ← hold, if_pos hcase]
      · dsimp only
        rw [update_of_ne (hoth u v hon' hsame)]
        exact h.inside u v hon' (Set.mem_of_mem_insert_of_ne hmem hsame)
    · have hne : (u, v) ≠ (x, y) := fun heq => hmem (by rw [heq]; exact Set.mem_insert _ _)
      dsimp only
      rw [update_of_ne (hoth u v hon' hne)]
      exact h.outside u v hon' fun hdone => hmem (Set.mem_insert_of_mem _ hdone)
    · have hers : free s area (update m.1 (cell s.xsize.toNat x y) (some id)) = (free s area m.1).erase (x, y) := by
        ext ⟨u, v⟩
        unfold free
        rw [Finset.mem_filter, Finset.mem_erase, Finset.mem_filter]
        by_cases hsame : (u, v) = (x, y)
        · cases hsame
          dsimp only
          rw [update_self]
          simp
        · constructor
          · rintro ⟨hmem, hnone⟩
            dsimp only at hnone
            rw [update_of_ne (hoth u v (harea u v hmem) hsame)] at hnone
            exact ⟨hsame, hmem, hnone⟩
          · rintro ⟨-, hmem, hnone⟩
            refine ⟨hmem, ?_⟩
            dsimp only
            rw [update_of_ne (hoth u v (harea u v hmem) hsame)]
            exact hnone
      have hfree : (x, y) ∈ free s area m.1 := Finset.mem_filter.mpr ⟨hin, hcase.1⟩
      dsimp only
      rw [hers, Finset.card_erase_of_mem hfree, h.count]
  · rw [if_neg hcase]
    refine ⟨fun u v hon' hmem => ?_, fun u v hon' hmem => ?_, h.count⟩
    · by_cases hsame : (u, v) = (x, y)
      · cases hsame
        rw [hold] at hcase
        rw [hold, if_neg hcase]
      · exact h.inside u v hon' (Set.mem_of_mem_insert_of_ne hmem hsame)
    · exact h.outside u v hon' fun hdone => hmem (Set.mem_insert_of_mem _ hdone)

/-- **One sheet** gets the points of the area where it shows and that have no owner yet. -/
lemma layer_spec {h : ℤ} (hs : Paintable s)
    (harea : ∀ x y, (x, y) ∈ box x₀ y₀ x₁ y₁ → OnScreen s x y) (h₀ : 0 ≤ h) (h₁ : h ≤ s.top)
    (hcnt : m.2 = (free s (points x₀ y₀ x₁ y₁) m.1).card) :
    ∃ id sh m', s.sheet id = some sh ∧ sh.height = h ∧ s.sheets h.toNat = id ∧ layer s x₀ y₀ x₁ y₁ h m = some m' ∧
      (∀ x y, (x, y) ∈ box x₀ y₀ x₁ y₁ → m'.1 (cell s.xsize.toNat x y) =
        if m.1 (cell s.xsize.toNat x y) = none ∧ sh.Shows x y then some id else m.1 (cell s.xsize.toNat x y)) ∧
      (∀ x y, OnScreen s x y → (x, y) ∉ box x₀ y₀ x₁ y₁ → m'.1 (cell s.xsize.toNat x y) = m.1 (cell s.xsize.toNat x y)) ∧
      m'.2 = (free s (points x₀ y₀ x₁ y₁) m'.1).card := by
  obtain ⟨sh, hsh, hht⟩ := hs.heights.taken h h₀ h₁
  have hfits := hs.fitting _ sh hsh (by omega)
  have hpoin : ∀ x y, (x, y) ∈ points x₀ y₀ x₁ y₁ → OnScreen s x y := fun x y hmem => harea x y (mem_points.mp hmem)
  refine ⟨s.sheets h.toNat, sh, ?_⟩
  suffices hlayer : ∃ m', layer s x₀ y₀ x₁ y₁ h m = some m' ∧
      (∀ x y, (x, y) ∈ box x₀ y₀ x₁ y₁ → m'.1 (cell s.xsize.toNat x y) =
        if m.1 (cell s.xsize.toNat x y) = none ∧ sh.Shows x y then some (s.sheets h.toNat)
        else m.1 (cell s.xsize.toNat x y)) ∧
      (∀ x y, OnScreen s x y → (x, y) ∉ box x₀ y₀ x₁ y₁ → m'.1 (cell s.xsize.toNat x y) = m.1 (cell s.xsize.toNat x y)) ∧
      m'.2 = (free s (points x₀ y₀ x₁ y₁) m'.1).card by
    obtain ⟨m', hm'⟩ := hlayer
    exact ⟨m', hsh, hht, rfl, hm'⟩
  unfold layer
  by_cases hzero : m.2 = 0
  · rw [if_pos hzero]
    refine ⟨m, rfl, fun x y hmem => ?_, fun _ _ _ _ => rfl, hcnt⟩
    -- no point is without an owner
    have hemp : free s (points x₀ y₀ x₁ y₁) m.1 = ∅ := Finset.card_eq_zero.mp (by rw [← hcnt, hzero])
    rw [if_neg]
    rintro ⟨hnone, -⟩
    have hfree : (x, y) ∈ free s (points x₀ y₀ x₁ y₁) m.1 := Finset.mem_filter.mpr ⟨mem_points.mpr hmem, hnone⟩
    rw [hemp] at hfree
    exact absurd hfree (Finset.notMem_empty _)
  · have hroom := hs.room
    have hat : s.sheetAt h = some (s.sheets h.toNat) := if_pos ⟨h₀, by omega⟩
    rw [if_neg hzero, hat, Option.bind_some, hsh, Option.bind_some, sum_eq hfits.right, Option.bind_some,
      sum_eq hfits.bottom, Option.bind_some]
    have hloop := forBox_spec (max x₀ sh.vx0) (max y₀ sh.vy0) (min x₁ (sh.vx0 + sh.bxsize))
      (min y₁ (sh.vy0 + sh.bysize)) (own s (s.sheets h.toNat) sh)
      (Layered s (points x₀ y₀ x₁ y₁) (s.sheets h.toNat) sh m.1) ?_
      (s := m) ⟨fun _ _ _ hmem => absurd hmem (Set.notMem_empty _), fun _ _ _ _ => rfl, hcnt⟩
    · obtain ⟨m', hm', hlay⟩ := hloop
      refine ⟨m', hm', fun x y hmem => ?_, fun x y hon hmem => ?_, hlay.count⟩
      · by_cases hin : (x, y) ∈ box (max x₀ sh.vx0) (max y₀ sh.vy0) (min x₁ (sh.vx0 + sh.bxsize))
            (min y₁ (sh.vy0 + sh.bysize))
        · exact hlay.inside x y (harea x y hmem) hin
        · rw [hlay.outside x y (harea x y hmem) hin, if_neg]
          rintro ⟨-, hcov, -⟩
          refine hin ?_
          unfold Sheet.Covers at hcov
          rw [mem_box] at hmem ⊢
          omega
      · refine hlay.outside x y hon fun hin => hmem ?_
        rw [mem_box] at hin ⊢
        omega
    · intro x y done m₁ hin hnew hlay
      have hmem : (x, y) ∈ box x₀ y₀ x₁ y₁ := by
        rw [mem_box] at hin ⊢
        omega
      have hcov : sh.Covers x y := by
        unfold Sheet.Covers
        rw [mem_box] at hin
        omega
      exact ⟨_, own_eq hs.screen (harea x y hmem) hfits hcov,
        hlay.own hs.screen hpoin (mem_points.mpr hmem) hnew⟩

/-! ### All sheets -/

/-- The sheets from a height on have been composed in an area. -/
structure Composed (s : Ctl) (x₀ y₀ x₁ y₁ h : ℤ) (m : (ℕ → Option ℕ) × ℕ) : Prop where
  inside : ∀ x y, (x, y) ∈ box x₀ y₀ x₁ y₁ → TopmostFrom s h x y (m.1 (cell s.xsize.toNat x y))
  outside : ∀ x y, OnScreen s x y → (x, y) ∉ box x₀ y₀ x₁ y₁ →
    m.1 (cell s.xsize.toNat x y) = s.map (cell s.xsize.toNat x y)
  count : m.2 = (free s (points x₀ y₀ x₁ y₁) m.1).card

lemma topmostFrom_next {h : ℤ} {sh : Sheet} {owner : Option ℕ} (hs : Heights s) (h₀ : 0 ≤ h)
    (hsh : s.sheet (s.sheets h.toNat) = some sh) (hht : sh.height = h) (habv : TopmostFrom s (h + 1) x y owner) :
    TopmostFrom s h x y (if owner = none ∧ sh.Shows x y then some (s.sheets h.toNat) else owner) := by
  -- a sheet of this height is this sheet
  have hthis : ∀ id' sh', s.sheet id' = some sh' → sh'.height = h → sh' = sh := by
    intro id' sh' hsh' hht'
    obtain ⟨-, hplc⟩ := (hs.place id' sh' hsh').2 (by omega)
    rw [hht'] at hplc
    rw [hplc, hsh'] at hsh
    exact Option.some.inj hsh
  cases hown : owner with
  | none =>
    rw [hown] at habv
    by_cases hshw : sh.Shows x y
    · rw [if_pos ⟨rfl, hshw⟩]
      refine ⟨sh, hsh, by omega, hshw, fun id' sh' hsh' hshw' => ?_⟩
      by_contra hlt
      exact habv id' sh' hsh' (by omega) hshw'
    · rw [if_neg fun hboth => hshw hboth.2]
      intro id' sh' hsh' hle hshw'
      by_cases hsame : sh'.height = h
      · rw [hthis id' sh' hsh' hsame] at hshw'
        exact hshw hshw'
      · exact habv id' sh' hsh' (by omega) hshw'
  | some id =>
    rw [hown] at habv
    rw [if_neg fun hboth => by cases hboth.1]
    obtain ⟨sh', hsh', hle, hshw, hhig⟩ := habv
    exact ⟨sh', hsh', by omega, hshw, hhig⟩

/-- What has been done to an area: its points have their owners and show them, all others are as before. -/
structure Repainted (s : Ctl) (area : Set (ℤ × ℤ)) (map : ℕ → Option ℕ) (vram : Buffer) : Prop where
  size : vram.size = s.vram.size
  owner : ∀ x y, OnScreen s x y → (x, y) ∈ area → Topmost s x y (map (cell s.xsize.toNat x y))
  pixel : ∀ x y id sh, OnScreen s x y → (x, y) ∈ area → map (cell s.xsize.toNat x y) = some id → s.sheet id = some sh →
    vram.pixel (cell s.stride x y) = s.colour (sh.at x y)
  map_outside : ∀ x y, OnScreen s x y → (x, y) ∉ area → map (cell s.xsize.toNat x y) = s.map (cell s.xsize.toNat x y)
  vram_outside : ∀ x y, OnScreen s x y → (x, y) ∉ area → vram.pixel (cell s.stride x y) = s.vram.pixel (cell s.stride x y)

lemma clear_spec (hs : Screen s) (harea : ∀ x y, (x, y) ∈ box x₀ y₀ x₁ y₁ → OnScreen s x y) :
    ∃ map, forBox x₀ y₀ x₁ y₁ (fun x y map => (s.mapIndex x y).map fun i => update map i none) s.map = some map ∧
      (∀ x y, (x, y) ∈ box x₀ y₀ x₁ y₁ → map (cell s.xsize.toNat x y) = none) ∧
      ∀ x y, OnScreen s x y → (x, y) ∉ box x₀ y₀ x₁ y₁ → map (cell s.xsize.toNat x y) = s.map (cell s.xsize.toNat x y) := by
  have hloop := forBox_spec x₀ y₀ x₁ y₁
    (fun x y map => (s.mapIndex x y).map fun i => update map i (none : Option ℕ))
    (fun done map => (∀ x y, OnScreen s x y → (x, y) ∈ done → map (cell s.xsize.toNat x y) = none) ∧
      ∀ x y, OnScreen s x y → (x, y) ∉ done → map (cell s.xsize.toNat x y) = s.map (cell s.xsize.toNat x y)) ?_ (s := s.map)
    ⟨fun _ _ _ hmem => absurd hmem (Set.notMem_empty _), fun _ _ _ _ => rfl⟩
  · obtain ⟨map, hmap, hin, hout⟩ := hloop
    exact ⟨map, hmap, fun x y hmem => hin x y (harea x y hmem) hmem, hout⟩
  · rintro x y done map hmem - ⟨hin, hout⟩
    have hon := harea x y hmem
    refine ⟨update map (cell s.xsize.toNat x y) none, ?_, fun u v hon' hdone => ?_, fun u v hon' hdone => ?_⟩
    · rw [mapIndex_eq hs hon]
      rfl
    · by_cases hcell : cell s.xsize.toNat u v = cell s.xsize.toNat x y
      · rw [hcell, update_self]
      · rw [update_of_ne hcell]
        refine hin u v hon' (Set.mem_of_mem_insert_of_ne hdone fun heq => hcell ?_)
        cases heq
        rfl
    · have hcell : cell s.xsize.toNat u v ≠ cell s.xsize.toNat x y := by
        intro heq
        obtain ⟨hu, hv⟩ := map_cell_inj hs hon' hon heq
        exact hdone (by rw [hu, hv]; exact Set.mem_insert _ _)
      rw [update_of_ne hcell]
      exact hout u v hon' fun hmem => hdone (Set.mem_insert_of_mem _ hmem)

lemma layers_spec (hs : Paintable s) (hx : x₀ ≤ x₁) (hy : y₀ ≤ y₁)
    (harea : ∀ x y, (x, y) ∈ box x₀ y₀ x₁ y₁ → OnScreen s x y) {map : ℕ → Option ℕ}
    (hclr : ∀ x y, (x, y) ∈ box x₀ y₀ x₁ y₁ → map (cell s.xsize.toNat x y) = none)
    (hout : ∀ x y, OnScreen s x y → (x, y) ∉ box x₀ y₀ x₁ y₁ →
      map (cell s.xsize.toNat x y) = s.map (cell s.xsize.toNat x y)) :
    ∃ m, forDown s.top 0 (layer s x₀ y₀ x₁ y₁) (map, ((x₁ - x₀) * (y₁ - y₀)).toNat) = some m ∧
      Composed s x₀ y₀ x₁ y₁ 0 m := by
  have htop := hs.heights.top
  refine forDown_spec _ _ _ (Composed s x₀ y₀ x₁ y₁) (by omega) ?_ ⟨?_, hout, ?_⟩
  · intro h m h₀ h₁ hm
    obtain ⟨id, sh, m', hsh, hht, rfl, hlayer, hin, hout', hcnt⟩ := layer_spec hs harea h₀ h₁ hm.count
    refine ⟨m', hlayer, fun x y hmem => ?_, fun x y hon hmem => ?_, hcnt⟩
    · rw [hin x y hmem]
      exact topmostFrom_next hs.heights h₀ hsh hht (hm.inside x y hmem)
    · rw [hout' x y hon hmem]
      exact hm.outside x y hon hmem
  · intro x y hmem
    dsimp only
    rw [hclr x y hmem]
    intro id sh hsh hle
    have hplc := (hs.heights.place id sh hsh).2 (by omega)
    omega
  · -- at first all points are free
    have hall : free s (points x₀ y₀ x₁ y₁) map = points x₀ y₀ x₁ y₁ := by
      refine Finset.filter_true_of_mem ?_
      rintro ⟨x, y⟩ hmem
      exact hclr x y (mem_points.mp hmem)
    dsimp only
    rw [hall]
    rw [card_points, Int.toNat_mul (by omega) (by omega)]

/-- **`sheet_recompose`** -/
theorem recompose_spec (hs : Paintable s) (x₀ y₀ x₁ y₁ : ℤ) :
    ∃ map vram, recompose s x₀ y₀ x₁ y₁ = some { s with map := map, vram := vram } ∧
      Repainted s (box x₀ y₀ x₁ y₁) map vram := by
  have hclip : ∀ x y, (x, y) ∈ clipped s x₀ y₀ x₁ y₁ → OnScreen s x y := fun _ _ => clipped_onScreen
  unfold recompose
  dsimp only
  by_cases hemp : max x₀ 0 ≥ min x₁ s.xsize ∨ max y₀ 0 ≥ min y₁ s.ysize
  · rw [if_pos hemp]
    have hnone : ∀ x y, OnScreen s x y → (x, y) ∉ box x₀ y₀ x₁ y₁ := by
      rintro x y ⟨hx₀, hx₁, hy₀, hy₁⟩ hmem
      rw [mem_box] at hmem
      dsimp only at *
      omega
    exact ⟨s.map, s.vram, rfl, rfl, fun x y hon hmem => absurd hmem (hnone x y hon),
      fun x y _ _ hon hmem => absurd hmem (hnone x y hon), fun _ _ _ _ => rfl, fun _ _ _ _ => rfl⟩
  · rw [if_neg hemp]
    obtain ⟨map, hmap, hclr, hout⟩ := clear_spec hs.screen hclip
    obtain ⟨m, hm, hcom⟩ := layers_spec hs (by omega) (by omega) hclip hclr hout
    have hscr : Screen { s with map := m.1 } := ⟨hs.screen.xsize, hs.screen.ysize, hs.screen.stride, hs.screen.vram⟩
    have howd : Owned { s with map := m.1 } 0 s.top
        (clipped { s with map := m.1 } (max x₀ 0) (max y₀ 0) (min x₁ s.xsize) (min y₁ s.ysize)) := by
      intro x y id hmem hown
      have hmem' : (x, y) ∈ clipped s x₀ y₀ x₁ y₁ := by
        unfold clipped at hmem ⊢
        rw [mem_box] at hmem ⊢
        dsimp only at hmem
        omega
      have htopm := hcom.inside x y hmem'
      dsimp only at hown
      rw [hown] at htopm
      obtain ⟨sh, hsh, -, hshw, -⟩ := htopm
      exact ⟨sh, hsh, fun hlow _ => ⟨hs.fitting id sh hsh hlow, hshw.1⟩⟩
    obtain ⟨vram, hvram, hrefr⟩ := refreshsub_spec hscr howd
    have harea : clipped { s with map := m.1 } (max x₀ 0) (max y₀ 0) (min x₁ s.xsize) (min y₁ s.ysize) =
        clipped s x₀ y₀ x₁ y₁ := by
      unfold clipped
      ext ⟨x, y⟩
      rw [mem_box, mem_box]
      dsimp only
      omega
    rw [harea] at hrefr
    refine ⟨m.1, vram, ?_, hrefr.size, fun x y hon hmem => hcom.inside x y ((mem_clipped hon).mpr hmem), ?_,
      fun x y hon hmem => hcom.outside x y hon fun hin => hmem ((mem_clipped hon).mp hin),
      fun x y hon hmem => hrefr.outside x y hon fun hin => hmem ((mem_clipped hon).mp hin)⟩
    · rw [hmap, Option.bind_some, hm, Option.bind_some]
      exact hvram
    · intro x y id sh hon hmem hown hsh
      have hin := (mem_clipped hon).mpr hmem
      have htopm := hcom.inside x y hin
      rw [hown] at htopm
      obtain ⟨sh', hsh', hlow, -, -⟩ := htopm
      rw [hsh] at hsh'
      cases hsh'
      have hhigh := ((hs.heights.place id sh hsh).2 hlow).1
      refine (hrefr.inside x y hon hin).trans ?_
      have hpain : painted { s with map := m.1 } 0 s.top x y = some (s.colour (sh.at x y)) := by
        unfold painted
        dsimp only
        rw [hown, Option.bind_some, hsh, Option.bind_some, if_neg (by omega)]
        rfl
      rw [hpain]
      rfl

/-! ## The order of the sheets -/

open Option (bind_some map_some)

/-! ### Down -/

/-- The sheets of heights above `old` up to `i` have come down. -/
def lowered (s : Ctl) (old i : ℤ) : Ctl :=
  { s with
    sheets := fun j => if old ≤ j ∧ (j : ℤ) < i then s.sheets (j + 1) else s.sheets j
    sheet := fun id => (s.sheet id).map fun sh =>
      { sh with height := if old < sh.height ∧ sh.height ≤ i then sh.height - 1 else sh.height } }

/-- The sheets of heights from `i` on, other than one, have gone up. -/
def raised (s : Ctl) (id : ℕ) (i : ℤ) : Ctl :=
  { s with
    sheets := fun j => if i < j ∧ (j : ℤ) ≤ s.top + 1 then s.sheets (j - 1) else s.sheets j
    sheet := fun id' => (s.sheet id').map fun sh =>
      { sh with height := if id' ≠ id ∧ i ≤ sh.height then sh.height + 1 else sh.height } }

section Order

variable {s : Ctl} {id : ℕ}

lemma Heights.unique (hs : Heights s) {h : ℤ} {id' : ℕ} {sh' : Sheet} (h₀ : 0 ≤ h) (hsh : s.sheet id' = some sh')
    (hht : sh'.height = h) : id' = s.sheets h.toNat := by
  have hplc := ((hs.place id' sh' hsh).2 (by omega)).2
  rw [hht] at hplc
  exact hplc.symm

lemma lower_step (hs : Heights s) (hroom : s.top < s.capacity) {old i : ℤ} (hold : 0 ≤ old) (hi : old ≤ i) (hi' : i < s.top) :
    ((lowered s old i).sheetAt (i + 1)).bind (fun id => ((lowered s old i).setSheetAt i id).bind fun s' =>
      s'.setHeightAt i i) = some (lowered s old (i + 1)) := by
  obtain ⟨sh, hsh, hht⟩ := hs.taken (i + 1) (by omega) (by omega)
  obtain ⟨n, rfl⟩ := Int.eq_ofNat_of_zero_le (le_trans hold hi)
  have hnat : ((n : ℤ) + 1).toNat = n + 1 := by omega
  have hself : ((n : ℤ)).toNat = n := Int.toNat_natCast n
  have hread : (lowered s old n).sheetAt ((n : ℤ) + 1) = some (s.sheets (n + 1)) := by
    unfold Ctl.sheetAt lowered
    dsimp only
    rw [if_pos ⟨by omega, by omega⟩, hnat, if_neg (by omega)]
  have hwr : (lowered s old n).setSheetAt n (s.sheets (n + 1)) =
      some { lowered s old n with sheets := update (lowered s old n).sheets n (s.sheets (n + 1)) } := by
    unfold Ctl.setSheetAt
    rw [hself]
    exact if_pos ⟨by omega, by unfold lowered; dsimp only; omega⟩
  rw [hread, bind_some, hwr, bind_some]
  rw [hnat] at hsh
  have hplc : ({ lowered s old n with
      sheets := update (lowered s old n).sheets n (s.sheets (n + 1)) } : Ctl).sheetAt n = some (s.sheets (n + 1)) := by
    unfold Ctl.sheetAt
    dsimp only
    rw [if_pos ⟨by omega, by unfold lowered; dsimp only; omega⟩, hself, update_self]
  unfold Ctl.setHeightAt
  rw [hplc, bind_some]
  unfold lowered
  dsimp only
  rw [hsh]
  refine congrArg some ?_
  unfold Ctl.setSheet
  dsimp only
  congr 1
  · funext j
    by_cases hj : j = n
    · subst hj
      rw [update_self, if_pos (by omega)]
    · rw [update_of_ne hj]
      by_cases hcase : old ≤ (j : ℤ) ∧ (j : ℤ) < n
      · rw [if_pos hcase, if_pos (by omega)]
      · rw [if_neg hcase, if_neg (by omega)]
  · funext id'
    by_cases hid : id' = s.sheets (n + 1)
    · subst hid
      rw [update_self, hsh, map_some, if_pos (by omega)]
      refine congrArg some (congrArg (fun h => { sh with height := h }) ?_)
      omega
    · rw [update_of_ne hid]
      cases hsh' : s.sheet id' with
      | none => rfl
      | some sh' =>
        have hne : sh'.height ≠ n + 1 := by
          intro heq
          have huniq := hs.unique (by omega) hsh' heq
          rw [hnat] at huniq
          exact hid huniq
        rw [map_some, map_some]
        refine congrArg some (congrArg (fun h => { sh' with height := h }) ?_)
        by_cases hcase : old < sh'.height ∧ sh'.height ≤ n
        · rw [if_pos hcase, if_pos (by omega)]
        · rw [if_neg hcase, if_neg (by omega)]

lemma lower_spec (hs : Heights s) (hroom : s.top < s.capacity) {old : ℤ} (hold : 0 ≤ old) (htop : old ≤ s.top) :
    lower s old = some { lowered s old s.top with top := s.top - 1 } := by
  unfold lower
  rw [if_pos hold]
  obtain ⟨s', hs', hdone⟩ := forUp_spec old s.top
    (fun i s => (s.sheetAt (i + 1)).bind fun id => (s.setSheetAt i id).bind fun s => s.setHeightAt i i)
    (fun i s' => s' = lowered s old i) (fun i s' hi hi' heq => ⟨_, by rw [heq]; exact lower_step hs hroom hold hi hi', rfl⟩)
    (s := s) (by
      unfold lowered
      have hsheet : s.sheets = fun j : ℕ => if old ≤ (j : ℤ) ∧ (j : ℤ) < old then s.sheets (j + 1) else s.sheets j :=
        funext fun j => (if_neg (by omega)).symm
      have hsh : s.sheet = fun id => (s.sheet id).map fun sh =>
          { sh with height := if old < sh.height ∧ sh.height ≤ old then sh.height - 1 else sh.height } := by
        funext id
        cases s.sheet id with
        | none => rfl
        | some sh =>
          rw [map_some, if_neg (by omega)]
      rw [← hsheet, ← hsh])
  rw [max_eq_right htop] at hdone
  rw [hs', hdone]
  rfl

/-! ### Up -/

/-- The heights of the visible sheets, leaving out one that is about to get a height -/
structure HeightsBut (s : Ctl) (id : ℕ) : Prop where
  top : -1 ≤ s.top
  taken : ∀ h, 0 ≤ h → h ≤ s.top → s.sheets h.toNat ≠ id ∧ ∃ sh, s.sheet (s.sheets h.toNat) = some sh ∧ sh.height = h
  place : ∀ id' sh, id' ≠ id → s.sheet id' = some sh → -1 ≤ sh.height ∧
    (0 ≤ sh.height → sh.height ≤ s.top ∧ s.sheets sh.height.toNat = id')

lemma HeightsBut.unique (hs : HeightsBut s id) {h : ℤ} {id' : ℕ} {sh' : Sheet} (h₀ : 0 ≤ h) (hne : id' ≠ id)
    (hsh : s.sheet id' = some sh') (hht : sh'.height = h) : id' = s.sheets h.toNat := by
  have hplc := ((hs.place id' sh' hne hsh).2 (by omega)).2
  rw [hht] at hplc
  exact hplc.symm

lemma raise_step (hs : HeightsBut s id) (hroom : s.top + 1 < s.capacity) {i : ℤ} (hi : 0 ≤ i) (hi' : i ≤ s.top) :
    ((raised s id (i + 1)).sheetAt i).bind (fun w => ((raised s id (i + 1)).setSheetAt (i + 1) w).bind fun s' =>
      s'.setHeightAt (i + 1) (i + 1)) = some (raised s id i) := by
  obtain ⟨hoth, sh, hsh, hht⟩ := hs.taken i hi hi'
  obtain ⟨n, rfl⟩ := Int.eq_ofNat_of_zero_le hi
  have hself : ((n : ℤ)).toNat = n := Int.toNat_natCast n
  have hnat : ((n : ℤ) + 1).toNat = n + 1 := by omega
  rw [hself] at hoth hsh
  have hread : (raised s id ((n : ℤ) + 1)).sheetAt n = some (s.sheets n) := by
    unfold Ctl.sheetAt raised
    dsimp only
    rw [if_pos ⟨by omega, by omega⟩, hself, if_neg (by omega)]
  have hwr : (raised s id ((n : ℤ) + 1)).setSheetAt ((n : ℤ) + 1) (s.sheets n) = some { raised s id ((n : ℤ) + 1) with
      sheets := update (raised s id ((n : ℤ) + 1)).sheets (n + 1) (s.sheets n) } := by
    unfold Ctl.setSheetAt
    rw [hnat]
    exact if_pos ⟨by omega, by unfold raised; dsimp only; omega⟩
  rw [hread, bind_some, hwr, bind_some]
  have hplc : ({ raised s id ((n : ℤ) + 1) with
      sheets := update (raised s id ((n : ℤ) + 1)).sheets (n + 1) (s.sheets n) } : Ctl).sheetAt ((n : ℤ) + 1) =
      some (s.sheets n) := by
    unfold Ctl.sheetAt
    dsimp only
    rw [if_pos ⟨by omega, by unfold raised; dsimp only; omega⟩, hnat, update_self]
  unfold Ctl.setHeightAt
  rw [hplc, bind_some]
  unfold raised
  dsimp only
  rw [hsh]
  refine congrArg some ?_
  unfold Ctl.setSheet
  dsimp only
  congr 1
  · funext j
    by_cases hj : j = n + 1
    · subst hj
      rw [update_self, if_pos (by omega)]
      rfl
    · rw [update_of_ne hj]
      by_cases hcase : (n : ℤ) + 1 < j ∧ (j : ℤ) ≤ s.top + 1
      · rw [if_pos hcase, if_pos (by omega)]
      · rw [if_neg hcase, if_neg (by omega)]
  · funext id'
    by_cases hid : id' = s.sheets n
    · subst hid
      rw [update_self, hsh, map_some, if_pos ⟨hoth, by omega⟩, hht]
    · rw [update_of_ne hid]
      cases hsh' : s.sheet id' with
      | none => rfl
      | some sh' =>
        rw [map_some, map_some]
        refine congrArg some (congrArg (fun h => { sh' with height := h }) ?_)
        by_cases hcase : id' ≠ id ∧ (n : ℤ) + 1 ≤ sh'.height
        · rw [if_pos hcase, if_pos ⟨hcase.1, by omega⟩]
        · rw [if_neg hcase, if_neg]
          rintro ⟨hne, hle⟩
          have huniq := hs.unique hi hne hsh' (by omega)
          rw [hself] at huniq
          exact hid huniq

/-- **The sheets from the new place on go up**, and the sheet is there. -/
lemma raise_spec (hs : HeightsBut s id) (hroom : s.top + 1 < s.capacity) {height : ℤ} (h₀ : 0 ≤ height)
    (htop : height ≤ s.top + 1) :
    raise s id height = some { raised s id height with
      sheets := update (raised s id height).sheets height.toNat id
      top := s.top + 1 } := by
  unfold raise
  rw [if_pos h₀]
  have hstar : s = raised s id (s.top + 1) := by
    unfold raised
    have hsheet : s.sheets = fun j : ℕ => if s.top + 1 < (j : ℤ) ∧ (j : ℤ) ≤ s.top + 1 then s.sheets (j - 1)
        else s.sheets j := funext fun j => (if_neg (by omega)).symm
    have hsh : s.sheet = fun id' => (s.sheet id').map fun sh =>
        { sh with height := if id' ≠ id ∧ s.top + 1 ≤ sh.height then sh.height + 1 else sh.height } := by
      funext id'
      cases hsh : s.sheet id' with
      | none => rfl
      | some sh =>
        rw [map_some, if_neg]
        rintro ⟨hne, hle⟩
        have htop' := hs.top
        have hplc := (hs.place id' sh hne hsh).2 (by omega)
        omega
    rw [← hsheet, ← hsh]
  obtain ⟨s', hs', hdone⟩ := forDown_spec s.top height
    (fun i s => (s.sheetAt i).bind fun w => (s.setSheetAt (i + 1) w).bind fun s => s.setHeightAt (i + 1) (i + 1))
    (fun i s' => s' = raised s id i) htop
    (fun i s' hi hi' heq => ⟨_, by rw [heq]; exact raise_step hs hroom (by omega) hi', rfl⟩) hstar
  rw [hs', hdone, bind_some]
  unfold Ctl.setSheetAt
  have hin : 0 ≤ height ∧ height < ((raised s id height).capacity : ℤ) := by
    refine ⟨h₀, ?_⟩
    unfold raised
    dsimp only
    omega
  rw [if_pos hin]
  rfl

/-! ### The new order -/

/-- The other sheets have heights in the same order, and the same of them are visible. -/
structure Renumbered (s s' : Ctl) (id : ℕ) (f : ℤ → ℤ) : Prop where
  state : s' = { s with sheets := s'.sheets, sheet := s'.sheet, top := s'.top }
  this : s'.sheet id = s.sheet id
  others : ∀ id', id' ≠ id → s'.sheet id' = (s.sheet id').map fun sh => { sh with height := f sh.height }
  mono : ∀ a b, a ≤ b → f a ≤ f b
  visible : ∀ a, 0 ≤ f a ↔ 0 ≤ a

lemma Renumbered.refl : Renumbered s s id fun h => h := by
  refine ⟨rfl, rfl, fun id' _ => ?_, fun _ _ h => h, fun _ => Iff.rfl⟩
  cases s.sheet id' <;> rfl

lemma Renumbered.trans {s₁ s₂ : Ctl} {f g : ℤ → ℤ} (h : Renumbered s s₁ id f) (h' : Renumbered s₁ s₂ id g) :
    Renumbered s s₂ id fun a => g (f a) := by
  refine ⟨?_, h'.this.trans h.this, fun id' hne => ?_, fun a b hab => h'.mono _ _ (h.mono a b hab),
    fun a => (h'.visible _).trans (h.visible a)⟩
  · rw [h'.state, h.state]
  · rw [h'.others id' hne, h.others id' hne, Option.map_map]
    rfl

variable {sh : Sheet}

lemma lowered_spec (hs : Heights s) (hsh : s.sheet id = some sh) (hvis : 0 ≤ sh.height) :
    HeightsBut { lowered s sh.height s.top with top := s.top - 1 } id ∧
      Renumbered s { lowered s sh.height s.top with top := s.top - 1 } id fun h => if sh.height < h then h - 1 else h := by
  obtain ⟨htop, hplc⟩ := (hs.place id sh hsh).2 hvis
  have hbd : ∀ id' sh', s.sheet id' = some sh' → sh'.height ≤ s.top := by
    intro id' sh' hsh'
    by_cases h₀ : 0 ≤ sh'.height
    · exact ((hs.place id' sh' hsh').2 h₀).1
    · omega
  constructor
  · refine ⟨by dsimp only; omega, fun h h₀ h₁ => ?_, fun id' sh' hne hsh' => ?_⟩
    · unfold lowered
      dsimp only at h₁ ⊢
      by_cases hcase : sh.height ≤ h
      · obtain ⟨sh', hsh', hht'⟩ := hs.taken (h + 1) (by omega) (by omega)
        have hnat : (h + 1).toNat = h.toNat + 1 := by omega
        rw [hnat] at hsh'
        rw [if_pos (by omega)]
        refine ⟨fun heq => ?_, _, by rw [hsh', map_some], by dsimp only; rw [if_pos (by omega)]; omega⟩
        rw [heq, hsh] at hsh'
        cases hsh'
        omega
      · obtain ⟨sh', hsh', hht'⟩ := hs.taken h h₀ (by omega)
        rw [if_neg (by omega)]
        refine ⟨fun heq => ?_, _, by rw [hsh', map_some], by dsimp only; rw [if_neg (by omega)]; omega⟩
        rw [heq, hsh] at hsh'
        cases hsh'
        omega
    · unfold lowered at hsh' ⊢
      dsimp only at hsh' ⊢
      obtain ⟨sh₀, hsh₀, rfl⟩ := Option.map_eq_some_iff.mp hsh'
      obtain ⟨hlow, hplc₀⟩ := hs.place id' sh₀ hsh₀
      have hapar : sh₀.height ≠ sh.height := by
        intro heq
        have huniq := hs.unique hvis hsh₀ heq
        rw [hplc] at huniq
        exact hne huniq
      dsimp only
      have hle := hbd id' sh₀ hsh₀
      by_cases habv : sh.height < sh₀.height
      · rw [if_pos ⟨habv, hle⟩]
        refine ⟨by omega, fun _ => ⟨by omega, ?_⟩⟩
        have hnat : (sh₀.height - 1).toNat + 1 = sh₀.height.toNat := by omega
        rw [if_pos (by omega), hnat]
        exact (hplc₀ (by omega)).2
      · rw [if_neg fun hboth => habv hboth.1]
        refine ⟨hlow, fun h₀ => ⟨by omega, ?_⟩⟩
        rw [if_neg (by omega)]
        exact (hplc₀ h₀).2
  · refine ⟨rfl, ?_, fun id' hne => ?_, fun a b hab => ?_, fun a => ?_⟩
    · unfold lowered
      dsimp only
      rw [hsh, map_some, if_neg (by omega)]
    · unfold lowered
      dsimp only
      cases hsh' : s.sheet id' with
      | none => rfl
      | some sh' =>
        have hle := hbd id' sh' hsh'
        rw [map_some, map_some]
        refine congrArg some (congrArg (fun h => { sh' with height := h }) ?_)
        by_cases habv : sh.height < sh'.height
        · rw [if_pos ⟨habv, hle⟩, if_pos habv]
        · rw [if_neg fun hboth => habv hboth.1, if_neg habv]
    · split_ifs <;> omega
    · split_ifs <;> omega

lemma HeightsBut.hidden (hs : HeightsBut s id) (hht : sh.height = -1) : Heights (s.setSheet id sh) := by
  refine ⟨hs.top, fun h h₀ h₁ => ?_, fun id' sh' hsh' => ?_⟩
  · obtain ⟨hne, sh', hsh', hht'⟩ := hs.taken h h₀ h₁
    exact ⟨sh', (update_of_ne hne _ _).trans hsh', hht'⟩
  · unfold Ctl.setSheet at hsh' ⊢
    dsimp only at hsh' ⊢
    rcases update_cases hsh' with ⟨rfl, ⟨⟩⟩ | ⟨hid, hsh'⟩
    · omega
    · exact hs.place id' sh' hid hsh'

lemma raised_spec {height : ℤ} (hs : HeightsBut s id) (h₀ : 0 ≤ height) (htop : height ≤ s.top + 1)
    (hht : sh.height = height) :
    Heights (({ raised s id height with
        sheets := update (raised s id height).sheets height.toNat id
        top := s.top + 1 } : Ctl).setSheet id sh) ∧
      Renumbered s { raised s id height with
        sheets := update (raised s id height).sheets height.toNat id
        top := s.top + 1 } id fun h => if height ≤ h then h + 1 else h := by
  constructor
  · unfold Ctl.setSheet raised
    refine ⟨by dsimp only; omega, fun h hh₀ hh₁ => ?_, fun id' sh' hsh' => ?_⟩
    · dsimp only at hh₁ ⊢
      by_cases hsame : h = height
      · subst hsame
        rw [update_self, update_self]
        exact ⟨sh, rfl, hht⟩
      · have hnat : h.toNat ≠ height.toNat := by omega
        rw [update_of_ne hnat]
        by_cases habv : height < h
        · obtain ⟨hne, sh', hsh', hht'⟩ := hs.taken (h - 1) (by omega) (by omega)
          have hpred : (h - 1).toNat = h.toNat - 1 := by omega
          rw [hpred] at hne hsh'
          rw [if_pos (by omega), update_of_ne hne, hsh', map_some, if_pos ⟨hne, by omega⟩]
          exact ⟨_, rfl, by dsimp only; omega⟩
        · obtain ⟨hne, sh', hsh', hht'⟩ := hs.taken h hh₀ (by omega)
          rw [if_neg (by omega), update_of_ne hne, hsh', map_some, if_neg (by omega)]
          exact ⟨_, rfl, hht'⟩
    · dsimp only at hsh' ⊢
      rcases update_cases hsh' with ⟨rfl, ⟨⟩⟩ | ⟨hid, hsh'⟩
      · rw [hht]
        exact ⟨by omega, fun _ => ⟨htop, update_self _ _ _⟩⟩
      · obtain ⟨sh₀, hsh₀, rfl⟩ := Option.map_eq_some_iff.mp hsh'
        obtain ⟨hlow, hplc⟩ := hs.place id' sh₀ hid hsh₀
        dsimp only
        by_cases habv : height ≤ sh₀.height
        · rw [if_pos ⟨hid, habv⟩]
          refine ⟨by omega, fun _ => ⟨by omega, ?_⟩⟩
          have hnat : (sh₀.height + 1).toNat ≠ height.toNat := by omega
          have hpred : (sh₀.height + 1).toNat - 1 = sh₀.height.toNat := by omega
          obtain ⟨hle, hat⟩ := hplc (by omega)
          rw [update_of_ne hnat, if_pos (by omega), hpred]
          exact hat
        · rw [if_neg fun hboth => habv hboth.2]
          refine ⟨hlow, fun hh₀ => ⟨by omega, ?_⟩⟩
          have hnat : sh₀.height.toNat ≠ height.toNat := by omega
          rw [update_of_ne hnat, if_neg (by omega)]
          exact (hplc hh₀).2
  · refine ⟨rfl, ?_, fun id' hne => ?_, fun a b hab => ?_, fun a => ?_⟩
    · unfold raised
      dsimp only
      cases s.sheet id with
      | none => rfl
      | some sh' =>
        rw [map_some, if_neg fun hboth => hboth.1 rfl]
    · unfold raised
      dsimp only
      cases s.sheet id' with
      | none => rfl
      | some sh' =>
        rw [map_some, map_some]
        refine congrArg some (congrArg (fun h => { sh' with height := h }) ?_)
        by_cases habv : height ≤ sh'.height
        · rw [if_pos ⟨hne, habv⟩, if_pos habv]
        · rw [if_neg fun hboth => habv hboth.2, if_neg habv]
    · split_ifs <;> omega
    · split_ifs <;> omega

lemma Heights.but (hs : Heights s) (hsh : s.sheet id = some sh) (hhid : sh.height < 0) :
    HeightsBut s id := by
  refine ⟨hs.top, fun h h₀ h₁ => ?_, fun id' sh' _ hsh' => hs.place id' sh' hsh'⟩
  obtain ⟨sh', hsh', hht'⟩ := hs.taken h h₀ h₁
  refine ⟨fun heq => ?_, sh', hsh', hht'⟩
  rw [heq, hsh] at hsh'
  cases hsh'
  omega

/-- **`sheet_updown` before it paints**: the sheet has the height, the others are in the same order. -/
theorem order_spec (sh' : Sheet) (height : ℤ) (hs : Heights s) (hroom : s.top < s.capacity)
    (hmore : sh.height < 0 → s.top + 1 < s.capacity) (hsh : s.sheet id = some sh) (hlow : -1 ≤ height)
    (hhigh : height ≤ if sh.height < 0 then s.top + 1 else s.top) (hht : sh'.height = height) :
    ∃ s₁ s₂ f, lower s sh.height = some s₁ ∧ raise s₁ id height = some s₂ ∧ Heights (s₂.setSheet id sh') ∧
      Renumbered s s₂ id f := by
  have hlower : ∃ s₁ f, lower s sh.height = some s₁ ∧ HeightsBut s₁ id ∧ Renumbered s s₁ id f ∧ height ≤ s₁.top + 1 ∧
      s₁.top + 1 < s₁.capacity := by
    by_cases hhid : sh.height < 0
    · rw [if_pos hhid] at hhigh
      exact ⟨s, _, if_neg (by omega), hs.but hsh hhid, .refl, hhigh, hmore hhid⟩
    · rw [if_neg hhid] at hhigh
      have hplc := (hs.place id sh hsh).2 (by omega)
      obtain ⟨hbut, hren⟩ := lowered_spec hs hsh (by omega)
      refine ⟨_, _, lower_spec hs hroom (by omega) hplc.1, hbut, hren, by dsimp only; omega, ?_⟩
      unfold lowered
      dsimp only
      omega
  obtain ⟨s₁, f, hlo, hbut, hren, hle, hroom₁⟩ := hlower
  by_cases h₀ : 0 ≤ height
  · obtain ⟨hhts, hren'⟩ := raised_spec hbut h₀ hle hht
    exact ⟨s₁, _, _, hlo, raise_spec hbut hroom₁ h₀ hle, hhts, hren.trans hren'⟩
  · exact ⟨s₁, s₁, f, hlo, if_neg (by omega), hbut.hidden (by omega), hren⟩

end Order

end PlantOS.Gui.Compositor
