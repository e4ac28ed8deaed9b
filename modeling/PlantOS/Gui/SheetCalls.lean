import PlantOS.Gui.Paint

/-!
# Runs of the compositor

The invariant: the map names the topmost sheets, and the framebuffer shows their pixels, other than those that changed
since they were painted.
-/

namespace PlantOS.Gui.Compositor

open Lib

/-- A call of the compositor, or a pixel that a program writes -/
inductive Call
  | alloc (grown : Bool) (address : Option ℕ)
  | setbuf (id : ℕ) (buffer : Buffer) (width height transparent : ℤ)
  | updown (id : ℕ) (height : ℤ)
  | slide (id : ℕ) (x y : ℤ)
  | refresh (id : ℕ) (x₀ y₀ x₁ y₁ : ℤ)
  | free (id : ℕ)
  | draw (id : ℕ) (x y : ℤ) (p : Pixel)

def call (s : Ctl) : Call → Option Ctl
  | .alloc grown address => sheet_alloc s grown address
  | .setbuf id buffer width height transparent => sheet_setbuf s id buffer width height transparent
  | .updown id height => sheet_updown s id height
  | .slide id x y => sheet_slide s id x y
  | .refresh id x₀ y₀ x₁ y₁ => sheet_refresh s id x₀ y₀ x₁ y₁
  | .free id => sheet_free s id
  | .draw id x y p => draw s id x y p

/-- `shtctl_init`, and the framebuffer that the desktop is displayed in -/
structure Init (s : Ctl) : Prop where
  screen : Screen s
  map : ∀ i, s.map i = none
  top : s.top = -1
  allocated : s.allocated = []
  count : s.count = 0
  sheet : ∀ id, s.sheet id = none

def system : System Ctl Call where
  init := Init
  step := call

/-- What callers keep to: calls are about sheets that exist, arguments are `int`s, a buffer is as large as the sheet,
`calloc` gives an address that is not in use, and pixels of a visible sheet stay transparent or opaque. -/
def Proper (s : Ctl) : Call → Prop
  | .alloc _ address => ∀ id, address = some id → s.sheet id = none
  | .setbuf id buffer width height _ =>
    (∃ sh, s.sheet id = some sh) ∧ IsInt width ∧ IsInt height ∧ width.toNat * height.toNat ≤ buffer.size
  | .updown id _ => ∃ sh, s.sheet id = some sh
  | .slide id x y => (∃ sh, s.sheet id = some sh) ∧ IsInt x ∧ IsInt y
  | .refresh id _ _ _ _ => ∃ sh, s.sheet id = some sh
  | .free id => ∃ sh, s.sheet id = some sh
  | .draw id x y p => ∃ sh, s.sheet id = some sh ∧ 0 ≤ x ∧ x < sh.bxsize ∧ 0 ≤ y ∧ y < sh.bysize ∧
      (0 ≤ sh.height → sh.col_inv ≠ -1 →
        (p = BitVec.ofInt 32 sh.col_inv ↔ sh.buf.pixel (cell sh.bxsize.toNat x y) = BitVec.ofInt 32 sh.col_inv))

/-- **The ends of visible sheets and of refreshed areas are `int`s.** -/
def Ends (s : Ctl) : Call → Prop
  | .setbuf id _ width height _ => ∀ sh, s.sheet id = some sh → 0 ≤ sh.height →
      IsInt (sh.vx0 + width) ∧ IsInt (sh.vy0 + height)
  | .updown id height => ∀ sh, s.sheet id = some sh → 0 ≤ height →
      IsInt (sh.vx0 + sh.bxsize) ∧ IsInt (sh.vy0 + sh.bysize)
  | .slide id x y => ∀ sh, s.sheet id = some sh → 0 ≤ sh.height → IsInt (x + sh.bxsize) ∧ IsInt (y + sh.bysize)
  | .refresh id x₀ y₀ x₁ y₁ => ∀ sh, s.sheet id = some sh → 0 ≤ sh.height →
      IsInt (sh.vx0 + x₀) ∧ IsInt (sh.vy0 + y₀) ∧ IsInt (sh.vx0 + x₁) ∧ IsInt (sh.vy0 + y₁)
  | _ => True

def Allowed (s : Ctl) (e : Call) : Prop := Proper s e ∧ Ends s e

/-! ### The invariant -/

structure Memory (s : Ctl) : Prop where
  nodup : s.allocated.Nodup
  allocated : ∀ id, id ∈ s.allocated ↔ ∃ sh, s.sheet id = some sh
  count : s.count = s.allocated.length
  capacity : s.count ≤ s.capacity

structure Sizes (s : Ctl) : Prop where
  buffer : ∀ id sh, s.sheet id = some sh → IsInt sh.bxsize ∧ IsInt sh.bysize ∧
    sh.bxsize.toNat * sh.bysize.toNat ≤ sh.buf.size
  ends : ∀ id sh, s.sheet id = some sh → 0 ≤ sh.height → IsInt (sh.vx0 + sh.bxsize) ∧ IsInt (sh.vy0 + sh.bysize)

structure Sound (s : Ctl) : Prop where
  screen : Screen s
  heights : Heights s
  memory : Memory s
  sizes : Sizes s

/-- Every point has the topmost sheet as its owner, and shows its pixel, unless that changed since it was painted. -/
structure Shown (s : Ctl) : Prop where
  owner : ∀ x y, OnScreen s x y → Topmost s x y (s.map (cell s.xsize.toNat x y))
  pixel : ∀ x y id sh, OnScreen s x y → s.map (cell s.xsize.toNat x y) = some id → s.sheet id = some sh →
    (x - sh.vx0, y - sh.vy0) ∉ sh.stale → s.vram.pixel (cell s.stride x y) = s.colour (sh.at x y)

structure Inv (s : Ctl) : Prop where
  sound : Sound s
  shown : Shown s

section Facts

variable {s s₁ : Ctl} {id : ℕ} {sh : Sheet} {x y : ℤ} {o o' : Option ℕ}

lemma visible_nodup (hh : Heights s) : ((List.range (s.top + 1).toNat).map s.sheets).Nodup := by
  refine List.Nodup.map_on ?_ List.nodup_range
  intro m hmem n hmem' heq
  rw [List.mem_range] at hmem hmem'
  obtain ⟨sh, hsh, hht⟩ := hh.taken m (by omega) (by omega)
  obtain ⟨sh', hsh', hht'⟩ := hh.taken n (by omega) (by omega)
  rw [Int.toNat_natCast] at hsh hsh'
  rw [heq, hsh'] at hsh
  cases hsh
  omega

lemma visible_sheet (hh : Heights s) (hmem : id ∈ (List.range (s.top + 1).toNat).map s.sheets) :
    ∃ sh, s.sheet id = some sh ∧ 0 ≤ sh.height := by
  obtain ⟨n, hn, rfl⟩ := List.mem_map.mp hmem
  rw [List.mem_range] at hn
  obtain ⟨sh, hsh, hht⟩ := hh.taken n (by omega) (by omega)
  exact ⟨sh, hsh, by omega⟩

lemma top_lt (hh : Heights s) (hm : Memory s) : s.top < s.count := by
  have hsub : (List.range (s.top + 1).toNat).map s.sheets ⊆ s.allocated := by
    intro id hmem
    obtain ⟨sh, hsh, -⟩ := visible_sheet hh hmem
    exact (hm.allocated id).mpr ⟨sh, hsh⟩
  have hle := ((visible_nodup hh).subperm hsub).length_le
  rw [List.length_map, List.length_range, ← hm.count] at hle
  omega

lemma hidden_lt (hh : Heights s) (hm : Memory s) (hsh : s.sheet id = some sh) (hhid : sh.height < 0) :
    s.top + 1 < s.count := by
  have hnd : (id :: (List.range (s.top + 1).toNat).map s.sheets).Nodup := by
    refine List.nodup_cons.mpr ⟨fun hmem => ?_, visible_nodup hh⟩
    obtain ⟨sh', hsh', hvis⟩ := visible_sheet hh hmem
    rw [hsh] at hsh'
    cases hsh'
    omega
  have hsub : (id :: (List.range (s.top + 1).toNat).map s.sheets) ⊆ s.allocated := by
    intro id' hmem
    rcases List.mem_cons.mp hmem with rfl | hmem
    · exact (hm.allocated _).mpr ⟨sh, hsh⟩
    · obtain ⟨sh', hsh', -⟩ := visible_sheet hh hmem
      exact (hm.allocated id').mpr ⟨sh', hsh'⟩
  have hle := (hnd.subperm hsub).length_le
  rw [List.length_cons, List.length_map, List.length_range, ← hm.count] at hle
  omega

lemma Sound.paintable (hs : Sound s) : Paintable s := by
  refine ⟨hs.screen, hs.heights, ?_, fun id sh hsh hvis => ?_⟩
  · have hlt := top_lt hs.heights hs.memory
    have hle := hs.memory.capacity
    omega
  · obtain ⟨hw, hh, hsize⟩ := hs.sizes.buffer id sh hsh
    obtain ⟨hrig, hbot⟩ := hs.sizes.ends id sh hsh hvis
    exact ⟨hw, hh, hrig, hbot, hsize⟩

lemma topmost_unique (hh : Heights s) (h : Topmost s x y o) (h' : Topmost s x y o') : o = o' := by
  cases o with
  | none =>
    cases o' with
    | none => rfl
    | some id' =>
      obtain ⟨sh', hsh', hlow, hshw, -⟩ := h'
      exact absurd hshw (h id' sh' hsh' hlow)
  | some id =>
    obtain ⟨sh, hsh, hlow, hshw, hhigh⟩ := h
    cases o' with
    | none => exact absurd hshw (h' id sh hsh hlow)
    | some id' =>
      obtain ⟨sh', hsh', hlow', hshw', hhigh'⟩ := h'
      have hle := hhigh id' sh' hsh' hshw'
      have hle' := hhigh' id sh hsh hshw
      rw [hh.unique hlow hsh rfl, hh.unique hlow hsh' (by omega)]

def Absent (o : Option Sheet) (x y : ℤ) : Prop := ∀ sh, o = some sh → 0 ≤ sh.height → ¬ sh.Shows x y

lemma topmost_keep {f : ℤ → ℤ} (hmono : ∀ a b, a ≤ b → f a ≤ f b) (hvis : ∀ a, 0 ≤ f a ↔ 0 ≤ a)
    (hoths : ∀ id', id' ≠ id → s₁.sheet id' = (s.sheet id').map fun sh => { sh with height := f sh.height })
    (hbef : Absent (s.sheet id) x y) (haft : Absent (s₁.sheet id) x y) (h : Topmost s x y o) : Topmost s₁ x y o := by
  cases o with
  | none =>
    intro id' sh' hsh' hlow hshw
    by_cases hid : id' = id
    · subst hid
      exact haft sh' hsh' hlow hshw
    · rw [hoths id' hid] at hsh'
      obtain ⟨sh₀, hsh₀, rfl⟩ := Option.map_eq_some_iff.mp hsh'
      exact h id' sh₀ hsh₀ ((hvis _).mp hlow) hshw
  | some w =>
    obtain ⟨shw, hsheet, hlow, hshw, hhigh⟩ := h
    have hw : w ≠ id := by
      rintro rfl
      exact hbef shw hsheet hlow hshw
    refine ⟨{ shw with height := f shw.height }, ?_, (hvis _).mpr hlow, hshw, fun id' sh' hsh' hshw' => ?_⟩
    · rw [hoths w hw, hsheet]
      rfl
    · by_cases hid : id' = id
      · subst hid
        have hneg : ¬ 0 ≤ sh'.height := fun hle => haft sh' hsh' hle hshw'
        have hpos := (hvis _).mpr hlow
        dsimp only
        omega
      · rw [hoths id' hid] at hsh'
        obtain ⟨sh₀, hsh₀, rfl⟩ := Option.map_eq_some_iff.mp hsh'
        exact hmono _ _ (hhigh id' sh₀ hsh₀ hshw')

structure SameScreen (s s₁ : Ctl) : Prop where
  map : s₁.map = s.map
  vram : s₁.vram = s.vram
  xsize : s₁.xsize = s.xsize
  ysize : s₁.ysize = s.ysize
  stride : s₁.stride = s.stride
  colour : ∀ p, s₁.colour p = s.colour p

/-- **What has to be painted after a change of the sheets**: the points outside the area have the owners and the pixels of
before. -/
theorem Shown.repaint {area : Set (ℤ × ℤ)} {map : ℕ → Option ℕ} {vram : Buffer} (hs : Shown s) (s₁ : Ctl)
    (hsame : SameScreen s s₁)
    (hkeep : ∀ x y, OnScreen s x y → (x, y) ∉ area → (∀ o, Topmost s x y o → Topmost s₁ x y o) ∧
      ∀ id sh₁, Topmost s x y (some id) → s₁.sheet id = some sh₁ → (x - sh₁.vx0, y - sh₁.vy0) ∉ sh₁.stale →
        ∃ sh, s.sheet id = some sh ∧ sh₁.at x y = sh.at x y ∧ (x - sh.vx0, y - sh.vy0) ∉ sh.stale)
    (h : Repainted s₁ area map vram) : Shown { s₁ with map := map, vram := vram } := by
  have hscr : ∀ x y, OnScreen s₁ x y → OnScreen s x y := by
    intro x y hon
    unfold OnScreen at hon ⊢
    rwa [hsame.xsize, hsame.ysize] at hon
  refine ⟨fun x y hon => ?_, fun x y id sh₁ hon hown hsh hfr => ?_⟩
  · by_cases hin : (x, y) ∈ area
    · exact h.owner x y hon hin
    · dsimp only
      rw [h.map_outside x y hon hin, hsame.map, hsame.xsize]
      have hon' := hscr x y hon
      exact (hkeep x y hon' hin).1 _ (hs.owner x y hon')
  · by_cases hin : (x, y) ∈ area
    · exact h.pixel x y id sh₁ hon hin hown hsh
    · dsimp only at hown hsh ⊢
      have hon' := hscr x y hon
      rw [h.map_outside x y hon hin, hsame.map, hsame.xsize] at hown
      have htop := hs.owner x y hon'
      rw [hown] at htop
      obtain ⟨sh, hsh', hat, hfr'⟩ := (hkeep x y hon' hin).2 id sh₁ htop hsh hfr
      rw [h.vram_outside x y hon hin, hsame.vram, hsame.stride]
      refine (hs.pixel x y id sh hon' hown hsh' hfr').trans ?_
      rw [← hat]
      exact (hsame.colour _).symm

lemma repainted_empty : Repainted s ∅ s.map s.vram :=
  ⟨rfl, fun _ _ _ hmem => absurd hmem (Set.notMem_empty _), fun _ _ _ _ _ hmem => absurd hmem (Set.notMem_empty _),
    fun _ _ _ _ => rfl, fun _ _ _ _ => rfl⟩

lemma keep_of_absent {area : Set (ℤ × ℤ)} (id : ℕ) (f : ℤ → ℤ) (hmono : ∀ a b, a ≤ b → f a ≤ f b) (hvis : ∀ a, 0 ≤ f a ↔ 0 ≤ a)
    (hoths : ∀ id', id' ≠ id → s₁.sheet id' = (s.sheet id').map fun sh => { sh with height := f sh.height })
    (hbef : ∀ x y, (x, y) ∉ area → Absent (s.sheet id) x y) (haft : ∀ x y, (x, y) ∉ area → Absent (s₁.sheet id) x y) :
    ∀ x y, OnScreen s x y → (x, y) ∉ area → (∀ o, Topmost s x y o → Topmost s₁ x y o) ∧
      ∀ id sh₁, Topmost s x y (some id) → s₁.sheet id = some sh₁ → (x - sh₁.vx0, y - sh₁.vy0) ∉ sh₁.stale →
        ∃ sh, s.sheet id = some sh ∧ sh₁.at x y = sh.at x y ∧ (x - sh.vx0, y - sh.vy0) ∉ sh.stale := by
  intro x y _ hout
  refine ⟨fun o h => topmost_keep hmono hvis hoths (hbef x y hout) (haft x y hout) h, ?_⟩
  rintro w sh₁ ⟨shw, hsheet, hlow, hshw, -⟩ hsh₁ hfr
  have hw : w ≠ id := by
    rintro rfl
    exact hbef x y hout shw hsheet hlow hshw
  rw [hoths w hw, hsheet] at hsh₁
  cases hsh₁
  exact ⟨shw, hsheet, rfl, hfr⟩

end Facts

/-! ## The calls of the compositor -/

open Option (bind_some)
open Function (update update_of_ne update_self)

variable {s s₂ : Ctl} {id : ℕ} {sh sh' : Sheet}

lemma Paintable.next {vram : Buffer} (hs : Paintable s) (map : ℕ → Option ℕ) (hsize : vram.size = s.vram.size) :
    Paintable { s with map := map, vram := vram } := by
  refine ⟨⟨hs.screen.xsize, hs.screen.ysize, hs.screen.stride, ?_⟩, ⟨hs.heights.top, hs.heights.taken, hs.heights.place⟩,
    hs.room, hs.fitting⟩
  dsimp only
  rw [hsize]
  exact hs.screen.vram

lemma Repainted.next {area area' : Set (ℤ × ℤ)} {map map' : ℕ → Option ℕ} {vram vram' : Buffer}
    (h : Repainted s area map vram) (h' : Repainted { s with map := map, vram := vram } area' map' vram') :
    Repainted s (area ∪ area') map' vram' := by
  refine ⟨h'.size.trans h.size, fun x y hon hmem => ?_, fun x y id sh hon hmem hown hsh => ?_,
    fun x y hon hmem => ?_, fun x y hon hmem => ?_⟩
  · by_cases hin : (x, y) ∈ area'
    · exact h'.owner x y hon hin
    · rw [h'.map_outside x y hon hin]
      exact h.owner x y hon (hmem.resolve_right hin)
  · by_cases hin : (x, y) ∈ area'
    · exact h'.pixel x y id sh hon hin hown hsh
    · rw [h'.map_outside x y hon hin] at hown
      exact (h'.vram_outside x y hon hin).trans (h.pixel x y id sh hon (hmem.resolve_right hin) hown hsh)
  · exact (h'.map_outside x y hon fun hin => hmem (.inr hin)).trans (h.map_outside x y hon fun hin => hmem (.inl hin))
  · exact (h'.vram_outside x y hon fun hin => hmem (.inr hin)).trans (h.vram_outside x y hon fun hin => hmem (.inl hin))

lemma recompose_next (hs : Paintable s) {area : Set (ℤ × ℤ)} {map : ℕ → Option ℕ} {vram : Buffer}
    (h : Repainted s area map vram) (x₀ y₀ x₁ y₁ : ℤ) :
    ∃ map' vram', recompose { s with map := map, vram := vram } x₀ y₀ x₁ y₁ = some { s with map := map', vram := vram' } ∧
      Repainted s (area ∪ box x₀ y₀ x₁ y₁) map' vram' := by
  obtain ⟨map', vram', hrun, h'⟩ := recompose_spec (hs.next map h.size) x₀ y₀ x₁ y₁
  exact ⟨map', vram', hrun, h.next h'⟩

/-! ### A change of one sheet -/

/-- What a sheet has to be: its buffer is large enough, and if it is visible its ends are `int`s. -/
structure Held (sh : Sheet) : Prop where
  buffer : IsInt sh.bxsize ∧ IsInt sh.bysize ∧ sh.bxsize.toNat * sh.bysize.toNat ≤ sh.buf.size
  ends : 0 ≤ sh.height → IsInt (sh.vx0 + sh.bxsize) ∧ IsInt (sh.vy0 + sh.bysize)

lemma Sound.held (hs : Sound s) (hsh : s.sheet id = some sh) : Held sh :=
  ⟨hs.sizes.buffer id sh hsh, hs.sizes.ends id sh hsh⟩

def Visible (sh : Sheet) (x y : ℤ) : Prop := 0 ≤ sh.height ∧ sh.Covers x y

lemma Renumbered.setSheet {f : ℤ → ℤ} (h : Renumbered s s₂ id f) (sh' : Sheet) : s₂.setSheet id sh' =
    { s with sheets := s₂.sheets, sheet := update s₂.sheet id (some sh'), top := s₂.top } :=
  congrArg (fun s => s.setSheet id sh') h.state

lemma sound_change {f : ℤ → ℤ} (hs : Sound s) (hren : Renumbered s s₂ id f) (hsh : s.sheet id = some sh)
    (hhts : Heights (s₂.setSheet id sh')) (hheld : Held sh') : Sound (s₂.setSheet id sh') := by
  have hself : (s₂.setSheet id sh').sheet id = some sh' := update_self _ _ _
  have hoth : ∀ id', id' ≠ id → (s₂.setSheet id sh').sheet id' =
      (s.sheet id').map fun sh => { sh with height := f sh.height } := fun id' hne =>
    (update_of_ne hne _ _).trans (hren.others id' hne)
  have hscr : Screen (s₂.setSheet id sh') := by
    rw [hren.setSheet]
    exact ⟨hs.screen.xsize, hs.screen.ysize, hs.screen.stride, hs.screen.vram⟩
  have halc : (s₂.setSheet id sh').allocated = s.allocated := (congrArg Ctl.allocated (hren.setSheet sh') :)
  have hcnt : (s₂.setSheet id sh').count = s.count := (congrArg Ctl.count (hren.setSheet sh') :)
  have hcap : (s₂.setSheet id sh').capacity = s.capacity := (congrArg Ctl.capacity (hren.setSheet sh') :)
  refine ⟨hscr, hhts, ⟨?_, fun id' => ?_, ?_, ?_⟩, ⟨fun id' sh₁ hsh₁ => ?_, fun id' sh₁ hsh₁ hlow => ?_⟩⟩
  · rw [halc]
    exact hs.memory.nodup
  · rw [halc, hs.memory.allocated id']
    by_cases hid : id' = id
    · rw [hid, hself, hsh]
      exact ⟨fun _ => ⟨_, rfl⟩, fun _ => ⟨_, rfl⟩⟩
    · rw [hoth id' hid]
      cases s.sheet id' with
      | none => exact Iff.rfl
      | some sh₁ => exact ⟨fun _ => ⟨_, rfl⟩, fun _ => ⟨_, rfl⟩⟩
  · rw [halc, hcnt]
    exact hs.memory.count
  · rw [hcnt, hcap]
    exact hs.memory.capacity
  · by_cases hid : id' = id
    · rw [hid, hself] at hsh₁
      cases hsh₁
      exact hheld.buffer
    · rw [hoth id' hid] at hsh₁
      obtain ⟨sh₀, hsh₀, rfl⟩ := Option.map_eq_some_iff.mp hsh₁
      exact hs.sizes.buffer id' sh₀ hsh₀
  · by_cases hid : id' = id
    · rw [hid, hself] at hsh₁
      cases hsh₁
      exact hheld.ends hlow
    · rw [hoth id' hid] at hsh₁
      obtain ⟨sh₀, hsh₀, rfl⟩ := Option.map_eq_some_iff.mp hsh₁
      exact hs.sizes.ends id' sh₀ hsh₀ ((hren.visible _).mp hlow)

/-- **A change of one sheet** is right, if what it covered and what it covers is painted. -/
theorem inv_change {f : ℤ → ℤ} {area : Set (ℤ × ℤ)} {map : ℕ → Option ℕ} {vram : Buffer} (hi : Inv s)
    (hren : Renumbered s s₂ id f) (hsh : s.sheet id = some sh) (hhts : Heights (s₂.setSheet id sh')) (hheld : Held sh')
    (hbef : ∀ x y, Visible sh x y → (x, y) ∈ area) (haft : ∀ x y, Visible sh' x y → (x, y) ∈ area)
    (h : Repainted (s₂.setSheet id sh') area map vram) : Inv { s₂.setSheet id sh' with map := map, vram := vram } := by
  have hsnd := sound_change hi.sound hren hsh hhts hheld
  have hpain := hsnd.paintable.next map h.size
  have hsame : SameScreen s (s₂.setSheet id sh') := by
    have hst := hren.setSheet sh'
    refine ⟨(congrArg Ctl.map hst :), (congrArg Ctl.vram hst :), (congrArg Ctl.xsize hst :), (congrArg Ctl.ysize hst :),
      (congrArg Ctl.stride hst :), fun p => ?_⟩
    rw [hst]
    rfl
  refine ⟨⟨hpain.screen, hpain.heights, ⟨hsnd.memory.nodup, hsnd.memory.allocated, hsnd.memory.count,
    hsnd.memory.capacity⟩, ⟨hsnd.sizes.buffer, hsnd.sizes.ends⟩⟩, ?_⟩
  refine hi.shown.repaint _ hsame (keep_of_absent id f hren.mono hren.visible (fun id' hne => ?_)
    (fun x y hout sh₁ hsh₁ hlow hshw => ?_) fun x y hout sh₁ hsh₁ hlow hshw => ?_) h
  · exact (update_of_ne hne _ _).trans (hren.others id' hne)
  · rw [hsh] at hsh₁
    cases hsh₁
    exact hout (hbef x y ⟨hlow, hshw.1⟩)
  · have hself : (s₂.setSheet id sh').sheet id = some sh' := update_self _ _ _
    rw [hself] at hsh₁
    cases hsh₁
    exact hout (haft x y ⟨hlow, hshw.1⟩)

lemma Heights.setSheet (hs : Heights s) (sh' : Sheet) (hsh : s.sheet id = some sh) (hht : sh'.height = sh.height) :
    Heights (s.setSheet id sh') := by
  refine ⟨hs.top, fun h h₀ h₁ => ?_, fun id' sh₁ hsh₁ => ?_⟩
  · obtain ⟨sh₁, hsh₁, hht₁⟩ := hs.taken h h₀ h₁
    by_cases hid : s.sheets h.toNat = id
    · rw [hid, hsh] at hsh₁
      cases hsh₁
      refine ⟨sh', ?_, by omega⟩
      unfold Ctl.setSheet
      dsimp only
      rw [hid, update_self]
    · exact ⟨sh₁, (update_of_ne hid _ _).trans hsh₁, hht₁⟩
  · unfold Ctl.setSheet at hsh₁ ⊢
    dsimp only at hsh₁ ⊢
    rcases update_cases hsh₁ with ⟨rfl, ⟨⟩⟩ | ⟨-, hsh₁⟩
    · rw [hht]
      exact hs.place id' sh hsh
    · exact hs.place id' sh₁ hsh₁

lemma inv_hidden (hi : Inv s) (hsh : s.sheet id = some sh) (hht : sh'.height = sh.height) (hhid : sh.height < 0)
    (hheld : Held sh') : Inv (s.setSheet id sh') := by
  have hnone : ∀ sh₁ : Sheet, sh₁.height = sh.height → ∀ x y, Visible sh₁ x y → (x, y) ∈ (∅ : Set (ℤ × ℤ)) := by
    rintro sh₁ heq x y ⟨hlow, -⟩
    omega
  exact inv_change hi .refl hsh (hi.sound.heights.setSheet sh' hsh hht) hheld (hnone sh rfl) (hnone sh' hht)
    repainted_empty

/-! ### The calls -/

/-- No pixel has become stale. -/
def Kept (s s' : Ctl) : Prop :=
  ∀ id sh', s'.sheet id = some sh' → ∀ p ∈ sh'.stale, ∃ sh, s.sheet id = some sh ∧ p ∈ sh.stale

lemma Kept.refl (s : Ctl) : Kept s s := fun _ sh hsh _ hp => ⟨sh, hsh, hp⟩

lemma kept_change {f : ℤ → ℤ} {s' : Ctl} (hren : Renumbered s s₂ id f) (hsheet : s'.sheet = update s₂.sheet id (some sh'))
    (hfresh : sh'.stale = []) : Kept s s' := by
  intro id' sh₁ hsh₁ p hp
  rw [hsheet] at hsh₁
  rcases update_cases hsh₁ with ⟨-, ⟨⟩⟩ | ⟨hne, hsh₁⟩
  · rw [hfresh] at hp
    cases hp
  · rw [hren.others id' hne] at hsh₁
    obtain ⟨sh₀, hsh₀, rfl⟩ := Option.map_eq_some_iff.mp hsh₁
    exact ⟨sh₀, hsh₀, hp⟩

lemma setbuf_spec {buffer : Buffer} {width height transparent : ℤ} (hi : Inv s)
    (ha : Allowed s (.setbuf id buffer width height transparent)) :
    ∃ s', sheet_setbuf s id buffer width height transparent = some s' ∧ Inv s' ∧ Kept s s' := by
  obtain ⟨⟨⟨sh, hsh⟩, hw, hh, hsize⟩, hends⟩ := ha
  have hheld : Held { sh with buf := buffer, bxsize := width, bysize := height, col_inv := transparent, stale := [] } :=
    ⟨⟨hw, hh, hsize⟩, hends sh hsh⟩
  unfold sheet_setbuf
  rw [hsh, bind_some]
  dsimp only
  by_cases hvis : sh.height ≥ 0
  · rw [if_pos hvis]
    have hhts := hi.sound.heights.setSheet ({ sh with
      buf := buffer, bxsize := width, bysize := height, col_inv := transparent, stale := [] }) hsh rfl
    have hsnd := sound_change hi.sound .refl hsh hhts hheld
    obtain ⟨hrig, hbot⟩ := hi.sound.sizes.ends id sh hsh hvis
    obtain ⟨hrig', hbot'⟩ := hends sh hsh hvis
    have hx : IsInt (sh.vx0 + max sh.bxsize width) := by
      rcases max_cases sh.bxsize width with ⟨heq, -⟩ | ⟨heq, -⟩ <;> rw [heq] <;> assumption
    have hy : IsInt (sh.vy0 + max sh.bysize height) := by
      rcases max_cases sh.bysize height with ⟨heq, -⟩ | ⟨heq, -⟩ <;> rw [heq] <;> assumption
    rw [sum_eq hx, bind_some, sum_eq hy, bind_some]
    obtain ⟨map, vram, hrun, hrep⟩ := recompose_spec hsnd.paintable sh.vx0 sh.vy0 (sh.vx0 + max sh.bxsize width)
      (sh.vy0 + max sh.bysize height)
    refine ⟨_, hrun, inv_change hi .refl hsh hhts hheld ?_ ?_ hrep, kept_change .refl rfl rfl⟩
    · rintro x y ⟨-, hcov⟩
      unfold Sheet.Covers at hcov
      rw [mem_box]
      omega
    · rintro x y ⟨-, hcov⟩
      unfold Sheet.Covers at hcov
      rw [mem_box]
      dsimp only at hcov
      omega
  · rw [if_neg hvis]
    exact ⟨_, rfl, inv_hidden hi hsh rfl (by omega) hheld, kept_change .refl rfl rfl⟩

lemma updown_spec (height : ℤ) (hi : Inv s) (hsh : s.sheet id = some sh)
    (hends : 0 ≤ height → IsInt (sh.vx0 + sh.bxsize) ∧ IsInt (sh.vy0 + sh.bysize)) :
    ∃ s' sh', sheet_updown s id height = some s' ∧ Inv s' ∧ Kept s s' ∧ s'.sheet id = some sh' ∧
      sh'.height = max (min height (if sh.height < 0 then s.top + 1 else s.top)) (-1) := by
  unfold sheet_updown
  rw [hsh, bind_some]
  dsimp only
  have hhts := hi.sound.heights
  have htop := hhts.top
  by_cases hsame : sh.height = max (min height (if sh.height < 0 then s.top + 1 else s.top)) (-1)
  · rw [if_pos hsame]
    exact ⟨s, sh, rfl, hi, .refl s, hsh, hsame⟩
  · rw [if_neg hsame]
    obtain ⟨s₁, s₂, f, hlo, hrais, hhts', hren⟩ := order_spec ({ sh with
        height := max (min height (if sh.height < 0 then s.top + 1 else s.top)) (-1), stale := [] })
      (max (min height (if sh.height < 0 then s.top + 1 else s.top)) (-1))
      hhts hi.sound.paintable.room (fun hhid => by
        have hlt := hidden_lt hhts hi.sound.memory hsh hhid
        have hle := hi.sound.memory.capacity
        omega) hsh (le_max_right _ _) (by split_ifs <;> omega) rfl
    have hthis : s₂.sheet id = some sh := hren.this.trans hsh
    have hheld : Held { sh with
        height := max (min height (if sh.height < 0 then s.top + 1 else s.top)) (-1), stale := [] } := by
      refine ⟨hi.sound.sizes.buffer id sh hsh, fun hlow => hends ?_⟩
      dsimp only at hlow
      omega
    have hfits : IsInt (sh.vx0 + sh.bxsize) ∧ IsInt (sh.vy0 + sh.bysize) := by
      by_cases hlow : 0 ≤ height
      · exact hends hlow
      · refine hi.sound.sizes.ends id sh hsh ?_
        have hplc := (hhts.place id sh hsh).1
        omega
    have hsnd := sound_change hi.sound hren hsh hhts' hheld
    rw [hlo, bind_some, hrais, bind_some, hthis, bind_some, sum_eq hfits.1, bind_some,
      sum_eq hfits.2, bind_some]
    obtain ⟨map, vram, hrun, hrep⟩ := recompose_spec hsnd.paintable sh.vx0 sh.vy0 (sh.vx0 + sh.bxsize)
      (sh.vy0 + sh.bysize)
    refine ⟨_, _, hrun, inv_change hi hren hsh hhts' hheld ?_ ?_ hrep, kept_change hren rfl rfl, update_self _ _ _, rfl⟩
    · rintro x y ⟨-, hcov⟩
      exact hcov
    · rintro x y ⟨-, hcov⟩
      exact hcov

lemma slide_spec {x y : ℤ} (hi : Inv s) (ha : Allowed s (.slide id x y)) :
    ∃ s', sheet_slide s id x y = some s' ∧ Inv s' ∧ Kept s s' := by
  obtain ⟨⟨⟨sh, hsh⟩, -, -⟩, hends⟩ := ha
  unfold sheet_slide
  rw [hsh, bind_some]
  by_cases hsame : sh.vx0 = x ∧ sh.vy0 = y
  · rw [if_pos hsame]
    exact ⟨s, rfl, hi, .refl s⟩
  · rw [if_neg hsame]
    have hheld : Held { sh with vx0 := x, vy0 := y, stale := [] } := ⟨hi.sound.sizes.buffer id sh hsh, hends sh hsh⟩
    dsimp only
    by_cases hhid : sh.height < 0
    · rw [if_pos hhid]
      exact ⟨_, rfl, inv_hidden hi hsh rfl hhid hheld, kept_change .refl rfl rfl⟩
    · rw [if_neg hhid]
      have hhts := hi.sound.heights.setSheet ({ sh with vx0 := x, vy0 := y, stale := [] }) hsh rfl
      have hpain := (sound_change hi.sound .refl hsh hhts hheld).paintable
      obtain ⟨hrig, hbot⟩ := hi.sound.sizes.ends id sh hsh (by omega)
      obtain ⟨hrig', hbot'⟩ := hends sh hsh (by omega)
      rw [sum_eq hrig, bind_some, sum_eq hbot, bind_some, sum_eq hrig', bind_some,
        sum_eq hbot', bind_some]
      by_cases hapar : max sh.vx0 x ≥ min (sh.vx0 + sh.bxsize) (x + sh.bxsize) ∨
          max sh.vy0 y ≥ min (sh.vy0 + sh.bysize) (y + sh.bysize)
      · obtain ⟨map₁, vram₁, hrun₁, h₁⟩ := recompose_spec hpain sh.vx0 sh.vy0 (sh.vx0 + sh.bxsize) (sh.vy0 + sh.bysize)
        obtain ⟨map₂, vram₂, hrun₂, h₂⟩ := recompose_next hpain h₁ x y (x + sh.bxsize) (y + sh.bysize)
        rw [if_pos hapar, hrun₁, bind_some]
        refine ⟨_, hrun₂, inv_change hi .refl hsh hhts hheld ?_ ?_ h₂, kept_change .refl rfl rfl⟩
        · rintro u v ⟨-, hcov⟩
          exact .inl hcov
        · rintro u v ⟨-, hcov⟩
          exact .inr hcov
      · obtain ⟨map₁, vram₁, hrun₁, h₁⟩ := recompose_spec hpain sh.vx0 sh.vy0 (sh.vx0 + sh.bxsize) (max sh.vy0 y)
        obtain ⟨map₂, vram₂, hrun₂, h₂⟩ := recompose_next hpain h₁ sh.vx0 (min (sh.vy0 + sh.bysize) (y + sh.bysize))
          (sh.vx0 + sh.bxsize) (sh.vy0 + sh.bysize)
        obtain ⟨map₃, vram₃, hrun₃, h₃⟩ := recompose_next hpain h₂ sh.vx0 (max sh.vy0 y) (max sh.vx0 x)
          (min (sh.vy0 + sh.bysize) (y + sh.bysize))
        obtain ⟨map₄, vram₄, hrun₄, h₄⟩ := recompose_next hpain h₃ (min (sh.vx0 + sh.bxsize) (x + sh.bxsize))
          (max sh.vy0 y) (sh.vx0 + sh.bxsize) (min (sh.vy0 + sh.bysize) (y + sh.bysize))
        obtain ⟨map₅, vram₅, hrun₅, h₅⟩ := recompose_next hpain h₄ x y (x + sh.bxsize) (y + sh.bysize)
        rw [if_neg hapar, hrun₁, bind_some, hrun₂, bind_some, hrun₃, bind_some, hrun₄,
          bind_some]
        refine ⟨_, hrun₅, inv_change hi .refl hsh hhts hheld ?_ ?_ h₅, kept_change .refl rfl rfl⟩
        · -- the four strips and the new rectangle cover the old one
          rintro u v ⟨-, hcov⟩
          unfold Sheet.Covers at hcov
          simp only [Set.mem_union, mem_box]
          omega
        · rintro u v ⟨-, hcov⟩
          exact .inr hcov

lemma topmost_setSheet {x y : ℤ} {o : Option ℕ} (hsh : s.sheet id = some sh) (hht : sh'.height = sh.height)
    (hshw : 0 ≤ sh.height → (sh'.Shows x y ↔ sh.Shows x y)) (h : Topmost s x y o) : Topmost (s.setSheet id sh') x y o := by
  have hself : (s.setSheet id sh').sheet id = some sh' := update_self _ _ _
  have hoth : ∀ id', id' ≠ id → (s.setSheet id sh').sheet id' = s.sheet id' := fun id' hne => update_of_ne hne _ _
  cases o with
  | none =>
    intro id' sh₁ hsh₁ hlow hshw₁
    by_cases hid : id' = id
    · rw [hid, hself] at hsh₁
      cases hsh₁
      exact h id sh hsh (by omega) ((hshw (by omega)).mp hshw₁)
    · rw [hoth id' hid] at hsh₁
      exact h id' sh₁ hsh₁ hlow hshw₁
  | some w =>
    obtain ⟨shw, hsheet, hlow, hshow, hhigh⟩ := h
    -- what shows there now is not higher than what did
    have hle : ∀ id' sh₁, (s.setSheet id sh').sheet id' = some sh₁ → sh₁.Shows x y → sh₁.height ≤ shw.height := by
      intro id' sh₁ hsh₁ hshw₁
      by_cases hid : id' = id
      · rw [hid, hself] at hsh₁
        cases hsh₁
        by_cases hneg : 0 ≤ sh.height
        · rw [hht]
          exact hhigh id sh hsh ((hshw hneg).mp hshw₁)
        · omega
      · rw [hoth id' hid] at hsh₁
        exact hhigh id' sh₁ hsh₁ hshw₁
    by_cases hw : w = id
    · subst hw
      rw [hsh] at hsheet
      cases hsheet
      refine ⟨sh', hself, by omega, (hshw hlow).mpr hshow, fun id' sh₁ hsh₁ hshw₁ => ?_⟩
      rw [hht]
      exact hle id' sh₁ hsh₁ hshw₁
    · exact ⟨shw, (hoth w hw).trans hsheet, hlow, hshow, hle⟩

lemma refresh_spec {x₀ y₀ x₁ y₁ : ℤ} (hi : Inv s) (ha : Allowed s (.refresh id x₀ y₀ x₁ y₁)) :
    ∃ s', sheet_refresh s id x₀ y₀ x₁ y₁ = some s' ∧ Inv s' ∧ ∀ id' sh', s'.sheet id' = some sh' → ∀ p ∈ sh'.stale,
      ∃ sh, s.sheet id' = some sh ∧ p ∈ sh.stale ∧ (0 ≤ sh'.height → ¬(id' = id ∧ p ∈ box x₀ y₀ x₁ y₁)) := by
  obtain ⟨⟨sh, hsh⟩, hends⟩ := ha
  unfold sheet_refresh
  rw [hsh, bind_some]
  by_cases hvis : sh.height ≥ 0
  · obtain ⟨hleft, htop, hrig, hbot⟩ := hends sh hsh hvis
    rw [if_pos hvis, sum_eq hleft, bind_some, sum_eq htop, bind_some, sum_eq hrig, bind_some,
      sum_eq hbot, bind_some]
    have hpain := hi.sound.paintable
    have howd : Owned s sh.height sh.height
        (clipped s (sh.vx0 + x₀) (sh.vy0 + y₀) (sh.vx0 + x₁) (sh.vy0 + y₁)) := by
      intro x y id' hmem hown
      have htopm := hi.shown.owner x y (clipped_onScreen hmem)
      rw [hown] at htopm
      obtain ⟨sh', hsh', hlow, hshw, -⟩ := htopm
      exact ⟨sh', hsh', fun _ _ => ⟨hpain.fitting id' sh' hsh' hlow, hshw.1⟩⟩
    obtain ⟨vram, hrun, hrefr⟩ := refreshsub_spec hpain.screen howd
    rw [hrun]
    refine ⟨_, rfl, ?_, fun id' sh₁ hsh₁ p hp => ?_⟩
    swap
    · rcases update_cases hsh₁ with ⟨rfl, ⟨⟩⟩ | ⟨hne, hsh₁⟩
      · obtain ⟨hstl, hout⟩ := List.mem_filter.mp hp
        refine ⟨sh, hsh, hstl, fun _ hboth => of_decide_eq_true hout ?_⟩
        obtain ⟨-, hx₀, hx₁, hy₀, hy₁⟩ := hboth
        exact ⟨hx₀, hx₁, hy₀, hy₁⟩
      · exact ⟨sh₁, hsh₁, hp, fun _ hboth => hne hboth.1⟩
    have hhts := hi.sound.heights.setSheet ({ sh with
      stale := sh.stale.filter fun p => ¬ (x₀ ≤ p.1 ∧ p.1 < x₁ ∧ y₀ ≤ p.2 ∧ p.2 < y₁) }) hsh rfl
    have hsnd := sound_change hi.sound .refl hsh hhts ⟨(hi.sound.held hsh).buffer, (hi.sound.held hsh).ends⟩
    have hnext := hsnd.paintable.next s.map hrefr.size
    refine ⟨⟨hnext.screen, hnext.heights, ⟨hsnd.memory.nodup, hsnd.memory.allocated, hsnd.memory.count,
      hsnd.memory.capacity⟩, ⟨hsnd.sizes.buffer, hsnd.sizes.ends⟩⟩, fun x y hon => ?_, ?_⟩
    · exact topmost_setSheet hsh rfl (fun _ => Iff.rfl) (hi.shown.owner x y hon)
    · intro x y w sh₁ hon hown hsh₁ hfr
      have hon' : OnScreen s x y := hon
      unfold Ctl.setSheet at hown hsh₁ ⊢
      dsimp only at hown hsh₁ ⊢
      by_cases hin : (x, y) ∈ clipped s (sh.vx0 + x₀) (sh.vy0 + y₀) (sh.vx0 + x₁) (sh.vy0 + y₁)
      · refine (hrefr.inside x y hon' hin).trans ?_
        unfold painted
        rw [hown, bind_some]
        rcases update_cases hsh₁ with ⟨rfl, ⟨⟩⟩ | ⟨hw, hsh₁⟩
        · rw [hsh, bind_some, if_neg (by omega)]
          rfl
        · have hoth : sh₁.height < sh.height ∨ sh₁.height > sh.height := by
            by_contra hcase
            have huniq := hi.sound.heights.unique hvis hsh₁ (by omega)
            rw [((hi.sound.heights.place id sh hsh).2 hvis).2] at huniq
            exact hw huniq
          rw [hsh₁, bind_some, if_pos hoth]
          exact hi.shown.pixel x y w sh₁ hon' hown hsh₁ hfr
      · refine (hrefr.outside x y hon' hin).trans ?_
        by_cases hw : w = id
        · rw [hw] at hown hsh₁
          rw [update_self] at hsh₁
          cases hsh₁
          refine hi.shown.pixel x y id sh hon' hown hsh fun hstl => hfr ?_
          refine List.mem_filter.mpr ⟨hstl, ?_⟩
          rw [mem_clipped hon', mem_box] at hin
          rw [decide_eq_true_eq]
          dsimp only
          omega
        · rw [update_of_ne hw] at hsh₁
          exact hi.shown.pixel x y w sh₁ hon' hown hsh₁ hfr
  · rw [if_neg hvis]
    refine ⟨s, rfl, hi, fun id' sh' hsh' p hp => ⟨sh', hsh', hp, fun hlow hboth => ?_⟩⟩
    rw [hboth.1, hsh] at hsh'
    cases hsh'
    exact hvis hlow

lemma draw_at {x y u v : ℤ} {p : Pixel} (hx : 0 ≤ u) (hxs : u < sh.bxsize) (hy : 0 ≤ v) (hcov : sh.Covers x y) :
    ({ sh with
      buf := { sh.buf with pixel := update sh.buf.pixel (cell sh.bxsize.toNat u v) p }
      stale := (u, v) :: sh.stale } : Sheet).at x y = if (x - sh.vx0, y - sh.vy0) = (u, v) then p else sh.at x y := by
  obtain ⟨hx₀, hx₁, hy₀, hy₁⟩ := hcov
  unfold Sheet.at
  dsimp only
  by_cases hsame : (x - sh.vx0, y - sh.vy0) = (u, v)
  · cases hsame
    rw [if_pos rfl, update_self]
  · rw [if_neg hsame, update_of_ne]
    intro heq
    obtain ⟨hu, hv⟩ := cell_inj (by omega) (by omega) (by omega) hx (by omega) hy heq
    exact hsame (by rw [hu, hv])

lemma draw_spec {x y : ℤ} {p : Pixel} (hi : Inv s) (ha : Allowed s (.draw id x y p)) :
    ∃ s', draw s id x y p = some s' ∧ Inv s' ∧ ∀ id' sh', s'.sheet id' = some sh' → ∀ q ∈ sh'.stale,
      (∃ sh, s.sheet id' = some sh ∧ q ∈ sh.stale) ∨ id' = id ∧ q = (x, y) := by
  obtain ⟨⟨sh, hsh, hx, hxs, hy, hys, hclr⟩, -⟩ := ha
  have hbuf := hi.sound.sizes.buffer id sh hsh
  have hwid : ((sh.bxsize.toNat : ℕ) : ℤ) = sh.bxsize := Int.toNat_of_nonneg (by omega)
  have hlt : cell sh.bxsize.toNat x y < sh.buf.size := by
    refine cell_lt _ _ hx hxs hy hys ?_
    have hlast : (sh.bysize - 1) * sh.bxsize + sh.bxsize = sh.bxsize * sh.bysize := by ring
    have hboth : ((sh.bxsize.toNat * sh.bysize.toNat : ℕ) : ℤ) = sh.bxsize * sh.bysize := by
      rw [Nat.cast_mul, hwid, Int.toNat_of_nonneg (by omega)]
    rw [hwid, hlast]
    omega
  unfold draw Buffer.store
  rw [hsh, bind_some, if_pos hlt]
  refine ⟨_, rfl, ?_, fun id' sh₁ hsh₁ q hq => ?_⟩
  swap
  · rcases update_cases hsh₁ with ⟨rfl, ⟨⟩⟩ | ⟨-, hsh₁⟩
    · rcases List.mem_cons.mp hq with rfl | hq
      · exact .inr ⟨rfl, rfl⟩
      · exact .inl ⟨sh, hsh, hq⟩
    · exact .inl ⟨sh₁, hsh₁, hq⟩
  have hheld : Held { sh with
      buf := { sh.buf with pixel := update sh.buf.pixel (cell sh.bxsize.toNat x y) p }
      stale := (x, y) :: sh.stale } := ⟨hbuf, hi.sound.sizes.ends id sh hsh⟩
  have hhts := hi.sound.heights.setSheet ({ sh with
    buf := { sh.buf with pixel := update sh.buf.pixel (cell sh.bxsize.toNat x y) p }
    stale := (x, y) :: sh.stale }) hsh rfl
  refine ⟨sound_change hi.sound .refl hsh hhts hheld, fun u v hon => ?_, fun u v w sh₁ hon hown hsh₁ hfr => ?_⟩
  · refine topmost_setSheet hsh rfl (fun hvis => ?_) (hi.shown.owner u v hon)
    -- transparent pixels of a visible sheet stay transparent
    have hcase : ∀ hcov : sh.Covers u v, sh.col_inv ≠ -1 → (({ sh with
        buf := { sh.buf with pixel := update sh.buf.pixel (cell sh.bxsize.toNat x y) p }
        stale := (x, y) :: sh.stale } : Sheet).at u v = BitVec.ofInt 32 sh.col_inv ↔
        sh.at u v = BitVec.ofInt 32 sh.col_inv) := by
      intro hcov hinv
      rw [draw_at hx hxs hy hcov]
      by_cases hsame : (u - sh.vx0, v - sh.vy0) = (x, y)
      · rw [if_pos hsame]
        cases hsame
        exact hclr hvis hinv
      · rw [if_neg hsame]
    constructor
    · rintro ⟨hcov, hopaq⟩
      by_cases hinv : sh.col_inv = -1
      · exact ⟨hcov, .inl hinv⟩
      · exact ⟨hcov, .inr fun heq => hopaq.resolve_left hinv ((hcase hcov hinv).mpr heq)⟩
    · rintro ⟨hcov, hopaq⟩
      by_cases hinv : sh.col_inv = -1
      · exact ⟨hcov, .inl hinv⟩
      · exact ⟨hcov, .inr fun heq => hopaq.resolve_left hinv ((hcase hcov hinv).mp heq)⟩
  · have hon' : OnScreen s u v := hon
    unfold Ctl.setSheet at hown hsh₁ ⊢
    dsimp only at hown hsh₁ ⊢
    by_cases hw : w = id
    · rw [hw] at hown hsh₁
      rw [update_self] at hsh₁
      cases hsh₁
      have htopm := hi.shown.owner u v hon'
      rw [hown] at htopm
      obtain ⟨sh₀, hsh₀, -, hshw, -⟩ := htopm
      rw [hsh] at hsh₀
      cases hsh₀
      rw [List.mem_cons, not_or] at hfr
      rw [draw_at hx hxs hy hshw.1, if_neg hfr.1]
      exact hi.shown.pixel u v id sh hon' hown hsh hfr.2
    · rw [update_of_ne hw] at hsh₁
      exact hi.shown.pixel u v w sh₁ hon' hown hsh₁ hfr

/-! ### New sheets and old ones -/

lemma inv_capacity {capacity : ℕ} (hi : Inv s) (hcap : s.count ≤ capacity) : Inv { s with capacity := capacity } := by
  have hscr := hi.sound.screen
  exact ⟨⟨{ hscr with },
    ⟨hi.sound.heights.top, hi.sound.heights.taken, hi.sound.heights.place⟩,
    ⟨hi.sound.memory.nodup, hi.sound.memory.allocated, hi.sound.memory.count, hcap⟩,
    ⟨hi.sound.sizes.buffer, hi.sound.sizes.ends⟩⟩, ⟨hi.shown.owner, hi.shown.pixel⟩⟩

lemma inv_alloc (hi : Inv s) (hnew : s.sheet id = none) (hht : sh.height = -1) (hheld : Held sh)
    (hcap : s.count + 1 ≤ s.capacity) :
    Inv { s with
      sheet := update s.sheet id (some sh)
      allocated := id :: s.allocated
      count := s.count + 1 } := by
  have hold : ∀ id' sh', s.sheet id' = some sh' → id' ≠ id := by
    rintro id' sh' hsh' rfl
    rw [hnew] at hsh'
    cases hsh'
  have hscr := hi.sound.screen
  refine ⟨⟨{ hscr with }, ⟨hi.sound.heights.top, fun h h₀ h₁ => ?_, fun id' sh' hsh' => ?_⟩,
    ⟨?_, fun id' => ?_, ?_, hcap⟩, ⟨fun id' sh' hsh' => ?_, fun id' sh' hsh' hlow => ?_⟩⟩, ?_⟩
  · obtain ⟨sh', hsh', hht'⟩ := hi.sound.heights.taken h h₀ h₁
    exact ⟨sh', (update_of_ne (hold _ sh' hsh') _ _).trans hsh', hht'⟩
  · dsimp only at hsh' ⊢
    rcases update_cases hsh' with ⟨rfl, ⟨⟩⟩ | ⟨-, hsh'⟩
    · omega
    · exact hi.sound.heights.place id' sh' hsh'
  · refine List.nodup_cons.mpr ⟨fun hmem => ?_, hi.sound.memory.nodup⟩
    obtain ⟨sh', hsh'⟩ := (hi.sound.memory.allocated id).mp hmem
    exact hold id sh' hsh' rfl
  · dsimp only
    rw [List.mem_cons, hi.sound.memory.allocated id']
    by_cases hid : id' = id
    · rw [hid, update_self]
      exact ⟨fun _ => ⟨sh, rfl⟩, fun _ => .inl rfl⟩
    · rw [update_of_ne hid]
      exact ⟨fun hcase => hcase.resolve_left hid, .inr⟩
  · dsimp only
    rw [List.length_cons, hi.sound.memory.count]
  · dsimp only at hsh'
    rcases update_cases hsh' with ⟨rfl, ⟨⟩⟩ | ⟨-, hsh'⟩
    · exact hheld.buffer
    · exact hi.sound.sizes.buffer id' sh' hsh'
  · dsimp only at hsh'
    rcases update_cases hsh' with ⟨rfl, ⟨⟩⟩ | ⟨-, hsh'⟩
    · omega
    · exact hi.sound.sizes.ends id' sh' hsh' hlow
  · refine hi.shown.repaint ({ s with
      sheet := update s.sheet id (some sh)
      allocated := id :: s.allocated
      count := s.count + 1 }) ⟨rfl, rfl, rfl, rfl, rfl, fun _ => rfl⟩ (keep_of_absent id (fun h => h)
        (fun _ _ hle => hle) (fun _ => Iff.rfl) (fun id' hne => ?_) (fun x y _ sh' hsh' => ?_)
        fun x y _ sh' hsh' hlow => ?_) repainted_empty
    · dsimp only
      rw [update_of_ne hne]
      cases s.sheet id' <;> rfl
    · rw [hnew] at hsh'
      cases hsh'
    · dsimp only at hsh'
      rw [update_self] at hsh'
      cases hsh'
      omega

lemma alloc_spec {grown : Bool} {address : Option ℕ} (hi : Inv s) (ha : Allowed s (.alloc grown address)) :
    ∃ s', sheet_alloc s grown address = some s' ∧ Inv s' ∧ Kept s s' := by
  obtain ⟨hnew, -⟩ := ha
  have hcap := hi.sound.memory.capacity
  -- the array grows
  have hgrn : ∃ c, s.count + 1 ≤ c ∧ (if s.count = s.capacity then
      { s with capacity := if s.capacity = 0 then 16 else s.capacity * 2 } else s) = { s with capacity := c } := by
    by_cases hfull : s.count = s.capacity
    · refine ⟨if s.capacity = 0 then 16 else s.capacity * 2, ?_, if_pos hfull⟩
      split_ifs <;> omega
    · exact ⟨s.capacity, by omega, if_neg hfull⟩
  obtain ⟨c, hc, heq⟩ := hgrn
  unfold sheet_alloc
  by_cases hmost : s.count = 2147483647
  · rw [if_pos hmost]
    exact ⟨s, rfl, hi, .refl s⟩
  · rw [if_neg hmost]
    by_cases hno : s.count = s.capacity ∧ grown = false
    · rw [if_pos hno]
      exact ⟨s, rfl, hi, .refl s⟩
    · rw [if_neg hno, heq]
      cases address with
      | none =>
        exact ⟨_, rfl, inv_capacity hi (by omega), .refl s⟩
      | some id =>
        refine ⟨_, rfl, inv_alloc (inv_capacity hi (by omega)) (hnew id rfl) rfl
          ⟨⟨by decide, by decide, le_rfl⟩, fun hlow => ?_⟩ hc, fun id' sh' hsh' p hp => ?_⟩
        · exact absurd hlow (by decide)
        · rcases update_cases hsh' with ⟨-, ⟨⟩⟩ | ⟨-, hsh'⟩
          · cases hp
          · exact ⟨sh', hsh', hp⟩

lemma inv_free (hi : Inv s) (hsh : s.sheet id = some sh) (hhid : sh.height < 0) :
    Inv { s with
      allocated := s.allocated.erase id
      count := s.count - 1
      sheet := update s.sheet id none } := by
  have hmem := (hi.sound.memory.allocated id).mpr ⟨sh, hsh⟩
  have hcap := hi.sound.memory.capacity
  have hscr := hi.sound.screen
  refine ⟨⟨{ hscr with }, ⟨hi.sound.heights.top, fun h h₀ h₁ => ?_, fun id' sh' hsh' => ?_⟩,
    ⟨hi.sound.memory.nodup.erase id, fun id' => ?_, ?_, by dsimp only; omega⟩,
    ⟨fun id' sh' hsh' => ?_, fun id' sh' hsh' hlow => ?_⟩⟩, ?_⟩
  · obtain ⟨sh', hsh', hht'⟩ := hi.sound.heights.taken h h₀ h₁
    have hne : s.sheets h.toNat ≠ id := by
      intro heq
      rw [heq, hsh] at hsh'
      cases hsh'
      omega
    exact ⟨sh', (update_of_ne hne _ _).trans hsh', hht'⟩
  · dsimp only at hsh' ⊢
    rcases update_cases hsh' with ⟨-, ⟨⟩⟩ | ⟨-, hsh'⟩
    exact hi.sound.heights.place id' sh' hsh'
  · dsimp only
    rw [hi.sound.memory.nodup.mem_erase_iff, hi.sound.memory.allocated id']
    by_cases hid : id' = id
    · rw [hid, update_self]
      exact ⟨fun hboth => absurd rfl hboth.1, fun hsome => by obtain ⟨_, hsome⟩ := hsome; cases hsome⟩
    · rw [update_of_ne hid]
      exact ⟨fun hboth => hboth.2, fun hsome => ⟨hid, hsome⟩⟩
  · dsimp only
    rw [List.length_erase_of_mem hmem, hi.sound.memory.count]
  · dsimp only at hsh'
    rcases update_cases hsh' with ⟨-, ⟨⟩⟩ | ⟨-, hsh'⟩
    exact hi.sound.sizes.buffer id' sh' hsh'
  · dsimp only at hsh'
    rcases update_cases hsh' with ⟨-, ⟨⟩⟩ | ⟨-, hsh'⟩
    exact hi.sound.sizes.ends id' sh' hsh' hlow
  · refine hi.shown.repaint ({ s with
      allocated := s.allocated.erase id
      count := s.count - 1
      sheet := update s.sheet id none }) ⟨rfl, rfl, rfl, rfl, rfl, fun _ => rfl⟩ (keep_of_absent id
        (fun h => h) (fun _ _ hle => hle) (fun _ => Iff.rfl) (fun id' hne => ?_) (fun x y _ sh' hsh' hlow => ?_)
        fun x y _ sh' hsh' => ?_) repainted_empty
    · dsimp only
      rw [update_of_ne hne]
      cases s.sheet id' <;> rfl
    · rw [hsh] at hsh'
      cases hsh'
      omega
    · dsimp only at hsh'
      rw [update_self] at hsh'
      cases hsh'

lemma free_spec (hi : Inv s) (ha : Allowed s (.free id)) : ∃ s', sheet_free s id = some s' ∧ Inv s' ∧ Kept s s' := by
  obtain ⟨⟨sh, hsh⟩, -⟩ := ha
  obtain ⟨s', sh', hrun, hi', hkept, hsh', hht⟩ := updown_spec (-1) hi hsh fun hlow => absurd hlow (by decide)
  have hhid : sh'.height < 0 := by
    split_ifs at hht <;> omega
  have hmem := (hi'.sound.memory.allocated id).mpr ⟨sh', hsh'⟩
  unfold sheet_free
  rw [hrun, Option.map_some, if_pos hmem]
  refine ⟨_, rfl, inv_free hi' hsh' hhid, fun id' sh₁ hsh₁ => ?_⟩
  rcases update_cases hsh₁ with ⟨-, ⟨⟩⟩ | ⟨-, hsh₁⟩
  exact hkept id' sh₁ hsh₁

/-- The call paints the pixel of the sheet again. -/
def Call.Refreshes : Call → ℕ → ℤ × ℤ → Prop
  | .refresh id x₀ y₀ x₁ y₁, id', p => id' = id ∧ p ∈ box x₀ y₀ x₁ y₁
  | _, _, _ => False

def Call.Draws : Call → ℕ → ℤ × ℤ → Prop
  | .draw id x y _, id', p => id' = id ∧ p = (x, y)
  | _, _, _ => False

/-- The stale pixels after a call: the one that is drawn, and those of before that a refresh leaves out. -/
def Stales (s s' : Ctl) (e : Call) : Prop := ∀ id sh', s'.sheet id = some sh' → ∀ p ∈ sh'.stale, e.Draws id p ∨
  ∃ sh, s.sheet id = some sh ∧ p ∈ sh.stale ∧ (0 ≤ sh'.height → ¬e.Refreshes id p)

lemma Kept.stales {s' : Ctl} {e : Call} (h : Kept s s') (he : ∀ id p, ¬e.Refreshes id p) : Stales s s' e :=
  fun id sh' hsh' p hp => .inr <| by
    obtain ⟨sh, hsh, hp⟩ := h id sh' hsh' p hp
    exact ⟨sh, hsh, hp, fun _ => he id p⟩

/-- **Every call that callers may make succeeds**, inside all memory, and keeps the invariant. -/
theorem call_spec {e : Call} (hi : Inv s) (ha : Allowed s e) : ∃ s', call s e = some s' ∧ Inv s' ∧ Stales s s' e := by
  cases e with
  | alloc grown address =>
    obtain ⟨s', hrun, hi', hkept⟩ := alloc_spec hi ha
    exact ⟨s', hrun, hi', hkept.stales fun _ _ => id⟩
  | setbuf id' buffer width height transparent =>
    obtain ⟨s', hrun, hi', hkept⟩ := setbuf_spec hi ha
    exact ⟨s', hrun, hi', hkept.stales fun _ _ => id⟩
  | updown id' height =>
    obtain ⟨⟨sh, hsh⟩, hends⟩ := ha
    obtain ⟨s', -, hrun, hi', hkept, -⟩ := updown_spec height hi hsh (hends sh hsh)
    exact ⟨s', hrun, hi', hkept.stales fun _ _ => id⟩
  | slide id' x y =>
    obtain ⟨s', hrun, hi', hkept⟩ := slide_spec hi ha
    exact ⟨s', hrun, hi', hkept.stales fun _ _ => id⟩
  | refresh id' x₀ y₀ x₁ y₁ =>
    obtain ⟨s', hrun, hi', hkept⟩ := refresh_spec hi ha
    exact ⟨s', hrun, hi', fun id sh' hsh' p hp => .inr (hkept id sh' hsh' p hp)⟩
  | free id' =>
    obtain ⟨s', hrun, hi', hkept⟩ := free_spec hi ha
    exact ⟨s', hrun, hi', hkept.stales fun _ _ => id⟩
  | draw id' x y p =>
    obtain ⟨s', hrun, hi', hkept⟩ := draw_spec hi ha
    refine ⟨s', hrun, hi', fun id sh' hsh' q hq => (hkept id sh' hsh' q hq).symm.imp_right ?_⟩
    rintro ⟨sh, hsh, hold⟩
    exact ⟨sh, hsh, hold, fun _ hno => hno⟩

lemma inv_init (h : Init s) : Inv s := by
  have hnone : ∀ id sh, s.sheet id ≠ some sh := fun id sh hsh => by
    rw [h.sheet id] at hsh
    cases hsh
  refine ⟨⟨h.screen, ⟨by rw [h.top], fun n h₀ h₁ => ?_, fun id sh hsh => absurd hsh (hnone id sh)⟩,
    ⟨by rw [h.allocated]; exact List.nodup_nil, fun id => ?_, by rw [h.count, h.allocated]; rfl, by rw [h.count]; omega⟩,
    ⟨fun id sh hsh => absurd hsh (hnone id sh), fun id sh hsh => absurd hsh (hnone id sh)⟩⟩,
    fun x y _ => ?_, fun x y id sh _ hown => ?_⟩
  · rw [h.top] at h₁
    omega
  · rw [h.allocated]
    exact ⟨fun hmem => absurd hmem List.not_mem_nil, fun hsome => by
      obtain ⟨sh, hsh⟩ := hsome
      exact absurd hsh (hnone id sh)⟩
  · rw [h.map]
    exact fun id sh hsh => absurd hsh (hnone id sh)
  · rw [h.map] at hown
    cases hown

/-- **The run lemma** -/
theorem guarded_inv (hs : system.Guarded Allowed s) : Inv s := by
  refine hs.invariant (P := Inv) (fun _ h => inv_init h) fun s e s' hi ha hstep => ?_
  obtain ⟨s₁, hrun, hi₁, -⟩ := call_spec hi ha
  change call s e = some s' at hstep
  rw [hrun] at hstep
  cases hstep
  exact hi₁

/-! ## The compositor -/

lemma repaint_same {s : Ctl} (hi : Inv s) : ∃ s', recompose s 0 0 s.xsize s.ysize = some s' ∧
    ∀ x y, OnScreen s x y → s'.map (cell s.xsize.toNat x y) = s.map (cell s.xsize.toNat x y) := by
  obtain ⟨map, vram, hrun, h⟩ := recompose_spec hi.sound.paintable 0 0 s.xsize s.ysize
  refine ⟨_, hrun, fun x y hon => ?_⟩
  exact topmost_unique hi.sound.heights (h.owner x y hon hon) (hi.shown.owner x y hon)

/-- **The compositor**: a point shows the pixel of its owner, which is the topmost sheet, unless that pixel was drawn
and not refreshed since it was painted. -/
theorem screen_is_composed (s : Ctl) (hs : system.Guarded Allowed s) :
    Heights s ∧
    (∀ x y, OnScreen s x y → Topmost s x y (s.map (cell s.xsize.toNat x y))) ∧
    (∃ s', recompose s 0 0 s.xsize s.ysize = some s' ∧
      ∀ x y, OnScreen s x y → s'.map (cell s.xsize.toNat x y) = s.map (cell s.xsize.toNat x y)) ∧
    (∀ x y id sh, OnScreen s x y → s.map (cell s.xsize.toNat x y) = some id → s.sheet id = some sh →
      (x - sh.vx0, y - sh.vy0) ∉ sh.stale → s.vram.pixel (cell s.stride x y) = s.colour (sh.at x y)) ∧
    (∀ id x₀ y₀ x₁ y₁, Allowed s (.refresh id x₀ y₀ x₁ y₁) → ∃ s', call s (.refresh id x₀ y₀ x₁ y₁) = some s' ∧
      ∀ x y sh, OnScreen s' x y → s'.map (cell s'.xsize.toNat x y) = some id → s'.sheet id = some sh →
        (x - sh.vx0, y - sh.vy0) ∈ box x₀ y₀ x₁ y₁ → s'.vram.pixel (cell s'.stride x y) = s'.colour (sh.at x y)) ∧
    ∀ e, Allowed s e → ∃ s', call s e = some s' ∧ Stales s s' e := by
  have hi := guarded_inv hs
  refine ⟨hi.sound.heights, hi.shown.owner, repaint_same hi, hi.shown.pixel, fun id x₀ y₀ x₁ y₁ ha => ?_, fun e ha => ?_⟩
  · obtain ⟨s', hrun, hi', hstales⟩ := call_spec hi ha
    refine ⟨s', hrun, fun x y sh hon howner hsh hin => hi'.shown.pixel x y id sh hon howner hsh fun hstale => ?_⟩
    obtain ⟨sh', hsh', hlow, -⟩ := howner ▸ hi'.shown.owner x y hon
    cases hsh.symm.trans hsh'
    rcases hstales id sh hsh _ hstale with hno | ⟨-, -, -, hout⟩
    · exact hno
    · exact hout hlow ⟨rfl, hin⟩
  · obtain ⟨s', hrun, -, hstales⟩ := call_spec hi ha
    exact ⟨s', hrun, hstales⟩

section Desk

def desk : Ctl :=
  { vram := ⟨2, fun _ => 0⟩, map := fun _ => none, xsize := 2, ysize := 1, top := -1, stride := 2
    red_shift := 16, green_shift := 8, blue_shift := 0
    sheets := fun _ => 0, allocated := [], count := 0, capacity := 0, sheet := fun _ => none }

lemma desk_init : Init desk := by
  refine ⟨⟨by decide, by decide, by decide, by decide⟩, fun _ => rfl, rfl, rfl, rfl, fun _ => rfl⟩

/-- A sheet of one pixel is shown at the left of the screen, and the pixel is drawn. -/
def drawn : List Call :=
  [.alloc true (some 7), .setbuf 7 ⟨1, fun _ => 255⟩ 1 1 (-1), .updown 7 0, .draw 7 0 0 0x808080]

/-- After a refresh the screen shows the new pixel. -/
theorem screen_is_composed_desk :
    Topmost (system.after desk drawn) 0 0 (some 7) ∧ (system.after desk drawn).vram.pixel 0 = 255 ∧
      ∃ s', call (system.after desk drawn) (.refresh 7 0 0 1 1) = some s' ∧ s'.vram.pixel 0 = 0x808080 := by
  have hs : system.Guarded Allowed (system.after desk drawn) := by
    refine System.after_guarded (.init desk_init) ⟨⟨?_, trivial⟩, ⟨⟨⟨_, rfl⟩, by decide, by decide, by decide⟩, ?_⟩,
      ⟨⟨_, rfl⟩, ?_⟩, ⟨⟨_, rfl, by decide, by decide, by decide, by decide, ?_⟩, trivial⟩, trivial⟩
    · exact fun _ _ => rfl
    · intro sh hsheet hlow
      cases hsheet
      exact absurd hlow (by decide)
    · intro sh hsheet _
      cases hsheet
      decide
    · exact fun _ hopaque => absurd rfl hopaque
  have hscreen := screen_is_composed _ hs
  have hon : (0, 0) ∈ box 0 0 2 1 := ⟨by decide, by decide, by decide, by decide⟩
  have hallowed : Allowed (system.after desk drawn) (.refresh 7 0 0 1 1) := by
    refine ⟨⟨_, rfl⟩, fun sh hsheet _ => ?_⟩
    cases hsheet
    decide
  obtain ⟨s', hrun, hshown⟩ := hscreen.2.2.2.2.1 7 0 0 1 1 hallowed
  have hs' : some s' = call (system.after desk drawn) (.refresh 7 0 0 1 1) := hrun.symm
  cases hs'
  exact ⟨hscreen.2.1 0 0 hon, rfl, _, hrun, hshown 0 0 _ hon rfl rfl ⟨by decide, by decide, by decide, by decide⟩⟩

/-- A sheet as wide as an `int` can be, one pixel from the left: its end is none. -/
theorem wide_sheet_overflows :
    ¬ ∀ s, system.Guarded Proper s → ∀ e, Proper s e → ∃ s', call s e = some s' := by
  intro h
  have hs : system.Guarded Proper (system.after desk
      [.alloc true (some 7), .setbuf 7 ⟨2147483647, fun _ => 255⟩ 2147483647 1 (-1), .slide 7 1 0]) := by
    refine System.after_guarded (.init desk_init) ⟨?_, ⟨⟨_, rfl⟩, by decide, by decide, by decide⟩,
      ⟨⟨_, rfl⟩, by decide, by decide⟩, trivial⟩
    exact fun _ _ => rfl
  obtain ⟨s', hrun⟩ := h _ hs (.updown 7 0) ⟨_, rfl⟩
  have hnone : call (system.after desk
      [.alloc true (some 7), .setbuf 7 ⟨2147483647, fun _ => 255⟩ 2147483647 1 (-1), .slide 7 1 0]) (.updown 7 0) = none := by
    rfl
  rw [hnone] at hrun
  cases hrun

end Desk

end PlantOS.Gui.Compositor
