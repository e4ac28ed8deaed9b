import Mathlib.Algebra.Group.Nat.Defs
import Mathlib.Data.List.FinRange
import PlantOS.Lib.Holding
import PlantOS.Lib.Run

/-!
# Input devices

Keyboards and pointers that share the counters of the keys and buttons that are held, one repeat slot and the caps lock.
-/

namespace PlantOS.Input

open Function (update)

abbrev Source := ℕ

abbrev Buttons := Fin 32 → Bool

/-- The values of `uint16_t` -/
def u16 (n : ℕ) : ℕ := n % 2 ^ 16

/-- `input_keyboard_t`; `down` holds codes below 512. -/
structure Keyboard where
  down : ℕ → Bool := fun _ => false
  softwareRepeat : Bool := false

/-- `mouse_event_t` -/
structure MouseEvent where
  x : ℤ := 0
  y : ℤ := 0
  wheel : ℤ := 0
  buttons : Buttons := fun _ => false

/-- What the devices cause: `input_key_deliver`, `user_signal_send(target, SIGINT)`, an event for the task of the mouse -/
inductive Output
  | deliver (code : ℕ) (pressed : Bool)
  | sigint
  | mouse (event : MouseEvent)

/-- The devices and the variables of `input_device.c` -/
structure Core where
  keyboards : Source → Keyboard
  mice : Source → Buttons
  keyReferences : ℕ → ℕ
  capsLock : Bool
  repeatSource : Option Source
  repeatCode : ℕ
  repeatDeadline : ℕ
  buttonReferences : Fin 32 → ℕ
  buttons : Buttons
  log : List Output

namespace Core

def down (c : Core) (source : Source) (code : ℕ) : Bool := (c.keyboards source).down code

def setDown (c : Core) (source : Source) (code : ℕ) (pressed : Bool) : Core :=
  let k := c.keyboards source
  { c with keyboards := update c.keyboards source { k with down := update k.down code pressed } }

def output (c : Core) (o : Output) : Core := { c with log := c.log ++ [o] }

end Core

def isModifier (code : ℕ) : Bool := code ∈ [0x2a, 0x36, 0x1d, 0x11d, 0x38, 0x138, 0x15b, 0x15c, 0x3a, 0x45, 0x46]

/-! ### Keys -/

/-- `key_references[code]++`: the first keyboard that holds the key of the caps lock turns it. -/
def countKey (code : ℕ) (c : Core) : Core :=
  { c with keyReferences := update c.keyReferences code (u16 (c.keyReferences code + 1))
           capsLock := if c.keyReferences code = 0 ∧ code = 0x3a then !c.capsLock else c.capsLock }

/-- `--key_references[code]` -/
def uncountKey (code : ℕ) (c : Core) : Core :=
  { c with keyReferences := update c.keyReferences code (u16 (c.keyReferences code + (2 ^ 16 - 1))) }

/-- The rest of `input_keyboard_event`, behind the counters -/
def keyChanged (source : Source) (code : ℕ) (pressed : Bool) (now : ℕ) (c : Core) : Core :=
  let c :=
    if pressed && (c.keyboards source).softwareRepeat && !isModifier code then
      { c with repeatSource := some source, repeatCode := code, repeatDeadline := now + 500000000 }
    else if !pressed && c.repeatSource = some source && code = c.repeatCode then { c with repeatSource := none }
    else c
  let c :=
    if pressed && code = 0x2e && (c.keyReferences 0x1d ≠ 0 || c.keyReferences 0x11d ≠ 0) then c.output .sigint
    else c
  c.output (.deliver code pressed)

/-- `input_keyboard_event`; `now` is the time. -/
def inputKeyboardEvent (source : Source) (code : ℕ) (pressed : Bool) (now : ℕ) (c : Core) : Core :=
  if code = 0 ∨ 512 ≤ code then c
  else
    let wasDown := c.down source code
    if !pressed && !wasDown then c
    else if pressed ≠ wasDown then
      let c := c.setDown source code (!wasDown)
      if pressed then keyChanged source code pressed now (countKey code c)
      else
        let c := uncountKey code c
        if c.keyReferences code ≠ 0 then c else keyChanged source code pressed now c
    else keyChanged source code pressed now c

def inputKeyboardRelease (source : Source) (c : Core) : Core :=
  let c := if c.repeatSource = some source then { c with repeatSource := none } else c
  (List.range' 1 511).foldl (fun c code => if c.down source code then inputKeyboardEvent source code false 0 c else c) c

/-- `input_keyboard_tick`, which reads the time twice -/
def inputKeyboardTick (now now' : ℕ) (c : Core) : Core :=
  if c.repeatSource ≠ none ∧ c.repeatDeadline ≤ now then
    { c with repeatDeadline := now' + 33000000 }.output (.deliver c.repeatCode true)
  else c

/-- One pass of the loop of `input_mouse_event`: the button was changed to `held`. -/
def buttonChanged (bit : Fin 32) (held : Bool) (c : Core) : Core :=
  if held then
    { c with buttonReferences := update c.buttonReferences bit (u16 (c.buttonReferences bit + 1))
             buttons := update c.buttons bit true }
  else
    let c := { c with buttonReferences := update c.buttonReferences bit (u16 (c.buttonReferences bit + (2 ^ 16 - 1))) }
    if c.buttonReferences bit = 0 then { c with buttons := update c.buttons bit false } else c

def inputMouseEvent (source : Source) (event : MouseEvent) (c : Core) : Core :=
  let old := c.mice source
  let c := (List.finRange 32).foldl
    (fun c bit => if old bit ≠ event.buttons bit then buttonChanged bit (event.buttons bit) c else c) c
  let c := { c with mice := update c.mice source event.buttons }
  c.output (.mouse { event with buttons := c.buttons })

/-- `hid_detach`, for a device that has told whether it is a pointer -/
def hidDetach (source : Source) (pointer : Bool) (c : Core) : Core :=
  let c := inputKeyboardRelease source c
  if pointer then inputMouseEvent source {} c else c

/-! ## What the events do -/

open Lib
open Function (update_eq_self update_of_ne update_self)

variable {att : Finset Source} {c c' : Core} {source d : Source} {code k : ℕ} {pressed : Bool} {now now' : ℕ} {b : Fin 32}
  {event : MouseEvent}

def Core.released (c : Core) (code : ℕ) : ℕ :=
  c.log.countP fun
    | .deliver k false => k = code
    | _ => false

/-- **The counters are right.** -/
structure Counted (att : Finset Source) (c : Core) : Prop where
  keys : ∀ code, 0 < code → code < 512 → c.keyReferences code = Holding.count att c.down code
  keysSmall : ∀ code, c.keyReferences code < 2 ^ 16
  range : ∀ d ∈ att, ∀ code, c.down d code = true → 0 < code ∧ code < 512
  buttons : ∀ b, c.buttonReferences b = Holding.count att c.mice b
  buttonsSmall : ∀ b, c.buttonReferences b < 2 ^ 16
  mask : ∀ b, c.buttons b = true ↔ 0 < c.buttonReferences b

lemma u16_of_lt {n : ℕ} (h : n < 2 ^ 16) : u16 n = n := Nat.mod_eq_of_lt h

lemma u16_pred {n : ℕ} (hpos : 0 < n) (h : n < 2 ^ 16) : u16 (n + (2 ^ 16 - 1)) = n - 1 := by
  unfold u16
  omega

/-! ### The fields -/

lemma setDown_down (c : Core) (source : Source) (code : ℕ) (pressed : Bool) :
    (c.setDown source code pressed).down = update c.down source (update (c.down source) code pressed) := by
  funext d k
  by_cases hd : d = source
  · subst hd
    show (update c.keyboards d _ d).down k = _
    rw [update_self, update_self]
    rfl
  · simp [Core.setDown, Core.down, hd]

lemma down_congr {e c : Core} (h : e.keyboards = c.keyboards) : e.down = c.down := by
  funext d k
  exact congrArg (fun keyboards => (keyboards d).down k) h

lemma keyChanged_same (source : Source) (code : ℕ) (pressed : Bool) (now : ℕ) (c : Core) :
    (keyChanged source code pressed now c).keyboards = c.keyboards ∧ (keyChanged source code pressed now c).mice = c.mice ∧
      (keyChanged source code pressed now c).keyReferences = c.keyReferences ∧
      (keyChanged source code pressed now c).capsLock = c.capsLock ∧
      (keyChanged source code pressed now c).buttonReferences = c.buttonReferences ∧
      (keyChanged source code pressed now c).buttons = c.buttons := by
  unfold keyChanged Core.output
  dsimp only
  split_ifs <;> exact ⟨rfl, rfl, rfl, rfl, rfl, rfl⟩

lemma keyChanged_released (source : Source) (code : ℕ) (pressed : Bool) (now : ℕ) (c : Core) (k : ℕ) :
    (keyChanged source code pressed now c).released k = c.released k + if code = k ∧ pressed = false then 1 else 0 := by
  unfold keyChanged Core.output Core.released
  dsimp only
  cases pressed <;> split_ifs <;> simp_all [List.countP_append]

lemma keyChanged_repeat (source : Source) (code : ℕ) (pressed : Bool) (now : ℕ) (c : Core) :
    (keyChanged source code pressed now c).repeatSource = none ∨
      ((keyChanged source code pressed now c).repeatSource = c.repeatSource ∧
        (keyChanged source code pressed now c).repeatCode = c.repeatCode ∧
        (pressed = false → ¬(c.repeatSource = some source ∧ code = c.repeatCode))) ∨
      (pressed = true ∧ (keyChanged source code pressed now c).repeatSource = some source ∧
        (keyChanged source code pressed now c).repeatCode = code) := by
  unfold keyChanged Core.output
  dsimp only
  cases pressed <;> split_ifs <;> simp_all

lemma Counted.changed (h : Counted att c) (source : Source) (code : ℕ) (pressed : Bool) (now : ℕ) :
    Counted att (keyChanged source code pressed now c) := by
  obtain ⟨hk, hm, hr, -, hbr, hb⟩ := keyChanged_same source code pressed now c
  have hdown := down_congr hk
  exact ⟨by rw [hr, hdown]; exact h.keys, by rw [hr]; exact h.keysSmall, by rw [hdown]; exact h.range,
    by rw [hbr, hm]; exact h.buttons, by rw [hbr]; exact h.buttonsSmall, by rw [hbr, hb]; exact h.mask⟩

/-! ### Keys -/

/-- How an event for a key of an attached keyboard ends -/
structure KeyDone (att : Finset Source) (source : Source) (code : ℕ) (pressed : Bool) (c c' : Core) : Prop where
  counted : Counted att c'
  down : c'.down = update c.down source (update (c.down source) code pressed)
  released : ∀ k, c'.released k = c.released k +
    if 0 < Holding.count att c.down k ∧ Holding.count att c'.down k = 0 then 1 else 0
  capsLock : c'.capsLock = xor c.capsLock
    (decide (code = 0x3a ∧ Holding.count att c.down code = 0 ∧ 0 < Holding.count att c'.down code))
  mice : c'.mice = c.mice
  repeats : c'.repeatSource = none ∨ (c'.repeatSource = c.repeatSource ∧ c'.repeatCode = c.repeatCode ∧
      (pressed = false → c.down source code = true → Holding.count att c.down code = 1 →
        ¬(c.repeatSource = some source ∧ code = c.repeatCode))) ∨
    pressed = true ∧ c'.repeatSource = some source ∧ c'.repeatCode = code

lemma count_setDown (hs : source ∈ att) (hcode : pressed = !c.down source code) (k : ℕ) :
    Holding.count att (update c.down source (update (c.down source) code pressed)) k +
        (if k = code ∧ pressed = false then 1 else 0) =
      Holding.count att c.down k + if k = code ∧ pressed = true then 1 else 0 := by
  have hupd := Holding.count_update c.down (update (c.down source) code pressed) k hs
  by_cases hk : k = code
  · subst hk
    rw [update_self] at hupd
    cases hd : c.down source k <;> simp_all
  · rw [update_of_ne hk] at hupd
    simp only [hk, false_and, if_false, Nat.add_zero]
    omega

lemma count_other (hdown : c'.down = update c.down source (update (c.down source) code pressed))
    (hk : k ≠ code) (att : Finset Source) : Holding.count att c'.down k = Holding.count att c.down k := by
  refine Holding.count_congr fun d _ => ?_
  rw [hdown]
  by_cases hd : d = source
  · subst hd
    rw [update_self, update_of_ne hk]
  · rw [update_of_ne hd]

lemma Counted.setKey (h : Counted att c) (hcode : 0 < code ∧ code < 512) {down' : ℕ → Bool} {refs : ℕ}
    (hdown : c'.down = update c.down source down') (hrefs : c'.keyReferences = update c.keyReferences code refs)
    (hsm : refs < 2 ^ 16) (hcnt : refs = Holding.count att c'.down code)
    (hoth : ∀ k, k ≠ code → down' k = c.down source k) (hmice : c'.mice = c.mice)
    (hbut : c'.buttonReferences = c.buttonReferences) (hmask : c'.buttons = c.buttons) : Counted att c' := by
  have hsame : ∀ d k, k ≠ code → c'.down d k = c.down d k := by
    intro d k hk
    rw [hdown]
    by_cases hd : d = source
    · subst hd
      rw [update_self]
      exact hoth k hk
    · rw [update_of_ne hd]
  refine ⟨fun k hpos hlt => ?_, fun k => ?_, fun d hd k hk => ?_, by rw [hbut, hmice]; exact h.buttons,
    by rw [hbut]; exact h.buttonsSmall, by rw [hbut, hmask]; exact h.mask⟩
  · rw [hrefs]
    by_cases hk : k = code
    · subst hk
      rw [update_self]
      exact hcnt
    · rw [update_of_ne hk, h.keys k hpos hlt]
      exact (Holding.count_congr fun d _ => hsame d k hk).symm
  · rw [hrefs]
    by_cases hk : k = code
    · subst hk
      rwa [update_self]
    · rw [update_of_ne hk]
      exact h.keysSmall k
  · by_cases hkc : k = code
    · subst hkc
      exact hcode
    · rw [hsame d k hkc] at hk
      exact h.range d hd k hk

lemma event_press (hcode : 0 < code ∧ code < 512) (hd : c.down source code = false) :
    inputKeyboardEvent source code true now c = keyChanged source code true now
    (countKey code (c.setDown source code true)) := by
  unfold inputKeyboardEvent
  rw [if_neg (by omega)]
  simp [hd]

lemma event_release (hcode : 0 < code ∧ code < 512) (hd : c.down source code = true) :
    inputKeyboardEvent source code false now c =
      if (uncountKey code (c.setDown source code false)).keyReferences code ≠ 0 then uncountKey code
        (c.setDown source code false)
      else keyChanged source code false now (uncountKey code (c.setDown source code false)) := by
  unfold inputKeyboardEvent
  rw [if_neg (by omega)]
  simp [hd]

lemma event_same (hcode : 0 < code ∧ code < 512) (hd : c.down source code = pressed) :
    inputKeyboardEvent source code pressed now c = if pressed then keyChanged source code true now c else c := by
  unfold inputKeyboardEvent
  rw [if_neg (by omega)]
  cases pressed <;> simp [hd]

lemma event_down (source : Source) (pressed : Bool) (now : ℕ) (c : Core) (hcode : 0 < code ∧ code < 512) :
    (inputKeyboardEvent source code pressed now c).down =
        update c.down source (update (c.down source) code pressed) ∧
      (inputKeyboardEvent source code pressed now c).mice = c.mice := by
  have hchg : ∀ pressed' c', (keyChanged source code pressed' now c').down = c'.down ∧
      (keyChanged source code pressed' now c').mice = c'.mice := by
    intro pressed' c'
    obtain ⟨hk, hm, -⟩ := keyChanged_same source code pressed' now c'
    exact ⟨down_congr hk, hm⟩
  by_cases hsame : c.down source code = pressed
  · rw [event_same hcode hsame, ← hsame, update_eq_self, update_eq_self]
    split_ifs
    · exact hchg true c
    · exact ⟨rfl, rfl⟩
  · cases pressed with
    | true =>
      rw [event_press hcode (by simpa using hsame), ← setDown_down]
      exact hchg true _
    | false =>
      rw [event_release hcode (by simpa using hsame), ← setDown_down]
      split_ifs
      · exact ⟨rfl, rfl⟩
      · exact hchg false _

/-- **`input_keyboard_event`** of an attached keyboard; a counter that is full is not counted up. -/
theorem Counted.key (h : Counted att c) (pressed : Bool) (now : ℕ) (hs : source ∈ att) (hcode : 0 < code ∧ code < 512)
    (hfull : pressed = true → c.down source code = false → c.keyReferences code + 1 < 2 ^ 16) :
    KeyDone att source code pressed c (inputKeyboardEvent source code pressed now c) := by
  have hkeys := h.keys code hcode.1 hcode.2
  have hsm := h.keysSmall code
  by_cases hsame : c.down source code = pressed
  · have hdown : update c.down source (update (c.down source) code pressed) = c.down := by
      rw [← hsame, update_eq_self, update_eq_self]
    rw [event_same hcode hsame]
    cases pressed with
    | false =>
      refine ⟨h, hdown.symm, fun k => ?_, ?_, rfl, .inr (.inl ⟨rfl, rfl, fun _ hd => ?_⟩)⟩
      · rw [if_neg Bool.false_ne_true, if_neg (by omega), Nat.add_zero]
      · rw [if_neg Bool.false_ne_true, decide_eq_false (by omega), Bool.xor_false]
      · exact absurd (hd.symm.trans hsame) (by simp)
    | true =>
      rw [if_pos rfl]
      obtain ⟨hk, hm, -, hcaps, -, -⟩ := keyChanged_same source code true now c
      have hdown' := down_congr hk
      refine ⟨h.changed source code true now, hdown'.trans hdown.symm, fun k => ?_, ?_, hm, ?_⟩
      · rw [hdown', keyChanged_released, if_neg (by simp), if_neg (by omega)]
      · rw [hdown', hcaps, decide_eq_false (by omega), Bool.xor_false]
      · exact (keyChanged_repeat source code true now c).imp_right (.imp_left fun hr => ⟨hr.1, hr.2.1, fun hf => by cases hf⟩)
  have hp : pressed = !c.down source code := by
    cases pressed <;> cases hd : c.down source code <;> simp_all
  have hcnt := count_setDown hs hp
  have hone := hcnt code
  have hoths : ∀ k, k ≠ code → update (c.down source) code pressed k = c.down source k :=
    fun k hk => update_of_ne hk ..
  cases pressed with
  | true =>
    -- the key is pressed
    have hd : c.down source code = false := by simpa using hp.symm
    rw [event_press hcode hd]
    have hlt := hfull rfl hd
    generalize hc' : countKey code (c.setDown source code true) = c'
    have hdown : c'.down = update c.down source (update (c.down source) code true) := by
      rw [← hc', ← setDown_down]
      rfl
    rw [← hdown] at hone hcnt
    have hrefs : c'.keyReferences = update c.keyReferences code (c.keyReferences code + 1) := by
      rw [← hc', ← u16_of_lt hlt]
      rfl
    simp at hone
    have hcntd : Counted att c' := h.setKey hcode hdown hrefs hlt (by omega) hoths (hc' ▸ rfl) (hc' ▸ rfl) (hc' ▸ rfl)
    obtain ⟨hk, hm, -, hcaps, -, -⟩ := keyChanged_same source code true now c'
    have hdown' := down_congr hk
    refine ⟨hcntd.changed source code true now, hdown'.trans hdown, fun k => ?_, ?_, hm.trans (hc' ▸ rfl), ?_⟩
    · have hk := hcnt k
      simp at hk
      rw [hdown', keyChanged_released, if_neg (by simp), if_neg (by omega), ← hc']
      rfl
    · rw [hdown', hcaps, ← hkeys, show c'.capsLock = if c.keyReferences code = 0 ∧
        code = 0x3a then !c.capsLock else c.capsLock from
        hc' ▸ rfl]
      have hpos : 0 < Holding.count att c'.down code := by omega
      by_cases hfst : c.keyReferences code = 0 ∧ code = 0x3a
      · rw [if_pos hfst, decide_eq_true ⟨hfst.2, hfst.1, hpos⟩, Bool.xor_true]
      · rw [if_neg hfst, decide_eq_false fun hf => hfst ⟨hf.2.1, hf.1⟩, Bool.xor_false]
    · have hr := keyChanged_repeat source code true now c'
      rw [show c'.repeatSource = c.repeatSource from hc' ▸ rfl, show c'.repeatCode = c.repeatCode from hc' ▸ rfl] at hr
      exact hr.imp_right (.imp_left fun hr => ⟨hr.1, hr.2.1, fun hf => by cases hf⟩)
  | false =>
    -- the key is released
    have hd : c.down source code = true := by simpa using hp.symm
    rw [event_release hcode hd]
    have hpos : 0 < Holding.count att c.down code := Holding.count_pos.mpr ⟨source, hs, hd⟩
    generalize hc' : uncountKey code (c.setDown source code false) = c'
    have hdown : c'.down = update c.down source (update (c.down source) code false) := by
      rw [← hc', ← setDown_down]
      rfl
    rw [← hdown] at hone hcnt
    have hrefs : c'.keyReferences = update c.keyReferences code (c.keyReferences code - 1) := by
      rw [← hc', ← u16_pred (by omega) hsm]
      rfl
    simp at hone
    have hcntd : Counted att c' := h.setKey hcode hdown hrefs (by omega) (by omega) hoths (hc' ▸ rfl) (hc' ▸ rfl) (hc' ▸ rfl)
    have hleft : c'.keyReferences code = Holding.count att c'.down code := hcntd.keys code hcode.1 hcode.2
    have hrel : c'.released = c.released := hc' ▸ rfl
    have hcapsLock : c'.capsLock = c.capsLock := hc' ▸ rfl
    have hmice : c'.mice = c.mice := hc' ▸ rfl
    have hslot : c'.repeatSource = c.repeatSource := hc' ▸ rfl
    have hslotCode : c'.repeatCode = c.repeatCode := hc' ▸ rfl
    have hoth : ∀ k, k ≠ code → Holding.count att c'.down k = Holding.count att c.down k := by
      intro k hk
      have := hcnt k
      simpa [hk] using this
    split_ifs with hheld
    · -- another keyboard holds the key
      refine ⟨hcntd, hdown, fun k => ?_, ?_, hmice, .inr (.inl ⟨hslot, hslotCode, fun _ _ hlast => by omega⟩)⟩
      · rw [hrel, if_neg, Nat.add_zero]
        by_cases hk : k = code
        · rw [hk]
          omega
        · rw [hoth k hk]
          omega
      · rw [hcapsLock, decide_eq_false (by omega), Bool.xor_false]
    · obtain ⟨hk, hm, -, hcaps, -, -⟩ := keyChanged_same source code false now c'
      have hdown' := down_congr hk
      refine ⟨hcntd.changed source code false now, hdown'.trans hdown, fun k => ?_, ?_, hm.trans hmice, ?_⟩
      · rw [hdown', keyChanged_released, hrel]
        by_cases hk : k = code
        · subst hk
          rw [if_pos ⟨rfl, rfl⟩, if_pos (by omega)]
        · rw [if_neg fun hf => hk hf.1.symm, hoth k hk, if_neg (by omega)]
      · rw [hdown', hcaps, hcapsLock, decide_eq_false (by omega), Bool.xor_false]
      · have hr := keyChanged_repeat source code false now c'
        rw [hslot, hslotCode] at hr
        exact hr.imp_right (.imp_left fun hr => ⟨hr.1, hr.2.1, fun _ _ _ => hr.2.2 rfl⟩)

/-! ### Releasing a keyboard -/

lemma count_le (c : Core) (down' : ℕ → Bool) (hs : source ∈ att) (hle : ∀ k, down' k = true → c.down source k = true) (k : ℕ) :
    Holding.count att (update c.down source down') k ≤ Holding.count att c.down k := by
  have hupd := Holding.count_update c.down down' k hs
  cases hk : down' k with
  | true =>
    rw [hk, hle k hk] at hupd
    omega
  | false =>
    rw [hk, Bool.toNat_false] at hupd
    omega

lemma releaseLoop_spec {codes : List ℕ} (hcds : ∀ k ∈ codes, 0 < k ∧ k < 512) (h : Counted att c) (hs : source ∈ att)
    (hslot : c.repeatSource ≠ some source)
    (hc' : c' = codes.foldl (fun c code => if c.down source code then inputKeyboardEvent source code false 0 c else c) c) :
    Counted att c' ∧ c'.down = update c.down source (fun k => c.down source k && decide (k ∉ codes)) ∧
      (∀ k, c'.released k = c.released k +
        if 0 < Holding.count att c.down k ∧ Holding.count att c'.down k = 0 then 1 else 0) ∧
      c'.capsLock = c.capsLock ∧ c'.mice = c.mice ∧
      (c'.repeatSource = none ∨ c'.repeatSource = c.repeatSource ∧ c'.repeatCode = c.repeatCode) := by
  induction codes generalizing c with
  | nil =>
    subst hc'
    refine ⟨h, ?_, fun k => by rw [if_neg (by omega), Nat.add_zero], rfl, rfl, .inr ⟨rfl, rfl⟩⟩
    simp
  | cons code codes ih =>
    obtain ⟨hcode, hcds⟩ := List.forall_mem_cons.mp hcds
    rw [List.foldl_cons] at hc'
    by_cases hd : c.down source code = true
    · rw [if_pos hd] at hc'
      obtain ⟨h1, h2, h3, h4, h5, h6⟩ := h.key false 0 hs hcode (by simp)
      generalize inputKeyboardEvent source code false 0 c = e at h1 h2 h3 h4 h5 h6 hc'
      have hslot' : e.repeatSource ≠ some source := by
        rcases h6 with h6 | ⟨h6, -⟩ | ⟨hf, -⟩
        · rw [h6]
          exact fun hf => by cases hf
        · rwa [h6]
        · cases hf
      obtain ⟨i1, i2, i3, i4, i5, i6⟩ := ih hcds h1 hslot' hc'
      have hdown : c'.down = update c.down source (fun k => c.down source k && decide (k ∉ code :: codes)) := by
        rw [i2, h2, Function.update_idem, update_self]
        congr 1
        funext k
        by_cases hk : k = code
        · subst hk
          simp
        · simp [hk]
      have hle1 := count_le c (update (c.down source) code false) hs fun k hk => by
        by_cases hkc : k = code
        · exact hkc ▸ hd
        · rwa [update_of_ne hkc] at hk
      have hle2 := count_le e (fun k => e.down source k && decide (k ∉ codes)) hs fun k hk => by
        simp only [Bool.and_eq_true] at hk
        exact hk.1
      rw [← h2] at hle1
      rw [← i2] at hle2
      have hzero : ¬(code = 0x3a ∧ Holding.count att c.down code = 0 ∧ 0 < Holding.count att e.down code) := by
        have := hle1 code
        omega
      refine ⟨i1, hdown, fun k => ?_, ?_, i5.trans h5, ?_⟩
      · have := hle1 k
        have := hle2 k
        rw [i3, h3]
        split_ifs <;> omega
      · rw [i4, h4, decide_eq_false hzero, Bool.xor_false]
      · rcases i6 with i6 | ⟨i6, i7⟩
        · exact .inl i6
        · rcases h6 with h6 | ⟨h6, h7, -⟩ | ⟨hf, -⟩
          · exact .inl (i6.trans h6)
          · exact .inr ⟨i6.trans h6, i7.trans h7⟩
          · cases hf
    · rw [if_neg hd] at hc'
      obtain ⟨i1, i2, i3⟩ := ih hcds h hslot hc'
      refine ⟨i1, ?_, i3⟩
      rw [i2]
      congr 1
      funext k
      by_cases hk : k = code
      · subst hk
        simp [hd]
      · simp [hk]

/-- **`input_keyboard_release`** -/
theorem Counted.release (h : Counted att c) (hs : source ∈ att) (hc' : c' = inputKeyboardRelease source c) :
    Counted att c' ∧ c'.down = update c.down source (fun _ => false) ∧
      (∀ k, c'.released k = c.released k +
        if 0 < Holding.count att c.down k ∧ Holding.count att c'.down k = 0 then 1 else 0) ∧
      c'.capsLock = c.capsLock ∧ c'.mice = c.mice ∧
      (c'.repeatSource = none ∨ c'.repeatSource ≠ some source ∧ c'.repeatSource = c.repeatSource ∧
      c'.repeatCode = c.repeatCode) := by
  unfold inputKeyboardRelease at hc'
  have hcds : ∀ k ∈ List.range' 1 511, 0 < k ∧ k < 512 := by
    intro k hk
    rw [List.mem_range'_1] at hk
    omega
  have hdown : ∀ e : Core, Counted att e →
      (fun k => e.down source k && decide (k ∉ List.range' 1 511)) = fun _ => false := by
    intro e he
    funext k
    cases hk : e.down source k with
    | false => rfl
    | true =>
      have := he.range source hs k hk
      simp only [Bool.true_and, decide_eq_false_iff_not, not_not, List.mem_range'_1]
      omega
  by_cases hslot : c.repeatSource = some source
  · rw [if_pos hslot] at hc'
    have h' : Counted att { c with repeatSource := none } := { h with }
    obtain ⟨i1, i2, i3, i4, i5, i6⟩ := releaseLoop_spec hcds h' hs (fun hf => by cases hf) hc'
    rw [hdown _ h'] at i2
    refine ⟨i1, i2, i3, i4, i5, .inl ?_⟩
    rcases i6 with i6 | ⟨i6, -⟩
    · exact i6
    · exact i6
  · rw [if_neg hslot] at hc'
    obtain ⟨i1, i2, i3, i4, i5, i6⟩ := releaseLoop_spec hcds h hs hslot hc'
    rw [hdown _ h] at i2
    exact ⟨i1, i2, i3, i4, i5, i6.imp_right fun hr => ⟨by rw [hr.1]; exact hslot, hr⟩⟩

/-! ### Buttons -/

lemma buttonChanged_eq (bit : Fin 32) (held : Bool) (c : Core) :
    (buttonChanged bit held c).buttonReferences = update c.buttonReferences bit
        (u16 (c.buttonReferences bit + if held then 1 else 2 ^ 16 - 1)) ∧
      (buttonChanged bit held c).buttons = update c.buttons bit
        (held || c.buttons bit && decide (u16 (c.buttonReferences bit + (2 ^ 16 - 1)) ≠ 0)) ∧
      (buttonChanged bit held c).keyboards = c.keyboards ∧ (buttonChanged bit held c).mice = c.mice ∧
      (buttonChanged bit held c).keyReferences = c.keyReferences ∧ (buttonChanged bit held c).capsLock = c.capsLock ∧
      (buttonChanged bit held c).repeatSource = c.repeatSource ∧ (buttonChanged bit held c).repeatCode = c.repeatCode ∧
      (buttonChanged bit held c).log = c.log := by
  unfold buttonChanged
  cases held with
  | true => exact ⟨rfl, rfl, rfl, rfl, rfl, rfl, rfl, rfl, rfl⟩
  | false =>
    simp only [Bool.false_eq_true, if_false, update_self, Bool.false_or]
    split_ifs with hzero
    · refine ⟨rfl, ?_, rfl, rfl, rfl, rfl, rfl, rfl, rfl⟩
      rw [decide_eq_false (not_not.mpr hzero), Bool.and_false]
    · refine ⟨rfl, ?_, rfl, rfl, rfl, rfl, rfl, rfl, rfl⟩
      rw [decide_eq_true hzero, Bool.and_true, update_eq_self]

lemma buttonLoop_spec {bits : List (Fin 32)} (hbits : bits.Nodup) (old new : Buttons)
    (hc' : c' = bits.foldl (fun c bit => if old bit ≠ new bit then buttonChanged bit (new bit) c else c) c) :
    (∀ b, c'.buttonReferences b = if b ∈ bits ∧ old b ≠ new b
        then u16 (c.buttonReferences b + if new b then 1 else 2 ^ 16 - 1) else c.buttonReferences b) ∧
      (∀ b, c'.buttons b = if b ∈ bits ∧ old b ≠ new b
        then new b || c.buttons b && decide (u16 (c.buttonReferences b + (2 ^ 16 - 1)) ≠ 0) else c.buttons b) ∧
      c'.keyboards = c.keyboards ∧ c'.mice = c.mice ∧ c'.keyReferences = c.keyReferences ∧ c'.capsLock = c.capsLock ∧
      c'.repeatSource = c.repeatSource ∧ c'.repeatCode = c.repeatCode ∧ c'.log = c.log := by
  induction bits generalizing c with
  | nil =>
    subst hc'
    exact ⟨fun b => by simp, fun b => by simp, rfl, rfl, rfl, rfl, rfl, rfl, rfl⟩
  | cons bit bits ih =>
    obtain ⟨hbit, hbits⟩ := List.nodup_cons.mp hbits
    rw [List.foldl_cons] at hc'
    by_cases hchg : old bit ≠ new bit
    · rw [if_pos hchg] at hc'
      obtain ⟨h1, h2, h3, h4, h5, h6, h7, h8, h9⟩ := buttonChanged_eq bit (new bit) c
      obtain ⟨i1, i2, i3, i4, i5, i6, i7, i8, i9⟩ := ih hbits hc'
      have hin : bit ∈ bit :: bits ∧ old bit ≠ new bit := ⟨List.mem_cons_self, hchg⟩
      refine ⟨fun b => ?_, fun b => ?_, i3.trans h3, i4.trans h4, i5.trans h5, i6.trans h6, i7.trans h7, i8.trans h8,
        i9.trans h9⟩
      · rw [i1, h1]
        by_cases hb : b = bit
        · subst hb
          rw [if_neg fun hf : b ∈ bits ∧ _ => hbit hf.1, if_pos hin, update_self]
        · simp [hb]
      · rw [i2, h1, h2]
        by_cases hb : b = bit
        · subst hb
          rw [if_neg fun hf : b ∈ bits ∧ _ => hbit hf.1, if_pos hin, update_self]
        · simp [hb]
    · rw [if_neg hchg] at hc'
      obtain ⟨i1, i2, i3⟩ := ih hbits hc'
      refine ⟨fun b => ?_, fun b => ?_, i3⟩
      · rw [i1]
        by_cases hb : b = bit
        · subst hb
          simp [hchg]
        · simp [hb]
      · rw [i2]
        by_cases hb : b = bit
        · subst hb
          simp [hchg]
        · simp [hb]

lemma mouse_devices (source : Source) (event : MouseEvent) (c : Core) :
    (inputMouseEvent source event c).down = c.down ∧
      (inputMouseEvent source event c).mice = update c.mice source event.buttons := by
  unfold inputMouseEvent
  dsimp only
  generalize he : (List.finRange 32).foldl (fun e bit => if c.mice source bit ≠ event.buttons bit
    then buttonChanged bit (event.buttons bit) e else e) c = w
  obtain ⟨-, -, h3, h4, -⟩ := buttonLoop_spec (List.nodup_finRange 32) (c.mice source) event.buttons he.symm
  exact ⟨down_congr h3, by rw [← h4]; rfl⟩

/-- **`input_mouse_event`** of an attached pointer; a counter that is full is not counted up. -/
theorem Counted.mouse (h : Counted att c) (event : MouseEvent) (hs : source ∈ att) (hc' : c' = inputMouseEvent source event c)
    (hfull : ∀ b, event.buttons b = true → c.mice source b = false → c.buttonReferences b + 1 < 2 ^ 16) :
    Counted att c' ∧ c'.down = c.down ∧ c'.mice = update c.mice source event.buttons ∧ (∀ k, c'.released k = c.released k) ∧
      c'.capsLock = c.capsLock ∧ c'.repeatSource = c.repeatSource ∧ c'.repeatCode = c.repeatCode := by
  obtain ⟨hdown, hmice⟩ := mouse_devices source event c
  rw [← hc'] at hdown hmice
  unfold inputMouseEvent at hc'
  dsimp only at hc'
  generalize he : (List.finRange 32).foldl (fun e bit => if c.mice source bit ≠ event.buttons bit
    then buttonChanged bit (event.buttons bit) e else e) c = w at hc'
  obtain ⟨h1, h2, -, -, h5, h6, h7, h8, h9⟩ := buttonLoop_spec (List.nodup_finRange 32) (c.mice source) event.buttons he.symm
  -- each counter goes up by one, down by one, or stays
  have hcnt : ∀ b, c'.buttonReferences b + (c.mice source b).toNat = c.buttonReferences b + (event.buttons b).toNat ∧
      c'.buttonReferences b < 2 ^ 16 ∧ (c'.buttons b = true ↔ 0 < c'.buttonReferences b) := by
    intro b
    have hsm := h.buttonsSmall b
    have hmask := h.mask b
    have hfull := hfull b
    have hlast : c.mice source b = true → 0 < c.buttonReferences b := fun hd => by
      rw [h.buttons]
      exact Holding.count_pos.mpr ⟨source, hs, hd⟩
    rw [show c'.buttonReferences = w.buttonReferences from hc' ▸ rfl, show c'.buttons = w.buttons from hc' ▸ rfl, h1, h2]
    simp only [List.mem_finRange, true_and]
    cases hold : c.mice source b <;> cases hnew : event.buttons b
    · simpa using ⟨hsm, hmask⟩
    · have hlt := hfull hnew hold
      simp [u16_of_lt hlt]
      omega
    · have hpos := hlast hold
      rw [show c.buttons b = true from hmask.mpr hpos]
      simp only [Bool.false_eq_true, if_false, u16_pred hpos hsm]
      simp
      omega
    · simpa using ⟨hsm, hmask⟩
  refine ⟨⟨?_, ?_, ?_, fun b => ?_, fun b => (hcnt b).2.1, fun b => (hcnt b).2.2⟩, hdown, hmice, fun k => ?_, ?_, ?_, ?_⟩
  · rw [hdown, show c'.keyReferences = w.keyReferences from hc' ▸ rfl, h5]
    exact h.keys
  · rw [show c'.keyReferences = w.keyReferences from hc' ▸ rfl, h5]
    exact h.keysSmall
  · rw [hdown]
    exact h.range
  · have hupd := Holding.count_update c.mice event.buttons b hs
    have := (hcnt b).1
    have := h.buttons b
    rw [hmice]
    omega
  · rw [hc']
    simp [Core.released, Core.output, h9]
  · exact (show c'.capsLock = w.capsLock from hc' ▸ rfl).trans h6
  · exact (show c'.repeatSource = w.repeatSource from hc' ▸ rfl).trans h7
  · exact (show c'.repeatCode = w.repeatCode from hc' ▸ rfl).trans h8

/-! ## What can be relied on of the input devices -/

/-- The devices, and what was seen of them: how often a key that was held was held by no keyboard any more, and how
often the key of the caps lock was held by a first one -/
structure State where
  core : Core
  attached : Finset Source
  /-- The devices that have told that they are pointers -/
  pointer : Source → Bool
  falls : ℕ → ℕ
  capsRises : ℕ

inductive Event
  | attach (source : Source) (softwareRepeat pointer : Bool)
  | key (source : Source) (code : ℕ) (pressed : Bool) (now : ℕ)
  | mouse (source : Source) (event : MouseEvent)
  | tick (now now' : ℕ)
  | detach (source : Source)

def State.held (s : State) (code : ℕ) : ℕ := Holding.count s.attached s.core.down code

/-- What a step to `s'` shows -/
def State.observe (s s' : State) : State :=
  { s' with falls := fun code => s.falls code + if 0 < s.held code ∧ s'.held code = 0 then 1 else 0
            capsRises := s.capsRises + if s.held 0x3a = 0 ∧ 0 < s'.held 0x3a then 1 else 0 }

def step (s : State) : Event → Option State
  | .attach source softwareRepeat pointer =>
    if source ∈ s.attached then none
    else some (s.observe { s with
      core := { s.core with keyboards := update s.core.keyboards source { softwareRepeat := softwareRepeat }
                            mice := update s.core.mice source fun _ => false }
      attached := insert source s.attached
      pointer := update s.pointer source pointer })
  | .key source code pressed now =>
    if source ∈ s.attached then some (s.observe { s with core := inputKeyboardEvent source code pressed now s.core }) else none
  | .mouse source event =>
    if source ∈ s.attached then some (s.observe { s with core := inputMouseEvent source event s.core }) else none
  | .tick now now' => some (s.observe { s with core := inputKeyboardTick now now' s.core })
  | .detach source =>
    if source ∈ s.attached then
      some (s.observe { s with core := hidDetach source (s.pointer source) s.core, attached := s.attached.erase source })
    else none

def boot : State :=
  { core := { keyboards := fun _ => {}, mice := fun _ _ => false, keyReferences := fun _ => 0, capsLock := false,
              repeatSource := none, repeatCode := 0, repeatDeadline := 0, buttonReferences := fun _ => 0,
              buttons := fun _ => false, log := [] }
    attached := ∅, pointer := fun _ => false, falls := fun _ => 0, capsRises := 0 }

def system : System State Event where
  init := (· = boot)
  step := step

/-- **The contract.** The counters say how many devices hold a key or a button; a release is delivered when the last
keyboard lets go; what is repeated is held by the keyboard that repeats it; the caps lock turns when a first keyboard
holds its key. -/
structure Sound (s : State) : Prop where
  keys : ∀ code, 0 < code → code < 512 → s.core.keyReferences code = (s.attached.filter fun d => s.core.down d code).card
  buttons : ∀ b, s.core.buttonReferences b = (s.attached.filter fun d => s.core.mice d b).card
  releases : ∀ code, s.core.released code = s.falls code
  repeats : ∀ d, s.core.repeatSource = some d → d ∈ s.attached ∧ s.core.down d s.core.repeatCode = true
  caps : s.core.capsLock = decide (s.capsRises % 2 = 1)

/-- When a step keeps the contract: no counter is full, the keyboard that repeats a key is the last one to release it,
and a device that goes has told that it is a pointer if it holds buttons. -/
def Proper (s : State) : Event → Prop
  | .key source code pressed _ => 0 < code → code < 512 →
    (pressed = true → s.core.down source code = false → s.core.keyReferences code + 1 < 2 ^ 16) ∧
    (pressed = false → s.core.down source code = true → s.core.repeatSource = some source → code = s.core.repeatCode →
      s.core.keyReferences code = 1)
  | .mouse source event => ∀ b, event.buttons b = true → s.core.mice source b = false → s.core.buttonReferences b + 1 < 2 ^ 16
  | .detach source => s.pointer source = true ∨ ∀ b, s.core.mice source b = false
  | _ => True

instance (s : State) (e : Event) : Decidable (Proper s e) := by
  unfold Proper
  split <;> infer_instance

variable {s s' : State} {c c' : Core} {att : Finset Source} {source : Source} {code : ℕ} {pressed : Bool}

/-- **The invariant.** -/
structure Consistent (s : State) : Prop where
  counted : Counted s.attached s.core
  releases : ∀ code, s.core.released code = s.falls code
  repeats : ∀ d, s.core.repeatSource = some d → d ∈ s.attached ∧ s.core.down d s.core.repeatCode = true
  caps : s.core.capsLock = decide (s.capsRises % 2 = 1)

theorem Consistent.sound (h : Consistent s) : Sound s := ⟨h.counted.keys, h.counted.buttons, h.releases, h.repeats, h.caps⟩

lemma odd_succ (n : ℕ) : decide ((n + 1) % 2 = 1) = !decide (n % 2 = 1) := by
  rw [← decide_not]
  exact decide_eq_decide.mpr (by omega)

lemma Consistent.observe (h : Consistent s) (hcntd : Counted s'.attached s'.core)
    (hrel : ∀ k, s'.core.released k = s.core.released k + if 0 < s.held k ∧ s'.held k = 0 then 1 else 0)
    (hcaps : s'.core.capsLock = xor s.core.capsLock (decide (s.held 0x3a = 0 ∧ 0 < s'.held 0x3a)))
    (hrep : ∀ d, s'.core.repeatSource = some d → d ∈ s'.attached ∧ s'.core.down d s'.core.repeatCode = true) :
    Consistent (s.observe s') := by
  refine ⟨hcntd, fun k => ?_, hrep, ?_⟩
  · show s'.core.released k = s.falls k + _
    rw [hrel, h.releases]
  · show s'.core.capsLock = decide ((s.capsRises + if s.held 0x3a = 0 ∧ 0 < s'.held 0x3a then 1 else 0) % 2 = 1)
    rw [hcaps, h.caps]
    split_ifs with hrise
    · rw [decide_eq_true hrise, Bool.xor_true, odd_succ]
    · rw [decide_eq_false hrise, Bool.xor_false, Nat.add_zero]

/-! ### Steps -/

lemma Consistent.attach (h : Consistent s) {softwareRepeat pointer : Bool}
    (hs : step s (.attach source softwareRepeat pointer) = some s') : Consistent s' := by
  rw [step] at hs
  split_ifs at hs with hin
  cases hs
  have hne : ∀ d ∈ s.attached, d ≠ source := fun d hd heq => hin (heq ▸ hd)
  generalize hcore : ({ s.core with
    keyboards := update s.core.keyboards source { softwareRepeat := softwareRepeat }
    mice := update s.core.mice source fun _ => false } : Core) = e
  have hdown : e.down = update s.core.down source fun _ => false := by
    rw [← hcore]
    funext d k
    by_cases hd : d = source
    · subst hd
      simp [Core.down]
    · simp [Core.down, hd]
  have hmice : e.mice = update s.core.mice source fun _ => false := hcore ▸ rfl
  have hkeys : ∀ k, Holding.count (insert source s.attached) e.down k = Holding.count s.attached s.core.down k := by
    intro k
    rw [Holding.count_insert _ _ hin, hdown, update_self]
    exact Holding.count_congr fun d hd => by rw [update_of_ne (hne d hd)]
  refine h.observe ⟨fun k hpos hlt => ?_, hcore ▸ h.counted.keysSmall, fun d hd k hk => ?_, fun b => ?_,
    hcore ▸ h.counted.buttonsSmall, hcore ▸ h.counted.mask⟩ (fun k => ?_) ?_ fun d hd => ?_
  · rw [hkeys, ← h.counted.keys k hpos hlt, ← hcore]
  · rcases Finset.mem_insert.mp hd with rfl | hd
    · rw [hdown, update_self] at hk
      cases hk
    · rw [hdown, update_of_ne (hne d hd)] at hk
      exact h.counted.range d hd k hk
  · rw [Holding.count_insert _ _ hin, hmice, update_self, Bool.toNat_false, Nat.add_zero, ← hcore]
    rw [show s.core.buttonReferences b = _ from h.counted.buttons b]
    exact (Holding.count_congr fun d hd => by rw [update_of_ne (hne d hd)]).symm
  · rw [State.held, State.held, hkeys, if_neg (by omega), Nat.add_zero, ← hcore]
    rfl
  · rw [State.held, State.held, hkeys, decide_eq_false (by omega), Bool.xor_false, ← hcore]
  · rw [← hcore] at hd
    obtain ⟨hmem, hdow⟩ := h.repeats d hd
    refine ⟨Finset.mem_insert_of_mem hmem, ?_⟩
    rw [hdown, update_of_ne (hne d hmem), ← hcore]
    exact hdow

lemma Consistent.key (h : Consistent s) {now : ℕ} (hg : Proper s (.key source code pressed now))
    (hs : step s (.key source code pressed now) = some s') : Consistent s' := by
  rw [step] at hs
  split_ifs at hs with hin
  cases hs
  by_cases hcode : 0 < code ∧ code < 512
  swap
  · have hsame : inputKeyboardEvent source code pressed now s.core = s.core := by
      unfold inputKeyboardEvent
      rw [if_pos (by omega)]
    rw [hsame]
    refine h.observe h.counted (fun k => ?_) ?_ h.repeats
    · rw [if_neg fun hf => hf.1.ne' hf.2, Nat.add_zero]
    · rw [decide_eq_false fun hf => hf.2.ne' hf.1, Bool.xor_false]
  obtain ⟨hfull, hlast⟩ := hg hcode.1 hcode.2
  have hdone := h.counted.key pressed now hin hcode hfull
  have hcaps := hdone.capsLock
  have hkeys := h.counted.keys code hcode.1 hcode.2
  refine h.observe hdone.counted hdone.released ?_ fun d hd => ?_
  · rw [hcaps]
    congr 1
    refine decide_eq_decide.mpr ⟨?_, fun hf => ⟨?_, ?_⟩⟩
    · rintro ⟨rfl, hf⟩
      exact hf
    · -- the counters of the other keys have not changed
      by_contra hne
      have hk := count_other hdone.down (fun heq => hne heq.symm) s.attached
      exact absurd (hf.2.trans_eq (hk.trans hf.1)) (lt_irrefl 0)
    · by_cases hc : code = 0x3a
      · exact hc ▸ hf
      · have hk := count_other hdone.down (fun heq => hc heq.symm) s.attached
        exact absurd (hf.2.trans_eq (hk.trans hf.1)) (lt_irrefl 0)
  · have hdown := hdone.down
    rcases hdone.repeats with hr | ⟨hr, hrc, hkept⟩ | ⟨rfl, hr, hrc⟩
    · rw [hr] at hd
      cases hd
    · rw [hr] at hd
      obtain ⟨hmem, hheld⟩ := h.repeats d hd
      refine ⟨hmem, ?_⟩
      rw [hrc, hdown]
      by_cases hds : d = source
      · subst hds
        rw [update_self]
        by_cases hk : s.core.repeatCode = code
        · rw [hk, update_self]
          cases hp : pressed with
          | true => rfl
          | false =>
            rw [hk] at hheld
            exact absurd ⟨hd, hk.symm⟩ (hkept hp hheld (hkeys.symm.trans (hlast hp hheld hd hk.symm)))
        · rwa [update_of_ne hk]
      · rwa [update_of_ne hds]
    · rw [hr] at hd
      cases hd
      refine ⟨hin, ?_⟩
      rw [hrc, hdown, update_self, update_self]

lemma Consistent.mouse (h : Consistent s) {event : MouseEvent} (hg : Proper s (.mouse source event))
    (hs : step s (.mouse source event) = some s') : Consistent s' := by
  rw [step] at hs
  split_ifs at hs with hin
  cases hs
  obtain ⟨hcntd, hdown, -, hrel, hcaps, hr, hrc⟩ := h.counted.mouse event hin rfl hg
  have hheld : ∀ k, State.held { s with core := inputMouseEvent source event s.core } k = s.held k :=
    fun k => by rw [State.held, State.held, hdown]
  refine h.observe hcntd (fun k => ?_) ?_ fun d hd => ?_
  · rw [hrel, hheld, if_neg (by omega), Nat.add_zero]
  · rw [hcaps, hheld, decide_eq_false (by omega), Bool.xor_false]
  · rw [hdown, hrc]
    exact h.repeats d (hr.symm.trans hd)

lemma Consistent.tick (h : Consistent s) {now now' : ℕ} (hs : step s (.tick now now') = some s') : Consistent s' := by
  rw [step] at hs
  cases hs
  have hsame : ∀ k, (inputKeyboardTick now now' s.core).released k = s.core.released k := by
    intro k
    unfold inputKeyboardTick
    split_ifs
    · simp [Core.output, Core.released]
    · rfl
  have hfiel : (inputKeyboardTick now now' s.core).keyboards = s.core.keyboards ∧
      (inputKeyboardTick now now' s.core).mice = s.core.mice ∧
      (inputKeyboardTick now now' s.core).keyReferences = s.core.keyReferences ∧
      (inputKeyboardTick now now' s.core).capsLock = s.core.capsLock ∧
      (inputKeyboardTick now now' s.core).buttonReferences = s.core.buttonReferences ∧
      (inputKeyboardTick now now' s.core).buttons = s.core.buttons ∧
      (inputKeyboardTick now now' s.core).repeatSource = s.core.repeatSource ∧
      (inputKeyboardTick now now' s.core).repeatCode = s.core.repeatCode := by
    unfold inputKeyboardTick
    split_ifs <;> exact ⟨rfl, rfl, rfl, rfl, rfl, rfl, rfl, rfl⟩
  generalize inputKeyboardTick now now' s.core = e at hsame hfiel
  obtain ⟨hk, hm, hr, hcaps, hbr, hb, hslot, hslotCode⟩ := hfiel
  have hdown := down_congr hk
  have hheld : ∀ k, State.held { s with core := e } k = s.held k := fun k => by rw [State.held, State.held, hdown]
  refine h.observe ⟨?_, ?_, ?_, ?_, ?_, ?_⟩ (fun k => ?_) ?_ fun d hd => ?_
  · rw [hr, hdown]
    exact h.counted.keys
  · rw [hr]
    exact h.counted.keysSmall
  · rw [hdown]
    exact h.counted.range
  · rw [hbr, hm]
    exact h.counted.buttons
  · rw [hbr]
    exact h.counted.buttonsSmall
  · rw [hbr, hb]
    exact h.counted.mask
  · rw [hsame, hheld, if_neg (by omega), Nat.add_zero]
  · rw [hcaps, hheld, decide_eq_false (by omega), Bool.xor_false]
  · rw [hdown, hslotCode]
    exact h.repeats d (hslot.symm.trans hd)

lemma Counted.erase (h : Counted att c) (hs : source ∈ att) (hdown : ∀ k, c.down source k = false)
    (hmice : ∀ b, c.mice source b = false) :
    Counted (att.erase source) c ∧ ∀ k, Holding.count (att.erase source) c.down k = Holding.count att c.down k := by
  have hkeys : ∀ k, Holding.count (att.erase source) c.down k = Holding.count att c.down k := by
    intro k
    have hers := Holding.count_erase c.down k hs
    rwa [hdown, Bool.toNat_false, Nat.add_zero] at hers
  refine ⟨⟨fun k hpos hlt => ?_, h.keysSmall, fun d hd => h.range d (Finset.mem_of_mem_erase hd), fun b => ?_,
    h.buttonsSmall, h.mask⟩,
    hkeys⟩
  · rw [hkeys]
    exact h.keys k hpos hlt
  · have hers := Holding.count_erase c.mice b hs
    rw [hmice, Bool.toNat_false, Nat.add_zero] at hers
    rw [hers]
    exact h.buttons b

lemma Consistent.detach (h : Consistent s) (hg : Proper s (.detach source)) (hs : step s (.detach source) = some s') :
    Consistent s' := by
  rw [step] at hs
  split_ifs at hs with hin
  cases hs
  obtain ⟨hcntd, hdown, hrel, hcaps, hmice, hslot⟩ := h.counted.release hin rfl
  -- what is left of it when it goes
  have hgone : ∃ e, hidDetach source (s.pointer source) s.core = e ∧ Counted s.attached e ∧
      e.down = update s.core.down source (fun _ => false) ∧ (∀ b, e.mice source b = false) ∧
      (∀ k, e.released k = s.core.released k +
        if 0 < Holding.count s.attached s.core.down k ∧ Holding.count s.attached e.down k = 0 then 1 else 0) ∧
      e.capsLock = s.core.capsLock ∧
      (e.repeatSource = none ∨ e.repeatSource ≠ some source ∧ e.repeatSource = s.core.repeatSource ∧
        e.repeatCode = s.core.repeatCode) := by
    unfold hidDetach
    generalize inputKeyboardRelease source s.core = w at hcntd hdown hrel hcaps hmice hslot
    cases hp : s.pointer source with
    | true =>
      obtain ⟨hcntd', hdown', hmice', hrel', hcaps', hr', hrc'⟩ := hcntd.mouse {} hin rfl (by simp)
      refine ⟨_, rfl, hcntd', hdown'.trans hdown, fun b => ?_, fun k => ?_, hcaps'.trans hcaps, ?_⟩
      · dsimp only
        rw [if_pos rfl, hmice', update_self]
      · dsimp only
        rw [if_pos rfl, hrel', hdown', hrel]
      · dsimp only
        rw [if_pos rfl, hr', hrc']
        exact hslot
    | false =>
      have hnone := hg.resolve_left (by rw [hp]; simp)
      exact ⟨w, rfl, hcntd, hdown, fun b => by rw [hmice]; exact hnone b, hrel, hcaps, hslot⟩
  obtain ⟨e, he, hcntd, hdown, hmice, hrel, hcaps, hslot⟩ := hgone
  rw [he]
  obtain ⟨heras, hkeys⟩ := hcntd.erase hin (fun k => by rw [hdown, update_self]) hmice
  have hle := count_le s.core (fun _ => false) hin fun k hk => by cases hk
  rw [← hdown] at hle
  refine h.observe heras (fun k => ?_) ?_ fun d hd => ?_
  · rw [hrel, State.held, State.held, hkeys]
  · have hcnt := hle 0x3a
    rw [hcaps, State.held, State.held, hkeys, decide_eq_false (by omega), Bool.xor_false]
  · rcases hslot with hr | ⟨hne, hr, hrc⟩
    · have hd : e.repeatSource = some d := hd
      rw [hr] at hd
      cases hd
    · have hds : d ≠ source := fun heq => hne (heq ▸ hd)
      obtain ⟨hmem, hheld⟩ := h.repeats d (hr.symm.trans hd)
      refine ⟨Finset.mem_erase.mpr ⟨hds, hmem⟩, ?_⟩
      show e.down d e.repeatCode = true
      rw [hdown, update_of_ne hds, hrc]
      exact hheld

lemma consistent_boot : Consistent boot := by
  refine ⟨⟨fun k _ _ => ?_, by simp [boot], fun _ hd => ?_, fun b => ?_, by simp [boot], by simp [boot]⟩, fun _ => rfl,
    fun d hd => ?_,
    rfl⟩
  · rfl
  · simp [boot] at hd
  · rfl
  · cases hd

lemma Consistent.step (h : Consistent s) {e : Event} (hg : Proper s e) (hs : Input.step s e = some s') : Consistent s' := by
  cases e with
  | attach source softwareRepeat pointer => exact h.attach hs
  | key source code pressed now => exact h.key hg hs
  | mouse source event => exact h.mouse hg hs
  | tick now now' => exact h.tick hs
  | detach source => exact h.detach hg hs

/-- **The counters, the releases and the repeated key fit the devices that are there**, in every run of proper steps. -/
theorem devices_fit (hs : system.Guarded Proper s) : Sound s :=
  (hs.invariant (P := Consistent) (fun s (hi : s = boot) => hi ▸ consistent_boot) fun _ _ _ h hg he => h.step hg he).sound

/-- A run of proper steps: two keyboards hold a key, which the second one repeats when the first one is unplugged. -/
def twoKeyboards : List Event :=
  [.attach 1 true true, .attach 2 true false, .key 1 0x1e true 0, .key 2 0x1e true 1000, .key 1 0x3a true 2000,
    .mouse 1 { buttons := fun b => b = 0 }, .detach 1, .tick 600000000 600000001]

theorem twoKeyboards_fit :
    Sound (system.after boot twoKeyboards) ∧ (system.after boot twoKeyboards).core.keyReferences 0x1e = 1 ∧
      (system.after boot twoKeyboards).core.repeatSource = some 2 :=
  ⟨devices_fit (System.after_guarded (.init rfl) (by decide +kernel)), by decide +kernel, by decide +kernel⟩

/-- The keyboard that repeats a key releases it before another one does. -/
def repeaterFirst : List Event :=
  [.attach 1 true false, .attach 2 true false, .key 1 0x1e true 0, .key 2 0x1e true 1000, .key 2 0x1e false 2000,
    .key 1 0x1e false 3000]

/-- The key goes on being repeated when no keyboard holds it. -/
theorem released_key_is_repeated : ¬ ∀ s, system.Reachable s → Sound s := by
  intro h
  have hs := h _ (System.replay_reachable (.init rfl) repeaterFirst)
  have hr : (system.replay boot repeaterFirst).core.repeatSource = some 2 := by decide +kernel
  have hd : (system.replay boot repeaterFirst).core.down 2 (system.replay boot repeaterFirst).core.repeatCode = false := by
    decide +kernel
  exact absurd ((hs.repeats 2 hr).2.symm.trans hd) (by simp)

end PlantOS.Input
