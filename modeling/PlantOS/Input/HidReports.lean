import Mathlib.Algebra.Group.Int.Defs
import Mathlib.Data.List.GetD
import PlantOS.Input.Counts
import PlantOS.Lib.Loop

/-!
# HID devices

The report descriptor of a USB device, and what a report that it sends does to its keyboard and its pointer.
-/

namespace PlantOS.Input

/-- `hid_report_t`, by its id: the reports of a device have different ids. -/
structure Report where
  id : ℕ
  bits : ℕ := 0
  keys : ℕ → Bool := fun _ => false
  buttons : Buttons := fun _ => false

/-- `hid_field_t`. `report` is the id of the report; there are no `usages` where the source has a null pointer. -/
structure Field where
  report : ℕ
  usage : ℕ
  usageEnd : ℕ
  usages : List ℕ
  logicalMin : ℤ
  logicalMax : ℤ
  offset : ℕ
  width : ℕ
  count : ℕ
  array : Bool
  signedValue : Bool
  relative : Bool

/-- `usb_hid_t` without the keyboard and the pointer, which the input devices have -/
structure Hid where
  reports : List Report
  fields : List Field
  reportIds : Bool
  pointer : Bool

/-- HID Keyboard/Keypad usage -> the kernel's logical key code. -/
def hidKeys : List ℕ :=
  List.replicate 4 0 ++
  [0x1e, 0x30, 0x2e, 0x20, 0x12, 0x21, 0x22, 0x23, 0x17, 0x24, 0x25, 0x26, 0x32, 0x31, 0x18, 0x19, 0x10, 0x13, 0x1f,
  0x14, 0x16, 0x2f,
    0x11, 0x2d, 0x15, 0x2c, 0x02, 0x03, 0x04, 0x05, 0x06, 0x07, 0x08, 0x09, 0x0a, 0x0b, 0x1c, 0x01, 0x0e, 0x0f, 0x39,
    0x0c, 0x0d, 0x1a,
    0x1b, 0x2b, 0x2b, 0x27, 0x28, 0x29, 0x33, 0x34, 0x35, 0x3a, 0x3b, 0x3c, 0x3d, 0x3e, 0x3f, 0x40, 0x41, 0x42, 0x43,
    0x44, 0x57, 0x58,
    0x137, 0x46, 0x145, 0x152, 0x147, 0x149, 0x153, 0x14f, 0x151, 0x14d, 0x14b, 0x150, 0x148, 0x45, 0x135, 0x37, 0x4a,
    0x4e, 0x11c,
    0x4f, 0x50, 0x51, 0x4b, 0x4c, 0x4d, 0x47, 0x48, 0x49, 0x52, 0x53, 0x56, 0x15d] ++
  List.replicate 122 0 ++
  [0x1d, 0x2a, 0x38, 0x15b, 0x11d, 0x36, 0x138, 0x15c] ++
  List.replicate 24 0

/-- The values of `uint32_t` -/
def u32 (n : ℕ) : ℕ := n % 2 ^ 32

def signed (bits value : ℕ) : ℤ := if value < 2 ^ (bits - 1) then value else (value : ℤ) - 2 ^ bits

def littleEndian (data : List ℕ) : ℕ := data.foldr (fun byte value => byte + 2 ^ 8 * value) 0

/-! ### The descriptor -/

/-- `hid_global_t` -/
structure Global where
  page : ℕ := 0
  width : ℕ := 0
  count : ℕ := 0
  id : ℕ := 0
  minimum : ℤ := 0
  maximum : ℤ := 0

/-- The variables of `hid_parse`; `collections` are the roles of the open collections. -/
structure Parser where
  global : Global := {}
  stack : List Global := []
  usages : List ℕ := []
  collections : List ℕ := []
  role : ℕ := 0
  usageMin : ℕ := 0
  usageMax : ℕ := 0
  hid : Hid := { reports := [], fields := [], reportIds := false, pointer := false }

/-- The item that is not a long one: the type, the tag, the number of its bytes, and what they say -/
structure Item where
  type : ℕ
  tag : ℕ
  bytes : ℕ
  value : ℕ

def Item.signedValue (i : Item) : ℤ :=
  if i.bytes = 1 then signed 8 i.value else if i.bytes = 2 then signed 16 i.value else signed 32 i.value

/-- The global items; `none` where the descriptor is not valid -/
def globalItem (i : Item) (p : Parser) : Option Parser :=
  match i.tag with
  | 0 => some { p with global.page := i.value }
  | 1 => some { p with global.minimum := i.signedValue }
  | 2 => some { p with global.maximum := if p.global.minimum < 0 then i.signedValue else signed 32 i.value }
  | 7 => some { p with global.width := i.value }
  | 8 => if 0 < i.value ∧ i.value < 256 then some { p with global.id := i.value, hid.reportIds := true } else none
  | 9 => some { p with global.count := i.value }
  | 10 => some { p with stack := p.global :: p.stack }
  | 11 =>
    match p.stack with
    | [] => none
    | frame :: stack => some { p with global := frame, stack := stack }
  | _ => some p

def localItem (i : Item) (p : Parser) : Option Parser :=
  if i.tag ≤ 2 ∧ i.bytes = 0 then none
  else
    let usage := if i.bytes = 4 then i.value else u32 (p.global.page * 2 ^ 16) ||| i.value
    match i.tag with
    | 0 => some { p with usages := p.usages ++ [usage] }
    | 1 => some { p with usageMin := usage }
    | 2 => some { p with usageMax := usage }
    | _ => some p

/-- The usage of the field with this number of an input item -/
def Parser.fieldUsage (p : Parser) (i : ℕ) : ℕ :=
  if p.usages ≠ [] then p.usages.getD (if i < p.usages.length then i else p.usages.length - 1) 0
  else
    let range := u32 (p.usageMax + 2 ^ 32 - p.usageMin)
    u32 (p.usageMin + if i ≤ range then i else range)

def addField (value offset : ℕ) (i : ℕ) (p : Parser) : Option Parser :=
  let array := decide (value &&& 2 = 0)
  let usage := p.fieldUsage i
  let page := usage / 2 ^ 16
  let keyboard := p.role = 1 ∧ page = 7
  let pointer := p.role = 2 ∧ (page = 9 ∨ usage = 0x10030 ∨ usage = 0x10031 ∨ usage = 0x10038)
  if pointer ∧ (usage = 0x10030 ∨ usage = 0x10031) ∧ value &&& 4 = 0 then none
  else if (¬keyboard ∧ ¬pointer) ∨ (array ∧ ¬keyboard ∧ page ≠ 9) then some p
  else
    let field : Field :=
      { report := p.global.id, usage := usage, usageEnd := p.usageMax, usages := if array then p.usages else [],
        logicalMin := p.global.minimum, logicalMax := p.global.maximum, offset := offset + i * p.global.width,
        width := p.global.width, count := if array then p.global.count else 1, array := array,
        signedValue := p.global.minimum < 0, relative := value &&& 4 ≠ 0 }
    some { p with hid.fields := field :: p.hid.fields, hid.pointer := p.hid.pointer || pointer }

def addFields (value offset : ℕ) : List ℕ → Parser → Option Parser
  | [], p => some p
  | i :: is, p => (addField value offset i p).bind (addFields value offset is)

/-- An input item. `capacity` is the size of a transfer. -/
def inputItem (capacity : ℕ) (i : Item) (p : Parser) : Option Parser :=
  let reports := if p.hid.reports.any (·.id = p.global.id) then p.hid.reports else { id := p.global.id } :: p.hid.reports
  let p := { p with hid.reports := reports }
  match reports.find? (·.id = p.global.id) with
  | none => none
  | some report =>
    if p.global.width = 0 ∨ 32 < p.global.width ∨ (capacity * 8 - report.bits) / p.global.width < p.global.count then none
    else
      let fields := if i.value &&& 1 ≠ 0 then 0 else if i.value &&& 2 = 0 then 1 else p.global.count
      (addFields i.value report.bits (List.range fields) p).map fun p =>
        { p with hid.reports := p.hid.reports.map fun r =>
            if r.id = p.global.id then { r with bits := r.bits + p.global.count * p.global.width } else r }

def mainItem (capacity : ℕ) (i : Item) (p : Parser) : Option Parser :=
  let p := match i.tag with
    | 10 =>
      let p' := { p with collections := p.role :: p.collections }
      if i.value = 1 then
        let usage := if p.usages ≠ [] then p.usages.headD 0 else p.usageMin
        some { p' with role := if usage = 0x10006 ∨ usage = 0x10007 then 1 else if usage = 0x10002 then 2 else 0 }
      else some p'
    | 12 =>
      match p.collections with
      | [] => none
      | role :: collections => some { p with role := role, collections := collections }
    | 8 => inputItem capacity i p
    | _ => some p
  p.map fun p => { p with usages := [], usageMin := 0, usageMax := 0 }

def item (capacity : ℕ) (i : Item) (p : Parser) : Option Parser :=
  if i.type = 1 then globalItem i p
  else if i.type = 2 then localItem i p
  else if i.type ≠ 0 then some p
  else mainItem capacity i p

/-- The loop of `hid_parse` over what is left of the descriptor; every pass takes a byte at least. -/
def items (capacity : ℕ) : ℕ → List ℕ → Parser → Option Parser
  | _, [], p => some p
  | 0, _, _ => none
  | n + 1, tagged :: rest, p =>
    if tagged = 0xfe then
      match rest with
      | size :: _ :: rest => if rest.length < size then none else items capacity n (rest.drop size) p
      | _ => none
    else
      let bytes := if tagged % 4 = 3 then 4 else tagged % 4
      if rest.length < bytes then none
      else
        (item capacity ⟨tagged / 4 % 4, tagged / 16, bytes, littleEndian (rest.take bytes)⟩ p).bind
          (items capacity n (rest.drop bytes))

/-- `hid_parse` with memory for all that it allocates: the device of a descriptor that is accepted -/
def hidParse (descriptor : List ℕ) (capacity : ℕ) : Option Hid :=
  (items capacity descriptor.length descriptor {}).bind fun p =>
    if p.collections = [] ∧ (∀ r ∈ p.hid.reports, r.bits + (if p.hid.reportIds then 8 else 0) ≤ capacity * 8 ∧
        (p.hid.reportIds = true → r.id ≠ 0)) ∧ p.hid.fields ≠ [] then some p.hid
    else none

/-! ### The fields of a report -/

def hidValue (data : List ℕ) (offset width : ℕ) (signedValue : Bool) : ℤ :=
  let bytes := (offset % 8 + width + 7) / 8
  let value := littleEndian ((List.range bytes).map fun i => data.getD (offset / 8 + i) 0) / 2 ^ (offset % 8) % 2 ^ width
  if signedValue ∧ width < 32 then signed width value else signed 32 value

def Field.read (f : Field) (data : List ℕ) (i : ℕ) : ℤ := hidValue data (f.offset + i * f.width) f.width f.signedValue

/-- The usage and the value of an element; `none` for one of an array that names no usage -/
def Field.element (f : Field) (value : ℤ) : Option (ℕ × ℤ) :=
  if f.array then
    if value < f.logicalMin ∨ f.logicalMax < value then none
    else
      let index := (value - f.logicalMin).toNat
      if f.usages ≠ [] then if f.usages.length ≤ index then none else some (f.usages.getD index 0, 1)
      else if f.usageEnd < f.usage ∨ f.usageEnd - f.usage < index then none
      else some (f.usage + index, 1)
  else some (f.usage, value)

/-- What `hid_input` gathers of a report -/
structure Decoded where
  keys : ℕ → Bool := fun _ => false
  mouse : MouseEvent := {}
  rollover : Bool := false
  pointer : Bool := false

/-- The loop body of `hid_input` for a usage with a value -/
def applyUsage (relative : Bool) (usage : ℕ) (value : ℤ) (d : Decoded) : Decoded :=
  let page := usage / 2 ^ 16
  let code := usage % 2 ^ 16
  if page = 7 ∧ value ≠ 0 ∧ code < 256 then
    let d := if 1 ≤ code ∧ code ≤ 3 then { d with rollover := true } else d
    let key := hidKeys.getD code 0
    if key ≠ 0 then { d with keys := Function.update d.keys key true } else d
  else if h : page = 9 ∧ 1 ≤ code ∧ code ≤ 32 then
    let bit : Fin 32 := ⟨code - 1, by omega⟩
    { d with mouse.buttons := if value ≠ 0 then Function.update d.mouse.buttons bit true else d.mouse.buttons, pointer := true }
  else if page = 1 ∧ relative then
    let d := if code = 0x30 then { d with mouse.x := value } else d
    let d := if code = 0x31 then { d with mouse.y := value } else d
    let d := if code = 0x38 then { d with mouse.wheel := value } else d
    { d with pointer := true }
  else d

/-- The loop body of `hid_input` for an element -/
def decodeElement (f : Field) (data : List ℕ) (d : Decoded) (i : ℕ) : Decoded :=
  match f.element (f.read data i) with
  | none => d
  | some (usage, value) => applyUsage f.relative usage value d

/-- The loops of `hid_input` over the fields of a report -/
def decode (fields : List Field) (id : ℕ) (data : List ℕ) : Decoded :=
  fields.foldl (fun d f => if f.report ≠ id then d else (List.range f.count).foldl (decodeElement f data) d) {}

/-! ### Reports -/

/-- `modifiers` of `hid_input` -/
def modifiers : List ℕ := [0x1d, 0x2a, 0x36, 0x38, 0x11d, 0x138, 0x15b, 0x15c]

/-- The devices, and the calls of `input_keyboard_event` for a report -/
structure Sent where
  core : Core
  calls : List (ℕ × Bool) := []

/-- A call of `input_keyboard_event`; `time` are the times of the calls. -/
def send (source : Source) (time : ℕ → ℕ) (code : ℕ) (pressed : Bool) (w : Sent) : Sent :=
  ⟨inputKeyboardEvent source code pressed (time code) w.core, w.calls ++ [(code, pressed)]⟩

def pressModifiers (source : Source) (time : ℕ → ℕ) (keys : ℕ → Bool) (w : Sent) : Sent :=
  modifiers.foldl (fun w code => if keys code && !w.core.down source code then send source time code true w else w) w

/-- The second loop: for each byte of the keys, those that have changed -/
def changeKeys (source : Source) (time : ℕ → ℕ) (keys : ℕ → Bool) (w : Sent) : Sent :=
  (List.range 64).foldl (fun w byte =>
    let changed := (List.range' (8 * byte) 8).filter fun code => keys code != w.core.down source code
    changed.foldl (fun w code => if code ∈ modifiers then w else send source time code (keys code) w) w) w

def releaseModifiers (source : Source) (time : ℕ → ℕ) (keys : ℕ → Bool) (w : Sent) : Sent :=
  modifiers.foldl (fun w code => if !keys code && w.core.down source code then send source time code false w else w) w

/-- The id and the contents of a report that the device describes and that is complete -/
def Hid.complete (hid : Hid) (data : List ℕ) : Option (ℕ × List ℕ) :=
  let id := if hid.reportIds && data.length ≠ 0 then data.headD 0 else 0
  let ids := if hid.reportIds then 1 else 0
  match hid.reports.find? (·.id = id) with
  | none => none
  | some report => if data.length = 0 ∨ (data.length - ids) * 8 < report.bits then none else some (id, data.drop ids)

def Hid.anyKey (hid : Hid) (code : ℕ) : Bool := hid.reports.any fun r => r.keys code

def Hid.anyButton (hid : Hid) (b : Fin 32) : Bool := hid.reports.any fun r => r.buttons b

def Hid.setReport (hid : Hid) (id : ℕ) (f : Report → Report) : Hid :=
  { hid with reports := hid.reports.map fun r => if r.id = id then f r else r }

def hidInput (source : Source) (time : ℕ → ℕ) (data : List ℕ) (hid : Hid) (core : Core) : Hid × Sent :=
  match hid.complete data with
  | none => (hid, ⟨core, []⟩)
  | some (id, data) =>
    let d := decode hid.fields id data
    let hid := if d.rollover then hid else hid.setReport id fun r => { r with keys := d.keys }
    let keys := hid.anyKey
    let w := releaseModifiers source time keys (changeKeys source time keys (pressModifiers source time keys ⟨core, []⟩))
    if d.pointer then
      let hid := hid.setReport id fun r => { r with buttons := d.mouse.buttons }
      let buttons := fun b => d.mouse.buttons b || hid.anyButton b
      (hid, { w with core := inputMouseEvent source { d.mouse with buttons := buttons } w.core })
    else (hid, w)

/-! ## What a report does -/

/-! ### The key events -/

section Events

variable {source : Source} {time : ℕ → ℕ} {keys : ℕ → Bool} {w w' w'' : Sent} {codes codes' : List ℕ} {code k : ℕ}

/-- The keys `codes` are set as `keys` has them, by one event each. -/
structure Sends (source : Source) (keys : ℕ → Bool) (codes : List ℕ) (w w' : Sent) : Prop where
  calls : w'.calls = w.calls ++ codes.map fun k => (k, keys k)
  down : w'.core.down =
    Function.update w.core.down source fun k => if k ∈ codes then keys k else w.core.down source k
  mice : w'.core.mice = w.core.mice

lemma Sends.refl (source : Source) (keys : ℕ → Bool) (w : Sent) : Sends source keys [] w w :=
  ⟨by simp, by simp, rfl⟩

lemma Sends.own (h : Sends source keys codes w w') (k : ℕ) :
    w'.core.down source k = if k ∈ codes then keys k else w.core.down source k := by
  rw [h.down, Function.update_self]

lemma Sends.trans (h : Sends source keys codes w w') (h' : Sends source keys codes' w' w'') :
    Sends source keys (codes ++ codes') w w'' := by
  refine ⟨by rw [h'.calls, h.calls]; simp, ?_, h'.mice.trans h.mice⟩
  rw [h'.down, h.down, Function.update_idem, Function.update_self]
  congr 1
  funext k
  by_cases hk : k ∈ codes <;> by_cases hk' : k ∈ codes' <;> simp [hk, hk']

lemma send_sends (hcode : 0 < code ∧ code < 512) : Sends source keys [code] w (send source time code (keys code) w) := by
  obtain ⟨hdown, hmice⟩ := event_down source (keys code) (time code) w.core hcode
  refine ⟨rfl, hdown.trans ?_, hmice⟩
  congr 1
  funext k
  by_cases hk : k = code
  · subst hk
    simp
  · simp [hk]

/-- **A loop over different keys** that sends those that meet a condition -/
lemma sendLoop (P : ℕ → Bool → Bool) (value : ℕ → Bool) (hvalue : ∀ k b, P k b = true → value k = keys k) (hnd : codes.Nodup)
    (hcds : ∀ k ∈ codes, P k (w.core.down source k) = true → 0 < k ∧ k < 512) :
    Sends source keys (codes.filter fun k => P k (w.core.down source k)) w
      (codes.foldl (fun w k => if P k (w.core.down source k) then send source time k (value k) w else w) w) := by
  induction codes generalizing w with
  | nil => exact .refl source keys w
  | cons code codes ih =>
    obtain ⟨hcode, hnd⟩ := List.nodup_cons.mp hnd
    obtain ⟨hhead, hcds⟩ := List.forall_mem_cons.mp hcds
    rw [List.foldl_cons]
    by_cases hP : P code (w.core.down source code) = true
    · rw [if_pos hP, hvalue code _ hP, List.filter_cons_of_pos (p := fun k => P k (w.core.down source k)) hP]
      have hsend : Sends source keys [code] w (send source time code (keys code) w) := send_sends (hhead hP)
      -- what the loop sees of the keys that are left
      have hsame : ∀ k ∈ codes, (send source time code (keys code) w).core.down source k = w.core.down source k := by
        intro k hk
        rw [hsend.own, if_neg]
        simp only [List.mem_singleton]
        exact fun heq => hcode (heq ▸ hk)
      have hrest := ih (w := send source time code (keys code) w) hnd fun k hk hPk => hcds k hk (by rwa [hsame k hk] at hPk)
      rw [List.filter_congr fun k hk => by rw [hsame k hk]] at hrest
      exact hsend.trans hrest
    · rw [if_neg hP, List.filter_cons_of_neg (p := fun k => P k (w.core.down source k)) hP]
      exact ih hnd hcds

lemma modifiers_nodup : modifiers.Nodup := by decide

lemma modifiers_range : ∀ k ∈ modifiers, 0 < k ∧ k < 512 := by decide

lemma press_sends (source : Source) (time : ℕ → ℕ) (keys : ℕ → Bool) (w : Sent) :
    Sends source keys (modifiers.filter fun k => keys k && !w.core.down source k) w (pressModifiers source time keys w) :=
  sendLoop (fun k b => keys k && !b) (fun _ => true) (fun k b hP => by simp at hP; exact hP.1.symm) modifiers_nodup
    fun k hk _ => modifiers_range k hk

lemma release_sends (source : Source) (time : ℕ → ℕ) (keys : ℕ → Bool) (w : Sent) :
    Sends source keys (modifiers.filter fun k => !keys k && w.core.down source k) w (releaseModifiers source time keys w) :=
  sendLoop (fun k b => !keys k && b) (fun _ => false) (fun k b hP => by simp at hP; exact hP.1.symm) modifiers_nodup
    fun k hk _ => modifiers_range k hk

lemma byte_sends (time : ℕ → ℕ) (byte : ℕ) (hval : ∀ k, keys k ≠ w.core.down source k → 0 < k ∧ k < 512) :
    Sends source keys
      ((List.range' (8 * byte) 8).filter fun k => keys k != w.core.down source k && decide (k ∉ modifiers)) w
      (((List.range' (8 * byte) 8).filter fun code => keys code != w.core.down source code).foldl
        (fun w code => if code ∈ modifiers then w else send source time code (keys code) w) w) := by
  have hloop : Sends source keys _ w (((List.range' (8 * byte) 8).filter fun code => keys code != w.core.down source code).foldl
      (fun w k => if decide (k ∉ modifiers) then send source time k (keys k) w else w) w) :=
    sendLoop (fun k _ => decide (k ∉ modifiers)) keys (fun _ _ _ => rfl) ((List.nodup_range' ..).filter _) fun k hk _ =>
      hval k (by simpa using (List.mem_filter.mp hk).2)
  rw [List.filter_filter] at hloop
  simp only [decide_eq_true_eq, ite_not] at hloop
  rwa [List.filter_congr fun k _ => Bool.and_comm ..] at hloop

lemma change_sends (hval : ∀ k, keys k ≠ w.core.down source k → 0 < k ∧ k < 512) :
    Sends source keys ((List.range 512).filter fun k => keys k != w.core.down source k && decide (k ∉ modifiers)) w
      (changeKeys source time keys w) := by
  have hloop : ∀ bytes : List ℕ, bytes.Nodup → ∀ w : Sent, (∀ k, keys k ≠ w.core.down source k → 0 < k ∧ k < 512) →
      Sends source keys ((bytes.flatMap fun byte => List.range' (8 * byte) 8).filter
        fun k => keys k != w.core.down source k && decide (k ∉ modifiers)) w
        (bytes.foldl (fun w byte =>
          ((List.range' (8 * byte) 8).filter fun code => keys code != w.core.down source code).foldl
            (fun w code => if code ∈ modifiers then w else send source time code (keys code) w) w) w) := by
    intro bytes
    induction bytes with
    | nil => exact fun _ w _ => .refl source keys w
    | cons byte bytes ih =>
      intro hnd w hval
      obtain ⟨hbyte, hnd⟩ := List.nodup_cons.mp hnd
      have hfst := byte_sends time byte hval
      rw [List.foldl_cons, List.flatMap_cons, List.filter_append]
      generalize ((List.range' (8 * byte) 8).filter fun code => keys code != w.core.down source code).foldl
        (fun w code => if code ∈ modifiers then w else send source time code (keys code) w) w = v at hfst
      have hown := hfst.own
      have hrest := ih hnd v fun k hk => hval k fun heq => hk (by rw [hown, heq, ite_self])
      -- the keys of the other bytes are as they were
      have hsame : ∀ k ∈ bytes.flatMap fun byte => List.range' (8 * byte) 8, v.core.down source k = w.core.down source k := by
        intro k hk
        obtain ⟨byte', hbyte', hk'⟩ := List.mem_flatMap.mp hk
        rw [List.mem_range'_1] at hk'
        rw [hown, if_neg]
        intro hmem
        have hk := (List.mem_filter.mp hmem).1
        rw [List.mem_range'_1] at hk
        exact hbyte ((show byte' = byte by omega) ▸ hbyte')
      rw [List.filter_congr fun k hk => by rw [hsame k hk]] at hrest
      exact hfst.trans hrest
  have hbits : ((List.range 64).flatMap fun byte => List.range' (8 * byte) 8) = List.range 512 := by decide +kernel
  rw [← hbits]
  exact hloop _ List.nodup_range w hval

/-- **The key events of a report**: modifiers that are pressed, the other keys that have changed, modifiers that are
released -/
theorem report_sends (hval : ∀ k, keys k ≠ w.core.down source k → 0 < k ∧ k < 512)
    (hw' : w' = releaseModifiers source time keys (changeKeys source time keys (pressModifiers source time keys w))) :
    Sends source keys
      (modifiers.filter (fun k => keys k && !w.core.down source k) ++
        ((List.range 512).filter fun k => keys k != w.core.down source k && decide (k ∉ modifiers)) ++
        modifiers.filter fun k => !keys k && w.core.down source k) w w' := by
  have hpres := press_sends source time keys w
  generalize pressModifiers source time keys w = v at hpres hw'
  have hv : ∀ k, v.core.down source k = _ := hpres.own
  have hchan : Sends source keys _ v (changeKeys source time keys v) :=
    change_sends fun k hk => hval k fun heq => hk (by rw [hv, heq, ite_self])
  generalize changeKeys source time keys v = u at hchan hw'
  have hu : ∀ k, u.core.down source k = _ := hchan.own
  have hrel := release_sends source time keys u
  rw [← hw'] at hrel
  have hoths : ((List.range 512).filter fun k => keys k != v.core.down source k && decide (k ∉ modifiers)) =
      (List.range 512).filter fun k => keys k != w.core.down source k && decide (k ∉ modifiers) := by
    refine List.filter_congr fun k _ => ?_
    by_cases hk : k ∈ modifiers
    · simp [hk]
    · rw [hv, if_neg fun hmem => hk (List.mem_filter.mp hmem).1]
  have hlast : (modifiers.filter fun k => !keys k && u.core.down source k) =
      modifiers.filter fun k => !keys k && w.core.down source k := by
    refine List.filter_congr fun k hk => ?_
    rw [hu, if_neg fun hmem => by simp [hk] at hmem, hv]
    cases hkey : keys k with
    | true => rfl
    | false => simp [hkey]
  rw [hoths] at hchan
  rw [hlast] at hrel
  exact (hpres.trans hchan).trans hrel

lemma changed_codes {down : ℕ → Bool} (hval : ∀ k, keys k ≠ down k → 0 < k ∧ k < 512)
    (hcds : codes = modifiers.filter (fun k => keys k && !down k) ++
      ((List.range 512).filter fun k => keys k != down k && decide (k ∉ modifiers)) ++
      modifiers.filter fun k => !keys k && down k) :
    codes.Nodup ∧ ∀ k, k ∈ codes ↔ keys k ≠ down k := by
  subst hcds
  constructor
  · refine List.nodup_append.mpr ⟨List.nodup_append.mpr ⟨modifiers_nodup.filter _, List.nodup_range.filter _, ?_⟩,
      modifiers_nodup.filter _, ?_⟩
    · rintro a ha b hb rfl
      simp only [List.mem_filter, Bool.and_eq_true, decide_eq_true_eq] at ha hb
      exact hb.2.2 ha.1
    · rintro a ha b hb rfl
      simp only [List.mem_append, List.mem_filter, Bool.and_eq_true, decide_eq_true_eq, Bool.not_eq_true'] at ha hb
      rcases ha with ha | ha
      · exact absurd (ha.2.1.symm.trans hb.2.1) (by simp)
      · exact ha.2.2 hb.1
  · intro k
    simp only [List.mem_append, List.mem_filter, List.mem_range, Bool.and_eq_true, decide_eq_true_eq, Bool.not_eq_true']
    cases hk : keys k <;> cases hd : down k <;> by_cases hm : k ∈ modifiers <;> simp_all

end Events

/-! ### The elements of a report -/

/-- What an element of a report says: a usage, a value, and whether its field is relative -/
structure Element where
  relative : Bool
  usage : ℕ
  value : ℤ

def Element.page (e : Element) : ℕ := e.usage / 2 ^ 16

def Element.code (e : Element) : ℕ := e.usage % 2 ^ 16

/-- The elements of the report with this id that name a usage -/
def elements (fields : List Field) (id : ℕ) (data : List ℕ) : List Element :=
  (fields.filter fun f => f.report = id).flatMap fun f =>
    (List.range f.count).filterMap fun i => (f.element (f.read data i)).map fun (usage, value) => ⟨f.relative, usage, value⟩

def Element.Key (k : ℕ) (e : Element) : Prop :=
  e.page = 7 ∧ e.value ≠ 0 ∧ e.code < 256 ∧ hidKeys.getD e.code 0 = k ∧ k ≠ 0

def Element.Rollover (e : Element) : Prop := e.page = 7 ∧ e.value ≠ 0 ∧ 1 ≤ e.code ∧ e.code ≤ 3

def Element.Button (b : Fin 32) (e : Element) : Prop := e.page = 9 ∧ e.code = b + 1 ∧ e.value ≠ 0

def Element.Pointer (e : Element) : Prop := (e.page = 9 ∧ 1 ≤ e.code ∧ e.code ≤ 32) ∨ (e.page = 1 ∧ e.relative = true)

instance (e : Element) : Decidable e.Rollover := by unfold Element.Rollover; infer_instance
instance (e : Element) : Decidable e.Pointer := by unfold Element.Pointer; infer_instance

variable {fields : List Field} {id : ℕ} {data : List ℕ} {P : Decoded → Prop} {Q : Element → Prop}

lemma decode_iff (h : ∀ d relative usage value, P (applyUsage relative usage value d) ↔ P d ∨ Q ⟨relative, usage, value⟩) :
    P (decode fields id data) ↔ P {} ∨ ∃ e ∈ elements fields id data, Q e := by
  have hfld : ∀ (f : Field) (d : Decoded), P ((List.range f.count).foldl (decodeElement f data) d) ↔
      P d ∨ ∃ i ∈ List.range f.count, ∃ e ∈ f.element (f.read data i), Q ⟨f.relative, e.1, e.2⟩ := by
    intro f d
    refine Lib.foldl_iff fun d i _ => ?_
    unfold decodeElement
    cases f.element (f.read data i) with
    | none => simp
    | some e => simpa using h d f.relative e.1 e.2
  unfold decode
  rw [Lib.foldl_iff (P := P) (Q := fun f => f.report = id ∧
    ∃ i ∈ List.range f.count, ∃ e ∈ f.element (f.read data i), Q ⟨f.relative, e.1, e.2⟩)]
  · refine or_congr_right ?_
    simp only [elements, List.mem_flatMap, List.mem_filter, decide_eq_true_eq, List.mem_filterMap, Option.map_eq_some_iff]
    constructor
    · rintro ⟨f, hf, hid, i, hi, e, he, hq⟩
      exact ⟨_, ⟨f, ⟨hf, hid⟩, i, hi, e, he, rfl⟩, hq⟩
    · rintro ⟨_, ⟨f, ⟨hf, hid⟩, i, hi, e, he, rfl⟩, hq⟩
      exact ⟨f, hf, hid, i, hi, e, he, hq⟩
  · intro d f _
    split_ifs with hid
    · simp [hid]
    · rw [hfld]
      simp [not_not.mp hid]

lemma page_code (relative : Bool) (usage : ℕ) (value : ℤ) :
    (⟨relative, usage, value⟩ : Element).page = usage / 2 ^ 16 ∧
    (⟨relative, usage, value⟩ : Element).code = usage % 2 ^ 16 := ⟨rfl, rfl⟩

lemma decode_keys (k : ℕ) : (decode fields id data).keys k = true ↔ ∃ e ∈ elements fields id data, e.Key k := by
  rw [decode_iff (P := fun d => d.keys k = true) (Q := Element.Key k)]
  · simp
  · intro d relative usage value
    unfold applyUsage Element.Key
    simp only [page_code]
    split_ifs <;> simp_all [Function.update_apply] <;> grind

lemma decode_rollover : (decode fields id data).rollover = true ↔ ∃ e ∈ elements fields id data, e.Rollover := by
  rw [decode_iff (P := fun d => d.rollover = true) (Q := Element.Rollover)]
  · simp
  · intro d relative usage value
    unfold applyUsage Element.Rollover
    simp only [page_code]
    split_ifs <;> grind

lemma decode_button (b : Fin 32) : (decode fields id data).mouse.buttons b = true ↔ ∃ e ∈ elements fields id data,
    e.Button b := by
  rw [decode_iff (P := fun d => d.mouse.buttons b = true) (Q := Element.Button b)]
  · simp
  · intro d relative usage value
    unfold applyUsage Element.Button
    simp only [page_code]
    split_ifs <;> simp_all [Function.update_apply, Fin.ext_iff] <;> grind

lemma decode_pointer : (decode fields id data).pointer = true ↔ ∃ e ∈ elements fields id data, e.Pointer := by
  rw [decode_iff (P := fun d => d.pointer = true) (Q := Element.Pointer)]
  · simp
  · intro d relative usage value
    unfold applyUsage Element.Pointer
    simp only [page_code]
    split_ifs <;> grind

/-! ## What can be relied on of HID devices -/

open Lib
open Function (update update_of_ne update_self)

variable {source : Source} {hid hid' : Hid} {id : ℕ} {data descriptor : List ℕ} {capacity : ℕ}

/-! ### Runs -/

def Field.describesButtons (f : Field) : Bool :=
  let button := fun usage => decide (usage / 2 ^ 16 = 9 ∧ 1 ≤ usage % 2 ^ 16 ∧ usage % 2 ^ 16 ≤ 32)
  if f.array then
    if f.usages ≠ [] then f.usages.any button
    else (List.range 32).any fun b => decide (f.usage ≤ 0x90001 + b ∧ 0x90001 + b ≤ f.usageEnd)
  else button f.usage

def Hid.describesButtons (hid : Hid) (id : ℕ) : Bool := hid.fields.any fun f => f.report = id && f.describesButtons

instance (fields : List Field) (id : ℕ) (data : List ℕ) : Decidable (∃ e ∈ elements fields id data, e.Rollover) :=
  List.decidableBEx _ _

/-- A device with, for each id, its latest complete report that is no rollover report and its latest complete one if
it describes buttons; the keys that were held before the latest report, and the key events that it caused -/
structure HidState where
  hid : Hid
  core : Core
  keysOf : ℕ → Option (List ℕ)
  buttonsOf : ℕ → Option (List ℕ)
  before : ℕ → Bool
  calls : List (ℕ × Bool)

inductive HidEvent
  /-- A report, and the times of the key events -/
  | report (data : List ℕ) (time : ℕ → ℕ)
  /-- What the other devices and the timer make of the input devices -/
  | others (core : Core)

def hidStep (source : Source) (s : HidState) : HidEvent → Option HidState
  | .report data time =>
    let (hid, w) := hidInput source time data s.hid s.core
    let s' := { s with hid := hid, core := w.core, calls := w.calls, before := s.core.down source }
    match s.hid.complete data with
    | none => some s'
    | some (id, data) =>
      some { s' with
        keysOf :=
          if ∃ e ∈ elements s.hid.fields id data, e.Rollover then s.keysOf else update s.keysOf id (some data)
        buttonsOf := if s.hid.describesButtons id then update s.buttonsOf id (some data) else s.buttonsOf }
  | .others core =>
    some { s with core := { core with
      keyboards := update core.keyboards source (s.core.keyboards source)
      mice := update core.mice source (s.core.mice source) } }

/-- A device whose descriptor was accepted, which holds nothing at first -/
def hidSystem (source : Source) : System HidState HidEvent where
  init s := (∃ descriptor capacity, hidParse descriptor capacity = some s.hid) ∧ s.core.down source = (fun _ => false) ∧
    s.core.mice source = (fun _ => false) ∧ s.keysOf = (fun _ => none) ∧ s.buttonsOf = (fun _ => none) ∧
    s.before = (fun _ => false) ∧ s.calls = []
  step := hidStep source

def NamesKey (fields : List Field) (id : ℕ) (data : List ℕ) (k : ℕ) : Prop := ∃ e ∈ elements fields id data, e.Key k

def NamesButton (fields : List Field) (id : ℕ) (data : List ℕ) (b : Fin 32) : Prop := ∃ e ∈ elements fields id data, e.Button b

/-- **The contract.** The keys that are held are those of the latest complete reports without rollover, the buttons
those of the latest complete reports that describe buttons; each key that changes causes one event, pressed modifiers
before the other keys and released ones after them. -/
structure Decodes (source : Source) (s : HidState) : Prop where
  keys : ∀ k, s.core.down source k = true ↔
    ∃ r ∈ s.hid.reports, ∃ data, s.keysOf r.id = some data ∧ NamesKey s.hid.fields r.id data k
  buttons : ∀ b, s.core.mice source b = true ↔
    ∃ r ∈ s.hid.reports, ∃ data, s.buttonsOf r.id = some data ∧ NamesButton s.hid.fields r.id data b
  changes : (s.calls.map Prod.fst).Nodup ∧
    ∀ k pressed, (k, pressed) ∈ s.calls ↔ s.before k ≠ s.core.down source k ∧ pressed = s.core.down source k
  order : ∃ first middle last, s.calls = first ++ middle ++ last ∧ (∀ e ∈ first, e.1 ∈ modifiers ∧ e.2 = true) ∧
    (∀ e ∈ middle, e.1 ∉ modifiers) ∧ ∀ e ∈ last, e.1 ∈ modifiers ∧ e.2 = false

/-- When a report keeps the contract: if nothing in it is about a button or a movement, no button is held by reports
of its id. -/
def Tells (s : HidState) : HidEvent → Prop
  | .report data _ =>
    match s.hid.complete data with
    | none => True
    | some (id, data) =>
      (∃ e ∈ elements s.hid.fields id data, e.Pointer) ∨ ∀ r ∈ s.hid.reports, r.id = id → ∀ b, r.buttons b = false
  | .others _ => True

instance (s : HidState) (e : HidEvent) : Decidable (Tells s e) := by
  unfold Tells
  cases e with
  | others => infer_instance
  | report data time => dsimp only; split <;> infer_instance

/-! ### The descriptor -/

def Hid.Fresh (hid : Hid) : Prop := ∀ r ∈ hid.reports, r.keys = (fun _ => false) ∧ r.buttons = fun _ => false

variable {p p' : Parser}

lemma addField_reports {value offset i : ℕ} (h : addField value offset i p = some p') :
    p'.hid.reports = p.hid.reports := by
  unfold addField at h
  dsimp only at h
  split_ifs at h <;> cases h <;> rfl

lemma addFields_reports {value offset : ℕ} {is : List ℕ} (h : addFields value offset is p = some p') :
    p'.hid.reports = p.hid.reports := by
  induction is generalizing p with
  | nil =>
    cases h
    rfl
  | cons i is ih =>
    obtain ⟨q, hq, hrest⟩ := Option.bind_eq_some_iff.mp h
    exact (ih hrest).trans (addField_reports hq)

lemma inputItem_fresh {i : Item} (hp : p.hid.Fresh) (h : inputItem capacity i p = some p') : p'.hid.Fresh := by
  have hall : ∀ r ∈ if p.hid.reports.any (·.id = p.global.id) then p.hid.reports else { id := p.global.id } :: p.hid.reports,
      r.keys = (fun _ => false) ∧ r.buttons = fun _ => false := by
    split_ifs
    · exact hp
    · exact List.forall_mem_cons.mpr ⟨⟨rfl, rfl⟩, hp⟩
  unfold inputItem at h
  generalize (if p.hid.reports.any (·.id = p.global.id) then p.hid.reports else { id := p.global.id } :: p.hid.reports) = reports
    at h hall
  dsimp only at h
  split at h
  · cases h
  split at h
  · cases h
  obtain ⟨q, hq, rfl⟩ := Option.map_eq_some_iff.mp h
  intro r hr
  obtain ⟨r', hr', rfl⟩ := List.mem_map.mp hr
  rw [addFields_reports hq] at hr'
  split_ifs <;> exact hall r' hr'

lemma item_fresh {i : Item} (hp : p.hid.Fresh) (h : item capacity i p = some p') : p'.hid.Fresh := by
  unfold item at h
  split_ifs at h
  · have hrep : p'.hid.reports = p.hid.reports := by
      unfold globalItem at h
      split at h
      case h_5 =>
        split_ifs at h
        cases h
        rfl
      case h_8 =>
        split at h <;> cases h
        rfl
      all_goals
        cases h
        rfl
    unfold Hid.Fresh
    rwa [hrep]
  · have hrep : p'.hid.reports = p.hid.reports := by
      unfold localItem at h
      split_ifs at h <;> dsimp only at h <;> split at h <;> cases h <;> rfl
    unfold Hid.Fresh
    rwa [hrep]
  · cases h
    exact hp
  · unfold mainItem at h
    obtain ⟨q, hq, rfl⟩ := Option.map_eq_some_iff.mp h
    show q.hid.Fresh
    split at hq
    · split_ifs at hq <;> cases hq <;> exact hp
    · split at hq <;> cases hq
      exact hp
    · exact inputItem_fresh hp hq
    · cases hq
      exact hp

lemma items_fresh {n : ℕ} (hp : p.hid.Fresh) (h : items capacity n data p = some p') : p'.hid.Fresh := by
  induction n generalizing data p with
  | zero =>
    cases data with
    | nil =>
      cases h
      exact hp
    | cons => cases h
  | succ n ih =>
    cases data with
    | nil =>
      cases h
      exact hp
    | cons tagged rest =>
      unfold items at h
      by_cases hlong : tagged = 0xfe
      · rw [if_pos hlong] at h
        split at h
        · split_ifs at h
          exact ih hp h
        · cases h
      · rw [if_neg hlong] at h
        generalize (if tagged % 4 = 3 then 4 else tagged % 4) = bytes at h
        dsimp only at h
        split_ifs at h
        obtain ⟨q, hq, hrest⟩ := Option.bind_eq_some_iff.mp h
        exact ih (item_fresh hp hq) hrest

lemma hidParse_fresh (h : hidParse descriptor capacity = some hid) : hid.Fresh := by
  obtain ⟨p, hp, hrest⟩ := Option.bind_eq_some_iff.mp h
  have hfr := items_fresh (p := {}) (fun r hr => by cases hr) hp
  obtain ⟨-, hhid⟩ := Option.ite_none_right_eq_some.mp hrest
  exact Option.some.inj hhid ▸ hfr

/-! ### The invariant -/

variable {s s' : HidState} {time : ℕ → ℕ} {k : ℕ} {b : Fin 32}

lemma hidKeys_lt : ∀ code < 256, hidKeys.getD code 0 < 512 := by decide +kernel

lemma NamesKey.range {fields : List Field} (h : NamesKey fields id data k) : 0 < k ∧ k < 512 := by
  obtain ⟨e, -, -, -, hcode, rfl, hne⟩ := h
  exact ⟨Nat.pos_of_ne_zero hne, hidKeys_lt _ hcode⟩

lemma NamesButton.describes (h : NamesButton hid.fields id data b) : hid.describesButtons id = true := by
  obtain ⟨e, he, hpage, hcode, -⟩ := h
  simp only [elements, List.mem_flatMap, List.mem_filter, decide_eq_true_eq, List.mem_filterMap, Option.map_eq_some_iff] at he
  obtain ⟨f, ⟨hf, hid⟩, i, -, ⟨usage, value⟩, hel, rfl⟩ := he
  simp only [page_code] at hpage hcode
  refine List.any_eq_true.mpr ⟨f, hf, ?_⟩
  have hb := b.isLt
  unfold Field.element at hel
  unfold Field.describesButtons
  dsimp only at hel ⊢
  split_ifs at hel with harr hout husag hidx hidx
  · rw [if_pos harr, if_pos husag]
    cases hel
    have hmem : f.usages.getD ((f.read data i) - f.logicalMin).toNat 0 ∈ f.usages := by
      rw [List.getD_eq_getElem _ _ (by omega)]
      exact List.getElem_mem _
    simp only [hid, decide_true, Bool.true_and]
    exact List.any_eq_true.mpr ⟨_, hmem, by rw [decide_eq_true_eq]; omega⟩
  · rw [if_pos harr, if_neg husag]
    cases hel
    simp only [hid, decide_true, Bool.true_and]
    exact List.any_eq_true.mpr ⟨b, List.mem_range.mpr hb, by rw [decide_eq_true_eq]; omega⟩
  · rw [if_neg harr]
    cases hel
    simp only [hid, decide_true, Bool.true_and, decide_eq_true_eq]
    omega

/-- **The invariant.** -/
structure Faithful (source : Source) (s : HidState) : Prop where
  keys : ∀ r ∈ s.hid.reports, ∀ k, r.keys k = true ↔ ∃ data, s.keysOf r.id = some data ∧ NamesKey s.hid.fields r.id data k
  buttons : ∀ r ∈ s.hid.reports, ∀ b, r.buttons b = true ↔
    ∃ data, s.buttonsOf r.id = some data ∧ NamesButton s.hid.fields r.id data b
  down : s.core.down source = s.hid.anyKey
  mice : s.core.mice source = s.hid.anyButton
  changes : (s.calls.map Prod.fst).Nodup ∧
    ∀ k pressed, (k, pressed) ∈ s.calls ↔ s.before k ≠ s.core.down source k ∧ pressed = s.core.down source k
  order : ∃ first middle last, s.calls = first ++ middle ++ last ∧ (∀ e ∈ first, e.1 ∈ modifiers ∧ e.2 = true) ∧
    (∀ e ∈ middle, e.1 ∉ modifiers) ∧ ∀ e ∈ last, e.1 ∈ modifiers ∧ e.2 = false

theorem Faithful.decodes (h : Faithful source s) : Decodes source s := by
  refine ⟨fun k => ?_, fun b => ?_, h.changes, h.order⟩
  · rw [h.down, Hid.anyKey, List.any_eq_true]
    exact exists_congr fun r => and_congr_right fun hr => h.keys r hr k
  · rw [h.mice, Hid.anyButton, List.any_eq_true]
    exact exists_congr fun r => and_congr_right fun hr => h.buttons r hr b

lemma Faithful.range (h : Faithful source s) (hk : s.core.down source k = true) : 0 < k ∧ k < 512 := by
  obtain ⟨r, hr, data, -, hnms⟩ := (h.decodes.keys k).mp hk
  exact hnms.range

/-! ### A report -/

def Hid.after (hid : Hid) (id : ℕ) (d : Decoded) : Hid :=
  { hid with reports := hid.reports.map fun r =>
      { r with keys := if ¬d.rollover ∧ r.id = id then d.keys else r.keys
               buttons := if d.pointer ∧ r.id = id then d.mouse.buttons else r.buttons } }

lemma complete_mem {raw : List ℕ} (h : hid.complete raw = some (id, data)) : ∃ r ∈ hid.reports, r.id = id := by
  unfold Hid.complete at h
  dsimp only at h
  split at h
  · cases h
  rename_i report hfind
  rw [Option.ite_none_left_eq_some] at h
  obtain ⟨-, h⟩ := h
  cases h
  exact ⟨report, List.mem_of_find?_eq_some hfind, by simpa using List.find?_some hfind⟩

lemma setReport_eq (hid : Hid) (id : ℕ) (d : Decoded) :
    (let hid' := if d.rollover then hid else hid.setReport id fun r => { r with keys := d.keys }
     if d.pointer then hid'.setReport id fun r => { r with buttons := d.mouse.buttons } else hid') = hid.after id d := by
  have hcon : ∀ f g : Report → Report, (∀ r, f r = g r) → hid.reports.map f = hid.reports.map g :=
    fun f g hfg => List.map_congr_left fun r _ => hfg r
  unfold Hid.after Hid.setReport
  cases hr : d.rollover <;> cases hp : d.pointer <;> simp only [Bool.false_eq_true, if_true, if_false, List.map_map]
  · congr 1
    refine hcon _ _ fun r => ?_
    by_cases hid : r.id = id <;> simp [hid]
  · congr 1
    refine hcon _ _ fun r => ?_
    by_cases hid : r.id = id <;> simp [hid]
  · simp
  · congr 1
    refine hcon _ _ fun r => ?_
    by_cases hid : r.id = id <;> simp [hid]

lemma anyKey_eq (hid : Hid) (id : ℕ) (d : Decoded) :
    (if d.rollover then hid else hid.setReport id fun r => { r with keys := d.keys }).anyKey = (hid.after id d).anyKey := by
  rw [← setReport_eq]
  dsimp only
  funext k
  split_ifs <;> simp only [Hid.anyKey, Hid.setReport, List.any_map]
  all_goals
    refine congrArg (List.any _) (funext fun r => ?_)
    by_cases hid : r.id = id <;> simp [hid]

/-- **`hid_input`** of a complete report: what it writes into the reports is what the device holds afterwards. -/
lemma hidInput_complete (time : ℕ → ℕ) {raw : List ℕ} {core : Core} (h : hid.complete raw = some (id, data))
    (haft : hid' = hid.after id (decode hid.fields id data)) (hval : ∀ k, hid'.anyKey k ≠ core.down source k → 0 < k ∧ k < 512)
    (hmice : core.mice source = hid.anyButton) :
    ∃ w codes, hidInput source time raw hid core = (hid', w) ∧ w.core.down source = hid'.anyKey ∧
      w.core.mice source = hid'.anyButton ∧ w.calls = codes.map (fun k => (k, hid'.anyKey k)) ∧
      codes = modifiers.filter (fun k => hid'.anyKey k && !core.down source k) ++
        ((List.range 512).filter fun k => hid'.anyKey k != core.down source k && decide (k ∉ modifiers)) ++
        modifiers.filter fun k => !hid'.anyKey k && core.down source k := by
  obtain ⟨r, hr, hrid⟩ := complete_mem h
  unfold hidInput
  rw [h]
  dsimp only
  have hset := setReport_eq hid id (decode hid.fields id data)
  rw [anyKey_eq, ← haft]
  rw [← haft] at hset
  have hbut : ∀ b, (decode hid.fields id data).pointer = true → (decode hid.fields id data).mouse.buttons b = true →
      hid'.anyButton b = true := by
    intro b hp hb
    rw [haft, Hid.anyButton, List.any_eq_true]
    exact ⟨_, List.mem_map_of_mem hr, by dsimp only; rw [if_pos ⟨hp, hrid⟩, hb]⟩
  have hnone : (decode hid.fields id data).pointer = false → hid'.anyButton = hid.anyButton := by
    intro hp
    funext b
    rw [haft]
    simp [Hid.anyButton, Hid.after, hp]
    rfl
  generalize decode hid.fields id data = d at hset hbut hnone
  have hsen : Sends source hid'.anyKey _ ⟨core, []⟩ (releaseModifiers source time hid'.anyKey
    (changeKeys source time hid'.anyKey
      (pressModifiers source time hid'.anyKey ⟨core, []⟩))) := report_sends hval rfl
  generalize releaseModifiers source time hid'.anyKey (changeKeys source time hid'.anyKey
    (pressModifiers source time hid'.anyKey ⟨core, []⟩)) = w at hsen
  generalize hcds : modifiers.filter (fun k => hid'.anyKey k && !core.down source k) ++
    ((List.range 512).filter fun k => hid'.anyKey k != core.down source k && decide (k ∉ modifiers)) ++
    modifiers.filter (fun k => !hid'.anyKey k && core.down source k) = codes at hsen
  have hchg := (changed_codes hval hcds.symm).2
  have hdown : w.core.down source = hid'.anyKey := by
    funext k
    rw [hsen.own]
    split_ifs with hk
    · rfl
    · exact (not_not.mp fun hne => hk ((hchg k).mpr hne)).symm
  have hcll : w.calls = codes.map fun k => (k, hid'.anyKey k) := by simpa using hsen.calls
  cases hp : d.pointer with
  | true =>
    rw [hp, if_pos rfl] at hset
    rw [if_pos rfl, hset]
    obtain ⟨hd, hm⟩ := mouse_devices source { d.mouse with buttons := fun b => d.mouse.buttons b || hid'.anyButton b } w.core
    refine ⟨_, codes, rfl, by rw [← hdown]; exact congrFun hd source, ?_, hcll, rfl⟩
    rw [show (inputMouseEvent source _ w.core).mice = _ from hm, update_self]
    funext b
    have := hbut b hp
    cases hb : d.mouse.buttons b <;> simp_all
  | false =>
    rw [hp, if_neg Bool.false_ne_true] at hset
    rw [if_neg Bool.false_ne_true, hset]
    exact ⟨w, codes, rfl, hdown, by rw [hsen.mice, hnone hp, ← hmice], hcll, rfl⟩

/-- **A report keeps the invariant**, if it tells what becomes of the buttons. -/
lemma Faithful.report (h : Faithful source s) (hg : Tells s (.report data time))
    (hs : hidStep source s (.report data time) = some s') :
    Faithful source s' := by
  rw [hidStep] at hs
  cases hcom : s.hid.complete data with
  | none =>
    have hinp : hidInput source time data s.hid s.core = (s.hid, ⟨s.core, []⟩) := by rw [hidInput, hcom]
    rw [hinp, hcom] at hs
    cases hs
    exact ⟨h.keys, h.buttons, h.down, h.mice, ⟨List.nodup_nil, fun k pressed => by simp⟩, [], [], [], rfl,
      by simp, by simp, by simp⟩
  | some payload =>
    obtain ⟨id, payload⟩ := payload
    simp only [Tells, hcom] at hg
    rw [← decode_pointer] at hg
    generalize hd : decode s.hid.fields id payload = d at hg
    have hnamesKey : ∀ k, d.keys k = true ↔ NamesKey s.hid.fields id payload k := fun k => by rw [← hd]; exact decode_keys k
    have hnamesButton : ∀ b, d.mouse.buttons b = true ↔ NamesButton s.hid.fields id payload b :=
      fun b => by rw [← hd]; exact decode_button b
    have hpoin : ∀ b, NamesButton s.hid.fields id payload b → d.pointer = true := by
      rintro b ⟨e, he, hpage, hcode, -⟩
      rw [← hd]
      exact decode_pointer.mpr ⟨e, he, .inl ⟨hpage, by omega, by omega⟩⟩
    have hrol : (∃ e ∈ elements s.hid.fields id payload, e.Rollover) ↔ d.rollover = true := by
      rw [← hd]
      exact decode_rollover.symm
    -- the reports after the report
    have hkeys : ∀ r ∈ s.hid.reports, ∀ k, (if ¬d.rollover ∧ r.id = id then d.keys else r.keys) k = true ↔
        ∃ data, (if ∃ e ∈ elements s.hid.fields id payload, e.Rollover then s.keysOf
          else update s.keysOf id (some payload)) r.id = some data ∧ NamesKey s.hid.fields r.id data k := by
      intro r hr k
      by_cases hroll : d.rollover = true
      · rw [if_neg fun hf => hf.1 hroll, if_pos (hrol.mpr hroll)]
        exact h.keys r hr k
      · rw [if_neg fun hf => hroll (hrol.mp hf)]
        by_cases hid : r.id = id
        · subst hid
          rw [if_pos ⟨hroll, rfl⟩, update_self, hnamesKey]
          simp
        · rw [if_neg fun hf => hid hf.2, update_of_ne hid]
          exact h.keys r hr k
    have hbutt : ∀ r ∈ s.hid.reports, ∀ b, (if d.pointer ∧ r.id = id then d.mouse.buttons else r.buttons) b = true ↔
        ∃ data, (if s.hid.describesButtons id then update s.buttonsOf id (some payload) else s.buttonsOf) r.id = some data ∧
          NamesButton s.hid.fields r.id data b := by
      intro r hr b
      by_cases hid : r.id = id
      swap
      · rw [if_neg fun hf => hid hf.2]
        split_ifs
        · rw [update_of_ne hid]
          exact h.buttons r hr b
        · exact h.buttons r hr b
      subst hid
      by_cases hdes : s.hid.describesButtons r.id = true
      · rw [if_pos hdes, update_self]
        simp only [Option.some.injEq, exists_eq_left']
        rw [← hnamesButton]
        by_cases hp : d.pointer = true
        · rw [if_pos ⟨hp, trivial⟩]
        · -- nothing in the report is about a button, and none was held
          rw [if_neg fun hf => hp hf.1, hg.resolve_left hp r hr rfl b]
          exact iff_of_false Bool.false_ne_true fun hb => hp (hpoin b ((hnamesButton b).mp hb))
      · rw [if_neg hdes]
        have hnot : ∀ data, ¬NamesButton s.hid.fields r.id data b := fun data hb => hdes hb.describes
        split_ifs
        · rw [hnamesButton]
          exact iff_of_false (hnot _) fun ⟨data, _, hb⟩ => hnot data hb
        · exact h.buttons r hr b
    have hval : ∀ k, (s.hid.after id d).anyKey k ≠ s.core.down source k → 0 < k ∧ k < 512 := by
      intro k hne
      by_cases hk : s.core.down source k = true
      · exact h.range hk
      · have hset : (s.hid.after id d).anyKey k = true := by
          cases hkey : (s.hid.after id d).anyKey k <;> cases hdown : s.core.down source k <;> simp_all
        rw [Hid.anyKey, List.any_eq_true] at hset
        obtain ⟨r', hr', hkey⟩ := hset
        obtain ⟨r, hr, rfl⟩ := List.mem_map.mp hr'
        obtain ⟨data, -, hnms⟩ := (hkeys r hr k).mp hkey
        exact hnms.range
    obtain ⟨w, codes, hinp, hdown, hmice, hcll, hcds⟩ :=
      hidInput_complete time hcom (hd ▸ rfl : s.hid.after id d = _) hval h.mice
    rw [hinp, hcom] at hs
    cases hs
    obtain ⟨hnd, hmem⟩ := changed_codes hval hcds
    refine ⟨fun r' hr' k => ?_, fun r' hr' b => ?_, hdown, hmice, ⟨?_, fun k pressed => ?_⟩, ?_⟩
    · obtain ⟨r, hr, rfl⟩ := List.mem_map.mp hr'
      exact hkeys r hr k
    · obtain ⟨r, hr, rfl⟩ := List.mem_map.mp hr'
      exact hbutt r hr b
    · show (w.calls.map Prod.fst).Nodup
      rw [hcll, List.map_map]
      exact (List.map_id'' (fun _ => rfl) codes).symm ▸ hnd
    · show (k, pressed) ∈ w.calls ↔ s.core.down source k ≠ w.core.down source k ∧ pressed = w.core.down source k
      rw [hcll, hdown, List.mem_map]
      constructor
      · rintro ⟨k, hk, heq⟩
        cases heq
        exact ⟨((hmem k).mp hk).symm, rfl⟩
      · rintro ⟨hne, rfl⟩
        exact ⟨k, (hmem k).mpr hne.symm, rfl⟩
    · refine ⟨_, _, _, by rw [hcll, hcds, List.map_append, List.map_append], fun e he => ?_, fun e he => ?_, fun e he => ?_⟩
      all_goals
        obtain ⟨k, hk, rfl⟩ := List.mem_map.mp he
        simp only [List.mem_filter, Bool.and_eq_true, decide_eq_true_eq, Bool.not_eq_true'] at hk
      · exact ⟨hk.1, hk.2.1⟩
      · exact hk.2.2
      · exact ⟨hk.1, hk.2.1⟩

lemma Faithful.others (h : Faithful source s) {core : Core} (hs : hidStep source s (.others core) = some s') :
    Faithful source s' := by
  rw [hidStep] at hs
  cases hs
  have hdown : (s.core.down source) = fun k => (update core.keyboards source (s.core.keyboards source) source).down k := by
    rw [update_self]
    rfl
  refine ⟨h.keys, h.buttons, hdown.symm.trans h.down, (update_self ..).trans h.mice, ⟨h.changes.1, fun k pressed => ?_⟩,
    h.order⟩
  have hchan := h.changes.2 k pressed
  rwa [hdown] at hchan

lemma faithful_init (hi : (hidSystem source).init s) : Faithful source s := by
  obtain ⟨⟨descriptor, capacity, hpar⟩, hdown, hmice, hkeysOf, hbuttonsOf, hbef, hcll⟩ := hi
  have hfr := hidParse_fresh hpar
  refine ⟨fun r hr k => ?_, fun r hr b => ?_, ?_, ?_, ⟨by simp [hcll], fun k pressed => by simp [hcll, hbef, hdown]⟩,
    [], [], [], hcll, by simp, by simp, by simp⟩
  · rw [(hfr r hr).1, hkeysOf]
    simp
  · rw [(hfr r hr).2, hbuttonsOf]
    simp
  · rw [hdown]
    funext k
    symm
    rw [Hid.anyKey, List.any_eq_false]
    intro r hr
    rw [(hfr r hr).1]
    exact Bool.false_ne_true
  · rw [hmice]
    funext b
    symm
    rw [Hid.anyButton, List.any_eq_false]
    intro r hr
    rw [(hfr r hr).2]
    exact Bool.false_ne_true

/-- **A device holds what its latest reports say**, in every run of reports that tell what becomes of the buttons. -/
theorem reports_decode (hs : (hidSystem source).Guarded Tells s) : Decodes source s := by
  refine (hs.invariant (P := Faithful source) (fun _ hi => faithful_init hi) fun s e s' h hg he => ?_).decodes
  cases e with
  | report data time => exact h.report hg he
  | others core => exact h.others he

/-! ### Two descriptors -/

/-- A keyboard with its modifiers as bits and six keys as an array -/
def keyboardDescriptor : List ℕ :=
  [0x05, 0x01, 0x09, 0x06, 0xa1, 0x01, 0x05, 0x07, 0x19, 0xe0, 0x29, 0xe7, 0x15, 0x00, 0x25, 0x01, 0x75, 0x01, 0x95,
  0x08, 0x81, 0x02,
    0x75, 0x08, 0x95, 0x01, 0x81, 0x01, 0x19, 0x00, 0x29, 0x65, 0x15, 0x00, 0x25, 0x65, 0x75, 0x08, 0x95, 0x06, 0x81,
    0x00, 0xc0]

/-- A mouse that reports the one of three buttons that is held -/
def arrayMouseDescriptor : List ℕ :=
  [0x05, 0x01, 0x09, 0x02, 0xa1, 0x01, 0x05, 0x09, 0x19, 0x01, 0x29, 0x03, 0x15, 0x01, 0x25, 0x03, 0x75, 0x08, 0x95,
  0x01, 0x81, 0x00,
    0xc0]

def plugged (descriptor : List ℕ) : HidState :=
  { hid := (hidParse descriptor 8).getD { reports := [], fields := [], reportIds := false, pointer := false }
    core := { keyboards := fun _ => {}, mice := fun _ _ => false, keyReferences := fun _ => 0, capsLock := false,
              repeatSource := none, repeatCode := 0, repeatDeadline := 0, buttonReferences := fun _ => 0,
              buttons := fun _ => false, log := [] }
    keysOf := fun _ => none, buttonsOf := fun _ => none, before := fun _ => false, calls := [] }

lemma plugged_init (descriptor : List ℕ) (h : (hidParse descriptor 8).isSome = true) :
    (hidSystem 1).init (plugged descriptor) := by
  obtain ⟨hid, hhid⟩ := Option.isSome_iff_exists.mp h
  exact ⟨⟨descriptor, 8, by rw [plugged, hhid]; rfl⟩, rfl, rfl, rfl, rfl, rfl, rfl⟩

def typing : List HidEvent :=
  [.report [0x02, 0, 0x04, 0, 0, 0, 0, 0] (fun _ => 0), .report [0, 0, 0, 0, 0, 0, 0, 0] (fun _ => 1)]

theorem typing_decodes :
    Decodes 1 ((hidSystem 1).after (plugged keyboardDescriptor) typing) ∧
      ((hidSystem 1).after (plugged keyboardDescriptor) typing).calls = [(0x1e, false), (0x2a, false)] :=
  ⟨reports_decode (System.after_guarded (.init (plugged_init keyboardDescriptor (by decide +kernel)))
  (by decide +kernel)), by decide +kernel⟩

def clicking : List HidEvent := [.report [1] (fun _ => 0), .report [0] (fun _ => 0)]

/-- A button is held after a report that says that none is. -/
theorem array_button_sticks : ¬ ∀ source s, (hidSystem source).Reachable s → Decodes source s := by
  intro h
  have hs := h 1 _ (System.replay_reachable (.init (plugged_init arrayMouseDescriptor (by decide +kernel))) clicking)
  have hheld : ((hidSystem 1).replay (plugged arrayMouseDescriptor) clicking).core.mice 1 0 = true := by decide +kernel
  obtain ⟨r, hr, data, hdata, hnames⟩ := (hs.buttons 0).mp hheld
  have hid : ∀ r ∈ ((hidSystem 1).replay (plugged arrayMouseDescriptor) clicking).hid.reports, r.id = 0 := by decide +kernel
  rw [hid r hr] at hdata hnames
  have hlatest : ((hidSystem 1).replay (plugged arrayMouseDescriptor) clicking).buttonsOf 0 = some [0] := by decide +kernel
  rw [hlatest] at hdata
  cases hdata
  have hnone : elements ((hidSystem 1).replay (plugged arrayMouseDescriptor) clicking).hid.fields 0 [0] = [] :=
    List.eq_nil_of_length_eq_zero (by decide +kernel)
  obtain ⟨e, he, -⟩ := hnames
  rw [hnone] at he
  cases he

end PlantOS.Input
