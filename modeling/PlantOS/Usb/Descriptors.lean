import Mathlib.Data.Int.Notation
import Mathlib.Data.Nat.Notation
import Mathlib.Tactic.SplitIfs

/-!
# Configuration descriptors

`usb_enumerate`, the loops of `usb_bind` and the search of `usb_storage_bind`. Every read of the configuration says
whether it is inside the allocation: `none` is a read outside, or a loop without an end.
-/

namespace PlantOS.Usb.Descriptors

/-- A configuration in memory -/
structure Configuration where
  bytes : ℕ → UInt8
  size : ℕ

inductive Speed
  | low | full | high | super | unknown
  deriving DecidableEq

/-- What `usb_enumerate` reads of a `usb_device_descriptor_t` -/
structure DeviceDescriptor where
  length : ℕ
  type : ℕ
  maxPacketSize : ℕ
  configurations : ℕ

/-- What the device and the allocator answer to `usb_enumerate`: numbers of bytes, and what is in the buffers -/
structure Answers where
  first : ℤ × DeviceDescriptor
  setPacketSize : ℕ → Bool
  whole : ℤ × DeviceDescriptor
  header : ℤ × (ℕ → UInt8)
  memory : Bool
  configuration : ℤ × (ℕ → UInt8)

def packetSize : Speed → ℕ → Option ℕ
  | .low, n => if n = 8 then some n else none
  | .full, n => if n = 8 ∨ n = 16 ∨ n = 32 ∨ n = 64 then some n else none
  | .high, n => if n = 64 then some n else none
  | .super, n => if n = 9 then some 512 else none
  | .unknown, _ => none

/-- The variables of the loop over the records -/
structure Check where
  interfaces : ℕ
  endpoints : ℕ
  expected : ℕ
  seen : ℕ → Bool
  inInterface : Bool

structure Endpoint where
  address : ℕ
  type : ℕ
  packetSize : ℕ
  interval : ℕ
  burst : ℕ
  mult : ℕ
  bytesPerInterval : ℕ

/-- `usb_interface_t`; `descriptors` is an offset into the configuration. -/
structure Interface where
  descriptors : ℕ
  length : ℕ
  number : ℕ
  classCode : ℕ
  subclass : ℕ
  protocol : ℕ

/-- What the loops of `usb_bind` have done: the interface descriptors they have looked at, and what they have stored. -/
structure Binding where
  visited : List ℕ
  interfaces : List Interface
  endpoints : List Endpoint

namespace Configuration

variable (c : Configuration)

def byte (i : ℕ) : ℕ := (c.bytes i).toNat

def read (i : ℕ) : Option ℕ := if i < c.size then some (c.byte i) else none

/-! ### `usb_enumerate` -/

/-- The body of the loop over the records, `some none` for records that are not valid -/
def checkEntry (offset : ℕ) (s : Check) : Option (Option (ℕ × Check)) :=
  if c.size - offset < 2 then some none
  else
    (c.read offset).bind fun length =>
      if length < 2 ∨ length > c.size - offset then some none
      else
        (c.read (offset + 1)).bind fun type =>
          if type = 4 then
            if length ≥ 9 ∧ (s.inInterface = false ∨ s.endpoints = s.expected) then
              (c.read (offset + 4)).bind fun expected =>
                (c.read (offset + 3)).bind fun alternate =>
                  (c.read (offset + 2)).bind fun number =>
                    if alternate ≠ 0 then
                      some (some (offset + length, { s with inInterface := true, endpoints := 0, expected := expected }))
                    else if s.seen number then some none
                    else
                      some (some (offset + length, ⟨s.interfaces + 1, 0, expected, fun n => n == number || s.seen n, true⟩))
            else some none
          else if type = 5 then
            if length ≥ 7 ∧ s.inInterface = true ∧ s.endpoints + 1 ≤ s.expected then
              some (some (offset + length, { s with endpoints := s.endpoints + 1 }))
            else some none
          else some (some (offset + length, s))

def checkLoop : (fuel offset : ℕ) → Check → Option (Option Check)
  | 0, _, _ => none
  | fuel + 1, offset, s =>
    if offset < c.size then
      match c.checkEntry offset s with
      | none => none
      | some none => some none
      | some (some (offset, s)) => checkLoop fuel offset s
    else some (some s)

/-! ### `usb_bind` -/

/-- The loop for the `end` of an interface -/
def findEnd : (fuel stop : ℕ) → Option ℕ
  | 0, _ => none
  | fuel + 1, stop =>
    if stop < c.size then
      (c.read (stop + 1)).bind fun type =>
        if type = 4 then some stop else (c.read stop).bind fun length => findEnd fuel (stop + length)
    else some stop

/-- The companion of an endpoint with the descriptor at `companion`; `some none` if it is missing. -/
def companion (stop companion : ℕ) (ep : Endpoint) : Option (Option Endpoint) :=
  if companion + 6 > stop then some none
  else
    (c.read companion).bind fun length => (c.read (companion + 1)).bind fun type =>
      if length < 6 ∨ type ≠ 48 then some none
      else
        (c.read (companion + 2)).bind fun burst => (c.read (companion + 3)).bind fun mult =>
          (c.read (companion + 4)).bind fun low => (c.read (companion + 5)).bind fun high =>
            some (some { ep with burst := burst, mult := mult &&& 3, bytesPerInterval := low + 256 * high })

/-- The endpoint of a descriptor; `some none` if `usb_bind` gives up. -/
def endpoint (speed : Speed) (stop pos length : ℕ) : Option (Option Endpoint) :=
  (c.read (pos + 3)).bind fun attributes => (c.read (pos + 2)).bind fun address =>
    if attributes &&& 3 < 2 ∨ address &&& 15 = 0 then some none
    else
      (c.read (pos + 4)).bind fun low => (c.read (pos + 5)).bind fun high => (c.read (pos + 6)).bind fun interval =>
        let packet := low + 256 * high
        let ep : Endpoint := ⟨address, attributes &&& 3, packet &&& 0x7ff, interval, packet >>> 11 &&& 3, 0, 0⟩
        if speed = .super then c.companion stop (pos + length) ep else some (some ep)

/-- The loop over the endpoints of an interface, `some none` if `usb_bind` gives up -/
def endpointLoop (speed : Speed) (stop : ℕ) : (fuel pos : ℕ) → List Endpoint → Option (Option (List Endpoint))
  | 0, _, _ => none
  | fuel + 1, pos, endpoints =>
    if pos < stop then
      (c.read (pos + 1)).bind fun entryType => (c.read pos).bind fun length =>
        if entryType ≠ 5 then endpointLoop speed stop fuel (pos + length) endpoints
        else if endpoints.length = 30 then some none
        else
          (c.endpoint speed stop pos length).bind fun found =>
            match found with
            | none => some none
            | some ep => endpointLoop speed stop fuel (pos + length) (endpoints ++ [ep])
    else some (some endpoints)

/-- The loop over the interfaces, with the answers of `malloc`: whether it comes to its end. -/
def interfaceLoop (speed : Speed) (memory : ℕ → Bool) : (fuel offset : ℕ) → Binding → Option (Bool × Binding)
  | 0, _, _ => none
  | fuel + 1, offset, b =>
    if offset < c.size then
      (c.read (offset + 1)).bind fun type => (c.read offset).bind fun length =>
        if type ≠ 4 then interfaceLoop speed memory fuel (offset + length) b
        else
          (c.findEnd (c.size + 1) (offset + length)).bind fun stop =>
            (c.read (offset + 2)).bind fun number => (c.read (offset + 3)).bind fun alternate =>
              (c.read (offset + 5)).bind fun classCode => (c.read (offset + 6)).bind fun subclass =>
                (c.read (offset + 7)).bind fun protocol =>
                  let b := { b with visited := b.visited ++ [offset] }
                  if alternate = 0 ∧ (classCode = 3 ∨ classCode = 9 ∨ classCode = 8 ∧ subclass = 6 ∧ protocol = 0x50) then
                    if ¬ memory b.interfaces.length then some (false, b)
                    else
                      let b := { b with
                        interfaces := b.interfaces ++ [⟨offset, stop - offset, number, classCode, subclass, protocol⟩] }
                      (c.endpointLoop speed stop (c.size + 1) (offset + length) b.endpoints).bind fun found =>
                        match found with
                        | none => some (false, b)
                        | some endpoints => interfaceLoop speed memory fuel stop { b with endpoints := endpoints }
                  else interfaceLoop speed memory fuel stop b
    else some (true, b)

/-- The search for the endpoints of `storage`: `in` and `out` -/
def storageEndpoints (interface : Interface) : (fuel offset : ℕ) → ℕ × ℕ → Option (ℕ × ℕ)
  | 0, _, _ => none
  | fuel + 1, offset, found =>
    if offset < interface.length then
      let entry := interface.descriptors + offset
      (c.read (entry + 1)).bind fun type => (c.read entry).bind fun length =>
        if type = 5 then
          (c.read (entry + 3)).bind fun attributes =>
            if attributes &&& 3 = 2 then
              (c.read (entry + 2)).bind fun address =>
                storageEndpoints interface fuel (offset + length)
                  (if address &&& 0x80 ≠ 0 then (address, found.2) else (found.1, address))
            else storageEndpoints interface fuel (offset + length) found
        else storageEndpoints interface fuel (offset + length) found
    else some found

end Configuration

open PlantOS.Usb.Descriptors.Configuration

/-- `usb_enumerate`, `some none` if it returns `false` -/
def usbEnumerate (speed : Speed) (a : Answers) : Option (Option Configuration) :=
  if a.first.1 ≠ 8 ∨ a.first.2.length ≠ 18 ∨ a.first.2.type ≠ 1 then some none
  else
    match packetSize speed a.first.2.maxPacketSize with
    | none => some none
    | some packet =>
      if a.setPacketSize packet = false ∨ a.whole.1 ≠ 18 ∨ a.whole.2.length ≠ 18 ∨ a.whole.2.type ≠ 1 ∨
          a.whole.2.configurations = 0 then some none
      else
        let header : Configuration := ⟨a.header.2, 9⟩
        let c : Configuration := ⟨a.configuration.2, header.byte 2 + 256 * header.byte 3⟩
        if a.header.1 ≠ 9 ∨ header.byte 0 ≠ 9 ∨ header.byte 1 ≠ 2 ∨ header.byte 5 = 0 ∨ c.size < 9 ∨ a.memory = false ∨
            a.configuration.1 ≠ c.size ∨ ∃ i < 9, c.bytes i ≠ header.bytes i then some none
        else
          (c.checkLoop (c.size + 1) 9 ⟨0, 0, 0, fun _ => false, false⟩).map fun checked => checked.bind fun s =>
            if s.interfaces ≠ header.byte 4 ∨ s.endpoints ≠ s.expected then none else some c

/-- The loops of `usb_bind`, and the endpoints that it passes to `configure` -/
def usbBind (c : Configuration) (speed : Speed) (memory : ℕ → Bool) : Option (Bool × Binding × Option (List Endpoint)) :=
  (c.interfaceLoop speed memory (c.size + 1) 9 ⟨[], [], []⟩).map fun r =>
    (r.1, r.2, if r.1 = true ∧ r.2.interfaces ≠ [] then some r.2.endpoints else none)

/-! ### Records -/

namespace Configuration

variable {c : Configuration} {o e fuel : ℕ} {os pre : List ℕ} {s : Check}

lemma read_eq {i : ℕ} (h : i < c.size) : c.read i = some (c.byte i) := if_pos h

/-- A record that `usb_enumerate` accepts -/
structure Entry (c : Configuration) (o : ℕ) : Prop where
  two : 2 ≤ c.byte o
  inside : o + c.byte o ≤ c.size
  interface : c.byte (o + 1) = 4 → 9 ≤ c.byte o
  endpoint : c.byte (o + 1) = 5 → 7 ≤ c.byte o

/-- The records from an offset to another one -/
inductive Segment (c : Configuration) : ℕ → ℕ → List ℕ → Prop
  | nil {e : ℕ} : Segment c e e []
  | cons {o e : ℕ} {os : List ℕ} : c.Entry o → Segment c (o + c.byte o) e os → Segment c o e (o :: os)

lemma Segment.length_le (h : c.Segment o e os) : o + os.length ≤ e := by
  induction h with
  | nil => exact Nat.le_refl _
  | cons hentry _ ih =>
    have := hentry.two
    simp only [List.length_cons]
    omega

lemma Segment.snoc (h : c.Segment o e os) (hentry : c.Entry e) : c.Segment o (e + c.byte e) (os ++ [e]) := by
  induction h with
  | nil => exact .cons hentry .nil
  | cons hfirst _ ih => exact .cons hfirst (ih hentry)

/-- The interface descriptors, by their offsets -/
def interfaces (c : Configuration) (os : List ℕ) : List ℕ := os.filter fun o => c.byte (o + 1) = 4

/-- The numbers of the interfaces with the alternate setting 0 -/
def settings (c : Configuration) (os : List ℕ) : List ℕ :=
  ((c.interfaces os).filter fun o => c.byte (o + 3) = 0).map fun o => c.byte (o + 2)

/-- What the loop has established of the records behind it -/
structure Checked (c : Configuration) (os : List ℕ) (s : Check) : Prop where
  interfaces : s.interfaces = (c.settings os).length
  seen : ∀ n, s.seen n = true ↔ n ∈ c.settings os
  nodup : (c.settings os).Nodup

lemma Checked.other {s' : Check} (h : c.Checked os s) (hcnt : s'.interfaces = s.interfaces) (hseen : s'.seen = s.seen)
    (ho : c.byte (o + 1) = 4 → c.byte (o + 3) ≠ 0) : c.Checked (os ++ [o]) s' := by
  have hsame : c.settings (os ++ [o]) = c.settings os := by
    simp only [settings, Configuration.interfaces, List.filter_append, List.filter_filter]
    simpa using fun halt htype => ho htype halt
  exact ⟨by rw [hsame, hcnt, h.interfaces], by rw [hsame, hseen]; exact h.seen, by rw [hsame]; exact h.nodup⟩

lemma checkEntry_spec (h : c.Checked os s) (ho : o < c.size) : ∃ r, c.checkEntry o s = some r ∧
    ∀ o' s', r = some (o', s') → c.Entry o ∧ o' = o + c.byte o ∧ c.Checked (os ++ [o]) s' := by
  have hnone : ∀ o' s', (none : Option (ℕ × Check)) = some (o', s') →
      c.Entry o ∧ o' = o + c.byte o ∧ c.Checked (os ++ [o]) s' := by
    intro _ _ h
    cases h
  unfold checkEntry
  by_cases hroom : c.size - o < 2
  · exact ⟨none, by rw [if_pos hroom], hnone⟩
  rw [if_neg hroom, read_eq (by omega), Option.bind_some]
  by_cases hlen : c.byte o < 2 ∨ c.byte o > c.size - o
  · exact ⟨none, by rw [if_pos hlen], hnone⟩
  rw [if_neg hlen, read_eq (by omega), Option.bind_some]
  by_cases hif : c.byte (o + 1) = 4
  · rw [if_pos hif]
    by_cases hlong : c.byte o ≥ 9 ∧ (s.inInterface = false ∨ s.endpoints = s.expected)
    · rw [if_pos hlong, read_eq (by omega), Option.bind_some, read_eq (by omega), Option.bind_some, read_eq (by omega),
        Option.bind_some]
      have hentry : c.Entry o := ⟨by omega, by omega, by intro _; exact hlong.1, by intro _; omega⟩
      by_cases halt : c.byte (o + 3) = 0
      · rw [if_neg (by simp [halt])]
        cases hseen : s.seen (c.byte (o + 2)) with
        | true => exact ⟨none, rfl, hnone⟩
        | false =>
          refine ⟨_, rfl, ?_⟩
          rintro o' s' ⟨⟩
          have hadd : c.settings (os ++ [o]) = c.settings os ++ [c.byte (o + 2)] := by
            simp [settings, Configuration.interfaces, List.filter_append, hif, halt]
          have hnew : c.byte (o + 2) ∉ c.settings os := by
            rw [← h.seen, hseen]
            exact Bool.false_ne_true
          refine ⟨hentry, rfl, ?_, ?_, ?_⟩
          · rw [hadd, List.length_append, h.interfaces]
            rfl
          · intro n
            rw [hadd, List.mem_append, List.mem_singleton, ← h.seen]
            simp [or_comm]
          · rw [hadd]
            exact List.nodup_append.mpr ⟨h.nodup, by simp, by
              rintro x hx y hy rfl
              exact hnew (List.mem_singleton.mp hy ▸ hx)⟩
      · rw [if_pos halt]
        refine ⟨_, rfl, ?_⟩
        rintro o' s' ⟨⟩
        exact ⟨hentry, rfl, h.other rfl rfl (by intro _; exact halt)⟩
    · exact ⟨none, by rw [if_neg hlong], hnone⟩
  · rw [if_neg hif]
    by_cases hep : c.byte (o + 1) = 5
    · rw [if_pos hep]
      by_cases hlong : c.byte o ≥ 7 ∧ s.inInterface = true ∧ s.endpoints + 1 ≤ s.expected
      · rw [if_pos hlong]
        refine ⟨_, rfl, ?_⟩
        rintro o' s' ⟨⟩
        exact ⟨⟨by omega, by omega, by omega, by omega⟩, rfl, h.other rfl rfl (by omega)⟩
      · exact ⟨none, by rw [if_neg hlong], hnone⟩
    · rw [if_neg hep]
      refine ⟨_, rfl, ?_⟩
      rintro o' s' ⟨⟩
      exact ⟨⟨by omega, by omega, by omega, by omega⟩, rfl, h.other rfl rfl (by omega)⟩

lemma checkLoop_spec (hpre : c.Segment 9 o pre) (h : c.Checked pre s) (ho : o ≤ c.size) (hfuel : c.size - o < fuel) :
    ∃ r, c.checkLoop fuel o s = some r ∧ ∀ s', r = some s' → ∃ os, c.Segment 9 c.size os ∧ c.Checked os s' := by
  induction fuel generalizing o pre s with
  | zero => omega
  | succ fuel ih =>
    rw [checkLoop]
    by_cases hmore : o < c.size
    · rw [if_pos hmore]
      obtain ⟨r, hr, hnext⟩ := checkEntry_spec h hmore
      rw [hr]
      cases r with
      | none => exact ⟨none, rfl, by intro _ h; cases h⟩
      | some next =>
        obtain ⟨hentry, hoff, hchk⟩ := hnext next.1 next.2 rfl
        have htwo := hentry.two
        have hin := hentry.inside
        rw [← hoff] at hin
        exact ih (hoff ▸ hpre.snoc hentry) hchk hin (by omega)
    · rw [if_neg hmore]
      obtain rfl : o = c.size := by omega
      exact ⟨_, rfl, by rintro _ ⟨⟩; exact ⟨pre, hpre, h⟩⟩

/-! ### The loops behind it -/

lemma findEnd_spec (h : c.Segment o c.size os) (hfuel : os.length < fuel) : ∃ e pre post, c.findEnd fuel o = some e ∧
    os = pre ++ post ∧ c.Segment o e pre ∧ c.Segment e c.size post ∧ c.interfaces pre = [] := by
  induction fuel generalizing o os with
  | zero => omega
  | succ fuel ih =>
    rw [findEnd]
    cases h with
    | nil => exact ⟨c.size, [], [], if_neg (Nat.lt_irrefl _), rfl, .nil, .nil, rfl⟩
    | cons hentry hrest =>
      have htwo := hentry.two
      have hin := hentry.inside
      rw [if_pos (by omega), read_eq (by omega), Option.bind_some]
      by_cases htype : c.byte (o + 1) = 4
      · exact ⟨o, [], _, if_pos htype, rfl, .nil, .cons hentry hrest, rfl⟩
      · rw [if_neg htype, read_eq (by omega), Option.bind_some]
        obtain ⟨e, pre, post, he, rfl, hpre, hpost, hnone⟩ := ih hrest (by simpa using hfuel)
        exact ⟨e, o :: pre, post, he, rfl, .cons hentry hpre, hpost, by simpa [interfaces, htype] using hnone⟩

lemma companion_spec {ep : Endpoint} (he : e ≤ c.size) : ∃ r, c.companion e o ep = some r := by
  rw [companion]
  by_cases hroom : o + 6 > e
  · exact ⟨none, if_pos hroom⟩
  · rw [if_neg hroom, read_eq (by omega), Option.bind_some, read_eq (by omega), Option.bind_some]
    split_ifs
    · exact ⟨none, rfl⟩
    · rw [read_eq (by omega), read_eq (by omega), read_eq (by omega), read_eq (by omega)]
      exact ⟨_, rfl⟩

lemma endpoint_spec (speed : Speed) (hentry : c.Entry o) (htype : c.byte (o + 1) = 5) (he : e ≤ c.size) :
    ∃ r, c.endpoint speed e o (c.byte o) = some r := by
  have hlong := hentry.endpoint htype
  have hin := hentry.inside
  rw [endpoint]
  simp (disch := omega) only [read_eq, Option.bind_some]
  split_ifs
  · exact ⟨none, rfl⟩
  · exact companion_spec he
  · exact ⟨_, rfl⟩

lemma endpointLoop_spec (speed : Speed) {eps : List Endpoint} (h : c.Segment o e os) (he : e ≤ c.size)
    (heps : eps.length ≤ 30) (hfuel : os.length < fuel) :
    ∃ r, c.endpointLoop speed e fuel o eps = some r ∧ ∀ eps', r = some eps' → eps'.length ≤ 30 := by
  have hnone : ∀ eps', (none : Option (List Endpoint)) = some eps' → eps'.length ≤ 30 := by
    intro _ h
    cases h
  induction fuel generalizing o os eps with
  | zero => omega
  | succ fuel ih =>
    rw [endpointLoop]
    cases h with
    | nil => exact ⟨some eps, if_neg (Nat.lt_irrefl _), by rintro _ ⟨⟩; exact heps⟩
    | cons hentry hrest =>
      have htwo := hentry.two
      have hin := hentry.inside
      have hle := hrest.length_le
      have hfuel' := Nat.lt_of_succ_lt_succ hfuel
      rw [if_pos (by omega)]
      simp (disch := omega) only [read_eq, Option.bind_some]
      by_cases htype : c.byte (o + 1) = 5
      · rw [if_neg (by simp [htype])]
        by_cases hfull : eps.length = 30
        · exact ⟨none, if_pos hfull, hnone⟩
        · rw [if_neg hfull]
          obtain ⟨r, hr⟩ := endpoint_spec speed hentry htype he
          rw [hr, Option.bind_some]
          cases r with
          | none => exact ⟨none, rfl, hnone⟩
          | some ep => exact ih hrest (by simp; omega) hfuel'
      · rw [if_pos htype]
        exact ih hrest heps hfuel'

/-- An interface of `usb_bind` spans records. -/
def Spans (c : Configuration) (i : Interface) : Prop := ∃ os, c.Segment i.descriptors (i.descriptors + i.length) os

lemma interfaceLoop_spec (speed : Speed) (memory : ℕ → Bool) {b : Binding} (h : c.Segment o c.size os)
    (hfuel : os.length < fuel)
    (hifs : ∀ i ∈ b.interfaces, c.Spans i) (heps : b.endpoints.length ≤ 30) :
    ∃ r, c.interfaceLoop speed memory fuel o b = some r ∧ (∀ i ∈ r.2.interfaces, c.Spans i) ∧ r.2.endpoints.length ≤ 30 ∧
      ∃ rest, b.visited ++ c.interfaces os = r.2.visited ++ rest ∧ (r.1 = true → rest = []) := by
  induction fuel generalizing o os b with
  | zero => omega
  | succ fuel ih =>
    rw [interfaceLoop]
    cases h with
    | nil => exact ⟨(true, b), if_neg (Nat.lt_irrefl _), hifs, heps, [], by simp [interfaces], by intro _; rfl⟩
    | @cons _ _ os hentry hrest =>
      have htwo := hentry.two
      have hin := hentry.inside
      have hle := hrest.length_le
      have hfuel' := Nat.lt_of_succ_lt_succ hfuel
      rw [if_pos (by omega), read_eq (by omega), Option.bind_some, read_eq (by omega), Option.bind_some]
      by_cases htype : c.byte (o + 1) = 4
      · have hlong := hentry.interface htype
        rw [if_neg (by simp [htype])]
        obtain ⟨e, pre, post, he, rfl, hpre, hpost, hnone⟩ := findEnd_spec hrest (show os.length < c.size + 1 by omega)
        rw [he]
        simp (disch := omega) only [read_eq, Option.bind_some]
        have hvis : c.interfaces (o :: (pre ++ post)) = o :: c.interfaces post := by
          simp only [interfaces] at hnone
          simp [interfaces, htype, List.filter_append, hnone]
        rw [List.length_append] at hfuel'
        have hlepre := hpre.length_le
        have hlepost := hpost.length_le
        by_cases hsup : c.byte (o + 3) = 0 ∧ (c.byte (o + 5) = 3 ∨ c.byte (o + 5) = 9 ∨
            c.byte (o + 5) = 8 ∧ c.byte (o + 6) = 6 ∧ c.byte (o + 7) = 0x50)
        · rw [if_pos hsup, hvis]
          by_cases hmem : ¬memory b.interfaces.length
          · rw [if_pos hmem]
            exact ⟨_, rfl, hifs, heps, c.interfaces post, by simp, by rintro ⟨⟩⟩
          · rw [if_neg hmem]
            have hspans : ∀ i ∈ b.interfaces ++
                [⟨o, e - o, c.byte (o + 2), c.byte (o + 5), c.byte (o + 6), c.byte (o + 7)⟩], c.Spans i := by
              intro i hi
              rcases List.mem_append.mp hi with hi | hi
              · exact hifs i hi
              · obtain rfl := List.mem_singleton.mp hi
                refine ⟨o :: pre, ?_⟩
                dsimp only
                rw [Nat.add_sub_cancel' (by omega)]
                exact .cons hentry hpre
            obtain ⟨r, hr, hthirty⟩ := endpointLoop_spec speed hpre (by omega) heps (show pre.length < c.size + 1 by omega)
            rw [hr, Option.bind_some]
            cases r with
            | none => exact ⟨_, rfl, hspans, heps, c.interfaces post, by simp, by rintro ⟨⟩⟩
            | some eps =>
              obtain ⟨r, hr, hspans', heps', rest, hrest, hdone⟩ :=
                ih (b := ⟨b.visited ++ [o], _, eps⟩) hpost (by omega) hspans (hthirty eps rfl)
              exact ⟨r, hr, hspans', heps', rest, by rw [← hrest]; simp, hdone⟩
        · rw [if_neg hsup, hvis]
          obtain ⟨r, hr, hspans, heps', rest, hrest, hdone⟩ :=
            ih (b := ⟨b.visited ++ [o], _, _⟩) hpost (by omega) hifs heps
          exact ⟨r, hr, hspans, heps', rest, by rw [← hrest]; simp, hdone⟩
      · rw [if_pos htype]
        have hvis : c.interfaces (o :: os) = c.interfaces os := by simp [interfaces, htype]
        rw [hvis]
        exact ih hrest hfuel' hifs heps

lemma storageEndpoints_spec {i : Interface} {found : ℕ × ℕ} {offset : ℕ}
    (h : c.Segment (i.descriptors + offset) (i.descriptors + i.length) os) (hfuel : os.length < fuel) :
    ∃ r, c.storageEndpoints i fuel offset found = some r := by
  induction fuel generalizing offset os found with
  | zero => omega
  | succ fuel ih =>
    rw [storageEndpoints]
    generalize ho : i.descriptors + offset = o at h
    cases h with
    | nil => exact ⟨found, if_neg (by omega)⟩
    | cons hentry hrest =>
      have htwo := hentry.two
      have hin := hentry.inside
      have hle := hrest.length_le
      rw [← ho, Nat.add_assoc, ho] at hrest
      have hnext (found : ℕ × ℕ) : ∃ r, c.storageEndpoints i fuel (offset + c.byte o) found = some r :=
        ih hrest (Nat.lt_of_succ_lt_succ hfuel)
      rw [if_pos (by omega)]
      simp only
      simp (disch := omega) only [read_eq, Option.bind_some]
      by_cases htype : c.byte (o + 1) = 5
      · have hlong := hentry.endpoint htype
        rw [if_pos htype]
        simp (disch := omega) only [read_eq, Option.bind_some]
        split_ifs <;> exact hnext _
      · rw [if_neg htype]
        exact hnext _

end Configuration

/-! ### The contract -/

lemma usbEnumerate_spec (speed : Speed) (a : Answers) : ∃ accepted, usbEnumerate speed a = some accepted ∧
    ∀ c, accepted = some c → ∃ os, c.Segment 9 c.size os ∧ (c.settings os).Nodup ∧ (c.settings os).length = c.byte 4 := by
  have href : ∃ accepted : Option Configuration, some none = some accepted ∧ ∀ c, accepted = some c →
      ∃ os, c.Segment 9 c.size os ∧ (c.settings os).Nodup ∧ (c.settings os).length = c.byte 4 :=
    ⟨none, rfl, by intro _ h; cases h⟩
  unfold usbEnumerate
  split
  · exact href
  split
  · exact href
  split
  · exact href
  extract_lets header c
  split
  · exact href
  next hhdr =>
    simp only [not_or, Nat.not_lt, not_exists, not_and, ne_eq, Decidable.not_not] at hhdr
    obtain ⟨-, -, -, -, hsize, -, -, hsame⟩ := hhdr
    have hemp : c.Checked [] ⟨0, 0, 0, fun _ => false, false⟩ := ⟨rfl, by simp [settings, interfaces], .nil⟩
    obtain ⟨r, hr, hchk⟩ := checkLoop_spec .nil hemp hsize (show c.size - 9 < c.size + 1 by omega)
    rw [hr]
    cases r with
    | none => exact href
    | some s =>
      simp only [Option.map_some, Option.bind_some]
      split
      · exact href
      next hcnts =>
        simp only [not_or, ne_eq, Decidable.not_not] at hcnts
        refine ⟨some c, rfl, ?_⟩
        rintro _ ⟨⟩
        obtain ⟨os, hos, hchk⟩ := hchk s rfl
        refine ⟨os, hos, hchk.nodup, ?_⟩
        rw [← hchk.interfaces, hcnts.1]
        exact congrArg UInt8.toNat (hsame 4 (by omega)).symm

/-- **What `usb_enumerate` accepts is walked inside the blob**, by loops that end. The interfaces of the records with
the alternate setting 0 are distinct, and as many as the header says; `usb_bind` looks at each once, in order, up to the one at which it
gives up, and passes at most 30 endpoints to `configure`. -/
theorem configuration_walks (speed : Speed) (a : Answers) : ∃ accepted, usbEnumerate speed a = some accepted ∧
    ∀ c, accepted = some c → ∃ os, c.Segment 9 c.size os ∧ (c.settings os).Nodup ∧ (c.settings os).length = c.byte 4 ∧
      ∀ memory, ∃ completed b configured, usbBind c speed memory = some (completed, b, configured) ∧
        (∃ rest, c.interfaces os = b.visited ++ rest ∧ (completed = true → rest = [])) ∧
        (∀ endpoints, configured = some endpoints → endpoints.length ≤ 30) ∧
        ∀ i ∈ b.interfaces, ∃ found, c.storageEndpoints i (i.length + 1) 0 (0, 0) = some found := by
  obtain ⟨accepted, hacc, hspec⟩ := usbEnumerate_spec speed a
  refine ⟨accepted, hacc, ?_⟩
  intro c hc
  obtain ⟨os, hos, hnd, hcnt⟩ := hspec c hc
  refine ⟨os, hos, hnd, hcnt, ?_⟩
  intro memory
  have hfuel := hos.length_le
  obtain ⟨⟨completed, b⟩, hr, hspans, hthirty, rest, hrest, hdone⟩ := interfaceLoop_spec speed memory
    (b := ⟨[], [], []⟩) hos (show os.length < c.size + 1 by omega) (by intro _ h; cases h) (Nat.zero_le 30)
  refine ⟨completed, b, _, by rw [usbBind, hr]; rfl, ⟨rest, hrest, hdone⟩, ?_, ?_⟩
  · intro endpoints hcfg
    split at hcfg
    · cases hcfg
      exact hthirty
    · cases hcfg
  · intro i hi
    obtain ⟨os, hos⟩ := hspans i hi
    have := hos.length_le
    exact storageEndpoints_spec (show c.Segment (i.descriptors + 0) _ os from hos) (by omega)

/-- A device with a HID interface that has an isochronous endpoint, and a second HID interface -/
def isochronousDevice : Answers :=
  let bytes : ℕ → UInt8 := fun i => [9, 2, 34, 0, 2, 1, 0, 0, 0, 9, 4, 0, 0, 1, 3, 0, 0, 0, 7, 5, 0x81, 1, 8, 0, 1,
    9, 4, 1, 0, 0, 3, 0, 0, 0].getD i 0
  ⟨(8, ⟨18, 1, 64, 1⟩), fun _ => true, (18, ⟨18, 1, 64, 1⟩), (9, bytes), true, (34, bytes)⟩

/-- `usb_bind` gives up at the endpoint, and never looks at the second interface. -/
theorem isochronous_ends_bind : ¬∀ speed a c os, usbEnumerate speed a = some (some c) → c.Segment 9 c.size os →
    ∀ memory r, usbBind c speed memory = some r →
      ∀ o ∈ c.interfaces os, c.byte (o + 3) = 0 → r.2.1.visited.count o = 1 := by
  intro h
  have hos : (⟨isochronousDevice.configuration.2, 34⟩ : Configuration).Segment 9 34 [9, 18, 25] :=
    .cons ⟨by decide, by decide, by decide, by decide⟩ (.cons ⟨by decide, by decide, by decide, by decide⟩
      (.cons ⟨by decide, by decide, by decide, by decide⟩ .nil))
  have hcnt := h .high isochronousDevice _ _ rfl hos (fun _ => true) _ rfl 25 (by decide) (by decide)
  exact absurd hcnt (by decide)

end PlantOS.Usb.Descriptors
