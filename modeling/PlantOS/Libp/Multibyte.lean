import Mathlib.Data.List.GetD
import Mathlib.Order.Basic
import Mathlib.Tactic.Conv
import PlantOS.Lib.Utf8

/-!
# Multibyte characters

`mbrtowc`, `wcrtomb`, `mbstowcs` and `wcstombs`. A text is read as memory from an address on; what a call stores
through a pointer is part of its result.
-/

namespace PlantOS.Libp.Multibyte

/-! ### One character -/

/-- `mbstate_t` -/
structure MbState where
  value : ℕ
  state : ℕ
  deriving DecidableEq, Repr

/-- `(mbstate_t){0}` -/
def MbState.zero : MbState := ⟨0, 0⟩

def mbsinit (state : MbState) : Bool := state.state = 0

/-- What `mbrtowc` returns: `(size_t)-1` with `EILSEQ`, `(size_t)-2`, or a number of bytes, with what it stores in
`*wide`. -/
inductive MbResult
  | illegal
  | incomplete
  | wide (value used : ℕ)
  deriving DecidableEq, Repr

/-- `MB_CUR_MAX` of a locale with UTF-8 -/
def utf8CurMax : ℕ := 4

/-- The loop of `mbrtowc` over continuation bytes: the `remaining` bytes, the number of `used` bytes and the `value`
behind it, `none` for the jump to `invalid`. -/
def continueBytes (text : ℕ → UInt8) (size minimum : ℕ) : (remaining used value : ℕ) → Option (ℕ × ℕ × ℕ)
  | 0, used, value => some (0, used, value)
  | remaining + 1, used, value =>
    if used < size then
      let byte := (text used).toNat
      if byte &&& 0xc0 ≠ 0x80 then none
      else
        let value := value <<< 6 % 2 ^ 32 ||| byte &&& 0x3f
        let lower := value <<< (6 * remaining) % 2 ^ 32
        let upper := lower ||| (1 <<< (6 * remaining) - 1)
        if upper < minimum ∨ lower > 0x10ffff ∨ (lower ≥ 0xd800 ∧ upper ≤ 0xdfff) then none
        else continueBytes text size minimum remaining (used + 1) value
    else some (remaining + 1, used, value)

/-- What a first byte that is not ASCII says: `remaining`, `minimum` and `value`. -/
def firstByte (first : ℕ) : Option (ℕ × ℕ × ℕ) :=
  if first ≥ 0xc2 ∧ first ≤ 0xdf then some (1, 0x80, first &&& 0x1f)
  else if first ≥ 0xe0 ∧ first ≤ 0xef then some (2, 0x800, first &&& 0xf)
  else if first ≥ 0xf0 ∧ first ≤ 0xf4 then some (3, 0x10000, first &&& 7)
  else none

/-- The end of `mbrtowc`, behind its loop. -/
def finish (minimum : ℕ) : Option (ℕ × ℕ × ℕ) → MbResult × MbState
  | none => (.illegal, .zero)
  | some (remaining, used, value) =>
    if remaining ≠ 0 then (.incomplete, ⟨value, minimum <<< 3 ||| remaining⟩) else (.wide value used, .zero)

/-- `mbrtowc` of a text that is not `NULL` -/
def mbrtowcText (mbCurMax : ℕ) (text : ℕ → UInt8) (size : ℕ) (state : MbState) : MbResult × MbState :=
  if size = 0 then (.incomplete, state)
  else if state.state &&& 7 ≠ 0 then
    let minimum := state.state >>> 3
    finish minimum (continueBytes text size minimum (state.state &&& 7) 0 state.value)
  else
    let first := (text 0).toNat
    if first < 128 then (.wide first (if first ≠ 0 then 1 else 0), state)
    else if mbCurMax = 1 then (.illegal, .zero)
    else
      match firstByte first with
      | none => (.illegal, .zero)
      | some (remaining, minimum, value) => finish minimum (continueBytes text size minimum remaining 1 value)

/-- `mbrtowc`, with a state that is not `NULL` -/
def mbrtowc (mbCurMax : ℕ) (text : Option (ℕ → UInt8)) (size : ℕ) (state : MbState) : MbResult × MbState :=
  match text with
  | none => mbrtowcText mbCurMax (fun _ => 0) 1 state
  | some text => mbrtowcText mbCurMax text size state

/-- The loop of `wcrtomb`: the last `i` bytes, and what is left of the value. -/
def continuationBytes : ℕ → ℕ → List UInt8 → ℕ × List UInt8
  | 0, value, text => (value, text)
  | i + 1, value, text => continuationBytes i (value >>> 6) (UInt8.ofNat (0x80 ||| value &&& 0x3f) :: text)

/-- `wcrtomb` into a text that is not `NULL`: the bytes that it stores, `none` for `(size_t)-1` with `EILSEQ`. -/
def wcrtomb (mbCurMax : ℕ) (wide : ℕ) : Option (List UInt8) :=
  let value := wide % 2 ^ 32
  if value < 128 then some [UInt8.ofNat value]
  else if mbCurMax = 1 ∨ value > 0x10ffff ∨ (value ≥ 0xd800 ∧ value ≤ 0xdfff) then none
  else
    let count := if value < 0x800 then 2 else if value < 0x10000 then 3 else 4
    let (value, text) := continuationBytes (count - 1) value []
    some (UInt8.ofNat ((if count = 2 then 0xc0 else if count = 3 then 0xe0 else 0xf0) ||| value) :: text)

/-! ### Strings -/

def sizeMax : ℕ := 2 ^ 64 - 1

def byteAt (text : List UInt8) (i : ℕ) : UInt8 := text.getD i 0

lemma length_drop_lt {text : List UInt8} (h : byteAt text 0 ≠ 0) (length : ℕ) :
    (text.drop (max length 1)).length < text.length := by
  have hpos : 0 < text.length := by
    refine Nat.pos_of_ne_zero fun hzero => h ?_
    rw [List.eq_nil_of_length_eq_zero hzero]
    rfl
  rw [List.length_drop]
  omega

/-- The loop of `mbstowcs` at a place of the string: what is returned, `none` for `(size_t)-1`, and what is stored
from `wide[count]` on, if `wide` is not `NULL`. A character of a string takes at least one byte. -/
def mbstowcsFrom (mbCurMax : ℕ) (wide : Bool) (size count : ℕ) (state : MbState) (text : List UInt8) : Option ℕ × List ℕ :=
  if _h : byteAt text 0 = 0 then (some count, if wide ∧ count < size then [0] else [])
  else
    match mbrtowc mbCurMax (some (byteAt text)) sizeMax state with
    | (.illegal, _) => (none, [])
    | (.incomplete, _) => (none, [])
    | (.wide value length, state) =>
      if wide then
        if count = size then (some count, [])
        else
          let r := mbstowcsFrom mbCurMax wide size (count + 1) state (text.drop (max length 1))
          (r.1, value :: r.2)
      else mbstowcsFrom mbCurMax wide size (count + 1) state (text.drop (max length 1))
termination_by text.length
decreasing_by all_goals exact length_drop_lt _h length

def mbstowcs (mbCurMax : ℕ) (wide : Bool) (text : List UInt8) (size : ℕ) : Option ℕ × List ℕ :=
  mbstowcsFrom mbCurMax wide size 0 .zero text

/-- The loop of `wcstombs` at a place of the string: what is returned, and what is stored from `text[count]` on, if
`text` is not `NULL`. -/
def wcstombsFrom (mbCurMax : ℕ) (text : Bool) (size count : ℕ) : List ℕ → Option ℕ × List UInt8
  | [] => (some count, if text ∧ count < size then [0] else [])
  | value :: wide =>
    if value = 0 then (some count, if text ∧ count < size then [0] else [])
    else
      match wcrtomb mbCurMax value with
      | none => (none, [])
      | some encoded =>
        if text then
          if encoded.length > size - count then (some count, [])
          else
            let r := wcstombsFrom mbCurMax text size (count + encoded.length) wide
            (r.1, encoded ++ r.2)
        else wcstombsFrom mbCurMax text size (count + encoded.length) wide

def wcstombs (mbCurMax : ℕ) (text : Bool) (wide : List ℕ) (size : ℕ) : Option ℕ × List UInt8 :=
  wcstombsFrom mbCurMax text size 0 wide

/-- A caller of `mbrtowc` converts a chunk, until a call is incomplete or fails: the characters, and the state behind
the chunk, `none` behind an error. The call that reads a `NUL` returns 0 for its byte. -/
def feed (mbCurMax : ℕ) (state : MbState) (chunk : List UInt8) : List ℕ × Option MbState :=
  if _h : chunk = [] then ([], some state)
  else
    match mbrtowc mbCurMax (some (byteAt chunk)) chunk.length state with
    | (.illegal, _) => ([], none)
    | (.incomplete, state) => ([], some state)
    | (.wide value used, state) =>
      let r := feed mbCurMax state (chunk.drop (max used 1))
      (value :: r.1, r.2)
termination_by chunk.length
decreasing_by
  rw [List.length_drop]
  have hpos := List.length_pos_iff.mpr _h
  omega

def feedAll (mbCurMax : ℕ) (state : MbState) : List (List UInt8) → List ℕ × Option MbState
  | [] => ([], some state)
  | chunk :: chunks =>
    match feed mbCurMax state chunk with
    | (values, none) => (values, none)
    | (values, some state) =>
      let r := feedAll mbCurMax state chunks
      (values ++ r.1, r.2)

/-! ## Cutting a text -/

variable {text text' : ℕ → UInt8} {size size' minimum remaining used used' value mbCurMax : ℕ} {state state' : MbState}

/-! ### The loop over continuation bytes -/

lemma continueBytes_bounds {remaining' value' : ℕ} (hused : used ≤ size)
    (h : continueBytes text size minimum remaining used value = some (remaining', used', value')) :
    used ≤ used' ∧ used' ≤ size ∧ remaining' ≤ remaining ∧ (remaining' ≠ 0 → used' = size) ∧
      used' + remaining' = used + remaining := by
  induction remaining generalizing used value with
  | zero =>
    simp only [continueBytes, Option.some.injEq, Prod.mk.injEq] at h
    omega
  | succ remaining ih =>
    unfold continueBytes at h
    by_cases hmore : used < size
    · simp only [hmore, if_true] at h
      split_ifs at h
      have hrest := ih (by omega) h
      omega
    · rw [if_neg hmore] at h
      simp only [Option.some.injEq, Prod.mk.injEq] at h
      omega

lemma continueBytes_resume (hused : used ≤ size) (hsize : size ≤ size') :
    continueBytes text size' minimum remaining used value =
      (continueBytes text size minimum remaining used value).bind fun r =>
        continueBytes text size' minimum r.1 r.2.1 r.2.2 := by
  induction remaining generalizing used value with
  | zero => rfl
  | succ remaining ih =>
    by_cases hmore : used < size
    · rw [continueBytes, continueBytes]
      simp only [hmore, if_true, show used < size' by omega]
      split_ifs
      · rfl
      · rfl
      · exact ih (by omega)
    · have hstop : continueBytes text size minimum (remaining + 1) used value = some (remaining + 1, used, value) := by
        rw [continueBytes, if_neg hmore]
      rw [hstop]
      rfl

lemma continueBytes_congr (htext : ∀ i < size, text' i = text i) :
    continueBytes text' size minimum remaining used value = continueBytes text size minimum remaining used value := by
  induction remaining generalizing used value with
  | zero => rfl
  | succ remaining ih =>
    rw [continueBytes, continueBytes]
    by_cases hmore : used < size
    · simp only [hmore, if_true, htext used hmore, ih]
    · rw [if_neg hmore, if_neg hmore]

lemma continueBytes_shift (k : ℕ) : continueBytes text (size + k) minimum remaining (used + k) value =
    (continueBytes (fun i => text (i + k)) size minimum remaining used value).map fun r => (r.1, r.2.1 + k, r.2.2) := by
  induction remaining generalizing used value with
  | zero => rfl
  | succ remaining ih =>
    rw [continueBytes, continueBytes]
    by_cases hmore : used < size
    · simp only [hmore, if_true, show used + k < size + k by omega]
      split_ifs
      · rfl
      · rfl
      · rw [show used + k + 1 = used + 1 + k by omega]
        exact ih
    · simp only [hmore, if_false, show ¬used + k < size + k by omega]
      rfl

/-! ### A call on a text that is cut -/

lemma unpack (minimum : ℕ) (h : remaining < 8) :
    (minimum <<< 3 ||| remaining) &&& 7 = remaining ∧ (minimum <<< 3 ||| remaining) >>> 3 = minimum := by
  have hpack : minimum <<< 3 ||| remaining = minimum * 8 + remaining := by
    rw [Nat.shiftLeft_eq, Nat.mul_comm]
    exact (Nat.two_pow_add_eq_or_of_lt (i := 3) h minimum).symm
  rw [hpack, show 7 = 2 ^ 3 - 1 from rfl, Nat.and_two_pow_sub_one_eq_mod, Nat.shiftRight_eq_div_pow]
  omega

/-- The bytes that a call has used, with those of the calls before it on the same character. -/
def MbResult.later (k : ℕ) : MbResult → MbResult
  | .wide value used => .wide value (used + k)
  | r => r

/-- What the call on the rest of a text makes of what the call on its first `k` bytes has left. -/
def resume (k : ℕ) (first : MbResult × MbState) (second : MbState → MbResult × MbState) : MbResult × MbState :=
  match first with
  | (.incomplete, state) => ((second state).1.later k, (second state).2)
  | r => r

lemma finish_cut (mbCurMax : ℕ) {rest : ℕ} (hrest : 0 < rest) (hrem : remaining < 8) (hused : used ≤ size) :
    finish minimum (continueBytes text (size + rest) minimum remaining used value) =
      resume size (finish minimum (continueBytes text size minimum remaining used value))
        (mbrtowcText mbCurMax (fun i => text (i + size)) rest) := by
  rw [continueBytes_resume hused (Nat.le_add_right size rest)]
  cases hfst : continueBytes text size minimum remaining used value with
  | none => rfl
  | some r =>
    obtain ⟨remaining', used', value'⟩ := r
    obtain ⟨-, -, hle, hend, -⟩ := continueBytes_bounds hused hfst
    by_cases hzero : remaining' = 0
    · subst hzero
      rfl
    · obtain rfl := hend hzero
      obtain ⟨hlow, hhigh⟩ := unpack minimum (show remaining' < 8 by omega)
      have hsec : mbrtowcText mbCurMax (fun i => text (i + used')) rest ⟨value', minimum <<< 3 ||| remaining'⟩ =
          finish minimum (continueBytes (fun i => text (i + used')) rest minimum remaining' 0 value') := by
        unfold mbrtowcText
        rw [if_neg (Nat.ne_of_gt hrest), if_pos (by rwa [hlow]), hlow, hhigh]
      have hwh := @continueBytes_shift text rest minimum remaining' 0 value' used'
      rw [Nat.zero_add, Nat.add_comm rest] at hwh
      simp only [Option.bind_some, hwh, finish, if_pos hzero, resume]
      rw [hsec]
      cases continueBytes (fun i => text (i + used')) rest minimum remaining' 0 value' with
      | none => rfl
      | some r =>
        simp only [Option.map_some, finish]
        split_ifs <;> rfl

lemma firstByte_lt {first : ℕ} (h : firstByte first = some (remaining, minimum, value)) : remaining < 8 := by
  unfold firstByte at h
  split_ifs at h <;> obtain ⟨rfl, -⟩ := Prod.mk.inj (Option.some.inj h) <;> decide

lemma mbrtowcText_pos (hsize : size ≠ 0) : mbrtowcText mbCurMax text size state =
    if state.state &&& 7 ≠ 0 then
      finish (state.state >>> 3) (continueBytes text size (state.state >>> 3) (state.state &&& 7) 0 state.value)
    else if (text 0).toNat < 128 then (.wide (text 0).toNat (if (text 0).toNat ≠ 0 then 1 else 0), state)
    else if mbCurMax = 1 then (.illegal, .zero)
    else
      match firstByte (text 0).toNat with
      | none => (.illegal, .zero)
      | some (remaining, minimum, value) => finish minimum (continueBytes text size minimum remaining 1 value) := by
  unfold mbrtowcText
  exact if_neg hsize

/-- **A call on a text is the call on its beginning, and one on the rest if that is incomplete.** -/
lemma mbrtowcText_cut {rest : ℕ} (hsize : 0 < size) (hrest : 0 < rest) :
    mbrtowcText mbCurMax text (size + rest) state =
      resume size (mbrtowcText mbCurMax text size state) (mbrtowcText mbCurMax (fun i => text (i + size)) rest) := by
  rw [mbrtowcText_pos (show size + rest ≠ 0 by omega), mbrtowcText_pos (Nat.ne_of_gt hsize)]
  by_cases hrem : state.state &&& 7 ≠ 0
  · rw [if_pos hrem, if_pos hrem]
    exact finish_cut mbCurMax hrest (Nat.lt_of_le_of_lt Nat.and_le_right (by decide)) (Nat.zero_le _)
  · rw [if_neg hrem, if_neg hrem]
    split_ifs
    · rfl
    · rfl
    · rfl
    · cases hbyte : firstByte (text 0).toNat with
      | none => rfl
      | some r =>
        obtain ⟨remaining, minimum, value⟩ := r
        exact finish_cut mbCurMax hrest (firstByte_lt hbyte) hsize

lemma mbrtowcText_congr (hsize : 0 < size) (htext : ∀ i < size, text' i = text i) :
    mbrtowcText mbCurMax text' size state = mbrtowcText mbCurMax text size state := by
  rw [mbrtowcText_pos (Nat.ne_of_gt hsize), mbrtowcText_pos (Nat.ne_of_gt hsize), htext 0 hsize]
  simp only [continueBytes_congr htext]

lemma byteAt_append_left {a b : List UInt8} {i : ℕ} (h : i < a.length) : byteAt (a ++ b) i = byteAt a i :=
  List.getD_append _ _ _ _ h

lemma byteAt_append_right (a b : List UInt8) : (fun i => byteAt (a ++ b) (i + a.length)) = byteAt b := by
  funext i
  unfold byteAt
  rw [List.getD_append_right _ _ _ _ (Nat.le_add_left _ _), Nat.add_sub_cancel]

lemma mbrtowcText_append {a b : List UInt8} (ha : a ≠ []) (hb : b ≠ []) :
    mbrtowcText mbCurMax (byteAt (a ++ b)) (a ++ b).length state =
      resume a.length (mbrtowcText mbCurMax (byteAt a) a.length state) (mbrtowcText mbCurMax (byteAt b) b.length) := by
  have hpos : 0 < a.length := List.length_pos_iff.mpr ha
  rw [List.length_append, mbrtowcText_cut hpos (List.length_pos_iff.mpr hb), byteAt_append_right,
    mbrtowcText_congr hpos fun _ => byteAt_append_left]

/-! ### Chunks -/

lemma finish_used {value' : ℕ} (hused : used ≤ size)
    (h : (finish minimum (continueBytes text size minimum remaining used value)).1 = .wide value' used') :
    used' = used + remaining ∧ used' ≤ size := by
  cases hloop : continueBytes text size minimum remaining used value with
  | none =>
    rw [hloop] at h
    cases h
  | some r =>
    obtain ⟨remaining', used'', value''⟩ := r
    rw [hloop] at h
    have hbds := continueBytes_bounds hused hloop
    simp only [finish] at h
    split_ifs at h with hzero
    simp only [MbResult.wide.injEq] at h
    omega

lemma finish_incomplete (hrem : remaining < 8) (hused : used ≤ size)
    (h : finish minimum (continueBytes text size minimum remaining used value) = (.incomplete, state')) :
    state'.state &&& 7 ≠ 0 := by
  cases hloop : continueBytes text size minimum remaining used value with
  | none =>
    rw [hloop] at h
    cases h
  | some r =>
    obtain ⟨remaining', used', value'⟩ := r
    rw [hloop] at h
    have hbds := continueBytes_bounds hused hloop
    simp only [finish] at h
    split_ifs at h with hzero
    · obtain rfl := (Prod.mk.inj h).2
      rwa [(unpack minimum (show remaining' < 8 by omega)).1]
    · cases h

lemma used_le {value : ℕ} (hpos : 0 < size) (h : (mbrtowcText mbCurMax text size state).1 = .wide value used) :
    used ≤ size ∧ (state.state &&& 7 ≠ 0 → 0 < used) := by
  rw [mbrtowcText_pos (Nat.ne_of_gt hpos)] at h
  by_cases hrem : state.state &&& 7 ≠ 0
  · rw [if_pos hrem] at h
    obtain ⟨hall, hle⟩ := finish_used (Nat.zero_le _) h
    exact ⟨hle, fun _ => by omega⟩
  · rw [if_neg hrem] at h
    refine ⟨?_, fun hmid => absurd hmid hrem⟩
    split_ifs at h
    · simp only [MbResult.wide.injEq] at h
      omega
    · simp only [MbResult.wide.injEq] at h
      omega
    · cases hbyte : firstByte (text 0).toNat with
      | none =>
        rw [hbyte] at h
        cases h
      | some r =>
        rw [hbyte] at h
        exact (finish_used hpos h).2

lemma incomplete_mid (hpos : 0 < size) (h : mbrtowcText mbCurMax text size state = (.incomplete, state')) :
    state'.state &&& 7 ≠ 0 := by
  rw [mbrtowcText_pos (Nat.ne_of_gt hpos)] at h
  by_cases hrem : state.state &&& 7 ≠ 0
  · rw [if_pos hrem] at h
    exact finish_incomplete (Nat.lt_of_le_of_lt Nat.and_le_right (by decide)) (Nat.zero_le _) h
  · rw [if_neg hrem] at h
    split_ifs at h
    · cases h
    · cases h
    · cases h
    · cases hbyte : firstByte (text 0).toNat with
      | none =>
        rw [hbyte] at h
        cases h
      | some r =>
        rw [hbyte] at h
        exact finish_incomplete (firstByte_lt hbyte) hpos h

def join (first : List ℕ × Option MbState) (second : MbState → List ℕ × Option MbState) : List ℕ × Option MbState :=
  match first with
  | (values, none) => (values, none)
  | (values, some state) => (values ++ (second state).1, (second state).2)

lemma feed_nil : feed mbCurMax state [] = ([], some state) := by
  rw [feed]
  rfl

lemma feed_cons {a : List UInt8} (ha : a ≠ []) :
    feed mbCurMax state a =
      match mbrtowcText mbCurMax (byteAt a) a.length state with
      | (.illegal, _) => ([], none)
      | (.incomplete, state) => ([], some state)
      | (.wide value used, state) =>
        let r := feed mbCurMax state (a.drop (max used 1))
        (value :: r.1, r.2) := by
  rw [feed, dif_neg ha]
  rfl

/-- **A text is read like its two parts, one after the other.** -/
theorem feed_append (a b : List UInt8) : feed mbCurMax state (a ++ b) =
    join (feed mbCurMax state a) fun state => feed mbCurMax state b := by
  rcases List.eq_nil_or_concat b with rfl | ⟨b', x, hb⟩
  · rw [List.append_nil]
    obtain ⟨values, after⟩ := feed mbCurMax state a
    cases after with
    | none => rfl
    | some state' => simp [join, feed_nil]
  have hbne : b ≠ [] := by simp [hb]
  induction ha : a.length using Nat.strongRecOn generalizing a state with
  | _ n ih =>
    rcases List.eq_nil_or_concat a with rfl | ⟨a', y, ha'⟩
    · simp [join, feed_nil]
    have hane : a ≠ [] := by simp [ha']
    rw [feed_cons hane, feed_cons (by simp [hane]), mbrtowcText_append hane hbne]
    have hpos : 0 < a.length := List.length_pos_iff.mpr hane
    cases hfst : mbrtowcText mbCurMax (byteAt a) a.length state with
    | mk r state' =>
      cases r with
      | illegal => rfl
      | incomplete =>
        -- the call goes on in the second part
        simp only [resume, join, List.nil_append]
        rw [feed_cons hbne]
        cases hsec : mbrtowcText mbCurMax (byteAt b) b.length state' with
        | mk r state'' =>
          cases r with
          | illegal => rfl
          | incomplete => rfl
          | wide value used =>
            have hused := (used_le (List.length_pos_iff.mpr hbne) (congrArg Prod.fst hsec)).2 (incomplete_mid hpos hfst)
            have hdrop : (a ++ b).drop (max (used + a.length) 1) = b.drop (max used 1) := by
              rw [show max (used + a.length) 1 = a.length + used by omega, List.drop_append,
                List.drop_of_length_le (Nat.le_add_right _ _), Nat.add_sub_cancel_left, List.nil_append,
                show max used 1 = used by omega]
            simp only [MbResult.later, hdrop]
      | wide value used =>
        have hused := (used_le hpos (congrArg Prod.fst hfst)).1
        simp only [resume]
        have hdrop : (a ++ b).drop (max used 1) = a.drop (max used 1) ++ b := List.drop_append_of_le_length (by omega)
        rw [hdrop, ih (a.drop (max used 1)).length (by rw [List.length_drop]; omega) (a.drop (max used 1)) rfl]
        obtain ⟨values, after⟩ := feed mbCurMax state' (a.drop (max used 1))
        cases after <;> rfl

/-- **The chunks of a text are read like the text.** -/
theorem feedAll_eq (chunks : List (List UInt8)) : feedAll mbCurMax state chunks = feed mbCurMax state chunks.flatten := by
  induction chunks generalizing state with
  | nil => exact feed_nil.symm
  | cons chunk chunks ih =>
    rw [List.flatten_cons, feed_append, feedAll]
    obtain ⟨values, after⟩ := feed mbCurMax state chunk
    cases after with
    | none => rfl
    | some state' => simp only [join, ih]

/-! ## Multibyte characters are UTF-8 -/

open List (append_assoc append_nil cons_append eq_nil_or_concat length_append length_cons length_pos_iff
    length_singleton map_cons mem_cons_self nil_append)

open PlantOS.Lib.Utf8

variable {mbCurMax : ℕ} {state : MbState} {p : List UInt8} {b : UInt8} {n k v : ℕ}

/-! ### The state between two bytes -/

/-- The state holds the bytes that have been read of a character. -/
inductive Holds : List UInt8 → MbState → Prop
  | none : Holds [] .zero
  | some {n k v : ℕ} (hn : 2 ≤ n) (hn' : n ≤ 4) (hk : 1 ≤ k) (hle : k < n) (hfits : Fits n k v)
      (hreach : Reach n (n - k) v) : Holds (form n k v) ⟨v, least n <<< 3 ||| (n - k)⟩

lemma Holds.open (h : Holds p state) (c : Char) : ¬String.utf8EncodeChar c <+: p := by
  intro hpre
  cases h with
  | none => exact String.utf8EncodeChar_ne_nil (List.prefix_nil.mp hpre)
  | @some n k v hn hn' hk hle hfits hreach =>
    obtain ⟨d, hsize, hform⟩ := prefix_of_reach hn hk (Nat.le_of_lt hle) hreach
    obtain ⟨l, hl⟩ := hpre
    have hd : String.utf8EncodeChar d ++ [] = String.utf8EncodeChar c ++ (l ++ (String.utf8EncodeChar d).drop k) := by
      rw [append_nil, ← append_assoc, hl, hform, List.take_append_drop]
    obtain ⟨-, hnil⟩ := encodeChar_append_inj hd
    have hlen := congrArg List.length hnil
    rw [length_append, List.length_drop, String.length_utf8EncodeChar] at hlen
    have hd4 : (String.utf8EncodeChar d).length = n := by
      rw [encode_eq (ascii_of_size hsize hn), length_form, hsize]
    rw [String.length_utf8EncodeChar] at hd4
    simp only [List.length_nil] at hlen
    omega

lemma Holds.viable (h : Holds p state) : Viable p := by
  cases h with
  | none => exact ⟨[], List.nil_prefix⟩
  | @some n k v hn hn' hk hle hfits hreach =>
    obtain ⟨d, -, hform⟩ := prefix_of_reach hn hk (Nat.le_of_lt hle) hreach
    refine ⟨[d], ?_⟩
    rw [hform, encode_cons, encode_nil, append_nil]
    exact List.take_prefix _ _

lemma Holds.eq_zero (h : Holds p state) (hp : p = []) : state = .zero := by
  cases h with
  | none => rfl
  | @some n k v hn hn' hk hle hfits hreach =>
    have hlen := length_form n k v
    rw [hp] at hlen
    exact absurd hlen (Nat.ne_of_lt hk)

lemma Holds.mbsinit_iff (h : Holds p state) : mbsinit state = true ↔ p = [] := by
  refine ⟨fun hinit => ?_, fun hp => h.eq_zero hp ▸ rfl⟩
  cases h with
  | none => rfl
  | @some n k v hn hn' hk hle hfits hreach =>
    have hunp := (unpack (least n) (show n - k < 8 by omega)).1
    simp only [mbsinit, decide_eq_true_eq] at hinit
    rw [hinit, Nat.zero_and] at hunp
    omega

lemma continuation_iff (b : UInt8) : b.toNat &&& 0xc0 = 0x80 ↔ 0x80 ≤ b.toNat ∧ b.toNat < 0xc0 := by
  have hall : ∀ x : Fin 256, x.val &&& 0xc0 = 0x80 ↔ 0x80 ≤ x.val ∧ x.val < 0xc0 := by decide +kernel
  exact hall ⟨b.toNat, b.toNat_lt⟩

lemma low_bits (x j : ℕ) : x &&& (2 ^ j - 1) = x % 2 ^ j := Nat.and_two_pow_sub_one_eq_mod x j

lemma push_bits {x y : ℕ} (hx : x < 2 ^ 26) : x <<< 6 % 2 ^ 32 ||| y &&& 0x3f = x * 64 + y % 64 := by
  have hshif : x <<< 6 % 2 ^ 32 = 2 ^ 6 * x := by
    rw [Nat.shiftLeft_eq, Nat.mul_comm, Nat.mod_eq_of_lt (by omega)]
  rw [hshif, show 0x3f = 2 ^ 6 - 1 from rfl, low_bits, ← Nat.two_pow_add_eq_or_of_lt (Nat.mod_lt _ (by decide))]
  omega

lemma pow_64 (r : ℕ) : 2 ^ (6 * r) = 64 ^ r := by
  rw [Nat.pow_mul]

lemma range_bits {x r : ℕ} (hx : x * 64 ^ r < 2 ^ 32) :
    x <<< (6 * r) % 2 ^ 32 = x * 64 ^ r ∧
      (x <<< (6 * r) % 2 ^ 32 ||| (1 <<< (6 * r) - 1)) = x * 64 ^ r + (64 ^ r - 1) := by
  have hlo : x <<< (6 * r) % 2 ^ 32 = 2 ^ (6 * r) * x := by
    rw [Nat.shiftLeft_eq, Nat.mul_comm, pow_64, Nat.mul_comm, Nat.mod_eq_of_lt hx]
  refine ⟨by rw [hlo, pow_64, Nat.mul_comm], ?_⟩
  rw [hlo, Nat.shiftLeft_eq, Nat.one_mul,
    ← Nat.two_pow_add_eq_or_of_lt (Nat.sub_lt (Nat.two_pow_pos _) Nat.one_pos), pow_64, Nat.mul_comm]

/-! ### One byte -/

/-- What the call that reads a byte does behind the bytes `p`. -/
inductive ReadsByte (p : List UInt8) (b : UInt8) : MbResult × MbState → Prop
  | char {c : Char} {used : ℕ} (h : p ++ [b] = String.utf8EncodeChar c) (hused : c.toNat ≠ 0 → used = 1) :
      ReadsByte p b (.wide c.toNat used, .zero)
  | more {state' : MbState} (h : Holds (p ++ [b]) state') : ReadsByte p b (.incomplete, state')
  | error (h : ∀ c : Char, ¬p ++ [b] <+: String.utf8EncodeChar c) : ReadsByte p b (.illegal, .zero)

lemma continueBytes_stop {text : ℕ → UInt8} {minimum remaining value : ℕ} :
    continueBytes text 1 minimum remaining 1 value = some (remaining, 1, value) := by
  cases remaining <;> rfl

lemma firstByte_some {first : ℕ} {r : ℕ × ℕ × ℕ} (h : firstByte first = some r) :
    ∃ n, 2 ≤ n ∧ n ≤ 4 ∧ r = (n - 1, least n, first - lead n) ∧ lead n ≤ first ∧ first - lead n < room n ∧
      (n = 2 → 2 ≤ first - lead n) ∧ (n = 4 → first - lead n ≤ 4) := by
  unfold firstByte at h
  split_ifs at h with h2 h3 h4
  · refine ⟨2, by omega, by omega, ?_, ?_⟩
    · rw [← Option.some.inj h, show 0x1f = 2 ^ 5 - 1 from rfl, low_bits]
      simp only [least, lead, Prod.mk.injEq, true_and]
      omega
    · simp only [lead, room]
      omega
  · refine ⟨3, by omega, by omega, ?_, ?_⟩
    · rw [← Option.some.inj h, show 0xf = 2 ^ 4 - 1 from rfl, low_bits]
      simp only [least, lead, Prod.mk.injEq, true_and]
      omega
    · simp only [lead, room]
      omega
  · refine ⟨4, by omega, by omega, ?_, ?_⟩
    · rw [← Option.some.inj h, show 7 = 2 ^ 3 - 1 from rfl, low_bits]
      simp only [least, lead, Prod.mk.injEq, true_and]
      omega
    · simp only [lead, room]
      omega

lemma firstByte_none {first : ℕ} (h : firstByte first = none) :
    first < 0xc2 ∨ 0xf4 < first := by
  unfold firstByte at h
  split_ifs at h
  omega

lemma readsByte_first (hutf8 : mbCurMax ≠ 1) : ReadsByte [] b (mbrtowcText mbCurMax (byteAt [b]) 1 .zero) := by
  have hzero : ¬MbState.zero.state &&& 7 ≠ 0 := by decide
  rw [mbrtowcText_pos (by decide), if_neg hzero, show byteAt [b] 0 = b from rfl]
  by_cases hasc : b.toNat < 128
  · rw [if_pos hasc]
    obtain ⟨c, hc⟩ := exists_char (x := b.toNat) (.inl (by omega))
    rw [← hc]
    refine .char ?_ fun hne => if_pos hne
    rw [encode_ascii (by omega), hc, UInt8.ofNat_toNat]
    rfl
  rw [if_neg hasc, if_neg hutf8]
  cases hbyte : firstByte b.toNat with
  | none =>
    refine .error fun c hpre => ?_
    obtain ⟨l, hl⟩ := hpre
    have hrng := firstByte_none hbyte
    by_cases hc : c.toNat < 0x80
    · rw [encode_ascii hc, nil_append, cons_append] at hl
      have hb := congrArg UInt8.toNat (List.cons.inj hl).1
      rw [toNat_ofNat (by omega)] at hb
      omega
    · -- the lead byte of a character lies in one of the ranges
      have hlt := char_lt c
      have hhead := head_form (n := size c.toNat) (v := c.toNat) (size_le c.toNat).1
      rw [← encode_eq (by omega), ← hl] at hhead
      have hb := congrArg UInt8.toNat (Option.some.inj hhead)
      have hsize := two_le_size (show 0x80 ≤ c.toNat by omega)
      have hbds := (size_eq_iff hlt hsize (size_le c.toNat).2).mp rfl
      have hroom := lead_add_room (size c.toNat)
      have hfits : c.toNat / 64 ^ (size c.toNat - 1) < room (size c.toNat) := fits_self hlt (by omega)
      rw [toNat_ofNat (by omega)] at hb
      have hfour := (size_le c.toNat).2
      generalize size c.toNat = n at *
      generalize c.toNat = x at *
      obtain rfl | rfl | rfl : n = 2 ∨ n = 3 ∨ n = 4 := by omega
      all_goals
        simp only [lead, least, bound, room, Nat.reducePow, Nat.reduceSub] at hb hbds hfits
        omega
  | some r =>
    obtain ⟨n, hn, hn', rfl, hlead, hroom, htwo, hfour⟩ := firstByte_some hbyte
    have hform : [b] = form n 1 (b.toNat - lead n) := by
      simp only [form, List.cons.injEq, and_true]
      rw [Nat.add_sub_cancel' hlead, UInt8.ofNat_toNat]
    have hfits : Fits n 1 (b.toNat - lead n) := by
      unfold Fits
      rwa [Nat.sub_self, Nat.pow_zero, Nat.div_one]
    simp only [continueBytes_stop, finish, if_pos (show n - 1 ≠ 0 by omega)]
    refine .more ?_
    rw [nil_append, hform]
    refine .some hn hn' (Nat.le_refl 1) hn hfits ?_
    refine (reach_iff hn hn' (by omega) (by rwa [show n - (n - 1) = 1 by omega])).mpr ?_
    generalize b.toNat - lead n = x at *
    obtain rfl | rfl | rfl : n = 2 ∨ n = 3 ∨ n = 4 := by omega
    · have hleas := htwo rfl
      simp only [least, room, Nat.reducePow, Nat.reduceSub] at hroom ⊢
      omega
    · simp only [least, room, Nat.reducePow, Nat.reduceSub] at hroom ⊢
      omega
    · have hlar := hfour rfl
      simp only [least, room, Nat.reducePow, Nat.reduceSub] at hroom ⊢
      omega

lemma fits_push (hk : 1 ≤ k) (h : Fits n k v) (x : ℕ) : Fits n (k + 1) (v * 64 + x % 64) := by
  unfold Fits at *
  obtain ⟨k, rfl⟩ : ∃ j, k = j + 1 := ⟨k - 1, by omega⟩
  rw [Nat.add_sub_cancel] at h
  rwa [Nat.add_sub_cancel, Nat.pow_succ', ← Nat.div_div_eq_div_mul, show (v * 64 + x % 64) / 64 = v by omega]

lemma lt_of_fits {r : ℕ} (hn : 2 ≤ n) (hn' : n ≤ 4) (hk : 1 ≤ k) (hr : k + r = n) (h : Fits n k v) :
    v * 64 ^ r < 2 ^ 22 := by
  unfold Fits at h
  have hv : v < room n * 64 ^ (k - 1) := (Nat.div_lt_iff_lt_mul (Nat.pow_pos (by decide))).mp h
  calc v * 64 ^ r < room n * 64 ^ (k - 1) * 64 ^ r := Nat.mul_lt_mul_of_pos_right hv (Nat.pow_pos (by decide))
    _ = room n * 64 ^ (n - 1) := by rw [Nat.mul_assoc, ← Nat.pow_add, show k - 1 + r = n - 1 by omega]
    _ ≤ 2 ^ 22 := by
      obtain rfl | rfl | rfl : n = 2 ∨ n = 3 ∨ n = 4 := by omega
      all_goals decide

lemma readsByte_next (hn : 2 ≤ n) (hn' : n ≤ 4) (hk : 1 ≤ k) (hle : k < n) (hfits : Fits n k v) :
    ReadsByte (form n k v) b (mbrtowcText mbCurMax (byteAt [b]) 1 ⟨v, least n <<< 3 ||| (n - k)⟩) := by
  obtain ⟨r, hr⟩ : ∃ r, n - k = r + 1 := ⟨n - k - 1, by omega⟩
  obtain ⟨hlow, hhigh⟩ := unpack (least n) (show n - k < 8 by omega)
  have hmid : (⟨v, least n <<< 3 ||| (n - k)⟩ : MbState).state &&& 7 ≠ 0 := by
    rw [hlow]
    omega
  rw [mbrtowcText_pos (by decide), if_pos hmid]
  dsimp only
  rw [hlow, hhigh, hr, continueBytes, if_pos (by decide), show byteAt [b] 0 = b from rfl]
  dsimp only
  by_cases hcont : b.toNat &&& 0xc0 = 0x80
  · -- the bits of the byte go behind the others
    obtain ⟨hb, hb'⟩ := (continuation_iff b).mp hcont
    have hv : v * 64 ^ (r + 1) < 2 ^ 22 := lt_of_fits hn hn' hk (by omega) hfits
    have hvsm : v < 2 ^ 26 := by
      have := Nat.le_mul_of_pos_right v (show 0 < 64 ^ (r + 1) from Nat.pow_pos (by decide))
      omega
    have hfits' := fits_push hk hfits b.toNat
    have hlt := lt_of_fits (r := r) hn hn' (show 1 ≤ k + 1 by omega) (by omega) hfits'
    obtain ⟨hlo, hup⟩ := range_bits (x := v * 64 + b.toNat % 64) (r := r) (by omega)
    have hpush := form_push (n := n) (v := v) hk hb hb'
    have hreach := reach_iff (r := r) hn hn' (by omega) (by rwa [show n - r = k + 1 by omega])
    rw [if_neg (not_not.mpr hcont), push_bits hvsm, hup, hlo, Nat.zero_add]
    split_ifs with hchec
    · refine .error fun c hpre => ?_
      rw [hpush] at hpre
      obtain ⟨hsize, hbits⟩ := reach_of_prefix hn hn' (by omega) (by omega) hfits' hpre
      rw [show n - (k + 1) = r by omega] at hbits
      exact hreach.mp ⟨c, hsize, hbits⟩ hchec
    · have hsome := hreach.mpr hchec
      rw [continueBytes_stop]
      cases r with
      | zero =>
        -- the last byte
        obtain ⟨c, hsize, hbits⟩ := hsome
        rw [Nat.pow_zero, Nat.div_one] at hbits
        simp only [finish, ne_eq, not_true_eq_false, if_false]
        rw [← hbits]
        refine .char ?_ fun _ => rfl
        rw [hpush, ← hbits, encode_eq (ascii_of_size hsize hn), hsize, show k + 1 = n by omega]
      | succ r =>
        simp only [finish, if_pos (show r + 1 ≠ 0 by omega)]
        refine .more ?_
        rw [hpush, show r + 1 = n - (k + 1) by omega]
        refine .some hn hn' (by omega) (by omega) hfits' ?_
        rwa [show n - (k + 1) = r + 1 by omega]
  · rw [if_pos hcont]
    refine .error fun c hpre => hcont ((continuation_iff b).mpr ?_)
    obtain ⟨hsize, -⟩ := reach_of_prefix hn hn' hk (Nat.le_of_lt hle) hfits ((List.prefix_append _ _).trans hpre)
    obtain ⟨l, hl⟩ := hpre
    rw [encode_eq (ascii_of_size hsize hn), hsize] at hl
    refine continuation_of_mem (n := n) (k := n) (v := c.toNat) ?_
    have hne : form n k v ≠ [] := List.ne_nil_of_length_pos (by rwa [length_form])
    rw [← hl, append_assoc, List.tail_append_of_ne_nil hne]
    simp

lemma readsByte (hutf8 : mbCurMax ≠ 1) (h : Holds p state) :
    ReadsByte p b (mbrtowcText mbCurMax (byteAt [b]) 1 state) := by
  cases h with
  | none => exact readsByte_first hutf8
  | some hn hn' hk hle hfits hreach => exact readsByte_next hn hn' hk hle hfits

/-! ### One call -/

/-- What a call does behind the bytes `p`. -/
inductive ReadsCall (p text : List UInt8) : MbResult × MbState → Prop
  | char {c : Char} {used : ℕ} {l : List UInt8} (h : p ++ text = String.utf8EncodeChar c ++ l)
      (hused : c.toNat ≠ 0 → used + p.length = (String.utf8EncodeChar c).length) :
      ReadsCall p text (.wide c.toNat used, .zero)
  | more {state' : MbState} (h : Holds (p ++ text) state') : ReadsCall p text (.incomplete, state')
  | error {q l : List UInt8} {b : UInt8} (h : p ++ text = q ++ b :: l)
      (hb : ∀ c : Char, ¬q ++ [b] <+: String.utf8EncodeChar c) : ReadsCall p text (.illegal, .zero)

theorem mbrtowcText_reads (hutf8 : mbCurMax ≠ 1) (h : Holds p state) {text : List UInt8} (hne : text ≠ []) :
    ReadsCall p text (mbrtowcText mbCurMax (byteAt text) text.length state) := by
  induction text generalizing p state with
  | nil => exact absurd rfl hne
  | cons b text ih =>
    have hbyte := readsByte (b := b) hutf8 h
    rcases eq_nil_or_concat text with rfl | ⟨l, x, hl⟩
    · change ReadsCall p [b] (mbrtowcText mbCurMax (byteAt [b]) 1 state)
      generalize mbrtowcText mbCurMax (byteAt [b]) 1 state = r at hbyte
      cases hbyte with
      | @char c used hc hused =>
        refine .char (l := []) (by rw [append_nil, hc]) fun hzero => ?_
        rw [hused hzero, ← hc, length_append, length_singleton, Nat.add_comm]
      | more hmore => exact .more hmore
      | error hnot => exact .error (q := p) (l := []) rfl hnot
    · have htext : text ≠ [] := by simp [hl]
      have hcut := @mbrtowcText_append mbCurMax state [b] text (List.cons_ne_nil b []) htext
      change mbrtowcText mbCurMax (byteAt (b :: text)) (b :: text).length state =
        resume 1 (mbrtowcText mbCurMax (byteAt [b]) 1 state) _ at hcut
      rw [hcut]
      generalize mbrtowcText mbCurMax (byteAt [b]) 1 state = r at hbyte
      cases hbyte with
      | @char c used hc hused =>
        refine .char (l := text) (by rw [← hc]; simp) fun hzero => ?_
        rw [hused hzero, ← hc, length_append, length_singleton, Nat.add_comm]
      | @more state' hmore =>
        -- the call goes on with the other bytes
        have hrest := ih hmore htext
        simp only [resume]
        generalize mbrtowcText mbCurMax (byteAt text) text.length state' = r at hrest
        cases hrest with
        | @char c used l hc hused =>
          refine .char (l := l) (by rw [← hc]; simp) fun hzero => ?_
          rw [← hused hzero, length_append, length_singleton]
          omega
        | more hmore' => exact .more (by simpa using hmore')
        | @error q l b' hq hb => exact .error (q := q) (l := l) (b := b') (by rw [← hq]; simp) hb
      | error hnot => exact .error (q := p) (l := text) rfl hnot

lemma mbrtowcText_char (hutf8 : mbCurMax ≠ 1) {c : Char} (hc : c.toNat ≠ 0) (l : List UInt8) :
    mbrtowcText mbCurMax (byteAt (String.utf8EncodeChar c ++ l)) sizeMax .zero =
      (.wide c.toNat (String.utf8EncodeChar c).length, .zero) := by
  have hne : String.utf8EncodeChar c ≠ [] := String.utf8EncodeChar_ne_nil
  have hpos : 0 < (String.utf8EncodeChar c).length := length_pos_iff.mpr hne
  have hsize : sizeMax = (String.utf8EncodeChar c).length + (sizeMax - (String.utf8EncodeChar c).length) := by
    have hfour := Char.utf8Size_le_four c
    rw [String.length_utf8EncodeChar]
    unfold sizeMax
    omega
  have hrest : 0 < sizeMax - (String.utf8EncodeChar c).length := by
    have hfour := Char.utf8Size_le_four c
    rw [String.length_utf8EncodeChar]
    unfold sizeMax
    omega
  rw [hsize, mbrtowcText_cut hpos hrest, mbrtowcText_congr hpos fun _ => byteAt_append_left]
  have hcall := mbrtowcText_reads hutf8 Holds.none hne
  generalize mbrtowcText mbCurMax (byteAt (String.utf8EncodeChar c)) (String.utf8EncodeChar c).length .zero = r at hcall
  cases hcall with
  | @char d used l' hd hused =>
    have hdc : String.utf8EncodeChar c ++ [] = String.utf8EncodeChar d ++ l' := by rw [append_nil, ← hd]; rfl
    obtain ⟨rfl, -⟩ := encodeChar_append_inj hdc
    have hall := hused hc
    rw [List.length_nil, Nat.add_zero] at hall
    rw [hall]
    rfl
  | more hmore => exact absurd (List.prefix_refl _) (hmore.open c)
  | @error q l' b hq hb => exact absurd ⟨l', by rw [nil_append] at hq; rw [hq]; simp⟩ (hb c)

/-! ### A text -/

/-- What a caller has read behind the bytes `p`: the characters, and the beginning of another one that the state
holds, or the byte that no character has there. -/
inductive Reads (p text : List UInt8) : List ℕ × Option MbState → Prop
  | upTo {cs : List Char} {q : List UInt8} {state' : MbState} (h : p ++ text = encode cs ++ q) (hq : Holds q state') :
      Reads p text (cs.map Char.toNat, some state')
  | error {cs : List Char} {q l : List UInt8} {b : UInt8} {state' : MbState} (h : p ++ text = encode cs ++ (q ++ b :: l))
      (hq : Holds q state') (hb : ∀ c : Char, ¬q ++ [b] <+: String.utf8EncodeChar c) :
      Reads p text (cs.map Char.toNat, none)

lemma feed_byte (b : UInt8) : feed mbCurMax state [b] =
    match mbrtowcText mbCurMax (byteAt [b]) 1 state with
    | (.illegal, _) => ([], none)
    | (.incomplete, state) => ([], some state)
    | (.wide value _, state) => ([value], some state) := by
  rw [feed_cons (List.cons_ne_nil b [])]
  cases hcall : mbrtowcText mbCurMax (byteAt [b]) [b].length state with
  | mk r state' =>
    change mbrtowcText mbCurMax (byteAt [b]) 1 state = _ at hcall
    cases r with
    | illegal => rfl
    | incomplete => rfl
    | wide value used =>
      dsimp only
      rw [List.drop_of_length_le (Nat.le_max_right used 1), feed_nil]

theorem feed_reads (hutf8 : mbCurMax ≠ 1) (h : Holds p state) (text : List UInt8) :
    Reads p text (feed mbCurMax state text) := by
  induction text generalizing p state with
  | nil =>
    rw [feed_nil]
    exact @Reads.upTo _ _ [] _ _ (by simp) h
  | cons b text ih =>
    rw [show b :: text = [b] ++ text from rfl, feed_append, feed_byte]
    have hbyte := readsByte (b := b) hutf8 h
    generalize mbrtowcText mbCurMax (byteAt [b]) 1 state = r at hbyte
    cases hbyte with
    | @char c used hc hused =>
      have hrest := ih Holds.none
      simp only [join]
      generalize feed mbCurMax .zero text = after at hrest
      cases hrest with
      | @upTo cs q state' htext hq =>
        refine @Reads.upTo _ _ (c :: cs) q _ ?_ hq
        rw [encode_cons, ← hc, append_assoc, append_assoc, ← htext]
        simp
      | @error cs q l b' state' htext hq hb' =>
        refine @Reads.error _ _ (c :: cs) q l b' _ ?_ hq hb'
        rw [encode_cons, ← hc, append_assoc, append_assoc, ← htext]
        simp
    | more hmore =>
      have hrest := ih hmore
      simp only [join, nil_append]
      generalize feed mbCurMax _ text = after at hrest ⊢
      cases hrest with
      | upTo htext hq =>
        rw [append_assoc] at htext
        exact .upTo htext hq
      | error htext hq hb' =>
        rw [append_assoc] at htext
        exact .error htext hq hb'
    | error hnot =>
      exact @Reads.error _ _ [] p text b _ (by simp) h hnot

lemma continuationBytes_form (i : ℕ) (text : List UInt8) :
    form n (i + 1) v ++ text =
      UInt8.ofNat (lead n + (continuationBytes i v text).1) :: (continuationBytes i v text).2 ∧
      (continuationBytes i v text).1 = v / 64 ^ i := by
  induction i generalizing v text with
  | zero => exact ⟨rfl, (Nat.div_one v).symm⟩
  | succ i ih =>
    have hbyte : UInt8.ofNat (0x80 ||| v &&& 0x3f) = UInt8.ofNat (0x80 + v % 64) := by
      rw [show 0x3f = 2 ^ 6 - 1 from rfl, low_bits, show 0x80 = 2 ^ 6 * 2 from rfl,
        ← Nat.two_pow_add_eq_or_of_lt (Nat.mod_lt _ (by decide))]
    have hshif : v >>> 6 = v / 64 := Nat.shiftRight_eq_div_pow v 6
    obtain ⟨hform, hbits⟩ := ih (v := v / 64) (UInt8.ofNat (0x80 + v % 64) :: text)
    rw [form_succ (by omega), append_assoc, List.singleton_append, continuationBytes, hbyte, hshif]
    refine ⟨hform, ?_⟩
    rw [hbits, Nat.div_div_eq_div_mul, Nat.pow_succ']

lemma wcrtomb_char (hutf8 : mbCurMax ≠ 1) (c : Char) : wcrtomb mbCurMax c.toNat = some (String.utf8EncodeChar c) := by
  have hlt := char_lt c
  unfold wcrtomb
  rw [Nat.mod_eq_of_lt (by omega)]
  dsimp only
  by_cases hasc : c.toNat < 128
  · rw [if_pos hasc, encode_ascii hasc]
  have hval : ¬(mbCurMax = 1 ∨ c.toNat > 0x10ffff ∨ (c.toNat ≥ 0xd800 ∧ c.toNat ≤ 0xdfff)) := by
    have hscal : c.toNat < 0xd800 ∨ 0xdfff < c.toNat ∧ c.toNat < 0x110000 := c.valid
    omega
  have hcnt : (if c.toNat < 0x800 then 2 else if c.toNat < 0x10000 then 3 else 4) = size c.toNat := by
    unfold size
    rw [if_neg hasc]
  have htwo := two_le_size (show 0x80 ≤ c.toNat by omega)
  have hfour := (size_le c.toNat).2
  have hfits : c.toNat / 64 ^ (size c.toNat - 1) < room (size c.toNat) := fits_self hlt (by omega)
  obtain ⟨hform, hbits⟩ := continuationBytes_form (n := size c.toNat) (v := c.toNat) (size c.toNat - 1) []
  rw [append_nil, Nat.sub_add_cancel (by omega)] at hform
  rw [if_neg hasc, if_neg hval, hcnt, encode_eq (by omega), hform]
  -- the bits of the lead byte are disjoint from those of the value
  have hlead : ∀ x, x < room (size c.toNat) →
      (if size c.toNat = 2 then 0xc0 else if size c.toNat = 3 then 0xe0 else 0xf0) ||| x = lead (size c.toNat) + x := by
    intro x hx
    generalize size c.toNat = m at *
    obtain rfl | rfl | rfl : m = 2 ∨ m = 3 ∨ m = 4 := by omega
    · exact (Nat.two_pow_add_eq_or_of_lt (i := 5) hx 6).symm
    · exact (Nat.two_pow_add_eq_or_of_lt (i := 4) hx 14).symm
    · exact (Nat.two_pow_add_eq_or_of_lt (i := 3) hx 30).symm
  rw [hlead _ (by rwa [hbits])]

/-! ### Strings -/

lemma ne_zero_of_mem {c : Char} (hc : c.toNat ≠ 0) {b : UInt8} (hb : b ∈ String.utf8EncodeChar c) : b ≠ 0 := by
  rintro rfl
  by_cases hasc : c.toNat < 0x80
  · rw [encode_ascii hasc, List.mem_singleton] at hb
    have hzero := congrArg UInt8.toNat hb
    rw [toNat_ofNat (by omega)] at hzero
    exact hc hzero.symm
  · rw [encode_eq (by omega)] at hb
    have hle := le_of_mem_form (fits_self (char_lt c) (by omega)) hb
    exact absurd hle (by decide)

lemma byteAt_encode {c : Char} (hc : c.toNat ≠ 0) (l : List UInt8) : byteAt (String.utf8EncodeChar c ++ l) 0 ≠ 0 := by
  have hpos : 0 < (String.utf8EncodeChar c).length := length_pos_iff.mpr String.utf8EncodeChar_ne_nil
  rw [byteAt_append_left hpos, byteAt, List.getD_eq_getElem _ _ hpos]
  exact ne_zero_of_mem hc (List.getElem_mem hpos)

lemma wcstombs_chars (hutf8 : mbCurMax ≠ 1) {size : ℕ} (count : ℕ) {cs : List Char} (hcs : ∀ c ∈ cs, c.toNat ≠ 0)
    (hsize : count + (encode cs).length < size) (tail : List ℕ) (htail : tail.headD 0 = 0) :
    wcstombsFrom mbCurMax true size count (cs.map Char.toNat ++ tail) =
      (some (count + (encode cs).length), encode cs ++ [0]) := by
  induction cs generalizing count with
  | nil =>
    have hlt : count < size := hsize
    cases tail with
    | nil => simp [wcstombsFrom, hlt]
    | cons value tail =>
      obtain rfl : value = 0 := htail
      simp [wcstombsFrom, hlt]
  | cons c cs ih =>
    rw [encode_cons, length_append] at hsize
    have hrest := @ih (count + (String.utf8EncodeChar c).length)
      (fun d hd => hcs d (List.mem_cons_of_mem _ hd)) (by omega)
    rw [map_cons, cons_append, wcstombsFrom, if_neg (hcs c mem_cons_self), wcrtomb_char hutf8]
    simp only [if_true]
    rw [if_neg (by omega), hrest, encode_cons, length_append, append_assoc, Nat.add_assoc]

lemma mbstowcs_chars (hutf8 : mbCurMax ≠ 1) {size : ℕ} (count : ℕ) {cs : List Char} (hcs : ∀ c ∈ cs, c.toNat ≠ 0)
    (hsize : count + cs.length < size) (tail : List UInt8) (htail : byteAt tail 0 = 0) :
    mbstowcsFrom mbCurMax true size count .zero (encode cs ++ tail) =
      (some (count + cs.length), cs.map Char.toNat ++ [0]) := by
  induction cs generalizing count with
  | nil =>
    have hlt : count < size := hsize
    rw [encode_nil, nil_append, mbstowcsFrom, dif_pos htail]
    simp [hlt]
  | cons c cs ih =>
    have hc := hcs c mem_cons_self
    rw [length_cons] at hsize
    have hrest := @ih (count + 1) (fun d hd => hcs d (List.mem_cons_of_mem _ hd)) (by omega)
    have hpos : 0 < (String.utf8EncodeChar c).length := length_pos_iff.mpr String.utf8EncodeChar_ne_nil
    rw [encode_cons, append_assoc, mbstowcsFrom, dif_neg (byteAt_encode hc _)]
    simp only [mbrtowc, mbrtowcText_char hutf8 hc, if_true]
    rw [if_neg (by omega), Nat.max_eq_left hpos, List.drop_left, hrest, length_cons, map_cons]
    simp only [cons_append, Prod.mk.injEq, Option.some.injEq, and_true]
    omega

lemma byteAt_terminated (text : List UInt8) : byteAt (text ++ [0]) = byteAt text := by
  funext i
  unfold byteAt
  rcases Nat.lt_trichotomy i text.length with h | rfl | h
  · exact List.getD_append _ _ _ _ h
  · rw [List.getD_append_right _ _ _ _ (Nat.le_refl _), Nat.sub_self, List.getD_eq_default _ _ (Nat.le_refl _)]
    rfl
  · rw [List.getD_eq_default _ _ (Nat.le_of_lt h), List.getD_eq_default _ _ (by simp; omega)]

lemma reads_string (hutf8 : mbCurMax ≠ 1) {text : List UInt8} {value used : ℕ}
    (h : (mbrtowcText mbCurMax (byteAt text) sizeMax .zero).1 = .wide value used) :
    ∃ t r, t <+: text ++ [0] ∧ ReadsCall [] t r ∧ r.1 = .wide value used := by
  have ht : (text ++ [0]).take sizeMax ≠ [] := List.ne_nil_of_length_pos (by
    rw [List.length_take, length_append, length_singleton]
    unfold sizeMax
    omega)
  have hcall := mbrtowcText_reads hutf8 Holds.none ht
  refine ⟨_, _, List.take_prefix sizeMax _, hcall, ?_⟩
  have hpos := length_pos_iff.mpr ht
  have hagr : ∀ i < ((text ++ [0]).take sizeMax).length,
      byteAt text i = byteAt ((text ++ [0]).take sizeMax) i := by
    intro i hi
    rw [← byteAt_terminated text]
    conv_lhs => rw [← List.take_append_drop sizeMax (text ++ [0])]
    exact byteAt_append_left hi
  by_cases hlong : sizeMax ≤ (text ++ [0]).length
  · rw [← h, List.length_take_of_le hlong]
    rw [List.length_take_of_le hlong] at hpos hagr
    exact congrArg Prod.fst (mbrtowcText_congr hpos hagr).symm
  · have hall : (text ++ [0]).take sizeMax = text ++ [0] := List.take_of_length_le (by omega)
    rw [hall] at hcall hpos hagr ⊢
    have hsize : sizeMax = (text ++ [0]).length + (sizeMax - (text ++ [0]).length) := by omega
    rw [hsize, mbrtowcText_cut hpos (by omega), mbrtowcText_congr hpos hagr] at h
    generalize mbrtowcText mbCurMax (byteAt (text ++ [0])) (text ++ [0]).length .zero = r at hcall h
    cases hcall with
    | char _ _ => exact h
    | error _ _ => exact h
    | more hmore =>
      -- no character has the terminator behind its first byte
      generalize hq : ([] : List UInt8) ++ (text ++ [0]) = q at hmore
      cases hmore with
      | none => simp at hq
      | some _ _ _ _ hfits _ =>
        have hzero := le_of_mem_form (b := 0) hfits (by rw [← hq]; simp)
        exact absurd hzero (by decide)

lemma char_of_string (hutf8 : mbCurMax ≠ 1) {text : List UInt8} (hnul : 0 ∉ text) (hne : text ≠ [])
    {value used : ℕ} {state' : MbState}
    (h : mbrtowcText mbCurMax (byteAt text) sizeMax .zero = (.wide value used, state')) :
    ∃ c : Char, ∃ l, text = String.utf8EncodeChar c ++ l ∧ c.toNat ≠ 0 := by
  obtain ⟨t, r, ⟨s, hs⟩, hcall, hr⟩ := reads_string hutf8 (congrArg Prod.fst h)
  cases hcall with
  | more _ => cases hr
  | error _ _ => cases hr
  | @char c used' l hc _ =>
    rw [nil_append] at hc
    rw [hc, append_assoc] at hs
    have hzero : c.toNat ≠ 0 := by
      intro hzero
      rw [encode_ascii (by omega), hzero] at hs
      cases text with
      | nil => exact hne rfl
      | cons b text =>
        obtain ⟨rfl, -⟩ := List.cons.inj hs
        exact hnul mem_cons_self
    rcases eq_nil_or_concat (l ++ s) with hnil | ⟨l', x, hl'⟩
    · rw [hnil, append_nil] at hs
      exact absurd rfl (ne_zero_of_mem (b := 0) hzero (by rw [hs]; simp))
    · rw [hl', List.concat_eq_append, ← append_assoc] at hs
      exact ⟨c, l', (List.append_inj' hs rfl).1.symm, hzero⟩

lemma chars_of_mbstowcs (hutf8 : mbCurMax ≠ 1) {size count n : ℕ} {text : List UInt8} (hnul : 0 ∉ text)
    (h : (mbstowcsFrom mbCurMax true size count .zero text).1 = some n) (hn : n < size) :
    ∃ cs : List Char, text = encode cs ∧ (∀ c ∈ cs, c.toNat ≠ 0) ∧ n = count + cs.length := by
  induction hlen : text.length using Nat.strongRecOn generalizing text count with
  | _ m ih =>
    rcases eq_nil_or_concat text with rfl | ⟨l, x, hl⟩
    · rw [mbstowcsFrom, dif_pos (by rfl)] at h
      exact ⟨[], rfl, by simp, (Option.some.inj h).symm⟩
    have hne : text ≠ [] := by simp [hl]
    have hfst : byteAt text 0 ≠ 0 := by
      have hpos := length_pos_iff.mpr hne
      rw [byteAt, List.getD_eq_getElem _ _ hpos]
      exact fun hzero => hnul (hzero ▸ List.getElem_mem hpos)
    rw [mbstowcsFrom, dif_neg hfst] at h
    simp only [mbrtowc, if_true] at h
    cases hcall : mbrtowcText mbCurMax (byteAt text) sizeMax .zero with
    | mk r state' =>
      cases r with
      | illegal =>
        rw [hcall] at h
        cases h
      | incomplete =>
        rw [hcall] at h
        cases h
      | wide value used =>
        obtain ⟨c, l, htext, hc⟩ := char_of_string hutf8 hnul hne hcall
        subst htext
        have hpos : 0 < (String.utf8EncodeChar c).length := length_pos_iff.mpr String.utf8EncodeChar_ne_nil
        rw [mbrtowcText_char hutf8 hc] at h
        simp only at h
        split_ifs at h with hfull
        · -- the buffer is full
          have heq := Option.some.inj h
          omega
        · rw [Nat.max_eq_left hpos, List.drop_left] at h
          have hlt : l.length < m := by
            rw [← hlen, length_append]
            omega
          obtain ⟨cs, rfl, hcs, rfl⟩ := ih l.length hlt (fun hmem => hnul (List.mem_append_right _ hmem)) h rfl
          refine ⟨c :: cs, rfl, ?_, ?_⟩
          · intro d hd
            obtain rfl | hd := List.mem_cons.mp hd
            · exact hc
            · exact hcs d hd
          · rw [length_cons]
            omega

/-! ### The contract -/

lemma encode_eq_append {cs ds : List Char} {q : List UInt8} (hq : ∀ c : Char, ¬String.utf8EncodeChar c <+: q)
    (h : encode cs = encode ds ++ q) : cs = ds ∧ q = [] := by
  induction ds generalizing cs with
  | nil =>
    rw [encode_nil, nil_append] at h
    cases cs with
    | nil => exact ⟨rfl, h.symm⟩
    | cons c cs => exact absurd ⟨encode cs, by rw [← h]; rfl⟩ (hq c)
  | cons d ds ih =>
    cases cs with
    | nil =>
      rw [encode_nil, encode_cons, append_assoc] at h
      exact absurd (List.append_eq_nil_iff.mp h.symm).1 String.utf8EncodeChar_ne_nil
    | cons c cs =>
      rw [encode_cons, encode_cons, append_assoc] at h
      obtain ⟨rfl, hrest⟩ := encodeChar_append_inj h
      obtain ⟨rfl, hnil⟩ := ih hrest
      exact ⟨rfl, hnil⟩

lemma map_toNat_injective {cs ds : List Char} (h : cs.map Char.toNat = ds.map Char.toNat) : cs = ds :=
  (List.map_inj_right fun _ _ => Char.toNat_inj.mp).mp h

lemma feed_eq_iff (hutf8 : mbCurMax ≠ 1) (text : List UInt8) (cs : List Char) :
    feed mbCurMax .zero text = (cs.map Char.toNat, some .zero) ↔ text = encode cs := by
  have hreads := feed_reads hutf8 Holds.none text
  generalize feed mbCurMax .zero text = r at hreads
  cases hreads with
  | @upTo ds q state' htext hq =>
    rw [nil_append] at htext
    subst htext
    constructor
    · intro h
      obtain ⟨hvalues, hst⟩ := Prod.mk.inj h
      cases hst
      rw [hq.mbsinit_iff.mp rfl, append_nil, map_toNat_injective hvalues]
    · intro h
      obtain ⟨rfl, rfl⟩ := encode_eq_append hq.open h.symm
      rw [hq.eq_zero rfl]
  | @error ds q l b state' htext hq hb =>
    rw [nil_append] at htext
    constructor
    · intro h
      exact nomatch (Prod.mk.inj h).2
    · rintro rfl
      have hviab : Viable (encode ds ++ (q ++ b :: l)) := ⟨cs, htext ▸ List.prefix_refl _⟩
      exact absurd hviab (not_viable hq.open hb)

lemma feed_isSome_iff (hutf8 : mbCurMax ≠ 1) (text : List UInt8) :
    (feed mbCurMax .zero text).2.isSome = true ↔ Viable text := by
  have hreads := feed_reads hutf8 Holds.none text
  generalize feed mbCurMax .zero text = r at hreads
  cases hreads with
  | @upTo ds q state' htext hq =>
    rw [nil_append] at htext
    subst htext
    obtain ⟨cs, l, hl⟩ := hq.viable
    exact ⟨fun _ => ⟨ds ++ cs, l, by rw [encode_append, ← hl, append_assoc]⟩, fun _ => rfl⟩
  | @error ds q l b state' htext hq hb =>
    rw [nil_append] at htext
    subst htext
    exact ⟨fun h => absurd h Bool.false_ne_true, fun h => absurd h (not_viable hq.open hb)⟩

lemma feed_values (hutf8 : mbCurMax ≠ 1) (text : List UInt8) : ∃ cs l, text = encode cs ++ l ∧
    (feed mbCurMax .zero text).1 = cs.map Char.toNat ∧ ∀ c : Char, ¬String.utf8EncodeChar c <+: l := by
  have hreads := feed_reads hutf8 Holds.none text
  generalize feed mbCurMax .zero text = r at hreads
  cases hreads with
  | @upTo ds q state' htext hq => exact ⟨ds, q, htext, rfl, hq.open⟩
  | @error ds q l b state' htext hq hb =>
    refine ⟨ds, q ++ b :: l, htext, rfl, fun c hpre => ?_⟩
    obtain hleft | hrig := List.prefix_or_prefix_of_prefix hpre (show q ++ [b] <+: q ++ b :: l from ⟨l, by simp⟩)
    · obtain ⟨m, hm⟩ := hleft
      rcases eq_nil_or_concat m with rfl | ⟨m, x, rfl⟩
      · rw [append_nil] at hm
        exact hb c ⟨[], by rw [hm, append_nil]⟩
      · rw [List.concat_eq_append, ← append_assoc] at hm
        exact hq.open c ⟨m, (List.append_inj' hm rfl).1⟩
    · exact hb c hrig

/-- **A text can be cut anywhere; in a locale with UTF-8 the calls read exactly the sequences of characters and fail
at the first byte that no such sequence has there, and the conversions of strings undo each other.** -/
theorem multibyte_utf8 :
    (∀ mbCurMax (chunks : List (List UInt8)), (∀ chunk ∈ chunks, chunk ≠ []) →
      feedAll mbCurMax .zero chunks = feed mbCurMax .zero chunks.flatten) ∧
    (∀ text cs, feed utf8CurMax .zero text = (cs.map Char.toNat, some .zero) ↔ text = encode cs) ∧
    (∀ text, (feed utf8CurMax .zero text).2.isSome = true ↔ Viable text) ∧
    (∀ text state, (feed utf8CurMax .zero text).2 = some state → (mbsinit state = true ↔ ∃ cs, text = encode cs)) ∧
    (∀ text, ∃ cs l, text = encode cs ++ l ∧ (feed utf8CurMax .zero text).1 = cs.map Char.toNat ∧
      ∀ c : Char, ¬String.utf8EncodeChar c <+: l) ∧
    (∀ (cs : List Char) size size', (∀ c ∈ cs, c.toNat ≠ 0) → (encode cs).length < size → cs.length < size' →
      (wcstombs utf8CurMax true (cs.map Char.toNat) size).1 = some (encode cs).length ∧
        mbstowcs utf8CurMax true (wcstombs utf8CurMax true (cs.map Char.toNat) size).2 size' =
          (some cs.length, cs.map Char.toNat ++ [0])) ∧
    (∀ (text : List UInt8) size size' n, 0 ∉ text → (mbstowcs utf8CurMax true text size).1 = some n → n < size →
      text.length < size' →
        wcstombs utf8CurMax true (mbstowcs utf8CurMax true text size).2 size' = (some text.length, text ++ [0])) := by
  have hutf8 : utf8CurMax ≠ 1 := by decide
  refine ⟨fun mbCurMax chunks _ => feedAll_eq chunks, feed_eq_iff hutf8, feed_isSome_iff hutf8, ?_,
    feed_values hutf8, ?_, ?_⟩
  · intro text state h
    have hreads := feed_reads hutf8 Holds.none text
    generalize feed utf8CurMax .zero text = r at hreads h
    cases hreads with
    | @upTo ds q state' htext hq =>
      rw [nil_append] at htext
      cases h
      rw [hq.mbsinit_iff]
      constructor
      · rintro rfl
        exact ⟨ds, by rw [htext, append_nil]⟩
      · rintro ⟨cs, rfl⟩
        exact (encode_eq_append hq.open htext).2
    | error _ _ _ => cases h
  · intro cs size size' hcs hsize hsize'
    have hwrite := wcstombs_chars hutf8 0 hcs (by rwa [Nat.zero_add]) [] rfl
    have hread := mbstowcs_chars hutf8 0 hcs (by rwa [Nat.zero_add]) [0] rfl
    rw [Nat.zero_add] at hwrite hread
    rw [append_nil] at hwrite
    unfold wcstombs mbstowcs
    rw [hwrite]
    exact ⟨rfl, hread⟩
  · intro text size size' n hnul haccept hn hsize'
    obtain ⟨cs, rfl, hcs, hlength⟩ := chars_of_mbstowcs hutf8 hnul haccept hn
    have hread := @mbstowcs_chars _ hutf8 size 0 _ hcs (by omega) [] rfl
    have hwrite := wcstombs_chars hutf8 0 hcs (by rwa [Nat.zero_add]) [0] rfl
    rw [Nat.zero_add] at hwrite hread
    rw [append_nil] at hread
    unfold wcstombs mbstowcs
    rw [hread]
    exact hwrite

/-- The characters `é`, `€` and `😀`, cut in the middle of the second one. -/
theorem multibyte_utf8_cut :
    feedAll 4 .zero [[0xc3, 0xa9, 0xe2], [0x82], [0xac, 0xf0, 0x9f, 0x98, 0x80]] =
      feed 4 .zero [0xc3, 0xa9, 0xe2, 0x82, 0xac, 0xf0, 0x9f, 0x98, 0x80] ∧
    (wcstombs utf8CurMax true [233, 8364, 128512] 10).1 = some 9 ∧
    wcstombs utf8CurMax true (mbstowcs utf8CurMax true [0xc3, 0xa9, 0xe2, 0x82, 0xac] 3).2 6 =
      (some 5, [0xc3, 0xa9, 0xe2, 0x82, 0xac, 0]) := by
  obtain ⟨hcut, -, -, -, -, hwide, htext⟩ := multibyte_utf8
  refine ⟨hcut 4 _ (by decide), (hwide ['é', '€', '😀'] 10 4 (by simp) (by decide) (by decide)).1, ?_⟩
  have haccept : (mbstowcs utf8CurMax true [0xc3, 0xa9, 0xe2, 0x82, 0xac] 3).1 = some 2 :=
    congrArg Prod.fst (@mbstowcs_chars _ (by decide) _ 0 ['é', '€'] (by simp) (by decide) [] rfl)
  exact htext [0xc3, 0xa9, 0xe2, 0x82, 0xac] 3 6 2 (by decide) haccept (by decide) (by decide)

end PlantOS.Libp.Multibyte
