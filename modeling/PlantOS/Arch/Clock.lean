import Mathlib.Algebra.Group.Nat.Defs
import Mathlib.Order.Monotone.Basic
import Mathlib.Order.Nat
import PlantOS.Lib.Run

/-!
# The clock sources of a CPU and the monotonic clock

The three scalings of `clock.c` and `acpi.c` are computed with 64-bit operations that fail where the
machine's would wrap, so that a result is at once exact and free of overflow. Over them
`monotonic_time_ns` is a step system: an event carries the answers of every clock source.
-/

namespace PlantOS.Arch.Clock

open Lib

variable {α : Type}

/-! ### Scaling -/

/-- `UINT64_MAX` -/
def uint64Max : ℕ := 18446744073709551615

lemma toNat_le_uint64Max (n : UInt64) : n.toNat ≤ uint64Max := by
  have := n.toNat_lt
  unfold uint64Max
  omega

/-- The product of two `uint64_t`, `none` where it wraps. -/
def mul64 (a b : ℕ) : Option ℕ := if a * b ≤ uint64Max then some (a * b) else none

/-- The sum of two `uint64_t`, `none` where it wraps. -/
def add64 (a b : ℕ) : Option ℕ := if a + b ≤ uint64Max then some (a + b) else none

lemma some_bind {a : ℕ} {f : ℕ → Option α} : (some a >>= f) = f a := rfl

lemma mul64_bind {a b : ℕ} {f : ℕ → Option α} (h : a * b ≤ uint64Max) : (mul64 a b >>= f) = f (a * b) := by
  rw [mul64, if_pos h]
  rfl

lemma add64_bind {a b : ℕ} {f : ℕ → Option α} (h : a + b ≤ uint64Max) : (add64 a b >>= f) = f (a + b) := by
  rw [add64, if_pos h]
  rfl

/-- Scaling by the whole and the fractional part of a quotient is exact. -/
lemma mul_div_split (a b : ℕ) {k : ℕ} (hk : 0 < k) : a * b / k = a / k * b + a % k * b / k := by
  have h : a * b = a % k * b + k * (a / k * b) := by
    rw [← Nat.mul_assoc, ← Nat.add_mul, Nat.mod_add_div]
  rw [h, Nat.add_mul_div_left _ _ hk, Nat.add_comm]

/-- `tsc_nanoseconds` -/
def tscNanoseconds (khz ticks : ℕ) : Option (Option ℕ) :=
  if khz = 0 ∨ uint64Max / 1000000 < khz then some none
  else do
    let whole := ticks / khz
    let scaled ← mul64 (ticks % khz) 1000000
    let fraction := scaled / khz
    if (uint64Max - fraction) / 1000000 < whole then some none
    else do
      let product ← mul64 whole 1000000
      let result ← add64 product fraction
      some (some result)

/-- The guard before the sum of whole and fraction is exact. -/
lemma guard_iff {whole fraction : ℕ} (h : fraction < 1000000) :
    (uint64Max - fraction) / 1000000 < whole ↔ ¬ whole * 1000000 + fraction ≤ uint64Max := by
  unfold uint64Max
  rw [Nat.div_lt_iff_lt_mul (by decide)]
  omega

lemma tscNanoseconds_eq {khz : ℕ} (hpos : 0 < khz) (hmax : khz ≤ uint64Max / 1000000) (ticks : ℕ) :
    tscNanoseconds khz ticks = some (if ticks * 1000000 / khz ≤ uint64Max then
      some (ticks * 1000000 / khz) else none) := by
  have hmod := Nat.mod_lt ticks hpos
  have hscal : ticks % khz * 1000000 ≤ uint64Max := by omega
  have hfrac : ticks % khz * 1000000 / khz < 1000000 := Nat.div_lt_of_lt_mul (by omega)
  rw [tscNanoseconds, if_neg (by omega), mul_div_split ticks 1000000 hpos]
  dsimp only
  rw [mul64_bind hscal]
  by_cases hfits : ticks / khz * 1000000 + ticks % khz * 1000000 / khz ≤ uint64Max
  · rw [if_neg (mt (guard_iff hfrac).mp (not_not_intro hfits)), if_pos hfits,
      mul64_bind (Nat.le_trans (Nat.le_add_right ..) hfits), add64_bind hfits]
  · rw [if_pos ((guard_iff hfrac).mpr hfits), if_neg hfits]

/-- `platform_monotonic_time_ns` of a counter with the period `period_fs` that `hpet_initialize` splits -/
def platformMonotonicTimeNs (periodFs counter : ℕ) : Option ℕ := do
  let hpetPeriodNs := periodFs / 1000000
  let hpetPeriodFsRemainder := periodFs % 1000000
  let nanoseconds ← mul64 counter hpetPeriodNs
  if hpetPeriodFsRemainder ≠ 0 then
    let whole := counter / 1000000
    let product ← mul64 whole 1000000
    let remainder := counter - product
    let moved ← mul64 whole hpetPeriodFsRemainder
    let nanoseconds ← add64 nanoseconds moved
    let rest ← mul64 remainder hpetPeriodFsRemainder
    add64 nanoseconds (rest / 1000000)
  else some nanoseconds

lemma platformMonotonicTimeNs_eq {periodFs counter : ℕ} (hcnt : counter ≤ uint64Max)
    (hfits : counter * periodFs / 1000000 ≤ uint64Max) :
    platformMonotonicTimeNs periodFs counter = some (counter * periodFs / 1000000) := by
  have hspl : counter * periodFs / 1000000 = counter * (periodFs / 1000000) +
      (counter / 1000000 * (periodFs % 1000000) + counter % 1000000 * (periodFs % 1000000) / 1000000) := by
    rw [Nat.mul_comm counter periodFs, mul_div_split periodFs counter (by omega), Nat.mul_comm _ counter,
      Nat.mul_comm (periodFs % 1000000), mul_div_split counter _ (by omega)]
  have hrest : counter % 1000000 * (periodFs % 1000000) ≤ uint64Max := by
    have hprod : counter % 1000000 * (periodFs % 1000000) ≤ 1000000 * 1000000 := by
      apply Nat.mul_le_mul <;> omega
    unfold uint64Max
    omega
  have hmod : counter - counter / 1000000 * 1000000 = counter % 1000000 := by omega
  rw [hspl] at hfits ⊢
  rw [platformMonotonicTimeNs]
  dsimp only
  rw [mul64_bind (by omega)]
  split_ifs with hrem
  · rw [mul64_bind (by omega), mul64_bind (by omega), add64_bind (by omega), hmod, mul64_bind hrest, add64,
      if_pos (by omega), Nat.add_assoc]
  · rw [Decidable.not_not.mp hrem, Nat.mul_zero, Nat.mul_zero, Nat.zero_div]
    rfl

/-! ### The record of the hypervisor -/

/-- `pvclock_time_t`: the fields that are read, `stable` for flag 0 -/
structure PvclockTime where
  version : UInt32
  tscTimestamp : UInt64
  systemTime : UInt64
  multiplier : UInt32
  shift : Int8
  stable : Bool
  deriving DecidableEq

/-- What one attempt to read a record sees: the fields with their first version, the counter of the CPU
and the version read last. -/
structure Sample where
  record : PvclockTime
  tsc : UInt64
  version : UInt32

/-- `delta` shifted by a signed count -/
def shift64 (delta : ℕ) (shift : ℤ) : Option ℕ :=
  if shift < 0 then some (delta / 2 ^ (-shift).toNat) else mul64 delta (2 ^ shift.toNat)

/-- The conversion of a record, as the code after the check of the version does it -/
def pvclockConvert (requireStable : Bool) (record : PvclockTime) (tsc : UInt64) : Option (Option ℕ) :=
  let delta := (tsc - record.tscTimestamp).toNat
  let shift := record.shift.toInt
  if requireStable && !record.stable then some none
  else if shift < -63 ∨ 63 < shift ∨ record.multiplier = 0 ∨ (0 < shift ∧ uint64Max / 2 ^ shift.toNat < delta) then
    some none
  else do
    let delta ← shift64 delta shift
    let high ← mul64 (delta / 2 ^ 32) record.multiplier.toNat
    let low ← mul64 (delta % 2 ^ 32) record.multiplier.toNat
    let elapsed ← add64 high (low / 2 ^ 32)
    if uint64Max - record.systemTime.toNat < elapsed then some none
    else do
      let result ← add64 record.systemTime.toNat elapsed
      some (some result)

/-- `pvclock_read`: the attempts up to the one that ends it, `none` when they run out -/
def pvclockRead (requireStable : Bool) : List Sample → Option (Option ℕ)
  | [] => none
  | s :: rest =>
    if s.record.version.toNat % 2 = 1 ∨ s.record.version ≠ s.version then pvclockRead requireStable rest
    else pvclockConvert requireStable s.record s.tsc

/-- The ticks since the record was made, shifted as the record says -/
def PvclockTime.shifted (record : PvclockTime) (tsc : UInt64) : ℕ :=
  if record.shift.toInt < 0 then (tsc - record.tscTimestamp).toNat / 2 ^ (-record.shift.toInt).toNat
  else (tsc - record.tscTimestamp).toNat * 2 ^ record.shift.toInt.toNat

/-- The time that a record gives at a counter value -/
def PvclockTime.nanoseconds (record : PvclockTime) (tsc : UInt64) : ℕ :=
  record.systemTime.toNat + record.shifted tsc * record.multiplier.toNat / 2 ^ 32

lemma shift64_eq (record : PvclockTime) (tsc : UInt64)
    (h : ¬ (0 < record.shift.toInt ∧
      uint64Max / 2 ^ record.shift.toInt.toNat < (tsc - record.tscTimestamp).toNat)) :
    shift64 (tsc - record.tscTimestamp).toNat record.shift.toInt = some (record.shifted tsc) ∧
      record.shifted tsc ≤ uint64Max := by
  have hdel := toNat_le_uint64Max (tsc - record.tscTimestamp)
  unfold shift64 PvclockTime.shifted
  generalize (tsc - record.tscTimestamp).toNat = delta at *
  split_ifs with hneg
  · exact ⟨rfl, Nat.le_trans (Nat.div_le_self ..) hdel⟩
  · have hfits : delta * 2 ^ record.shift.toInt.toNat ≤ uint64Max := by
      by_cases hzero : record.shift.toInt = 0
      · rwa [hzero, Int.toNat_zero, Nat.pow_zero, Nat.mul_one]
      · exact (Nat.le_div_iff_mul_le (Nat.two_pow_pos _)).mp (by omega)
    exact ⟨if_pos hfits, hfits⟩

/-- A conversion never wraps, and a value it gives is that of the record. -/
lemma pvclockConvert_spec (requireStable : Bool) (record : PvclockTime) (tsc : UInt64) :
    ∃ result, pvclockConvert requireStable record tsc = some result ∧ ∀ value, result = some value →
      (requireStable = true → record.stable = true) ∧ value = record.nanoseconds tsc ∧ value ≤ uint64Max := by
  unfold pvclockConvert
  dsimp only
  split_ifs with hstab hgrd
  · exact ⟨none, rfl, fun _ h => nomatch h⟩
  · exact ⟨none, rfl, fun _ h => nomatch h⟩
  have hreq : requireStable = true → record.stable = true := by
    intro h
    simpa [h] using hstab
  push Not at hgrd
  obtain ⟨hshif, hlg⟩ := shift64_eq record tsc (by omega)
  have hmul : record.multiplier.toNat ≤ 4294967295 := Nat.le_of_lt_succ record.multiplier.toNat_lt
  have htime := toNat_le_uint64Max record.systemTime
  rw [hshif, PvclockTime.nanoseconds, mul_div_split _ _ (Nat.two_pow_pos 32), some_bind]
  generalize record.shifted tsc = delta at *
  have hhigh : delta / 2 ^ 32 * record.multiplier.toNat ≤ 4294967295 * 4294967295 :=
    Nat.mul_le_mul (by unfold uint64Max at hlg; omega) hmul
  have hlow : delta % 2 ^ 32 * record.multiplier.toNat ≤ 4294967295 * 4294967295 :=
    Nat.mul_le_mul (by omega) hmul
  have helap : delta / 2 ^ 32 * record.multiplier.toNat + delta % 2 ^ 32 * record.multiplier.toNat / 2 ^ 32 ≤
      uint64Max := by
    unfold uint64Max
    omega
  rw [mul64_bind (by omega), mul64_bind (by unfold uint64Max; omega), add64_bind helap]
  split_ifs with hover
  · exact ⟨none, rfl, fun _ h => nomatch h⟩
  · rw [add64_bind (by omega)]
    refine ⟨_, rfl, fun value hval => ?_⟩
    cases hval
    exact ⟨hreq, rfl, by omega⟩

/-- The protocol of the hypervisor: versions do not go back, and an even version stands for one contents. -/
structure Protocol (history : ℕ → PvclockTime) : Prop where
  version : ∀ t, (history t).version.toNat ≤ (history (t + 1)).version.toNat
  update : ∀ t, (history t).version.toNat % 2 = 0 → (history (t + 1)).version = (history t).version →
    history (t + 1) = history t

/-- A sample of a history: its parts are read at increasing times. -/
def Sample.From (s : Sample) (history : ℕ → PvclockTime) (first : ℕ) : Prop :=
  ∃ origin base multiplier shift flags last, first ≤ origin ∧ origin ≤ base ∧ base ≤ multiplier ∧
    multiplier ≤ shift ∧ shift ≤ flags ∧ flags ≤ last ∧
    s.record = ⟨(history first).version, (history origin).tscTimestamp, (history base).systemTime,
      (history multiplier).multiplier, (history shift).shift, (history flags).stable⟩ ∧
    s.version = (history last).version

variable {history : ℕ → PvclockTime}

lemma Protocol.unchanged (h : Protocol history) {first last : ℕ}
    (heven : (history first).version.toNat % 2 = 0) (hsame : (history last).version = (history first).version) :
    ∀ t, first ≤ t → t ≤ last → history t = history first := by
  have hmono := monotone_nat_of_le_succ h.version
  intro t hfst hlast
  induction t, hfst using Nat.le_induction with
  | base => rfl
  | succ t hfst ih =>
    have heq := ih (by omega)
    have hver : (history (t + 1)).version = (history first).version :=
      UInt32.toNat_inj.mp (Nat.le_antisymm (hsame ▸ hmono hlast) (hmono (by omega)))
    rw [h.update t (heq ▸ heven) (by rw [hver, heq]), heq]

/-- A sample with one even version is a record that stood while it was read. -/
lemma Protocol.record (h : Protocol history) {s : Sample} {first : ℕ}
    (hs : s.From history first) (heven : s.record.version.toNat % 2 = 0) (hsame : s.record.version = s.version) :
    s.record = history first := by
  obtain ⟨origin, base, multiplier, shift, flags, last, h1, h2, h3, h4, h5, h6, hrec, hver⟩ := hs
  rw [hrec] at heven hsame ⊢
  have hstood := h.unchanged heven (hver ▸ hsame.symm)
  rw [hstood origin h1 (by omega), hstood base (by omega) (by omega), hstood multiplier (by omega) (by omega),
    hstood shift (by omega) (by omega), hstood flags (by omega) h6]

/-- `value` is the exact time of one record of the history, at the counter of the sample. -/
def Sample.Gives (s : Sample) (history : ℕ → PvclockTime) (requireStable : Bool) (value : ℕ) : Prop :=
  ∃ t, s.record = history t ∧ (history t).version.toNat % 2 = 0 ∧ (requireStable = true → (history t).stable = true) ∧
    value = (history t).nanoseconds s.tsc ∧ value ≤ uint64Max

/-- What a read gives is computed, without wrapping, from one record that was there. -/
lemma pvclockRead_spec (h : Protocol history) (requireStable : Bool)
    {samples : List Sample} (hsam : ∀ s ∈ samples, ∃ first, s.From history first) {value : ℕ}
    (he : pvclockRead requireStable samples = some (some value)) :
    ∃ s ∈ samples, s.Gives history requireStable value := by
  induction samples with
  | nil => cases he
  | cons s samples ih =>
    rw [pvclockRead] at he
    split_ifs at he with hagain
    · obtain ⟨s', hs', hval⟩ := ih (fun s' hs' => hsam s' (.tail _ hs')) he
      exact ⟨s', .tail _ hs', hval⟩
    · push Not at hagain
      obtain ⟨first, hfst⟩ := hsam s (.head _)
      have heven : s.record.version.toNat % 2 = 0 := by omega
      obtain ⟨result, hresul, hval⟩ := pvclockConvert_spec requireStable s.record s.tsc
      rw [hresul] at he
      have hrec := h.record hfst heven hagain.2
      exact ⟨s, .head _, first, hrec, hrec ▸ heven, hrec ▸ hval value (Option.some.inj he)⟩

/-! ### The monotonic clock -/

/-- `clock_source_t` -/
inductive ClockSource
  | boot | pvclock | tsc | platform
  deriving DecidableEq

/-- `source++`, up to `CLOCK_SOURCE_PLATFORM` -/
def ClockSource.next : ClockSource → ClockSource
  | boot => pvclock
  | pvclock => tsc
  | tsc | platform => platform

/-- The place in the order of the sources -/
def ClockSource.rank : ClockSource → ℕ
  | boot => 0
  | pvclock => 1
  | tsc => 2
  | platform => 3

/-- `clock_epoch_t` -/
structure ClockEpoch where
  counter : ℕ
  nanoseconds : ℕ
  deriving DecidableEq

/-- `task_clock_t` with the capabilities that are read -/
structure TaskClock where
  ready : Bool
  tscAligned : Bool
  pvclockStable : Bool
  tscEpoch : ClockEpoch

/-- What the hardware answers in one event, by the number of the access -/
structure Readings where
  pv : ℕ → List Sample
  ticks : ℕ → ℕ
  platform : ℕ → ℕ

/-- `clock_read`, the access `k` of an event. Attempts that run out count as a failure. -/
def clockRead (khz : ℕ) (clock : TaskClock) (r : Readings) (k : ℕ) : ClockSource → Option ℕ
  | .pvclock => if clock.pvclockStable then (pvclockRead true (r.pv k)).join else none
  | .tsc =>
    if clock.tscAligned = false ∨ r.ticks k < clock.tscEpoch.counter then none
    else (tscNanoseconds khz (r.ticks k - clock.tscEpoch.counter)).join.bind fun elapsed =>
      if uint64Max - clock.tscEpoch.nanoseconds < elapsed then none else some (clock.tscEpoch.nanoseconds + elapsed)
  | .boot | .platform => some (r.platform k)

/-- `monotonic_clock`. Ghosts: the results and the sources of the calls so far, the last first, and a value that
the platform clock has reached. -/
structure MonotonicClock where
  source : ClockSource
  epoch : ClockEpoch
  last : ℕ
  results : List ℕ
  sources : List ClockSource
  reached : ℕ

variable (khz : ℕ) (clock : TaskClock) (r : Readings) (s : MonotonicClock)

/-- The fallback loop, at most `fuel` rounds -/
def fallback : ℕ → ℕ → ClockSource → Option (ClockSource × ℕ)
  | 0, _, _ => none
  | fuel + 1, k, source =>
    match clockRead khz clock r k source.next with
    | some counter => some (source.next, counter)
    | none => fallback fuel (k + 1) source.next

/-- The state and the time before the maximum is taken -/
def MonotonicClock.sample : Option (MonotonicClock × ℕ) :=
  if clock.ready = false then some (s, r.platform 0)
  else match (clockRead khz clock r 0 s.source).filter fun counter =>
      s.epoch.counter ≤ counter ∧ counter - s.epoch.counter ≤ uint64Max - s.epoch.nanoseconds with
    | some counter => some (s, s.epoch.nanoseconds + (counter - s.epoch.counter))
    | none => (fallback khz clock r 3 1 s.source).map fun (source, counter) =>
      ({ s with source, epoch := ⟨counter, s.last⟩ }, s.last)

/-- `monotonic_time_ns` -/
def MonotonicClock.monotonicTimeNs : Option (MonotonicClock × ℕ) :=
  if s.source = .boot then some (s, r.platform 0)
  else (s.sample khz clock r).map fun (s, now) =>
    let last := if s.last < now then now else s.last
    ({ s with last }, last)

/-- The loop of `arch_task_clock_init` for CPU 0: source `i` is read before and after its reference. -/
def MonotonicClock.start (i : ℕ) : List ClockSource → MonotonicClock
  | [] => s
  | source :: rest =>
    match clockRead khz clock r (3 * i) source, clockRead khz clock r (3 * i + 2) source with
    | some before, some after =>
      if after < before then start (i + 1) rest
      else { s with
        source
        epoch := ⟨before + (after - before) / 2, r.platform (3 * i + 1)⟩
        last := r.platform (3 * i + 1) }
    | _, _ => start (i + 1) rest

/-- The events: CPU 0 chooses the source, or some CPU calls `monotonic_time_ns`. -/
inductive ClockEvent
  | init (clock : TaskClock) (r : Readings)
  | call (clock : TaskClock) (r : Readings)

def ClockEvent.readings : ClockEvent → Readings
  | init _ r | call _ r => r

/-- The platform clock does not decrease. -/
def Steady (s : MonotonicClock) (e : ClockEvent) : Prop :=
  Monotone e.readings.platform ∧ s.reached ≤ e.readings.platform 0

/-- The monotonic clock from boot on -/
def clockSystem : System MonotonicClock ClockEvent where
  init s := s.source = .boot ∧ s.results = [] ∧ s.sources = []
  step s
    | .init clock r => if s.source ≠ .boot then none
      else some { s.start khz clock r 0 [.pvclock, .tsc, .platform] with reached := r.platform 8 }
    | .call clock r => (s.monotonicTimeNs khz clock r).map fun (s, now) =>
      { s with results := now :: s.results, sources := s.source :: s.sources, reached := r.platform 8 }

/-- A source of the CPU says `v` in the access `k`: the exact time of the record or of the counter, or the platform
clock. -/
def Reads (k : ℕ) : ClockSource → ℕ → Prop
  | .pvclock, v => clock.pvclockStable = true ∧ pvclockRead true (r.pv k) = some (some v)
  | .tsc, v => (clock.tscAligned = true ∧ clock.tscEpoch.counter ≤ r.ticks k) ∧ (0 < khz ∧ khz ≤ uint64Max / 1000000) ∧
      (r.ticks k - clock.tscEpoch.counter) * 1000000 / khz ≤ uint64Max - clock.tscEpoch.nanoseconds ∧
      v = clock.tscEpoch.nanoseconds + (r.ticks k - clock.tscEpoch.counter) * 1000000 / khz
  | .boot, v | .platform, v => v = r.platform k

/-- The source of the clock says `c`, and it fits behind the epoch. -/
def Trusted (c : ℕ) : Prop :=
  Reads khz clock r 0 s.source c ∧ s.epoch.counter ≤ c ∧ c - s.epoch.counter ≤ uint64Max - s.epoch.nanoseconds

/-- `v` is what the source of a call gives: the platform clock for a CPU that is not ready, else a reading moved by
the epoch. A source that is trusted keeps its epoch; else a later one, or the platform clock, starts at the time of
the clock. -/
def OwnValue (s' : MonotonicClock) (v : ℕ) : Prop :=
  if s.source = .boot ∨ clock.ready = false then s'.source = s.source ∧ s'.epoch = s.epoch ∧ v = r.platform 0
  else ∃ k c, Reads khz clock r k s'.source c ∧ s'.epoch.counter ≤ c ∧
    v = s'.epoch.nanoseconds + (c - s'.epoch.counter) ∧
    (Trusted khz clock r s c ∧ s'.source = s.source ∧ s'.epoch = s.epoch ∨
      (∀ c', ¬Trusted khz clock r s c') ∧ (s.source.rank < s'.source.rank ∨ s.source = .platform) ∧ s'.epoch = ⟨c, s.last⟩)

variable {s}

lemma clockRead_iff {k : ℕ} {source : ClockSource} {v : ℕ} :
    clockRead khz clock r k source = some v ↔ Reads khz clock r k source v := by
  cases source with
  | boot | platform => exact ⟨fun he => (Option.some.inj he).symm, fun he => congrArg some he.symm⟩
  | pvclock =>
    unfold clockRead Reads
    rw [Option.ite_none_right_eq_some, Option.join_eq_some_iff]
  | tsc =>
    unfold clockRead Reads
    dsimp only
    rw [Option.ite_none_left_eq_some, not_or, Bool.not_eq_false, Nat.not_lt]
    refine and_congr_right fun _ => ?_
    by_cases hkhz : 0 < khz ∧ khz ≤ uint64Max / 1000000
    · rw [tscNanoseconds_eq hkhz.1 hkhz.2]
      generalize (r.ticks k - clock.tscEpoch.counter) * 1000000 / khz = elapsed
      split_ifs with hfits
      · rw [Option.join_some, Option.bind_some, Option.ite_none_left_eq_some, Nat.not_lt, Option.some.injEq, eq_comm (b := v)]
        exact (and_iff_right hkhz).symm
      · exact ⟨nofun, fun hreads => absurd (Nat.le_trans hreads.2.1 (Nat.sub_le ..)) hfits⟩
    · rw [tscNanoseconds, if_pos (by omega)]
      exact ⟨nofun, fun hreads => absurd hreads.1 hkhz⟩

/-- The loop ends, at the latest with the platform clock, and never goes back to an earlier source. -/
lemma fallback_spec (fuel k : ℕ) (source : ClockSource) (hroun : 3 ≤ fuel + source.rank) (hfuel : 0 < fuel) :
    ∃ source' counter k', fallback khz clock r fuel k source = some (source', counter) ∧
      clockRead khz clock r k' source' = some counter ∧ (source.rank < source'.rank ∨ source = .platform ∧
      source' = .platform) ∧
      source' ≠ .boot := by
  induction fuel generalizing k source with
  | zero => omega
  | succ fuel ih =>
    have hrank : source.rank < source.next.rank ∨ source = .platform ∧ source.next = .platform := by cases source <;> decide
    rw [fallback]
    cases hread : clockRead khz clock r k source.next with
    | some counter => exact ⟨_, counter, k, rfl, hread, hrank, by cases source <;> decide⟩
    | none =>
      have hnext : 3 ≤ fuel + source.next.rank ∧ 0 < fuel := by
        cases source with
        | boot | pvclock =>
          simp only [ClockSource.rank, ClockSource.next] at hroun ⊢
          omega
        | tsc | platform => cases hread
      obtain ⟨source', counter, k', he, hcnt, hle, hboot⟩ := ih (k + 1) _ hnext.1 hnext.2
      refine ⟨source', counter, k', he, hcnt, ?_, hboot⟩
      rcases hrank with hlt | ⟨hplat, hnxt⟩
      · rcases hle with hlt' | ⟨-, hplat'⟩
        · exact .inl (Nat.lt_trans hlt hlt')
        · rw [hplat']
          exact .inl (Nat.lt_of_lt_of_le hlt (by cases source <;> decide))
      · cases hread.symm.trans ((congrArg (clockRead khz clock r k) hnxt).trans rfl)

/-- What a call outside of boot does before it takes the maximum -/
lemma sample_spec (hboot : s.source ≠ .boot) :
    ∃ s' now, s.sample khz clock r = some (s', now) ∧ OwnValue khz clock r s s' now ∧
      s' = { s with source := s'.source, epoch := s'.epoch } ∧ s.source.rank ≤ s'.source.rank ∧ s'.source ≠ .boot ∧
      (clock.ready = true → s.epoch.nanoseconds ≤ now ∨ now = s.last) := by
  unfold MonotonicClock.sample OwnValue
  split_ifs with hready hor hor
  · exact ⟨s, r.platform 0, rfl, ⟨rfl, rfl, rfl⟩, rfl, Nat.le_refl _, hboot, fun h => by simp [hready] at h⟩
  · exact absurd (.inr hready) hor
  · exact absurd hor (not_or.mpr ⟨hboot, hready⟩)
  cases hvalid : (clockRead khz clock r 0 s.source).filter fun counter =>
      s.epoch.counter ≤ counter ∧ counter - s.epoch.counter ≤ uint64Max - s.epoch.nanoseconds with
  | some counter =>
    obtain ⟨hread, hgrd⟩ := Option.filter_eq_some_iff.mp hvalid
    have htrust : Trusted khz clock r s counter := ⟨(clockRead_iff ..).mp hread, of_decide_eq_true hgrd⟩
    exact ⟨s, _, rfl, ⟨0, counter, htrust.1, htrust.2.1, rfl, .inl ⟨htrust, rfl, rfl⟩⟩, rfl, Nat.le_refl _, hboot,
      fun _ => .inl (Nat.le_add_right ..)⟩
  | none =>
    have hnot : ∀ c, ¬Trusted khz clock r s c := fun c htrust => by
      have hread := (clockRead_iff khz clock r).mpr htrust.1
      rw [hread, Option.filter_some, if_pos (decide_eq_true htrust.2)] at hvalid
      cases hvalid
    obtain ⟨source, counter, k, he, hread, hrank, hsour⟩ :=
      fallback_spec khz clock r 3 1 s.source (by omega) (by omega)
    rw [he]
    refine ⟨_, _, rfl, ⟨k, counter, (clockRead_iff ..).mp hread, Nat.le_refl _, by simp, .inr ⟨hnot, ?_, rfl⟩⟩, rfl, ?_, hsour,
      fun _ => .inr rfl⟩
    · exact hrank.imp_right And.left
    · rcases hrank with hlt | ⟨hplat, hplat'⟩
      · exact Nat.le_of_lt hlt
      · dsimp only
        rw [hplat, hplat']

/-- What holds between the events: the results are below the time of the clock, which is the last of them or, before
the first call, the start of the epoch. -/
structure Inv (s : MonotonicClock) : Prop where
  boot : s.source = .boot → ∀ x ∈ s.results, x ≤ s.reached
  le_last : s.source ≠ .boot → ∀ x ∈ s.results, x ≤ s.last
  last : s.source ≠ .boot → s.last ∈ s.results ∨ s.last = s.epoch.nanoseconds ∧ s.last ≤ s.reached
  results : s.results.Pairwise (· ≥ ·)
  sources : s.sources.Pairwise (·.rank ≥ ·.rank)
  rank : ∀ x ∈ s.sources, x.rank ≤ s.source.rank

/-- The choice of the source: nothing changes, or the epoch starts at the reference. -/
lemma start_spec (i : ℕ) (sources : List ClockSource) (hsrcs : ∀ x ∈ sources, x ≠ .boot)
    (hi : i + sources.length ≤ 3) :
    s.start khz clock r i sources = s ∨ ∃ source epoch k, source ≠ .boot ∧ k ≤ 8 ∧
      epoch.nanoseconds = r.platform k ∧ s.start khz clock r i sources = { s with source, epoch, last := r.platform k } := by
  induction sources generalizing i with
  | nil => exact .inl rfl
  | cons source sources ih =>
    rw [List.length_cons] at hi
    have hrest := ih (i + 1) (fun x hx => hsrcs x (.tail _ hx)) (by omega)
    rw [MonotonicClock.start]
    split
    · split_ifs
      · exact hrest
      · exact .inr ⟨source, _, 3 * i + 1, hsrcs _ (.head _), by omega, rfl, rfl⟩
    · exact hrest

/-- A call returns, and its result is the maximum of the earlier ones and of the value of its own source. -/
lemma monotonicTimeNs_spec (h : Inv s) (hrchd : s.reached ≤ r.platform 0) :
    ∃ s' now v, s.monotonicTimeNs khz clock r = some (s', now) ∧ s'.results = s.results ∧ s'.sources = s.sources ∧
      s.source.rank ≤ s'.source.rank ∧ OwnValue khz clock r s s' v ∧ now ∈ v :: s.results ∧
      (∀ x ∈ v :: s.results, x ≤ now) ∧ (s'.source = .boot → now = r.platform 0) ∧
      (s'.source ≠ .boot → s'.last = now) := by
  unfold MonotonicClock.monotonicTimeNs
  split_ifs with hboot
  · refine ⟨s, _, r.platform 0, rfl, rfl, rfl, Nat.le_refl _, ?_, .head _, ?_, fun _ => rfl, fun hne => absurd hboot hne⟩
    · rw [OwnValue, if_pos (.inl hboot)]
      exact ⟨rfl, rfl, rfl⟩
    · rw [List.forall_mem_cons]
      exact ⟨Nat.le_refl _, fun x hx => Nat.le_trans (h.boot hboot x hx) hrchd⟩
  obtain ⟨s', now, he, hval, hs', hrank, hsour, hready⟩ :=
    sample_spec khz clock r hboot
  have hlast : s'.last = s.last := by rw [hs']
  -- before the first call the time of the clock is the start of the epoch, which no value is below
  have hret : s.last ∈ s.results ∨ s.last ≤ now := by
    refine (h.last hboot).imp_right fun ⟨hepoc, hle⟩ => ?_
    by_cases hr : clock.ready = true
    · have := hready hr
      omega
    · rw [OwnValue, if_pos (.inr (by simpa using hr))] at hval
      omega
  rw [he]
  refine ⟨_, _, now, rfl, by rw [hs'], by rw [hs'], hrank, hval, ?_, ?_, fun hb => absurd hb hsour, fun _ => rfl⟩
  · rw [hlast]
    split_ifs with hlt
    · exact .head _
    · rcases hret with hmem | hle
      · exact .tail _ hmem
      · rw [Nat.le_antisymm hle (Nat.le_of_not_lt hlt)]
        exact .head _
  · rw [hlast, List.forall_mem_cons]
    have hle := h.le_last hboot
    split_ifs with hlt
    · exact ⟨Nat.le_refl _, fun x hx => Nat.le_trans (hle x hx) (Nat.le_of_lt hlt)⟩
    · exact ⟨Nat.le_of_not_lt hlt, hle⟩

/-- A call that returned: its result is the maximum of the earlier ones and of the value of its source. -/
def Called (s s' : MonotonicClock) : Prop :=
  s.source.rank ≤ s'.source.rank ∧
    ∃ now v, s'.results = now :: s.results ∧ s'.sources = s'.source :: s.sources ∧ OwnValue khz clock r s s' v ∧
      now ∈ v :: s.results ∧ ∀ x ∈ v :: s.results, x ≤ now

lemma call_spec (h : Inv s) (hstead : Steady s (.call clock r)) :
    ∃ s', (clockSystem khz).step s (.call clock r) = some s' ∧ Called khz clock r s s' ∧
      Inv s' := by
  obtain ⟨hmono, hrchd⟩ := hstead
  have hend : r.platform 0 ≤ r.platform 8 := hmono (by omega)
  obtain ⟨s', now, v, he, hres, hsrcs, hrank, hval, hmem, hmax, hboot, hlast⟩ :=
    monotonicTimeNs_spec khz clock r h hrchd
  have hle : ∀ x ∈ s'.results, x ≤ now := hres ▸ fun x hx => hmax x (.tail _ hx)
  have hsor : ∀ x ∈ s'.sources, x.rank ≤ s'.source.rank := hsrcs ▸ fun x hx => Nat.le_trans (h.rank x hx) hrank
  refine ⟨{ s' with
    results := now :: s'.results
    sources := s'.source :: s'.sources
    reached := r.platform 8 }, ?_, ⟨hrank, now, v, by rw [hres], by rw [hsrcs], hval, hmem, hmax⟩, ?_⟩
  · simp only [clockSystem]
    rw [he]
    rfl
  constructor
  · intro hb
    rw [hboot hb] at hle ⊢
    exact List.forall_mem_cons.mpr ⟨hend, fun x hx => Nat.le_trans (hle x hx) hend⟩
  · intro hb
    rw [hlast hb]
    exact List.forall_mem_cons.mpr ⟨Nat.le_refl _, hle⟩
  · intro hb
    rw [hlast hb]
    exact .inl (.head _)
  · exact .cons hle (hres ▸ h.results)
  · exact .cons hsor (hsrcs ▸ h.sources)
  · exact List.forall_mem_cons.mpr ⟨Nat.le_refl _, hsor⟩

lemma init_inv (h : Inv s) (hstead : Steady s (.init clock r)) {s' : MonotonicClock}
    (he : (clockSystem khz).step s (.init clock r) = some s') : Inv s' := by
  obtain ⟨hmono, hrchd⟩ := hstead
  simp only [clockSystem, ClockEvent.readings] at he hrchd
  split_ifs at he with hboot
  cases he
  rw [ne_eq, Decidable.not_not] at hboot
  have hle : ∀ k, ∀ x ∈ s.results, x ≤ r.platform k := fun k x hx =>
    Nat.le_trans (h.boot hboot x hx) (Nat.le_trans hrchd (hmono (Nat.zero_le k)))
  rcases start_spec khz clock r 0 [.pvclock, .tsc, .platform]
    (by decide) (Nat.le_refl _) with hs' | ⟨source, epoch, k, hsour, hk, hepoc, hs'⟩ <;> rw [hs']
  · exact { h with
      boot := fun _ => hle 8
      last := fun hne => absurd hboot hne }
  · refine ⟨fun hb => absurd hb hsour, fun _ => hle k, fun _ => .inr ⟨hepoc.symm, hmono hk⟩, h.results, h.sources,
      fun x hx => ?_⟩
    have hzero := h.rank x hx
    rw [hboot] at hzero
    exact Nat.le_trans hzero (Nat.zero_le _)

lemma guarded_inv (hs : (clockSystem khz).Guarded Steady s) : Inv s := by
  refine hs.invariant (P := Inv) ?_ ?_
  · rintro s ⟨hboot, hres, hsrcs⟩
    constructor <;> simp [hboot, hres, hsrcs]
  · intro s e s' h hstead he
    cases e with
    | init clock r => exact init_inv khz clock r h hstead he
    | call clock r =>
      obtain ⟨s'', he', -, h'⟩ := call_spec khz clock r h hstead
      cases he.symm.trans he'
      exact h'

/-- **The monotonic clock.** The results do not decrease and no source returns, a call ends with the maximum of the
earlier results and of its source's value, and the three scalings are exact. -/
theorem monotonic_clock (khz : ℕ) :
    (∀ s, (clockSystem khz).Guarded Steady s → s.results.Pairwise (· ≥ ·) ∧ s.sources.Pairwise (·.rank ≥ ·.rank) ∧
      (s.source ≠ .boot → (∀ x ∈ s.results, x ≤ s.last) ∧ (s.last ∈ s.results ∨ s.last = s.epoch.nanoseconds)) ∧
      ∀ clock r, Steady s (.call clock r) → ∃ s', (clockSystem khz).step s (.call clock r) = some s' ∧
        Called khz clock r s s') ∧
    (0 < khz → khz ≤ uint64Max / 1000000 → ∀ ticks, tscNanoseconds khz ticks =
      some (if ticks * 1000000 / khz ≤ uint64Max then some (ticks * 1000000 / khz) else none)) ∧
    (∀ history requireStable samples value, Protocol history → (∀ s ∈ samples, ∃ first, Sample.From s history first) →
      pvclockRead requireStable samples = some (some value) → ∃ s ∈ samples, s.Gives history requireStable value) ∧
    (∀ requireStable record tsc, (pvclockConvert requireStable record tsc).isSome = true) ∧
    (∀ periodFs counter, counter ≤ uint64Max → counter * periodFs / 1000000 ≤ uint64Max →
      platformMonotonicTimeNs periodFs counter = some (counter * periodFs / 1000000)) := by
  refine ⟨fun s hs => ?_, fun hpos hmax => tscNanoseconds_eq hpos hmax, ?_, ?_, ?_⟩
  · have h := guarded_inv khz hs
    refine ⟨h.results, h.sources, fun hne => ⟨h.le_last hne, (h.last hne).imp_right And.left⟩, fun clock r hsteady => ?_⟩
    obtain ⟨s', he, hcalled, -⟩ := call_spec khz clock r h hsteady
    exact ⟨s', he, hcalled⟩
  · intro history requireStable samples value hprotocol hsamples he
    exact pvclockRead_spec hprotocol requireStable hsamples he
  · intro requireStable record tsc
    obtain ⟨result, hresult, -⟩ := pvclockConvert_spec requireStable record tsc
    rw [hresult, Option.isSome_some]
  · exact fun periodFs counter hcounter hfits => platformMonotonicTimeNs_eq hcounter hfits

/-- A CPU whose counter runs with 2000 ticks a millisecond -/
def aligned : TaskClock := ⟨true, true, false, ⟨0, 0⟩⟩

def readings (ticks platform : ℕ) : Readings := ⟨fun _ => [], fun _ => ticks, fun _ => platform⟩

/-- A call at boot; the clock starts with the counter, which later goes back. -/
def counterGoesBack : List ClockEvent :=
  [.call aligned (readings 1000 5), .init aligned (readings 2000 10), .call aligned (readings 3000 20),
    .call aligned (readings 1000 30), .call aligned (readings 9000 40)]

theorem monotonic_clock_counterGoesBack :
    let s := (clockSystem 2000).after ⟨.boot, ⟨0, 0⟩, 0, [], [], 0⟩ counterGoesBack
    (s.results = [500020, 500010, 500010, 5] ∧ s.sources = [.platform, .platform, .tsc, .boot]) ∧
      ∃ s', (clockSystem 2000).step s (.call aligned (readings 9000 50)) = some s' ∧
        Called 2000 aligned (readings 9000 50) s s' := by
  have hmeets : (clockSystem 2000).Meets Steady ⟨.boot, ⟨0, 0⟩, 0, [], [], 0⟩ counterGoesBack :=
    ⟨⟨monotone_const, by decide⟩, ⟨monotone_const, by decide⟩, ⟨monotone_const, by decide⟩, ⟨monotone_const, by decide⟩,
      ⟨monotone_const, by decide⟩, trivial⟩
  have hclock := (monotonic_clock 2000).1 _ (System.after_guarded (.init ⟨rfl, rfl, rfl⟩) hmeets)
  exact ⟨by decide, hclock.2.2.2 aligned (readings 9000 50) ⟨monotone_const, by decide⟩⟩

end PlantOS.Arch.Clock
