import PlantOS.Lib.Gregorian

/-!
# Calendar time

`gmtime_r`, `localtime_r`, `timegm` and `mktime`, with the truncated division of C. No `int64_t` of them can overflow for
times whose year fits an `int`, nor for any fields of a `struct tm`, so these are integers.
-/

namespace PlantOS.Libp.Time

open Lib.Gregorian Date

/-- `struct tm` -/
structure Tm where
  sec : ℤ
  min : ℤ
  hour : ℤ
  mday : ℤ
  mon : ℤ
  year : ℤ
  wday : ℤ
  yday : ℤ
  isdst : ℤ
  gmtoff : ℤ
  zone : String
  deriving DecidableEq, Inhabited

def daySeconds : ℤ := 86400
def localOffsetSeconds : ℤ := 8 * 60 * 60
def intMin : ℤ := -2 ^ 31
def intMax : ℤ := 2 ^ 31 - 1

/-- What an `unsigned` holds -/
def u32 (x : ℤ) : ℤ := x % 2 ^ 32

def monthDays : List ℤ := [0, 31, 59, 90, 120, 151, 181, 212, 243, 273, 304, 334]

/-- `breakdown`; `none` is `NULL` with `EOVERFLOW`. -/
def breakdown (seconds : ℤ) (result : Tm) : Option Tm :=
  let negative := seconds.tmod daySeconds < 0
  let days := if negative then seconds.tdiv daySeconds - 1 else seconds.tdiv daySeconds
  let remainder := if negative then seconds.tmod daySeconds + daySeconds else seconds.tmod daySeconds
  let civil := days + 719468
  let era := (if civil ≥ 0 then civil else civil - 146096).tdiv 146097
  let dayOfEra := u32 (civil - era * 146097)
  let yearOfEra := u32 (dayOfEra - dayOfEra / 1460 + dayOfEra / 36524 - dayOfEra / 146096) / 365
  let dayOfYear := u32 (dayOfEra - (365 * yearOfEra + yearOfEra / 4 - yearOfEra / 100))
  let marchMonth := (5 * dayOfYear + 2) / 153
  let mday := u32 (dayOfYear - (153 * marchMonth + 2) / 5 + 1)
  let mon := u32 (marchMonth + if marchMonth < 10 then 2 else -10)
  let year := yearOfEra + era * 400 + if mon < 2 then 1 else 0
  if year - 1900 < intMin ∨ year - 1900 > intMax then none
  else
    let leap := year.tmod 4 = 0 ∧ (year.tmod 100 ≠ 0 ∨ year.tmod 400 = 0)
    some { result with
      hour := remainder.tdiv 3600
      min := (remainder.tdiv 60).tmod 60
      sec := remainder.tmod 60
      wday := ((days + 4).tmod 7 + 7).tmod 7
      mday
      mon
      year := year - 1900
      yday := monthDays.getD mon.toNat 0 + mday - 1 + if leap ∧ mon ≥ 2 then 1 else 0
      isdst := 0 }

def gmtimeR (timer : ℤ) (result : Tm) : Option Tm := do
  let tm ← breakdown timer result
  return { tm with gmtoff := 0, zone := "UTC" }

def localtimeR (timer : ℤ) (result : Tm) : Option Tm := do
  let tm ← breakdown (timer + localOffsetSeconds) result
  return { tm with gmtoff := localOffsetSeconds, zone := "CST" }

/-- `make_time`: what it returns and what `tm` then holds, `none` after an overflow. -/
def makeTime (tm : Tm) (offset : ℤ) : ℤ × Option Tm :=
  let negative := tm.mon.tmod 12 < 0
  let month := if negative then tm.mon.tmod 12 + 12 else tm.mon.tmod 12
  let year := tm.year + 1900 + tm.mon.tdiv 12 - if negative then 1 else 0
  let year := year - if month < 2 then 1 else 0
  let era := (if year ≥ 0 then year else year - 399).tdiv 400
  let yearOfEra := u32 (year - era * 400)
  let marchMonth := u32 (month + if month < 2 then 10 else -2)
  let days := era * 146097 + yearOfEra * 365 + yearOfEra / 4 - yearOfEra / 100 + (153 * marchMonth + 2) / 5 + tm.mday - 1 -
    719468
  let seconds := days * daySeconds + tm.hour * 3600 + tm.min * 60 + tm.sec - offset
  match breakdown (seconds + offset) tm with
  | none => (-1, none)
  | some tm => (seconds, some { tm with gmtoff := offset, zone := if offset ≠ 0 then "CST" else "UTC" })

def mktime (tm : Tm) : ℤ × Option Tm := makeTime tm localOffsetSeconds

def timegm (tm : Tm) : ℤ × Option Tm := makeTime tm 0

/-! ## Calendar time is the Gregorian calendar -/

variable {t n offset : ℤ} {tm result : Tm} {d : Date}

lemma tdiv_eq (x : ℤ) {b : ℤ} (hb : 0 < b) : x.tdiv b = x / b + if 0 ≤ x ∨ b ∣ x then 0 else 1 := by
  rw [Int.tdiv_eq_ediv, Int.sign_eq_one_of_pos hb]

/-- A division that is corrected for negative values rounds down. -/
lemma tdiv_floor (x : ℤ) {b : ℤ} (hb : 0 < b) : (if x ≥ 0 then x else x - (b - 1)).tdiv b = x / b := by
  by_cases hx : 0 ≤ x
  · rw [if_pos hx, Int.tdiv_eq_ediv_of_nonneg hx]
  · have hlt := Int.emod_lt_of_pos x hb
    have hle := Int.emod_nonneg x (Int.ne_of_gt hb)
    have hsum := Int.mul_ediv_add_emod x b
    have hneg : -(x - (b - 1)) = b - 1 - x % b + b * -(x / b) := by
      rw [Int.mul_neg]
      omega
    rw [if_neg hx, ← Int.neg_neg (x - (b - 1)), Int.neg_tdiv, Int.tdiv_eq_ediv_of_nonneg (by omega), hneg,
      Int.add_mul_ediv_left _ _ (Int.ne_of_gt hb), Int.ediv_eq_zero_of_lt (by omega) (by omega)]
    omega

lemma tmod_floor (x : ℤ) {b : ℤ} (hb : 0 < b) : (if x.tmod b < 0 then x.tmod b + b else x.tmod b) = x % b ∧
    (if x.tmod b < 0 then x.tdiv b - 1 else x.tdiv b) = x / b := by
  have hlt := Int.emod_lt_of_pos x hb
  have hle := Int.emod_nonneg x (Int.ne_of_gt hb)
  rw [Int.tmod_eq_emod, tdiv_eq _ hb]
  by_cases h : 0 ≤ x ∨ b ∣ x
  · simp [h, Int.not_lt.mpr hle]
  · simp only [h, if_false]
    rw [if_pos (by omega), if_pos (by omega)]
    omega

lemma u32_eq {x : ℤ} (h : 0 ≤ x ∧ x < 2 ^ 32) : u32 x = x := Int.emod_eq_of_lt h.1 h.2

/-! ### `breakdown` -/

/-- The years that `tm_year` can hold -/
def Fits (d : Date) : Prop := intMin ≤ d.year - 1900 ∧ d.year - 1900 ≤ intMax

/-- What `breakdown` stores for the day `n` and the second `r` of it -/
def shown (n r : ℤ) (result : Tm) : Tm :=
  { result with
    hour := r / 3600
    min := r / 60 % 60
    sec := r % 60
    wday := (n + 4) % 7
    mday := (ofDays n).day
    mon := (ofDays n).month
    year := (ofDays n).year - 1900
    yday := n - dayNumber ⟨(ofDays n).year, 0, 1⟩
    isdst := 0 }

lemma yday_eq (h : d.Valid) : monthDays.getD d.month.toNat 0 + d.day - 1 + (if IsLeap d.year ∧ d.month ≥ 2 then 1 else 0) =
    d.dayNumber - dayNumber ⟨d.year, 0, 1⟩ := by
  obtain ⟨y, m, k⟩ := d
  obtain ⟨⟨hm, hm'⟩, -, -⟩ := h
  dsimp only at hm hm'
  simp only [IsLeap, dayNumber, monthDays]
  interval_cases m <;> simp <;> (try split_ifs) <;> omega

lemma breakdown_eq (h : Fits (ofDays (t / 86400))) : breakdown t result = some (shown (t / 86400) (t % 86400) result) := by
  have hval := valid_ofDays (t / 86400)
  have hyday := yday_eq hval
  rw [dayNumber_ofDays] at hyday
  unfold breakdown
  extract_lets negative days remainder civil era dayOfEra yearOfEra dayOfYear marchMonth mday mon year leap
  have hday : remainder = t % 86400 ∧ days = t / 86400 := tmod_floor t (by decide : (0 : ℤ) < 86400)
  have hera : civil / 146097 = era := (tdiv_floor civil (by decide : (0 : ℤ) < 146097)).symm
  have hdayOfEra : civil % 146097 = dayOfEra := by
    have : dayOfEra = u32 (civil - era * 146097) := rfl
    rw [this, u32_eq] <;> omega
  obtain ⟨hy, hy', hd, hd'⟩ := era_bounds (n := dayOfEra) (by omega)
  have hyearOfEra : (dayOfEra - dayOfEra / 1460 + dayOfEra / 36524 - dayOfEra / 146096) / 365 = yearOfEra := by
    change _ = u32 _ / 365
    rw [u32_eq (by omega)]
  rw [hyearOfEra] at hy hy' hd hd'
  have hdayOfYear : dayOfEra - (365 * yearOfEra + yearOfEra / 4 - yearOfEra / 100) = dayOfYear :=
    (u32_eq (by omega)).symm
  rw [hdayOfYear] at hd hd'
  have hmar : (5 * dayOfYear + 2) / 153 = marchMonth := rfl
  have hmon : (if marchMonth < 10 then marchMonth + 2 else marchMonth - 10) = mon := by
    change _ = u32 (marchMonth + if marchMonth < 10 then 2 else -10)
    split_ifs <;> rw [u32_eq] <;> omega
  have hmday : dayOfYear - (153 * marchMonth + 2) / 5 + 1 = mday := (u32_eq (by omega)).symm
  have hdate : ofDays days = ⟨year, mon, mday⟩ := by
    unfold ofDays
    simp only [show days + 719468 = civil from rfl, hera, hdayOfEra, hyearOfEra, hdayOfYear, hmar, hmon, hmday]
    rfl
  have hrem : 0 ≤ remainder := by omega
  have hleap : leap = IsLeap year := by
    change (year.tmod 4 = 0 ∧ (year.tmod 100 ≠ 0 ∨ year.tmod 400 = 0)) = _
    simp only [IsLeap, ne_eq, ← Int.dvd_iff_tmod_eq_zero, Int.dvd_iff_emod_eq_zero]
  have hweek : ((days + 4).tmod 7 + 7).tmod 7 = (days + 4) % 7 := by
    have hmod := (tmod_floor (days + 4) (by decide : (0 : ℤ) < 7)).1
    rw [Int.tmod_eq_emod_of_nonneg] <;> split_ifs at hmod <;> omega
  rw [← hday.2, hdate] at h hyday hval
  obtain ⟨hmin, hmax⟩ := h
  dsimp only at hmin hmax hyday
  rw [if_neg (by omega), ← hday.1, ← hday.2]
  simp only [shown, hdate, hleap, hweek, Int.tdiv_eq_ediv_of_nonneg hrem, Int.tmod_eq_emod_of_nonneg hrem, ← hyday]
  rw [Int.tmod_eq_emod_of_nonneg (by omega)]

/-! ### `make_time` -/

/-- The time of the fields of a `struct tm`: its months are carried into the years, the rest is added. -/
def seconds (tm : Tm) : ℤ :=
  (dayNumber ⟨tm.year + 1900 + tm.mon / 12, tm.mon % 12, 1⟩ + tm.mday - 1) * 86400 + tm.hour * 3600 + tm.min * 60 + tm.sec

/-- What `tm` holds for the time `t` of a zone -/
def calendar (t offset : ℤ) (tm : Tm) : Tm :=
  { shown (t / 86400) (t % 86400) tm with gmtoff := offset, zone := if offset ≠ 0 then "CST" else "UTC" }

lemma makeTime_eq (h : Fits (ofDays (seconds tm / 86400))) :
    makeTime tm offset = (seconds tm - offset, some (calendar (seconds tm) offset tm)) := by
  have hmon := tmod_floor tm.mon (by decide : (0 : ℤ) < 12)
  unfold makeTime
  extract_lets negative month year₀ year era yearOfEra marchMonth days total
  have hmont : month = tm.mon % 12 := hmon.1
  have hyear₀ : year₀ = tm.year + 1900 + tm.mon / 12 := by
    change tm.year + 1900 + tm.mon.tdiv 12 - (if tm.mon.tmod 12 < 0 then 1 else 0) = _
    rw [← hmon.2]
    split_ifs <;> omega
  have hera : era = year / 400 := tdiv_floor year (by decide : (0 : ℤ) < 400)
  have hyearOfEra : yearOfEra = year % 400 := by
    change u32 (year - era * 400) = _
    rw [u32_eq] <;> omega
  have hmar : marchMonth = month + if month < 2 then 10 else -2 := u32_eq (by split_ifs <;> omega)
  have hdays : days = dayNumber ⟨tm.year + 1900 + tm.mon / 12, tm.mon % 12, 1⟩ + tm.mday - 1 := by
    rw [← hmont, ← hyear₀]
    change era * 146097 + yearOfEra * 365 + yearOfEra / 4 - yearOfEra / 100 + (153 * marchMonth + 2) / 5 + tm.mday - 1 -
      719468 = _
    have hyear : year = year₀ - if month < 2 then 1 else 0 := rfl
    have hquad : yearOfEra / 4 = year / 4 - 100 * (year / 400) := by clear hmar hmont hera; omega
    have hcent : yearOfEra / 100 = year / 100 - 4 * (year / 400) := by clear hquad hmar hmont hera; omega
    rw [hquad, hcent, hmar, dayNumber]
    clear hquad hcent hmar hmon
    split_ifs at hyear ⊢ <;> dsimp only
    · rw [← hyear]
      omega
    · rw [Int.sub_zero] at hyear
      rw [hyear]
      omega
  have htot : total = seconds tm - offset := by
    change days * daySeconds + tm.hour * 3600 + tm.min * 60 + tm.sec - offset = _
    rw [hdays]
    rfl
  rw [htot, Int.sub_add_cancel, breakdown_eq h]
  rfl

lemma seconds_calendar : seconds (calendar t offset tm) = t := by
  have hval := valid_ofDays (t / 86400)
  have hdays := dayNumber_ofDays (t / 86400)
  obtain ⟨⟨hm, hm'⟩, -⟩ := hval
  simp only [seconds, calendar, shown, Int.emod_eq_of_lt hm (by omega : _ < (12 : ℤ)),
    Int.ediv_eq_zero_of_lt hm (by omega : _ < (12 : ℤ))]
  simp only [dayNumber] at hdays ⊢
  rw [Int.sub_add_cancel, Int.add_zero]
  omega

/-! ### The contract -/

/-- `tm` is the date `d` and the time of day `t` seconds after 1970-01-01, a Thursday. -/
structure Shows (t : ℤ) (d : Date) (tm : Tm) : Prop where
  date : (⟨tm.year + 1900, tm.mon, tm.mday⟩ : Date) = d
  mon : 0 ≤ tm.mon ∧ tm.mon ≤ 11
  mday : 1 ≤ tm.mday ∧ tm.mday ≤ monthLength (tm.year + 1900) tm.mon
  hour : 0 ≤ tm.hour ∧ tm.hour ≤ 23
  min : 0 ≤ tm.min ∧ tm.min ≤ 59
  sec : 0 ≤ tm.sec ∧ tm.sec ≤ 59
  clock : tm.hour * 3600 + tm.min * 60 + tm.sec = t % 86400
  wday : tm.wday = (t / 86400 + 4) % 7
  yday : DayOf (t / 86400 - tm.yday) ⟨tm.year + 1900, 0, 1⟩
  isdst : tm.isdst = 0

lemma shows_calendar : Shows t (ofDays (t / 86400)) (calendar t offset tm) := by
  obtain ⟨hmon, hmday⟩ := valid_ofDays (t / 86400)
  have hyear := Int.sub_add_cancel (ofDays (t / 86400)).year 1900
  have hsub (a b : ℤ) : a - (a - b) = b := by omega
  constructor <;> simp only [calendar, shown, hyear, hsub]
  case mon => exact hmon
  case mday => exact hmday
  case yday => exact dayOf_iff.mpr (ofDays_dayNumber ⟨by simp, Int.le_refl _, one_le_monthLength _ _⟩).symm
  all_goals omega

lemma gmtimeR_eq (h : Fits (ofDays (t / 86400))) : gmtimeR t result = some (calendar t 0 result) := by
  rw [gmtimeR, breakdown_eq h]
  rfl

lemma makeTime_calendar (h : Fits (ofDays (t / 86400))) :
    makeTime (calendar t offset tm) offset = (t - offset, some (calendar t offset tm)) := by
  have hsec : seconds (calendar t offset tm) = t := seconds_calendar
  rw [makeTime_eq (by rwa [hsec]), hsec]
  rfl

/-- **Calendar times are the dates of the Gregorian calendar.** The year that must fit is that of the date in the zone. -/
theorem calendar_time :
    (∀ n, ∃! d, DayOf n d) ∧ (∀ d : Date, d.Valid → ∃! n, DayOf n d) ∧
    (∀ t d result, DayOf (t / 86400) d → Fits d →
      ∃ tm, gmtimeR t result = some tm ∧ Shows t d tm ∧ tm.gmtoff = 0 ∧ tm.zone = "UTC" ∧ timegm tm = (t, some tm)) ∧
    (∀ t d result, DayOf ((t + localOffsetSeconds) / 86400) d → Fits d →
      ∃ tm, localtimeR t result = some tm ∧ Shows (t + localOffsetSeconds) d tm ∧ tm.gmtoff = localOffsetSeconds ∧
        tm.zone = "CST" ∧ mktime tm = (t, some tm)) ∧
    ∀ (tm : Tm) (k : ℤ), DayOf k ⟨tm.year + 1900 + tm.mon / 12, tm.mon % 12, 1⟩ →
      ∀ t d, t = (k + tm.mday - 1) * 86400 + tm.hour * 3600 + tm.min * 60 + tm.sec → DayOf (t / 86400) d → Fits d →
        ∃ tm', timegm tm = (t, some tm') ∧ (∀ result, gmtimeR t result = some tm') ∧ timegm tm' = (t, some tm') := by
  refine ⟨?_, ?_, ?_, ?_, ?_⟩
  · intro n
    exact ⟨ofDays n, dayOf_ofDays n, by intro d h; exact dayOf_iff.mp h⟩
  · intro d hd
    exact ⟨d.dayNumber, dayOf_iff.mpr (ofDays_dayNumber hd).symm, by intro n h; exact h.valid.2.symm⟩
  · intro t d result hd hfits
    obtain rfl := dayOf_iff.mp hd
    refine ⟨calendar t 0 result, gmtimeR_eq hfits, shows_calendar, rfl, rfl, ?_⟩
    rw [timegm, makeTime_calendar hfits, Int.sub_zero]
  · intro t d result hd hfits
    obtain rfl := dayOf_iff.mp hd
    refine ⟨calendar (t + localOffsetSeconds) localOffsetSeconds result, ?_, shows_calendar, rfl, rfl, ?_⟩
    · rw [localtimeR, breakdown_eq hfits]
      rfl
    · rw [mktime, makeTime_calendar hfits, Int.add_sub_cancel]
  · intro tm k hk t d ht hd hfits
    obtain rfl := dayOf_iff.mp hd
    have hseconds : seconds tm = t := by
      rw [ht, seconds, hk.valid.2]
    refine ⟨calendar t 0 tm, ?_, ?_, ?_⟩
    · rw [timegm, makeTime_eq (by rwa [hseconds]), hseconds, Int.sub_zero]
    · intro result
      exact gmtimeR_eq hfits
    · rw [timegm, makeTime_calendar hfits, Int.sub_zero]

/-- February 29th of 2000, also as a day of the 14th month of 1999 -/
theorem calendar_time_leap : ∃ tm, gmtimeR 951782400 default = some tm ∧ Shows 951782400 ⟨2000, 1, 29⟩ tm ∧
    timegm ⟨0, 0, 0, 29, 13, 99, 0, 0, 0, 0, ""⟩ = (951782400, some tm) := by
  have hday : DayOf (951782400 / 86400) ⟨2000, 1, 29⟩ := dayOf_iff.mpr (by decide)
  have hfits : Fits ⟨2000, 1, 29⟩ := ⟨by decide, by decide⟩
  obtain ⟨tm, hgm, hshows, -⟩ := calendar_time.2.2.1 _ _ default hday hfits
  obtain ⟨tm', htm', hgm', -⟩ := calendar_time.2.2.2.2 ⟨0, 0, 0, 29, 13, 99, 0, 0, 0, 0, ""⟩ 10988
    (dayOf_iff.mpr (by decide)) _ _ (by decide) hday hfits
  rw [hgm' default] at hgm
  exact ⟨tm', hgm' default, Option.some.inj hgm ▸ hshows, htm'⟩

end PlantOS.Libp.Time
