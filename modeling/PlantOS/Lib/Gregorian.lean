import Mathlib.Tactic.IntervalCases

/-!
# The proleptic Gregorian calendar

The calendar is its successor function, from 1970-01-01 in both directions. Days are counted in eras of 400 years that
begin in March: an era is four centuries, a century 25 times four years, and the longest of these parts is the last
one, so that all quotients are bounded by the first three of four.
-/

namespace PlantOS.Lib.Gregorian

def IsLeap (y : ℤ) : Prop := y % 4 = 0 ∧ (y % 100 ≠ 0 ∨ y % 400 = 0)

instance (y : ℤ) : Decidable (IsLeap y) := by unfold IsLeap; infer_instance

/-- The length of a month; months count from 0. -/
def monthLength (y m : ℤ) : ℤ :=
  if m = 1 then if IsLeap y then 29 else 28 else if m = 3 ∨ m = 5 ∨ m = 8 ∨ m = 10 then 30 else 31

structure Date where
  year : ℤ
  month : ℤ
  day : ℤ
  deriving DecidableEq

namespace Date

variable {d e : Date} {n : ℤ}

structure Valid (d : Date) : Prop where
  month : 0 ≤ d.month ∧ d.month ≤ 11
  day : 1 ≤ d.day ∧ d.day ≤ monthLength d.year d.month

def next (d : Date) : Date :=
  if d.day < monthLength d.year d.month then { d with day := d.day + 1 }
  else if d.month < 11 then ⟨d.year, d.month + 1, 1⟩
  else ⟨d.year + 1, 0, 1⟩

/-- The date `d` is `n` days after 1970-01-01. -/
inductive DayOf : ℤ → Date → Prop
  | epoch : DayOf 0 ⟨1970, 0, 1⟩
  | next {n : ℤ} {d : Date} : DayOf n d → DayOf (n + 1) d.next
  | back {n : ℤ} {d : Date} : d.Valid → DayOf (n + 1) d.next → DayOf n d

/-! ### Numbers of days -/

/-- The days from 1970-01-01 to a day of the month, in years that begin in March -/
def dayNumber (d : Date) : ℤ :=
  let y := if d.month < 2 then d.year - 1 else d.year
  let m := if d.month < 2 then d.month + 10 else d.month - 2
  365 * y + y / 4 - y / 100 + y / 400 + (153 * m + 2) / 5 + d.day - 1 - 719468

def ofDays (n : ℤ) : Date :=
  let era := (n + 719468) / 146097
  let dayOfEra := (n + 719468) % 146097
  let yearOfEra := (dayOfEra - dayOfEra / 1460 + dayOfEra / 36524 - dayOfEra / 146096) / 365
  let dayOfYear := dayOfEra - (365 * yearOfEra + yearOfEra / 4 - yearOfEra / 100)
  let march := (5 * dayOfYear + 2) / 153
  let month := if march < 10 then march + 2 else march - 10
  ⟨yearOfEra + era * 400 + if month < 2 then 1 else 0, month, dayOfYear - (153 * march + 2) / 5 + 1⟩

lemma one_le_monthLength (y m : ℤ) : 1 ≤ monthLength y m := by
  unfold monthLength
  split_ifs <;> omega

lemma Valid.next (h : d.Valid) : d.next.Valid := by
  obtain ⟨⟨hm, hm'⟩, hk, hk'⟩ := h
  unfold Date.next
  split_ifs with hday hmon
  · exact ⟨⟨hm, hm'⟩, by simp only; omega, hday⟩
  · exact ⟨⟨by simp only; omega, hmon⟩, Int.le_refl _, one_le_monthLength _ _⟩
  · exact ⟨⟨Int.le_refl _, by simp⟩, Int.le_refl _, one_le_monthLength _ _⟩

lemma dayNumber_next (h : d.Valid) : d.next.dayNumber = d.dayNumber + 1 := by
  obtain ⟨y, m, k⟩ := d
  obtain ⟨⟨hm, hm'⟩, hk, hk'⟩ := h
  unfold Date.next
  dsimp only at hm hm' hk hk' ⊢
  split_ifs with hday hmon
  · simp only [dayNumber]
    omega
  · obtain rfl : k = monthLength y m := by omega
    by_cases hfeb : m = 1
    · subst hfeb
      simp only [dayNumber, monthLength, IsLeap, ite_true]
      simp
      split_ifs <;> omega
    · simp only [dayNumber, monthLength, hfeb, if_false]
      clear hk hk' hday
      interval_cases m <;> simp at hfeb ⊢ <;> omega
  · obtain rfl : m = 11 := by omega
    have hlast : k = 31 := by
      have : monthLength y 11 = 31 := rfl
      omega
    simp only [dayNumber, hlast]
    simp
    omega

/-- The parts of a day of an era: centuries, groups of four years, years and days -/
structure EraParts (c q s r : ℤ) : Prop where
  century : 0 ≤ c ∧ c ≤ 3
  group : 0 ≤ q ∧ q ≤ 24
  year : 0 ≤ s ∧ s ≤ 3
  day : 0 ≤ r ∧ r ≤ 365
  leap : r = 365 → s = 3 ∧ (q = 24 → c = 3)

namespace EraParts

variable {c q s r : ℤ}

lemma century_le (h : EraParts c q s r) : 1461 * q + 365 * s + r ≤ 36523 ∨ c = 3 ∧ 1461 * q + 365 * s + r = 36524 := by
  obtain ⟨hc, hq, hs, hr, hleap⟩ := h
  by_cases hlast : r = 365
  · obtain ⟨rfl, hthir⟩ := hleap hlast
    by_cases hfull : q = 24
    · obtain rfl := hthir hfull
      omega
    · omega
  · omega

lemma year_eq (h : EraParts c q s r) (hn : n = 36524 * c + 1461 * q + 365 * s + r) : 0 ≤ n ∧ n < 146097 ∧
    let y := (n - n / 1460 + n / 36524 - n / 146096) / 365
    y = 100 * c + 4 * q + s ∧ n - (365 * y + y / 4 - y / 100) = r := by
  have hle := h.century_le
  obtain ⟨hc, hq, hs, hr, hleap⟩ := h
  have hcen : 0 ≤ n ∧ n < 146097 ∧ n / 36524 - n / 146096 = c := by
    obtain ⟨x, hx⟩ : ∃ x, x = 1461 * q + 365 * s + r := ⟨_, rfl⟩
    have hx₀ : 0 ≤ x ∧ n = 36524 * c + x := by omega
    rw [← hx] at hle
    clear hx hleap hn
    rcases hle with hle | ⟨rfl, hle⟩ <;> omega
  refine ⟨hcen.1, hcen.2.1, ?_⟩
  obtain ⟨z, hz⟩ : ∃ z, z = 24 * c + q + 365 * s + r := ⟨_, rfl⟩
  have hz₀ : 0 ≤ z ∧ z < 2920 ∧ (r = 0 → z < 1460) ∧ (r = 365 → 1460 ≤ z) := by clear hcen hn; omega
  have hnum : n - n / 1460 + n / 36524 - n / 146096 = 365 * (100 * c + 4 * q + s) + (r - z / 1460) := by
    have hnz : n = 1460 * (25 * c + q) + z := by omega
    have hyear : n / 1460 = 25 * c + q + z / 1460 := by omega
    omega
  have hyear : (n - n / 1460 + n / 36524 - n / 146096) / 365 = 100 * c + 4 * q + s := by
    rw [hnum]
    clear hnum hcen hn
    omega
  refine ⟨hyear, ?_⟩
  have hquad : (100 * c + 4 * q + s) / 4 = 25 * c + q := by clear hn hyear hcen hnum hz hz₀ hle; omega
  have hcent : (100 * c + 4 * q + s) / 100 = c := by clear hn hyear hcen hquad hnum hz hz₀ hle; omega
  rw [hyear, hquad, hcent]
  clear hnum hyear hcen
  omega

end EraParts

lemma era_parts (h : 0 ≤ n ∧ n < 146097) : ∃ c q s r : ℤ, EraParts c q s r ∧ n = 36524 * c + 1461 * q + 365 * s + r := by
  obtain ⟨c, hc⟩ : ∃ c, c = min 3 (n / 36524) := ⟨_, rfl⟩
  obtain ⟨q, hq⟩ : ∃ q, q = (n - 36524 * c) / 1461 := ⟨_, rfl⟩
  obtain ⟨s, hs⟩ : ∃ s, s = min 3 ((n - 36524 * c - 1461 * q) / 365) := ⟨_, rfl⟩
  refine ⟨c, q, s, n - 36524 * c - 1461 * q - 365 * s, ⟨?_, ?_, ?_, ?_, ?_⟩, ?_⟩ <;> omega

lemma era_bounds (h : 0 ≤ n ∧ n < 146097) :
    let y := (n - n / 1460 + n / 36524 - n / 146096) / 365
    0 ≤ y ∧ y < 400 ∧ 0 ≤ n - (365 * y + y / 4 - y / 100) ∧ n - (365 * y + y / 4 - y / 100) ≤ 365 := by
  obtain ⟨c, q, s, r, hpts, hn⟩ := era_parts h
  obtain ⟨-, -, hyear, hday⟩ := hpts.year_eq hn
  obtain ⟨hc, hq, hs, hr, -⟩ := hpts
  refine ⟨?_, ?_, hday ▸ hr.1, hday ▸ hr.2⟩ <;> rw [hyear] <;> clear hday hyear <;> omega

lemma EraParts.ofDays_eq {c q s r e m : ℤ} (h : EraParts c q s r) (hm : m = (5 * r + 2) / 153)
    (hn : n + 719468 = 146097 * e + (36524 * c + 1461 * q + 365 * s + r)) :
    ofDays n = ⟨400 * e + 100 * c + 4 * q + s + (if m < 10 then 0 else 1), if m < 10 then m + 2 else m - 10,
      r - (153 * m + 2) / 5 + 1⟩ := by
  obtain ⟨x, hx⟩ : ∃ x, x = 36524 * c + 1461 * q + 365 * s + r := ⟨_, rfl⟩
  obtain ⟨hx₀, hx₁, hyear, hday⟩ := h.year_eq hx
  rw [← hx] at hn
  have hera : (n + 719468) / 146097 = e ∧ (n + 719468) % 146097 = x := by
    clear hyear hday hx hm
    omega
  simp only [ofDays, hera.1, hera.2, hday, ← hm]
  rw [hyear]
  clear hera hyear hday hn hx hx₀ hx₁
  have hr := h.day
  have hmon : (if (if m < 10 then m + 2 else m - 10) < 2 then (1 : ℤ) else 0) = if m < 10 then 0 else 1 := by
    split_ifs <;> omega
  rw [hmon]
  congr 1
  clear hm hmon
  omega

lemma EraParts.year_days {c q s r : ℤ} (h : EraParts c q s r) (e : ℤ) {y : ℤ} (hy : y = 400 * e + 100 * c + 4 * q + s) :
    365 * y + y / 4 - y / 100 + y / 400 = 146097 * e + 36524 * c + 1461 * q + 365 * s := by
  obtain ⟨hc, hq, hs, -, -⟩ := h
  have hquad : y / 4 = 100 * e + 25 * c + q := by omega
  have hcent : y / 100 = 4 * e + c := by clear hquad; omega
  omega

lemma dayNumber_march (y m k : ℤ) (hm : 0 ≤ m ∧ m ≤ 11) :
    dayNumber ⟨y + (if m < 10 then 0 else 1), if m < 10 then m + 2 else m - 10, k⟩ =
      365 * y + y / 4 - y / 100 + y / 400 + (153 * m + 2) / 5 + k - 1 - 719468 := by
  by_cases h : m < 10
  · simp only [dayNumber, h, ite_true]
    rw [if_neg (by omega), if_neg (by omega)]
    simp
  · simp only [dayNumber, h, ite_false]
    rw [if_pos (by omega), if_pos (by omega)]
    simp

lemma dayNumber_ofDays (n : ℤ) : (ofDays n).dayNumber = n := by
  obtain ⟨c, q, s, r, h, hn⟩ := era_parts (n := (n + 719468) % 146097) (by omega)
  have hr := h.day
  rw [h.ofDays_eq rfl (by omega : n + 719468 = 146097 * ((n + 719468) / 146097) + _), dayNumber_march _ _ _ (by omega),
    h.year_days _ rfl]
  clear h
  omega

lemma valid_ofDays (n : ℤ) : (ofDays n).Valid := by
  obtain ⟨c, q, s, r, h, hn⟩ := era_parts (n := (n + 719468) % 146097) (by omega)
  obtain ⟨m, hm⟩ : ∃ m, m = (5 * r + 2) / 153 := ⟨_, rfl⟩
  rw [h.ofDays_eq hm (by omega : n + 719468 = 146097 * ((n + 719468) / 146097) + _)]
  obtain ⟨hc, hq, hs, hr, hleap⟩ := h
  generalize (n + 719468) / 146097 = e at *
  clear hn
  have hm' : 0 ≤ m ∧ m ≤ 11 := by omega
  refine ⟨by simp only; omega, by simp only; omega, ?_⟩
  obtain ⟨h, h'⟩ := hm'
  by_cases hfeb : m = 11
  · subst hfeb
    simp only [monthLength, IsLeap]
    by_cases hlast : r = 365
    · obtain ⟨rfl, hthir⟩ := hleap hlast
      simp
      split_ifs <;> omega
    · simp
      split_ifs <;> omega
  · simp only [monthLength]
    clear hleap hc hq hs
    interval_cases m <;> simp at hfeb ⊢ <;> omega

lemma ofDays_dayNumber (h : d.Valid) : ofDays d.dayNumber = d := by
  obtain ⟨y', m, k⟩ := d
  obtain ⟨⟨hm₀, hm₁⟩, hk, hk'⟩ := h
  dsimp only at hm₀ hm₁ hk hk'
  obtain ⟨y, m', rfl, rfl, hm'⟩ : ∃ y m', y' = y + (if m' < 10 then 0 else 1) ∧ (m = if m' < 10 then m' + 2 else m' - 10) ∧
      0 ≤ m' ∧ m' ≤ 11 := by
    by_cases hm : m < 2
    · exact ⟨y' - 1, m + 10, by rw [if_neg (by omega)]; omega, by rw [if_neg (by omega)]; omega, by omega⟩
    · exact ⟨y', m - 2, by rw [if_pos (by omega)]; omega, by rw [if_pos (by omega)]; omega, by omega⟩
  rw [dayNumber_march _ _ _ hm']
  obtain ⟨r, hr⟩ : ∃ r, r = (153 * m' + 2) / 5 + k - 1 := ⟨_, rfl⟩
  clear hm₀ hm₁
  obtain ⟨hm₀, hm₁⟩ := hm'
  have hday : m' = (5 * r + 2) / 153 ∧ 0 ≤ r ∧ r ≤ 365 ∧ (r = 365 → IsLeap (y + 1)) := by
    simp only [monthLength] at hk'
    by_cases hfeb : m' = 11
    · subst hfeb
      simp at hk'
      split_ifs at hk' with hleap
      · exact ⟨by omega, by omega, by omega, by intro _; exact hleap⟩
      · exact ⟨by omega, by omega, by omega, by intro _; omega⟩
    · interval_cases m' <;> simp at hfeb hk' <;> exact ⟨by omega, by omega, by omega, by intro _; omega⟩
  clear hk'
  have hpts : EraParts (y / 100 % 4) (y / 4 % 25) (y % 4) r := by
    refine ⟨by omega, by omega, by omega, ⟨hday.2.1, hday.2.2.1⟩, ?_⟩
    intro hlast
    obtain ⟨h4, h100⟩ := hday.2.2.2 hlast
    clear hday hr
    omega
  have hy : y = 400 * (y / 400) + 100 * (y / 100 % 4) + 4 * (y / 4 % 25) + y % 4 := by clear hday hr hpts; omega
  rw [hpts.ofDays_eq (e := y / 400) hday.1 (by rw [hpts.year_days _ hy]; clear hday hpts hy; omega), ← hy, hr]
  congr 1
  clear hday hpts hy hr
  omega

lemma dayOf_ofDays (n : ℤ) : DayOf n (ofDays n) := by
  induction n using Int.induction_on with
  | zero => exact .epoch
  | succ i ih =>
    have h := ih.next
    have hval := (valid_ofDays i).next
    rwa [← ofDays_dayNumber hval, dayNumber_next (valid_ofDays _), dayNumber_ofDays] at h
  | pred i ih =>
    refine .back (valid_ofDays _) ?_
    have hval := (valid_ofDays (-i - 1)).next
    rw [← ofDays_dayNumber hval, dayNumber_next (valid_ofDays _), dayNumber_ofDays]
    rwa [Int.sub_add_cancel]

lemma DayOf.valid (h : DayOf n d) : d.Valid ∧ d.dayNumber = n := by
  induction h with
  | epoch => exact ⟨⟨by decide, by decide⟩, rfl⟩
  | next _ ih => exact ⟨ih.1.next, by rw [dayNumber_next ih.1, ih.2]⟩
  | back hval _ ih =>
    have := dayNumber_next hval
    exact ⟨hval, by omega⟩

/-- **Every day has one date, and every date is of one day.** -/
theorem dayOf_iff : DayOf n d ↔ d = ofDays n := by
  refine ⟨?_, ?_⟩
  · intro h
    rw [← h.valid.2, ofDays_dayNumber h.valid.1]
  · rintro rfl
    exact dayOf_ofDays n

end Date

end PlantOS.Lib.Gregorian
