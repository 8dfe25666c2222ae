import Mathlib.Tactic
import Ccos.Kernel.Clock
import Ccos.Printf.Truncation
import Ccos.Reasoning.Blocks

/-!
# Calendar time

`epoch_to_utc_datetime` (`user/datetime.c`) subtracts years from 1970 on and then months from the
days since the epoch.  The proleptic Gregorian calendar is stated on its own (`leap`, `monthLength`,
`daysBeforeYear`, `Datetime.toEpoch`), and the conversion is compared with it.
-/

namespace Ccos

open Reasoning.Blocks

/-! ## The code -/

/-- `datetime_t` -/
structure Datetime where
  year : Int
  month : Int
  day : Int
  hour : Int
  min : Int
  sec : Int
deriving DecidableEq

/-- `month_days` -/
def monthDays : List Nat := [31, 28, 31, 30, 31, 30, 31, 31, 30, 31, 30, 31]

def isLeapYear (year : Int) : Bool :=
  if year.tmod 4 ≠ 0 then false
  else if year.tmod 100 ≠ 0 then true
  else if year.tmod 400 ≠ 0 then false
  else true

def daysInYear (year : Int) : Nat := if isLeapYear year then 366 else 365

theorem daysInYear_pos (year : Int) : 0 < daysInYear year := by
  unfold daysInYear
  split <;> omega

/-- Step 2 of `epoch_to_utc_datetime`: the days left in the year, and the year. -/
def yearLoop (days : Nat) (year : Int) : Nat × Int :=
  if daysInYear year ≤ days then yearLoop (days - daysInYear year) (Printf.toInt32 (year + 1))
  else (days, year)
termination_by days
decreasing_by
  have := daysInYear_pos year
  omega

/-- Step 3: the days left in the month, and the month counted from 0. -/
def monthLoop (year : Int) (days month : Nat) : Nat × Nat :=
  if month < 12 then
    let dim := if month = 1 ∧ isLeapYear year then 29 else monthDays.getD month 0
    if dim ≤ days then monthLoop year (days - dim) (month + 1)
    else (days, month)
  else (days, month)
termination_by 12 - month

def epochToUtcDatetime (epochSec : UInt64) : Datetime :=
  let days := epochSec.toNat / 86400
  let secOfDay := epochSec.toNat % 86400
  let year := yearLoop days 1970
  let month := monthLoop year.2 year.1 0
  { year := year.2
    month := month.2 + 1
    day := month.1 + 1
    hour := (secOfDay / 3600 : Nat)
    min := (secOfDay % 3600 / 60 : Nat)
    sec := (secOfDay % 3600 % 60 : Nat) }

/-! ## The calendar -/

def leap (y : Nat) : Prop := 4 ∣ y ∧ (¬ 100 ∣ y ∨ 400 ∣ y)

instance (y : Nat) : Decidable (leap y) :=
  inferInstanceAs (Decidable (_ ∧ _))

def yearLength (y : Nat) : Nat := if leap y then 366 else 365

/-- The length of month `m` (1 is January). -/
def monthLength (y m : Nat) : Nat :=
  if m = 2 then (if leap y then 29 else 28)
  else if m = 4 ∨ m = 6 ∨ m = 9 ∨ m = 11 then 30
  else 31

/-- The days from 1970 to the start of year `y`. -/
def daysBeforeYear (y : Nat) : Nat := start (fun k => yearLength (1970 + k)) (y - 1970)

/-- The days from the start of year `y` to the start of its month `m`. -/
def daysBeforeMonth (y m : Nat) : Nat := start (fun k => monthLength y (k + 1)) (m - 1)

/-- A date of the calendar, from 1970 to the last year of an `int`. -/
structure Datetime.Valid (dt : Datetime) : Prop where
  year_ge : 1970 ≤ dt.year
  year_lt : dt.year < 2 ^ 31
  month_ge : 1 ≤ dt.month
  month_le : dt.month ≤ 12
  day_ge : 1 ≤ dt.day
  day_le : dt.day ≤ monthLength dt.year.toNat dt.month.toNat
  hour : 0 ≤ dt.hour ∧ dt.hour < 24
  min : 0 ≤ dt.min ∧ dt.min < 60
  sec : 0 ≤ dt.sec ∧ dt.sec < 60

def Datetime.dayNumber (dt : Datetime) : Nat :=
  daysBeforeYear dt.year.toNat + daysBeforeMonth dt.year.toNat dt.month.toNat + (dt.day.toNat - 1)

/-- The seconds from 1970-01-01 00:00:00 to `dt`. -/
def Datetime.toEpoch (dt : Datetime) : Nat :=
  86400 * dt.dayNumber + 3600 * dt.hour.toNat + 60 * dt.min.toNat + dt.sec.toNat

/-- The fields in the order in which dates are compared. -/
def Datetime.fields (dt : Datetime) : List Int :=
  [dt.year, dt.month, dt.day, dt.hour, dt.min, dt.sec]

/-- The calendar year of `epochSec` fits in an `int`. -/
def YearFits (epochSec : UInt64) : Prop := epochSec.toNat < 86400 * daysBeforeYear (2 ^ 31)

theorem yearLength_ge (y : Nat) : 365 ≤ yearLength y := by
  unfold yearLength
  split <;> omega

theorem yearLength_le (y : Nat) : yearLength y ≤ 366 := by
  unfold yearLength
  split <;> omega

/-- The twelve months make up the year. -/
theorem start_months (y : Nat) : start (fun k => monthLength y (k + 1)) 12 = yearLength y := by
  unfold yearLength
  by_cases hy : leap y
  · simp [start, Finset.sum_range_succ, monthLength, hy]
  · simp [start, Finset.sum_range_succ, monthLength, hy]

theorem daysBeforeYear_lt : 86400 * daysBeforeYear (2 ^ 31) < 2 ^ 64 := by
  have hle : daysBeforeYear (2 ^ 31) ≤ 366 * (2 ^ 31 - 1970) :=
    start_le_mul (fun _ => yearLength_le _) _
  omega

theorem mul_le_daysBeforeYear : 365 * (2 ^ 31 - 1970) ≤ daysBeforeYear (2 ^ 31) :=
  mul_le_start (fun _ => yearLength_ge _) _

/-! ## The order of dates -/

section Order

variable {a b : Datetime}

/-- A date lies inside its year. -/
theorem Datetime.Valid.day_lt_year (ha : a.Valid) :
    daysBeforeMonth a.year.toNat a.month.toNat + (a.day.toNat - 1) < yearLength a.year.toNat := by
  rw [← start_months]
  have h1 := ha.month_ge
  have h2 := ha.month_le
  have h3 := ha.day_ge
  have h4 := ha.day_le
  apply start_add_lt
  · show a.day.toNat - 1 < monthLength a.year.toNat (a.month.toNat - 1 + 1)
    rw [Nat.sub_add_cancel (by omega)]
    omega
  · omega

theorem Datetime.Valid.dayNumber_lt_of_year (ha : a.Valid) (hy : a.year < b.year) :
    a.dayNumber < b.dayNumber := by
  have h1 := ha.year_ge
  have hday := ha.day_lt_year
  have hyear : daysBeforeYear a.year.toNat +
      (daysBeforeMonth a.year.toNat a.month.toNat + (a.day.toNat - 1)) <
        daysBeforeYear b.year.toNat := by
    apply start_add_lt
    · show _ < yearLength (1970 + (a.year.toNat - 1970))
      rw [Nat.add_sub_cancel' (by omega)]
      exact hday
    · omega
  unfold Datetime.dayNumber
  omega

theorem Datetime.Valid.dayNumber_lt_of_month (ha : a.Valid) (hy : a.year = b.year)
    (hm : a.month < b.month) : a.dayNumber < b.dayNumber := by
  have h1 := ha.month_ge
  have h2 := ha.day_ge
  have h3 := ha.day_le
  have hmonth : daysBeforeMonth a.year.toNat a.month.toNat + (a.day.toNat - 1) <
      daysBeforeMonth a.year.toNat b.month.toNat := by
    apply start_add_lt
    · show _ < monthLength a.year.toNat (a.month.toNat - 1 + 1)
      rw [Nat.sub_add_cancel (by omega)]
      omega
    · omega
  unfold Datetime.dayNumber
  rw [← hy]
  omega

theorem Datetime.Valid.dayNumber_lt_of_day (ha : a.Valid) (hy : a.year = b.year)
    (hm : a.month = b.month) (hd : a.day < b.day) : a.dayNumber < b.dayNumber := by
  have h1 := ha.day_ge
  unfold Datetime.dayNumber
  rw [← hy, ← hm]
  omega

theorem Datetime.Valid.toEpoch_lt_of_dayNumber (ha : a.Valid) (hd : a.dayNumber < b.dayNumber) :
    a.toEpoch < b.toEpoch := by
  have h1 := ha.hour
  have h2 := ha.min
  have h3 := ha.sec
  unfold Datetime.toEpoch
  omega

/-- A later date has more seconds. -/
theorem Datetime.Valid.toEpoch_lt (ha : a.Valid) (hb : b.Valid) (hlt : a.fields < b.fields) :
    a.toEpoch < b.toEpoch := by
  have h1 := ha.hour
  have h2 := ha.min
  have h3 := ha.sec
  have h4 := hb.hour
  have h5 := hb.min
  have h6 := hb.sec
  simp only [Datetime.fields, List.cons_lt_cons_iff, List.not_lt_nil, and_false, or_false] at hlt
  rcases hlt with hy | ⟨hy, hm | ⟨hm, hd | ⟨hd, htime⟩⟩⟩
  · exact ha.toEpoch_lt_of_dayNumber (ha.dayNumber_lt_of_year hy)
  · exact ha.toEpoch_lt_of_dayNumber (ha.dayNumber_lt_of_month hy hm)
  · exact ha.toEpoch_lt_of_dayNumber (ha.dayNumber_lt_of_day hy hm hd)
  · -- the same day: only the time of day decides
    have hsame : a.dayNumber = b.dayNumber := by
      unfold Datetime.dayNumber
      rw [hy, hm, hd]
    unfold Datetime.toEpoch
    omega

theorem Datetime.eq_of_fields (h : a.fields = b.fields) : a = b := by
  cases a
  cases b
  simp only [Datetime.fields, List.cons.injEq] at h
  simp only [Datetime.mk.injEq]
  exact ⟨h.1, h.2.1, h.2.2.1, h.2.2.2.1, h.2.2.2.2.1, h.2.2.2.2.2.1⟩

/-- The seconds order dates as their fields do. -/
theorem Datetime.Valid.toEpoch_lt_iff (ha : a.Valid) (hb : b.Valid) :
    a.toEpoch < b.toEpoch ↔ a.fields < b.fields := by
  constructor
  · intro hlt
    rcases lt_trichotomy a.fields b.fields with h | h | h
    · exact h
    · rw [Datetime.eq_of_fields h] at hlt
      exact absurd hlt (Nat.lt_irrefl _)
    · exact absurd (hb.toEpoch_lt ha h) (Nat.lt_asymm hlt)
  · exact ha.toEpoch_lt hb

theorem Datetime.Valid.toEpoch_inj (ha : a.Valid) (hb : b.Valid) (heq : a.toEpoch = b.toEpoch) :
    a = b := by
  apply Datetime.eq_of_fields
  rcases lt_trichotomy a.fields b.fields with h | h | h
  · have := ha.toEpoch_lt hb h
    omega
  · exact h
  · have := hb.toEpoch_lt ha h
    omega

end Order

/-! ## The two loops -/

theorem tmod_ne_zero_iff (y n : Nat) : (y : Int).tmod n ≠ 0 ↔ ¬ n ∣ y := by
  rw [ne_eq, ← Int.dvd_iff_tmod_eq_zero, Int.natCast_dvd_natCast]

theorem isLeapYear_iff (y : Nat) : isLeapYear y = true ↔ leap y := by
  have h4 := tmod_ne_zero_iff y 4
  have h100 := tmod_ne_zero_iff y 100
  have h400 := tmod_ne_zero_iff y 400
  unfold isLeapYear leap
  split
  · next c4 => exact iff_of_false nofun fun h => h4.mp c4 h.1
  · next c4 =>
    have hy4 : 4 ∣ y := not_not.mp fun h => c4 (h4.mpr h)
    split
    · next c100 => exact iff_of_true rfl ⟨hy4, .inl (h100.mp c100)⟩
    · next c100 =>
      split
      · next c400 =>
        refine iff_of_false nofun fun h => ?_
        exact h.2.elim (fun h' => c100 (h100.mpr h')) (h400.mp c400)
      · next c400 => exact iff_of_true rfl ⟨hy4, .inr (not_not.mp fun h => c400 (h400.mpr h))⟩

theorem daysInYear_eq (y : Nat) : daysInYear y = yearLength y := by
  unfold daysInYear yearLength
  simp only [isLeapYear_iff]

theorem days_in_month (y : Nat) {m : Nat} (hm : m < 12) :
    (if m = 1 ∧ isLeapYear y then 29 else monthDays.getD m 0) = monthLength y (m + 1) := by
  simp only [isLeapYear_iff]
  unfold monthLength
  by_cases hy : leap y
  · interval_cases m <;> simp [monthDays, hy]
  · interval_cases m <;> simp [monthDays, hy]

theorem daysBeforeYear_succ {y : Nat} (hy : 1970 ≤ y) :
    daysBeforeYear (y + 1) = daysBeforeYear y + yearLength y := by
  have hidx : y + 1 - 1970 = y - 1970 + 1 := by omega
  unfold daysBeforeYear
  rw [hidx, start_succ, Nat.add_sub_cancel' hy]

theorem daysBeforeYear_mono {y z : Nat} (h : y ≤ z) : daysBeforeYear y ≤ daysBeforeYear z :=
  start_mono (by omega)

/-- The year loop stops in the year of the day it is given, without overflow. -/
theorem yearLoop_spec (days : Nat) {y : Nat} (hy : 1970 ≤ y)
    (hfit : days + daysBeforeYear y < daysBeforeYear (2 ^ 31)) :
    ∃ d z : Nat, yearLoop days y = (d, (z : Int)) ∧ 1970 ≤ z ∧ z < 2 ^ 31 ∧ d < yearLength z ∧
      days + daysBeforeYear y = d + daysBeforeYear z := by
  induction days using Nat.strong_induction_on generalizing y with
  | h days ih =>
    have hlt : y < 2 ^ 31 := by
      by_contra hge
      have := daysBeforeYear_mono (Nat.le_of_not_lt hge)
      omega
    rw [yearLoop, daysInYear_eq]
    split
    · next hle =>
      have hpos := yearLength_ge y
      have hsucc := daysBeforeYear_succ hy
      have hnext : y + 1 < 2 ^ 31 := by
        -- the days left reach into year `y + 1`
        by_contra hge
        have := daysBeforeYear_mono (Nat.le_of_not_lt hge)
        omega
      have hwrap : Printf.toInt32 ((y : Int) + 1) = ((y + 1 : Nat) : Int) :=
        Printf.toInt32_of_lt hnext
      rw [hwrap]
      obtain ⟨d, z, hrun, h1, h2, h3, h4⟩ :=
        ih (days - yearLength y) (by omega) (y := y + 1) (by omega) (by omega)
      exact ⟨d, z, hrun, h1, h2, h3, by omega⟩
    · next hgt => exact ⟨days, y, rfl, hy, hlt, by omega, rfl⟩

/-- The month loop stops before its bound does. -/
theorem monthLoop_spec (y days m : Nat) (hm : m ≤ 12)
    (hlt : days + daysBeforeMonth y (m + 1) < yearLength y) :
    ∃ d k, monthLoop y days m = (d, k) ∧ k < 12 ∧ d < monthLength y (k + 1) ∧
      days + daysBeforeMonth y (m + 1) = d + daysBeforeMonth y (k + 1) := by
  have hlt12 : m < 12 := by
    by_contra hge
    have heq : m = 12 := by omega
    have hall : daysBeforeMonth y (m + 1) = yearLength y := by
      rw [heq]
      exact start_months y
    omega
  rw [monthLoop, if_pos hlt12]
  simp only [days_in_month y hlt12]
  split
  · next hle =>
    have hsucc :
        daysBeforeMonth y (m + 1 + 1) = daysBeforeMonth y (m + 1) + monthLength y (m + 1) :=
      start_succ m
    obtain ⟨d, k, hrun, h1, h2, h3⟩ :=
      monthLoop_spec y (days - monthLength y (m + 1)) (m + 1) (by omega) (by omega)
    exact ⟨d, k, hrun, h1, h2, by omega⟩
  · next hgt => exact ⟨days, m, rfl, hlt12, by omega, rfl⟩
termination_by 12 - m

/-! ## The conversion -/

theorem epochToUtcDatetime_spec {e : UInt64} (hfit : YearFits e) :
    (epochToUtcDatetime e).Valid ∧ (epochToUtcDatetime e).toEpoch = e.toNat := by
  have hdays : e.toNat / 86400 < daysBeforeYear (2 ^ 31) := by
    unfold YearFits at hfit
    omega
  have hfirst : daysBeforeYear 1970 = 0 := rfl
  obtain ⟨dy, y, hyear, hy1, hy2, hdy, hsumy⟩ :=
    yearLoop_spec (e.toNat / 86400) (le_refl 1970) (by omega)
  have hjan : daysBeforeMonth y (0 + 1) = 0 := rfl
  obtain ⟨dm, m, hmonth, hm, hdm, hsumm⟩ := monthLoop_spec y dy 0 (by omega) (by omega)
  have hyear' : yearLoop (e.toNat / 86400) 1970 = (dy, (y : Int)) := hyear
  have hdt : epochToUtcDatetime e =
      { year := y, month := m + 1, day := dm + 1, hour := (e.toNat % 86400 / 3600 : Nat),
        min := (e.toNat % 86400 % 3600 / 60 : Nat),
        sec := (e.toNat % 86400 % 3600 % 60 : Nat) } := by
    unfold epochToUtcDatetime
    simp only [hyear', hmonth]
  have hm1 : ((m : Int) + 1).toNat = m + 1 := by omega
  have hd1 : ((dm : Int) + 1).toNat = dm + 1 := by omega
  rw [hdt]
  constructor
  · constructor <;> dsimp only
    · omega
    · omega
    · omega
    · omega
    · omega
    · rw [Int.toNat_natCast, hm1]
      omega
    · omega
    · omega
    · omega
  · unfold Datetime.toEpoch Datetime.dayNumber
    dsimp only
    rw [hm1, hd1, Int.toNat_natCast]
    have hsplit := Nat.div_add_mod e.toNat 86400
    omega

theorem yearFits_of_lt {e : UInt64} (h : e.toNat < 2 ^ 55) : YearFits e := by
  have hge := mul_le_daysBeforeYear
  unfold YearFits
  omega

theorem ne_zero_of_copyToUserTimespec {s : Kernel} {uts : UInt64} {ts : UInt64 × UInt32}
    (h : (copyToUserTimespec s uts ts).1 = 0) : uts ≠ 0 := by
  intro hu
  rw [copyToUserTimespec, if_pos hu] at h
  cases h

/-- What `clock_gettime` stores as seconds. -/
theorem yearFits_clockReading {s : Kernel} {time uts : UInt64} {id : Int}
    (hret : (sysClockGettime s time id uts).1 = 0) :
    YearFits (UInt64.ofNat (clockReading s time id uts).1) := by
  have hns : ∃ ns, Reads s time id uts (UInt64.toNat ns) := by
    unfold sysClockGettime at hret
    split_ifs at hret with h0 h1
    · subst h0
      exact ⟨_,
        reads_of_copy (ne_zero_of_copyToUserTimespec hret) (sysClockGettime_real s time uts)⟩
    · subst h1
      exact ⟨_, reads_of_copy (ne_zero_of_copyToUserTimespec hret)
        (sysClockGettime_monotonic s time uts)⟩
    · cases hret
  obtain ⟨ns, hreads⟩ := hns
  have hval := hreads.value
  have hlt := ns.toNat_lt
  apply yearFits_of_lt
  rw [UInt64.toNat_ofNat']
  omega

/-- The seconds whose year fits in an `int` and the dates of the calendar in these years correspond
one to one, in the same order; the seconds `clock_gettime` hands out are among them. -/
theorem epoch_to_utc_datetime_bijective :
    (∀ e, YearFits e → (epochToUtcDatetime e).Valid ∧ (epochToUtcDatetime e).toEpoch = e.toNat) ∧
    (∀ e e', YearFits e → YearFits e' → epochToUtcDatetime e = epochToUtcDatetime e' → e = e') ∧
    (∀ e e', YearFits e → YearFits e' →
      (e < e' ↔ (epochToUtcDatetime e).fields < (epochToUtcDatetime e').fields)) ∧
    (∀ dt : Datetime, dt.Valid → ∃ e, YearFits e ∧ epochToUtcDatetime e = dt) ∧
    ∀ (s : Kernel) (time uts : UInt64) (id : Int), (sysClockGettime s time id uts).1 = 0 →
      YearFits (UInt64.ofNat (clockReading s time id uts).1) := by
  refine ⟨fun e => epochToUtcDatetime_spec, ?_, ?_, ?_, fun s time uts id => yearFits_clockReading⟩
  · intro e e' he he' heq
    apply UInt64.toNat_inj.mp
    rw [← (epochToUtcDatetime_spec he).2, ← (epochToUtcDatetime_spec he').2, heq]
  · intro e e' he he'
    have h := epochToUtcDatetime_spec he
    have h' := epochToUtcDatetime_spec he'
    rw [UInt64.lt_iff_toNat_lt, ← h.2, ← h'.2]
    exact h.1.toEpoch_lt_iff h'.1
  · intro dt hdt
    -- the seconds of `dt` lie in front of the first second that no `int` year has
    have hbound : dt.toEpoch < 86400 * daysBeforeYear (2 ^ 31) := by
      have hnext : dt.dayNumber < daysBeforeYear (2 ^ 31) := by
        have h1 := hdt.year_ge
        have h2 := hdt.year_lt
        have hday := hdt.day_lt_year
        have hsucc := @daysBeforeYear_succ dt.year.toNat (by omega)
        have hmono : daysBeforeYear (dt.year.toNat + 1) ≤ daysBeforeYear (2 ^ 31) :=
          daysBeforeYear_mono (by omega)
        unfold Datetime.dayNumber
        omega
      have h1 := hdt.hour
      have h2 := hdt.min
      have h3 := hdt.sec
      unfold Datetime.toEpoch
      omega
    have hval : (UInt64.ofNat dt.toEpoch).toNat = dt.toEpoch := by
      have hlt := daysBeforeYear_lt
      rw [UInt64.toNat_ofNat']
      omega
    have hfit : YearFits (UInt64.ofNat dt.toEpoch) := by
      unfold YearFits
      rw [hval]
      exact hbound
    have h := epochToUtcDatetime_spec hfit
    exact ⟨_, hfit, h.1.toEpoch_inj hdt (by rw [h.2, hval])⟩

/-- The last second of 28 February 2000 and the first of the 29th. -/
theorem epoch_to_utc_datetime_leap_day :
    YearFits 951782399 ∧ YearFits 951782400 ∧
      (epochToUtcDatetime 951782399).fields < (epochToUtcDatetime 951782400).fields ∧
      ∃ e, epochToUtcDatetime e = ⟨2000, 2, 29, 0, 0, 0⟩ := by
  have h1 : YearFits 951782399 := yearFits_of_lt (by decide)
  have h2 : YearFits 951782400 := yearFits_of_lt (by decide)
  have h := epoch_to_utc_datetime_bijective
  have hvalid : Datetime.Valid ⟨2000, 2, 29, 0, 0, 0⟩ := by
    constructor <;> decide
  obtain ⟨e, -, he⟩ := h.2.2.2.1 _ hvalid
  exact ⟨h1, h2, (h.2.2.1 _ _ h1 h2).mp (by decide), e, he⟩

end Ccos
