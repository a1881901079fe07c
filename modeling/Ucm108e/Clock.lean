import Mathlib
import Ucm108e.Bytes
import Ucm108e.Calendar

/-!
`interval2time` of `uc_rtc.c`, which moves a time of the clock on by a number of seconds.
It counts from the start of the year and takes whole years and months off. The leap years
of the clock are those of the calendar from 2000 to 2099.
-/
namespace Ucm108e.Clock
open Ucm108e.Bytes Ucm108e.Calendar
set_option linter.unusedSimpArgs false

def SECOND_PER_MINUTE : Nat := 60
def SECOND_PER_HOUR : Nat := 60*SECOND_PER_MINUTE
def SECOND_PER_DAY : Nat := 24*SECOND_PER_HOUR
def SECOND_PER_NORMAL_YEAR : Nat := 365*SECOND_PER_DAY
def SECOND_PER_LEAP_YEAR : Nat := 366*SECOND_PER_DAY

/-- `rtc_time_t`; `year` has 16 bits and the others have 8. -/
structure RtcTime where
  year : Nat
  mon : Nat
  day : Nat
  hour : Nat
  min : Nat
  sec : Nat
  week : Nat
  deriving DecidableEq

def is_leap_year (year : Nat) : Bool := year &&& 0x03 = 0

/-- `get_month_day`, for the months 1 to 12. -/
def get_month_day (year mon : Nat) : Nat :=
  if is_leap_year year && mon = 2 then 29 else [31,28,31,30,31,30,31,31,30,31,30,31].getD (mon-1) 0

/-- The loop that takes years off. -/
def yearLoop (interval : Int) (year : Nat) : Int × Nat :=
  if interval > 0 then
    let delta := if is_leap_year year then SECOND_PER_LEAP_YEAR else SECOND_PER_NORMAL_YEAR
    if interval ≥ delta then yearLoop (interval-delta) (u16 (year+1)) else (interval,year)
  else (interval,year)
termination_by interval.toNat
decreasing_by
  simp only [delta,SECOND_PER_LEAP_YEAR,SECOND_PER_NORMAL_YEAR,SECOND_PER_DAY,SECOND_PER_HOUR,SECOND_PER_MINUTE]
  split <;> omega

/-- The loop that takes months off, `left` of them to go. -/
def monthLoop (year : Nat) : (left i : Nat) → (interval : Int) → (mon : Nat) → Int × Nat
  | 0, _, interval, mon => (interval,mon)
  | left+1, i, interval, mon =>
    let delta := get_month_day year i*SECOND_PER_DAY
    if interval ≥ delta then monthLoop year left (i+1) (interval-delta) (u8 (mon+1)) else (interval,mon)

/-- `interval2time`; `int` has 32 bits, and the operations with the constants are unsigned. -/
def interval2time (interval : Int) (t : RtcTime) : RtcTime :=
  let week := u8 (u32 (t.week+u32 (interval+t.hour*SECOND_PER_HOUR+t.min*SECOND_PER_MINUTE+t.sec)/SECOND_PER_DAY) % 7)
  let total := (List.range' 1 (t.mon-1)).foldl (fun total i => i32 (total+get_month_day t.year i*SECOND_PER_DAY)) (0 : Int)
  let total := i32 (total+(((t.day : Int)-1)*SECOND_PER_DAY+t.hour*SECOND_PER_HOUR+t.min*SECOND_PER_MINUTE+t.sec))
  let interval := i32 (interval+total)
  let (interval,year) := yearLoop interval t.year
  let (interval,mon) := monthLoop year 11 1 interval 1
  let day := u8 (1+u32 interval/SECOND_PER_DAY)
  let interval := i32 (u32 interval % SECOND_PER_DAY)
  let hour := u8 (0+u32 interval/SECOND_PER_HOUR)
  let interval := i32 (u32 interval % SECOND_PER_HOUR)
  let min := u8 (0+u32 interval/SECOND_PER_MINUTE)
  let sec := u8 (0+u32 interval % SECOND_PER_MINUTE)
  ⟨year,mon,day,hour,min,sec,if week = 0 then 7 else week⟩

def RtcTime.dateTime (t : RtcTime) : DateTime := ⟨t.year,t.mon,t.day,t.hour,t.min,t.sec⟩

/-- The times that the clock can hold. -/
structure Valid (t : RtcTime) : Prop where
  century : 2000 ≤ t.year ∧ t.year < 2100
  date : t.dateTime.Valid
  week : 1 ≤ t.week ∧ t.week ≤ 7

instance (t : RtcTime) : Decidable (Valid t) :=
  decidable_of_iff ((2000 ≤ t.year ∧ t.year < 2100) ∧ t.dateTime.Valid ∧ 1 ≤ t.week ∧ t.week ≤ 7)
    ⟨fun ⟨century,date,week⟩ => ⟨century,date,week⟩,fun valid => ⟨valid.century,valid.date,valid.week⟩⟩

theorem Valid.year_small {t : RtcTime} (valid : Valid t) : t.dateTime.seconds t.year < 2^25 := by
  have inYear : t.dateTime.seconds t.year < 86400*yearDays t.year := valid.date.seconds_lt
  have days : yearDays t.year ≤ 366 := by
    unfold yearDays
    split <;> omega
  omega

/-! ### The calendar of the clock -/

theorem leap_iff {year : Nat} (low : 2000 ≤ year) (high : year < 2100) : is_leap_year year = true ↔ Leap year := by
  have bits : year &&& 0x03 = year % 4 := Nat.and_two_pow_sub_one_eq_mod year 2
  simp only [is_leap_year,bits,decide_eq_true_eq,Leap]
  omega

theorem month_day_eq {year : Nat} (low : 2000 ≤ year) (high : year < 2100) {mon : Nat} (first : 1 ≤ mon) (last : mon ≤ 12) :
    get_month_day year mon = monthDays year mon := by
  have leap := leap_iff low high
  unfold get_month_day monthDays
  by_cases long : Leap year
  · simp only [leap.mpr long,long,Bool.true_and,if_true,decide_eq_true_eq]
    interval_cases mon <;> rfl
  · simp only [mt leap.mp long,long,Bool.false_and,if_false]
    interval_cases mon <;> rfl

theorem month_seconds {year : Nat} (low : 2000 ≤ year) (high : year < 2100) {mon : Nat} (first : 1 ≤ mon)
    (last : mon ≤ 12) : get_month_day year mon*SECOND_PER_DAY = 86400*monthDays year mon := by
  have day : SECOND_PER_DAY = 86400 := rfl
  rw [month_day_eq low high first last,day,Nat.mul_comm]

theorem year_seconds {year : Nat} (low : 2000 ≤ year) (high : year < 2100) :
    (if is_leap_year year then SECOND_PER_LEAP_YEAR else SECOND_PER_NORMAL_YEAR) = 86400*yearDays year := by
  have leap := leap_iff low high
  unfold yearDays
  by_cases long : Leap year
  · rw [if_pos (leap.mpr long),if_pos long]
    rfl
  · rw [if_neg (mt leap.mp long),if_neg long]
    rfl

/-! ### The loops -/

/-- As long as the seconds end before 2100, whole years are taken off. -/
theorem yearLoop_spec (left : Nat) : ∀ {year r : Nat}, 2000 ≤ year → year+left = 2100 →
    r < ∑ k ∈ Finset.Ico year 2100, 86400*yearDays k →
    ∃ year' rest : Nat, yearLoop r year = ((rest : Int),year') ∧ year' < 2100 ∧ rest < 86400*yearDays year'
      ∧ Peeled (fun k => 86400*yearDays k) year r year' rest := by
  induction left with
  | zero =>
    intro year r low now inside
    rw [show year = 2100 by omega,Finset.Ico_self,Finset.sum_empty] at inside
    omega
  | succ left ih =>
    intro year r low now inside
    have high : year < 2100 := by omega
    have length := year_seconds low high
    rw [Finset.sum_eq_sum_Ico_succ_bot high] at inside
    have some_days : 0 < yearDays year := by
      unfold yearDays
      split <;> decide
    rw [yearLoop]
    simp only [length]
    by_cases none : (r : Int) > 0
    · by_cases enough : (r : Int) ≥ (86400*yearDays year : Nat)
      · have less : (r : Int)-(86400*yearDays year : Nat) = (r-86400*yearDays year : Nat) := by omega
        have next : u16 ((year : Int)+1) = year+1 := u16_eq (by omega) (by omega)
        obtain ⟨year',rest,run,before,small,peeled⟩ := @ih (year+1) (r-86400*yearDays year) (by omega) (by omega) (by omega)
        rw [if_pos none,if_pos enough,less,next]
        exact ⟨year',rest,run,before,small,Peeled.cons (by omega) peeled⟩
      · rw [if_pos none,if_neg enough]
        exact ⟨year,r,rfl,high,by omega,Peeled.none _ _ _⟩
    · rw [if_neg none]
      exact ⟨year,r,rfl,high,by omega,Peeled.none _ _ _⟩

/-- The same for months, of which the last one is not taken off. -/
theorem monthLoop_spec {year : Nat} (low : 2000 ≤ year) (high : year < 2100) (left : Nat) :
    ∀ {i r : Nat}, 1 ≤ i → i+left = 12 → r < ∑ k ∈ Finset.Ico i 13, 86400*monthDays year k →
    ∃ mon rest : Nat, monthLoop year left i r i = ((rest : Int),mon) ∧ mon ≤ 12 ∧ rest < 86400*monthDays year mon
      ∧ Peeled (fun k => 86400*monthDays year k) i r mon rest := by
  induction left with
  | zero =>
    intro i r first now inside
    obtain rfl : i = 12 := by omega
    rw [Finset.sum_eq_sum_Ico_succ_bot (by decide),Finset.Ico_self,Finset.sum_empty,Nat.add_zero] at inside
    exact ⟨12,r,rfl,by decide,inside,Peeled.none _ _ _⟩
  | succ left ih =>
    intro i r first now inside
    have length := month_seconds low high first (show i ≤ 12 by omega)
    rw [Finset.sum_eq_sum_Ico_succ_bot (by omega)] at inside
    rw [monthLoop]
    simp only [length]
    by_cases enough : (r : Int) ≥ (86400*monthDays year i : Nat)
    · have less : (r : Int)-(86400*monthDays year i : Nat) = (r-86400*monthDays year i : Nat) := by omega
      have next : u8 ((i : Int)+1) = i+1 := u8_eq (by omega) (by omega)
      obtain ⟨mon,rest,run,before,small,peeled⟩ := @ih (i+1) (r-86400*monthDays year i) (by omega) (by omega) (by omega)
      rw [if_pos enough,less,next]
      exact ⟨mon,rest,run,before,small,Peeled.cons (by omega) peeled⟩
    · rw [if_neg enough]
      exact ⟨i,r,rfl,by omega,by omega,Peeled.none _ _ _⟩

theorem total_spec {year : Nat} (low : 2000 ≤ year) (high : year < 2100) {n : Nat} (few : n ≤ 11) :
    (List.range' 1 n).foldl (fun total i => i32 (total+get_month_day year i*SECOND_PER_DAY)) (0 : Int)
        = (∑ k ∈ Finset.Ico 1 (n+1), 86400*monthDays year k : Nat)
      ∧ ∑ k ∈ Finset.Ico 1 (n+1), 86400*monthDays year k ≤ 86400*31*n := by
  induction n with
  | zero => exact ⟨rfl,Nat.le_refl 0⟩
  | succ n ih =>
    obtain ⟨before,bound⟩ := ih (by omega)
    have days := monthDays_le year (n+1)
    have length := month_seconds low high (show 1 ≤ n+1 by omega) (show n+1 ≤ 12 by omega)
    rw [List.range'_concat,show 1+1*n = n+1 by omega,List.foldl_append,before,List.foldl_cons,List.foldl_nil,
      Finset.sum_Ico_succ_top (show 1 ≤ n+1 by omega)]
    refine ⟨?_,by omega⟩
    refine i32_eq ?_ (by omega)
    rw [← length]
    push_cast
    rfl

/-- What is left after the months: hours, minutes and seconds behind the days. -/
theorem rest_spec {interval : Int} {rest : Nat} (value : u32 interval = rest) :
    i32 (u32 interval % SECOND_PER_DAY) = (rest % 86400 : Nat)
      ∧ u8 (0+u32 (rest % 86400 : Nat)/SECOND_PER_HOUR) = rest % 86400/3600
      ∧ i32 (u32 (rest % 86400 : Nat) % SECOND_PER_HOUR) = (rest % 3600 : Nat)
      ∧ u8 (0+u32 (rest % 3600 : Nat)/SECOND_PER_MINUTE) = rest % 3600/60
      ∧ u8 (0+u32 (rest % 3600 : Nat) % SECOND_PER_MINUTE) = rest % 60 := by
  have day : u32 ((rest % 86400 : Nat) : Int) = rest % 86400 := u32_eq rfl (by omega)
  have hour : u32 ((rest % 3600 : Nat) : Int) = rest % 3600 := u32_eq rfl (by omega)
  simp only [SECOND_PER_DAY,SECOND_PER_HOUR,SECOND_PER_MINUTE,value,day,hour]
  refine ⟨i32_eq ?_ ?_,u8_eq ?_ ?_,i32_eq ?_ ?_,u8_eq ?_ ?_,u8_eq ?_ ?_⟩
  all_goals omega

/-- The seconds of the year that are over, as the source adds them up. -/
theorem total_seconds {t : RtcTime} (valid : Valid t) (small : t.dateTime.seconds t.year < 2^31) :
    i32 ((List.range' 1 (t.mon-1)).foldl (fun total i => i32 (total+get_month_day t.year i*SECOND_PER_DAY)) (0 : Int)
      +(((t.day : Int)-1)*SECOND_PER_DAY+t.hour*SECOND_PER_HOUR+t.min*SECOND_PER_MINUTE+t.sec))
      = (t.dateTime.seconds t.year : Nat) := by
  obtain ⟨low,high⟩ := valid.century
  obtain ⟨first,last⟩ := valid.date.month
  have start : 1 ≤ t.day := valid.date.day.1
  simp only [RtcTime.dateTime] at first last
  have inYear : t.dateTime.seconds t.year = _ := t.dateTime.seconds_month
  have months := (total_spec low high (n := t.mon-1) (by omega)).1
  rw [Nat.sub_add_cancel first] at months
  apply i32_eq _ small
  rw [months,inYear]
  simp only [RtcTime.dateTime,DateTime.clock,SECOND_PER_DAY,SECOND_PER_HOUR,SECOND_PER_MINUTE]
  push_cast [Nat.cast_sub start]
  ring

/-- The seconds since midnight, whether the interval has wrapped around or not. -/
theorem passed_spec (t : RtcTime) {interval : Int} {n : Nat} (same : interval % 4294967296 = n % 4294967296)
    (small : n+t.dateTime.clock < 2^32) :
    u32 (interval+t.hour*SECOND_PER_HOUR+t.min*SECOND_PER_MINUTE+t.sec) = n+t.dateTime.clock := by
  have clock : (t.hour*SECOND_PER_HOUR+t.min*SECOND_PER_MINUTE+t.sec : Int) = (t.dateTime.clock : Nat) := by
    simp only [RtcTime.dateTime,DateTime.clock,SECOND_PER_HOUR,SECOND_PER_MINUTE]
    push_cast
    ring
  rw [add_assoc,add_assoc,← add_assoc (_*_ : Int),clock]
  unfold u32
  omega

/-- The day of the week moves on with the days. -/
theorem week_spec {week passed : Nat} (known : 1 ≤ week ∧ week ≤ 7) (small : passed < 2^32) :
    (if u8 (u32 (week+(passed : Int)/SECOND_PER_DAY) % 7) = 0 then 7
      else u8 (u32 (week+(passed : Int)/SECOND_PER_DAY) % 7)) = (week-1+passed/86400) % 7+1 := by
  have sum : u32 ((week : Int)+(passed : Int)/SECOND_PER_DAY) = week+passed/86400 := by
    apply u32_eq
    · simp only [SECOND_PER_DAY,SECOND_PER_HOUR,SECOND_PER_MINUTE]
      omega
    · omega
  have day : u8 (((week+passed/86400 : Nat) : Int) % 7) = (week+passed/86400) % 7 := u8_eq (by omega) (by omega)
  rw [sum,day]
  split <;> omega

/-! ### The time afterwards -/

/-- The first second of 2100. -/
def turn : DateTime := ⟨2100,1,1,0,0,0⟩

theorem turn_seconds : turn.seconds 2000 = ∑ year ∈ Finset.Ico 2000 2100, 86400*yearDays year :=
  newYear_seconds 2000 2100

/-- The time as it is found, with the year, the month and the seconds left in it. -/
def found (year mon rest week : Nat) : RtcTime :=
  ⟨year,mon,1+rest/86400,rest % 86400/3600,rest % 3600/60,rest % 60,week⟩

theorem found_seconds (year mon rest week : Nat) (epoch : Nat) : (found year mon rest week).dateTime.seconds epoch
    = ∑ k ∈ Finset.Ico epoch year, 86400*yearDays k+(∑ k ∈ Finset.Ico 1 mon, 86400*monthDays year k+rest) := by
  rw [DateTime.seconds_year,DateTime.seconds_month]
  simp only [found,RtcTime.dateTime,DateTime.clock]
  omega

theorem found_valid {year mon rest week : Nat} (century : 2000 ≤ year ∧ year < 2100) (month : 1 ≤ mon ∧ mon ≤ 12)
    (small : rest < 86400*monthDays year mon) (day : 1 ≤ week ∧ week ≤ 7) : Valid (found year mon rest week) := by
  refine ⟨century,⟨month,?_,?_,?_,?_⟩,day⟩
  all_goals simp only [found,RtcTime.dateTime]
  all_goals omega

/-- The time that `interval2time` puts together from what its loops leave. -/
theorem interval2time_parts {t : RtcTime} {interval sum left rest : Int} {passed year mon seconds : Nat}
    (clock : u32 (interval+t.hour*SECOND_PER_HOUR+t.min*SECOND_PER_MINUTE+t.sec) = passed)
    (total : i32 (interval+i32 ((List.range' 1 (t.mon-1)).foldl
        (fun total i => i32 (total+get_month_day t.year i*SECOND_PER_DAY)) (0 : Int)
      +(((t.day : Int)-1)*SECOND_PER_DAY+t.hour*SECOND_PER_HOUR+t.min*SECOND_PER_MINUTE+t.sec))) = sum)
    (years : yearLoop sum t.year = (left,year)) (months : monthLoop year 11 1 left 1 = (rest,mon))
    (value : u32 rest = seconds) (known : 1 ≤ t.week ∧ t.week ≤ 7) (small : passed < 2^32) :
    interval2time interval t
      = { found year mon seconds ((t.week-1+passed/86400) % 7+1) with day := u8 (1+(seconds : Int)/SECOND_PER_DAY) } := by
  obtain ⟨daySeconds,hour,hourSeconds,minute,second⟩ := rest_spec value
  rw [value] at daySeconds
  simp only [interval2time,clock,total,years,months,value,daySeconds,hour,hourSeconds,minute,second]
  rw [found,← week_spec known small]

/-- What the parts of `interval2time` make of a valid time. -/
theorem interval2time_found {t : RtcTime} (valid : Valid t) {interval : Nat}
    (small : interval+t.dateTime.seconds t.year < 2^31)
    (century : interval+t.dateTime.seconds t.year < ∑ k ∈ Finset.Ico t.year 2100, 86400*yearDays k) :
    ∃ year mon r rest, interval2time interval t
        = found year mon rest ((t.week-1+(interval+t.dateTime.clock)/86400) % 7+1)
      ∧ year < 2100 ∧ mon ≤ 12 ∧ rest < 86400*monthDays year mon
      ∧ Peeled (fun k => 86400*yearDays k) t.year (interval+t.dateTime.seconds t.year) year r
      ∧ Peeled (fun k => 86400*monthDays year k) 1 r mon rest := by
  have low := valid.century.1
  have total := total_seconds valid (Nat.lt_of_le_of_lt (Nat.le_add_left _ interval) small)
  have sum : i32 ((interval : Int)+(t.dateTime.seconds t.year : Nat)) = (interval+t.dateTime.seconds t.year : Nat) :=
    i32_eq (Int.natCast_add _ _).symm small
  have clock := Nat.lt_of_le_of_lt (Nat.add_le_add_left (t.dateTime.clock_le t.year) interval) small
  have passed := passed_spec t rfl (Nat.lt_trans clock (by decide))
  obtain ⟨year,r,years,before,inside,peeled⟩ := yearLoop_spec (2100-t.year) low (by have := valid.century.2; omega) century
  have order := peeled.order
  rw [← sum_months,Finset.mul_sum] at inside
  obtain ⟨mon,rest,run,twelve,left,peeled'⟩ := @monthLoop_spec year (by omega) before 11 1 r (by omega) (by omega) inside
  have days := monthDays_le year mon
  have value : u32 (rest : Int) = rest := u32_eq rfl (by omega)
  have day : u8 (1+(rest : Int)/SECOND_PER_DAY) = 1+rest/86400 := by
    simp only [SECOND_PER_DAY,SECOND_PER_HOUR,SECOND_PER_MINUTE]
    exact u8_eq (by omega) (by omega)
  rw [← total] at sum
  refine ⟨year,mon,r,rest,?_,before,twelve,left,peeled,peeled'⟩
  rw [interval2time_parts passed sum years run value valid.week (Nat.lt_trans clock (by decide)),day]
  rfl

theorem before_turn {t : RtcTime} (valid : Valid t) {interval : Nat}
    (century : t.dateTime.seconds 2000+interval < turn.seconds 2000) :
    interval+t.dateTime.seconds t.year < ∑ k ∈ Finset.Ico t.year 2100, 86400*yearDays k := by
  obtain ⟨low,high⟩ := valid.century
  rw [turn_seconds,DateTime.seconds_year,← Finset.sum_Ico_consecutive _ low (Nat.le_of_lt high),Nat.add_assoc] at century
  rw [Nat.add_comm]
  exact Nat.lt_of_add_lt_add_left century

/-- The years and months that were taken off make up the time. -/
theorem peeled_seconds {t : RtcTime} (valid : Valid t) {interval year mon r rest : Nat}
    (years : Peeled (fun k => 86400*yearDays k) t.year (interval+t.dateTime.seconds t.year) year r)
    (months : Peeled (fun k => 86400*monthDays year k) 1 r mon rest) (week : Nat) :
    (found year mon rest week).dateTime.seconds 2000 = t.dateTime.seconds 2000+interval :=
  calc (found year mon rest week).dateTime.seconds 2000
      = ∑ k ∈ Finset.Ico 2000 year, 86400*yearDays k+r := by rw [found_seconds,← months.total]
    _ = ∑ k ∈ Finset.Ico 2000 t.year, 86400*yearDays k+(∑ k ∈ Finset.Ico t.year year, 86400*yearDays k+r) := by
      rw [← Finset.sum_Ico_consecutive _ valid.century.1 years.order,Nat.add_assoc]
    _ = ∑ k ∈ Finset.Ico 2000 t.year, 86400*yearDays k+(interval+t.dateTime.seconds t.year) := by rw [← years.total]
    _ = t.dateTime.seconds 2000+interval := by
      rw [DateTime.seconds_year 2000 t.dateTime,Nat.add_comm interval,← Nat.add_assoc]
      rfl

theorem interval2time_spec {t : RtcTime} (valid : Valid t) {n : Nat} (small : n+t.dateTime.seconds t.year < 2^31)
    (century : t.dateTime.seconds 2000+n < turn.seconds 2000) :
    Valid (interval2time n t) ∧ (interval2time n t).dateTime.seconds 2000 = t.dateTime.seconds 2000+n
      ∧ (interval2time n t).week = (t.week-1+(n+t.dateTime.clock)/86400) % 7+1 := by
  obtain ⟨year,mon,r,rest,result,last,twelve,left,years,months⟩ :=
    interval2time_found valid small (before_turn valid century)
  rw [result]
  refine ⟨?_,peeled_seconds valid years months _,rfl⟩
  exact found_valid ⟨Nat.le_trans valid.century.1 years.order,last⟩ ⟨months.order,twelve⟩ left ⟨by omega,by omega⟩

/-- From a valid time on, `interval2time` finds the time that many seconds later, as
    long as it lies before 2100 and the seconds fit an `int`, and moves the day of the
    week on by the midnights in between. -/
theorem interval2time_exact {t : RtcTime} (valid : Valid t) {interval : Int} (forward : 0 ≤ interval)
    (small : interval+t.dateTime.seconds t.year < 2^31)
    (century : t.dateTime.seconds 2000+interval < turn.seconds 2000) :
    Valid (interval2time interval t)
      ∧ ((interval2time interval t).dateTime.seconds 2000 : Int) = t.dateTime.seconds 2000+interval
      ∧ (interval2time interval t).week
        = (t.week-1+midnights (t.dateTime.seconds 2000) ((interval2time interval t).dateTime.seconds 2000)) % 7+1 := by
  obtain ⟨n,rfl⟩ := Int.eq_ofNat_of_zero_le forward
  obtain ⟨valid',seconds,week⟩ := @interval2time_spec t valid n (by exact_mod_cast small) (by exact_mod_cast century)
  rw [seconds,midnights_eq valid.date,week]
  refine ⟨valid',?_,rfl⟩
  push_cast
  rfl

/-- One second before the leap day of 2096. -/
def eve : RtcTime := ⟨2096,2,28,23,59,59,2⟩

theorem eve_valid : Valid eve := by decide

theorem interval2time_eve : Valid (interval2time 1 eve)
    ∧ ((interval2time 1 eve).dateTime.seconds 2000 : Int) = eve.dateTime.seconds 2000+1 := by
  obtain ⟨valid,seconds,-⟩ := interval2time_exact eve_valid (show (0 : Int) ≤ 1 by decide) (by decide +kernel)
    (by decide +kernel)
  exact ⟨valid,seconds⟩

/-! ### Seconds that do not fit -/

theorem yearLoop_negative {interval : Int} (negative : interval < 0) (year : Nat) :
    yearLoop interval year = (interval,year) := by
  rw [yearLoop,if_neg (by omega)]

theorem monthLoop_negative {interval : Int} (negative : interval < 0) (year left i mon : Nat) :
    monthLoop year left i interval mon = (interval,mon) := by
  cases left with
  | zero => rfl
  | succ left => exact if_neg (by omega)

/-- Where the seconds since the start of the year pass an `int`, they turn negative: no
    year and no month is taken off, and all of them are taken for days. -/
theorem interval2time_wrapped {t : RtcTime} (valid : Valid t) {n : Nat}
    (large : 2^31 ≤ n+t.dateTime.seconds t.year) (fits : n+t.dateTime.seconds t.year < 2^32) :
    interval2time (i32 n) t
      = { found t.year 1 (n+t.dateTime.seconds t.year) ((t.week-1+(n+t.dateTime.clock)/86400) % 7+1) with
          day := (1+(n+t.dateTime.seconds t.year)/86400) % 256 } := by
  have below : t.dateTime.seconds t.year < 2^31 := Nat.lt_trans valid.year_small (by norm_num)
  have total := total_seconds valid below
  have clock := Nat.lt_of_le_of_lt (Nat.add_le_add_left (t.dateTime.clock_le t.year) n) fits
  have passed := passed_spec t (i32_mod n) clock
  generalize t.dateTime.seconds t.year = total' at *
  norm_num at large fits
  have same : (i32 n+(total' : Nat)) % 4294967296 = (n+total' : Nat) := by
    rw [Int.add_emod,i32_mod,← Int.add_emod,← Int.natCast_add]
    exact_mod_cast Nat.mod_eq_of_lt fits
  have sum := i32_wrapped same large
  have negative : ((n+total' : Nat) : Int)-4294967296 < 0 := Int.sub_neg_of_lt (by exact_mod_cast fits)
  have value := u32_wrapped fits
  -- from here on only the sign of the sum counts, and what is left of it unsigned
  generalize ((n+total' : Nat) : Int)-4294967296 = interval at sum negative value
  have day : u8 (1+((n+total' : Nat) : Int)/SECOND_PER_DAY) = (1+(n+total')/86400) % 256 := by
    simp only [SECOND_PER_DAY,SECOND_PER_HOUR,SECOND_PER_MINUTE,u8]
    omega
  rw [← total] at sum
  rw [interval2time_parts passed sum (yearLoop_negative negative t.year) (monthLoop_negative negative t.year 11 1 1)
    value valid.week clock,day]

end Ucm108e.Clock
