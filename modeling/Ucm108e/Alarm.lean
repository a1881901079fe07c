import Mathlib
import Ucm108e.Registers
import Ucm108e.Clock

/-!
The alarm of the clock in `uc_rtc.c`. A time lies in two registers, packed by
`RTC_MAKE_HMS` and `RTC_MAKE_YMDW`, and the alarm has a mask of seven bits in its control
register. `rtc_set_alarm` keeps the mask that was there and adds the new one. `rc32k_alarm`
packs the time by itself, with one bit less for the year, and always one second from now.
-/
namespace Ucm108e.Alarm
open Ucm108e.Words Ucm108e.Registers Ucm108e.Bytes Ucm108e.Calendar Ucm108e.Clock
set_option linter.unusedSimpArgs false

def RTC_YEAR_BASE : Nat := 2000

/-- `RTC_TypeDef`. -/
structure Rtc where
  CTRL : Word
  TIM0 : Word
  TIM1 : Word
  TS0 : Word
  TS1 : Word
  AS0 : Word
  AS1 : Word
  ACTRL : Word
  deriving DecidableEq

/-- `rtc_alarm_t`: the fields of a time, and the mask. -/
structure RtcAlarm extends RtcTime where
  mask : Word
  deriving DecidableEq

def RTC_MAKE_YMDW (y m d w : Nat) : Word :=
  (BitVec.ofNat 32 w &&& 0x07#32) ||| ((BitVec.ofNat 32 d &&& 0x1f#32) <<< 4) ||| ((BitVec.ofNat 32 m &&& 0x0f#32) <<< 12)
    ||| (((BitVec.ofNat 32 y-BitVec.ofNat 32 RTC_YEAR_BASE) &&& 0x7f#32) <<< 16)

def RTC_MAKE_HMS (h m s : Nat) : Word :=
  (BitVec.ofNat 32 s &&& 0x3f#32) ||| ((BitVec.ofNat 32 m &&& 0x3f#32) <<< 8) ||| ((BitVec.ofNat 32 h &&& 0x1f#32) <<< 16)

/-- The time in two words, as `rtc_get_time` and `rtc_get_alarm` take it apart. -/
def unpacked (tm0 tm1 : Word) : RtcTime where
  year := ((tm1 >>> 16) &&& 0x7f#32).toNat+RTC_YEAR_BASE
  mon := ((tm1 >>> 12) &&& 0x0f#32).toNat
  day := ((tm1 >>> 4) &&& 0x1f#32).toNat
  week := (tm1 &&& 0x07#32).toNat
  hour := ((tm0 >>> 16) &&& 0x1f#32).toNat
  min := ((tm0 >>> 8) &&& 0x3f#32).toNat
  sec := (tm0 &&& 0x3f#32).toNat

/-- `rtc_get_time`; the wait is over when the clock has taken bit 2 back. -/
def rtc_get_time (r : Rtc) : Rtc × RtcTime :=
  ({ r with CTRL := (r.CTRL ||| (1#32 <<< 2)) &&& ~~~(1#32 <<< 2) },unpacked r.TIM0 r.TIM1)

def rtc_set_alarm (a : RtcAlarm) (r : Rtc) : Rtc :=
  let r := { r with AS0 := RTC_MAKE_HMS a.hour a.min a.sec, AS1 := RTC_MAKE_YMDW a.year a.mon a.day a.week }
  let r := { r with ACTRL := (r.ACTRL &&& 0x7f#32) ||| a.mask }
  let r := { r with ACTRL := r.ACTRL ||| BIT 12 }
  { r with ACTRL := r.ACTRL ||| (1#32 <<< 8) }

def rtc_get_alarm (r : Rtc) : RtcAlarm := { unpacked r.AS0 r.AS1 with mask := r.ACTRL &&& 0x7f#32 }

/-- The enabled interrupts, and those whose pending bit is to be cleared. -/
structure Events where
  IER : Word
  ICP : Word
  deriving DecidableEq

/-- `rc32k_alarm` up to its wait for the alarm. The seconds are not used. -/
def rc32k_alarm (_seconds : UInt32) (r : Rtc) (e : Events) : Rtc × Events :=
  let (r,rtc_time) := rtc_get_time r
  let rtc_time := interval2time 1 rtc_time
  let year := if rtc_time.year ≥ 2000 then rtc_time.year-2000 else rtc_time.year
  let AS0 := ((BitVec.ofNat 32 rtc_time.hour &&& 0x1f#32) <<< 16) ||| ((BitVec.ofNat 32 rtc_time.min &&& 0x3f#32) <<< 8)
    ||| (BitVec.ofNat 32 rtc_time.sec &&& 0x3f#32)
  let AS1 := ((BitVec.ofNat 32 year &&& 0x3f#32) <<< 16) ||| ((BitVec.ofNat 32 rtc_time.mon &&& 0xf#32) <<< 12)
    ||| ((BitVec.ofNat 32 rtc_time.day &&& 0x1f#32) <<< 4) ||| (BitVec.ofNat 32 rtc_time.week &&& 0x7#32)
  let r := { r with AS0 := AS0, AS1 := AS1 }
  let r := { r with ACTRL := r.ACTRL ||| BIT 8 }
  (r,{ e with IER := e.IER ||| BIT 0, ICP := e.ICP ||| BIT 0 })

/-! ### Packing -/

/-- The times whose fields fit the registers. -/
structure Fits (t : RtcTime) : Prop where
  year : 2000 ≤ t.year ∧ t.year < 2128
  mon : t.mon < 16
  day : t.day < 32
  hour : t.hour < 32
  min : t.min < 64
  sec : t.sec < 64
  week : t.week < 8

theorem ofNat_and_toNat {mask : Word} {n : Nat} (ones : mask.toNat = 2^n-1) {x : Nat} (small : x < 2^n)
    (narrow : n ≤ 32) : (BitVec.ofNat 32 x &&& mask).toNat = x := by
  have fits : x < 2^32 := Nat.lt_of_lt_of_le small (Nat.pow_le_pow_right (by decide) narrow)
  rw [and_toNat ones,BitVec.toNat_ofNat,Nat.mod_eq_of_lt fits,Nat.mod_eq_of_lt small]

theorem hms_toNat {t : RtcTime} (fits : Fits t) :
    (RTC_MAKE_HMS t.hour t.min t.sec).toNat = t.sec+2^8*t.min+2^16*t.hour := by
  obtain ⟨-,-,-,hour,min,sec,-⟩ := fits
  have minutes := or_shiftLeft_toNat (@ofNat_and_toNat 0x3f#32 6 rfl t.sec sec (by decide))
    (@ofNat_and_toNat 0x3f#32 6 rfl t.min min (by decide)) (show t.sec < 2^8 by omega) (by omega)
  exact or_shiftLeft_toNat minutes (@ofNat_and_toNat 0x1f#32 5 rfl t.hour hour (by decide))
    (show t.sec+2^8*t.min < 2^16 by omega) (by omega)

theorem ymdw_toNat {t : RtcTime} (fits : Fits t) :
    (RTC_MAKE_YMDW t.year t.mon t.day t.week).toNat = t.week+2^4*t.day+2^12*t.mon+2^16*(t.year-2000) := by
  obtain ⟨⟨base,year⟩,mon,day,-,-,-,week⟩ := fits
  have since : BitVec.ofNat 32 t.year-BitVec.ofNat 32 RTC_YEAR_BASE = BitVec.ofNat 32 (t.year-2000) := by
    apply BitVec.eq_of_toNat_eq
    simp only [RTC_YEAR_BASE,BitVec.toNat_sub,BitVec.toNat_ofNat]
    omega
  have days := or_shiftLeft_toNat (@ofNat_and_toNat 0x07#32 3 rfl t.week week (by decide))
    (@ofNat_and_toNat 0x1f#32 5 rfl t.day day (by decide)) (show t.week < 2^4 by omega) (by omega)
  have months := or_shiftLeft_toNat days (@ofNat_and_toNat 0x0f#32 4 rfl t.mon mon (by decide))
    (show t.week+2^4*t.day < 2^12 by omega) (by omega)
  rw [RTC_MAKE_YMDW,since]
  exact or_shiftLeft_toNat months (@ofNat_and_toNat 0x7f#32 7 rfl (t.year-2000) (by omega) (by decide))
    (show t.week+2^4*t.day+2^12*t.mon < 2^16 by omega) (by omega)

/-- A time that fits is taken apart as it was packed. -/
theorem unpacked_packed {t : RtcTime} (fits : Fits t) :
    unpacked (RTC_MAKE_HMS t.hour t.min t.sec) (RTC_MAKE_YMDW t.year t.mon t.day t.week) = t := by
  have low := hms_toNat fits
  have high := ymdw_toNat fits
  obtain ⟨⟨base,year⟩,mon,day,hour,min,sec,week⟩ := fits
  simp only [unpacked,RTC_YEAR_BASE,@shifted_toNat 0x7f#32 7 rfl,@shifted_toNat 0x0f#32 4 rfl,@shifted_toNat 0x1f#32 5 rfl,
    @shifted_toNat 0x3f#32 6 rfl,@and_toNat 0x07#32 3 rfl,@and_toNat 0x3f#32 6 rfl,low,high]
  cases t
  simp only [RtcTime.mk.injEq] at *
  omega

/-! ### Setting the alarm -/

/-- The alarms that `rtc_set_alarm` checks for, with a day of the week and a mask that exist. -/
structure RtcAlarm.Valid (a : RtcAlarm) : Prop where
  year : 2000 ≤ a.year ∧ a.year ≤ 2099
  mon : 1 ≤ a.mon ∧ a.mon ≤ 12
  day : a.day ≤ 31
  hour : a.hour ≤ 23
  min : a.min ≤ 59
  sec : a.sec ≤ 59
  week : 1 ≤ a.week ∧ a.week ≤ 7
  mask : a.mask.toNat < 128

theorem RtcAlarm.Valid.fits {a : RtcAlarm} (valid : a.Valid) : Fits a.toRtcTime := by
  obtain ⟨year,mon,day,hour,min,sec,week,-⟩ := valid
  exact ⟨by omega,by omega,by omega,by omega,by omega,by omega,by omega⟩

theorem mask_bit {i : Nat} (small : i < 32) : (0x7f#32).getLsbD i = decide (i < 7) := by
  have bits : 0x7f#32 = MASK 6 0 := rfl
  rw [bits,MASK_bit 6 0 small]
  simp
  omega

/-- The mask that is read back: the bits that were there and the new ones. -/
theorem alarm_mask {a : RtcAlarm} (valid : a.Valid) (r : Rtc) :
    (rtc_get_alarm (rtc_set_alarm a r)).mask = (r.ACTRL &&& 0x7f#32) ||| a.mask := by
  refine BitVec.eq_of_getLsbD_eq fun i small => ?_
  have high : 7 ≤ i → a.mask.getLsbD i = false := high_bit valid.mask
  simp only [rtc_get_alarm,rtc_set_alarm,BitVec.getLsbD_and,BitVec.getLsbD_or,mask_bit small]
  by_cases low : i < 7
  · have enable : (1#32 <<< 8).getLsbD i = false := BIT_bit (by omega)
    rw [enable,@BIT_bit 12 i (by omega)]
    simp [low]
  · simp [low,high (by omega)]

theorem alarm_time {a : RtcAlarm} (valid : a.Valid) (r : Rtc) :
    (rtc_get_alarm (rtc_set_alarm a r)).toRtcTime = a.toRtcTime := unpacked_packed valid.fits

theorem alarm_ext {a b : RtcAlarm} (time : a.toRtcTime = b.toRtcTime) (mask : a.mask = b.mask) : a = b := by
  cases a
  cases b
  cases time
  cases mask
  rfl

/-- Over alarms set one after the other, the masks add up. -/
theorem alarms_accumulate (alarms : List RtcAlarm) : ∀ r : Rtc, (∀ a ∈ alarms, a.Valid) →
    (rtc_get_alarm (alarms.foldl (fun r a => rtc_set_alarm a r) r)).mask
      = alarms.foldl (fun mask a => mask ||| a.mask) (r.ACTRL &&& 0x7f#32) := by
  induction alarms with
  | nil => exact fun _ _ => rfl
  | cons a alarms ih =>
    intro r valid
    rw [List.forall_mem_cons] at valid
    have first := alarm_mask valid.1 r
    rw [List.foldl_cons,List.foldl_cons,ih _ valid.2,← first]
    rfl

/-- The time of an alarm is read back as it was set. The mask is read back if and only if
    it has all the bits of the mask that was there before. -/
theorem alarm_read_back_iff {a : RtcAlarm} (valid : a.Valid) (r : Rtc) :
    (rtc_get_alarm (rtc_set_alarm a r)).toRtcTime = a.toRtcTime
      ∧ (rtc_get_alarm (rtc_set_alarm a r) = a
        ↔ ∀ i < 7, r.ACTRL.getLsbD i = true → a.mask.getLsbD i = true) := by
  refine ⟨alarm_time valid r,?_,?_⟩
  · intro same i low set
    have mask := alarm_mask valid r
    rw [same] at mask
    rw [mask,BitVec.getLsbD_or,BitVec.getLsbD_and,set,mask_bit (by omega)]
    simp [low]
  · intro among
    refine alarm_ext (alarm_time valid r) ((alarm_mask valid r).trans ?_)
    refine BitVec.eq_of_getLsbD_eq fun i small => ?_
    rw [BitVec.getLsbD_or,BitVec.getLsbD_and,mask_bit small]
    by_cases low : i < 7
    · cases set : r.ACTRL.getLsbD i
      · rfl
      · simp [among i low set]
    · simp [low]

/-- The last day of 2099, for the hour and the minute. -/
def lastDay : RtcAlarm := ⟨⟨2099,12,31,23,59,0,4⟩,6⟩

theorem lastDay_valid : lastDay.Valid := by
  refine ⟨?_,?_,?_,?_,?_,?_,?_,?_⟩ <;> decide

/-- The registers of a clock whose alarm has a mask. -/
def masked (mask : Word) : Rtc := ⟨0,0,0,0,0,0,0,mask⟩

theorem lastDay_read_back : rtc_get_alarm (rtc_set_alarm lastDay (masked 2)) = lastDay :=
  (alarm_read_back_iff lastDay_valid (masked 2)).2.mpr (by decide)

/-- The bit for the seconds was set before, and stays. -/
theorem mask_left : lastDay.Valid ∧ rtc_get_alarm (rtc_set_alarm lastDay (masked 1)) = { lastDay with mask := 7 }
    ∧ rtc_get_alarm (rtc_set_alarm lastDay (masked 1)) ≠ lastDay :=
  ⟨lastDay_valid,by decide,by decide⟩

/-! ### The alarm of the calibration -/

/-- The time with the year that six bits keep. -/
def cutYear (t : RtcTime) : RtcTime := { t with year := 2000+(t.year-2000) % 64 }

theorem cutYear_fits {t : RtcTime} (fits : Fits t) : Fits (cutYear t) := by
  obtain ⟨year,mon,day,hour,min,sec,week⟩ := fits
  constructor
  all_goals simp only [cutYear]
  all_goals omega

theorem year_bits (year : Nat) :
    BitVec.ofNat 32 year &&& 0x3f#32 = (BitVec.ofNat 32 (2000+year % 64)-BitVec.ofNat 32 RTC_YEAR_BASE) &&& 0x7f#32 := by
  apply BitVec.eq_of_toNat_eq
  rw [@and_toNat 0x3f#32 6 rfl,@and_toNat 0x7f#32 7 rfl]
  simp only [RTC_YEAR_BASE,BitVec.toNat_sub,BitVec.toNat_ofNat]
  omega

theorem valid_fits {t : RtcTime} (valid : Clock.Valid t) : Fits t := by
  obtain ⟨century,⟨month,day,hour,minute,second⟩,week⟩ := valid
  have days := Nat.le_trans day.2 (monthDays_le _ _)
  simp only [RtcTime.dateTime] at month days hour minute second
  exact ⟨by omega,by omega,by omega,by omega,by omega,by omega,by omega⟩

theorem or_three (a b c : Word) : a ||| b ||| c = c ||| b ||| a := by ac_rfl

theorem or_four (a b c d : Word) : a ||| b ||| c ||| d = d ||| c ||| b ||| a := by ac_rfl

/-- Whatever the seconds are, the alarm is set for the next second, up to its year. -/
theorem armed_spec (seconds : UInt32) {r : Rtc} (e : Events) (valid : Clock.Valid (interval2time 1 (rtc_get_time r).2)) :
    (rtc_get_alarm (rc32k_alarm seconds r e).1).toRtcTime = cutYear (interval2time 1 (rtc_get_time r).2) := by
  have fits := cutYear_fits (valid_fits valid)
  have low : (interval2time 1 (rtc_get_time r).2).year ≥ 2000 := valid.century.1
  refine Eq.trans ?_ (unpacked_packed fits)
  simp only [rtc_get_alarm,rc32k_alarm,if_pos low]
  generalize interval2time 1 (rtc_get_time r).2 = t
  -- the source lists the fields from the top, the macros from the bottom
  rw [or_three,or_four,year_bits (t.year-2000)]
  simp only [cutYear,RTC_MAKE_HMS,RTC_MAKE_YMDW]

theorem cutYear_early {t : RtcTime} (valid : Clock.Valid t) (early : t.year < 2064) : cutYear t = t := by
  have low := valid.century.1
  have year : 2000+(t.year-2000) % 64 = t.year := by omega
  rw [cutYear,year]

/-- From 2064 on, the year that is kept is one that is over. -/
theorem cutYear_late {t : RtcTime} (valid : Clock.Valid t) (late : 2064 ≤ t.year) :
    (cutYear t).dateTime.seconds 2000 < t.dateTime.seconds 2000 := by
  obtain ⟨⟨low,high⟩,⟨month,day,hour,minute,second⟩,-⟩ := valid
  have earlier : (cutYear t).dateTime.year < t.dateTime.year := by
    simp only [cutYear,RtcTime.dateTime]
    omega
  -- 64 years earlier the months are as long, so the date exists there too
  have leap : Leap (2000+(t.year-2000) % 64) ↔ Leap t.year := by
    unfold Leap
    omega
  have days : monthDays (2000+(t.year-2000) % 64) t.mon = monthDays t.year t.mon := by
    unfold monthDays
    rw [if_congr leap rfl rfl]
  have valid' : (cutYear t).dateTime.Valid := by
    simp only [RtcTime.dateTime] at month day hour minute second
    constructor
    all_goals simp only [cutYear,RtcTime.dateTime,days]
    all_goals omega
  exact valid'.seconds_mono (Nat.le_add_right 2000 _) earlier

/-- What `interval2time` gives for the next second. -/
theorem next_spec {now : RtcTime} (valid : Clock.Valid now) (century : now.dateTime.seconds 2000+1 < turn.seconds 2000) :
    Clock.Valid (interval2time 1 now) ∧ (interval2time 1 now).dateTime.seconds 2000 = now.dateTime.seconds 2000+1
      ∧ (interval2time 1 now).week = (now.week-1+(1+now.dateTime.clock)/86400) % 7+1 := by
  have small := valid.year_small
  exact @interval2time_spec now valid 1 (by omega) century

/-- The alarm is set for the requested moment only one second ahead, in a year before 2064. -/
theorem cutYear_moment {now next : RtcTime} (valid : Clock.Valid next)
    (moved : next.dateTime.seconds 2000 = now.dateTime.seconds 2000+1) {n : Nat} (later : 1 ≤ n) :
    (cutYear next).dateTime.seconds 2000 = now.dateTime.seconds 2000+n ↔ n = 1 ∧ next.year < 2064 := by
  rcases Nat.lt_or_ge next.year 2064 with early | late
  · rw [cutYear_early valid early,moved]
    omega
  · have less := cutYear_late valid late
    omega

/-! ### Where the seconds overflow -/

/-- The requests for which `interval2time` overflows and comes back to the next second: in
    January, a multiple of 256 days and of 7 days later. -/
def Overflowed (now : RtcTime) (n : Nat) : Prop :=
  now.dateTime.seconds now.year+1 < 86400*31 ∧ 2^31 ≤ n ∧ n % (86400*256*7) = 1

theorem whole_days {n total day hour min sec : Nat} (hours : hour < 24) (minutes : min < 60) (seconds : sec < 60)
    (next : total+1 = 86400*(day-1)+(3600*hour+60*min+sec)) (some_seconds : 1 ≤ n) :
    (hour = (n+total) % 86400/3600 ∧ min = (n+total) % 3600/60 ∧ sec = (n+total) % 60) ↔ ∃ k, n = 1+86400*k := by
  constructor
  · rintro ⟨isHour,isMin,isSec⟩
    exact ⟨(n-1)/86400,by omega⟩
  · rintro ⟨k,rfl⟩
    have sum : 1+86400*k+total = 86400*(day-1+k)+(3600*hour+60*min+sec) := by omega
    rw [sum]
    omega

theorem day_kept {total day clock k : Nat} (first : 1 ≤ day) (last : day ≤ 31) (inDay : clock < 86400)
    (next : total+1 = 86400*(day-1)+clock) : day = (1+(1+86400*k+total)/86400) % 256 ↔ k % 256 = 0 := by
  have sum : (1+86400*k+total)/86400 = day-1+k := by omega
  rw [sum]
  omega

theorem week_kept (week clock k : Nat) :
    (week+(1+clock)/86400) % 7 = (week+(1+86400*k+clock)/86400) % 7 ↔ k % 7 = 0 := by
  have sum : (1+86400*k+clock)/86400 = (1+clock)/86400+k := by omega
  rw [sum]
  omega

theorem both_kept {total k : Nat} (january : total < 86400*31) (large : 2^31 ≤ 1+86400*k+total) :
    k % 256 = 0 ∧ k % 7 = 0 ↔ 2^31 ≤ 1+86400*k ∧ (1+86400*k) % (86400*256*7) = 1 := by
  omega

/-- The next second of a year, in January. -/
theorem january_seconds {now next : RtcTime} (moved : next.dateTime.seconds 2000 = now.dateTime.seconds 2000+1)
    (year : next.year = now.year) (january : next.mon = 1) :
    now.dateTime.seconds now.year+1 = 86400*(next.day-1)+(3600*next.hour+60*next.min+next.sec) := by
  have month := next.dateTime.seconds_month
  rw [DateTime.seconds_year 2000 next.dateTime,DateTime.seconds_year 2000 now.dateTime] at moved
  simp only [RtcTime.dateTime,DateTime.clock,year,january,Finset.Ico_self,Finset.sum_empty] at moved month ⊢
  omega

/-- The next second lies in the year of the clock or in the one that follows. -/
theorem next_year {now next : RtcTime} (valid : Clock.Valid now)
    (moved : next.dateTime.seconds 2000 = now.dateTime.seconds 2000+1) : next.year ≤ now.year+1 := by
  by_contra far
  have before := valid.date.seconds_mono valid.century.1 (show now.dateTime.year < (newYear (now.year+1)).year from
    Nat.lt_succ_self _)
  have behind := (newYear_valid (now.year+1)).seconds_mono (Nat.le_succ_of_le valid.century.1)
    (show (newYear (now.year+1)).year < next.dateTime.year from Nat.not_le.mp far)
  omega

/-- Before the last second of a year the next one is in the same year. -/
theorem year_kept {now next : RtcTime} (valid : Clock.Valid now) (nextValid : Clock.Valid next)
    (moved : next.dateTime.seconds 2000 = now.dateTime.seconds 2000+1)
    (inside : now.dateTime.seconds now.year+1 < 86400*yearDays now.year) : next.year = now.year := by
  have low := valid.century.1
  refine Nat.le_antisymm (Nat.le_of_lt_succ ?_) (Nat.not_lt.mp fun back => ?_)
  · refine (nextValid.date.year_lt_iff nextValid.century.1 (Nat.le_succ_of_le low)).mpr ?_
    rw [moved,newYear_seconds,DateTime.seconds_year,Finset.sum_Ico_succ_top low]
    simp only [RtcTime.dateTime] at inside ⊢
    omega
  · have := nextValid.date.seconds_mono nextValid.century.1 (show next.dateTime.year < now.dateTime.year from back)
    omega

/-- The next second lies in January of the year of the clock. -/
theorem january_iff {now next : RtcTime} (valid : Clock.Valid now) (nextValid : Clock.Valid next)
    (moved : next.dateTime.seconds 2000 = now.dateTime.seconds 2000+1) :
    now.dateTime.seconds now.year+1 < 86400*31 ↔ next.year = now.year ∧ next.mon = 1 := by
  constructor
  · intro january
    have sameYear : next.year = now.year := by
      refine year_kept valid nextValid moved ?_
      unfold yearDays
      split <;> omega
    refine ⟨sameYear,?_⟩
    by_contra other
    -- from February on the whole of January has passed
    have months := Finset.sum_eq_sum_Ico_succ_bot (show 1 < next.mon from lt_of_le_of_ne nextValid.date.month.1 (Ne.symm other))
      fun month => 86400*monthDays next.year month
    have whole : monthDays next.year 1 = 31 := rfl
    have month := next.dateTime.seconds_month
    have since := moved
    rw [DateTime.seconds_year 2000 next.dateTime,DateTime.seconds_year 2000 now.dateTime] at since
    simp only [RtcTime.dateTime,sameYear] at *
    omega
  · rintro ⟨sameYear,isJanuary⟩
    have clock := nextValid.date.clock_lt
    have last : next.day < 32 := (valid_fits nextValid).day
    rw [january_seconds moved sameYear isJanuary]
    simp only [RtcTime.dateTime,DateTime.clock] at clock
    omega

/-- The next second lies before 2064. -/
theorem early_iff {now next : RtcTime} (nextValid : Clock.Valid next)
    (moved : next.dateTime.seconds 2000 = now.dateTime.seconds 2000+1) :
    next.year < 2064 ↔ now.dateTime.seconds 2000+1 < (newYear 2064).seconds 2000 := by
  rw [← moved]
  exact nextValid.date.year_lt_iff nextValid.century.1 (by decide)

theorem wrapped_iff {now next : RtcTime} (valid : Clock.Valid now) (nextValid : Clock.Valid next)
    (moved : next.dateTime.seconds 2000 = now.dateTime.seconds 2000+1)
    (week : next.week = (now.week-1+(1+now.dateTime.clock)/86400) % 7+1) {n : Nat}
    (large : 2^31 ≤ n+now.dateTime.seconds now.year) :
    next = { found now.year 1 (n+now.dateTime.seconds now.year) ((now.week-1+(n+now.dateTime.clock)/86400) % 7+1) with
        day := (1+(n+now.dateTime.seconds now.year)/86400) % 256 } ↔ Overflowed now n := by
  rw [Overflowed,january_iff valid nextValid moved,and_assoc]
  have small := valid.year_small
  have fits := valid_fits nextValid
  obtain ⟨-,⟨-,day,hour,minute,second⟩,-⟩ := nextValid
  simp only [RtcTime.dateTime] at day hour minute second
  have january := @january_seconds now next moved
  obtain ⟨year,mon,d,h,m,s,w⟩ := next
  simp only [found,RtcTime.mk.injEq] at *
  refine and_congr_right fun sameYear => and_congr_right fun isJanuary => ?_
  have next := january sameYear isJanuary
  generalize now.dateTime.seconds now.year = total at *
  have clock : 3600*h+60*m+s < 86400 := by omega
  have last : d < 32 := fits.day
  have inJanuary : total < 86400*31 := by omega
  constructor
  · rintro ⟨isDay,isHour,isMinute,isSecond,isWeek⟩
    obtain ⟨k,rfl⟩ := (whole_days hour minute second next (by omega)).mp ⟨isHour,isMinute,isSecond⟩
    rw [week,Nat.add_right_cancel_iff] at isWeek
    exact (both_kept inJanuary large).mp ⟨(day_kept day.1 (Nat.le_of_lt_succ last) clock next).mp isDay,
      (week_kept _ _ k).mp isWeek⟩
  · rintro ⟨big,rem⟩
    obtain ⟨k,rfl⟩ : ∃ k, n = 1+86400*k := ⟨n/86400,by omega⟩
    obtain ⟨days,weeks⟩ := (both_kept inJanuary large).mpr ⟨big,rem⟩
    obtain ⟨isHour,isMinute,isSecond⟩ := (whole_days hour minute second next (by omega)).mpr ⟨k,rfl⟩
    refine ⟨(day_kept day.1 (Nat.le_of_lt_succ last) clock next).mpr days,isHour,isMinute,isSecond,?_⟩
    rw [week,(week_kept _ _ k).mpr weeks]

theorem turn_small : turn.seconds 2000 < 2^32 := by decide +kernel

/-- The next second with its year cut is what `interval2time` gives. -/
theorem cutYear_given {now : RtcTime} (valid : Clock.Valid now) {n : Nat} (later : 1 ≤ n)
    (century : now.dateTime.seconds 2000+n < turn.seconds 2000) :
    cutYear (interval2time 1 now) = interval2time (i32 n) now
      ↔ (interval2time 1 now).year < 2064 ∧ (n = 1 ∨ Overflowed now n) := by
  obtain ⟨nextValid,moved,week⟩ := next_spec valid (Nat.lt_of_le_of_lt (Nat.add_le_add_left later _) century)
  have inYear := valid.year_small
  rcases Nat.lt_or_ge (n+now.dateTime.seconds now.year) (2^31) with small | large
  · have value : i32 n = n := i32_eq rfl (by omega)
    have given := (interval2time_spec valid small century).2.1
    rw [value]
    constructor
    · intro same
      obtain ⟨one,early⟩ := (cutYear_moment nextValid moved later).mp (same.symm ▸ given)
      exact ⟨early,Or.inl one⟩
    · rintro ⟨early,rfl | overflowed⟩
      · exact cutYear_early nextValid early
      · have large : 2^31 ≤ n := overflowed.2.1
        exact absurd (Nat.le_add_right_of_le large) (Nat.not_le.mpr small)
  · have fits : n+now.dateTime.seconds now.year < 2^32 := by
      have bound := turn_small
      have since := now.dateTime.seconds_year 2000
      have own : now.dateTime.seconds now.dateTime.year = now.dateTime.seconds now.year := rfl
      omega
    rw [interval2time_wrapped valid large fits]
    constructor
    · intro same
      -- a year that was cut is 64 years off, and the overflow keeps the year of the clock
      have early : (interval2time 1 now).year < 2064 := by
        have near := next_year valid moved
        have year := congrArg RtcTime.year same
        simp only [cutYear,found] at year
        have := nextValid.century
        omega
      rw [cutYear_early nextValid early] at same
      exact ⟨early,Or.inr ((wrapped_iff valid nextValid moved week large).mp same)⟩
    · rintro ⟨early,rfl | overflowed⟩
      · omega
      · rw [cutYear_early nextValid early]
        exact (wrapped_iff valid nextValid moved week large).mpr overflowed

/-- The alarm is armed for the moment that many seconds from now if and only if that is
    one second, and the next second lies before 2064. Apart from that it agrees with `interval2time` only
    where that overflows. -/
theorem alarm_armed_iff {r : Rtc} (e : Events) {seconds : UInt32} (valid : Clock.Valid (rtc_get_time r).2)
    (later : 1 ≤ seconds.toNat)
    (century : (rtc_get_time r).2.dateTime.seconds 2000+seconds.toNat < turn.seconds 2000) :
    ((rtc_get_alarm (rc32k_alarm seconds r e).1).toRtcTime = interval2time (i32 seconds.toNat) (rtc_get_time r).2
        ↔ (rtc_get_time r).2.dateTime.seconds 2000+1 < (newYear 2064).seconds 2000
          ∧ (seconds.toNat = 1 ∨ Overflowed (rtc_get_time r).2 seconds.toNat))
      ∧ ((rtc_get_alarm (rc32k_alarm seconds r e).1).toRtcTime.dateTime.seconds 2000
          = (rtc_get_time r).2.dateTime.seconds 2000+seconds.toNat
        ↔ seconds.toNat = 1 ∧ (rtc_get_time r).2.dateTime.seconds 2000+1 < (newYear 2064).seconds 2000) := by
  obtain ⟨nextValid,moved,-⟩ := next_spec valid (Nat.lt_of_le_of_lt (Nat.add_le_add_left later _) century)
  rw [armed_spec seconds e nextValid,← early_iff nextValid moved]
  exact ⟨cutYear_given valid later century,cutYear_moment nextValid moved later⟩

/-- The registers of a clock that shows a time. -/
def showing (t : RtcTime) : Rtc :=
  ⟨0,RTC_MAKE_HMS t.hour t.min t.sec,RTC_MAKE_YMDW t.year t.mon t.day t.week,0,0,0,0,0⟩

theorem showing_valid {t : RtcTime} (valid : Clock.Valid t) : Clock.Valid (rtc_get_time (showing t)).2 := by
  have shows : (rtc_get_time (showing t)).2 = t := unpacked_packed (valid_fits valid)
  rw [shows]
  exact valid

/-- The time that `rc32k_autoset` sets before it measures. -/
def started : RtcTime := ⟨2020,1,1,0,0,0,3⟩

theorem started_valid : Clock.Valid started := by decide

/-- The same day in 2064. -/
def lateStart : RtcTime := ⟨2064,1,1,0,0,0,2⟩

theorem lateStart_valid : Clock.Valid lateStart := by decide

theorem alarm_started : (rtc_get_alarm (rc32k_alarm 1 (showing started) ⟨0,0⟩).1).toRtcTime
    = interval2time (i32 1) (rtc_get_time (showing started)).2 :=
  (alarm_armed_iff ⟨0,0⟩ (showing_valid started_valid) (show 1 ≤ (1 : UInt32).toNat by decide) (by decide +kernel)).1.mpr
    ⟨by decide +kernel,Or.inl rfl⟩

/-- Asked for two seconds, the alarm is set for one; asked for one second in 2064, it is set
    for 2000. -/
theorem alarm_missed :
    (Clock.Valid (rtc_get_time (showing started)).2 ∧ started.dateTime.seconds 2000+2 < turn.seconds 2000
      ∧ (rtc_get_alarm (rc32k_alarm 2 (showing started) ⟨0,0⟩).1).toRtcTime = ⟨2020,1,1,0,0,1,3⟩
      ∧ interval2time (i32 2) (rtc_get_time (showing started)).2 = ⟨2020,1,1,0,0,2,3⟩)
    ∧ (Clock.Valid (rtc_get_time (showing lateStart)).2 ∧ lateStart.dateTime.seconds 2000+1 < turn.seconds 2000
      ∧ (rtc_get_alarm (rc32k_alarm 1 (showing lateStart) ⟨0,0⟩).1).toRtcTime = ⟨2000,1,1,0,0,1,2⟩
      ∧ interval2time (i32 1) (rtc_get_time (showing lateStart)).2 = ⟨2064,1,1,0,0,1,2⟩) := by
  refine ⟨⟨showing_valid started_valid,?_⟩,⟨showing_valid lateStart_valid,?_⟩⟩
  · decide +kernel
  · decide +kernel

end Ucm108e.Alarm
