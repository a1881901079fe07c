import Mathlib

/-!
The Gregorian calendar: leap years, the lengths of years and months in days, and the
seconds from the start of a year to a date and a time of the day. Whole units, years or
months, are taken off a number of seconds one by one (`Peeled`).
-/
namespace Ucm108e.Calendar

/-! ### Taking units off -/

/-- The units from `i` up to `j` are taken off `r`, and leave `rest`. -/
structure Peeled (len : Nat → Nat) (i r j rest : Nat) : Prop where
  order : i ≤ j
  total : r = ∑ k ∈ Finset.Ico i j, len k + rest

variable {len : Nat → Nat} {i r j rest : Nat}

theorem Peeled.none (len : Nat → Nat) (i r : Nat) : Peeled len i r i r := ⟨Nat.le_refl i,by simp⟩

theorem Peeled.cons (enough : len i ≤ r) (more : Peeled len (i+1) (r-len i) j rest) : Peeled len i r j rest := by
  have order := more.order
  have total := more.total
  have first := Finset.sum_eq_sum_Ico_succ_bot (show i < j by omega) len
  exact ⟨by omega,by omega⟩

/-! ### Years and months -/

def Leap (year : Nat) : Prop := 4 ∣ year ∧ (¬100 ∣ year ∨ 400 ∣ year)

instance (year : Nat) : Decidable (Leap year) := inferInstanceAs (Decidable (_ ∧ _))

def yearDays (year : Nat) : Nat := if Leap year then 366 else 365

def monthDays (year month : Nat) : Nat :=
  if month = 2 then if Leap year then 29 else 28
  else if month = 4 ∨ month = 6 ∨ month = 9 ∨ month = 11 then 30
  else 31

/-- The months fill the year. -/
theorem sum_months (year : Nat) : ∑ month ∈ Finset.Ico 1 13, monthDays year month = yearDays year := by
  unfold yearDays monthDays
  split
  · decide
  · decide

theorem monthDays_le (year month : Nat) : monthDays year month ≤ 31 := by
  unfold monthDays
  split_ifs <;> omega

/-! ### Dates -/

structure DateTime where
  year : Nat
  month : Nat
  day : Nat
  hour : Nat
  minute : Nat
  second : Nat

structure DateTime.Valid (t : DateTime) : Prop where
  month : 1 ≤ t.month ∧ t.month ≤ 12
  day : 1 ≤ t.day ∧ t.day ≤ monthDays t.year t.month
  hour : t.hour < 24
  minute : t.minute < 60
  second : t.second < 60

instance (t : DateTime) : Decidable t.Valid :=
  decidable_of_iff ((1 ≤ t.month ∧ t.month ≤ 12) ∧ (1 ≤ t.day ∧ t.day ≤ monthDays t.year t.month)
      ∧ t.hour < 24 ∧ t.minute < 60 ∧ t.second < 60)
    ⟨fun ⟨month,day,hour,minute,second⟩ => ⟨month,day,hour,minute,second⟩,
      fun valid => ⟨valid.month,valid.day,valid.hour,valid.minute,valid.second⟩⟩

/-- The days before a date, from the start of the year `epoch` on. -/
def DateTime.days (epoch : Nat) (t : DateTime) : Nat :=
  ∑ year ∈ Finset.Ico epoch t.year, yearDays year+∑ month ∈ Finset.Ico 1 t.month, monthDays t.year month+(t.day-1)

/-- The seconds of the day that are over. -/
def DateTime.clock (t : DateTime) : Nat := 3600*t.hour+60*t.minute+t.second

def DateTime.seconds (epoch : Nat) (t : DateTime) : Nat := 86400*t.days epoch+t.clock

/-- The midnights from one number of seconds to another, both counted from a midnight. -/
def midnights (start stop : Nat) : Nat := stop/86400-start/86400

theorem DateTime.Valid.clock_lt {t : DateTime} (valid : t.Valid) : t.clock < 86400 := by
  have hour := valid.hour
  have minute := valid.minute
  have second := valid.second
  unfold DateTime.clock
  omega

theorem DateTime.clock_le (epoch : Nat) (t : DateTime) : t.clock ≤ t.seconds epoch := Nat.le_add_left _ _

/-- The seconds from an earlier year on are those from the start of the year and those of
    the years before. -/
theorem DateTime.seconds_year (epoch : Nat) (t : DateTime) :
    t.seconds epoch = ∑ year ∈ Finset.Ico epoch t.year, 86400*yearDays year+t.seconds t.year := by
  simp only [seconds,days,Finset.Ico_self,Finset.sum_empty,Nat.zero_add,← Finset.mul_sum]
  ring

theorem DateTime.seconds_month (t : DateTime) :
    t.seconds t.year = ∑ month ∈ Finset.Ico 1 t.month, 86400*monthDays t.year month+86400*(t.day-1)+t.clock := by
  simp only [seconds,days,Finset.Ico_self,Finset.sum_empty,Nat.zero_add,← Finset.mul_sum]
  ring

/-- A date lies in its year. -/
theorem DateTime.Valid.seconds_lt {t : DateTime} (valid : t.Valid) : t.seconds t.year < 86400*yearDays t.year := by
  obtain ⟨first,last⟩ := valid.month
  have clock := valid.clock_lt
  have day := valid.day
  have whole := Finset.sum_Ico_consecutive (monthDays t.year) first (show t.month ≤ 13 by omega)
  have own := Finset.sum_eq_sum_Ico_succ_bot (show t.month < 13 by omega) (monthDays t.year)
  rw [sum_months] at whole
  simp only [seconds,days,Finset.Ico_self,Finset.sum_empty,Nat.zero_add]
  omega

/-- A date of an earlier year is earlier. -/
theorem DateTime.Valid.seconds_mono {t t' : DateTime} (valid : t.Valid) {epoch : Nat} (later : epoch ≤ t.year)
    (earlier : t.year < t'.year) : t.seconds epoch < t'.seconds epoch := by
  have inside := valid.seconds_lt
  have own := Finset.sum_Ico_succ_top later (fun year => 86400*yearDays year)
  have whole := Finset.sum_Ico_consecutive (fun year => 86400*yearDays year) (show epoch ≤ t.year+1 by omega) earlier
  rw [t.seconds_year,t'.seconds_year]
  omega

/-- The first second of a year. -/
def newYear (year : Nat) : DateTime := ⟨year,1,1,0,0,0⟩

theorem newYear_valid (year : Nat) : (newYear year).Valid := by
  constructor <;> simp [newYear,monthDays]

theorem newYear_seconds (epoch year : Nat) :
    (newYear year).seconds epoch = ∑ y ∈ Finset.Ico epoch year, 86400*yearDays y := by
  have start : (newYear year).seconds (newYear year).year = 0 := by simp [newYear,DateTime.seconds,DateTime.days,DateTime.clock]
  rw [DateTime.seconds_year,start,Nat.add_zero,newYear]

/-- A date lies in an earlier year when it is before the first second of the year. -/
theorem DateTime.Valid.year_lt_iff {t : DateTime} (valid : t.Valid) {epoch year : Nat} (later : epoch ≤ t.year)
    (start : epoch ≤ year) : t.year < year ↔ t.seconds epoch < (newYear year).seconds epoch := by
  refine ⟨fun earlier => valid.seconds_mono later earlier,fun before => ?_⟩
  by_contra late
  have years := Finset.sum_Ico_consecutive (fun y => 86400*yearDays y) start (Nat.not_lt.mp late)
  rw [newYear_seconds,t.seconds_year] at before
  omega

theorem midnights_eq {t : DateTime} (valid : t.Valid) (epoch interval : Nat) :
    midnights (t.seconds epoch) (t.seconds epoch+interval) = (interval+t.clock)/86400 := by
  have clock := valid.clock_lt
  unfold midnights DateTime.seconds
  omega

end Ucm108e.Calendar
