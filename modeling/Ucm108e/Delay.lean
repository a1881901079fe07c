import Mathlib
import Ucm108e.Loops

/-!
The delays of `drv_soft_i2c.c` and `drv_spi.c`, which add up the ticks of `UC_TIMER0`
from sample to sample. The timer starts over at `Compare_Value`, and less than a round
passes between two samples, so that no tick is missed. The number of ticks to wait for
is worked out in 32 bits, which a long delay does not fit.
-/
namespace Ucm108e.Delay
open Ucm108e.Loops
set_option linter.unusedSimpArgs false

def BSP_CLOCK_SYSTEM_FREQ_HZ : UInt32 := 131072000
def RT_TICK_PER_SECOND : UInt32 := 1000
def Compare_Value : UInt32 := BSP_CLOCK_SYSTEM_FREQ_HZ/(5*RT_TICK_PER_SECOND)

/-- The variables of a delay, the number of samples that its loop has taken, and
    whether it has left the loop. -/
structure Waiting where
  told : UInt32
  tcnt : UInt32
  samples : Nat
  expired : Bool

/-- What is added for two samples that differ. -/
def elapsed (told tnow : UInt32) : UInt32 := if tnow > told then tnow-told else Compare_Value-told+tnow

/-- One turn of the loop; `count k` is what call `k` of `TIMER_GetCount` returns. -/
def turn (count : Nat → UInt32) (ticks : UInt32) (w : Waiting) : Waiting :=
  let tnow := count (w.samples+1)
  if tnow ≠ w.told then
    let tcnt := w.tcnt+elapsed w.told tnow
    ⟨tnow,tcnt,w.samples+1,tcnt ≥ ticks⟩
  else { w with samples := w.samples+1 }

def waits (w : Waiting) : Bool := !w.expired

def ticks (us : UInt32) : UInt32 := us*Compare_Value/(1000000/RT_TICK_PER_SECOND)

/-- The body of both delays; the result is the number of samples. -/
def delay (turns : Nat) (count : Nat → UInt32) (us : UInt32) : Option Nat :=
  (run waits (turn count (ticks us)) turns ⟨count 0,0,0,false⟩).map Waiting.samples

def uc8088_udelay (turns : Nat) (count : Nat → UInt32) (us : UInt32) : Option Nat := delay turns count us

def software_delay (turns : Nat) (count : Nat → UInt32) (software_spi_hz : UInt32) : Option Nat :=
  delay turns count (400000/software_spi_hz)

/-! ### The timer -/

/-- A timer that is sampled at least once in a round: the ticks it has made at each
    sample. -/
structure Timer where
  time : Nat → Nat
  forward : ∀ k, time k ≤ time (k+1)
  close : ∀ k, time (k+1) < time k+Compare_Value.toNat

/-- What the samples show. -/
def Timer.count (t : Timer) (k : Nat) : UInt32 := UInt32.ofNat (t.time k % Compare_Value.toNat)

/-- The ticks up to a sample. -/
def Timer.advance (t : Timer) (k : Nat) : Nat := t.time k-t.time 0

theorem compare_toNat : Compare_Value.toNat = 26214 := by decide

theorem Timer.count_toNat (t : Timer) (k : Nat) : (t.count k).toNat = t.time k % 26214 := by
  rw [Timer.count,compare_toNat,UInt32.toNat_ofNat']
  omega

theorem Timer.start_le (t : Timer) (k : Nat) : t.time 0 ≤ t.time k :=
  monotone_nat_of_le_succ t.forward (Nat.zero_le k)

theorem ticks_toNat (us : UInt32) : (ticks us).toNat = us.toNat*26214 % 2^32/1000 := by
  have thousand : (1000000/RT_TICK_PER_SECOND).toNat = 1000 := by decide
  rw [ticks,UInt32.toNat_div,UInt32.toNat_mul,compare_toNat,thousand]

/-- What is added is the number of ticks between the samples. -/
theorem elapsed_toNat {t : Timer} {k : Nat} (differ : t.count (k+1) ≠ t.count k) :
    (elapsed (t.count k) (t.count (k+1))).toNat = t.time (k+1)-t.time k := by
  have forward := t.forward k
  have close := t.close k
  have now := t.count_toNat (k+1)
  have old := t.count_toNat k
  have apart : (t.count (k+1)).toNat ≠ (t.count k).toNat := fun same => differ (UInt32.toNat_inj.mp same)
  rw [compare_toNat] at close
  unfold elapsed
  split
  next later =>
    have less := UInt32.lt_iff_toNat_lt.mp later
    rw [UInt32.toNat_sub_of_le _ _ (UInt32.le_iff_toNat_le.mpr (by omega))]
    omega
  next round =>
    have less := mt UInt32.lt_iff_toNat_lt.mpr round
    rw [UInt32.toNat_add,UInt32.toNat_sub_of_le _ _ (UInt32.le_iff_toNat_le.mpr (by rw [compare_toNat]; omega)),
      compare_toNat]
    omega

theorem stalled {t : Timer} {k : Nat} (same : t.count (k+1) = t.count k) : t.advance (k+1) = t.advance k := by
  have forward := t.forward k
  have close := t.close k
  have counts := congrArg UInt32.toNat same
  rw [t.count_toNat,t.count_toNat] at counts
  rw [compare_toNat] at close
  unfold Timer.advance
  omega

/-! ### The loop -/

/-- All ticks so far are counted. The loop goes on while they do not suffice, or none
    has come yet, and it is left at the first sample at which they do. -/
structure Counted (t : Timer) (ticks : UInt32) (w : Waiting) : Prop where
  told : w.told = t.count w.samples
  tcnt : w.tcnt.toNat = t.advance w.samples
  enough : w.expired = true → ticks.toNat ≤ t.advance w.samples
  first : w.expired = true → t.advance (w.samples-1) < max ticks.toNat 1
  waiting : w.expired = false → t.advance w.samples < max ticks.toNat 1

theorem counted_start (t : Timer) (ticks : UInt32) : Counted t ticks ⟨t.count 0,0,0,false⟩ := by
  have none : t.advance 0 = 0 := Nat.sub_self _
  refine ⟨rfl,none.symm,by rintro ⟨⟩,by rintro ⟨⟩,fun _ => ?_⟩
  simp only [none]
  omega

theorem counted_turn {t : Timer} {us : UInt32} {w : Waiting} (counted : Counted t (ticks us) w)
    (more : w.expired = false) : Counted t (ticks us) (turn t.count (ticks us) w) := by
  have waiting := counted.waiting more
  by_cases same : t.count (w.samples+1) = t.count w.samples
  · have still := stalled same
    rw [turn,if_neg (by rw [counted.told]; exact not_not.mpr same)]
    refine ⟨counted.told.trans same.symm,counted.tcnt.trans still.symm,?_,?_,fun _ => ?_⟩
    · intro left
      rw [more] at left
      cases left
    · intro left
      rw [more] at left
      cases left
    · rw [still]
      exact waiting
  · have sum : (w.tcnt+elapsed w.told (t.count (w.samples+1))).toNat = t.advance (w.samples+1) := by
      have start := t.start_le w.samples
      have forward := t.forward w.samples
      have close := t.close w.samples
      have few : (ticks us).toNat ≤ 4294967 := by
        rw [ticks_toNat]
        omega
      rw [compare_toNat] at close
      rw [UInt32.toNat_add,counted.told,elapsed_toNat same,counted.tcnt]
      unfold Timer.advance at waiting ⊢
      omega
    rw [turn,if_pos (by rw [counted.told]; exact same)]
    refine ⟨rfl,sum,?_,fun _ => waiting,?_⟩
    · intro left
      have long := UInt32.le_iff_toNat_le.mp (of_decide_eq_true left)
      rwa [sum] at long
    · intro left
      have short := mt UInt32.le_iff_toNat_le.mpr (of_decide_eq_false left)
      rw [sum] at short
      simp only
      omega

theorem turn_samples (count : Nat → UInt32) (ticks : UInt32) (w : Waiting) :
    (turn count ticks w).samples = w.samples+1 := by
  simp only [turn]
  split <;> rfl

/-- After so many turns: the samples are counted, as many as there were turns unless the
    delay is over. -/
theorem counted_after (t : Timer) (us : UInt32) (turns : Nat) :
    ∃ w, after waits (turn t.count (ticks us)) turns ⟨t.count 0,0,0,false⟩ = w ∧ Counted t (ticks us) w
      ∧ (w.expired = false → w.samples = turns) := by
  have pass : ∀ k w, Counted t (ticks us) w ∧ w.samples = k → waits w = true →
      Counted t (ticks us) (turn t.count (ticks us) w) ∧ (turn t.count (ticks us) w).samples = k+1 := by
    rintro k w ⟨counted,rfl⟩ more
    exact ⟨counted_turn counted (by simpa [waits] using more),turn_samples _ _ w⟩
  obtain ⟨k,-,⟨counted,samples⟩,all⟩ := after_counted pass turns (i := 0) ⟨counted_start t (ticks us),rfl⟩
  refine ⟨_,rfl,counted,fun more => ?_⟩
  rw [samples,Nat.zero_add]
  exact all (by rw [waits,more]; rfl)

/-- Where a delay is left: at the first sample with enough ticks. -/
theorem delay_spec {t : Timer} {us : UInt32} {turns n : Nat} (left : delay turns t.count us = some n) :
    (ticks us).toNat ≤ t.advance n ∧ t.advance (n-1) < max (ticks us).toNat 1 := by
  obtain ⟨w,ended,rfl⟩ := Option.map_eq_some_iff.mp left
  obtain ⟨state,stopped⟩ := run_eq_some.mp ended
  obtain ⟨w',state',counted,-⟩ := counted_after t us turns
  obtain rfl : w' = w := state'.symm.trans state
  have expired : w'.expired = true := by simpa [waits] using stopped
  exact ⟨counted.enough expired,counted.first expired⟩

/-- A delay is left when the timer has made its ticks. -/
theorem delay_ends {t : Timer} (us : UInt32) {turns : Nat} (enough : max (ticks us).toNat 1 ≤ t.advance turns) :
    ∃ n, delay turns t.count us = some n := by
  obtain ⟨w,state,counted,samples⟩ := counted_after t us turns
  have stopped : waits w = false := by
    cases expired : w.expired with
    | true => rw [waits,expired]; rfl
    | false =>
      have waiting := counted.waiting expired
      rw [samples expired] at waiting
      omega
  exact ⟨w.samples,by rw [delay,run_eq_some.mpr ⟨state,stopped⟩]; rfl⟩

/-! ### Long delays -/

/-- A timer that is sampled at each tick. -/
def everyTick : Timer := ⟨id,fun k => Nat.le_succ k,fun k => by rw [compare_toNat]; simp only [id]; omega⟩

theorem everyTick_advance (k : Nat) : everyTick.advance k = k := Nat.sub_zero k

/-- A delay whose ticks fit 32 bits lasts for all of them. -/
theorem delay_full {us : UInt32} (short : us.toNat ≤ 163842) {t : Timer} {turns n : Nat}
    (left : delay turns t.count us = some n) : us.toNat*26214/1000 ≤ t.advance n := by
  have fits : us.toNat*26214 % 2^32 = us.toNat*26214 := Nat.mod_eq_of_lt (by omega)
  have enough := (delay_spec left).1
  rwa [ticks_toNat,fits] at enough

/-- Delays come to their end once the timer has made enough ticks. None of `us`
    microseconds ends before its time, whenever the timer is sampled, exactly when the
    product in it does not pass 32 bits. -/
theorem udelay_full_iff (us : UInt32) :
    (∀ t : Timer, (∀ m, ∃ k, m ≤ t.time k) → ∃ turns n, uc8088_udelay turns t.count us = some n)
      ∧ ((∀ (t : Timer) turns n, uc8088_udelay turns t.count us = some n →
          us.toNat*Compare_Value.toNat/(1000000/RT_TICK_PER_SECOND.toNat) ≤ t.advance n)
        ↔ us.toNat ≤ 163842) := by
  have thousand : 1000000/RT_TICK_PER_SECOND.toNat = 1000 := by decide
  rw [compare_toNat,thousand]
  refine ⟨fun t runs => ?_,fun all => ?_,fun short t turns n left => delay_full short left⟩
  · obtain ⟨turns,late⟩ := runs (t.time 0+max (ticks us).toNat 1)
    exact ⟨turns,delay_ends us (by unfold Timer.advance; omega)⟩
  · by_contra long
    have few := ticks_toNat us
    have bound := us.toNat_lt
    obtain ⟨n,left⟩ := @delay_ends everyTick us (max (ticks us).toNat 1) (Nat.le_of_eq (everyTick_advance _).symm)
    have first := (delay_spec left).2
    have whole := all everyTick _ n left
    rw [everyTick_advance] at first whole
    omega

/-- A delay of 163843 microseconds, whose product comes to 13106 in 32 bits, is over
    after 13 ticks, and not after the 4294980 that it should take. -/
theorem udelay_early : uc8088_udelay 13 everyTick.count 163843 = some 13 ∧ everyTick.advance 13 = 13
    ∧ 163843*Compare_Value.toNat/(1000000/RT_TICK_PER_SECOND.toNat) = 4294980 := by
  refine ⟨by decide +kernel,everyTick_advance 13,by decide⟩

/-- The bit-banged SPI asks for at most 133333 microseconds from 3 Hz on. -/
theorem software_delay_full {software_spi_hz : UInt32} (moderate : 3 ≤ software_spi_hz.toNat) {t : Timer}
    {turns n : Nat} (left : software_delay turns t.count software_spi_hz = some n) :
    400000/software_spi_hz.toNat*26214/1000 ≤ t.advance n := by
  have value : (400000/software_spi_hz).toNat = 400000/software_spi_hz.toNat := UInt32.toNat_div _ _
  have few : 400000/software_spi_hz.toNat ≤ 400000/3 := Nat.div_le_div_left moderate (by decide)
  have full := delay_full (by rw [value]; omega) left
  rwa [value] at full

end Ucm108e.Delay
