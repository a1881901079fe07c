import Mathlib
import Ucm108e.Pwm

/-!
Updates of the pulse alone, as `_pwm_write` of `rt_drv_pwm.c` makes them for a device
of `drv_pwm.c`: the configuration is read, its pulse replaced, and it is set again. On
the way the period goes from ticks to nanoseconds and back, rounded down both times, so
that each update takes a tick from the count until it is a multiple of 2048.
-/
namespace Ucm108e.PulseUpdates
open Ucm108e.Machine Ucm108e.Pwm
set_option linter.unusedSimpArgs false

structure Device where
  globals : Globals
  hw : Hardware

/-- `_pwm_write`: the device afterwards, and the return value. -/
def _pwm_write (hal : Hal) (hpwm : Handle) (s : Device) (pulse : UInt32) (size : Nat) : Device × Nat :=
  let (globals,hw,reply) := drv_pwm_control hal s.globals s.hw hpwm .get
  if reply.ret ≠ RT_EOK then (⟨globals,hw⟩,0)
  else
    let configuration := { reply.configuration.getD ⟨0,0⟩ with pulse := pulse }
    let (globals,hw,reply) := drv_pwm_control hal globals hw hpwm (.set configuration)
    if reply.ret ≠ RT_EOK then (⟨globals,hw⟩,0) else (⟨globals,hw⟩,size)

/-- The device after `drv_pwm_set`. -/
def configured (hal : Hal) (hw : Hardware) (hpwm : Handle) (configuration : Configuration) : Device :=
  let (globals,hw) := drv_pwm_set hal hw hpwm configuration
  ⟨globals,hw⟩

/-- A write of one `rt_uint32_t`. -/
def update (hal : Hal) (hpwm : Handle) (s : Device) (pulse : UInt32) : Device × Option Nat :=
  let (s,size) := _pwm_write hal hpwm s pulse 4
  (s,some size)

theorem update_configured (hal : Hal) (hpwm : Handle) (s : Device) (pulse : UInt32) :
    update hal hpwm s pulse
      = (configured hal s.hw hpwm ⟨nanoseconds s.globals.g_pwm_count,pulse⟩,some 4) := rfl

/-! ### One update -/

/-- Nanoseconds that are rounded down lose a tick, unless nothing was cut off. -/
theorem ticks_rounded {t nanos : Nat} (below : 2048*nanos ≤ 15625*t) (above : 15625*t < 2048*nanos+2048) :
    nanos*2048/15625 = t-min 1 (t % 2048) := by
  by_cases whole : t % 2048 = 0
  · have exactly : 2048*nanos = 15625*t := by omega
    rw [whole,Nat.min_zero,Nat.sub_zero]
    omega
  · have cut : 2048*nanos ≠ 15625*t := by omega
    rw [Nat.min_eq_left (Nat.pos_of_ne_zero whole)]
    omega

/-- A tick is 15625/2048 nanoseconds, so that a count comes back as it was only when it
    is a multiple of 2048, and with one tick less otherwise. -/
theorem ticks_nanoseconds {t : UInt32} (short : t.toNat*1000000000/131072000 < 2^32) :
    (ticks (nanoseconds t)).toNat = t.toNat-min 1 (t.toNat % 2048) := by
  have back (nanos : Nat) : nanos*131072000/1000000000 = nanos*2048/15625 := by omega
  rw [ticks_toNat,nanoseconds_toNat short,back]
  exact ticks_rounded (by omega) (by omega)

/-- The registers of a device that was configured: the count, which the globals repeat,
    and no longer duty. -/
structure Programmed (hpwm : Handle) (s : Device) (count : Nat) : Prop where
  value : (s.hw hpwm).CNTMAX.toNat = count
  globals : s.globals.g_pwm_count = (s.hw hpwm).CNTMAX
  duty : (s.hw hpwm).DUTY ≤ (s.hw hpwm).CNTMAX
  short : count*1000000000/131072000 < 2^32

section
variable {hal : Hal} (documented : hal.Documented) (hpwm : Handle)
include documented

theorem configured_programmed (hw : Hardware) (c : Configuration) :
    Programmed hpwm (configured hal hw hpwm c) (ticks c.period).toNat := by
  have registers : (configured hal hw hpwm c).hw hpwm = ⟨(hw hpwm).CTRL,ticks c.period,duty c⟩ := by
    have set := congrFun (drv_pwm_set_registers hal documented hw hpwm c) hpwm
    rwa [Function.update_self] at set
  refine ⟨?_,?_,?_,ticks_short c.period⟩
  · rw [registers]
  · rw [registers]
    rfl
  · rw [registers,UInt32.le_iff_toNat_le]
    simp only [duty_toNat,ticks_toNat]
    omega

theorem update_programmed {s : Device} {count : Nat} (programmed : Programmed hpwm s count) (pulse : UInt32) :
    Programmed hpwm (update hal hpwm s pulse).1 (count-min 1 (count % 2048)) := by
  have again := configured_programmed documented hpwm s.hw ⟨nanoseconds s.globals.g_pwm_count,pulse⟩
  have count_eq : s.globals.g_pwm_count.toNat = count := by rw [programmed.globals,programmed.value]
  rw [ticks_nanoseconds (by rw [count_eq]; exact programmed.short),count_eq] at again
  rw [update_configured]
  exact again

/-! ### Any number of updates -/

/-- Each update takes one tick, down to a multiple of 2048. -/
theorem updates_programmed {s : Device} {count : Nat} (programmed : Programmed hpwm s count) (pulses : List UInt32) :
    Programmed hpwm (final (update hal hpwm) s pulses) (count-min pulses.length (count % 2048)) := by
  induction pulses generalizing s count with
  | nil =>
    rw [List.length_nil,Nat.zero_min,Nat.sub_zero]
    exact programmed
  | cons pulse rest ih =>
    have next := ih (update_programmed documented hpwm programmed pulse)
    rw [show count-min (pulse :: rest).length (count % 2048)
      = count-min 1 (count % 2048)-min rest.length ((count-min 1 (count % 2048)) % 2048) by
        rw [List.length_cons]; omega]
    exact next

theorem updates_kept {s : Device} {count : UInt32} (programmed : Programmed hpwm s count.toNat)
    (whole : count.toNat % 2048 = 0) (pulses : List UInt32) :
    Throughout (update hal hpwm) (fun s => (s.hw hpwm).CNTMAX = count ∧ (s.hw hpwm).DUTY ≤ (s.hw hpwm).CNTMAX) s
      pulses := by
  refine throughout_invariant (I := fun s => Programmed hpwm s count.toNat) (fun s pulse programmed _ => ?_)
    (fun s programmed => ⟨UInt32.toNat_inj.mp programmed.value,programmed.duty⟩) programmed
    (along_true (update hal hpwm) s pulses)
  have next := update_programmed documented hpwm programmed pulse
  rwa [whole,Nat.min_zero,Nat.sub_zero] at next
end

/-- The period count stays and the duty stays within it, over any updates of the pulse,
    exactly when the count is a multiple of 2048, or there are none. -/
theorem period_kept_iff (hal : Hal) (documented : hal.Documented) (hw : Hardware) (hpwm : Handle) (c : Configuration)
    (pulses : List UInt32) :
    Throughout (update hal hpwm) (fun s => (s.hw hpwm).CNTMAX = ticks c.period ∧ (s.hw hpwm).DUTY ≤ (s.hw hpwm).CNTMAX)
        (configured hal hw hpwm c) pulses
      ↔ pulses = [] ∨ 2048 ∣ (ticks c.period).toNat := by
  have start := configured_programmed documented hpwm hw c
  constructor
  · intro kept
    by_cases none : pulses = []
    · exact .inl none
    · have some_update := List.length_pos_iff.mpr none
      have last := (updates_programmed documented hpwm start pulses).value
      rw [(throughout_final _ kept).1] at last
      exact .inr (by omega)
  · rintro (rfl | whole)
    · exact ⟨UInt32.toNat_inj.mp start.value,start.duty⟩
    · exact updates_kept documented hpwm start (Nat.mod_eq_zero_of_dvd whole) pulses

/-- A period of 15625 microseconds is a whole number of 2048 ticks. -/
theorem period_kept_whole :
    Throughout (update plain 0) (fun s => (s.hw 0).CNTMAX = 2048000 ∧ (s.hw 0).DUTY ≤ (s.hw 0).CNTMAX)
      (configured plain (fun _ => ⟨0,0,0⟩) 0 ⟨15625000,0⟩) [1000000,2000000] :=
  (period_kept_iff plain plain_documented (fun _ => ⟨0,0,0⟩) 0 ⟨15625000,0⟩ [1000000,2000000]).mpr
    (.inr (by decide))

/-- Of a period of 50 microseconds, 6553 ticks, two updates take two ticks. -/
theorem period_lost :
    ((configured plain (fun _ => ⟨0,0,0⟩) 0 ⟨50000,10000⟩).hw 0).CNTMAX = 6553
      ∧ ((final (update plain 0) (configured plain (fun _ => ⟨0,0,0⟩) 0 ⟨50000,10000⟩) [20000,30000]).hw 0).CNTMAX
        = 6551 := by
  decide +kernel

end Ucm108e.PulseUpdates
