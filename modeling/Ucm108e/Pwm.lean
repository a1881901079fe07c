import Ucm108e.Machine
import Ucm108e.RtDef

/-!
The PWM driver of `drv_pwm.c`. Count and duty of the last configuration are kept
in two globals that all the devices share, and a device is asked for its
configuration through them and not through its registers.
-/
namespace Ucm108e.Pwm
open Ucm108e.Machine
set_option linter.unusedSimpArgs false

/-- The devices `pwm0` to `pwm3`, by their handles. -/
abbrev Handle := Fin 4

/-- `PWM_TypeDef`, the registers that the driver reaches. -/
structure Registers where
  CTRL : UInt32
  CNTMAX : UInt32
  DUTY : UInt32
  deriving DecidableEq

abbrev Hardware := Handle → Registers

/-- `rt_pwm_configuration`, in nanoseconds. -/
structure Configuration where
  period : UInt32
  pulse : UInt32
  deriving DecidableEq

/-- The two functions that the driver calls and that are not part of the sources. -/
structure Hal where
  set_pwm_cnt_max : Hardware → Handle → UInt32 → Hardware
  set_pwm_duty : Hardware → Handle → UInt32 → Hardware

/-- They store their argument in `CNTMAX` and in `DUTY` of the device, and nothing else. -/
structure Hal.Documented (hal : Hal) : Prop where
  cnt_max : ∀ hw hpwm value,
    hal.set_pwm_cnt_max hw hpwm value = Function.update hw hpwm { hw hpwm with CNTMAX := value }
  duty : ∀ hw hpwm value, hal.set_pwm_duty hw hpwm value = Function.update hw hpwm { hw hpwm with DUTY := value }

def BSP_CLOCK_SYSTEM_FREQ_HZ : UInt64 := 131072000

def pwm_enable (hw : Hardware) (hpwm : Handle) : Hardware :=
  Function.update hw hpwm { hw hpwm with CTRL := (hw hpwm).CTRL ||| 1 }

def pwm_disable (hw : Hardware) (hpwm : Handle) : Hardware :=
  Function.update hw hpwm { hw hpwm with CTRL := (hw hpwm).CTRL &&& ~~~ 1 }

/-- The globals `g_pwm_count` and `g_pwm_duty`. -/
structure Globals where
  g_pwm_count : UInt32
  g_pwm_duty : UInt32

/-- Nanoseconds of a number of clock ticks, and ticks of a number of nanoseconds. -/
def nanoseconds (ticks : UInt32) : UInt32 := (ticks.toUInt64*1000000000/BSP_CLOCK_SYSTEM_FREQ_HZ).toUInt32

def ticks (nanos : UInt32) : UInt32 := (nanos.toUInt64*BSP_CLOCK_SYSTEM_FREQ_HZ/1000000000).toUInt32

def drv_pwm_get (g : Globals) : Configuration := ⟨nanoseconds g.g_pwm_count,nanoseconds g.g_pwm_duty⟩

def drv_pwm_set (hal : Hal) (hw : Hardware) (hpwm : Handle) (configuration : Configuration) : Globals × Hardware :=
  let pwm_count := ticks configuration.period
  let pwm_duty := ticks configuration.pulse
  let hw := hal.set_pwm_cnt_max hw hpwm pwm_count
  let pwm_duty := if pwm_duty > pwm_count then pwm_count else pwm_duty
  let hw := hal.set_pwm_duty hw hpwm pwm_duty
  (⟨pwm_count,pwm_duty⟩,hw)

/-- The commands; `SET` with the configuration that `arg` points to. -/
inductive Command where
  | enable
  | disable
  | set (configuration : Configuration)
  | get
  | unsupported
  deriving DecidableEq

/-- The return value, and the configuration that `GET` stores to `arg`. -/
structure Reply where
  ret : Int
  configuration : Option Configuration
  deriving DecidableEq

def drv_pwm_control (hal : Hal) (g : Globals) (hw : Hardware) (hpwm : Handle) : Command → Globals × Hardware × Reply
  | .enable => (g,pwm_enable hw hpwm,⟨RT_EOK,none⟩)
  | .disable => (g,pwm_disable hw hpwm,⟨RT_EOK,none⟩)
  | .set configuration =>
    let (g,hw) := drv_pwm_set hal hw hpwm configuration
    (g,hw,⟨RT_EOK,none⟩)
  | .get => (g,hw,⟨RT_EOK,some (drv_pwm_get g)⟩)
  | .unsupported => (g,hw,⟨RT_EINVAL,none⟩)

/-! ### Conversions -/

@[simp] theorem ticks_toNat (nanos : UInt32) : (ticks nanos).toNat = nanos.toNat*131072000/1000000000 := by
  have small := nanos.toNat_lt
  simp only [ticks,BSP_CLOCK_SYSTEM_FREQ_HZ,UInt64.toNat_toUInt32,UInt64.toNat_div,UInt64.toNat_mul,
    UInt32.toNat_toUInt64,UInt64.reduceToNat]
  rw [Nat.mod_eq_of_lt (show nanos.toNat*131072000 < 2^64 by omega)]
  exact Nat.mod_eq_of_lt (by omega)

/-- What fits in 32 bits of ticks of some number of nanoseconds comes back without being cut. -/
theorem nanoseconds_toNat {t : UInt32} (short : t.toNat*1000000000/131072000 < 2^32) :
    (nanoseconds t).toNat = t.toNat*1000000000/131072000 := by
  have small := t.toNat_lt
  simp only [nanoseconds,BSP_CLOCK_SYSTEM_FREQ_HZ,UInt64.toNat_toUInt32,UInt64.toNat_div,UInt64.toNat_mul,
    UInt32.toNat_toUInt64,UInt64.reduceToNat]
  rw [Nat.mod_eq_of_lt (show t.toNat*1000000000 < 2^64 by omega)]
  exact Nat.mod_eq_of_lt short

/-- A tick is longer than a nanosecond, so ticks that come from nanoseconds are told apart. -/
theorem nanoseconds_inj {t u : UInt32} (short : t.toNat*1000000000/131072000 < 2^32)
    (short' : u.toNat*1000000000/131072000 < 2^32) : nanoseconds t = nanoseconds u ↔ t = u := by
  refine ⟨?_,congrArg _⟩
  intro same
  have equal := congrArg UInt32.toNat same
  rw [nanoseconds_toNat short,nanoseconds_toNat short'] at equal
  rw [← UInt32.toNat_inj]
  omega

theorem ticks_short (nanos : UInt32) : (ticks nanos).toNat*1000000000/131072000 < 2^32 := by
  have small := nanos.toNat_lt
  rw [ticks_toNat]
  omega

/-- The duty that a configuration asks for, no more than its count. -/
def duty (c : Configuration) : UInt32 := if ticks c.pulse > ticks c.period then ticks c.period else ticks c.pulse

theorem duty_toNat (c : Configuration) :
    (duty c).toNat = min (c.pulse.toNat*131072000/1000000000) (c.period.toNat*131072000/1000000000) := by
  rw [← ticks_toNat,← ticks_toNat]
  by_cases longer : ticks c.pulse > ticks c.period
  · have := UInt32.lt_iff_toNat_lt.mp longer
    simp only [duty,if_pos longer]
    omega
  · have := mt UInt32.lt_iff_toNat_lt.mpr longer
    simp only [duty,if_neg longer]
    omega

theorem duty_short (c : Configuration) : (duty c).toNat*1000000000/131072000 < 2^32 := by
  by_cases longer : ticks c.pulse > ticks c.period
  · simp only [duty,if_pos longer]
    exact ticks_short c.period
  · simp only [duty,if_neg longer]
    exact ticks_short c.pulse

/-! ### Sequences of commands -/

/-- The driver and the registers. Beside them, what was asked for: the last
    configuration of each device, what its registers were given then, and the
    last configuration of all. -/
structure System where
  globals : Globals
  hw : Hardware
  configured : Handle → Option Configuration
  programmed : Handle → Option (UInt32 × UInt32)
  latest : Option Configuration

def init (hw : Hardware) : System := ⟨⟨0,0⟩,hw,fun _ => none,fun _ => none,none⟩

def step (hal : Hal) (s : System) (call : Handle × Command) : System × Option Reply :=
  let (hpwm,command) := call
  let (globals,hw,reply) := drv_pwm_control hal s.globals s.hw hpwm command
  let s := { s with globals := globals, hw := hw }
  match command with
  | .set c =>
    ({ s with
        configured := Function.update s.configured hpwm (some c)
        programmed := Function.update s.programmed hpwm (some ((hw hpwm).CNTMAX,(hw hpwm).DUTY))
        latest := some c },some reply)
  | _ => (s,some reply)

/-- A device that was configured is read as its registers were programmed then. -/
def Independent (hal : Hal) (s : System) (call : Handle × Command) : Prop :=
  match call.2 with
  | .get => ∀ count duty, s.programmed call.1 = some (count,duty) →
    (drv_pwm_control hal s.globals s.hw call.1 .get).2.2.configuration = some ⟨nanoseconds count,nanoseconds duty⟩
  | _ => True

/-- Two configurations that come to the same ticks, for the period and for the
    pulse, where a pulse is no longer than its period. -/
def SameTicks (c d : Configuration) : Prop :=
  c.period.toNat*131072000/1000000000 = d.period.toNat*131072000/1000000000
  ∧ min (c.pulse.toNat*131072000/1000000000) (c.period.toNat*131072000/1000000000)
    = min (d.pulse.toNat*131072000/1000000000) (d.period.toNat*131072000/1000000000)

/-- A device that is read was configured last, or like the one that was. -/
def ReadAsLatest (s : System) (call : Handle × Command) : Prop :=
  match call.2 with
  | .get => ∀ c d, s.configured call.1 = some c → s.latest = some d → SameTicks c d
  | _ => True

theorem sameTicks_iff (c d : Configuration) : SameTicks c d ↔ ticks c.period = ticks d.period ∧ duty c = duty d := by
  simp only [SameTicks,← UInt32.toNat_inj,ticks_toNat,duty_toNat]

/-- The globals are those of the last configuration, the record of each device is
    that of its own. -/
structure Recorded (s : System) : Prop where
  globals : ∀ c, s.latest = some c → s.globals = ⟨ticks c.period,duty c⟩
  programmed : ∀ d, s.programmed d = (s.configured d).map fun c => (ticks c.period,duty c)
  configured : ∀ d c, s.configured d = some c → s.latest ≠ none

theorem recorded_init (hw : Hardware) : Recorded (init hw) := by
  refine ⟨?_,fun _ => rfl,?_⟩
  · rintro c ⟨⟩
  · rintro d c ⟨⟩

section
variable (hal : Hal)

/-- After a configuration the registers of the device hold its count and duty. -/
theorem drv_pwm_set_registers (documented : hal.Documented) (hw : Hardware) (hpwm : Handle) (c : Configuration) :
    (drv_pwm_set hal hw hpwm c).2
      = Function.update hw hpwm { hw hpwm with CNTMAX := ticks c.period, DUTY := duty c } := by
  simp only [drv_pwm_set,documented.cnt_max,documented.duty,Function.update_self,Function.update_idem]
  rfl

theorem recorded_step (documented : hal.Documented) (s : System) (call : Handle × Command) (recorded : Recorded s) :
    Recorded (step hal s call).1 := by
  obtain ⟨hpwm,command⟩ := call
  cases command with
  | set c =>
    have registers := drv_pwm_set_registers hal documented s.hw hpwm c
    refine ⟨?_,?_,?_⟩
    · intro d latest
      cases latest
      rfl
    · intro d
      by_cases same : d = hpwm
      · subst same
        simp [step,drv_pwm_control,registers]
      · simp [step,drv_pwm_control,same,recorded.programmed d]
    · intro d c' _ none
      cases none
  | enable => exact ⟨recorded.globals,recorded.programmed,recorded.configured⟩
  | disable => exact ⟨recorded.globals,recorded.programmed,recorded.configured⟩
  | get => exact ⟨recorded.globals,recorded.programmed,recorded.configured⟩
  | unsupported => exact ⟨recorded.globals,recorded.programmed,recorded.configured⟩

/-- Reading gives the latest configuration, which is that of the device exactly
    when both come to the same ticks. -/
theorem independent_iff (s : System) (call : Handle × Command) (recorded : Recorded s) :
    Independent hal s call ↔ ReadAsLatest s call := by
  obtain ⟨hpwm,command⟩ := call
  cases command with
  | get =>
    simp only [Independent,ReadAsLatest,drv_pwm_control,drv_pwm_get]
    cases own : s.configured hpwm with
    | none => simp [recorded.programmed hpwm,own]
    | some c =>
      obtain ⟨d,latest⟩ := Option.ne_none_iff_exists'.mp (recorded.configured hpwm c own)
      have period := nanoseconds_inj (ticks_short d.period) (ticks_short c.period)
      have pulse := nanoseconds_inj (duty_short d) (duty_short c)
      simp only [recorded.programmed hpwm,own,latest,recorded.globals d latest,Option.map_some,Option.some.injEq,
        Prod.mk.injEq,Configuration.mk.injEq,sameTicks_iff]
      constructor
      · intro read c' d' same same'
        subst same same'
        have := read _ _ ⟨rfl,rfl⟩
        exact ⟨(period.mp this.1).symm,(pulse.mp this.2).symm⟩
      · intro same count duty' equal
        obtain ⟨rfl,rfl⟩ := equal
        obtain ⟨counts,duties⟩ := same c d rfl rfl
        exact ⟨period.mpr counts.symm,pulse.mpr duties.symm⟩
  | set c => exact Iff.rfl
  | enable => exact Iff.rfl
  | disable => exact Iff.rfl
  | unsupported => exact Iff.rfl

/-- Each device is read as it was configured exactly when each one that is read
    was the last to be configured, up to configurations of the same ticks. -/
theorem channels_independent_iff (documented : hal.Documented) (hw : Hardware) (calls : List (Handle × Command)) :
    Along (step hal) (Independent hal) (init hw) calls ↔ Along (step hal) ReadAsLatest (init hw) calls := by
  refine along_iff_of_invariant (I := Recorded) ?_ ?_ (recorded_init hw) calls
  · intro s call recorded _
    exact recorded_step hal documented s call recorded
  · intro s call recorded
    exact independent_iff hal s call recorded
end

/-- Registers that take what they are given. -/
def plain : Hal :=
  ⟨fun hw hpwm value => Function.update hw hpwm { hw hpwm with CNTMAX := value },
   fun hw hpwm value => Function.update hw hpwm { hw hpwm with DUTY := value }⟩

theorem plain_documented : plain.Documented := ⟨fun _ _ _ => rfl,fun _ _ _ => rfl⟩

/-- Two devices, each read after its own configuration. -/
theorem channels_independent_two :
    Along (step plain) (Independent plain) (init fun _ => ⟨0,0,0⟩)
      [(0,.set ⟨1000000,500000⟩),(0,.get),(1,.set ⟨2000000,1000000⟩),(1,.get)] := by
  refine (channels_independent_iff plain plain_documented _ _).mpr ⟨trivial,?_,trivial,?_,trivial⟩
  · rintro c d ⟨⟩ ⟨⟩
    exact ⟨rfl,rfl⟩
  · rintro c d ⟨⟩ ⟨⟩
    exact ⟨rfl,rfl⟩

/-- With `pwm0` at 1 ms and then `pwm1` at 2 ms, `pwm0` is read as 2 ms. -/
theorem channels_mixed :
    outputs (step plain) (init fun _ => ⟨0,0,0⟩)
        [(0,.set ⟨1000000,500000⟩),(1,.set ⟨2000000,1000000⟩),(0,.get)]
      = [⟨RT_EOK,none⟩,⟨RT_EOK,none⟩,⟨RT_EOK,some ⟨2000000,1000000⟩⟩]
    ∧ ¬ Along (step plain) (Independent plain) (init fun _ => ⟨0,0,0⟩)
        [(0,.set ⟨1000000,500000⟩),(1,.set ⟨2000000,1000000⟩),(0,.get)] := by
  refine ⟨by decide +kernel,?_⟩
  rintro ⟨-,-,read,-⟩
  exact absurd (read 131072 65536 (by decide +kernel)) (by decide +kernel)

end Ucm108e.Pwm
