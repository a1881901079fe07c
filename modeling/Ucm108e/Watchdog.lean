import Ucm108e.Machine
import Ucm108e.RtDef

/-!
The watchdog driver of `drv_wdt.c`. The reload value is the timeout in ticks of
32768 Hz, kept in 32 bits and stored before it is checked, so a timeout of
131072 seconds or more is not the one that is read back or programmed, and one
that is refused is stored all the same.
-/
namespace Ucm108e.Watchdog
open Ucm108e.Machine
set_option linter.unusedSimpArgs false

/-- The watchdog's registers, behind the three functions that the driver calls
    and that are not part of the sources. -/
structure Hal (H : Type) where
  WDG_SetReload : H → UInt32 → H
  WDG_FEED : H → H
  WDG_Cmd : H → Bool → H
  reload : H → UInt32

/-- `WDG_SetReload` writes the reload register, the others leave it as it is. -/
structure Hal.Documented {H : Type} (hal : Hal H) : Prop where
  set : ∀ h value, hal.reload (hal.WDG_SetReload h value) = value
  feed : ∀ h, hal.reload (hal.WDG_FEED h) = hal.reload h
  cmd : ∀ h enable, hal.reload (hal.WDG_Cmd h enable) = hal.reload h

/-- `uc8088_wdt_obj`. -/
structure WdtObj where
  is_start : UInt16
  Reload : UInt32

def WDT_CLOCK_FREQ_HZ : UInt32 := 32768

/-- The commands, `SET_TIMEOUT` with the value that `arg` points to; all that the
    driver does not know are alike. -/
inductive Command where
  | keepalive
  | setTimeout (arg : UInt32)
  | getTimeout
  | start
  | unsupported
  deriving DecidableEq

/-- The return value, and what `GET_TIMEOUT` stores to `arg`. -/
structure Reply where
  ret : Int
  timeout : Option UInt32
  deriving DecidableEq

section
variable {H : Type} (hal : Hal H)

def wdt_control (wdt : WdtObj) (hw : H) : Command → WdtObj × H × Reply
  | .keepalive => (wdt,hal.WDG_FEED hw,⟨RT_EOK,none⟩)
  | .setTimeout arg =>
    let wdt := { wdt with Reload := arg*WDT_CLOCK_FREQ_HZ }
    if wdt.Reload = 0 then (wdt,hw,⟨-RT_EINVAL,none⟩)
    else (wdt,hal.WDG_SetReload hw (0xffffffff-wdt.Reload),⟨RT_EOK,none⟩)
  | .getTimeout => (wdt,hw,⟨RT_EOK,some (wdt.Reload/WDT_CLOCK_FREQ_HZ)⟩)
  | .start =>
    let hw := hal.WDG_Cmd hw true
    let hw := hal.WDG_SetReload hw (0xffffffff-wdt.Reload)
    let hw := hal.WDG_FEED hw
    ({ wdt with is_start := 1 },hw,⟨RT_EOK,none⟩)
  | .unsupported => (wdt,hw,⟨-RT_ERROR,none⟩)

/-! ### Sequences of commands -/

/-- The driver and the registers, with the argument of the last `SET_TIMEOUT`
    that returned `RT_EOK`. -/
structure System (H : Type) where
  wdt : WdtObj
  hw : H
  accepted : UInt32

/-- After `rt_wdt_init`; no timeout was set, and the driver's own is 30 s. -/
def init (hw : H) : System H := ⟨⟨0,30*WDT_CLOCK_FREQ_HZ⟩,hw,30⟩

def step (s : System H) (c : Command) : System H × Option Reply :=
  let (wdt,hw,reply) := wdt_control hal s.wdt s.hw c
  let accepted := match c with
    | .setTimeout arg => if reply.ret = RT_EOK then arg else s.accepted
    | _ => s.accepted
  (⟨wdt,hw,accepted⟩,some reply)

/-- What is asked of a command: the timeout read is the last one that was set, a
    refused one changes nothing, and the value programmed is exact. -/
def Faithful (s : System H) (c : Command) : Prop :=
  let (wdt,hw,reply) := wdt_control hal s.wdt s.hw c
  match c with
  | .getTimeout => reply.timeout = some s.accepted
  | .setTimeout _ => reply.ret ≠ RT_EOK → wdt.Reload = s.wdt.Reload
  | .start => ((hal.reload hw).toNat : Int) = 0xffffffff-s.accepted.toNat*32768
  | _ => True

/-- A timeout that is set is no multiple of 131072 s, and one that is read or
    started with is below. -/
def InRange (s : System H) : Command → Prop
  | .setTimeout arg => arg.toNat % 131072 ≠ 0
  | .getTimeout => s.accepted.toNat < 131072
  | .start => s.accepted.toNat < 131072
  | _ => True

instance (s : System H) : (c : Command) → Decidable (InRange s c)
  | .setTimeout arg => inferInstanceAs (Decidable (arg.toNat % 131072 ≠ 0))
  | .getTimeout => inferInstanceAs (Decidable (s.accepted.toNat < 131072))
  | .start => inferInstanceAs (Decidable (s.accepted.toNat < 131072))
  | .keepalive => isTrue trivial
  | .unsupported => isTrue trivial

/-- The reload value is the last timeout in ticks, as far as 32 bits hold it. -/
def Kept (s : System H) : Prop := s.wdt.Reload = s.accepted*WDT_CLOCK_FREQ_HZ ∧ s.accepted.toNat % 131072 ≠ 0

theorem ticks_toNat (t : UInt32) : (t*WDT_CLOCK_FREQ_HZ).toNat = t.toNat % 131072*32768 := by
  have wide := t.toNat_lt
  simp only [WDT_CLOCK_FREQ_HZ,UInt32.toNat_mul,UInt32.reduceToNat]
  omega

theorem ticks_zero (t : UInt32) : t*WDT_CLOCK_FREQ_HZ = 0 ↔ t.toNat % 131072 = 0 := by
  rw [← UInt32.toNat_inj,ticks_toNat]
  simp

theorem ticks_seconds (t : UInt32) : (t*WDT_CLOCK_FREQ_HZ/WDT_CLOCK_FREQ_HZ).toNat = t.toNat % 131072 := by
  rw [UInt32.toNat_div,ticks_toNat]
  simp [WDT_CLOCK_FREQ_HZ]

theorem kept_init (hw : H) : Kept (init hw) := by
  refine ⟨rfl,?_⟩
  simp [init]

/-- A timeout is refused exactly when its ticks vanish in 32 bits. -/
theorem refused_iff (wdt : WdtObj) (hw : H) (arg : UInt32) :
    (wdt_control hal wdt hw (.setTimeout arg)).2.2.ret ≠ RT_EOK ↔ arg.toNat % 131072 = 0 := by
  rw [← ticks_zero]
  by_cases zero : arg*WDT_CLOCK_FREQ_HZ = 0
  · simp [wdt_control,zero,RT_EINVAL,RT_EOK]
  · simp [wdt_control,zero]

theorem set_reload (wdt : WdtObj) (hw : H) (arg : UInt32) :
    (wdt_control hal wdt hw (.setTimeout arg)).1.Reload = arg*WDT_CLOCK_FREQ_HZ := by
  by_cases zero : arg*WDT_CLOCK_FREQ_HZ = 0 <;> simp [wdt_control,zero]

theorem start_reload (documented : hal.Documented) (wdt : WdtObj) (hw : H) :
    hal.reload (wdt_control hal wdt hw .start).2.1 = 0xffffffff-wdt.Reload := by
  simp [wdt_control,documented.feed,documented.set]

theorem kept_step (s : System H) (c : Command) (kept : Kept s) (inRange : InRange s c) : Kept (step hal s c).1 := by
  cases c with
  | setTimeout arg =>
    have taken : (wdt_control hal s.wdt s.hw (.setTimeout arg)).2.2.ret = RT_EOK := by
      by_contra refused
      exact inRange ((refused_iff hal s.wdt s.hw arg).mp refused)
    refine ⟨?_,?_⟩
    · simp only [step,taken,if_true]
      exact set_reload hal s.wdt s.hw arg
    · simp only [step,taken,if_true]
      exact inRange
  | keepalive => exact kept
  | getTimeout => exact kept
  | start => exact kept
  | unsupported => exact kept

theorem ticks_read_iff (t : UInt32) : t*WDT_CLOCK_FREQ_HZ/WDT_CLOCK_FREQ_HZ = t ↔ t.toNat < 131072 := by
  rw [← UInt32.toNat_inj,ticks_seconds]
  omega

theorem faithful_iff (documented : hal.Documented) (s : System H) (c : Command) (kept : Kept s) :
    Faithful hal s c ↔ InRange s c := by
  obtain ⟨reload,positive⟩ := kept
  cases c with
  | getTimeout =>
    have read : (wdt_control hal s.wdt s.hw .getTimeout).2.2.timeout
        = some (s.accepted*WDT_CLOCK_FREQ_HZ/WDT_CLOCK_FREQ_HZ) := by
      rw [← reload]
      rfl
    change (wdt_control hal s.wdt s.hw .getTimeout).2.2.timeout = some s.accepted ↔ s.accepted.toNat < 131072
    rw [read,Option.some_inj]
    exact ticks_read_iff s.accepted
  | setTimeout arg =>
    have refused := refused_iff hal s.wdt s.hw arg
    have stored := set_reload hal s.wdt s.hw arg
    have unchanged : (arg*WDT_CLOCK_FREQ_HZ = s.wdt.Reload) → arg.toNat % 131072 = s.accepted.toNat % 131072 := by
      intro same
      have ticks := congrArg UInt32.toNat (same.trans reload)
      rw [ticks_toNat,ticks_toNat] at ticks
      omega
    constructor
    · intro faithful zero
      have same : (wdt_control hal s.wdt s.hw (.setTimeout arg)).1.Reload = s.wdt.Reload :=
        faithful (refused.mpr zero)
      rw [stored] at same
      have := unchanged same
      omega
    · intro inRange notOk
      exact absurd (refused.mp notOk) inRange
  | start =>
    have programmed := congrArg UInt32.toNat (start_reload hal documented s.wdt s.hw)
    have ticks := ticks_toNat s.accepted
    have wide : s.accepted.toNat % 131072*32768 ≤ 0xffffffff := by omega
    have minus : (0xffffffff-s.wdt.Reload).toNat = 0xffffffff-s.accepted.toNat % 131072*32768 := by
      rw [UInt32.toNat_sub_of_le _ _ (by rw [UInt32.le_iff_toNat_le,reload,ticks]; exact wide),reload,ticks]
      rfl
    rw [minus] at programmed
    change ((hal.reload (wdt_control hal s.wdt s.hw .start).2.1).toNat : Int) = _ ↔ s.accepted.toNat < 131072
    rw [programmed]
    omega
  | keepalive => exact Iff.rfl
  | unsupported => exact Iff.rfl

/-- Every command of a run is answered faithfully exactly when no timeout that is
    set, read or started with is beyond what the 32-bit reload can hold. -/
theorem timeout_faithful_iff (documented : hal.Documented) (hw : H) (commands : List Command) :
    Along (step hal) (Faithful hal) (init hw) commands ↔ Along (step hal) InRange (init hw) commands := by
  refine along_iff_of_invariant (I := Kept) ?_ ?_ (kept_init hw) commands
  · intro s c kept faithful
    exact kept_step hal s c kept ((faithful_iff hal documented s c kept).mp faithful)
  · intro s c kept
    exact faithful_iff hal documented s c kept
end

/-- A watchdog of one register. -/
def plain : Hal UInt32 := ⟨fun _ value => value,id,fun h _ => h,id⟩

theorem plain_documented : plain.Documented := ⟨fun _ _ => rfl,fun _ => rfl,fun _ _ => rfl⟩

/-- With 60 s set, the timeout is read and started with as it was set. -/
theorem timeout_faithful_sixty :
    Along (step plain) (Faithful plain) (init 0) [.setTimeout 60,.getTimeout,.start] :=
  (timeout_faithful_iff plain plain_documented 0 _).mpr (by decide)

/-- A timeout of 131073 s is accepted and read back as 1 s; one of 0 s is refused,
    but the reload is 0 from then on. -/
theorem timeout_wraps :
    (outputs (step plain) (init 0) [.setTimeout 131073,.getTimeout] = [⟨RT_EOK,none⟩,⟨RT_EOK,some 1⟩]
      ∧ ¬ Along (step plain) (Faithful plain) (init 0) [.setTimeout 131073,.getTimeout])
    ∧ ((wdt_control plain ⟨0,30*WDT_CLOCK_FREQ_HZ⟩ 0 (.setTimeout 0)).2.2.ret = -RT_EINVAL
      ∧ (wdt_control plain ⟨0,30*WDT_CLOCK_FREQ_HZ⟩ 0 (.setTimeout 0)).1.Reload = 0
      ∧ ¬ Along (step plain) (Faithful plain) (init 0) [.setTimeout 0]) := by
  refine ⟨⟨by decide,?_⟩,by decide,by decide,?_⟩
  · rintro ⟨-,read,-⟩
    exact absurd read (by simp only [Faithful]; decide)
  · rintro ⟨unchanged,-⟩
    exact absurd (unchanged (by decide)) (by decide)

end Ucm108e.Watchdog
