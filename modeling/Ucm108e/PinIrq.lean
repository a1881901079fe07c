import Mathlib.Logic.Function.Basic
import Ucm108e.Machine
import Ucm108e.RtDef

/-!
Pin interrupts of `drv_gpio.c`. The line of all the pins, bit 25 of `IER`, is to
be on while some pin is enabled in `INTEN`. The driver decides this by a word of
its own, into which it puts the number of a pin and not the pin's bit.
-/
namespace Ucm108e.PinIrq
open Ucm108e.Machine
set_option linter.unusedSimpArgs false

/-- The registers that the interrupt functions reach. -/
structure Registers where
  INTEN : BitVec 32
  INTTYPE0 : BitVec 32
  INTTYPE1 : BitVec 32
  IER : BitVec 32

/-- `rt_pin_irq_hdr`; pointers are addresses, 0 is `RT_NULL`. -/
structure rt_pin_irq_hdr where
  pin : Int
  mode : UInt16
  hdr : UInt32
  args : UInt32
  deriving DecidableEq

/-- Number of entries of `pin_irq_hdr_tab`. -/
def ITEM_NUM : Nat := 29

/-- `pin_irq_hdr_tab` and `pin_irq_enable_mask`. -/
structure Driver where
  pin_irq_hdr_tab : Fin ITEM_NUM → rt_pin_irq_hdr
  pin_irq_enable_mask : BitVec 32

def free : rt_pin_irq_hdr := ⟨-1,0,0,0⟩

def setBit (word : BitVec 32) (pin : Nat) : BitVec 32 := word ||| 1#32 <<< pin

def clearBit (word : BitVec 32) (pin : Nat) : BitVec 32 := word &&& ~~~ (1#32 <<< pin)

def gpio_set_irq_en (r : Registers) (pin : Nat) (enable : Bool) : Registers :=
  if enable then { r with INTEN := setBit r.INTEN pin } else { r with INTEN := clearBit r.INTEN pin }

/-- `GPIO_IRQ_TYPE`: level or edge, high or low. -/
inductive IrqType where
  | highLevel
  | lowLevel
  | riseEdge
  | fallEdge

def IrqType.code : IrqType → BitVec 2
  | .highLevel => 0
  | .lowLevel => 1
  | .riseEdge => 2
  | .fallEdge => 3

def gpio_set_irq_type (r : Registers) (pin : Nat) (type : IrqType) : Registers :=
  let r := if type.code.getLsbD 0 then { r with INTTYPE0 := setBit r.INTTYPE0 pin }
    else { r with INTTYPE0 := clearBit r.INTTYPE0 pin }
  if type.code.getLsbD 1 then { r with INTTYPE1 := setBit r.INTTYPE1 pin }
  else { r with INTTYPE1 := clearBit r.INTTYPE1 pin }

/-- The type for a `PIN_IRQ_MODE`; `RISING_FALLING` and unknown modes leave it as it is. -/
def irqType : UInt16 → Option IrqType
  | 0 => some .riseEdge
  | 1 => some .fallEdge
  | 3 => some .highLevel
  | 4 => some .lowLevel
  | _ => none

def uc8088_pin_attach_irq (d : Driver) (pin : Int) (mode hdr args : UInt32) : Driver × Int :=
  if range : 0 ≤ pin ∧ pin < ITEM_NUM then
    let irqindex : Fin ITEM_NUM := ⟨pin.toNat,by omega⟩
    let entry := d.pin_irq_hdr_tab irqindex
    if entry.pin = pin ∧ entry.hdr = hdr ∧ entry.mode.toUInt32 = mode ∧ entry.args = args then (d,RT_EOK)
    else if entry.pin ≠ -1 then (d,RT_EBUSY)
    else
      let entry := ⟨pin,mode.toUInt16,hdr,args⟩
      ({ d with pin_irq_hdr_tab := Function.update d.pin_irq_hdr_tab irqindex entry },RT_EOK)
  else (d,RT_ENOSYS)

def uc8088_pin_dettach_irq (d : Driver) (pin : Int) : Driver × Int :=
  if range : 0 ≤ pin ∧ pin < ITEM_NUM then
    let irqindex : Fin ITEM_NUM := ⟨pin.toNat,by omega⟩
    if (d.pin_irq_hdr_tab irqindex).pin = -1 then (d,RT_EOK)
    else ({ d with pin_irq_hdr_tab := Function.update d.pin_irq_hdr_tab irqindex free },RT_EOK)
  else (d,RT_ENOSYS)

def PIN_IRQ_DISABLE : UInt32 := 0
def PIN_IRQ_ENABLE : UInt32 := 1

def uc8088_pin_irq_enable (d : Driver) (r : Registers) (pin : Int) (enabled : UInt32) : Driver × Registers × Int :=
  if enabled = PIN_IRQ_ENABLE then
    if range : 0 ≤ pin ∧ pin < ITEM_NUM then
      let entry := d.pin_irq_hdr_tab ⟨pin.toNat,by omega⟩
      if entry.pin = -1 then (d,r,RT_ENOSYS)
      else
        let r := match irqType entry.mode with
          | some type => gpio_set_irq_type r pin.toNat type
          | none => r
        let r := gpio_set_irq_en r pin.toNat true
        let r := { r with IER := setBit r.IER 25 }
        ({ d with pin_irq_enable_mask := d.pin_irq_enable_mask ||| BitVec.ofInt 32 pin },r,RT_EOK)
    else (d,r,RT_ENOSYS)
  else if enabled = PIN_IRQ_DISABLE then
    -- no check of the pin, and its number is cleared where its bit is meant
    let r := gpio_set_irq_en r pin.toNat false
    let mask := d.pin_irq_enable_mask &&& ~~~ BitVec.ofInt 32 pin
    let r := if mask = 0 then { r with IER := clearBit r.IER 25 } else r
    ({ d with pin_irq_enable_mask := mask },r,RT_EOK)
  else (d,r,-RT_ENOSYS)

/-! ### Bits of words -/

theorem setBit_self (word : BitVec 32) {pin : Nat} (small : pin < 32) : (setBit word pin).getLsbD pin = true := by
  simp [setBit,small]

theorem clearBit_self (word : BitVec 32) {pin : Nat} (small : pin < 32) : (clearBit word pin).getLsbD pin = false := by
  simp [clearBit,small]

theorem zero_iff_bits (word : BitVec 32) : word = 0 ↔ ∀ i, word.getLsbD i = false := by
  constructor
  · rintro rfl i
    simp
  · intro bits
    refine BitVec.eq_of_getLsbD_eq fun i _ => ?_
    simp [bits i]

/-- Nothing is left of a word without the bits of another when they were all it had. -/
theorem without_eq_zero (word other : BitVec 32) :
    word &&& ~~~ other = 0 ↔ ¬ ∃ i, word.getLsbD i = true ∧ other.getLsbD i = false := by
  rw [zero_iff_bits]
  push Not
  refine forall_congr' fun i => ?_
  by_cases small : i < 32
  · rw [BitVec.getLsbD_and,BitVec.getLsbD_not]
    simp only [small,decide_true,Bool.true_and]
    cases word.getLsbD i <;> cases other.getLsbD i <;> simp
  · simp [small,BitVec.getLsbD_of_ge word i (by omega)]

theorem bit_getLsbD {pin : Nat} (small : pin < 32) (i : Nat) : (1#32 <<< pin).getLsbD i = decide (i = pin) := by
  rw [← BitVec.twoPow_eq,BitVec.getLsbD_twoPow]
  by_cases same : i = pin
  · simp [same,small]
  · simp [same,small,Ne.symm same]

theorem clearBit_eq_zero (word : BitVec 32) {pin : Nat} (small : pin < 32) :
    clearBit word pin = 0 ↔ ¬ ∃ i, i ≠ pin ∧ word.getLsbD i = true := by
  rw [clearBit,without_eq_zero,not_iff_not]
  refine exists_congr fun i => ?_
  rw [bit_getLsbD small]
  simp [and_comm]

/-! ### Sequences of calls -/

/-- The calls for pins 0 to 28. -/
inductive Call where
  | attach (pin : Fin ITEM_NUM) (mode hdr args : UInt32)
  | dettach (pin : Fin ITEM_NUM)
  | irqEnable (pin : Fin ITEM_NUM) (enabled : UInt32)

structure System where
  driver : Driver
  regs : Registers

def init (regs : Registers) : System := ⟨⟨fun _ => free,0⟩,regs⟩

def step (s : System) : Call → System × Option Int
  | .attach pin mode hdr args =>
    let (driver,ret) := uc8088_pin_attach_irq s.driver pin.val mode hdr args
    (⟨driver,s.regs⟩,some ret)
  | .dettach pin =>
    let (driver,ret) := uc8088_pin_dettach_irq s.driver pin.val
    (⟨driver,s.regs⟩,some ret)
  | .irqEnable pin enabled =>
    let (driver,regs,ret) := uc8088_pin_irq_enable s.driver s.regs pin.val enabled
    (⟨driver,regs⟩,some ret)

/-- The line of the pins, bit 25 of `IER`. -/
def Line (s : System) : Prop := s.regs.IER.getLsbD 25 = true

/-- Some pin is enabled. -/
def Needed (s : System) : Prop := ∃ pin, s.regs.INTEN.getLsbD pin = true

/-- After a call the line is on if a pin needs it, and off if the call disabled
    the last pin. -/
def LineServed (s : System) (call : Call) : Prop :=
  (Needed (step s call).1 → Line (step s call).1) ∧ (Needed s → ¬ Needed (step s call).1 → ¬ Line (step s call).1)

/-- Some pin beside this one is enabled. -/
def OtherEnabled (s : System) (pin : Fin ITEM_NUM) : Prop := ∃ i, i ≠ pin.val ∧ s.regs.INTEN.getLsbD i = true

/-- The mask has a bit that the number of the pin has not. -/
def OtherCounted (s : System) (pin : Fin ITEM_NUM) : Prop :=
  ∃ i, s.driver.pin_irq_enable_mask.getLsbD i = true ∧ (BitVec.ofNat 32 pin.val).getLsbD i = false

/-- When a pin is disabled while some pin is enabled, the mask has a bit beyond
    the pin's number exactly when another pin is enabled. -/
def MaskAgrees (s : System) : Call → Prop
  | .irqEnable pin enabled => enabled = PIN_IRQ_DISABLE → Needed s → (OtherEnabled s pin ↔ OtherCounted s pin)
  | _ => True

theorem needed_iff (s : System) : Needed s ↔ s.regs.INTEN ≠ 0 := by
  rw [Ne,zero_iff_bits]
  simp [Needed]

theorem ofInt_pin (pin : Fin ITEM_NUM) : BitVec.ofInt 32 (pin.val : Int) = BitVec.ofNat 32 pin.val :=
  BitVec.ofInt_natCast 32 pin.val

theorem small (pin : Fin ITEM_NUM) : pin.val < 32 := lt_trans pin.isLt (by decide)

@[simp] theorem irq_type_INTEN (r : Registers) (pin : Nat) (type : IrqType) :
    (gpio_set_irq_type r pin type).INTEN = r.INTEN := by
  cases type <;> rfl

/-- Enabling a pin fails and changes nothing, or switches on the pin and the line. -/
theorem enable_cases (s : System) (pin : Fin ITEM_NUM) :
    (step s (.irqEnable pin PIN_IRQ_ENABLE)).1.regs = s.regs
    ∨ Needed (step s (.irqEnable pin PIN_IRQ_ENABLE)).1 ∧ Line (step s (.irqEnable pin PIN_IRQ_ENABLE)).1 := by
  have range : 0 ≤ (pin.val : Int) ∧ (pin.val : Int) < ITEM_NUM := ⟨by omega,by exact_mod_cast pin.isLt⟩
  by_cases detached : (s.driver.pin_irq_hdr_tab pin).pin = -1
  · left
    simp [step,uc8088_pin_irq_enable,range,detached]
  · right
    refine ⟨⟨pin.val,?_⟩,?_⟩
    · cases kind : irqType (s.driver.pin_irq_hdr_tab pin).mode with
      | none => simp [step,uc8088_pin_irq_enable,range,detached,kind,gpio_set_irq_en,setBit_self _ (small pin)]
      | some type => simp [step,uc8088_pin_irq_enable,range,detached,kind,gpio_set_irq_en,setBit_self _ (small pin)]
    · simp [Line,step,uc8088_pin_irq_enable,range,detached,setBit]

theorem disable_regs (s : System) (pin : Fin ITEM_NUM) :
    (step s (.irqEnable pin PIN_IRQ_DISABLE)).1.regs =
      { s.regs with
        INTEN := clearBit s.regs.INTEN pin.val
        IER := if s.driver.pin_irq_enable_mask &&& ~~~ BitVec.ofNat 32 pin.val = 0 then clearBit s.regs.IER 25
          else s.regs.IER } := by
  have differ : PIN_IRQ_DISABLE ≠ PIN_IRQ_ENABLE := by decide
  simp only [step,uc8088_pin_irq_enable,if_neg differ,if_true,ofInt_pin]
  split <;> rfl

/-- After a pin is disabled, the line is needed by the other pins. -/
theorem disable_needed (s : System) (pin : Fin ITEM_NUM) :
    Needed (step s (.irqEnable pin PIN_IRQ_DISABLE)).1 ↔ OtherEnabled s pin := by
  rw [needed_iff,disable_regs,Ne,clearBit_eq_zero _ (small pin),not_not]
  rfl

/-- A line that was on stays on when the mask has a bit left. -/
theorem disable_line (s : System) (pin : Fin ITEM_NUM) :
    Line (step s (.irqEnable pin PIN_IRQ_DISABLE)).1 ↔ Line s ∧ OtherCounted s pin := by
  have counted := without_eq_zero s.driver.pin_irq_enable_mask (BitVec.ofNat 32 pin.val)
  rw [Line,disable_regs]
  by_cases empty : s.driver.pin_irq_enable_mask &&& ~~~ BitVec.ofNat 32 pin.val = 0
  · simp only [if_pos empty,clearBit_self _ (show 25 < 32 by decide)]
    exact iff_of_false Bool.false_ne_true fun both => counted.mp empty both.2
  · simp only [if_neg empty]
    exact ⟨fun on => ⟨on,not_not.mp (mt counted.mpr empty)⟩,And.left⟩

/-- Calls other than enabling and disabling leave the registers alone. -/
theorem other_regs (s : System) (pin : Fin ITEM_NUM) {enabled : UInt32} (on : enabled ≠ PIN_IRQ_ENABLE)
    (off : enabled ≠ PIN_IRQ_DISABLE) : (step s (.irqEnable pin enabled)).1.regs = s.regs := by
  simp [step,uc8088_pin_irq_enable,on,off]

/-- The line is on exactly while a pin is enabled. -/
def Matched (s : System) : Prop := Line s ↔ Needed s

theorem line_congr {s t : System} (same : s.regs = t.regs) : Line s ↔ Line t := by
  simp only [Line,same]

theorem needed_congr {s t : System} (same : s.regs = t.regs) : Needed s ↔ Needed t := by
  simp only [Needed,same]

theorem matched_step (s : System) (call : Call) (matched : Matched s) (served : LineServed s call) :
    Matched (step s call).1 := by
  refine ⟨?_,served.1⟩
  intro on
  by_contra unneeded
  -- the line is on although no pin is enabled, so none was before and the line was off
  have before : ¬ Needed s := fun needed => served.2 needed unneeded on
  have off : ¬ Line s := fun line => before (matched.mp line)
  cases call with
  | attach pin mode hdr args => exact off on
  | dettach pin => exact off on
  | irqEnable pin enabled =>
    by_cases enable : enabled = PIN_IRQ_ENABLE
    · subst enable
      rcases enable_cases s pin with same | ⟨needed,-⟩
      · exact off ((line_congr same).mp on)
      · exact unneeded needed
    · by_cases disable : enabled = PIN_IRQ_DISABLE
      · subst disable
        exact off ((disable_line s pin).mp on).1
      · exact off ((line_congr (other_regs s pin enable disable)).mp on)

theorem served_of_same {s : System} {call : Call} (matched : Matched s) (same : (step s call).1.regs = s.regs) :
    LineServed s call := by
  refine ⟨?_,?_⟩
  · intro needed
    exact (line_congr same).mpr (matched.mpr ((needed_congr same).mp needed))
  · intro needed unneeded
    exact absurd ((needed_congr same).mpr needed) unneeded

theorem served_iff (s : System) (call : Call) (matched : Matched s) : LineServed s call ↔ MaskAgrees s call := by
  cases call with
  | attach pin mode hdr args => exact iff_of_true (served_of_same matched rfl) trivial
  | dettach pin => exact iff_of_true (served_of_same matched rfl) trivial
  | irqEnable pin enabled =>
    by_cases disable : enabled = PIN_IRQ_DISABLE
    · subst disable
      have fewer : OtherEnabled s pin → Needed s := fun ⟨i,_,enabled⟩ => ⟨i,enabled⟩
      have on : Needed s → Line s := matched.mpr
      simp only [LineServed,MaskAgrees,forall_const,disable_needed,disable_line]
      tauto
    · refine iff_of_true ?_ fun disabled => absurd disabled disable
      by_cases enable : enabled = PIN_IRQ_ENABLE
      · subst enable
        rcases enable_cases s pin with same | ⟨needed,line⟩
        · exact served_of_same matched same
        · exact ⟨fun _ => line,fun _ unneeded => absurd needed unneeded⟩
      · exact served_of_same matched (other_regs s pin enable disable)

/-- In every run the line is on while a pin needs it and goes off with the last
    one, exactly when the mask tells at each disabling whether a pin is left. -/
theorem line_served_iff (regs : Registers) (none : regs.INTEN = 0) (off : regs.IER.getLsbD 25 = false)
    (calls : List Call) : Along step LineServed (init regs) calls ↔ Along step MaskAgrees (init regs) calls := by
  have start : Matched (init regs) := by
    have unneeded : ¬ Needed (init regs) := by
      rw [needed_iff,not_not]
      exact none
    have dark : ¬ Line (init regs) := by
      rw [Line]
      exact ne_true_of_eq_false off
    exact iff_of_false dark unneeded
  refine along_iff_of_invariant (I := Matched) ?_ ?_ start calls
  · intro s call matched served
    exact matched_step s call matched served
  · intro s call matched
    exact served_iff s call matched

def quiet : Registers := ⟨0,0,0,0⟩

def pin1 : Fin ITEM_NUM := ⟨1,by decide⟩
def pin3 : Fin ITEM_NUM := ⟨3,by decide⟩

/-- One pin, attached, enabled and disabled. -/
theorem line_served_one :
    Along step LineServed (init quiet)
      [.attach pin1 0 1 0,.irqEnable pin1 PIN_IRQ_ENABLE,.irqEnable pin1 PIN_IRQ_DISABLE] := by
  refine (line_served_iff quiet rfl rfl _).mpr ⟨trivial,fun off => absurd off (by decide),?_,trivial⟩
  rintro - -
  refine iff_of_false ?_ ?_
  · rw [OtherEnabled,← clearBit_eq_zero _ (by decide)]
    decide +kernel
  · rw [OtherCounted,← without_eq_zero]
    decide +kernel

/-- Pins 1 and 3 enabled, then pin 3 disabled: the number 3 takes the bit of pin
    1's number out of the mask, and the line goes off under pin 1. -/
theorem line_off_early :
    let calls : List Call := [.attach pin1 0 1 0,.attach pin3 0 1 0,.irqEnable pin1 PIN_IRQ_ENABLE,
      .irqEnable pin3 PIN_IRQ_ENABLE,.irqEnable pin3 PIN_IRQ_DISABLE]
    (final step (init quiet) calls).regs.INTEN = 2 ∧ (final step (init quiet) calls).regs.IER = 0
    ∧ ¬ Along step LineServed (init quiet) calls := by
  refine ⟨by decide +kernel,by decide +kernel,?_⟩
  rintro ⟨-,-,-,-,⟨on,-⟩,-⟩
  exact absurd (on ⟨1,by decide +kernel⟩) (by simp only [Line]; decide +kernel)

end Ucm108e.PinIrq
