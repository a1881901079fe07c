import Mathlib
import Ucm108e.PinIrq

/-!
What `gpio_handler` of `drv_gpio.c` calls for the pins whose interrupts are pending. It
takes the whole status word for one bit: of a word with two bits or more `bit2bitno`
makes -1, and no handler is called, while `default_int_handler` of `interrupt_handle.c`
clears the interrupt all the same.
-/
namespace Ucm108e.PinDispatch
open Ucm108e.Machine Ucm108e.PinIrq
set_option linter.unusedSimpArgs false

/-- A call of a handler with its argument. -/
abbrev Invocation := UInt32 × UInt32

def bit2bitno (bit : BitVec 32) : Int :=
  match (List.range 32).find? fun i => 1#32 <<< i = bit with
  | some i => i
  | none => -1

theorem index_lt {irqno : Int} (range : 0 ≤ irqno ∧ irqno < ITEM_NUM) : irqno.toNat < ITEM_NUM :=
  (Int.toNat_lt range.1).mpr range.2

def pin_irq_hdr (d : Driver) (irqno : Int) : List Invocation :=
  if range : 0 ≤ irqno ∧ irqno < ITEM_NUM then
    let entry := d.pin_irq_hdr_tab ⟨irqno.toNat,index_lt range⟩
    if entry.hdr ≠ 0 then [(entry.hdr,entry.args)] else []
  else []

/-- `gpio_handler`, for the word that `gpio_get_irq_status` reads. -/
def gpio_handler (d : Driver) (INTSTATUS : BitVec 32) : List Invocation := pin_irq_hdr d (bit2bitno INTSTATUS)

/-- `default_int_handler`: the calls, and the pending interrupts after the store to `ICP`. -/
def default_int_handler (g_interrupt_vector : Nat → Option (List Invocation)) (mcause IPR : BitVec 32) :
    List Invocation × BitVec 32 :=
  let mcause := (mcause &&& 0xff#32).toNat
  if mcause > 31 then ([],IPR) else ((g_interrupt_vector mcause).getD [],clearBit IPR mcause)

/-! ### The handlers that are due -/

/-- A pin whose bit is set and that has a handler. -/
def due (d : Driver) (INTSTATUS : BitVec 32) (pin : Fin ITEM_NUM) : Bool :=
  INTSTATUS.getLsbD pin && (d.pin_irq_hdr_tab pin).hdr ≠ 0

/-- One call for each of these pins, with the pin's own argument. -/
def pending (d : Driver) (INTSTATUS : BitVec 32) : List Invocation :=
  ((List.finRange ITEM_NUM).filter (due d INTSTATUS)).map fun pin =>
    ((d.pin_irq_hdr_tab pin).hdr,(d.pin_irq_hdr_tab pin).args)

theorem pending_eq_nil (d : Driver) (INTSTATUS : BitVec 32) : pending d INTSTATUS = []
    ↔ ∀ pin : Fin ITEM_NUM, INTSTATUS.getLsbD pin = true → (d.pin_irq_hdr_tab pin).hdr = 0 := by
  simp [pending,due,List.filter_eq_nil_iff]

/-- An entry is free, or is the one of its pin. -/
def Attached (s : System) : Prop :=
  ∀ pin, s.driver.pin_irq_hdr_tab pin = free ∨ (s.driver.pin_irq_hdr_tab pin).pin = pin.val

theorem attach_table (s : System) (pin : Fin ITEM_NUM) (mode hdr args : UInt32) :
    (step s (.attach pin mode hdr args)).1.driver.pin_irq_hdr_tab = s.driver.pin_irq_hdr_tab
      ∨ (step s (.attach pin mode hdr args)).1.driver.pin_irq_hdr_tab
        = Function.update s.driver.pin_irq_hdr_tab pin ⟨pin.val,mode.toUInt16,hdr,args⟩ := by
  simp only [step,uc8088_pin_attach_irq]
  split_ifs
  · exact .inl rfl
  · exact .inl rfl
  · exact .inr rfl
  · exact .inl rfl

theorem dettach_table (s : System) (pin : Fin ITEM_NUM) :
    (step s (.dettach pin)).1.driver.pin_irq_hdr_tab = s.driver.pin_irq_hdr_tab
      ∨ (step s (.dettach pin)).1.driver.pin_irq_hdr_tab = Function.update s.driver.pin_irq_hdr_tab pin free := by
  simp only [step,uc8088_pin_dettach_irq]
  split_ifs
  · exact .inl rfl
  · exact .inr rfl
  · exact .inl rfl

theorem enable_table (s : System) (pin : Fin ITEM_NUM) (enabled : UInt32) :
    (step s (.irqEnable pin enabled)).1.driver.pin_irq_hdr_tab = s.driver.pin_irq_hdr_tab := by
  simp only [step,uc8088_pin_irq_enable]
  split_ifs
  all_goals rfl

theorem attached_step (s : System) (call : Call) (attached : Attached s) : Attached (step s call).1 := by
  have updated : ∀ {pin entry}, entry = free ∨ entry.pin = pin.val →
      ∀ x, Function.update s.driver.pin_irq_hdr_tab pin entry x = free
        ∨ (Function.update s.driver.pin_irq_hdr_tab pin entry x).pin = x.val := by
    intro pin entry own x
    by_cases same : x = pin
    · rw [same,Function.update_self]
      exact own
    · rw [Function.update_of_ne same]
      exact attached x
  unfold Attached
  cases call with
  | attach pin mode hdr args =>
    rcases attach_table s pin mode hdr args with table | table
    · rw [table]
      exact attached
    · rw [table]
      exact updated (.inr rfl)
  | dettach pin =>
    rcases dettach_table s pin with table | table
    · rw [table]
      exact attached
    · rw [table]
      exact updated (.inl rfl)
  | irqEnable pin enabled =>
    rw [enable_table]
    exact attached

/-- In every run a handler in the table is one that was attached to its pin. -/
theorem handlers_attached (regs : Registers) (calls : List Call) : Attached (final step (init regs) calls) :=
  final_invariant (A := fun _ _ => True) (fun s call attached _ => attached_step s call attached)
    (fun _ => .inl rfl) (along_true step _ calls)

/-! ### One bit -/

theorem bit2bitno_bit : ∀ i : Nat, i < 32 → bit2bitno (1#32 <<< i) = i := by decide

theorem bit2bitno_other {INTSTATUS : BitVec 32} (several : ∀ i < 32, INTSTATUS ≠ 1#32 <<< i) :
    bit2bitno INTSTATUS = -1 := by
  have none : (List.range 32).find? (fun i => 1#32 <<< i = INTSTATUS) = none := by
    rw [List.find?_eq_none]
    intro i member same
    exact several i (List.mem_range.mp member) (of_decide_eq_true same).symm
  rw [bit2bitno,none]

theorem due_bit (d : Driver) {i : Nat} (small : i < 32) : due d (1#32 <<< i)
    = fun pin => decide (pin.val = i) && decide ((d.pin_irq_hdr_tab pin).hdr ≠ 0) := by
  funext pin
  rw [due,bit_getLsbD small]

theorem filter_single (pin : Fin ITEM_NUM) (p : Fin ITEM_NUM → Bool) :
    (List.finRange ITEM_NUM).filter (fun x => decide (x.val = pin.val) && p x) = if p pin then [pin] else [] := by
  have one : (List.finRange ITEM_NUM).filter (fun x => decide (x = pin)) = [pin] := by
    rw [List.filter_eq,List.count_eq_one_of_mem (List.nodup_finRange _) (List.mem_finRange pin)]
    rfl
  simp only [← Fin.ext_iff,Bool.and_comm _ (p _)]
  rw [← List.filter_filter,one,List.filter_singleton]
  exact Bool.cond_eq_ite _ _ _

theorem handler_bit (d : Driver) {i : Nat} (small : i < 32) : gpio_handler d (1#32 <<< i) = pending d (1#32 <<< i) := by
  rw [gpio_handler,bit2bitno_bit i small,pending,due_bit d small]
  by_cases inside : i < ITEM_NUM
  · have range : (0 : Int) ≤ i ∧ (i : Int) < ITEM_NUM := ⟨Int.natCast_nonneg i,by exact_mod_cast inside⟩
    rw [pin_irq_hdr,dif_pos range,filter_single ⟨i,inside⟩]
    simp only [Int.toNat_natCast,decide_eq_true_eq]
    split
    · rfl
    · rfl
  · have outside : ¬((0 : Int) ≤ i ∧ (i : Int) < ITEM_NUM) := fun range => inside (by exact_mod_cast range.2)
    rw [pin_irq_hdr,dif_neg outside]
    refine (List.map_eq_nil_iff.mpr (List.filter_eq_nil_iff.mpr fun pin _ => ?_)).symm
    have other : pin.val ≠ i := by omega
    simp [other]

theorem handler_other (d : Driver) {INTSTATUS : BitVec 32} (several : ∀ i < 32, INTSTATUS ≠ 1#32 <<< i) :
    gpio_handler d INTSTATUS = [] := by
  rw [gpio_handler,bit2bitno_other several]
  rfl

/-- The handlers that are due are called, each once, and no others, exactly when one bit
    of the status is set, or no pin whose bit is set has a handler. -/
theorem dispatch_iff (d : Driver) (INTSTATUS : BitVec 32) :
    (gpio_handler d INTSTATUS).Perm (pending d INTSTATUS)
      ↔ (∃ i < 32, INTSTATUS = 1#32 <<< i)
        ∨ ∀ pin : Fin ITEM_NUM, INTSTATUS.getLsbD pin = true → (d.pin_irq_hdr_tab pin).hdr = 0 := by
  rw [← pending_eq_nil]
  by_cases single : ∃ i < 32, INTSTATUS = 1#32 <<< i
  · refine iff_of_true ?_ (.inl single)
    obtain ⟨i,small,rfl⟩ := single
    rw [handler_bit d small]
  · have several : ∀ i < 32, INTSTATUS ≠ 1#32 <<< i := fun i small same => single ⟨i,small,same⟩
    rw [handler_other d several,List.nil_perm]
    exact ⟨.inr,fun either => either.resolve_left single⟩

/-- Pins 0 and 1, with a handler and an argument each. -/
def twoPins : Driver := ⟨fun pin => if pin.val = 0 then ⟨0,0,0x100,7⟩ else if pin.val = 1 then ⟨1,0,0x200,8⟩ else free,0⟩

/-- When both are pending, neither handler is called. -/
theorem both_lost : gpio_handler twoPins 3 = [] ∧ pending twoPins 3 = [(0x100,7),(0x200,8)] := by
  decide +kernel

/-- The interrupt of two pins calls no handler, and is not pending any more. -/
theorem interrupt_lost (d : Driver) {INTSTATUS : BitVec 32} {i j : Nat} (differ : i ≠ j)
    (first : INTSTATUS.getLsbD i = true) (second : INTSTATUS.getLsbD j = true)
    {g_interrupt_vector : Nat → Option (List Invocation)}
    (vector : g_interrupt_vector 25 = some (gpio_handler d INTSTATUS)) (IPR : BitVec 32) :
    (default_int_handler g_interrupt_vector 25 IPR).1 = []
      ∧ (default_int_handler g_interrupt_vector 25 IPR).2.getLsbD 25 = false := by
  have several : ∀ k < 32, INTSTATUS ≠ 1#32 <<< k := by
    rintro k small rfl
    rw [bit_getLsbD small,decide_eq_true_eq] at first second
    exact differ (first.trans second.symm)
  have cause : ((25 : BitVec 32) &&& 0xff#32).toNat = 25 := by decide
  simp only [default_int_handler,cause,vector,handler_other d several]
  exact ⟨rfl,clearBit_self IPR (by decide)⟩

end Ucm108e.PinDispatch
