import Mathlib
import Ucm108e.Rv32

/-!
The context switches of `context_gcc.S`, the interrupt entry `ISR_ALL_ASM` of
`crt0.flash.S` and `rt_hw_stack_init` of `stack.c`, with `ARCH_RISCV_FPU` on. They
share one frame of 64 words: `f0` to `f31`, then `epc`, `ra`, `mstatus`, `gp` and
`x4` to `x31`. `frameAt` reads a frame; the sequences are compared with it, the
saves by what they leave to be read and the restores by what they take from it.
-/
namespace Ucm108e.ContextSwitch
open Ucm108e.Words
open Ucm108e.Rv32
set_option linter.unusedSimpArgs false

@[simp] def ra : Reg := 1
@[simp] def sp : Reg := 2
@[simp] def t0 : Reg := 5
@[simp] def s0 : Reg := 8
@[simp] def s1 : Reg := 9
@[simp] def a0 : Reg := 10
@[simp] def a1 : Reg := 11
@[simp] def a2 : Reg := 12
@[simp] def a5 : Reg := 15
@[simp] def s2 : Reg := 18

/-! ### The sequences of the source -/

/-- `csrrci a0, mstatus, 8`. -/
def rt_hw_interrupt_disable (h : Hart) : Hart :=
  (h.set a0 (h.csr .mstatus)).setCsr .mstatus (h.csr .mstatus &&& ~~~ 8)

/-- `rt_hw_context_switch` up to `sw x4, 4 * 4(sp)`. -/
def switchHead (h : Hart) : Hart :=
  h |> run [.addi sp sp (-128),.addi sp sp (-128)]
    |> run (saveF sp (upFrom 0))
    |> run [.sw sp 0 a0,.addi sp sp 128,.sw ra 0 sp,.sw ra 4 sp,.csrr a0 .mstatus,.andi a0 a0 8]
    |> beqz a0 [.li a0 0x80]
    |> run [.sw a0 8 sp]

/-- `rt_hw_context_switch` up to `lw sp, (a1)`: the frame of the thread that leaves. -/
def switchSave (h : Hart) : Hart := run (saveX sp (upFrom 4)) (switchHead h)

/-- The floating point part of a frame is taken, `sp` is at its upper half. -/
def popFloats (h : Hart) : Hart :=
  h |> run (restoreF sp (upFrom 0))
    |> run [.addi sp sp 128]

/-- The way out of a frame: the three restores differ in how they come to `mepc`,
    `ra` and `mstatus` before the other registers are taken. -/
def popFrame (between : List Instr) (h : Hart) : Hart :=
  popFloats h |> run between
    |> run (restoreX sp (upFrom 4))
    |> run [.addi sp sp 128]
    |> mret

/-- `mepc`, `ra` and `mstatus` in `rt_hw_context_switch`. -/
def switchTake : List Instr :=
  [.lw a1 0 sp,.csrw .mepc a1,.lw ra 4 sp,.li a1 0x1800,.csrs .mstatus a1,.lw a1 8 sp,.csrs .mstatus a1]

/-- `rt_hw_context_switch` from `lw sp, (a1)` on. -/
def switchRestore (h : Hart) : Hart := h |> run [.lw sp 0 a1] |> popFrame switchTake

def rt_hw_context_switch (h : Hart) : Hart := switchRestore (switchSave h)

/-- `mepc`, `ra` and `mstatus` in `rt_hw_context_switch_to`. -/
def startTake : List Instr := [.lw a0 0 sp,.csrw .mepc a0,.lw ra 4 sp,.lw a0 8 sp,.csrw .mstatus a0]

def rt_hw_context_switch_to (h : Hart) : Hart := h |> run [.lw sp 0 a0] |> popFrame startTake

/-- The variables that the interrupt path shares with the kernel, by address. -/
structure Globals where
  rt_thread_switch_interrupt_flag : Word
  rt_interrupt_from_thread : Word
  rt_interrupt_to_thread : Word
  _sp : Word

def rt_hw_context_switch_interrupt (g : Globals) (h : Hart) : Hart :=
  h |> run [.addi sp sp (-16),.sw s0 12 sp,.sw a0 8 sp,.sw a5 4 sp,
        .li a0 g.rt_thread_switch_interrupt_flag,.lw a5 0 a0]
    |> bnez a5 [.li a5 1,.sw a5 0 a0,.li a5 g.rt_interrupt_from_thread,.lw a0 8 sp,.sw a0 0 a5]
    |> run [.li a5 g.rt_interrupt_to_thread,.sw a1 0 a5,.lw a5 4 sp,.lw a0 8 sp,.lw s0 12 sp,.addi sp sp 16]

/-- `ISR_ALL_ASM` up to `sw x4, 4 * 4(sp)`. -/
def isrHead (h : Hart) : Hart := run [.addi sp sp (-128),.sw ra 4 sp,.sw t0 20 sp,.li t0 0x80,.sw t0 8 sp] h

/-- `ISR_ALL_ASM` up to the call of `rt_interrupt_enter`. -/
def isrSave (g : Globals) (h : Hart) : Hart :=
  isrHead h |> run (saveX sp (4 :: upFrom 6))
    |> run [.addi sp sp (-128)]
    |> run (saveF sp (upFrom 0))
    |> run [.mv s0 sp,.li sp g._sp]

/-- `ISR_ALL_ASM` between the return of `rt_interrupt_enter` and the call of
    `default_int_handler`. -/
def isrArguments (h : Hart) : Hart := run [.csrr a0 .mcause,.csrr a1 .mepc,.mv a2 sp] h

/-- `ISR_ALL_ASM` between the return of `rt_interrupt_leave` and
    `spurious_interrupt_all`: the switch, if one was requested. -/
def isrSwitch (g : Globals) (h : Hart) : Hart :=
  h |> run [.mv sp s0,.li s0 g.rt_thread_switch_interrupt_flag,.lw s2 0 s0]
    |> beqz s2 [.sw 0 0 s0,.csrr a0 .mepc,.sw a0 128 sp,.li s0 g.rt_interrupt_from_thread,.lw s1 0 s0,.sw sp 0 s1,
        .li s0 g.rt_interrupt_to_thread,.lw s1 0 s0,.lw sp 0 s1,.lw a0 128 sp,.csrw .mepc a0]

/-- `ra` and `mstatus` in `ISR_ALL_ASM`; `mepc` is set by then. -/
def isrTake : List Instr := [.lw ra 4 sp,.li t0 0x1800,.csrs .mstatus t0,.lw t0 8 sp,.csrs .mstatus t0]

/-- `ISR_ALL_ASM` from `spurious_interrupt_all` on. -/
def isrRestore (h : Hart) : Hart := popFrame isrTake h

/-- `RT_ALIGN_DOWN`. -/
def RT_ALIGN_DOWN (size align : Word) : Word := size &&& ~~~ (align-1)

/-- `rt_hw_stack_init`: the address it returns and the memory it leaves. -/
def rt_hw_stack_init (m : Memory) (tentry parameter stack_addr texit : Word) : Word × Memory :=
  let stk := RT_ALIGN_DOWN (stack_addr+4) 8-256
  let filled := lay m stk ((List.range 64).map fun i => (i,0xa5a5a5a5))
  (stk,lay filled stk [(33,texit),(42,parameter),(32,tentry),(34,0x1880)])

/-! ### Frames -/

/-- What a thread goes on with: where, and its registers. -/
structure Context where
  pc : Word
  x : Reg → Word
  f : Reg → Word

/-- The context that a frame holds. The stack pointer is not stored: it is where
    the frame ends. -/
def frameAt (m : Memory) (base : Word) : Context where
  pc := load m (slot base 32)
  x r := if r = sp then slot base 64 else load m (slot base (32+r.val))
  f r := load m (slot base r.val)

/-- `mstatus` of a frame. -/
def statusAt (m : Memory) (base : Word) : Word := load m (slot base 34)

end Ucm108e.ContextSwitch
