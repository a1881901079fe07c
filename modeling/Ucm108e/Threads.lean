import Mathlib
import Ucm108e.Frames
import Ucm108e.Machine

/-!
Threads on one hart. The machine runs the code of the source; beside it stands, for
every thread that does not run, the context it was switched out with. A run mixes
new threads, the start of the first one, voluntary switches and interrupts, in which
`rt_hw_context_switch_interrupt` may be called any number of times, with whatever the
threads themselves compute.

What the rest of the firmware is trusted with is said by `Allowed`: it leaves the
frames of the others and the words of the kernel alone, each stack has room for a
frame, interrupts come only when they are enabled and C functions keep the registers
that the calling convention gives to the caller. A voluntary switch is taken to run to
its end, as it does with interrupts disabled.
-/
namespace Ucm108e.Threads
open Ucm108e.Machine
open Ucm108e.Words
open Ucm108e.Rv32
open Ucm108e.ContextSwitch
open Ucm108e.Frames
set_option linter.unusedSimpArgs false

variable {T : Type}

/-! ### The words of the kernel -/

/-- The word of a thread that holds its stack pointer, and the variables of the
    interrupt path. -/
inductive Place (T : Type) where
  | cell (t : T)
  | flag
  | source
  | target

def Place.address (cell : T → Word) (g : Globals) : Place T → Word
  | .cell t => cell t
  | .flag => g.rt_thread_switch_interrupt_flag
  | .source => g.rt_interrupt_from_thread
  | .target => g.rt_interrupt_to_thread

/-- Where these words lie; no two overlap. `cell t` is `&t->sp`. -/
structure Layout (T : Type) where
  cell : T → Word
  globals : Globals
  apart : ∀ p q : Place T, p ≠ q → ∀ b, Within (p.address cell globals) 4 b → ¬ Within (q.address cell globals) 4 b

def Layout.address (L : Layout T) (p : Place T) : Word := p.address L.cell L.globals

/-! ### Threads that do not run -/

/-- How a thread came to lie in its frame. -/
inductive Way where
  | created | switched | interrupted
  deriving DecidableEq

/-- What a thread was switched out with. -/
structure Saved where
  way : Way
  context : Context
  mie : Bool

/-- The registers it is to find again: after a voluntary switch all but `a0`. -/
def Saved.Wanted (c : Saved) (r : Reg) : Prop := Carried r ∧ (c.way = .switched → r ≠ a0)

/-- Where its frame starts. -/
def Saved.base (c : Saved) : Word := c.context.x sp-256

/-- A thread goes on with what it was switched out with. -/
structure Restored (c : Saved) (h : Hart) : Prop where
  pc : h.pc = c.context.pc
  x : ∀ r, c.Wanted r → h.get r = c.context.x r
  f : ∀ r, h.f r = c.context.f r

structure System (T : Type) where
  hart : Hart
  current : Option T
  saved : T → Option Saved

/-! ### Events -/

/-- What happens while a C function runs in an interrupt. -/
inductive Act (T : Type) where
  | compute (x f : Reg → Word) (mem : Memory)
  | request (source target : T)

inductive Event (T : Type) where
  /-- `rt_hw_stack_init` for a new thread, and its result put into `thread->sp`. -/
  | create (t : T) (tentry parameter stack_addr texit : Word)
  /-- `rt_hw_context_switch_to`. -/
  | start (t : T)
  /-- The running code goes on to another state of the hart. -/
  | compute (h : Hart)
  /-- `rt_hw_context_switch` from the running thread. -/
  | switch (next : T)
  /-- `ISR_ALL_ASM`, with what happens in the three calls it makes. -/
  | interrupt (cause : Word) (enter handler leave : List (Act T))

variable [DecidableEq T] (L : Layout T)

/-- The hart as `rt_hw_context_switch` is entered. -/
def calling (cur next : T) (h : Hart) : Hart := (h.set a0 (L.cell cur)).set a1 (L.cell next)

def act (h : Hart) : Act T → Hart × Option Empty
  | .compute x f mem => (((h.setX x).setF f).setMem mem,none)
  | .request source target => (rt_hw_context_switch_interrupt L.globals (calling L source target h),none)

def call (acts : List (Act T)) (h : Hart) : Hart := final (act L) h acts

/-- `ISR_ALL_ASM` at the return of `rt_interrupt_leave`. -/
def isrHandled (cause : Word) (enter handler leave : List (Act T)) (h : Hart) : Hart :=
  trap cause h |> isrSave L.globals
    |> call L enter
    |> isrArguments
    |> call L handler
    |> call L leave

def ISR_ALL_ASM (cause : Word) (enter handler leave : List (Act T)) (h : Hart) : Hart :=
  isrHandled L cause enter handler leave h |> isrSwitch L.globals |> isrRestore

def requests (acts : List (Act T)) : List (T × T) :=
  acts.filterMap fun
    | .compute .. => none
    | .request source target => some (source,target)

/-- A thread in `rt_hw_context_switch`, and an interrupted one. -/
def switchedOut (h : Hart) : Saved := ⟨.switched,⟨h.get ra,h.get,h.f⟩,h.mie⟩
def interrupted (h : Hart) : Saved := ⟨.interrupted,⟨h.pc,h.get,h.f⟩,h.mie⟩

/-- The threads that do not run once the running one has left. -/
def outgoing (s : System T) (e : Event T) : T → Option Saved :=
  match e,s.current with
  | .switch next,some cur => Function.update s.saved cur (some (switchedOut (calling L cur next s.hart)))
  | .interrupt ..,some cur => Function.update s.saved cur (some (interrupted s.hart))
  | _,_ => s.saved

/-- The thread that is to run after an event: at the end of an interrupt the last
    one requested, or the interrupted one. -/
def incoming (s : System T) (e : Event T) : Option T :=
  match e,s.current with
  | .start t,_ => some t
  | .switch next,some _ => some next
  | .interrupt _ enter handler leave,some cur =>
    some (((requests (enter ++ handler ++ leave)).getLast?.map Prod.snd).getD cur)
  | _,_ => none

/-- What the machine does. -/
def execute (s : System T) : Event T → Hart
  | .create t tentry parameter stack_addr texit =>
    let (stk,m) := rt_hw_stack_init s.hart.mem tentry parameter stack_addr texit
    s.hart.setMem (store m (L.cell t) stk)
  | .start t => rt_hw_context_switch_to (s.hart.set a0 (L.cell t))
  | .compute h => h
  | .switch next =>
    match s.current with
    | some cur => rt_hw_context_switch (calling L cur next s.hart)
    | none => s.hart
  | .interrupt cause enter handler leave =>
    match s.current with
    | some _ => ISR_ALL_ASM L cause enter handler leave s.hart
    | none => s.hart

/-- The threads that do not run after an event. -/
def remaining (s : System T) (e : Event T) : T → Option Saved :=
  match e with
  | .create t tentry parameter stack_addr texit =>
    let stk := (rt_hw_stack_init s.hart.mem tentry parameter stack_addr texit).1
    Function.update s.saved t (some ⟨.created,initial tentry parameter texit stk,true⟩)
  | e =>
    match incoming s e with
    | some t => Function.update (outgoing L s e) t none
    | none => s.saved

def step (s : System T) (e : Event T) : System T × Option Empty :=
  (⟨execute L s e,(incoming s e).or s.current,remaining L s e⟩,none)

def boot (h : Hart) : System T := ⟨h,none,fun _ => none⟩

/-! ### What the rest of the firmware is trusted with -/

/-- The `n` bytes from `a` on are apart from the words of the kernel and from the
    frames. -/
def Room (saved : T → Option Saved) (a : Word) (n : Nat) : Prop :=
  ∀ b, Within a n b → (∀ p, ¬ Within (L.address p) 4 b) ∧ ∀ t c, saved t = some c → ¬ Within c.base 256 b

/-- The byte `b` belongs to a thread that does not run. -/
def Owned (saved : T → Option Saved) (b : Word) : Prop :=
  ∃ t c, saved t = some c ∧ (Within (L.cell t) 4 b ∨ Within c.base 256 b)

/-- Code leaves alone what belongs to threads that do not run and to the interrupt
    path. -/
def Respects (saved : T → Option Saved) (m m' : Memory) : Prop :=
  ∀ b, (Owned L saved b ∨ ∃ p, (∀ t, p ≠ .cell t) ∧ Within (L.address p) 4 b) → m' b = m b

def ActAllowed (saved : T → Option Saved) (h : Hart) : Act T → Prop
  | .compute _ _ mem => Respects L saved h.mem mem
  | .request source target => Room L saved (scratch (calling L source target h)) 16

/-- The registers that a C function gives back as it found them. -/
def CalleeSaved (r : Reg) : Prop := r = sp ∨ r = s0 ∨ r = s1 ∨ 18 ≤ r.val ∧ r.val ≤ 27

structure CallAllowed (saved : T → Option Saved) (acts : List (Act T)) (h : Hart) : Prop where
  each : Along (act L) (ActAllowed L saved) h acts
  kept : ∀ r, CalleeSaved r → (call L acts h).get r = h.get r

/-- The calls that `ISR_ALL_ASM` makes. -/
structure CallsAllowed (saved : T → Option Saved) (enter handler leave : List (Act T)) (h : Hart) : Prop where
  entered : CallAllowed L saved enter h
  handled : CallAllowed L saved handler (isrArguments (call L enter h))
  left : CallAllowed L saved leave (call L handler (isrArguments (call L enter h)))

structure InterruptAllowed (s : System T) (cur : T) (cause : Word) (enter handler leave : List (Act T)) : Prop where
  running : s.current = some cur
  enabled : s.hart.mie = true
  room : Room L s.saved (pushed s.hart) 256
  calls : CallsAllowed L (Function.update s.saved cur (some (interrupted s.hart))) enter handler leave
    (isrSave L.globals (trap cause s.hart))
  /-- `rt_schedule` asks to leave the running thread. -/
  first : ∀ q, (requests (enter ++ handler ++ leave)).head? = some q → q.1 = cur
  /-- The thread asked for last exists. -/
  last : ∀ q, (requests (enter ++ handler ++ leave)).getLast? = some q → q.2 ≠ cur → ∃ c, s.saved q.2 = some c

def Allowed (s : System T) : Event T → Prop
  | .create t tentry parameter stack_addr texit =>
    s.saved t = none ∧ s.current ≠ some t ∧
      Room L s.saved (rt_hw_stack_init s.hart.mem tentry parameter stack_addr texit).1 256
  | .start t => s.current = none ∧ ∃ c, s.saved t = some c
  | .compute h => Respects L s.saved s.hart.mem h.mem
  | .switch next =>
    ∃ cur, s.current = some cur ∧ (next ≠ cur → ∃ c, s.saved next = some c) ∧ Room L s.saved (pushed s.hart) 256
  | .interrupt cause enter handler leave => ∃ cur, InterruptAllowed L s cur cause enter handler leave

end Ucm108e.Threads
