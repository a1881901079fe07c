import Mathlib
import Ucm108e.RtDef
import Ucm108e.Queues
import Ucm108e.TimerList

/-!
Threads, semaphores and mutexes of the kernel: the scheduler of `scheduler.c`, with the search
for the lowest bit of `kservice.c`, the threads of `thread.c`, the semaphores and mutexes of
`ipc.c` and the tick of `clock.c`, over the timers of `timer.c`. Interrupts may come wherever a
call enables them, so each call is cut there: `rt_schedule` stands by itself, what follows it in
a call that has waited is a function of its own, and `rt_thread_resume` comes in parts.
-/
namespace Ucm108e.Scheduling
open Ucm108e.Bytes Ucm108e.Queues Ucm108e.TimerList
set_option linter.unusedSimpArgs false
set_option linter.style.nameCheck false

/-! ### The lowest bit -/

def __lowest_bit_bitmap : List Nat := [
  0,0,1,0,2,0,1,0,3,0,1,0,2,0,1,0,
  4,0,1,0,2,0,1,0,3,0,1,0,2,0,1,0,
  5,0,1,0,2,0,1,0,3,0,1,0,2,0,1,0,
  4,0,1,0,2,0,1,0,3,0,1,0,2,0,1,0,
  6,0,1,0,2,0,1,0,3,0,1,0,2,0,1,0,
  4,0,1,0,2,0,1,0,3,0,1,0,2,0,1,0,
  5,0,1,0,2,0,1,0,3,0,1,0,2,0,1,0,
  4,0,1,0,2,0,1,0,3,0,1,0,2,0,1,0,
  7,0,1,0,2,0,1,0,3,0,1,0,2,0,1,0,
  4,0,1,0,2,0,1,0,3,0,1,0,2,0,1,0,
  5,0,1,0,2,0,1,0,3,0,1,0,2,0,1,0,
  4,0,1,0,2,0,1,0,3,0,1,0,2,0,1,0,
  6,0,1,0,2,0,1,0,3,0,1,0,2,0,1,0,
  4,0,1,0,2,0,1,0,3,0,1,0,2,0,1,0,
  5,0,1,0,2,0,1,0,3,0,1,0,2,0,1,0,
  4,0,1,0,2,0,1,0,3,0,1,0,2,0,1,0]

/-- An entry of the table. -/
def lowestBit (value : BitVec 32) : Nat := __lowest_bit_bitmap[value.toNat]?.getD 0

def __rt_ffs (value : BitVec 32) : Nat :=
  if value = 0 then 0
  else if value &&& 0xff ≠ 0 then lowestBit (value &&& 0xff)+1
  else if value &&& 0xff00 ≠ 0 then lowestBit ((value &&& 0xff00) >>> 8)+9
  else if value &&& 0xff0000 ≠ 0 then lowestBit ((value &&& 0xff0000) >>> 16)+17
  else lowestBit ((value &&& 0xff000000) >>> 24)+25

/-! ### Threads -/

/-- `RT_THREAD_PRIORITY_MAX` is 32; the lower the number, the higher the priority. -/
abbrev Priority := Fin 32

/-- The states of a thread, the bits of `RT_THREAD_STAT_MASK`. -/
inductive Stat where
  | init
  | ready
  | suspend
  | running
  | close
deriving DecidableEq

/-- `struct rt_thread`; `yield` is the bit `RT_THREAD_STAT_YIELD`. The timer of a thread has the
    number of the thread. -/
structure Thread where
  current_priority : Priority
  init_priority : Priority
  number_mask : BitVec 32
  stat : Stat
  yield : Bool
  init_tick : Nat
  remaining_tick : Nat
  error : Int

/-- `RT_IPC_FLAG_FIFO` and `RT_IPC_FLAG_PRIO`. -/
inductive Flag where
  | fifo
  | prio

/-- The objects that threads wait for. -/
inductive Ipc where
  | sem (i : Nat)
  | mutex (i : Nat)
deriving DecidableEq

structure Mutex where
  value : Nat
  original_priority : Nat
  hold : Nat
  owner : Option Id

/-- The kernel; `rt_current_thread` is `none` until the scheduler is started, and
    `rt_scheduler_lock_nest` has 16 bits. -/
structure Kernel where
  thread : Id → Thread
  rt_thread_priority_table : Priority → List Id
  rt_thread_ready_priority_group : BitVec 32
  rt_current_thread : Option Id
  rt_scheduler_lock_nest : Int
  flag : Ipc → Flag
  suspend_thread : Ipc → List Id
  value : Nat → Nat
  mutex : Nat → Mutex
  timers : Timers

namespace Kernel
variable (k : Kernel)

def set (t : Id) (f : Thread → Thread) : Kernel := { k with thread := Function.update k.thread t (f (k.thread t)) }
def setStat (t : Id) (stat : Stat) : Kernel := k.set t fun r => { r with stat := stat }
def setError (t : Id) (error : Int) : Kernel := k.set t fun r => { r with error := error }
end Kernel

/-- A thread is taken out of the list it hangs in. -/
def rt_list_remove (k : Kernel) (thread : Id) : Kernel :=
  { k with
    rt_thread_priority_table := fun p => (k.rt_thread_priority_table p).filter (· ≠ thread)
    suspend_thread := fun o => (k.suspend_thread o).filter (· ≠ thread) }

/-! ### The scheduler -/

def rt_schedule_insert_thread (k : Kernel) (thread : Id) : Kernel :=
  if k.rt_current_thread = some thread then k.setStat thread .running
  else
    let k := k.setStat thread .ready
    let p := (k.thread thread).current_priority
    { k with
      rt_thread_priority_table :=
        Function.update k.rt_thread_priority_table p (k.rt_thread_priority_table p ++ [thread])
      rt_thread_ready_priority_group := k.rt_thread_ready_priority_group ||| (k.thread thread).number_mask }

def rt_schedule_remove_thread (k : Kernel) (thread : Id) : Kernel :=
  let k := rt_list_remove k thread
  { k with
    rt_thread_ready_priority_group :=
      if k.rt_thread_priority_table (k.thread thread).current_priority = [] then
        k.rt_thread_ready_priority_group &&& ~~~ (k.thread thread).number_mask
      else k.rt_thread_ready_priority_group }

/-- `_get_highest_priority_thread`, with the priority; there is none when the list is empty, which
    the code does not look at. -/
def _get_highest_priority_thread (k : Kernel) : Option (Priority × Id) :=
  let highest_ready_priority : Priority := Fin.ofNat 32 (__rt_ffs k.rt_thread_ready_priority_group-1)
  (k.rt_thread_priority_table highest_ready_priority).head?.map fun t => (highest_ready_priority,t)

/-- Whether the thread that runs goes on. -/
def goesOn (from_thread : Thread) (highest_ready_priority : Priority) : Bool :=
  from_thread.stat = .running
    && (from_thread.current_priority < highest_ready_priority
      || from_thread.current_priority = highest_ready_priority && !from_thread.yield)

/-- The switch from one thread to another. -/
def switchTo (k : Kernel) (from_thread to_thread : Id) (need_insert_from_thread : Bool) : Kernel :=
  let k := { k with rt_current_thread := some to_thread }
  let k := if need_insert_from_thread then rt_schedule_insert_thread k from_thread else k
  (rt_schedule_remove_thread k to_thread).setStat to_thread .running

def rt_schedule (k : Kernel) : Kernel :=
  if k.rt_scheduler_lock_nest ≠ 0 ∨ k.rt_thread_ready_priority_group = 0 then k
  else
    match k.rt_current_thread, _get_highest_priority_thread k with
    | some from_thread, some (highest_ready_priority,to_thread) =>
      let running := (k.thread from_thread).stat = .running
      let stays := goesOn (k.thread from_thread) highest_ready_priority
      let k := if running then k.set from_thread fun r => { r with yield := false } else k
      if !stays && to_thread ≠ from_thread then switchTo k from_thread to_thread running
      else (rt_schedule_remove_thread k from_thread).setStat from_thread .running
    | _, _ => k

/-- `rt_system_scheduler_start`. -/
def rt_system_scheduler_start (k : Kernel) : Kernel :=
  match _get_highest_priority_thread k with
  | some (_,to_thread) =>
    (rt_schedule_remove_thread { k with rt_current_thread := some to_thread } to_thread).set to_thread fun r =>
      { r with stat := .running, yield := false }
  | none => k

def rt_enter_critical (k : Kernel) : Kernel := { k with rt_scheduler_lock_nest := i16 (k.rt_scheduler_lock_nest+1) }

/-- `rt_exit_critical`, before it schedules. -/
def rt_exit_critical (k : Kernel) : Kernel :=
  let nest := i16 (k.rt_scheduler_lock_nest-1)
  { k with rt_scheduler_lock_nest := if nest ≤ 0 then 0 else nest }

/-! ### Operations on threads -/

/-- `rt_thread_suspend`; a thread in another state is left alone, with `-RT_ERROR`. The state is looked at
    before the interrupts are disabled, which is one step for the thread that runs, and for another one where
    they are disabled already. -/
def rt_thread_suspend (k : Kernel) (thread : Id) : Kernel :=
  let stat := (k.thread thread).stat
  if stat ≠ .ready ∧ stat ≠ .running then k
  else
    let k := (rt_schedule_remove_thread k thread).setStat thread .suspend
    { k with timers := rt_timer_stop k.timers thread }

/-- `rt_thread_resume` between its look at the state and `rt_schedule_insert_thread`, with the
    interrupts disabled. -/
def unlist (k : Kernel) (thread : Id) : Kernel :=
  let k := rt_list_remove k thread
  { k with timers := rt_timer_stop k.timers thread }

/-- `rt_thread_resume`, where the interrupts are disabled throughout; a thread in another state is left
    alone, with `-RT_ERROR`. -/
def rt_thread_resume (k : Kernel) (thread : Id) : Kernel :=
  if (k.thread thread).stat ≠ .suspend then k else rt_schedule_insert_thread (unlist k thread) thread

/-- `rt_thread_startup`, before it resumes the thread. -/
def prepare (k : Kernel) (thread : Id) : Kernel :=
  k.set thread fun r =>
    { r with
      current_priority := r.init_priority
      number_mask := 1#32 <<< (r.init_priority : Nat)
      stat := .suspend
      yield := false }

/-- `rt_thread_startup` before the scheduler has been started, where the interrupts are disabled. -/
def rt_thread_startup (k : Kernel) (thread : Id) : Kernel := rt_thread_resume (prepare k thread) thread

def startTimer (k : Kernel) (thread : Id) (tick : Nat) : Kernel :=
  { k with timers := rt_timer_start (rt_timer_control k.timers thread (.setTime tick)) thread }

/-- `rt_thread_sleep`, before it schedules. -/
def rt_thread_sleep (k : Kernel) (thread : Id) (tick : Nat) : Kernel := startTimer (rt_thread_suspend k thread) thread tick

/-- The end of `rt_thread_sleep`, when the thread runs again. -/
def awake (k : Kernel) (thread : Id) : Kernel :=
  if (k.thread thread).error = -RT_ETIMEOUT then k.setError thread RT_EOK else k

def rt_thread_yield (k : Kernel) (thread : Id) : Kernel :=
  rt_schedule (k.set thread fun r => { r with remaining_tick := r.init_tick, yield := true })

def rt_thread_exit (k : Kernel) (thread : Id) : Kernel :=
  let k := (rt_schedule_remove_thread k thread).set thread fun r => { r with stat := .close, yield := false }
  rt_schedule { k with timers := rt_timer_detach k.timers thread }

/-- `rt_thread_detach` and `rt_thread_delete`, where the interrupts are disabled throughout. -/
def rt_thread_delete (k : Kernel) (thread : Id) : Kernel :=
  if (k.thread thread).stat = .close then k
  else
    let k := if (k.thread thread).stat ≠ .init then rt_schedule_remove_thread k thread else k
    let k := k.set thread fun r => { r with stat := .close, yield := false }
    { k with timers := rt_timer_detach k.timers thread }

/-- `rt_thread_control` with `RT_THREAD_CTRL_CHANGE_PRIORITY`. -/
def changePriority (k : Kernel) (thread : Id) (p : Priority) : Kernel :=
  let change (k : Kernel) : Kernel := k.set thread fun r =>
    { r with current_priority := p, number_mask := 1#32 <<< (p : Nat) }
  if (k.thread thread).stat = .ready then
    rt_schedule_insert_thread (change (rt_schedule_remove_thread k thread)) thread
  else change k

/-- `rt_thread_timeout`, the function of the timer of a thread. -/
def rt_thread_timeout (thread : Id) (k : Kernel) : Kernel :=
  rt_schedule (rt_schedule_insert_thread (rt_list_remove (k.setError thread (-RT_ETIMEOUT)) thread) thread)

/-! ### Semaphores and mutexes -/

/-- The list of an object with one more thread: at the end, or behind those of no lower priority. -/
def queued (k : Kernel) (o : Ipc) (thread : Id) : List Id :=
  match k.flag o with
  | .fifo => k.suspend_thread o ++ [thread]
  | .prio => insertAfter (fun t => (k.thread t).current_priority) thread (k.suspend_thread o)

def rt_ipc_list_suspend (k : Kernel) (o : Ipc) (thread : Id) : Kernel :=
  let k := rt_thread_suspend k thread
  { k with suspend_thread := Function.update k.suspend_thread o (queued k o thread) }

def RT_SEM_VALUE_MAX : Nat := 0xffff
def RT_MUTEX_VALUE_MAX : Nat := 0xffff
def RT_MUTEX_HOLD_MAX : Nat := 0xff

/-- A thread waits for an object, if `time` is positive no longer than that. -/
def waitFor (k : Kernel) (o : Ipc) (thread : Id) (time : Int) : Kernel :=
  let k := rt_ipc_list_suspend k o thread
  if time > 0 then startTimer k thread time.toNat else k

/-- The end of `rt_sem_take` and `rt_mutex_take` for a thread that has waited, when it runs again: what
    they return. -/
def waited (k : Kernel) (thread : Id) : Int :=
  let error := (k.thread thread).error
  if error ≠ RT_EOK then error else RT_EOK

/-- `rt_sem_take`, with its result, or none when it goes on to schedule and returns `waited` later. -/
def rt_sem_take (k : Kernel) (sem : Nat) (thread : Id) (time : Int) : Kernel × Option Int :=
  if k.value sem > 0 then ({ k with value := Function.update k.value sem (k.value sem-1) },some RT_EOK)
  else if time = 0 then (k,some (-RT_ETIMEOUT))
  else (waitFor (k.setError thread RT_EOK) (.sem sem) thread time,none)

/-- `rt_sem_release`, before it schedules. -/
def rt_sem_release (k : Kernel) (sem : Nat) : Kernel × Int :=
  match k.suspend_thread (.sem sem) with
  | thread :: _ => (rt_thread_resume k thread,RT_EOK)
  | [] =>
    if k.value sem < RT_SEM_VALUE_MAX then ({ k with value := Function.update k.value sem (k.value sem+1) },RT_EOK)
    else (k,-RT_EFULL)

def Kernel.setMutex (k : Kernel) (mutex : Nat) (f : Mutex → Mutex) : Kernel :=
  { k with mutex := Function.update k.mutex mutex (f (k.mutex mutex)) }

/-- The owner is given the priority of a thread that has to wait, if that is the higher one. -/
def raiseOwner (k : Kernel) (mutex : Nat) (thread : Id) : Kernel :=
  match (k.mutex mutex).owner with
  | some owner =>
    if (k.thread thread).current_priority < (k.thread owner).current_priority then
      changePriority k owner (k.thread thread).current_priority
    else k
  | none => k

/-- `rt_mutex_take`, with its result, or none when it goes on to schedule and returns `waited` later. -/
def rt_mutex_take (k : Kernel) (mutex : Nat) (thread : Id) (time : Int) : Kernel × Option Int :=
  let k := k.setError thread RT_EOK
  let m := k.mutex mutex
  if m.owner = some thread then
    if m.hold < RT_MUTEX_HOLD_MAX then (k.setMutex mutex fun m => { m with hold := m.hold+1 },some RT_EOK)
    else (k,some (-RT_EFULL))
  else if m.value > 0 then
    let k := k.setMutex mutex fun m =>
      { m with value := m.value-1, owner := some thread, original_priority := (k.thread thread).current_priority }
    if m.hold < RT_MUTEX_HOLD_MAX then (k.setMutex mutex fun m => { m with hold := m.hold+1 },some RT_EOK)
    else (k,some (-RT_EFULL))
  else if time = 0 then (k.setError thread (-RT_ETIMEOUT),some (-RT_ETIMEOUT))
  else (waitFor (raiseOwner k mutex thread) (.mutex mutex) thread time,none)

def rt_ipc_get_highest_priority (k : Kernel) (list : List Id) : Priority :=
  list.foldl (fun priority t => if priority < (k.thread t).current_priority then priority else (k.thread t).current_priority) 31

/-- The mutex goes to the first thread that waits for it. -/
def handOver (k : Kernel) (mutex : Nat) (thread : Id) : Kernel × Int :=
  let k := k.setMutex mutex fun m =>
    { m with owner := some thread, original_priority := (k.thread thread).current_priority }
  let highest := rt_ipc_get_highest_priority k (k.suspend_thread (.mutex mutex))
  let k := match k.flag (.mutex mutex) with
    | .fifo => if (k.thread thread).current_priority ≠ highest then changePriority k thread highest else k
    | .prio => k
  if (k.mutex mutex).hold < RT_MUTEX_HOLD_MAX then
    (rt_thread_resume (k.setMutex mutex fun m => { m with hold := m.hold+1 }) thread,RT_EOK)
  else (k,-RT_EFULL)

/-- The mutex is given up: its owner gets back its priority, and the mutex goes on. -/
def giveUp (k : Kernel) (mutex : Nat) (thread : Id) : Kernel × Int :=
  let original := (k.mutex mutex).original_priority
  let k := if original ≠ (k.thread thread).current_priority then changePriority k thread (Fin.ofNat 32 original) else k
  match k.suspend_thread (.mutex mutex) with
  | first :: _ => handOver k mutex first
  | [] =>
    if (k.mutex mutex).value < RT_MUTEX_VALUE_MAX then
      (k.setMutex mutex fun m => { m with value := m.value+1, owner := none, original_priority := 0xff },RT_EOK)
    else (k,-RT_EFULL)

/-- `rt_mutex_release`, before it schedules. -/
def rt_mutex_release (k : Kernel) (mutex : Nat) (thread : Id) : Kernel × Int :=
  if (k.mutex mutex).owner ≠ some thread then (k.setError thread (-RT_ERROR),-RT_ERROR)
  else
    let k := k.setMutex mutex fun m => { m with hold := u8 (m.hold-1) }
    if (k.mutex mutex).hold = 0 then giveUp k mutex thread else (k,RT_EOK)

/-! ### The tick -/

def host : Host Kernel := ⟨Kernel.timers,fun k s => { k with timers := s },fun _ _ => rfl⟩

/-- The time slice of the thread that runs. -/
def slice (k : Kernel) : Kernel :=
  match k.rt_current_thread with
  | some thread =>
    let k := k.set thread fun r => { r with remaining_tick := u32 (r.remaining_tick-1) }
    if (k.thread thread).remaining_tick = 0 then
      rt_schedule (k.set thread fun r => { r with remaining_tick := r.init_tick, yield := true })
    else k
  | none => k

/-- `rt_tick_increase`, with the threads whose timers have gone off. -/
def rt_tick_increase (turns : Nat) (k : Kernel) : Option (Kernel × List Id) :=
  rt_timer_check host rt_thread_timeout turns (slice { k with timers := ticked k.timers })

end Ucm108e.Scheduling
