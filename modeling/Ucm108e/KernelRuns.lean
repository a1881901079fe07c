import Mathlib
import Ucm108e.Machine
import Ucm108e.KernelCalls

/-!
Runs of the kernel: the calls of the thread that runs, part by part, the ticks and other
interrupts, and the scheduler, in any order. An interrupt may come between any two parts of a
call, and other threads may run there. `Allowed` has the rules for the threads.
-/
namespace Ucm108e.Scheduling
open Ucm108e.Bytes Ucm108e.Queues Ucm108e.TimerList Ucm108e.Machine
set_option linter.unusedSimpArgs false

/-! ### Events -/

/-- Where a thread stands that has left a call open, with the interrupts enabled: in `rt_thread_sleep`, in
    `rt_sem_take` or `rt_mutex_take` at `rt_schedule`, and in `rt_thread_resume` for another thread, behind the
    look at its state or before its insertion into the ready list. -/
inductive Pause where
  | sleep
  | take (o : Ipc)
  | resume (u : Id)
  | insert (u : Id)
deriving DecidableEq

/-- The kernel, and where its threads stand. -/
structure System where
  kernel : Kernel
  pause : Id → Option Pause

/-- The calls of a thread, each up to the point where it enables the interrupts; `goOn` is the next part of
    a call that was left open. A thread is deleted, and another one suspended, with the interrupts disabled;
    so is one resumed if the call is `masked`. -/
inductive Call where
  | sleep (tick : Nat)
  | yield
  | exit
  | suspend (u : Id)
  | resume (u : Id) (masked : Bool)
  | startup (u : Id)
  | delete (u : Id)
  | prioritise (u : Id) (p : Priority)
  | enter
  | leave
  | take (sem : Nat) (time : Int)
  | release (sem : Nat)
  | lock (mutex : Nat) (time : Int)
  | unlock (mutex : Nat)
  | goOn

/-- The scheduler, a tick, a release of a semaphore by an interrupt, a call, and, before the
    scheduler is started, the start of a thread and of the scheduler itself. -/
inductive Event where
  | schedule
  | tick
  | interrupt (sem : Nat)
  | call (c : Call)
  | startup (u : Id)
  | start

/-- What is noted of a step: a thread gets an object, `rt_sem_take` or `rt_mutex_take` returns `RT_EOK` to
    it, and an object is given back. -/
inductive Note where
  | got (t : Id) (o : Ipc)
  | took (t : Id) (o : Ipc)
  | gave (t : Option Id) (o : Ipc)
deriving DecidableEq

/-- What a part of a call leaves: the kernel, the notes, and where the thread stands then. -/
structure Progress where
  kernel : Kernel
  notes : List Note
  pause : Option Pause

/-- The first thread that waits for an object gets it. -/
def handed (k : Kernel) (o : Ipc) : List Note := (k.suspend_thread o).head?.toList.map fun u => .got u o

/-- A take that has returned, or goes on to schedule. -/
def taking (t : Id) (o : Ipc) (r : Kernel × Option Int) : Progress :=
  ⟨r.1,if r.2 = some RT_EOK then [.got t o,.took t o] else [],if r.2 = none then some (.take o) else none⟩

/-- The next part of an open call. -/
def goOn (k : Kernel) (t : Id) : Pause → Progress
  | .sleep => ⟨awake k t,[],none⟩
  | .take o => ⟨k,if waited k t = RT_EOK then [.took t o] else [],none⟩
  | .resume u => ⟨unlist k u,[],some (.insert u)⟩
  | .insert u => ⟨rt_schedule_insert_thread k u,[],none⟩

def call (k : Kernel) (t : Id) (pause : Option Pause) : Call → Progress
  | .sleep tick => ⟨rt_thread_sleep k t tick,[],some .sleep⟩
  | .yield => ⟨rt_thread_yield k t,[],none⟩
  | .exit => ⟨rt_thread_exit k t,[],none⟩
  | .suspend u => ⟨rt_thread_suspend k u,[],none⟩
  | .resume u true => ⟨rt_thread_resume k u,[],none⟩
  | .resume u false => ⟨k,[],if (k.thread u).stat = .suspend then some (.resume u) else none⟩
  | .startup u => ⟨prepare k u,[],some (.resume u)⟩
  | .delete u => ⟨rt_thread_delete k u,[],none⟩
  | .prioritise u p => ⟨changePriority k u p,[],none⟩
  | .enter => ⟨rt_enter_critical k,[],none⟩
  | .leave => ⟨rt_exit_critical k,[],none⟩
  | .take sem time => taking t (.sem sem) (rt_sem_take k sem t time)
  | .release sem =>
    let r := rt_sem_release k sem
    ⟨r.1,if r.2 = RT_EOK then .gave (some t) (.sem sem) :: handed k (.sem sem) else [],none⟩
  | .lock mutex time => taking t (.mutex mutex) (rt_mutex_take k mutex t time)
  | .unlock mutex =>
    let r := rt_mutex_release k mutex t
    ⟨r.1,if r.2 = RT_EOK then .gave (some t) (.mutex mutex) ::
      (if (r.1.mutex mutex).owner = some t then [] else handed k (.mutex mutex)) else [],none⟩
  | .goOn => pause.elim ⟨k,[],none⟩ (goOn k t)

/-- `rt_sem_release` in an interrupt, where the scheduler follows at once. -/
def interrupt (k : Kernel) (sem : Nat) : Kernel × List Note :=
  let r := rt_sem_release k sem
  (if k.suspend_thread (.sem sem) ≠ [] then rt_schedule r.1 else r.1,
    if r.2 = RT_EOK then .gave none (.sem sem) :: handed k (.sem sem) else [])

def step (s : System) : Event → System × Option (List Note)
  | .schedule => ({ s with kernel := rt_schedule s.kernel },none)
  | .tick =>
    ({ s with kernel := (rt_tick_increase (s.kernel.timers.rt_timer_list.length+1) s.kernel).elim s.kernel Prod.fst },none)
  | .interrupt sem => ({ s with kernel := (interrupt s.kernel sem).1 },some (interrupt s.kernel sem).2)
  | .call c =>
    match s.kernel.rt_current_thread with
    | some t =>
      let r := call s.kernel t (s.pause t) c
      (⟨r.kernel,Function.update s.pause t r.pause⟩,some r.notes)
    | none => (s,none)
  | .startup u => ({ s with kernel := rt_thread_startup s.kernel u },none)
  | .start => ({ s with kernel := rt_system_scheduler_start s.kernel },none)

/-! ### Rules -/

/-- How long a thread may wait. -/
def Patience (time : Int) : Prop := 0 < time → Near time.toNat

/-- A thread has begun to start or to resume another one, and is not done yet. -/
def Handles (s : System) (t u : Id) : Prop := s.pause t = some (.resume u) ∨ s.pause t = some (.insert u)

/-- The rules for calls.
    - The idle thread makes no call that may wait, does not end, and is neither suspended nor deleted.
    - While the scheduler is locked no thread makes a call that may wait, suspends or deletes itself, or ends.
    - A delay is not 0 and, as `rt_timer_start` asserts, less than half the range of the tick.
    - A thread is started once. It is resumed by hand only while it waits for no object and, with the
      interrupts enabled, has no timer running.
    - While one thread starts or resumes another, no third one resumes or deletes that. -/
def CallAllowed (idle : Id) (s : System) (t : Id) : Call → Prop
  | .sleep tick => t ≠ idle ∧ s.kernel.rt_scheduler_lock_nest = 0 ∧ 0 < tick ∧ Near tick
  | .exit => t ≠ idle ∧ s.kernel.rt_scheduler_lock_nest = 0
  | .suspend u => u ≠ idle ∧ (u = t → s.kernel.rt_scheduler_lock_nest = 0)
  | .resume u masked => (∀ t', ¬ Handles s t' u) ∧ (∀ o, u ∉ s.kernel.suspend_thread o)
    ∧ (masked = false → u ∉ s.kernel.timers.rt_timer_list)
  | .startup u => (s.kernel.thread u).stat = .init
  | .delete u => u ≠ idle ∧ (u = t → s.kernel.rt_scheduler_lock_nest = 0) ∧ ∀ t', ¬ Handles s t' u
  | .take _ time => time ≠ 0 → t ≠ idle ∧ s.kernel.rt_scheduler_lock_nest = 0 ∧ Patience time
  | .lock _ time => time ≠ 0 → t ≠ idle ∧ s.kernel.rt_scheduler_lock_nest = 0 ∧ Patience time
  | _ => True

/-- Calls are made by the thread that runs, which first goes on with the call that it has left open, if any.
    Interrupts come once the scheduler has been started, with the idle thread ready. -/
def Allowed (idle : Id) (s : System) : Event → Prop
  | .call c => ∃ t, s.kernel.rt_current_thread = some t ∧ (s.kernel.thread t).stat = .running
    ∧ (c = .goOn ↔ s.pause t ≠ none) ∧ CallAllowed idle s t c
  | .startup u => s.kernel.rt_current_thread = none ∧ (s.kernel.thread u).stat = .init
  | .start => s.kernel.rt_current_thread = none ∧ (s.kernel.thread idle).stat = .ready
  | _ => s.kernel.rt_current_thread ≠ none

/-- The rules for the calls that say nothing of all threads or objects, as a check. -/
def callChecked (idle : Id) (s : System) (t : Id) : Call → Bool
  | .sleep tick => t ≠ idle ∧ s.kernel.rt_scheduler_lock_nest = 0 ∧ 0 < tick ∧ Near tick
  | .startup u => (s.kernel.thread u).stat = .init
  | .take _ time => t ≠ idle ∧ s.kernel.rt_scheduler_lock_nest = 0 ∧ (0 < time → Near time.toNat)
  | .lock _ time => t ≠ idle ∧ s.kernel.rt_scheduler_lock_nest = 0 ∧ (0 < time → Near time.toNat)
  | .yield | .release _ | .unlock _ | .goOn => true
  | _ => false

def Call.isGoOn : Call → Bool
  | .goOn => true
  | _ => false

def checked (idle : Id) (s : System) : Event → Bool
  | .call c => s.kernel.rt_current_thread.any fun t =>
    (s.kernel.thread t).stat = .running ∧ c.isGoOn = (s.pause t).isSome ∧ callChecked idle s t c
  | .startup u => s.kernel.rt_current_thread = none ∧ (s.kernel.thread u).stat = .init
  | .start => s.kernel.rt_current_thread = none ∧ (s.kernel.thread idle).stat = .ready
  | _ => s.kernel.rt_current_thread ≠ none

section
variable {idle t : Id} {s : System}

end

/-! ### Ticks -/

/-- Timers that go off wake their threads; the other threads are left alone. -/
structure Woken (k k' : Kernel) : Prop where
  due : ∀ u ∈ dues k.timers, Runnable (k'.thread u) ∧ (k'.thread u).error = -RT_ETIMEOUT
  spared : ∀ u, u ∉ dues k.timers → Spared k k' u
  value : k'.value = k.value
  mutex : k'.mutex = k.mutex
  started : k'.rt_current_thread = none ↔ k.rt_current_thread = none
  lock : k'.rt_scheduler_lock_nest = k.rt_scheduler_lock_nest
  top : k.rt_scheduler_lock_nest = 0 → Top k → Top k'

section
variable {k k' : Kernel} {t u : Id}

theorem Top.started (top : Top k) : k.rt_current_thread ≠ none := by
  obtain ⟨c,current,-⟩ := top
  rw [current]
  exact Option.some_ne_none c

theorem Woken.after {k'' : Kernel} (spared : ∀ u, Spared k k' u) (about : About k k' t)
    (top : k.rt_scheduler_lock_nest = 0 → Top k → Top k') (woken : Woken k' k'') : Woken k k'' :=
  ⟨fun u due => woken.due u ((spared u).timer.dues_iff.mpr due),
    fun u later => (spared u).trans (woken.spared u (mt (spared u).timer.dues_iff.mp later)),
    woken.value.trans about.value,woken.mutex.trans about.mutex,woken.started.trans about.started,
    woken.lock.trans about.lock,fun unlocked first => woken.top (about.lock.trans unlocked) (top unlocked first)⟩

end

end Ucm108e.Scheduling
