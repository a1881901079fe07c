import Mathlib
import Ucm108e.SchedulingSound

/-!
The calls of the kernel keep its lists sound, and a call that is about one thread leaves the
others alone, up to which of the ready ones runs.
-/
namespace Ucm108e.Scheduling
open Ucm108e.Bytes Ucm108e.Queues Ucm108e.TimerList
set_option linter.unusedSimpArgs false

/-! ### Timers of threads -/

section
variable {s : Timers} {t u : Id}

end

/-! ### What a call about one thread leaves alone -/

/-- A thread is left as it is, up to whether it is ready or runs. -/
structure Spared (k k' : Kernel) (u : Id) : Prop where
  stat : (k'.thread u).stat = (k.thread u).stat ∨ Runnable (k.thread u) ∧ Runnable (k'.thread u)
  error : (k'.thread u).error = (k.thread u).error
  lists : ∀ o, u ∈ k'.suspend_thread o ↔ u ∈ k.suspend_thread o
  timer : Untouched k.timers k'.timers u

/-- A call that is about one thread. -/
structure About (k k' : Kernel) (t : Id) : Prop where
  spared : ∀ u, u ≠ t → Spared k k' u
  lists : ∀ o, (k'.suspend_thread o).Sublist (k.suspend_thread o)
  value : k'.value = k.value
  mutex : k'.mutex = k.mutex
  flag : k'.flag = k.flag
  lock : k'.rt_scheduler_lock_nest = k.rt_scheduler_lock_nest
  started : k'.rt_current_thread = none ↔ k.rt_current_thread = none
  locked : k.rt_scheduler_lock_nest ≠ 0 → k'.rt_current_thread = k.rt_current_thread

section
variable {k k' k'' : Kernel} {t u c : Id}

theorem Spared.refl (k : Kernel) (u : Id) : Spared k k u := ⟨.inl rfl,rfl,fun _ => Iff.rfl,.refl _ _⟩

theorem Spared.runnable (spared : Spared k k' u) : Runnable (k'.thread u) ↔ Runnable (k.thread u) := by
  rcases spared.stat with same | ⟨before,after⟩
  · rw [Runnable,same]
    rfl
  · exact iff_of_true after before

theorem Spared.suspend (spared : Spared k k' u) : (k'.thread u).stat = .suspend ↔ (k.thread u).stat = .suspend := by
  rcases spared.stat with same | ⟨before,after⟩
  · rw [same]
  · rcases before with b | b <;> rcases after with a | a <;> simp [a,b]

theorem Spared.trans (first : Spared k k' u) (second : Spared k' k'' u) : Spared k k'' u := by
  refine ⟨?_,second.error.trans first.error,fun o => (second.lists o).trans (first.lists o),first.timer.trans second.timer⟩
  rcases second.stat with same | ⟨before,after⟩
  · rcases first.stat with same' | ⟨before',after'⟩
    · exact .inl (same.trans same')
    · refine .inr ⟨before',?_⟩
      rwa [Runnable,same]
  · exact .inr ⟨first.runnable.mp before,after⟩

theorem About.refl (k : Kernel) (t : Id) : About k k t :=
  ⟨fun u _ => .refl k u,fun _ => List.Sublist.refl _,rfl,rfl,rfl,rfl,Iff.rfl,fun _ => rfl⟩

theorem About.trans (first : About k k' t) (second : About k' k'' t) : About k k'' t :=
  ⟨fun u other => (first.spared u other).trans (second.spared u other),fun o => (second.lists o).trans (first.lists o),
    second.value.trans first.value,second.mutex.trans first.mutex,second.flag.trans first.flag,second.lock.trans first.lock,
    second.started.trans first.started,
    fun locked => (second.locked (first.lock ▸ locked)).trans (first.locked locked)⟩

/-- The scheduler leaves all threads alone. -/
theorem schedule_about (sound : Sound k) (t : Id) : About k (rt_schedule k) t ∧ ∀ u, Spared k (rt_schedule k) u := by
  obtain ⟨-,quiet,outcome⟩ := schedule_outcome sound
  have spared : ∀ u, Spared k (rt_schedule k) u := fun u => by
    have kept := outcome.kept u
    refine ⟨kept.stat,kept.error,fun o => by rw [quiet.suspend_thread],?_⟩
    rw [quiet.timers]
    exact .refl _ _
  refine ⟨⟨fun u _ => spared u,fun o => ?_,quiet.value,quiet.mutex,quiet.flag,quiet.lock,outcome.current_none,
    fun locked => ?_⟩,spared⟩
  · rw [quiet.suspend_thread]
  · rw [rt_schedule,if_pos (.inl locked)]

/-! ### Threads -/

theorem Runnable.alive {r : Thread} (runnable : Runnable r) : Alive r := by
  rcases runnable with ready | run
  · simp [Alive,ready]
  · simp [Alive,run]

/-- A thread that is suspended and waits for nothing yet. -/
structure Away (k : Kernel) (t : Id) : Prop where
  stat : (k.thread t).stat = .suspend
  free : ∀ o, t ∉ k.suspend_thread o
  still : t ∉ k.timers.rt_timer_list

theorem Sound.set {f : Thread → Thread} (sound : Sound k) (stat : (f (k.thread t)).stat = (k.thread t).stat)
    (priority : (f (k.thread t)).current_priority = (k.thread t).current_priority)
    (mask : (f (k.thread t)).number_mask = (k.thread t).number_mask) : Sound (k.set t f) := by
  have same : ∀ u, ((k.set t f).thread u).stat = (k.thread u).stat := fun u => by
    by_cases own : u = t
    · rw [own,set_thread_self,stat]
    · rw [set_thread_other own]
  refine ⟨sound.toBase.set stat priority mask,fun u => ?_,fun u => ?_⟩
  · rw [same]
    exact sound.running u
  · rw [same]
    exact sound.current u

/-- A thread leaves its list, for a state in which it neither is ready nor runs. -/
theorem Sound.out {f : Thread → Thread} (sound : Sound k) (started : Alive (k.thread t))
    (away : ¬ Runnable (f (k.thread t))) (begun : (f (k.thread t)).stat ≠ .init)
    (mask : (f (k.thread t)).number_mask = BitVec.twoPow 32 (f (k.thread t)).current_priority)
    (timer : t ∈ k.timers.rt_timer_list → (f (k.thread t)).stat = .suspend) :
    Sound ((rt_schedule_remove_thread k t).set t f) := by
  obtain ⟨unready,unrun⟩ := not_or.mp away
  refine ⟨sound.toBase.out started unready mask timer,fun u run => ?_,fun u current => ?_⟩
  · by_cases own : u = t
    · rw [own,set_thread_self] at run
      exact absurd run unrun
    · rw [set_thread_other own] at run
      exact sound.running u run
  · by_cases own : u = t
    · rw [own,set_thread_self]
      exact ⟨unready,begun⟩
    · rw [set_thread_other own]
      exact sound.current u current

/-- A running thread is put to wait for an object. -/
structure Waits (k k' : Kernel) (o : Ipc) (t : Id) : Prop where
  sound : Sound k'
  spared : ∀ u, u ≠ t → Spared k k' u
  stat : (k'.thread t).stat = .suspend
  error : (k'.thread t).error = (k.thread t).error
  others : ∀ o', o' ≠ o → k'.suspend_thread o' = (k.suspend_thread o').filter (· ≠ t)
  here : (k'.suspend_thread o).Perm (t :: (k.suspend_thread o).filter (· ≠ t))
  value : k'.value = k.value
  mutex : k'.mutex = k.mutex
  lock : k'.rt_scheduler_lock_nest = k.rt_scheduler_lock_nest
  current : k'.rt_current_thread = k.rt_current_thread

end

end Ucm108e.Scheduling
