import Mathlib
import Ucm108e.KernelRuns

/-!
What the calls do, in terms of threads. Every call is about one thread: the others are left alone
(`Moved`), and what becomes of that one is among a few things (`Rest`). The releases hand an object to the
first thread that waits for it, or to nobody (`Passed`).
-/
namespace Ucm108e.Scheduling
open Ucm108e.Bytes Ucm108e.Queues Ucm108e.TimerList Ucm108e.Machine
set_option linter.unusedSimpArgs false

/-! ### Calm -/

section
variable {k k' : Kernel} {t u : Id}

/-- Nothing happens to the threads, but for priorities and the error number of one of them. -/
structure Calm (k k' : Kernel) (t : Id) : Prop where
  sound : Sound k'
  spared : ∀ u, u ≠ t → Spared k k' u
  own : (k'.thread t).stat = (k.thread t).stat
  timers : k'.timers = k.timers
  value : k'.value = k.value
  lists : k'.suspend_thread = k.suspend_thread
  current : k'.rt_current_thread = k.rt_current_thread

theorem Calm.refl (sound : Sound k) (t : Id) : Calm k k t := ⟨sound,fun u _ => .refl k u,rfl,rfl,rfl,rfl,rfl⟩

theorem Calm.trans {k'' : Kernel} (first : Calm k k' t) (second : Calm k' k'' t) : Calm k k'' t :=
  ⟨second.sound,fun u other => (first.spared u other).trans (second.spared u other),second.own.trans first.own,
    second.timers.trans first.timers,second.value.trans first.value,second.lists.trans first.lists,
    second.current.trans first.current⟩

theorem Calm.all (calm : ∀ u, Calm k k' u) (u : Id) : Spared k k' u := (calm (u+1)).spared u (Nat.ne_of_lt (Nat.lt_succ_self u))

theorem Runnable.awake {r : Thread} (runnable : Runnable r) : r.stat ≠ .suspend := by
  rcases runnable with ready | run
  · rw [ready]
    exact Stat.noConfusion
  · rw [run]
    exact Stat.noConfusion

theorem Spared.away (away : Away k u) (spared : Spared k k' u) : Away k' u :=
  ⟨spared.suspend.mpr away.stat,fun o => mt (spared.lists o).mp (away.free o),mt spared.timer.listed.mp away.still⟩

/-! ### What a call does -/

/-- What becomes of the thread `v` that a call of `t` is about, where `t` stands at the given place then: it
    is left alone, it is not suspended, it waits for nothing, for a call that goes on with it or without, or
    it is the caller, which sleeps or waits for an object. -/
inductive Rest (k k' : Kernel) (t v : Id) : Option Pause → Prop
  | spared (same : Spared k k' v) : Rest k k' t v none
  | up (awake : (k'.thread v).stat ≠ .suspend) : Rest k k' t v none
  | away (away : Away k' v) : Rest k k' t v none
  | handled (p : Pause) (away : Away k' v) (about : p = .resume v ∨ p = .insert v) : Rest k k' t v (some p)
  | sleeps (own : v = t) (free : ∀ o, t ∉ k'.suspend_thread o) : Rest k k' t v (some .sleep)
  | waits (own : v = t) (o : Ipc) (here : ∀ o', t ∈ k'.suspend_thread o' ↔ o' = o)
    (error : (k'.thread t).error = RT_EOK) : Rest k k' t v (some (.take o))

/-- What every call does: it is about one thread, which it may touch or resume by hand, and it leaves so much
    in the semaphores. A suspended thread is left alone, or it is woken, by hand or from the list of an object. -/
structure Moved (idle : Id) (touches resumes : Prop) (value : Nat → Nat) (t : Id) (p : Option Pause) (k k' : Kernel)
    (v : Id) : Prop where
  sound : Sound k'
  waiting : Waiting k'.timers
  spared : ∀ u, u ≠ v → Spared k k' u
  able : v = idle → Runnable (k.thread v) → Runnable (k'.thread v)
  started : k'.rt_current_thread = none ↔ k.rt_current_thread = none
  fate : (k.thread v).stat = .suspend →
    touches ∨ Spared k k' v ∨ Runnable (k'.thread v) ∧ (resumes ∨ ∃ o, v ∈ k.suspend_thread o)
  rest : Rest k k' t v p
  value : k'.value = value

/-- The lists are sound, no timer is overdue, and once threads run the idle thread is there to run. -/
structure Inv (idle : Id) (k : Kernel) : Prop extends Sound k where
  waiting : Waiting k.timers
  idler : k.rt_current_thread ≠ none → Runnable (k.thread idle)

/-- A release: the first thread that waits for the object gets it, or no thread does. -/
inductive Passed (idle : Id) (value : Nat → Nat) (t : Id) (k k' : Kernel) (o : Ipc) : List Note → Prop
  | woken (u : Id) (member : u ∈ k.suspend_thread o) (runnable : Runnable (k'.thread u))
    (error : (k'.thread u).error = (k.thread u).error) (moved : Moved idle False False value t none k k' u) :
    Passed idle value t k k' o [.got u o]
  | kept (moved : Moved idle False False value t none k k' t) : Passed idle value t k k' o []

section
variable {idle v : Id} {touches resumes : Prop} {value : Nat → Nat} {p : Option Pause}

theorem Moved.inv (inv : Inv idle k) (moved : Moved idle touches resumes value t p k k' v) : Inv idle k' := by
  refine ⟨moved.sound,moved.waiting,fun runs => ?_⟩
  have before := inv.idler (mt moved.started.mpr runs)
  by_cases own : idle = v
  · rw [own] at before ⊢
    exact moved.able own.symm before
  · exact (moved.spared idle own).runnable.mpr before

theorem Moved.refl (inv : Inv idle k) (t v : Id) : Moved idle touches resumes k.value t none k k v :=
  ⟨inv.toSound,inv.waiting,fun u _ => .refl k u,fun _ => id,Iff.rfl,fun _ => .inr (.inl (.refl k v)),.spared (.refl k v),rfl⟩

theorem Rest.after {k'' : Kernel} (rest : Rest k k' t v p) (spared : ∀ u, Spared k' k'' u) : Rest k k'' t v p := by
  cases rest with
  | spared same => exact .spared (same.trans (spared v))
  | up awake => exact .up (mt (spared v).suspend.mp awake)
  | away away => exact .away ((spared v).away away)
  | handled p away about => exact .handled p ((spared v).away away) about
  | sleeps own free => exact .sleeps own fun o => mt ((spared t).lists o).mp (free o)
  | waits own o here error =>
    exact .waits own o (fun o' => ((spared t).lists o').trans (here o')) ((spared t).error.trans error)

theorem Moved.schedule (moved : Moved idle touches resumes value t p k k' v) :
    Moved idle touches resumes value t p k (rt_schedule k') v := by
  obtain ⟨sound,quiet,-⟩ := schedule_outcome moved.sound
  obtain ⟨about,spared⟩ := schedule_about moved.sound v
  refine ⟨sound,by rw [quiet.timers]; exact moved.waiting,fun u other => (moved.spared u other).trans (spared u),
    fun own before => (spared v).runnable.mpr (moved.able own before),about.started.trans moved.started,fun suspended => ?_,
    moved.rest.after spared,about.value.trans moved.value⟩
  rcases moved.fate suspended with gone | left | ⟨woken,why⟩
  · exact .inl gone
  · exact .inr (.inl (left.trans (spared v)))
  · exact .inr (.inr ⟨(spared v).runnable.mpr woken,why⟩)

theorem Passed.spares {o : Ipc} {notes : List Note} (passed : Passed idle value t k k' o notes) (other : u ≠ t) :
    Spared k k' u ∨ Runnable (k'.thread u) ∧ u ∈ k.suspend_thread o := by
  cases passed with
  | woken w member runnable error moved =>
    by_cases own : u = w
    · rw [own]
      exact .inr ⟨runnable,member⟩
    · exact .inl (moved.spared u own)
  | kept moved => exact .inl (moved.spared u other)

theorem Passed.schedule {o : Ipc} {notes : List Note} (passed : Passed idle value t k k' o notes) :
    Passed idle value t k (rt_schedule k') o notes := by
  cases passed with
  | woken u member runnable error moved =>
    have spared := (schedule_about moved.sound u).2 u
    exact .woken u member (spared.runnable.mpr runnable) (spared.error.trans error) moved.schedule
  | kept moved => exact .kept moved.schedule

/-- The thread that a release is about. -/
theorem Passed.moved {o : Ipc} {notes : List Note} (passed : Passed idle value t k k' o notes) :
    ∃ v, Moved idle False False value t none k k' v := by
  cases passed with
  | woken u _ _ _ moved => exact ⟨u,moved⟩
  | kept moved => exact ⟨t,moved⟩

/-! ### Semaphores -/

/-- What a release leaves in the semaphores. -/
def released (k : Kernel) (sem : Nat) : Nat → Nat :=
  if k.suspend_thread (.sem sem) = [] ∧ k.value sem < RT_SEM_VALUE_MAX then Function.update k.value sem (k.value sem+1)
  else k.value

/-- The start of the scheduler: the thread of the highest priority runs. -/
theorem start_spec (inv : Inv idle k) (asleep : k.rt_current_thread = none) (ready : (k.thread idle).stat = .ready) :
    Inv idle (rt_system_scheduler_start k) ∧ (rt_system_scheduler_start k).value = k.value
      ∧ ∀ u, Spared k (rt_system_scheduler_start k) u := by
  have some_ready : k.rt_thread_ready_priority_group ≠ 0 := fun zero => by
    have member := (inv.ready idle _).mpr ⟨ready,rfl⟩
    rw [inv.marks.eq_zero_iff.mp zero] at member
    cases member
  obtain ⟨p,t,highest,first,-,-⟩ := highest_spec inv.toBase some_ready
  have result : rt_system_scheduler_start k = (rt_schedule_remove_thread { k with rt_current_thread := some t } t).set t
      fun r => { r with stat := .running, yield := false } := by
    unfold rt_system_scheduler_start
    rw [highest]
  have alive : Alive (k.thread t) := (show Runnable (k.thread t) from .inl first).alive
  have awake : (k.thread t).stat ≠ .suspend := (show Runnable (k.thread t) from .inl first).awake
  have base : Base { k with rt_current_thread := some t } :=
    inv.toBase.of_same rfl rfl rfl (fun _ => ⟨rfl,rfl,rfl⟩) inv.listed inv.sleeping inv.oneshot
  have spared (u : Id) : Spared k ((rt_schedule_remove_thread { k with rt_current_thread := some t } t).set t
      fun r => { r with stat := .running, yield := false }) u := by
    by_cases own : u = t
    · rw [own]
      refine ⟨.inr ⟨.inl first,.inr (by rw [set_thread_self])⟩,by rw [set_thread_self]; rfl,fun o => ?_,.refl _ _⟩
      exact iff_of_false (fun member => (mem_filter_ne.mp member).2 rfl) (inv.toBase.free awake o)
    · refine ⟨.inl (by rw [set_thread_other own]; rfl),by rw [set_thread_other own]; rfl,fun o => ?_,.refl _ _⟩
      exact mem_filter_ne.trans (and_iff_left own)
  rw [result]
  refine ⟨⟨⟨base.out alive Stat.noConfusion (inv.masks t alive) fun member => absurd member (inv.toBase.still awake),
    fun u run => ?_,fun u current => ?_⟩,inv.waiting,fun _ => (spared idle).runnable.mpr (.inl ready)⟩,rfl,spared⟩
  · by_cases own : u = t
    · rw [own]
      rfl
    · rw [set_thread_other own] at run
      have := inv.running u run
      rw [asleep] at this
      cases this
  · have own : u = t := (Option.some.inj current).symm
    rw [own,set_thread_self]
    exact ⟨Stat.noConfusion,Stat.noConfusion⟩
end

end

end Ucm108e.Scheduling
