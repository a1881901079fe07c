import Mathlib
import Ucm108e.Bytes
import Ucm108e.Machine
import Ucm108e.Queues

/-!
The hard timers of `timer.c`, which `rt_tick_increase` of `clock.c` checks at each tick. They
hang in one list in the order in which they are due; the ticks are counted in 32 bits, and
two of them are compared by their difference. A timer goes off at the tick it was set for,
also when the count has started over in the meantime.
-/
namespace Ucm108e.TimerList
open Ucm108e.Bytes Ucm108e.Machine Ucm108e.Queues
set_option linter.unusedSimpArgs false

abbrev Id := Nat

def RT_TICK_MAX : Nat := 0xffffffff

/-- `struct rt_timer`; the two flags are `RT_TIMER_FLAG_ACTIVATED` and `RT_TIMER_FLAG_PERIODIC`. -/
structure Timer where
  init_tick : Nat
  timeout_tick : Nat
  activated : Bool
  periodic : Bool

/-- The tick, the timers, `rt_timer_list`, and the list in which `rt_timer_check` keeps the
    timer whose function it calls. -/
structure Timers where
  rt_tick : Nat
  timer : Id → Timer
  rt_timer_list : List Id
  list : List Id

namespace Timers
variable (s : Timers)

def set (t : Id) (f : Timer → Timer) : Timers := { s with timer := Function.update s.timer t (f (s.timer t)) }
def setActivated (t : Id) (activated : Bool) : Timers := s.set t fun r => { r with activated := activated }
end Timers

/-- A timer is taken out of the list it hangs in. -/
def _rt_timer_remove (s : Timers) (timer : Id) : Timers :=
  { s with rt_timer_list := s.rt_timer_list.filter (· ≠ timer), list := s.list.filter (· ≠ timer) }

/-- The search for the place of a timer: behind those that are due at the same time. -/
def insertRow (s : Timers) (timer : Id) : List Id → List Id
  | [] => [timer]
  | t :: rest =>
    let d := u32 ((s.timer t).timeout_tick-(s.timer timer).timeout_tick)
    if d ≠ 0 ∧ d < RT_TICK_MAX/2 then timer :: t :: rest else t :: insertRow s timer rest

def rt_timer_start (s : Timers) (timer : Id) : Timers :=
  let s := (_rt_timer_remove s timer).setActivated timer false
  let s := s.set timer fun r => { r with timeout_tick := u32 (s.rt_tick+r.init_tick) }
  let s := { s with rt_timer_list := insertRow s timer s.rt_timer_list }
  s.setActivated timer true

/-- `rt_timer_stop`; a timer that is not active is left alone, with `-RT_ERROR`. -/
def rt_timer_stop (s : Timers) (timer : Id) : Timers :=
  if !(s.timer timer).activated then s else (_rt_timer_remove s timer).setActivated timer false

def rt_timer_detach (s : Timers) (timer : Id) : Timers := (_rt_timer_remove s timer).setActivated timer false

/-- The commands of `rt_timer_control` that change a timer. -/
inductive Control where
  | setTime (tick : Nat)
  | setOneshot
  | setPeriodic

def rt_timer_control (s : Timers) (timer : Id) : Control → Timers
  | .setTime tick => s.set timer fun r => { r with init_tick := tick }
  | .setOneshot => s.set timer fun r => { r with periodic := false }
  | .setPeriodic => s.set timer fun r => { r with periodic := true }

/-- What threads and timeout functions do with timers. -/
inductive Command where
  | start (timer : Id)
  | stop (timer : Id)
  | detach (timer : Id)
  | control (timer : Id) (cmd : Control)

def Command.timer : Command → Id
  | .start t | .stop t | .detach t | .control t _ => t

def exec (s : Timers) : Command → Timers
  | .start t => rt_timer_start s t
  | .stop t => rt_timer_stop s t
  | .detach t => rt_timer_detach s t
  | .control t cmd => rt_timer_control s t cmd

/-- A timer that is due is taken out, and put into the other list. -/
def takeOut (s : Timers) (t : Id) : Timers :=
  let s := _rt_timer_remove s t
  let s := if !(s.timer t).periodic then s.setActivated t false else s
  { s with list := t :: s.list }

/-- After the call: a periodic timer that was neither stopped nor started is started again. -/
def finish (s : Timers) (t : Id) : Timers :=
  if s.list = [] then s
  else
    let s := _rt_timer_remove s t
    if (s.timer t).periodic && (s.timer t).activated then rt_timer_start (s.setActivated t false) t else s

/-- Where the timers are kept, among whatever else the timeout functions work on. -/
structure Host (σ : Type) where
  timers : σ → Timers
  put : σ → Timers → σ
  timers_put : ∀ x s, timers (put x s) = s

section
variable {σ : Type} (host : Host σ) (timeout_func : Id → σ → σ)

/-- A timer that is due goes off. -/
def expire (x : σ) (t : Id) : σ :=
  let x := timeout_func t (host.put x (takeOut (host.timers x) t))
  host.put x (finish (host.timers x) t)

/-- `rt_timer_check`, with the timers that have gone off, in their order; `none` when it does
    not come to an end within so many turns. -/
def rt_timer_check : (turns : Nat) → σ → Option (σ × List Id)
  | 0, _ => none
  | turns+1, x =>
    let s := host.timers x
    match s.rt_timer_list with
    | [] => some (x,[])
    | t :: _ =>
      if u32 (s.rt_tick-(s.timer t).timeout_tick) < RT_TICK_MAX/2 then
        (rt_timer_check turns (expire host timeout_func x t)).map fun r => (r.1,t :: r.2)
      else some (x,[])
end

/-! ### What is left -/

/-- The ticks until a timer is due. -/
def left (s : Timers) (t : Id) : Nat := u32 ((s.timer t).timeout_tick-s.rt_tick)

/-- The delays that can be told from times gone by. -/
def Near (n : Nat) : Prop := n < RT_TICK_MAX/2

/-- A timer whose delay is set. -/
def Ready (s : Timers) (t : Id) : Prop := 0 < (s.timer t).init_tick ∧ Near (s.timer t).init_tick

instance (n : Nat) : Decidable (Near n) := inferInstanceAs (Decidable (n < RT_TICK_MAX/2))
instance (s : Timers) (t : Id) : Decidable (Ready s t) :=
  inferInstanceAs (Decidable (0 < (s.timer t).init_tick ∧ Near (s.timer t).init_tick))

structure Listed (s : Timers) : Prop where
  nodup : s.rt_timer_list.Nodup
  near : ∀ t ∈ s.rt_timer_list, Near (left s t)
  sorted : s.rt_timer_list.Pairwise fun t u => left s t ≤ left s u
  active : ∀ t ∈ s.rt_timer_list, (s.timer t).activated = true
  ready : ∀ t, t ∈ s.rt_timer_list ∨ t ∈ s.list → Ready s t
  tick : s.rt_tick < 2^32
  apart : ∀ t ∈ s.list, t ∉ s.rt_timer_list

/-- Between two ticks no timer is due. -/
structure Waiting (s : Timers) : Prop extends Listed s where
  later : ∀ t ∈ s.rt_timer_list, 0 < left s t
  done : s.list = []

/-- A timer is started only once its delay is set, and no delay is set to nothing or to more than
    `rt_timer_start` takes. -/
def Allowed (s : Timers) : Command → Prop
  | .start t => Ready s t
  | .control _ (.setTime tick) => 0 < tick ∧ Near tick
  | _ => True

/-- Commands that are allowed one after the other. -/
def Permitted (s : Timers) : List Command → Prop
  | [] => True
  | c :: cs => Allowed s c ∧ Permitted (exec s c) cs

theorem u32_lt (x : Int) : u32 x < 2^32 := by
  unfold u32
  omega

/-- A difference the other way round. -/
theorem u32_reversed (x y : Int) : u32 (x-y) = (2^32-u32 (y-x)) % 2^32 := by
  unfold u32
  omega

/-- The difference of two times, seen from a third. -/
theorem u32_from (x y z : Int) : u32 (x-y) = u32 (u32 (x-z)-u32 (y-z)) := by
  unfold u32
  omega

theorem due_iff {s : Timers} {t : Id} (near : Near (left s t)) :
    u32 (s.rt_tick-(s.timer t).timeout_tick) < RT_TICK_MAX/2 ↔ left s t = 0 := by
  rw [u32_reversed]
  change (2^32-left s t) % 2^32 < _ ↔ _
  unfold Near at near
  simp only [RT_TICK_MAX] at *
  omega

theorem insertRow_eq {s : Timers} {t : Id} {l : List Id} (own : Near (left s t)) (near : ∀ u ∈ l, Near (left s u)) :
    insertRow s t l = insertAfter (left s) t l := by
  induction l with
  | nil => rfl
  | cons u rest ih =>
    obtain ⟨first,rest'⟩ := List.forall_mem_cons.mp near
    have distance : u32 ((s.timer u).timeout_tick-(s.timer t).timeout_tick) = u32 ((left s u : Nat)-(left s t : Nat)) :=
      u32_from _ _ s.rt_tick
    have test : (u32 ((left s u : Nat)-(left s t : Nat)) ≠ 0 ∧ u32 ((left s u : Nat)-(left s t : Nat)) < RT_TICK_MAX/2)
        ↔ left s t < left s u := by
      unfold Near at own first
      simp only [RT_TICK_MAX,u32] at *
      omega
    simp only [insertRow,insertAfter,distance,test,ih rest']

theorem insertRow_congr {s s' : Timers} (same : ∀ u, (s'.timer u).timeout_tick = (s.timer u).timeout_tick) (t : Id)
    (l : List Id) : insertRow s' t l = insertRow s t l := by
  induction l with
  | nil => rfl
  | cons u rest ih => simp only [insertRow,same,ih]

/-! ### Commands -/

section
variable {s : Timers} {t u : Id}

theorem set_timer_self (f : Timer → Timer) : (s.set t f).timer t = f (s.timer t) := Function.update_self ..
theorem set_timer_other (f : Timer → Timer) (other : u ≠ t) : (s.set t f).timer u = s.timer u :=
  Function.update_of_ne other ..

theorem start_timer_self : (rt_timer_start s t).timer t
    = { s.timer t with timeout_tick := u32 (s.rt_tick+(s.timer t).init_tick), activated := true } := by
  simp only [rt_timer_start,Timers.setActivated,set_timer_self]
  rfl

theorem start_timer_other (other : u ≠ t) : (rt_timer_start s t).timer u = s.timer u := by
  simp only [rt_timer_start,Timers.setActivated,set_timer_other _ other]
  rfl

theorem start_tick : (rt_timer_start s t).rt_tick = s.rt_tick := rfl
theorem start_list : (rt_timer_start s t).list = s.list.filter (· ≠ t) := rfl

/-- A timer that has been started is due after its delay. -/
theorem start_left_self (listed : Listed s) (ready : Ready s t) :
    left (rt_timer_start s t) t = (s.timer t).init_tick := by
  have near := ready.2
  have tick := listed.tick
  rw [left,start_timer_self,start_tick]
  unfold Near at near
  simp only [RT_TICK_MAX] at near
  unfold u32
  dsimp only
  omega

theorem start_left_other (other : u ≠ t) : left (rt_timer_start s t) u = left s u := by
  rw [left,left,start_timer_other other,start_tick]

theorem start_rt_timer_list (listed : Listed s) (ready : Ready s t) : (rt_timer_start s t).rt_timer_list
    = insertAfter (left (rt_timer_start s t)) t (s.rt_timer_list.filter (· ≠ t)) := by
  rw [← insertRow_eq]
  · refine insertRow_congr (fun u => ?_) t _
    by_cases own : u = t
    · rw [own,start_timer_self]
      simp only [Timers.setActivated,set_timer_self]
      rfl
    · rw [start_timer_other own]
      simp only [Timers.setActivated,set_timer_other _ own]
      rfl
  · rw [start_left_self listed ready]
    exact ready.2
  · intro u member
    obtain ⟨old,other⟩ := List.mem_filter.mp member
    rw [start_left_other (by simpa using other)]
    exact listed.near u old

theorem mem_start (listed : Listed s) (ready : Ready s t) :
    u ∈ (rt_timer_start s t).rt_timer_list ↔ u = t ∨ u ∈ s.rt_timer_list := by
  rw [start_rt_timer_list listed ready,mem_insertAfter,List.mem_filter]
  by_cases own : u = t <;> simp [own]

theorem control_other (cmd : Control) (other : u ≠ t) : (rt_timer_control s t cmd).timer u = s.timer u := by
  cases cmd <;> simp only [rt_timer_control,set_timer_other _ other]

/-- The delay that a command leaves a timer with. -/
def Command.delay (u : Id) (old : Nat) : Command → Nat
  | .control t (.setTime tick) => if u = t then tick else old
  | _ => old

theorem remove_init_tick {activated : Bool} :
    (((_rt_timer_remove s t).setActivated t activated).timer u).init_tick = (s.timer u).init_tick := by
  by_cases own : u = t
  · rw [own,Timers.setActivated,set_timer_self]
    rfl
  · rw [Timers.setActivated,set_timer_other _ own]
    rfl

theorem exec_init_tick (c : Command) : ((exec s c).timer u).init_tick = c.delay u (s.timer u).init_tick := by
  cases c with
  | start t =>
    by_cases own : u = t
    · rw [exec,own,start_timer_self]
      rfl
    · rw [exec,start_timer_other own]
      rfl
  | stop t =>
    rw [exec,rt_timer_stop]
    split
    · rfl
    · exact remove_init_tick
  | detach t => exact remove_init_tick
  | control t cmd =>
    by_cases own : u = t
    · subst own
      cases cmd <;> simp [exec,Command.delay,rt_timer_control,set_timer_self]
    · rw [exec,control_other cmd own]
      cases cmd <;> simp [Command.delay,own]

/-- A delay that is set stays so. -/
theorem exec_ready {c : Command} (allowed : Allowed s c) (ready : Ready s u) : Ready (exec s c) u := by
  rw [Ready,exec_init_tick]
  cases c with
  | control t cmd =>
    cases cmd with
    | setTime tick =>
      rw [Command.delay]
      split
      · exact allowed
      · exact ready
    | setOneshot => exact ready
    | setPeriodic => exact ready
  | start t => exact ready
  | stop t => exact ready
  | detach t => exact ready

theorem remove_ready (activated : Bool) : Ready ((_rt_timer_remove s t).setActivated t activated) u ↔ Ready s u := by
  rw [Ready,remove_init_tick]
  rfl

theorem start_listed (listed : Listed s) (ready : Ready s t) : Listed (rt_timer_start s t) := by
  have kept : ∀ u ∈ s.rt_timer_list.filter (· ≠ t), u ∈ s.rt_timer_list ∧ u ≠ t := fun u member => by
    simpa using List.mem_filter.mp member
  refine ⟨?_,?_,?_,?_,?_,listed.tick,?_⟩
  · rw [start_rt_timer_list listed ready,(insertAfter_perm ..).nodup_iff,List.nodup_cons]
    exact ⟨fun member => (kept t member).2 rfl,listed.nodup.filter _⟩
  · intro u member
    by_cases own : u = t
    · rw [own,start_left_self listed ready]
      exact ready.2
    · rw [start_left_other own]
      exact listed.near u (((mem_start listed ready).mp member).resolve_left own)
  · rw [start_rt_timer_list listed ready]
    apply pairwise_insertAfter
    refine (listed.sorted.filter _).imp_of_mem fun {u w} first second before => ?_
    rw [start_left_other (kept u first).2,start_left_other (kept w second).2]
    exact before
  · intro u member
    by_cases own : u = t
    · rw [own,start_timer_self]
    · rw [start_timer_other own]
      exact listed.active u (((mem_start listed ready).mp member).resolve_left own)
  · intro u member
    refine exec_ready (c := .start t) ready ?_
    rcases member with there | temporary
    · rcases (mem_start listed ready).mp there with own | there
      · rw [own]
        exact ready
      · exact listed.ready u (.inl there)
    · exact listed.ready u (.inr (List.mem_filter.mp temporary).1)
  · intro u member
    obtain ⟨old,other⟩ : u ∈ s.list ∧ u ≠ t := by simpa using List.mem_filter.mp member
    rw [mem_start listed ready]
    rintro (own | there)
    · exact other own
    · exact listed.apart u old there

/-- A timer is taken out; its own record may change, but for the delay. -/
theorem Listed.removed {s' : Timers} (listed : Listed s) (tick : s'.rt_tick = s.rt_tick)
    (out : s'.rt_timer_list = s.rt_timer_list.filter (· ≠ t)) (others : ∀ u, u ≠ t → s'.timer u = s.timer u)
    (delay : (s'.timer t).init_tick = (s.timer t).init_tick)
    (temporary : ∀ u ∈ s'.list, u = t ∧ u ∈ s.rt_timer_list ∨ u ∈ s.list) : Listed s' := by
  have kept : ∀ u ∈ s'.rt_timer_list, u ∈ s.rt_timer_list ∧ u ≠ t := fun u member => by
    rw [out] at member
    simpa using List.mem_filter.mp member
  have same : ∀ u ∈ s'.rt_timer_list, left s' u = left s u := fun u member => by
    rw [left,left,others u (kept u member).2,tick]
  refine ⟨?_,?_,?_,?_,?_,?_,?_⟩
  · rw [out]
    exact listed.nodup.filter _
  · intro u member
    rw [same u member]
    exact listed.near u (kept u member).1
  · have sorted := listed.sorted.filter (· ≠ t)
    rw [← out] at sorted
    refine sorted.imp_of_mem fun {u w} first second before => ?_
    rw [same u first,same w second]
    exact before
  · intro u member
    rw [others u (kept u member).2]
    exact listed.active u (kept u member).1
  · intro u member
    have ready : Ready s u := by
      rcases member with there | there
      · exact listed.ready u (.inl (kept u there).1)
      · rcases temporary u there with ⟨_,old⟩ | old
        · exact listed.ready u (.inl old)
        · exact listed.ready u (.inr old)
    by_cases own : u = t
    · subst own
      rwa [Ready,delay]
    · rwa [Ready,others u own]
  · rw [tick]
    exact listed.tick
  · intro u member there
    rcases temporary u member with ⟨own,_⟩ | old
    · exact (kept u there).2 own
    · exact listed.apart u old (kept u there).1

theorem remove_listed (listed : Listed s) (activated : Bool) : Listed ((_rt_timer_remove s t).setActivated t activated) := by
  refine listed.removed (t := t) rfl rfl (fun u other => ?_) ?_ fun u member => ?_
  · exact set_timer_other _ other
  · rw [Timers.setActivated,set_timer_self]
    rfl
  · exact .inr (List.mem_filter.mp member).1

theorem control_timeout (cmd : Control) :
    ((rt_timer_control s t cmd).timer u).timeout_tick = (s.timer u).timeout_tick
      ∧ ((rt_timer_control s t cmd).timer u).activated = (s.timer u).activated := by
  by_cases own : u = t
  · subst own
    cases cmd <;> simp [rt_timer_control,set_timer_self]
  · simp [control_other cmd own]

theorem control_left (cmd : Control) : left (rt_timer_control s t cmd) u = left s u := by
  have tick : (rt_timer_control s t cmd).rt_tick = s.rt_tick := by cases cmd <;> rfl
  rw [left,left,(control_timeout cmd).1,tick]

theorem control_lists (cmd : Control) : (rt_timer_control s t cmd).rt_timer_list = s.rt_timer_list
    ∧ (rt_timer_control s t cmd).list = s.list ∧ (rt_timer_control s t cmd).rt_tick = s.rt_tick := by
  cases cmd <;> exact ⟨rfl,rfl,rfl⟩

theorem control_listed (listed : Listed s) {cmd : Control} (allowed : Allowed s (.control t cmd)) :
    Listed (rt_timer_control s t cmd) := by
  obtain ⟨same,temporary,tick⟩ := control_lists (s := s) (t := t) cmd
  refine ⟨same ▸ listed.nodup,?_,?_,?_,?_,tick ▸ listed.tick,?_⟩
  · rw [same]
    intro u member
    rw [control_left]
    exact listed.near u member
  · rw [same]
    simp only [control_left]
    exact listed.sorted
  · rw [same]
    intro u member
    rw [(control_timeout cmd).2]
    exact listed.active u member
  · rw [same,temporary]
    exact fun u member => exec_ready allowed (listed.ready u member)
  · rw [same,temporary]
    exact listed.apart

theorem exec_listed (listed : Listed s) {c : Command} (allowed : Allowed s c) : Listed (exec s c) := by
  cases c with
  | start t => exact start_listed listed allowed
  | stop t =>
    rw [exec,rt_timer_stop]
    split
    · exact listed
    · exact remove_listed listed false
  | detach t => exact remove_listed listed false
  | control t cmd => exact control_listed listed allowed

/-- Nothing happens to a timer. -/
structure Untouched (s s' : Timers) (u : Id) : Prop where
  timer : s'.timer u = s.timer u
  listed : u ∈ s'.rt_timer_list ↔ u ∈ s.rt_timer_list
  temporary : u ∈ s'.list ↔ u ∈ s.list
  tick : s'.rt_tick = s.rt_tick

theorem Untouched.refl (s : Timers) (u : Id) : Untouched s s u := ⟨rfl,Iff.rfl,Iff.rfl,rfl⟩

theorem Untouched.trans {s s' s'' : Timers} (first : Untouched s s' u) (second : Untouched s' s'' u) : Untouched s s'' u :=
  ⟨second.timer.trans first.timer,second.listed.trans first.listed,second.temporary.trans first.temporary,
    second.tick.trans first.tick⟩

theorem Untouched.left_eq {s' : Timers} (same : Untouched s s' u) : left s' u = left s u := by
  rw [left,left,same.timer,same.tick]

theorem remove_untouched (other : u ≠ t) (activated : Bool) :
    Untouched s ((_rt_timer_remove s t).setActivated t activated) u := by
  refine ⟨set_timer_other _ other,?_,?_,rfl⟩ <;>
    simp [_rt_timer_remove,Timers.setActivated,Timers.set,other]

theorem exec_untouched (listed : Listed s) {c : Command} (allowed : Allowed s c) (other : u ≠ c.timer) :
    Untouched s (exec s c) u := by
  cases c with
  | start t =>
    change u ≠ t at other
    refine ⟨start_timer_other other,?_,?_,rfl⟩
    · rw [exec,mem_start listed allowed]
      simp [other]
    · rw [exec,start_list]
      simp [other]
  | stop t =>
    rw [exec,rt_timer_stop]
    split
    · exact .refl s u
    · exact remove_untouched other false
  | detach t => exact remove_untouched other false
  | control t cmd =>
    obtain ⟨same,temporary,tick⟩ := control_lists (s := s) (t := t) cmd
    exact ⟨control_other cmd other,by rw [exec,same],by rw [exec,temporary],tick⟩

/-- A command makes no timer due. -/
theorem exec_due (listed : Listed s) {c : Command} (allowed : Allowed s c) (member : u ∈ (exec s c).rt_timer_list)
    (due : left (exec s c) u = 0) : u ∈ s.rt_timer_list ∧ left s u = 0 := by
  by_cases own : u = c.timer
  · subst own
    cases c with
    | start t =>
      have positive : 0 < (s.timer t).init_tick := allowed.1
      have := start_left_self listed allowed
      change left (rt_timer_start s t) t = 0 at due
      omega
    | stop t =>
      rw [exec,rt_timer_stop] at member due
      split at member
      next idle =>
        rw [if_pos idle] at due
        exact ⟨member,due⟩
      next => simp [_rt_timer_remove,Timers.setActivated,Timers.set,Command.timer] at member
    | detach t => simp [exec,rt_timer_detach,_rt_timer_remove,Timers.setActivated,Timers.set,Command.timer] at member
    | control t cmd =>
      rw [exec,(control_lists cmd).1] at member
      rw [exec,control_left] at due
      exact ⟨member,due⟩
  · have same := exec_untouched listed allowed own
    exact ⟨same.listed.mp member,same.left_eq.symm.trans due⟩
end

/-! ### A timer that goes off -/

section
variable {s : Timers} {t u : Id} {cs : List Command}

theorem execs_listed (listed : Listed s) (permitted : Permitted s cs) : Listed (cs.foldl exec s) := by
  induction cs generalizing s with
  | nil => exact listed
  | cons c cs ih => exact ih (exec_listed listed permitted.1) permitted.2

theorem execs_ready (permitted : Permitted s cs) (ready : Ready s u) : Ready (cs.foldl exec s) u := by
  induction cs generalizing s with
  | nil => exact ready
  | cons c cs ih => exact ih permitted.2 (exec_ready permitted.1 ready)

theorem execs_untouched (listed : Listed s) (permitted : Permitted s cs) (others : ∀ c ∈ cs, u ≠ c.timer) :
    Untouched s (cs.foldl exec s) u := by
  induction cs generalizing s with
  | nil => exact .refl s u
  | cons c cs ih =>
    obtain ⟨first,rest⟩ := permitted
    obtain ⟨other,others'⟩ := List.forall_mem_cons.mp others
    exact (exec_untouched listed first other).trans (ih (exec_listed listed first) rest others')

theorem execs_due (listed : Listed s) (permitted : Permitted s cs) (member : u ∈ (cs.foldl exec s).rt_timer_list)
    (due : left (cs.foldl exec s) u = 0) : u ∈ s.rt_timer_list ∧ left s u = 0 := by
  induction cs generalizing s with
  | nil => exact ⟨member,due⟩
  | cons c cs ih =>
    obtain ⟨first,rest⟩ := permitted
    obtain ⟨member',due'⟩ := ih (exec_listed listed first) rest member due
    exact exec_due listed first member' due'

theorem exec_temporary {c : Command} (member : u ∈ (exec s c).list) : u ∈ s.list := by
  cases c with
  | start t => exact (List.mem_filter.mp member).1
  | stop t =>
    rw [exec,rt_timer_stop] at member
    split at member
    · exact member
    · exact (List.mem_filter.mp member).1
  | detach t => exact (List.mem_filter.mp member).1
  | control t cmd =>
    rw [exec,(control_lists cmd).2.1] at member
    exact member

theorem execs_temporary (member : u ∈ (cs.foldl exec s).list) : u ∈ s.list := by
  induction cs generalizing s with
  | nil => exact member
  | cons c cs ih => exact exec_temporary (ih member)

theorem takeOut_other (other : u ≠ t) : (takeOut s t).timer u = s.timer u := by
  unfold takeOut
  dsimp only
  split
  · exact set_timer_other _ other
  · rfl

theorem takeOut_self : (takeOut s t).timer t
    = { s.timer t with activated := (s.timer t).periodic && (s.timer t).activated } := by
  unfold takeOut
  dsimp only
  split
  next once =>
    rw [Timers.setActivated,set_timer_self]
    simp_all [_rt_timer_remove]
  next again =>
    have periodic : (s.timer t).periodic = true := by simpa [_rt_timer_remove] using again
    rw [periodic,Bool.true_and,← periodic]
    rfl

theorem takeOut_lists (done : s.list = []) : (takeOut s t).rt_timer_list = s.rt_timer_list.filter (· ≠ t)
    ∧ (takeOut s t).list = [t] ∧ (takeOut s t).rt_tick = s.rt_tick := by
  unfold takeOut
  dsimp only
  split <;> simp [_rt_timer_remove,Timers.setActivated,Timers.set,done]

theorem takeOut_listed (listed : Listed s) (done : s.list = []) (member : t ∈ s.rt_timer_list) :
    Listed (takeOut s t) := by
  obtain ⟨out,temporary,tick⟩ := takeOut_lists (t := t) done
  refine listed.removed (t := t) tick out (fun u other => takeOut_other other) (by rw [takeOut_self]) fun u there => ?_
  rw [temporary,List.mem_singleton] at there
  exact .inl ⟨there,there ▸ member⟩

theorem takeOut_ready : Ready (takeOut s t) u ↔ Ready s u := by
  by_cases own : u = t
  · rw [own,Ready,takeOut_self]
    rfl
  · rw [Ready,takeOut_other own]
    rfl

theorem takeOut_gone (done : s.list = []) : t ∉ (takeOut s t).rt_timer_list := by
  rw [(takeOut_lists done).1]
  simp

/-- A timer goes off, and its function executes some commands. -/
def expired (cs : List Command) (s : Timers) (t : Id) : Timers := finish (cs.foldl exec (takeOut s t)) t

section
variable (listed : Listed s) (done : s.list = []) (head : t ∈ s.rt_timer_list) (permitted : Permitted (takeOut s t) cs)
include listed done head permitted

theorem called_listed : Listed (cs.foldl exec (takeOut s t)) ∧ ∀ u ∈ (cs.foldl exec (takeOut s t)).list, u = t := by
  refine ⟨execs_listed (takeOut_listed listed done head) permitted,fun u member => ?_⟩
  have := execs_temporary member
  rwa [(takeOut_lists done).2.1,List.mem_singleton] at this

/-- After its function is called a timer is in neither list, or it is in the first one and not due. -/
theorem expired_listed : Listed (expired cs s t) ∧ (expired cs s t).list = [] := by
  obtain ⟨called,only⟩ := called_listed listed done head permitted
  unfold expired finish
  dsimp only
  generalize cs.foldl exec (takeOut s t) = r at called only
  have emptied : (_rt_timer_remove r t).list = [] := by
    refine List.eq_nil_iff_forall_not_mem.mpr fun u member => ?_
    obtain ⟨there,other⟩ : u ∈ r.list ∧ u ≠ t := by simpa using List.mem_filter.mp member
    exact other (only u there)
  split
  next empty => exact ⟨called,empty⟩
  next filled =>
    obtain ⟨u,member⟩ := List.exists_mem_of_ne_nil _ filled
    have ready := called.ready u (.inr member)
    rw [only u member] at ready
    split
    · refine ⟨start_listed (remove_listed called false) ((remove_ready false).mpr ready),?_⟩
      rw [start_list]
      simp [Timers.setActivated,Timers.set,emptied]
    · refine ⟨called.removed (t := t) rfl rfl (fun u other => rfl) rfl fun u member => .inr ?_,emptied⟩
      exact (List.mem_filter.mp member).1

omit listed done head in
theorem expired_ready (ready : Ready s u) : Ready (expired cs s t) u := by
  have called : Ready (cs.foldl exec (takeOut s t)) u := execs_ready permitted (takeOut_ready.mpr ready)
  unfold expired finish
  dsimp only
  generalize cs.foldl exec (takeOut s t) = r at called
  split
  · exact called
  · split
    · change Ready (exec ((_rt_timer_remove r t).setActivated t false) (.start t)) u
      rw [Ready,exec_init_tick]
      exact (remove_ready false).mpr called
    · exact called

theorem expired_due (member : u ∈ (expired cs s t).rt_timer_list) (due : left (expired cs s t) u = 0) :
    u ∈ s.rt_timer_list ∧ left s u = 0 ∧ u ≠ t := by
  obtain ⟨called,only⟩ := called_listed listed done head permitted
  -- a timer that is due after the call was due before
  have before (member : u ∈ (cs.foldl exec (takeOut s t)).rt_timer_list)
      (due : left (cs.foldl exec (takeOut s t)) u = 0) : u ∈ s.rt_timer_list ∧ left s u = 0 ∧ u ≠ t := by
    obtain ⟨member,due⟩ := execs_due (takeOut_listed listed done head) permitted member due
    have other : u ≠ t := fun own => takeOut_gone done (own ▸ member)
    rw [(takeOut_lists done).1,List.mem_filter] at member
    rw [left,takeOut_other other,(takeOut_lists done).2.2] at due
    exact ⟨member.1,due,other⟩
  unfold expired finish at member due
  dsimp only at member due
  generalize cs.foldl exec (takeOut s t) = r at called only before member due
  split at member
  next empty =>
    rw [if_pos empty] at due
    exact before member due
  next filled =>
    rw [if_neg filled] at due
    split at member
    next again =>
      rw [if_pos again] at due
      obtain ⟨w,there⟩ := List.exists_mem_of_ne_nil _ filled
      have ready := (remove_ready (t := t) false).mpr (called.ready w (.inr there))
      rw [only w there] at ready
      have removed := remove_listed (t := t) called false
      by_cases own : u = t
      · subst own
        have positive := ready.1
        rw [start_left_self removed ready] at due
        omega
      · rw [mem_start removed ready] at member
        rw [start_left_other own] at due
        have same := remove_untouched (s := r) own false
        exact before (same.listed.mp (member.resolve_left own)) (same.left_eq.symm.trans due)
    next once =>
      rw [if_neg once] at due
      exact before (List.mem_filter.mp member).1 due

theorem expired_untouched (other : u ≠ t) (others : ∀ c ∈ cs, u ≠ c.timer) : Untouched s (expired cs s t) u := by
  obtain ⟨called,only⟩ := called_listed listed done head permitted
  have before : Untouched s (cs.foldl exec (takeOut s t)) u := by
    refine Untouched.trans ⟨takeOut_other other,?_,?_,(takeOut_lists done).2.2⟩
      (execs_untouched (takeOut_listed listed done head) permitted others)
    · rw [(takeOut_lists done).1]
      simp [other]
    · rw [(takeOut_lists done).2.1,done]
      simp [other]
  unfold expired finish
  dsimp only
  generalize cs.foldl exec (takeOut s t) = r at called only before
  split
  next => exact before
  next filled =>
    split
    · obtain ⟨w,there⟩ := List.exists_mem_of_ne_nil _ filled
      have ready := called.ready w (.inr there)
      rw [only w there] at ready
      refine before.trans ((remove_untouched other false).trans ?_)
      exact exec_untouched (c := .start t) (remove_listed called false) ((remove_ready false).mpr ready) other
    · refine before.trans ⟨rfl,?_,?_,rfl⟩ <;> simp [_rt_timer_remove,other]

/-- A timer that its function leaves alone: a periodic one is started again. -/
theorem expired_renewed (others : ∀ c ∈ cs, t ≠ c.timer) :
    (t ∈ (expired cs s t).rt_timer_list ↔ (s.timer t).periodic = true)
      ∧ ((expired cs s t).timer t).init_tick = (s.timer t).init_tick
      ∧ ((expired cs s t).timer t).periodic = (s.timer t).periodic
      ∧ ((s.timer t).periodic = true → left (expired cs s t) t = (s.timer t).init_tick) := by
  obtain ⟨called,only⟩ := called_listed listed done head permitted
  have same := execs_untouched (takeOut_listed listed done head) permitted others
  have timer := same.timer
  have temporary : t ∈ (cs.foldl exec (takeOut s t)).list := by
    rw [same.temporary,(takeOut_lists done).2.1]
    exact List.mem_singleton_self t
  rw [takeOut_self,listed.active t head,Bool.and_true] at timer
  unfold expired finish
  dsimp only
  generalize cs.foldl exec (takeOut s t) = r at called timer temporary
  rw [if_neg (List.ne_nil_of_mem temporary)]
  have periodic : ((_rt_timer_remove r t).timer t).periodic = (s.timer t).periodic := by
    change (r.timer t).periodic = _
    rw [timer]
  have activated : ((_rt_timer_remove r t).timer t).activated = (s.timer t).periodic := by
    change (r.timer t).activated = _
    rw [timer]
  have delay : (r.timer t).init_tick = (s.timer t).init_tick := by
    rw [timer]
  rw [periodic,activated,Bool.and_self]
  split
  next again =>
    have removed := remove_listed (t := t) called false
    have ready := (remove_ready (t := t) false).mpr (called.ready t (.inr temporary))
    have record : ((_rt_timer_remove r t).setActivated t false).timer t = { r.timer t with activated := false } :=
      set_timer_self _
    refine ⟨iff_of_true ((mem_start removed ready).mpr (.inl rfl)) again,?_,?_,fun _ => ?_⟩
    · rw [start_timer_self,record]
      exact delay
    · rw [start_timer_self,record]
      exact periodic
    · rw [start_left_self removed ready,record]
      exact delay
  next once => exact ⟨iff_of_false (by simp [_rt_timer_remove]) once,delay,periodic,fun again => absurd again once⟩
end
end

/-! ### The check at a tick -/

/-- The timers that are due. -/
def dues (s : Timers) : List Id := s.rt_timer_list.filter fun t => left s t = 0

/-- What the check does to a timer that no timeout function touches: one that is due goes off,
    once, and is started again if it is periodic; another is left alone. -/
structure Checked (s s' : Timers) (fired : List Id) (u : Id) : Prop where
  due : u ∈ dues s → fired.count u = 1 ∧ (u ∈ s'.rt_timer_list ↔ (s.timer u).periodic = true)
    ∧ (s'.timer u).init_tick = (s.timer u).init_tick ∧ (s'.timer u).periodic = (s.timer u).periodic
    ∧ ((s.timer u).periodic = true → left s' u = (s.timer u).init_tick)
  later : u ∉ dues s → fired.count u = 0 ∧ Untouched s s' u

section
variable {s : Timers} {t u : Id} {cs : List Command}

theorem mem_dues : u ∈ dues s ↔ u ∈ s.rt_timer_list ∧ left s u = 0 := by
  simp [dues]

theorem Untouched.dues_iff {s' : Timers} (same : Untouched s s' u) : u ∈ dues s' ↔ u ∈ dues s := by
  rw [mem_dues,mem_dues,same.listed,same.left_eq]

theorem dues_expired (listed : Listed s) (done : s.list = []) (permitted : Permitted (takeOut s t) cs) (due : t ∈ dues s) :
    (dues (expired cs s t)).length < (dues s).length := by
  have head := (mem_dues.mp due).1
  have fewer : t :: dues (expired cs s t) ⊆ dues s := by
    refine List.cons_subset.mpr ⟨due,fun u member => ?_⟩
    obtain ⟨there,zero⟩ := mem_dues.mp member
    obtain ⟨there,zero,_⟩ := expired_due listed done head permitted there zero
    exact mem_dues.mpr ⟨there,zero⟩
  have apart : (t :: dues (expired cs s t)).Nodup := by
    refine List.nodup_cons.mpr ⟨fun member => ?_,(expired_listed listed done head permitted).1.nodup.filter _⟩
    obtain ⟨there,zero⟩ := mem_dues.mp member
    exact (expired_due listed done head permitted there zero).2.2 rfl
  simpa using (apart.subperm fewer).length_le

/-- The first timer of the list is due if any is. -/
theorem dues_empty (listed : Listed s) {rest : List Id} (first : s.rt_timer_list = t :: rest) (later : left s t ≠ 0) :
    ∀ u ∈ s.rt_timer_list, 0 < left s u := by
  have sorted := listed.sorted
  rw [first,List.pairwise_cons] at sorted
  rw [first]
  intro u member
  rcases List.mem_cons.mp member with own | behind
  · rw [own]
    omega
  · have := sorted.1 u behind
    omega

theorem checked_quiet (later : ∀ t ∈ s.rt_timer_list, 0 < left s t) : Checked s s [] u := by
  refine ⟨fun due => ?_,fun _ => ⟨List.count_nil,.refl s u⟩⟩
  obtain ⟨there,zero⟩ := mem_dues.mp due
  have := later u there
  omega

theorem checked_cons {s' : Timers} {fired : List Id} (listed : Listed s) (done : s.list = [])
    (permitted : Permitted (takeOut s t) cs) (due : t ∈ dues s) (others : ∀ c ∈ cs, u ≠ c.timer)
    (rest : Checked (expired cs s t) s' fired u) : Checked s s' (t :: fired) u := by
  have head := (mem_dues.mp due).1
  by_cases own : u = t
  · subst own
    obtain ⟨there,delay,periodic,again⟩ := expired_renewed listed done head permitted others
    have undue : u ∉ dues (expired cs s u) := fun member =>
      (expired_due listed done head permitted (mem_dues.mp member).1 (mem_dues.mp member).2).2.2 rfl
    obtain ⟨silent,same⟩ := rest.later undue
    refine ⟨fun _ => ⟨?_,same.listed.trans there,?_,?_,fun flag => same.left_eq.trans (again flag)⟩,fun not => absurd due not⟩
    · rw [List.count_cons_self,silent]
    · rw [same.timer,delay]
    · rw [same.timer,periodic]
  · have same := expired_untouched listed done head permitted own others
    have count : (t :: fired).count u = fired.count u := List.count_cons_of_ne (Ne.symm own)
    constructor
    · intro waited
      obtain ⟨once,there,delay,periodic,again⟩ := rest.due (same.dues_iff.mpr waited)
      rw [same.timer] at there delay periodic again
      exact ⟨count.trans once,there,delay,periodic,again⟩
    · intro waited
      obtain ⟨silent,untouched⟩ := rest.later (mt same.dues_iff.mp waited)
      exact ⟨count.trans silent,same.trans untouched⟩

/-- What may be done stays so while more delays are set. -/
theorem Permitted.mono {s s' : Timers} {cs : List Command} (permitted : Permitted s cs) (grown : ∀ u, Ready s u → Ready s' u) :
    Permitted s' cs := by
  induction cs generalizing s s' with
  | nil => trivial
  | cons c cs ih =>
    obtain ⟨first,rest⟩ := permitted
    have first' : Allowed s' c := by
      cases c with
      | start t => exact grown t first
      | stop t => trivial
      | detach t => trivial
      | control t cmd => cases cmd <;> exact first
    refine ⟨first',ih rest fun u ready => ?_⟩
    by_cases old : Ready s u
    · exact exec_ready first' (grown u old)
    -- a delay that was not set before is set by this command
    · rw [Ready,exec_init_tick] at ready ⊢
      cases c with
      | control t cmd =>
        cases cmd with
        | setTime tick =>
          rw [Command.delay] at ready ⊢
          split at ready
          next own => rwa [if_pos own]
          next => exact absurd ready old
        | setOneshot => exact absurd ready old
        | setPeriodic => exact absurd ready old
      | start t => exact absurd ready old
      | stop t => exact absurd ready old
      | detach t => exact absurd ready old

end

section
variable {σ : Type} {host : Host σ} {timeout_func : Id → σ → σ}

variable (host) in
theorem timers_expire {x : σ} {t : Id} {cs : List Command}
    (acts : host.timers (timeout_func t (host.put x (takeOut (host.timers x) t))) = cs.foldl exec (takeOut (host.timers x) t)) :
    host.timers (expire host timeout_func x t) = expired cs (host.timers x) t := by
  rw [expire,host.timers_put,acts]
  rfl

/-- The check comes to an end when each timer that goes off leaves fewer of them due. -/
theorem check_run {I : σ → Prop} {R : σ → List Id → σ → Prop} (listed : ∀ x, I x → Listed (host.timers x))
    (stop : ∀ x, I x → (∀ u ∈ (host.timers x).rt_timer_list, 0 < left (host.timers x) u) → R x [] x)
    (go : ∀ x t, I x → t ∈ dues (host.timers x) → I (expire host timeout_func x t)
      ∧ (dues (host.timers (expire host timeout_func x t))).length < (dues (host.timers x)).length
      ∧ ∀ fired x', R (expire host timeout_func x t) fired x' → R x (t :: fired) x')
    {turns : Nat} {x : σ} (start : I x) (enough : (dues (host.timers x)).length < turns) :
    ∃ x' fired, rt_timer_check host timeout_func turns x = some (x',fired) ∧ R x fired x' := by
  induction turns generalizing x with
  | zero => cases enough
  | succ turns ih =>
    rw [rt_timer_check]
    split
    next empty =>
      refine ⟨x,[],rfl,stop x start ?_⟩
      rw [empty]
      exact fun u member => absurd member List.not_mem_nil
    next t rest first =>
      have head : t ∈ (host.timers x).rt_timer_list := by
        rw [first]
        exact List.mem_cons_self
      have test := due_iff ((listed x start).near t head)
      split
      next reached =>
        obtain ⟨next,fewer,related⟩ := go x t start (mem_dues.mpr ⟨head,test.mp reached⟩)
        obtain ⟨x',fired,ends,rest⟩ := ih next (by omega)
        exact ⟨x',t :: fired,by rw [ends]; rfl,related fired x' rest⟩
      next later => exact ⟨x,[],rfl,stop x start (dues_empty (listed x start) first (mt test.mpr later))⟩
end

/-! ### Timers by themselves -/

/-- Nothing is kept but the timers. -/
def alone : Host Timers := ⟨id,fun _ s => s,fun _ _ => rfl⟩

/-- The timeout functions that execute lists of commands. -/
def commanded (f : Id → List Command) (t : Id) (s : Timers) : Timers := (f t).foldl exec s

theorem check_spec {s : Timers} {f : Id → List Command} {turns : Nat} (listed : Listed s) (done : s.list = [])
    (permitted : ∀ t, Permitted s (f t)) (enough : (dues s).length < turns) :
    ∃ s' fired, rt_timer_check alone (commanded f) turns s = some (s',fired) ∧ Waiting s'
      ∧ ∀ u, (∀ t, ∀ c ∈ f t, u ≠ c.timer) → Checked s s' fired u := by
  refine check_run (I := fun s => (Listed s ∧ s.list = []) ∧ ∀ t, Permitted s (f t))
    (R := fun s fired s' => Waiting s' ∧ ∀ u, (∀ t, ∀ c ∈ f t, u ≠ c.timer) → Checked s s' fired u)
    (fun s inv => inv.1.1) (fun s inv later => ⟨⟨inv.1.1,later,inv.1.2⟩,fun u _ => checked_quiet later⟩) ?_
    ⟨⟨listed,done⟩,permitted⟩ enough
  rintro s t ⟨⟨listed,done⟩,permitted⟩ due
  have same : expire alone (commanded f) s t = expired (f t) s t := timers_expire alone rfl
  have head := (mem_dues.mp due).1
  have now : Permitted (takeOut s t) (f t) := (permitted t).mono fun u => takeOut_ready.mpr
  rw [same]
  refine ⟨⟨expired_listed listed done head now,fun u => (permitted u).mono fun w => expired_ready now⟩,
    dues_expired listed done now due,fun fired s' rest => ⟨rest.1,fun u others => ?_⟩⟩
  exact checked_cons listed done now due (others t) (rest.2 u others)

/-! ### Ticks -/

/-- A tick, with what the timeout functions do that are called in it, or a call of a thread. -/
inductive Event where
  | tick (timeout_func : Id → List Command)
  | call (c : Command)

def ticked (s : Timers) : Timers := { s with rt_tick := u32 (s.rt_tick+1) }

/-- Each tick emits the timers that have gone off. A check takes at most one turn for each timer. -/
def step (s : Timers) : Event → Timers × Option (List Id)
  | .tick timeout_func =>
    match rt_timer_check alone (commanded timeout_func) (s.rt_timer_list.length+1) (ticked s) with
    | some (s',fired) => (s',some fired)
    | none => (s,none)
  | .call c => (exec s c,none)

def Event.Allowed (s : Timers) : Event → Prop
  | .tick f => ∀ t, Permitted s (f t)
  | .call c => TimerList.Allowed s c

/-- The event has nothing to do with a timer, other than to call its function. -/
def Event.Spares (u : Id) : Event → Prop
  | .tick f => ∀ t, ∀ c ∈ f t, u ≠ c.timer
  | .call c => u ≠ c.timer

def Event.isTick : Event → Bool
  | .tick _ => true
  | .call _ => false

section
variable {s : Timers} {u : Id}

theorem ticked_timer : (ticked s).timer = s.timer := rfl

theorem left_increased (tick : s.rt_tick < 2^32) (later : 0 < left s u) :
    left (ticked s) u = left s u-1 := by
  unfold left ticked u32 at *
  dsimp only at *
  omega

theorem increased_listed (waiting : Waiting s) : Listed (ticked s) := by
  have less : ∀ t ∈ s.rt_timer_list, left (ticked s) t = left s t-1 := fun t member =>
    left_increased waiting.tick (waiting.later t member)
  refine ⟨waiting.nodup,fun t member => ?_,?_,waiting.active,waiting.ready,?_,waiting.apart⟩
  · have near := waiting.near t member
    rw [less t member]
    unfold Near at *
    omega
  · refine waiting.sorted.imp_of_mem fun {t w} first second before => ?_
    rw [less t first,less w second]
    omega
  · exact u32_lt (s.rt_tick+1)

theorem tick_spec {f : Id → List Command} (waiting : Waiting s) (allowed : (Event.tick f).Allowed s) :
    ∃ fired, (step s (.tick f)).2 = some fired ∧ Waiting (step s (.tick f)).1
      ∧ ∀ u, (Event.tick f).Spares u → Checked (ticked s) (step s (.tick f)).1 fired u := by
  have enough : (dues (ticked s)).length < s.rt_timer_list.length+1 :=
    Nat.lt_succ_of_le (List.length_filter_le _ _)
  obtain ⟨s',fired,ends,waiting',checked⟩ := check_spec (increased_listed waiting) waiting.done
    (fun t => (allowed t).mono fun u ready => ready) enough
  have same : step s (.tick f) = (s',some fired) := by
    simp only [step,ends]
  rw [same]
  exact ⟨fired,rfl,waiting',checked⟩

theorem exec_waiting {c : Command} (waiting : Waiting s) (allowed : TimerList.Allowed s c) : Waiting (exec s c) := by
  refine ⟨exec_listed waiting.toListed allowed,fun t member => ?_,?_⟩
  · by_contra due
    obtain ⟨there,zero⟩ := exec_due waiting.toListed allowed member (Nat.eq_zero_of_not_pos due)
    have := waiting.later t there
    omega
  · refine List.eq_nil_iff_forall_not_mem.mpr fun t member => ?_
    have := exec_temporary member
    rw [waiting.done] at this
    cases this

theorem step_waiting {e : Event} (waiting : Waiting s) (allowed : e.Allowed s) : Waiting (step s e).1 := by
  cases e with
  | tick f =>
    obtain ⟨_,_,waiting',_⟩ := tick_spec waiting allowed
    exact waiting'
  | call c => exact exec_waiting waiting allowed


/-- Every check comes to an end. -/
theorem outputs_length {events : List Event} (waiting : Waiting s) (allowed : Along step (fun s e => e.Allowed s) s events) :
    (outputs step s events).length = events.countP Event.isTick := by
  induction events generalizing s with
  | nil => rfl
  | cons e rest ih =>
    obtain ⟨first,later⟩ := allowed
    have next := ih (step_waiting waiting first) later
    rw [outputs,List.length_append,next]
    cases e with
    | tick f =>
      obtain ⟨fired,emitted,_⟩ := tick_spec waiting first
      rw [emitted,List.countP_cons_of_pos rfl]
      exact Nat.add_comm 1 _
    | call c =>
      rw [List.countP_cons_of_neg (by simp [Event.isTick])]
      exact Nat.zero_add _

/-! ### A timer in a run -/

/-- Whether a timer with a delay of `n` goes off at tick `k`, when it is due at tick `l`. -/
def rings (periodic : Bool) (n l k : Nat) : Bool := if periodic then l ≤ k ∧ n ∣ k-l else k = l

theorem rings_next (periodic : Bool) (n : Nat) {l : Nat} (later : 1 < l) (k : Nat) :
    rings periodic n (l-1) k = rings periodic n l (k+1) := by
  unfold rings
  have shift : k+1-l = k-(l-1) := by omega
  rw [shift]
  cases periodic
  · simp
    omega
  · simp

theorem rings_early (periodic : Bool) (n : Nat) {l k : Nat} (early : k < l) : rings periodic n l k = false := by
  unfold rings
  have other : k ≠ l := by omega
  cases periodic <;> simp [other,early]

theorem rings_again {n k : Nat} (later : 0 < k) : rings true n n k = rings true n 1 (k+1) := by
  unfold rings
  have one : 1 ≤ k+1 := by omega
  simp only [if_true,one,true_and,Nat.add_sub_cancel]
  rw [decide_eq_decide]
  constructor
  · rintro ⟨enough,divides⟩
    exact (Nat.dvd_sub_iff_left enough (dvd_refl n)).mp divides
  · intro divides
    have enough := Nat.le_of_dvd later divides
    exact ⟨enough,(Nat.dvd_sub_iff_left enough (dvd_refl n)).mpr divides⟩

theorem spared_idle {events : List Event} (waiting : Waiting s) (idle : u ∉ s.rt_timer_list)
    (allowed : Along step (fun s e => e.Allowed s) s events) (spared : ∀ e ∈ events, e.Spares u) :
    ∀ fired ∈ outputs step s events, fired.count u = 0 := by
  induction events generalizing s with
  | nil => exact fun fired member => absurd member List.not_mem_nil
  | cons e rest ih =>
    obtain ⟨first,later⟩ := allowed
    obtain ⟨spares,spared'⟩ := List.forall_mem_cons.mp spared
    intro fired member
    cases e with
    | tick f =>
      obtain ⟨now,emitted,waiting',checked⟩ := tick_spec waiting first
      have undue : u ∉ dues (ticked s) := fun due => idle (mem_dues.mp due).1
      obtain ⟨silent,same⟩ := (checked u spares).later undue
      rw [outputs,emitted] at member
      rcases List.mem_cons.mp member with rfl | after
      · exact silent
      · exact ih waiting' (mt same.listed.mp idle) later spared' fired after
    | call c =>
      have same := exec_untouched waiting.toListed first spares
      exact ih (exec_waiting waiting first) (mt same.listed.mp idle) later spared' fired member

theorem spared_running {events : List Event} (waiting : Waiting s) (running : u ∈ s.rt_timer_list)
    (allowed : Along step (fun s e => e.Allowed s) s events) (spared : ∀ e ∈ events, e.Spares u) {k : Nat} {fired : List Id}
    (emits : (outputs step s events)[k]? = some fired) :
    fired.count u = (rings (s.timer u).periodic (s.timer u).init_tick (left s u) (k+1)).toNat := by
  induction events generalizing s k with
  | nil => cases emits
  | cons e rest ih =>
    obtain ⟨first,later⟩ := allowed
    obtain ⟨spares,spared'⟩ := List.forall_mem_cons.mp spared
    cases e with
    | call c =>
      have same := exec_untouched waiting.toListed first spares
      have rest' := ih (exec_waiting waiting first) (same.listed.mpr running) later spared' emits
      rwa [same.timer,same.left_eq] at rest'
    | tick f =>
      obtain ⟨now,emitted,waiting',checked⟩ := tick_spec waiting first
      have positive := waiting.later u running
      have less := left_increased waiting.tick positive
      have delay := (waiting.ready u (.inl running)).1
      rw [outputs,emitted,Option.toList_some,List.singleton_append] at emits
      by_cases last : left s u = 1
      -- the tick at which the timer is due
      · have due : u ∈ dues (ticked s) := mem_dues.mpr ⟨running,by rw [less,last]⟩
        obtain ⟨once,there,same,periodic,again⟩ := (checked u spares).due due
        rw [ticked_timer] at there same periodic again
        cases k with
        | zero =>
          cases emits
          rw [once,last]
          cases (s.timer u).periodic <;> simp [rings]
        | succ k =>
          rw [List.getElem?_cons_succ] at emits
          cases kind : (s.timer u).periodic with
          | false =>
            have idle : u ∉ (step s (.tick f)).1.rt_timer_list := fun member => by simp [there.mp member] at kind
            rw [spared_idle waiting' idle later spared' fired (List.mem_of_getElem? emits),last]
            simp [rings]
          | true =>
            rw [ih waiting' (there.mpr kind) later spared' emits,periodic,same,again kind,kind,last,
              rings_again (Nat.succ_pos k)]
      -- a tick before that
      · have undue : u ∉ dues (ticked s) := fun due => by
          have := (mem_dues.mp due).2
          rw [less] at this
          omega
        obtain ⟨silent,same⟩ := (checked u spares).later undue
        have more : 1 < left s u := by omega
        cases k with
        | zero =>
          cases emits
          rw [silent,rings_early _ _ (by omega)]
          rfl
        | succ k =>
          rw [List.getElem?_cons_succ] at emits
          rw [ih waiting' (same.listed.mpr running) later spared' emits,same.timer,same.left_eq,less,
            rings_next _ _ more,ticked_timer]
end

/-- The timers after `rt_system_timer_init`. -/
def boot (timer : Id → Timer) : Timers := ⟨0,timer,[],[]⟩

/-- A timer goes off at the tick it is set for, and at no other, whatever threads and timeout
    functions do with the other timers, and however often the count starts over. -/
theorem timer_goes_off_on_time {timer : Id → Timer} (before : List Event) {after : List Event} (u : Id)
    (allowed : Along step (fun s e => e.Allowed s) (boot timer) (before ++ .call (.start u) :: after))
    (spared : ∀ e ∈ after, e.Spares u) :
    let s := final step (boot timer) before
    let fired := outputs step (rt_timer_start s u) after
    fired.length = after.countP Event.isTick
      ∧ ∀ k (known : k < fired.length), fired[k].count u
          = if (s.timer u).periodic then (if (s.timer u).init_tick ∣ k+1 then 1 else 0)
            else (if k+1 = (s.timer u).init_tick then 1 else 0) := by
  intro s fired
  obtain ⟨allowed,ready,allowed'⟩ := (along_append step _ _ _ _).mp allowed
  have start : Waiting (boot timer) := by
    refine ⟨⟨List.nodup_nil,?_,List.Pairwise.nil,?_,?_,Nat.two_pow_pos 32,?_⟩,?_,rfl⟩ <;> simp [boot]
  have waiting : Waiting s := final_invariant (fun s e => step_waiting) start allowed
  have started : Waiting (rt_timer_start s u) := exec_waiting (c := .start u) waiting ready
  refine ⟨outputs_length started allowed',fun k known => ?_⟩
  have listed : u ∈ (rt_timer_start s u).rt_timer_list := (mem_start waiting.toListed ready).mpr (.inl rfl)
  have rung := spared_running started listed allowed' spared (List.getElem?_eq_getElem known)
  rw [start_left_self waiting.toListed ready,start_timer_self] at rung
  dsimp only at rung
  rw [rung]
  cases (s.timer u).periodic with
  | false => by_cases same : k+1 = (s.timer u).init_tick <;> simp [rings,same]
  | true =>
    rw [rings_again (Nat.succ_pos k)]
    by_cases divides : (s.timer u).init_tick ∣ k+1 <;> simp [rings,divides]

/-- A periodic timer with a delay of two ticks, and another one, which goes off once. -/
def pairOfTimers (t : Id) : Timer := ⟨if t = 0 then 2 else 3,0,false,t = 0⟩

def pairRun : List Event :=
  [.tick fun _ => [],.call (.start 1),.tick fun _ => [],.call (.control 1 (.setTime 1)),.call (.start 1),.tick fun _ => [],
    .tick fun _ => []]

theorem timer_goes_off_on_time_pair :
    (outputs step (rt_timer_start (boot pairOfTimers) 0) pairRun).map (List.count 0) = [0,1,0,1] := by
  have allowed : Along step (fun s e => e.Allowed s) (boot pairOfTimers) ([] ++ .call (.start 0) :: pairRun) :=
    ⟨show Ready _ _ by decide,fun _ => trivial,show Ready _ _ by decide,fun _ => trivial,⟨by decide,by decide⟩,
      show Ready _ _ by decide,fun _ => trivial,fun _ => trivial,trivial⟩
  have spared : ∀ e ∈ pairRun, e.Spares 0 := by
    simp [pairRun,Event.Spares,Command.timer]
  obtain ⟨length,counts⟩ := timer_goes_off_on_time [] 0 allowed spared
  refine List.ext_getElem (by rw [List.length_map]; exact length) fun k known known' => ?_
  rw [List.length_map] at known
  rw [List.getElem_map]
  refine (counts k known).trans ?_
  have few : k < 4 := known'
  interval_cases k <;> rfl

end Ucm108e.TimerList
