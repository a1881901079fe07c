import Mathlib
import Ucm108e.Scheduling

/-!
What the scheduler keeps. A thread hangs in the ready table exactly when it is ready, in the
list of its priority, and the group has the bits of the lists that are not empty. A thread that
waits for an object or for its timer is suspended, and the only one that may be running is the
current one.
-/
namespace Ucm108e.Scheduling
open Ucm108e.Bytes Ucm108e.Queues Ucm108e.TimerList
set_option linter.unusedSimpArgs false

/-! ### The lowest bit -/

theorem bitmap_lowest : ∀ n < 256, n ≠ 0 → __lowest_bit_bitmap[n]?.getD 0 < 8
    ∧ n.testBit (__lowest_bit_bitmap[n]?.getD 0) = true
    ∧ ∀ q < __lowest_bit_bitmap[n]?.getD 0, n.testBit q = false := by
  decide +kernel

def byteAt (value : BitVec 32) (i : Nat) : Nat := (value.toNat >>> (8*i)) % 256

section
variable {value mask : BitVec 32} {i q : Nat}

theorem testBit_byteAt (value : BitVec 32) (i : Nat) {j : Nat} (inside : j < 8) :
    (byteAt value i).testBit j = value.getLsbD (8*i+j) := by
  have := Nat.testBit_mod_two_pow (value.toNat >>> (8*i)) 8 j
  rw [byteAt,show 256 = 2^8 from rfl,this,Nat.testBit_shiftRight,BitVec.testBit_toNat]
  simp [inside]

theorem byte_masked (value : BitVec 32) :
    (value &&& 0xff).toNat = byteAt value 0 ∧ ((value &&& 0xff00) >>> 8).toNat = byteAt value 1
      ∧ ((value &&& 0xff0000) >>> 16).toNat = byteAt value 2 ∧ ((value &&& 0xff000000) >>> 24).toNat = byteAt value 3 := by
  have low (x : Nat) : x &&& 255 = x % 256 := Nat.and_two_pow_sub_one_eq_mod x 8
  refine ⟨?_,?_,?_,?_⟩ <;>
    simp [byteAt,BitVec.toNat_ushiftRight,Nat.shiftRight_and_distrib,low]

theorem byte_clear (zero : byteAt value i = 0) (low : 8*i ≤ q) (high : q < 8*i+8) : value.getLsbD q = false := by
  have bit := testBit_byteAt value i (show q-8*i < 8 by omega)
  rw [zero,Nat.zero_testBit,Nat.add_sub_cancel' low] at bit
  exact bit.symm

theorem zero_masked (bits : ∀ q < 32, mask.getLsbD q = (8*i ≤ q && q < 8*i+8 : Bool)) :
    value &&& mask = 0 ↔ byteAt value i = 0 := by
  constructor
  · intro zero
    refine Nat.eq_of_testBit_eq fun j => ?_
    rw [Nat.zero_testBit]
    by_cases inside : j < 8
    · rw [testBit_byteAt value i inside]
      by_cases word : 8*i+j < 32
      · have bit := congrArg (BitVec.getLsbD · (8*i+j)) zero
        simpa [bits _ word,inside] using bit
      · exact BitVec.getLsbD_of_ge value _ (by omega)
    · refine Nat.testBit_lt_two_pow (Nat.lt_of_lt_of_le (Nat.mod_lt _ (by decide)) ?_)
      exact Nat.pow_le_pow_right (n := 2) (by decide) (Nat.le_of_not_lt inside)
  · intro zero
    refine BitVec.eq_of_getLsbD_eq fun q word => ?_
    rw [BitVec.getLsbD_and,bits q word]
    by_cases inside : 8*i ≤ q ∧ q < 8*i+8
    · rw [byte_clear zero inside.1 inside.2]
      simp
    · have out : (8*i ≤ q && q < 8*i+8 : Bool) = false := by simpa using inside
      simp [out]

/-- The bytes below are clear. -/
def ClearBelow (value : BitVec 32) (i : Nat) : Prop := ∀ q < 8*i, value.getLsbD q = false

theorem ClearBelow.next (clear : ClearBelow value i) (zero : byteAt value i = 0) : ClearBelow value (i+1) := by
  intro q below
  by_cases lower : q < 8*i
  · exact clear q lower
  · exact byte_clear zero (by omega) (by omega)

theorem byte_lowest (below : ClearBelow value i) (some : byteAt value i ≠ 0) :
    Lowest value (8*i+__lowest_bit_bitmap[byteAt value i]?.getD 0) := by
  obtain ⟨inside,set,least⟩ := bitmap_lowest (byteAt value i) (Nat.mod_lt _ (by decide)) some
  generalize __lowest_bit_bitmap[byteAt value i]?.getD 0 = j at *
  refine ⟨by rw [← testBit_byteAt value i inside,set],fun q lower => ?_⟩
  by_cases early : q < 8*i
  · exact below q early
  · have := least (q-8*i) (by omega)
    rwa [testBit_byteAt value i (by omega),Nat.add_sub_cancel' (by omega)] at this

/-- `__rt_ffs` leads to the lowest bit. -/
theorem ffs_lowest (some : value ≠ 0) : Lowest value (__rt_ffs value-1) := by
  obtain ⟨first,second,third,fourth⟩ := byte_masked value
  have low : value &&& 0xff = 0 ↔ byteAt value 0 = 0 := zero_masked (by decide)
  have mid : value &&& 0xff00 = 0 ↔ byteAt value 1 = 0 := zero_masked (by decide)
  have high : value &&& 0xff0000 = 0 ↔ byteAt value 2 = 0 := zero_masked (by decide)
  simp only [__rt_ffs,lowestBit,first,second,third,fourth,ne_eq,low,mid,high,some,if_false]
  have clear : ClearBelow value 0 := fun q below => by omega
  by_cases zero : byteAt value 0 = 0
  · rw [if_neg (not_not.mpr zero)]
    replace clear := clear.next zero
    by_cases zero : byteAt value 1 = 0
    · rw [if_neg (not_not.mpr zero)]
      replace clear := clear.next zero
      by_cases zero : byteAt value 2 = 0
      · rw [if_neg (not_not.mpr zero)]
        replace clear := clear.next zero
        have last : byteAt value 3 ≠ 0 := fun zero =>
          some (BitVec.eq_of_getLsbD_eq fun q word => by simpa using clear.next zero q (by omega))
        simpa [Nat.add_comm] using byte_lowest clear last
      · rw [if_pos zero]
        simpa [Nat.add_comm] using byte_lowest clear zero
    · rw [if_pos zero]
      simpa [Nat.add_comm] using byte_lowest clear zero
  · rw [if_pos zero]
    simpa [Nat.add_comm] using byte_lowest clear zero
end

/-! ### The lists -/

/-- A thread that has been started and has not ended. -/
def Alive (r : Thread) : Prop := r.stat ≠ .init ∧ r.stat ≠ .close

structure Base (k : Kernel) : Prop where
  nodup : ∀ p, (k.rt_thread_priority_table p).Nodup
  ready : ∀ t p, t ∈ k.rt_thread_priority_table p ↔ (k.thread t).stat = .ready ∧ (k.thread t).current_priority = p
  marks : Marks k.rt_thread_ready_priority_group k.rt_thread_priority_table
  masks : ∀ t, Alive (k.thread t) → (k.thread t).number_mask = BitVec.twoPow 32 (k.thread t).current_priority
  waits : ∀ o, ∀ t ∈ k.suspend_thread o, (k.thread t).stat = .suspend
  single : ∀ o, (k.suspend_thread o).Nodup
  apart : ∀ o o' t, t ∈ k.suspend_thread o → t ∈ k.suspend_thread o' → o = o'
  listed : Listed k.timers
  sleeping : ∀ t ∈ k.timers.rt_timer_list, (k.thread t).stat = .suspend
  oneshot : ∀ t, (k.timers.timer t).periodic = false

/-- The thread that runs is the current one, which hangs in no list of the table. -/
structure Sound (k : Kernel) : Prop extends Base k where
  running : ∀ t, (k.thread t).stat = .running → k.rt_current_thread = some t
  current : ∀ t, k.rt_current_thread = some t → (k.thread t).stat ≠ .ready ∧ (k.thread t).stat ≠ .init

section
variable {k : Kernel} {t u : Id} {f : Thread → Thread}

theorem set_thread_self : (k.set t f).thread t = f (k.thread t) := Function.update_self ..
theorem set_thread_other (other : u ≠ t) : (k.set t f).thread u = k.thread u := Function.update_of_ne other ..

theorem mem_filter_ne {l : List Id} : u ∈ l.filter (· ≠ t) ↔ u ∈ l ∧ u ≠ t := by
  simp

theorem filter_ne_self {l : List Id} (out : t ∉ l) : l.filter (· ≠ t) = l :=
  List.filter_eq_self.mpr fun u member => by
    simpa using fun own : u = t => out (own ▸ member)

/-- A thread leaves its list, for a state other than ready. -/
theorem Base.out (base : Base k) (started : Alive (k.thread t)) (away : (f (k.thread t)).stat ≠ .ready)
    (mask : (f (k.thread t)).number_mask = BitVec.twoPow 32 (f (k.thread t)).current_priority)
    (timer : t ∈ k.timers.rt_timer_list → (f (k.thread t)).stat = .suspend) :
    Base ((rt_schedule_remove_thread k t).set t f) := by
  have self : ((rt_schedule_remove_thread k t).set t f).thread t = f (k.thread t) := set_thread_self
  have others : ∀ u, u ≠ t → ((rt_schedule_remove_thread k t).set t f).thread u = k.thread u := fun u => set_thread_other
  refine ⟨fun p => (base.nodup p).filter _,fun u p => ?_,?_,fun u => ?_,fun o u member => ?_,fun o => (base.single o).filter _,
    fun o o' u first second => ?_,base.listed,fun u member => ?_,base.oneshot⟩
  · change u ∈ (k.rt_thread_priority_table p).filter (· ≠ t) ↔ _
    rw [mem_filter_ne]
    by_cases own : u = t
    · rw [own,self]
      exact iff_of_false (fun h => h.2 rfl) (fun h => away h.1)
    · rw [others u own,base.ready]
      exact and_iff_left own
  · have dropped := base.marks.drop (p := (k.thread t).current_priority)
      (fun p => (k.rt_thread_priority_table p).filter (· ≠ t)) ?_ ?_
    · rw [← base.masks t started] at dropped
      exact dropped
    · intro q other
      refine filter_ne_self fun member => other ((base.ready t q).mp member).2.symm
    · intro filled empty
      rw [empty] at filled
      exact filled rfl
  · by_cases own : u = t
    · rw [own,self]
      exact fun _ => mask
    · rw [others u own]
      exact base.masks u
  · obtain ⟨old,other⟩ := mem_filter_ne.mp member
    rw [others u other]
    exact base.waits o u old
  · exact base.apart o o' u (mem_filter_ne.mp first).1 (mem_filter_ne.mp second).1
  · by_cases own : u = t
    · subst own
      rw [self]
      exact timer member
    · rw [others u own]
      exact base.sleeping u member

/-- A thread becomes ready, or runs on if it is the current one. -/
theorem Base.insert (base : Base k) (started : Alive (k.thread t)) (away : (k.thread t).stat ≠ .ready)
    (free : ∀ o, t ∉ k.suspend_thread o) (still : t ∉ k.timers.rt_timer_list) : Base (rt_schedule_insert_thread k t) := by
  have waits (stat : Stat) : ∀ o, ∀ u ∈ k.suspend_thread o, ((k.setStat t stat).thread u).stat = .suspend := fun o u member => by
    have other : u ≠ t := fun own => free o (own ▸ member)
    rw [Kernel.setStat,set_thread_other other]
    exact base.waits o u member
  have sleeping (stat : Stat) : ∀ u ∈ k.timers.rt_timer_list, ((k.setStat t stat).thread u).stat = .suspend := fun u member => by
    have other : u ≠ t := fun own => still (own ▸ member)
    rw [Kernel.setStat,set_thread_other other]
    exact base.sleeping u member
  have masks (stat : Stat) : ∀ u, Alive ((k.setStat t stat).thread u) →
      ((k.setStat t stat).thread u).number_mask = BitVec.twoPow 32 ((k.setStat t stat).thread u).current_priority := fun u => by
    by_cases own : u = t
    · rw [own,Kernel.setStat,set_thread_self]
      exact fun _ => base.masks t started
    · rw [Kernel.setStat,set_thread_other own]
      exact base.masks u
  have self (stat : Stat) : (k.setStat t stat).thread t = { k.thread t with stat := stat } := set_thread_self
  unfold rt_schedule_insert_thread
  split
  next current =>
    refine ⟨base.nodup,fun u p => ?_,base.marks,masks _,waits _,base.single,base.apart,base.listed,sleeping _,base.oneshot⟩
    change u ∈ k.rt_thread_priority_table p ↔ _
    rw [base.ready]
    by_cases own : u = t
    · rw [own,self]
      exact iff_of_false (fun h => away h.1) (fun h => by cases h.1)
    · rw [Kernel.setStat,set_thread_other own]
  next other =>
    have fresh : ∀ p, t ∉ k.rt_thread_priority_table p := fun p member => away ((base.ready t p).mp member).1
    refine ⟨fun p => ?_,fun u p => ?_,?_,masks _,waits _,base.single,base.apart,base.listed,sleeping _,base.oneshot⟩
    · by_cases own : p = (k.thread t).current_priority
      · subst own
        simp only [self,Function.update_self]
        exact List.nodup_append.mpr ⟨base.nodup _,List.nodup_singleton t,fun u member w single => by
          rw [List.mem_singleton.mp single]
          exact fun same => fresh _ (same ▸ member)⟩
      · simp only [self,Function.update_of_ne own]
        exact base.nodup p
    · by_cases own : u = t
      · subst own
        simp only [self,true_and]
        by_cases level : p = (k.thread u).current_priority
        · subst level
          simp
        · rw [Function.update_of_ne level]
          exact iff_of_false (fresh p) (Ne.symm level)
      · have stat : (k.setStat t .ready).thread u = k.thread u := set_thread_other own
        simp only [self,stat]
        by_cases level : p = (k.thread t).current_priority
        · subst level
          rw [Function.update_self,List.mem_append,List.mem_singleton,or_iff_left own]
          exact base.ready u _
        · rw [Function.update_of_ne level]
          exact base.ready u p
    · simp only [self]
      rw [base.masks t started]
      exact base.marks.push _ t

/-- Nothing that the lists depend on changes. -/
theorem Base.of_same {k' : Kernel} (base : Base k) (table : k'.rt_thread_priority_table = k.rt_thread_priority_table)
    (group : k'.rt_thread_ready_priority_group = k.rt_thread_ready_priority_group)
    (lists : k'.suspend_thread = k.suspend_thread)
    (thread : ∀ t, (k'.thread t).stat = (k.thread t).stat ∧ (k'.thread t).current_priority = (k.thread t).current_priority
      ∧ (k'.thread t).number_mask = (k.thread t).number_mask)
    (listed : Listed k'.timers) (sleeping : ∀ t ∈ k'.timers.rt_timer_list, (k.thread t).stat = .suspend)
    (oneshot : ∀ t, (k'.timers.timer t).periodic = false) : Base k' := by
  refine ⟨?_,fun u p => ?_,?_,fun u => ?_,fun o u member => ?_,?_,?_,listed,fun u member => ?_,oneshot⟩
  · rw [table]
    exact base.nodup
  · rw [table,(thread u).1,(thread u).2.1]
    exact base.ready u p
  · rw [table,group]
    exact base.marks
  · rw [Alive,(thread u).1,(thread u).2.1,(thread u).2.2]
    exact base.masks u
  · rw [lists] at member
    rw [(thread u).1]
    exact base.waits o u member
  · rw [lists]
    exact base.single
  · rw [lists]
    exact base.apart
  · rw [(thread u).1]
    exact sleeping u member

theorem Base.set (base : Base k) (stat : (f (k.thread t)).stat = (k.thread t).stat)
    (priority : (f (k.thread t)).current_priority = (k.thread t).current_priority)
    (mask : (f (k.thread t)).number_mask = (k.thread t).number_mask) : Base (k.set t f) := by
  refine base.of_same rfl rfl rfl (fun u => ?_) base.listed base.sleeping base.oneshot
  by_cases own : u = t
  · rw [own,set_thread_self]
    exact ⟨stat,priority,mask⟩
  · rw [set_thread_other own]
    exact ⟨rfl,rfl,rfl⟩

end

/-! ### The scheduler -/

/-- All but the threads and the ready table stay as they are. -/
structure Quiet (k k' : Kernel) : Prop where
  suspend_thread : k'.suspend_thread = k.suspend_thread
  timers : k'.timers = k.timers
  value : k'.value = k.value
  mutex : k'.mutex = k.mutex
  flag : k'.flag = k.flag
  lock : k'.rt_scheduler_lock_nest = k.rt_scheduler_lock_nest

theorem Quiet.refl (k : Kernel) : Quiet k k := ⟨rfl,rfl,rfl,rfl,rfl,rfl⟩

theorem Quiet.trans {k k' k'' : Kernel} (first : Quiet k k') (second : Quiet k' k'') : Quiet k k'' :=
  ⟨second.suspend_thread.trans first.suspend_thread,second.timers.trans first.timers,second.value.trans first.value,
    second.mutex.trans first.mutex,second.flag.trans first.flag,second.lock.trans first.lock⟩

def Runnable (r : Thread) : Prop := r.stat = .ready ∨ r.stat = .running

/-- A thread after the scheduler: at most it has changed from ready to running, or back. -/
structure Kept (r r' : Thread) : Prop where
  priority : r'.current_priority = r.current_priority
  first : r'.init_priority = r.init_priority
  mask : r'.number_mask = r.number_mask
  slice : r'.init_tick = r.init_tick ∧ r'.remaining_tick = r.remaining_tick
  error : r'.error = r.error
  stat : r'.stat = r.stat ∨ Runnable r ∧ Runnable r'

theorem Kept.refl (r : Thread) : Kept r r := ⟨rfl,rfl,rfl,⟨rfl,rfl⟩,rfl,.inl rfl⟩

/-- The thread that runs, when no ready one has a higher priority. -/
def Top (k : Kernel) : Prop := ∃ c, k.rt_current_thread = some c ∧ (k.thread c).stat = .running
  ∧ ∀ t, (k.thread t).stat = .ready → (k.thread c).current_priority ≤ (k.thread t).current_priority

section
variable {k : Kernel} {t u c : Id}

theorem insert_thread : (rt_schedule_insert_thread k t).thread
    = (k.setStat t (if k.rt_current_thread = some t then .running else .ready)).thread := by
  unfold rt_schedule_insert_thread
  split <;> rfl

theorem insert_quiet (k : Kernel) (t : Id) : Quiet k (rt_schedule_insert_thread k t)
    ∧ (rt_schedule_insert_thread k t).rt_current_thread = k.rt_current_thread := by
  unfold rt_schedule_insert_thread
  split <;> exact ⟨⟨rfl,rfl,rfl,rfl,rfl,rfl⟩,rfl⟩

theorem remove_quiet (free : ∀ o, t ∉ k.suspend_thread o) : Quiet k (rt_schedule_remove_thread k t) :=
  ⟨funext fun o => filter_ne_self (free o),rfl,rfl,rfl,rfl,rfl⟩

theorem Base.free (base : Base k) (other : (k.thread t).stat ≠ .suspend) : ∀ o, t ∉ k.suspend_thread o :=
  fun o member => other (base.waits o t member)

theorem Base.still (base : Base k) (other : (k.thread t).stat ≠ .suspend) : t ∉ k.timers.rt_timer_list :=
  fun member => other (base.sleeping t member)

/-- The first ready thread of the highest priority. -/
theorem highest_spec (base : Base k) (some_ready : k.rt_thread_ready_priority_group ≠ 0) :
    ∃ p t, _get_highest_priority_thread k = some (p,t) ∧ (k.thread t).stat = .ready ∧ (k.thread t).current_priority = p
      ∧ ∀ u, (k.thread u).stat = .ready → p ≤ (k.thread u).current_priority := by
  have lowest := ffs_lowest some_ready
  have inside : __rt_ffs k.rt_thread_ready_priority_group-1 < 32 := by
    by_contra outside
    have := lowest.set
    rw [BitVec.getLsbD_of_ge _ _ (by omega)] at this
    cases this
  have number : ((Fin.ofNat 32 (__rt_ffs k.rt_thread_ready_priority_group-1) : Priority) : Nat)
      = __rt_ffs k.rt_thread_ready_priority_group-1 := Nat.mod_eq_of_lt inside
  rw [← number] at lowest
  unfold _get_highest_priority_thread
  generalize (Fin.ofNat 32 (__rt_ffs k.rt_thread_ready_priority_group-1) : Priority) = p at lowest
  obtain ⟨filled,least⟩ := lowest.level base.marks
  obtain ⟨t,rest,first⟩ := List.exists_cons_of_ne_nil filled
  have member : t ∈ k.rt_thread_priority_table p := by
    rw [first]
    exact List.mem_cons_self
  obtain ⟨ready,priority⟩ := (base.ready t p).mp member
  refine ⟨p,t,by simp only [first]; rfl,ready,priority,fun u ready' => ?_⟩
  exact least _ (List.ne_nil_of_mem ((base.ready u _).mpr ⟨ready',rfl⟩))

/-- The switch to a ready thread. -/
theorem switch_spec (sound : Sound k) (current : k.rt_current_thread = some c) (ready : (k.thread t).stat = .ready) :
    Sound (switchTo k c t ((k.thread c).stat = .running)) ∧ Quiet k (switchTo k c t ((k.thread c).stat = .running))
      ∧ (switchTo k c t ((k.thread c).stat = .running)).rt_current_thread = some t
      ∧ ∀ u, (switchTo k c t ((k.thread c).stat = .running)).thread u
          = { k.thread u with stat := if u = t then .running
              else if u = c ∧ (k.thread c).stat = .running then .ready else (k.thread u).stat } := by
  have other : c ≠ t := fun same => (sound.current c current).1 (same ▸ ready)
  let k' : Kernel := { k with rt_current_thread := some t }
  have base : Base k' := sound.toBase.of_same rfl rfl rfl (fun _ => ⟨rfl,rfl,rfl⟩) sound.listed sound.sleeping sound.oneshot
  let k'' : Kernel := if (k.thread c).stat = .running then rt_schedule_insert_thread k' c else k'
  have middle : Base k'' ∧ Quiet k k'' ∧ ∀ u, k''.thread u
      = { k.thread u with stat := if u = c ∧ (k.thread c).stat = .running then .ready else (k.thread u).stat } := by
    by_cases run : (k.thread c).stat = .running
    · have same : k'' = rt_schedule_insert_thread k' c := if_pos run
      have inserted : Base (rt_schedule_insert_thread k' c) := by
        apply base.insert
        · change Alive (k.thread c)
          simp [Alive,run]
        · rw [run]
          decide
        · apply base.free
          rw [run]
          decide
        · apply base.still
          rw [run]
          decide
      rw [same]
      refine ⟨inserted,(show Quiet k k' from ⟨rfl,rfl,rfl,rfl,rfl,rfl⟩).trans (insert_quiet k' c).1,fun u => ?_⟩
      have away : ¬ k'.rt_current_thread = some c := fun same => other (Option.some_inj.mp same).symm
      rw [insert_thread,if_neg away]
      by_cases own : u = c
      · rw [own,Kernel.setStat,set_thread_self,if_pos ⟨rfl,run⟩]
      · rw [Kernel.setStat,set_thread_other own,if_neg fun both => own both.1]
    · have same : k'' = k' := if_neg run
      rw [same]
      exact ⟨base,⟨rfl,rfl,rfl,rfl,rfl,rfl⟩,fun u => by rw [if_neg fun both => run both.2]⟩
  obtain ⟨base',quiet,threads⟩ := middle
  have target : k''.thread t = k.thread t := by
    rw [threads,if_neg fun both => other both.1.symm]
  have away : (k''.thread t).stat ≠ .suspend := by
    rw [target,ready]
    decide
  have started : Alive (k''.thread t) := by
    rw [target]
    simp [Alive,ready]
  have result : switchTo k c t ((k.thread c).stat = .running) = (rt_schedule_remove_thread k'' t).setStat t .running := by
    simp only [switchTo,decide_eq_true_eq]
    rfl
  have threads' : ∀ u, ((rt_schedule_remove_thread k'' t).setStat t .running).thread u
      = { k.thread u with stat := if u = t then .running
          else if u = c ∧ (k.thread c).stat = .running then .ready else (k.thread u).stat } := fun u => by
    by_cases own : u = t
    · rw [own,if_pos rfl,Kernel.setStat,set_thread_self]
      change { k''.thread t with stat := .running } = _
      rw [target]
    · rw [if_neg own,Kernel.setStat,set_thread_other own]
      exact threads u
  have current' : ((rt_schedule_remove_thread k'' t).setStat t .running).rt_current_thread = some t := by
    change k''.rt_current_thread = some t
    by_cases run : (k.thread c).stat = .running
    · have same : k'' = rt_schedule_insert_thread k' c := if_pos run
      rw [same]
      exact (insert_quiet k' c).2
    · have same : k'' = k' := if_neg run
      rw [same]
  rw [result]
  refine ⟨⟨base'.out ?_ ?_ ?_ ?_,fun u run => ?_,fun u same => ?_⟩,?_,current',threads'⟩
  · exact started
  · exact Stat.noConfusion
  · exact base'.masks t started
  · exact fun member => absurd member (base'.still away)
  · rw [current']
    rw [threads'] at run
    dsimp only at run
    split at run
    next own => rw [own]
    next =>
      split at run
      next => cases run
      next off =>
        have same := sound.running u run
        rw [current] at same
        have own : c = u := Option.some_inj.mp same
        exact absurd ⟨own.symm,own ▸ run⟩ off
  · rw [current'] at same
    rw [← Option.some_inj.mp same,threads',if_pos rfl]
    exact ⟨Stat.noConfusion,Stat.noConfusion⟩
  · exact quiet.trans ((remove_quiet (base'.free away)).trans ⟨rfl,rfl,rfl,rfl,rfl,rfl⟩)

/-- The current thread, if it runs, has had its chance to give way. -/
def cleared (k : Kernel) (c : Id) : Kernel :=
  if (k.thread c).stat = .running then k.set c fun r => { r with yield := false } else k

theorem cleared_thread (k : Kernel) (c u : Id) :
    (cleared k c).thread u
      = { k.thread u with yield := if u = c ∧ (k.thread c).stat = .running then false else (k.thread u).yield } := by
  unfold cleared
  by_cases run : (k.thread c).stat = .running
  · rw [if_pos run]
    by_cases own : u = c
    · rw [own,set_thread_self,if_pos ⟨rfl,run⟩]
    · rw [set_thread_other own,if_neg fun both => own both.1]
  · rw [if_neg run,if_neg fun both => run both.2]

theorem cleared_sound (sound : Sound k) (c : Id) : Sound (cleared k c) ∧ Quiet k (cleared k c)
    ∧ (cleared k c).rt_current_thread = k.rt_current_thread := by
  have same : (cleared k c).rt_current_thread = k.rt_current_thread := by
    unfold cleared
    split <;> rfl
  refine ⟨⟨?_,?_,?_⟩,?_,same⟩
  · unfold cleared
    split
    · exact sound.toBase.set rfl rfl rfl
    · exact sound.toBase
  · intro t run
    rw [cleared_thread] at run
    rw [same]
    exact sound.running t run
  · intro t current
    rw [same] at current
    rw [cleared_thread]
    exact sound.current t current
  · unfold cleared
    split <;> exact ⟨rfl,rfl,rfl,rfl,rfl,rfl⟩

/-- What the scheduler does when it is not locked and there are ready threads. -/
theorem schedule_eq (unlocked : k.rt_scheduler_lock_nest = 0) (some_ready : k.rt_thread_ready_priority_group ≠ 0)
    (current : k.rt_current_thread = some c) {p : Priority} (highest : _get_highest_priority_thread k = some (p,t))
    (other : t ≠ c) : rt_schedule k = if goesOn (k.thread c) p = true then
        (rt_schedule_remove_thread (cleared k c) c).setStat c .running
      else switchTo (cleared k c) c t ((k.thread c).stat = .running) := by
  have idle : ¬ (k.rt_scheduler_lock_nest ≠ 0 ∨ k.rt_thread_ready_priority_group = 0) := by
    rintro (locked | none)
    · exact locked unlocked
    · exact some_ready none
  rw [rt_schedule,if_neg idle,current,highest]
  dsimp only
  change (if (!goesOn (k.thread c) p && t ≠ c : Bool) = true then switchTo (cleared k c) c t ((k.thread c).stat = .running)
    else (rt_schedule_remove_thread (cleared k c) c).setStat c .running) = _
  cases goesOn (k.thread c) p <;> simp [other]

/-- The current thread goes on. -/
theorem stay_spec (sound : Sound k) (current : k.rt_current_thread = some c) (run : (k.thread c).stat = .running) :
    Sound ((rt_schedule_remove_thread k c).setStat c .running) ∧ Quiet k ((rt_schedule_remove_thread k c).setStat c .running)
      ∧ ((rt_schedule_remove_thread k c).setStat c .running).rt_current_thread = some c
      ∧ ((rt_schedule_remove_thread k c).setStat c .running).thread = k.thread := by
  have away : (k.thread c).stat ≠ .suspend := by
    rw [run]
    exact Stat.noConfusion
  have threads : ((rt_schedule_remove_thread k c).setStat c .running).thread = k.thread := by
    funext u
    by_cases own : u = c
    · rw [own,Kernel.setStat,set_thread_self]
      change { k.thread c with stat := .running } = _
      rw [← run]
    · rw [Kernel.setStat,set_thread_other own]
      rfl
  have started : Alive (k.thread c) := by simp [Alive,run]
  refine ⟨⟨sound.toBase.out started Stat.noConfusion (sound.masks c started) ?_,?_,?_⟩,?_,current,threads⟩
  · exact fun member => absurd member (sound.still away)
  · rw [threads]
    exact sound.running
  · rw [threads]
    exact sound.current
  · exact (remove_quiet (sound.free away)).trans ⟨rfl,rfl,rfl,rfl,rfl,rfl⟩

/-- What the scheduler comes to: nothing, the current thread runs on, or another one does. -/
inductive Outcome (k k' : Kernel) : Prop
  | idle (same : k' = k)
      (why : k.rt_scheduler_lock_nest ≠ 0 ∨ (∀ t, (k.thread t).stat ≠ .ready) ∨ k.rt_current_thread = none)
  | stays (c : Id) (current : k.rt_current_thread = some c) (current' : k'.rt_current_thread = some c)
      (run : (k.thread c).stat = .running) (threads : ∀ u, ∃ y, k'.thread u = { k.thread u with yield := y })
      (top : ∀ u, (k.thread u).stat = .ready → (k.thread c).current_priority ≤ (k.thread u).current_priority)
  | switched (c t : Id) (current : k.rt_current_thread = some c) (current' : k'.rt_current_thread = some t)
      (ready : (k.thread t).stat = .ready)
      (threads : ∀ u, ∃ y, k'.thread u = { k.thread u with
        yield := y
        stat := if u = t then .running else if u = c ∧ (k.thread c).stat = .running then .ready else (k.thread u).stat })
      (top : ∀ u, (k.thread u).stat = .ready → (k.thread t).current_priority ≤ (k.thread u).current_priority)
      (lower : (k.thread c).stat = .running → (k.thread t).current_priority ≤ (k.thread c).current_priority)

theorem schedule_outcome (sound : Sound k) : Sound (rt_schedule k) ∧ Quiet k (rt_schedule k) ∧ Outcome k (rt_schedule k) := by
  by_cases unlocked : k.rt_scheduler_lock_nest = 0
  · by_cases some_ready : k.rt_thread_ready_priority_group = 0
    · have nobody : ∀ t, (k.thread t).stat ≠ .ready := fun t ready => by
        have member := (sound.ready t _).mpr ⟨ready,rfl⟩
        rw [sound.marks.eq_zero_iff.mp some_ready] at member
        cases member
      have same : rt_schedule k = k := by rw [rt_schedule,if_pos (.inr some_ready)]
      rw [same]
      exact ⟨sound,.refl k,.idle rfl (.inr (.inl nobody))⟩
    · cases current : k.rt_current_thread with
      | none =>
        have same : rt_schedule k = k := by rw [rt_schedule,if_neg (not_or.mpr ⟨not_not.mpr unlocked,some_ready⟩),current]
        rw [same]
        exact ⟨sound,.refl k,.idle rfl (.inr (.inr current))⟩
      | some c =>
        obtain ⟨p,t,highest,ready,priority,least⟩ := highest_spec sound.toBase some_ready
        have other : t ≠ c := fun own => (sound.current c current).1 (own ▸ ready)
        obtain ⟨sound',quiet,same⟩ := cleared_sound sound c
        have threads := cleared_thread k c
        have stat : ∀ u, ((cleared k c).thread u).stat = (k.thread u).stat := fun u => by rw [threads]
        rw [schedule_eq unlocked some_ready current highest other]
        split
        next on =>
          simp [goesOn] at on
          obtain ⟨run,before⟩ := on
          obtain ⟨sound'',quiet',current',threads'⟩ := stay_spec sound' (same.trans current) ((stat c).trans run)
          have level : (k.thread c).current_priority ≤ p := before.elim le_of_lt fun same => le_of_eq same.1
          refine ⟨sound'',quiet.trans quiet',.stays c current current' run (fun u => ⟨((cleared k c).thread u).yield,?_⟩)
            fun u ready' => le_trans level (least u ready')⟩
          rw [threads',threads]
        next off =>
          have ready' : ((cleared k c).thread t).stat = .ready := (stat t).trans ready
          have switched := switch_spec sound' (same.trans current) ready'
          rw [stat] at switched
          obtain ⟨sound'',quiet',current',threads'⟩ := switched
          refine ⟨sound'',quiet.trans quiet',.switched c t current current' ready
            (fun u => ⟨((cleared k c).thread u).yield,?_⟩)
            (fun u ready' => priority ▸ least u ready') fun run => ?_⟩
          · rw [threads',threads]
          · simp [goesOn,run] at off
            rw [priority]
            exact off.1
  · have same : rt_schedule k = k := by rw [rt_schedule,if_pos (.inl unlocked)]
    rw [same]
    exact ⟨sound,.refl k,.idle rfl (.inl unlocked)⟩

/-- The scheduler takes threads from ready to running and back, and does nothing else. -/
theorem Outcome.kept {k' : Kernel} (outcome : Outcome k k') (u : Id) : Kept (k.thread u) (k'.thread u) := by
  cases outcome with
  | idle same why =>
    rw [same]
    exact .refl _
  | stays c current current' run threads top =>
    obtain ⟨y,thread⟩ := threads u
    rw [thread]
    exact ⟨rfl,rfl,rfl,⟨rfl,rfl⟩,rfl,.inl rfl⟩
  | switched c t current current' ready threads top lower =>
    obtain ⟨y,thread⟩ := threads u
    rw [thread]
    refine ⟨rfl,rfl,rfl,⟨rfl,rfl⟩,rfl,?_⟩
    dsimp only
    split
    next own =>
      subst own
      exact .inr ⟨.inl ready,.inr rfl⟩
    next =>
      split
      next both => exact .inr ⟨.inr (both.1 ▸ both.2),.inl rfl⟩
      next => exact .inl rfl

theorem Outcome.current_none {k' : Kernel} (outcome : Outcome k k') :
    k'.rt_current_thread = none ↔ k.rt_current_thread = none := by
  cases outcome with
  | idle same why => rw [same]
  | stays c current current' run threads top => simp [current,current']
  | switched c t current current' ready threads top lower => simp [current,current']

end

end Ucm108e.Scheduling
