import Mathlib
import Ucm108e.Machine
import Ucm108e.HeapShape
import Ucm108e.NodeHeap

/-!
The system heap as its users see it. An ideal heap is a collection of byte strings at
addresses that lie apart; `mem.c` behaves as one for every sequence of calls in which only
live blocks are written, resized or freed.
-/
namespace Ucm108e.HeapClients
open Ucm108e.Bytes Ucm108e.Tiling Ucm108e.SmallMem Ucm108e.HeapShape Ucm108e.Machine
set_option linter.unusedSimpArgs false

/-- What a user does: the four functions of `mem.c`, and a copy into a block. -/
inductive Call where
  | malloc (size : Nat)
  | calloc (count size : Nat)
  | realloc (rmem newsize : Nat)
  | free (rmem : Nat)
  | write (rmem at_ : Nat) (bytes : List UInt8)

/-! ### The ideal heap -/

/-- The live blocks with their contents. -/
abbrev Store := Nat → Option (List UInt8)

def nothing : Store := fun _ => none

/-- The address `a` has room for `n` bytes between `lo` and `hi`, apart from every live block. -/
structure Fresh (lo hi : Nat) (v : Store) (a n : Nat) : Prop where
  aligned : 4 ∣ a
  inside : lo ≤ a ∧ a+n ≤ hi
  unused : v a = none
  apart : ∀ b bytes, v b = some bytes → a+n ≤ b ∨ b+bytes.length ≤ a

/-- The bytes of a string from `at_` on are replaced. -/
def splice (old : List UInt8) (at_ : Nat) (bytes : List UInt8) : List UInt8 :=
  old.take at_ ++ bytes ++ old.drop (at_+bytes.length)

/-- What an ideal heap may answer to a call, and what is live then. A request may always be
    refused. -/
inductive Ideal (lo hi : Nat) : Store → Call → Nat → Store → Prop
  | malloc_refused (v : Store) (size : Nat) : Ideal lo hi v (.malloc size) RT_NULL v
  | malloc (v : Store) (a : Nat) (bytes : List UInt8) : Fresh lo hi v a bytes.length →
      Ideal lo hi v (.malloc bytes.length) a (Function.update v a (some bytes))
  | calloc_refused (v : Store) (count size : Nat) : Ideal lo hi v (.calloc count size) RT_NULL v
  | calloc (v : Store) (a count size : Nat) : Fresh lo hi v a (count*size) →
      Ideal lo hi v (.calloc count size) a (Function.update v a (some (List.replicate (count*size) 0)))
  | free_null (v : Store) : Ideal lo hi v (.free RT_NULL) RT_NULL v
  | free (v : Store) (a : Nat) (old : List UInt8) : v a = some old →
      Ideal lo hi v (.free a) RT_NULL (Function.update v a none)
  | write (v : Store) (a at_ : Nat) (bytes old : List UInt8) : v a = some old → at_+bytes.length ≤ old.length →
      Ideal lo hi v (.write a at_ bytes) RT_NULL (Function.update v a (some (splice old at_ bytes)))
  | realloc_nothing (v : Store) : Ideal lo hi v (.realloc RT_NULL 0) RT_NULL v
  | realloc_free (v : Store) (a : Nat) (old : List UInt8) : v a = some old →
      Ideal lo hi v (.realloc a 0) RT_NULL (Function.update v a none)
  | realloc_refused (v : Store) (a newsize : Nat) : 0 < newsize → Ideal lo hi v (.realloc a newsize) RT_NULL v
  | realloc_new (v : Store) (a : Nat) (bytes : List UInt8) : 0 < bytes.length → Fresh lo hi v a bytes.length →
      Ideal lo hi v (.realloc RT_NULL bytes.length) a (Function.update v a (some bytes))
  | realloc (v : Store) (a b : Nat) (old bytes : List UInt8) : v a = some old → 0 < bytes.length →
      Fresh lo hi (Function.update v a none) b bytes.length →
      bytes.take old.length = old.take bytes.length →
      Ideal lo hi v (.realloc a bytes.length) b (Function.update (Function.update v a none) b (some bytes))

/-! ### `mem.c` under calls -/

/-- A call on the heap, with what it returns; a copy returns nothing. -/
def exec (s : Heap) : Call → Option (Heap × Nat)
  | .malloc size => rt_malloc (top s) s size
  | .calloc count size => rt_calloc (top s) s count size
  | .realloc rmem newsize => rt_realloc (top s) s rmem newsize
  | .free rmem => some ((rt_free s rmem).1,RT_NULL)
  | .write rmem at_ bytes => some ({ s with mem := store s.mem (rmem+at_) bytes },RT_NULL)

/-- What the user holds after a call: the blocks with what lies in them. -/
def note (v : Store) (c : Call) (ret : Nat) (m : Mem) : Store :=
  match c with
  | .malloc size => if ret = RT_NULL then v else Function.update v ret (some (window m ret size))
  | .calloc count size => if ret = RT_NULL then v else Function.update v ret (some (window m ret (count*size)))
  | .realloc rmem newsize =>
    if newsize = 0 then Function.update v rmem none
    else if ret = RT_NULL then v
    else Function.update (Function.update v rmem none) ret (some (window m ret newsize))
  | .free rmem => Function.update v rmem none
  | .write rmem _ _ => Function.update v rmem ((v rmem).map fun old => window m rmem old.length)

/-- The heap with its user. -/
def step : Heap × Store → Call → (Heap × Store) × Option Nat
  | (s,v), c =>
    match exec s c with
    | none => ((s,v),none)
    | some (s',ret) => ((s',note v c ret s'.mem),some ret)

/-- The rules for a user. Sizes above `0xfffffffc` are out, as `RT_ALIGN` makes them 0. -/
def Allowed (v : Store) : Call → Prop
  | .malloc size => size ≤ 0xfffffffc
  | .calloc count size => count*size ≤ 0xfffffffc
  | .realloc rmem newsize => newsize ≤ 0xfffffffc ∧ (rmem = RT_NULL ∨ (v rmem).isSome)
  | .free rmem => rmem = RT_NULL ∨ (v rmem).isSome
  | .write rmem at_ bytes => (v rmem).isSome ∧ at_+bytes.length ≤ ((v rmem).getD []).length

instance decidableAllowed (v : Store) : ∀ c, Decidable (Allowed v c)
  | .malloc size => inferInstanceAs (Decidable (size ≤ 0xfffffffc))
  | .calloc count size => inferInstanceAs (Decidable (count*size ≤ 0xfffffffc))
  | .realloc rmem newsize => inferInstanceAs (Decidable (newsize ≤ 0xfffffffc ∧ (rmem = RT_NULL ∨ (v rmem).isSome)))
  | .free rmem => inferInstanceAs (Decidable (rmem = RT_NULL ∨ (v rmem).isSome))
  | .write rmem at_ bytes =>
    inferInstanceAs (Decidable ((v rmem).isSome ∧ at_+bytes.length ≤ ((v rmem).getD []).length))

/-- The blocks of the heap are those of the user, with their contents. -/
structure Represents (s : Heap) (bs : List Block) (v : Store) : Prop where
  tiled : Tiled s bs
  live : ∀ a old, v a = some old → ∃ q k, (q,k) ∈ taken 0 bs ∧ a = s.heap_ptr+q+12 ∧ old.length+12 ≤ k
    ∧ window s.mem a old.length = old
  owned : ∀ q k, (q,k) ∈ taken 0 bs → ∃ old, v (s.heap_ptr+q+12) = some old

/-- A header never lies in the data of a used block. -/
theorem keeps_data {s s' : Heap} {bs : List Block} (keeps : Keeps s s' bs) (roomy : Roomy 12 bs)
    (covers : s.heap_ptr+extent bs = s.heap_end) {q k : Nat} (used : (q,k) ∈ taken 0 bs) {a n : Nat}
    (start : a = s.heap_ptr+q+12) (inside : n+12 ≤ k) : window s'.mem a n = window s.mem a n := by
  obtain ⟨-,-,last⟩ := taken_room roomy used
  refine window_congr fun i small => keeps (a+i) (fun r header => ?_) (by omega)
  have := taken_clear roomy used header
  omega

section
variable {s s' : Heap} {bs bs' : List Block} {v : Store} {q k : Nat}

/-- One block changes hands or contents. -/
theorem Represents.change (rep : Represents s bs v) (tiled : Tiled s' bs') (ptr : s'.heap_ptr = s.heap_ptr)
    (others : ∀ r j, r ≠ q → ((r,j) ∈ taken 0 bs' ↔ (r,j) ∈ taken 0 bs))
    (kept : ∀ r j n, r ≠ q → (r,j) ∈ taken 0 bs' → n+12 ≤ j →
      window s'.mem (s.heap_ptr+r+12) n = window s.mem (s.heap_ptr+r+12) n)
    {contents : Option (List UInt8)} (gone : contents = none → ∀ j, (q,j) ∉ taken 0 bs')
    (there : ∀ bytes, contents = some bytes → ∃ k, (q,k) ∈ taken 0 bs' ∧ bytes.length+12 ≤ k
      ∧ window s'.mem (s.heap_ptr+q+12) bytes.length = bytes) :
    Represents s' bs' (Function.update v (s.heap_ptr+q+12) contents) := by
  refine ⟨tiled,fun a bytes found => ?_,fun r j used => ?_⟩
  · rw [ptr]
    by_cases own : a = s.heap_ptr+q+12
    · subst own
      rw [Function.update_self] at found
      obtain ⟨k,used,room,same⟩ := there bytes found
      exact ⟨q,k,used,rfl,room,same⟩
    · rw [Function.update_of_ne own] at found
      obtain ⟨r,j,used,rfl,room,same⟩ := rep.live a bytes found
      have other : r ≠ q := by omega
      have used' := (others r j other).mpr used
      exact ⟨r,j,used',rfl,room,(kept r j _ other used' room).trans same⟩
  · rw [ptr]
    by_cases own : r = q
    · subst own
      cases contents with
      | none => exact absurd used (gone rfl j)
      | some bytes => exact ⟨bytes,Function.update_self ..⟩
    · rw [Function.update_of_ne (by omega)]
      exact rep.owned r j ((others r j own).mp used)

theorem taken_unique {p q j : Nat} {before behind : List (Nat × Nat)} (roomy : Roomy 12 bs)
    (split : taken p bs = before ++ (q,k) :: behind) (used : (q,j) ∈ taken p bs) : (q,j) ∉ before ++ behind := by
  have order := taken_pairwise p bs
  have wide := (taken_room roomy used).1
  have own : (q,k) ∈ taken p bs := by rw [split]; simp
  have := (taken_room roomy own).1
  rw [split,List.pairwise_append,List.pairwise_cons] at order
  intro other
  rcases List.mem_append.mp other with lower | higher
  · have := order.2.2 _ lower _ (List.mem_cons_self ..)
    dsimp only at this
    omega
  · have := order.2.1.1 _ higher
    dsimp only at this
    omega

theorem covers_end (rep : Represents s bs v) : s.heap_ptr+extent bs = s.heap_end := by
  rw [rep.tiled.covers,rep.tiled.at_end]

/-- The user has one more block, of at most its size. -/
theorem Represents.claim (rep : Represents s bs v) (claimed : Claimed s s' bs bs' q k) {n : Nat} (inside : n+12 ≤ k) :
    Represents s' bs' (Function.update v (s.heap_ptr+q+12) (some (window s'.mem (s.heap_ptr+q+12) n))) := by
  obtain ⟨before,behind,old,new⟩ := claimed.claimed
  have covers : s.heap_ptr+extent bs' = s.heap_end := by
    rw [claimed.tiled.covers,top,claimed.size,rep.tiled.at_end,top]
  refine rep.change claimed.tiled claimed.ptr (fun r j other => ?_) (fun r j m other used room => ?_) (by simp) ?_
  · have : (r,j) ≠ (q,k) := fun both => other (Prod.mk.inj both).1
    rw [old,new]
    simp only [List.mem_append,List.mem_cons]
    tauto
  · exact keeps_data claimed.keeps claimed.tiled.roomy covers used rfl room
  · rintro bytes ⟨⟩
    exact ⟨k,by rw [new]; simp,by simpa using inside,by rw [window_length]⟩

/-- A used block is apart from the user's other blocks. -/
theorem Represents.place (rep : Represents s bs v) (used : (q,k) ∈ taken 0 bs) {n : Nat} (inside : n+12 ≤ k) :
    Fresh s.heap_ptr s.heap_end (Function.update v (s.heap_ptr+q+12) none) (s.heap_ptr+q+12) n := by
  have roomy := rep.tiled.roomy
  refine ⟨?_,?_,Function.update_self ..,fun b bytes found => ?_⟩
  · obtain ⟨pre,post,rfl,rfl⟩ := taken_middle used
    have whole : 4 ∣ extent pre := dvd_extent fun b member => (rep.tiled.sizes b (List.mem_append_left _ member)).1
    have := rep.tiled.aligned
    omega
  · have := (taken_room roomy used).2.2
    have := covers_end rep
    omega
  · by_cases own : b = s.heap_ptr+q+12
    · rw [own,Function.update_self] at found
      cases found
    · rw [Function.update_of_ne own] at found
      obtain ⟨r,j,used',rfl,room,-⟩ := rep.live b bytes found
      have := taken_clear roomy used (taken_start used')
      have := taken_clear roomy used' (taken_start used)
      omega

/-- The place that `rt_malloc` has found. -/
theorem Represents.fresh (rep : Represents s bs v) (claimed : Claimed s s' bs bs' q k) {n : Nat} (inside : n+12 ≤ k) :
    Fresh s.heap_ptr s.heap_end v (s.heap_ptr+q+12) n := by
  have unused : v (s.heap_ptr+q+12) = none := by
    cases found : v (s.heap_ptr+q+12) with
    | none => rfl
    | some old =>
      obtain ⟨before,behind,old,new⟩ := claimed.claimed
      obtain ⟨r,j,used,place,-⟩ := rep.live _ _ found
      obtain rfl : q = r := by omega
      refine absurd (old ▸ used) (taken_unique claimed.tiled.roomy new ?_)
      rw [old,List.mem_append] at used
      rw [new,List.mem_append,List.mem_cons]
      tauto
  have fresh := (rep.claim claimed inside).place claimed.member inside
  rw [claimed.ptr,claimed.last,Function.update_idem,← unused,Function.update_eq_self] at fresh
  exact fresh

/-- The user has given a block back. -/
theorem Represents.release (rep : Represents s bs v) (released : Released s s' bs bs' q k) :
    Represents s' bs' (Function.update v (s.heap_ptr+q+12) none) := by
  obtain ⟨before,behind,old,new⟩ := released.released
  have fewer : ∀ r j, (r,j) ∈ taken 0 bs' → (r,j) ∈ taken 0 bs := fun r j used => by
    rw [new,List.mem_append] at used
    rw [old,List.mem_append,List.mem_cons]
    tauto
  refine rep.change released.tiled released.ptr (fun r j other => ⟨fewer r j,fun used => ?_⟩)
    (fun r j m other used room => ?_) (fun _ j used => ?_) (by simp)
  · have : (r,j) ≠ (q,k) := fun both => other (Prod.mk.inj both).1
    rw [old,List.mem_append,List.mem_cons] at used
    rw [new,List.mem_append]
    tauto
  · exact keeps_data released.keeps rep.tiled.roomy (covers_end rep) (fewer r j used) rfl room
  · exact taken_unique rep.tiled.roomy old (fewer q j used) (new ▸ used)

/-- The user has given the end of a block back. -/
theorem Represents.shrink {k' : Nat} (rep : Represents s bs v) (shrunk : Shrunk s s' bs bs' q k k') {n : Nat}
    (inside : n+12 ≤ k') :
    Represents s' bs' (Function.update v (s.heap_ptr+q+12) (some (window s.mem (s.heap_ptr+q+12) n))) := by
  obtain ⟨before,behind,old,new⟩ := shrunk.shrunk
  obtain ⟨fine,keeps,roomy,covers,same⟩ := shrunk.keeps
  have data {r j m : Nat} (used : (r,j) ∈ taken 0 bs') (room : m+12 ≤ j) :
      window s'.mem (s.heap_ptr+r+12) m = window s.mem (s.heap_ptr+r+12) m :=
    keeps_data keeps roomy (by rw [covers,rep.tiled.at_end]) (same ▸ used) rfl room
  refine rep.change shrunk.tiled shrunk.ptr (fun r j other => ?_) (fun r j m other used room => data used room) (by simp) ?_
  · have : (r,j) ≠ (q,k) := fun both => other (Prod.mk.inj both).1
    have : (r,j) ≠ (q,k') := fun both => other (Prod.mk.inj both).1
    rw [old,new]
    simp only [List.mem_append,List.mem_cons]
    tauto
  · rintro bytes ⟨⟩
    have own : (q,k') ∈ taken 0 bs' := by rw [new]; simp
    exact ⟨k',own,by simpa using inside,by rw [window_length,data own inside]⟩

/-- Data of a used block may be written. -/
theorem Represents.write (rep : Represents s bs v) (used : (q,k) ∈ taken 0 bs) (at_ : Nat) (bytes : List UInt8) {a n : Nat}
    (place : a = s.heap_ptr+q+12) (room : n+12 ≤ k) (inside : at_+bytes.length+12 ≤ k) :
    Represents { s with mem := store s.mem (a+at_) bytes } bs
      (Function.update v a (some (window (store s.mem (a+at_) bytes) a n))) := by
  subst place
  have roomy := rep.tiled.roomy
  have outside {i : Nat} (apart : i < s.heap_ptr+q+12 ∨ s.heap_ptr+q+k ≤ i) :
      store s.mem (s.heap_ptr+q+12+at_) bytes i = s.mem i := by
    rcases apart with below | behind
    · exact store_below _ (by omega)
    · exact store_behind (by omega)
  have last := (taken_room roomy used).2.2
  have covers := covers_end rep
  have shape : Shape { s with mem := store s.mem (s.heap_ptr+q+12+at_) bytes } bs := by
    refine rep.tiled.toShape.of_headers _ (fun r start => ?_) ?_
    · have := taken_clear roomy used start
      exact heapMem_congr fun i small => outside (by omega)
    · exact heapMem_congr fun i small => outside (by omega)
  refine rep.change ⟨shape,rep.tiled.coalesced,rep.tiled.lowest,rep.tiled.used,rep.tiled.peak⟩ rfl
    (fun r j other => Iff.rfl) (fun r j m other used' room' => ?_) (by simp) ?_
  · have := taken_clear roomy used (taken_start used')
    have := taken_clear roomy used' (taken_start used)
    exact window_congr fun i small => outside (by omega)
  · rintro bytes ⟨⟩
    exact ⟨k,used,by simpa using room,by rw [window_length]⟩
end

/-! ### One call -/

/-- A call is answered as an ideal heap may answer it. -/
structure Answers (s : Heap) (v : Store) (c : Call) (s' : Heap) (ret : Nat) : Prop where
  ideal : Ideal s.heap_ptr s.heap_end v c ret (note v c ret s'.mem)
  represents : ∃ bs, Represents s' bs (note v c ret s'.mem)
  ptr : s'.heap_ptr = s.heap_ptr
  last : s'.heap_end = s.heap_end

section
variable {s : Heap} {bs : List Block} {v : Store}

theorem block_ne_null (a q : Nat) : a+q+12 ≠ RT_NULL := Nat.succ_ne_zero _

theorem le_RT_ALIGN {size : Nat} (small : size ≤ 0xfffffffc) : size ≤ RT_ALIGN size := by
  rw [RT_ALIGN_eq small]
  omega

theorem rt_malloc_cases (tiled : Tiled s bs) (size : Nat) : rt_malloc (top s) s size = some (s,RT_NULL)
    ∨ ∃ s' bs' q k, rt_malloc (top s) s size = some (s',s.heap_ptr+q+12) ∧ Claimed s s' bs bs' q k
      ∧ RT_ALIGN size+12 ≤ k ∧ 0 < size := by
  rcases rt_malloc_spec tiled size (Nat.le_refl (top s)) with ⟨-,refused⟩ | ⟨q,k,s',bs',⟨some_size,-,found⟩,result,claimed⟩
  · exact .inl refused
  · refine .inr ⟨s',bs',q,_,result,claimed,?_,some_size⟩
    have fit := List.find?_some found
    obtain ⟨-,-,most⟩ := demand_facts size
    simp only [decide_eq_true_eq] at fit
    rw [portion]
    split <;> omega

theorem malloc_answers (rep : Represents s bs v) {size : Nat} (small : size ≤ 0xfffffffc) :
    ∃ s' ret, exec s (.malloc size) = some (s',ret) ∧ Answers s v (.malloc size) s' ret := by
  rcases rt_malloc_cases rep.tiled size with refused | ⟨s',bs',q,k,result,claimed,room,-⟩
  · exact ⟨s,RT_NULL,refused,.malloc_refused v size,⟨bs,rep⟩,rfl,rfl⟩
  · have inside : size+12 ≤ k := by
      have := le_RT_ALIGN small
      omega
    have noted : note v (.malloc size) (s.heap_ptr+q+12) s'.mem
        = Function.update v (s.heap_ptr+q+12) (some (window s'.mem (s.heap_ptr+q+12) size)) := by
      rw [note,if_neg (block_ne_null _ _)]
    refine ⟨s',_,result,?_,⟨bs',noted ▸ rep.claim claimed inside⟩,claimed.ptr,claimed.last⟩
    have taken := @Ideal.malloc s.heap_ptr s.heap_end v (s.heap_ptr+q+12) (window s'.mem (s.heap_ptr+q+12) size)
    rw [window_length] at taken
    exact noted ▸ taken (rep.fresh claimed inside)

theorem calloc_answers (rep : Represents s bs v) {count size : Nat} (small : count*size ≤ 0xfffffffc) :
    ∃ s' ret, exec s (.calloc count size) = some (s',ret) ∧ Answers s v (.calloc count size) s' ret := by
  have product : u32 (count*size) = count*size := u32_eq (by push_cast; rfl) (by omega)
  rcases rt_malloc_cases rep.tiled (count*size) with refused | ⟨s',bs',q,k,result,claimed,room,-⟩
  · refine ⟨s,RT_NULL,?_,.calloc_refused v count size,⟨bs,rep⟩,rfl,rfl⟩
    rw [exec,rt_calloc,product,refused]
    rfl
  · have inside : count*size+12 ≤ k := by
      have := le_RT_ALIGN small
      omega
    have zeros : window (store s'.mem (s.heap_ptr+q+12) (List.replicate (count*size) 0)) (s.heap_ptr+q+12) (count*size)
        = List.replicate (count*size) 0 := by
      simpa using window_store s'.mem (s.heap_ptr+q+12) (List.replicate (count*size) 0)
    have noted : note v (.calloc count size) (s.heap_ptr+q+12)
        (store s'.mem (s.heap_ptr+q+12) (List.replicate (count*size) 0))
        = Function.update v (s.heap_ptr+q+12) (some (List.replicate (count*size) 0)) := by
      rw [note,if_neg (block_ne_null _ _),zeros]
    have zeroed := (rep.claim claimed inside).write claimed.member 0 (List.replicate (count*size) 0)
      (n := count*size) (a := s.heap_ptr+q+12) (by rw [claimed.ptr]) inside (by simpa using inside)
    rw [Nat.add_zero,Function.update_idem,zeros,← noted] at zeroed
    refine ⟨_,_,?_,?_,⟨bs',zeroed⟩,claimed.ptr,claimed.last⟩
    · rw [exec,rt_calloc,product,result]
      simp only [Option.bind_eq_bind,Option.bind_some]
      rw [if_pos (block_ne_null _ _)]
    · exact noted ▸ Ideal.calloc v _ count size (rep.fresh claimed inside)

theorem Represents.null (rep : Represents s bs v) : v RT_NULL = none := by
  cases found : v RT_NULL with
  | none => rfl
  | some old =>
    obtain ⟨q,k,-,place,-⟩ := rep.live _ _ found
    exact absurd place.symm (block_ne_null _ _)

theorem Represents.update_null (rep : Represents s bs v) : Function.update v RT_NULL none = v :=
  Function.update_eq_self_iff.mpr rep.null.symm

/-- `rt_free` on a block of the user. -/
theorem Represents.freed (rep : Represents s bs v) {a : Nat} {old : List UInt8} (found : v a = some old) :
    (∃ bs', Represents (rt_free s a).1 bs' (Function.update v a none)) ∧ (rt_free s a).1.heap_ptr = s.heap_ptr
      ∧ (rt_free s a).1.heap_end = s.heap_end ∧ (rt_free s a).2 = false := by
  obtain ⟨q,k,used,rfl,-,-⟩ := rep.live a old found
  obtain ⟨⟨bs',released⟩,silent⟩ := rt_free_spec rep.tiled used
  exact ⟨⟨bs',rep.release released⟩,released.ptr,released.last,silent⟩

theorem free_answers (rep : Represents s bs v) {a : Nat} (known : a = RT_NULL ∨ ∃ old, v a = some old) :
    ∃ s' ret, exec s (.free a) = some (s',ret) ∧ Answers s v (.free a) s' ret := by
  rcases known with rfl | ⟨old,found⟩
  · have same : note v (.free RT_NULL) RT_NULL s.mem = v := rep.update_null
    exact ⟨s,RT_NULL,rfl,by rw [same]; exact .free_null v,⟨bs,by rw [same]; exact rep⟩,rfl,rfl⟩
  · obtain ⟨represents,ptr,last,-⟩ := rep.freed found
    exact ⟨_,RT_NULL,rfl,.free v a old found,represents,ptr,last⟩

theorem write_answers (rep : Represents s bs v) {a at_ : Nat} {bytes old : List UInt8} (found : v a = some old)
    (inside : at_+bytes.length ≤ old.length) :
    ∃ s' ret, exec s (.write a at_ bytes) = some (s',ret) ∧ Answers s v (.write a at_ bytes) s' ret := by
  obtain ⟨q,k,used,place,room,contents⟩ := rep.live a old found
  have spliced : window (store s.mem (a+at_) bytes) a old.length = splice old at_ bytes := by
    rw [window_store_inside _ _ _ _ _ inside,contents]
    rfl
  have noted : note v (.write a at_ bytes) RT_NULL (store s.mem (a+at_) bytes)
      = Function.update v a (some (splice old at_ bytes)) := by
    rw [note,found,← spliced]
    rfl
  have written := rep.write used at_ bytes (n := old.length) place room (by omega)
  rw [spliced,← noted] at written
  exact ⟨_,RT_NULL,rfl,noted ▸ .write v a at_ bytes old found inside,⟨bs,written⟩,rfl,rfl⟩

theorem RT_ALIGN_le (size : Nat) : RT_ALIGN size ≤ 0xfffffffc := by
  unfold RT_ALIGN u32
  simp only [RT_ALIGN_SIZE]
  omega

theorem RT_ALIGN_zero {size : Nat} (small : size ≤ 0xfffffffc) : RT_ALIGN size = 0 ↔ size = 0 := by
  rw [RT_ALIGN_eq small]
  omega

/-- A block of the user, as `rt_realloc` finds it. -/
theorem Represents.found (rep : Represents s bs v) {q k : Nat} (used : (q,k) ∈ taken 0 bs) :
    s.heap_ptr ≤ s.heap_ptr+q+12 ∧ s.heap_ptr+q+12 < s.heap_end
      ∧ u32 ((s.heap_ptr+q+12-SIZEOF_STRUCT_MEM : Nat)-s.heap_ptr) = q
      ∧ u32 ((s.header (s.heap_ptr+q+12-SIZEOF_STRUCT_MEM)).next-(q : Nat)-SIZEOF_STRUCT_MEM) = k-12 := by
  obtain ⟨pre,post,rfl,rfl⟩ := taken_middle used
  have wide := (rep.tiled.sizes ⟨k,true⟩ (by simp)).2
  have next := rep.tiled.next_eq
  obtain ⟨-,inside⟩ := rep.tiled.inside
  have fits := rep.tiled.fits
  have finish := rep.tiled.at_end
  dsimp only at wide inside next
  rw [Nat.zero_add]
  have lower : s.heap_ptr+extent pre+12-SIZEOF_STRUCT_MEM = s.heap_ptr+extent pre := by simp [SIZEOF_STRUCT_MEM]
  rw [lower,next]
  refine ⟨by omega,by omega,u32_eq (by omega) (by omega),u32_eq ?_ (by omega)⟩
  simp only [SIZEOF_STRUCT_MEM]
  omega

/-- A block that stays where it is. -/
theorem realloc_in_place {s' : Heap} {bs' : List Block} {a q k newsize : Nat} {old : List UInt8} (found : v a = some old)
    (contents : window s.mem a old.length = old) (place : a = s.heap_ptr+q+12) (some_size : 0 < newsize)
    (ptr : s'.heap_ptr = s.heap_ptr) (last : s'.heap_end = s.heap_end)
    (rep : Represents s' bs' (Function.update v a (some (window s.mem a newsize)))) (used : (q,k) ∈ taken 0 bs')
    (inside : newsize+12 ≤ k) : Answers s v (.realloc a newsize) s' a := by
  have null : a ≠ RT_NULL := place ▸ block_ne_null _ _
  have same : window s'.mem a newsize = window s.mem a newsize := by
    obtain ⟨-,-,-,-,-,same⟩ := rep.live a _ (Function.update_self ..)
    rwa [window_length] at same
  have noted : note v (.realloc a newsize) a s'.mem = Function.update v a (some (window s.mem a newsize)) := by
    rw [note,if_neg (Nat.ne_of_gt some_size),if_neg null,same,Function.update_idem]
  have fresh := rep.place used inside
  rw [ptr,last,← place,Function.update_idem] at fresh
  refine ⟨?_,⟨bs',noted ▸ rep⟩,ptr,last⟩
  have kept := @Ideal.realloc s.heap_ptr s.heap_end v a a old (window s.mem a newsize) found
  rw [window_length,Function.update_idem,← noted] at kept
  refine kept some_size fresh ?_
  rw [← contents,window_length,window_take_min,window_take_min,Nat.min_comm]

/-- A block that is moved: `rt_malloc`, a copy and `rt_free`. -/
theorem realloc_moved {s' : Heap} {bs' : List Block} {a q k c newsize : Nat} {old : List UInt8} (rep : Represents s bs v)
    (found : v a = some old) (some_size : 0 < newsize) (claimed : Claimed s s' bs bs' q k) (inside : newsize+12 ≤ k)
    (copied : c+12 ≤ k) (enough : min old.length newsize ≤ c) :
    Answers s v (.realloc a newsize)
      (rt_free { s' with mem := store s'.mem (s.heap_ptr+q+12) (window s'.mem a c) } a).1 (s.heap_ptr+q+12) := by
  have fresh := rep.fresh claimed inside
  have other : a ≠ s.heap_ptr+q+12 := fun same => by
    rw [same,fresh.unused] at found
    cases found
  have rep1 := rep.claim claimed inside
  obtain ⟨-,-,-,-,-,contents⟩ := rep1.live a old (by rw [Function.update_of_ne other,found])
  have rep2 := rep1.write claimed.member 0 (window s'.mem a c) (a := s.heap_ptr+q+12) (n := newsize)
    (by rw [claimed.ptr]) inside (by simpa using copied)
  rw [Nat.add_zero,Function.update_idem] at rep2
  obtain ⟨⟨bs3,rep3⟩,ptr,last,-⟩ := rep2.freed ((Function.update_of_ne other _ _).trans found)
  generalize bytes : window (store s'.mem (s.heap_ptr+q+12) (window s'.mem a c)) (s.heap_ptr+q+12) newsize = new at rep2 rep3
  have length : new.length = newsize := by rw [← bytes,window_length]
  rw [Function.update_comm other.symm] at rep3
  obtain ⟨-,-,-,-,-,kept⟩ := rep3.live (s.heap_ptr+q+12) new (Function.update_self ..)
  generalize (rt_free { s' with mem := store s'.mem (s.heap_ptr+q+12) (window s'.mem a c) } a).1 = t at *
  rw [length] at kept
  have noted : note v (.realloc a newsize) (s.heap_ptr+q+12) t.mem
      = Function.update (Function.update v a none) (s.heap_ptr+q+12) (some new) := by
    rw [note,if_neg (Nat.ne_of_gt some_size),if_neg (block_ne_null _ _),kept]
  refine ⟨?_,⟨bs3,noted ▸ rep3⟩,ptr.trans claimed.ptr,last.trans claimed.last⟩
  have moved := @Ideal.realloc s.heap_ptr s.heap_end v a (s.heap_ptr+q+12) old new found
  rw [length,← noted] at moved
  refine moved some_size ⟨fresh.aligned,fresh.inside,?_,fun b bytes live => ?_⟩ ?_
  · rw [Function.update_of_ne other.symm]
    exact fresh.unused
  · by_cases own : b = a
    · rw [own,Function.update_self] at live
      cases live
    · rw [Function.update_of_ne own] at live
      exact fresh.apart b bytes live
  · rw [← bytes,window_take_min,window_copy _ _ _ enough]
    conv_rhs => rw [← contents,window_take_min,Nat.min_comm]

theorem realloc_refused (rep : Represents s bs v) {a newsize : Nat} (some_size : 0 < newsize) :
    Answers s v (.realloc a newsize) s RT_NULL := by
  have noted : note v (.realloc a newsize) RT_NULL s.mem = v := by
    rw [note,if_neg (Nat.ne_of_gt some_size),if_pos rfl]
  exact ⟨by rw [noted]; exact .realloc_refused v a newsize some_size,⟨bs,by rw [noted]; exact rep⟩,rfl,rfl⟩

theorem realloc_freed (rep : Represents s bs v) {a : Nat} (known : a = RT_NULL ∨ ∃ old, v a = some old) :
    Answers s v (.realloc a 0) (rt_free s a).1 RT_NULL := by
  rcases known with rfl | ⟨old,found⟩
  · have noted : note v (.realloc RT_NULL 0) RT_NULL s.mem = v := rep.update_null
    exact ⟨by rw [rt_free,if_pos rfl,noted]; exact .realloc_nothing v,⟨bs,by rw [rt_free,if_pos rfl,noted]; exact rep⟩,rfl,rfl⟩
  · obtain ⟨represents,ptr,last,-⟩ := rep.freed found
    exact ⟨.realloc_free v a old found,represents,ptr,last⟩

theorem realloc_new {s' : Heap} {bs' : List Block} {q k newsize : Nat} (rep : Represents s bs v)
    (some_size : 0 < newsize) (claimed : Claimed s s' bs bs' q k) (inside : newsize+12 ≤ k) :
    Answers s v (.realloc RT_NULL newsize) s' (s.heap_ptr+q+12) := by
  have noted : note v (.realloc RT_NULL newsize) (s.heap_ptr+q+12) s'.mem
      = Function.update v (s.heap_ptr+q+12) (some (window s'.mem (s.heap_ptr+q+12) newsize)) := by
    rw [note,if_neg (Nat.ne_of_gt some_size),if_neg (block_ne_null _ _),rep.update_null]
  refine ⟨?_,⟨bs',noted ▸ rep.claim claimed inside⟩,claimed.ptr,claimed.last⟩
  have taken := @Ideal.realloc_new s.heap_ptr s.heap_end v (s.heap_ptr+q+12)
    (window s'.mem (s.heap_ptr+q+12) newsize)
  rw [window_length] at taken
  exact noted ▸ taken some_size (rep.fresh claimed inside)

theorem realloc_answers (rep : Represents s bs v) {a newsize : Nat} (small : newsize ≤ 0xfffffffc)
    (known : a = RT_NULL ∨ ∃ old, v a = some old) :
    ∃ s' ret, exec s (.realloc a newsize) = some (s',ret) ∧ Answers s v (.realloc a newsize) s' ret := by
  have enough := le_RT_ALIGN small
  have again := le_RT_ALIGN (RT_ALIGN_le newsize)
  have empty_iff := RT_ALIGN_zero small
  rw [exec,rt_realloc]
  dsimp only
  by_cases huge : RT_ALIGN newsize > s.mem_size_aligned
  · exact ⟨s,RT_NULL,if_pos huge,realloc_refused rep (by omega)⟩
  rw [if_neg huge]
  by_cases empty : newsize = 0
  · subst empty
    exact ⟨_,RT_NULL,if_pos (empty_iff.mpr rfl),realloc_freed rep known⟩
  rw [if_neg (mt empty_iff.mp empty)]
  have some_size := Nat.pos_of_ne_zero empty
  rcases known with rfl | ⟨old,found⟩
  · rw [if_pos rfl]
    rcases rt_malloc_cases rep.tiled (RT_ALIGN newsize) with refused | ⟨s',bs',q,k,result,claimed,room,-⟩
    · exact ⟨s,RT_NULL,refused,realloc_refused rep some_size⟩
    · exact ⟨s',_,result,realloc_new rep some_size claimed (by omega)⟩
  obtain ⟨q,k,used,rfl,room,contents⟩ := rep.live a old found
  obtain ⟨low,high,offset,size⟩ := rep.found used
  rw [if_neg (block_ne_null _ _),if_neg (by omega),offset,size]
  -- the same size, a smaller one with room for a block behind it, or another block
  by_cases same : k-12 = RT_ALIGN newsize
  · rw [if_pos same]
    have stays := rep.write used 0 [] (n := newsize) rfl (by omega) (by simp; omega)
    rw [store_nil] at stays
    exact ⟨s,_,rfl,realloc_in_place found contents rfl some_size rfl rfl stays used (by omega)⟩
  rw [if_neg same]
  have sum : u32 (RT_ALIGN newsize+SIZEOF_STRUCT_MEM+MIN_SIZE) = RT_ALIGN newsize+24 := by
    have fits := rep.tiled.fits
    simp only [top] at fits
    exact u32_eq (by simp only [SIZEOF_STRUCT_MEM,MIN_SIZE]; omega) (by omega)
  rw [sum]
  by_cases less : RT_ALIGN newsize+24 < k-12
  · rw [if_pos less]
    obtain ⟨bs',shrunk⟩ := shrink_spec rep.tiled used (by omega) (RT_ALIGN_dvd newsize) less
    obtain ⟨before,behind,-,new⟩ := shrunk.shrunk
    exact ⟨_,_,rfl,realloc_in_place found contents rfl some_size shrunk.ptr shrunk.last
      (rep.shrink shrunk (by omega)) (by rw [new]; simp) (by omega : newsize+12 ≤ RT_ALIGN newsize+12)⟩
  rw [if_neg less]
  rcases rt_malloc_cases rep.tiled (RT_ALIGN newsize) with refused | ⟨s',bs',r,j,result,claimed,room',-⟩
  · rw [refused]
    exact ⟨s,RT_NULL,rfl,realloc_refused rep some_size⟩
  · rw [result]
    simp only [Option.bind_eq_bind,Option.bind_some]
    rw [if_pos (block_ne_null _ _)]
    refine ⟨_,_,rfl,realloc_moved rep found some_size claimed (by omega) ?_ ?_⟩ <;> split <;> omega

theorem exec_answers (rep : Represents s bs v) {c : Call} (allowed : Allowed v c) :
    ∃ s' ret, exec s c = some (s',ret) ∧ Answers s v c s' ret := by
  cases c with
  | malloc size => exact malloc_answers rep allowed
  | calloc count size => exact calloc_answers rep allowed
  | realloc a newsize => exact realloc_answers rep allowed.1 (allowed.2.imp_right Option.isSome_iff_exists.mp)
  | free a => exact free_answers rep (Or.imp_right Option.isSome_iff_exists.mp allowed)
  | write a at_ bytes =>
    obtain ⟨there,inside⟩ := allowed
    obtain ⟨old,found⟩ := Option.isSome_iff_exists.mp there
    rw [found] at inside
    exact write_answers rep found inside
end

/-! ### Whole runs -/

theorem oneBlock_tiled (m : Mem) {heap_ptr size : Nat} (room : 12 ≤ size) (fits : heap_ptr+(size+12)+12 < 2^32)
    (aligned : 4 ∣ heap_ptr) (whole : 4 ∣ size) : Tiled (oneBlock m heap_ptr size) [⟨size+12,false⟩] := by
  have last : (oneBlock m heap_ptr size).header (heap_ptr+(size+12)) = ⟨HEAP_MAGIC,1,size+12,size+12⟩ :=
    Heap.header_setHeader (by dsimp only [SIZEOF_STRUCT_MEM]; omega) (by dsimp only [SIZEOF_STRUCT_MEM]; omega)
  have first : (oneBlock m heap_ptr size).header heap_ptr = ⟨HEAP_MAGIC,0,size+12,0⟩ := by
    refine (Heap.header_setHeader_apart (by simp only [SIZEOF_STRUCT_MEM]; omega)).trans ?_
    exact Heap.header_setHeader (by dsimp only [SIZEOF_STRUCT_MEM]; omega) (by dsimp only; omega)
  refine ⟨⟨⟨rfl,room,fits,aligned⟩,⟨?_,trivial⟩,?_,rfl,?_,?_⟩,.singleton _,rfl,rfl,Nat.le_refl 0,Nat.zero_le _⟩
  · have ptr : (oneBlock m heap_ptr size).heap_ptr = heap_ptr := rfl
    rw [tag,ptr,Nat.add_zero,first,Nat.zero_add]
    rfl
  · exact (congrArg HeapMem.used last).trans_ne (show (1 : UInt16) ≠ 0 by decide)
  · intro b member
    obtain rfl := List.mem_singleton.mp member
    dsimp only
    omega
  · intro q start
    obtain rfl := List.mem_singleton.mp start
    exact congrArg HeapMem.magic first

/-- The heap that `rt_system_heap_init` makes is one hole. -/
theorem rt_system_heap_init_tiled {m : Mem} {begin_addr end_addr : Nat} {s : Heap}
    (start : rt_system_heap_init m begin_addr end_addr = some s) (high : end_addr < 2^32) (room : 12 ≤ s.mem_size_aligned) : Tiled s [⟨top s,false⟩] := by
  have first := RT_ALIGN_dvd begin_addr
  have last : 4 ∣ RT_ALIGN_DOWN end_addr := Nat.dvd_mul_left ..
  have most : RT_ALIGN_DOWN end_addr ≤ end_addr := Nat.div_mul_le_self ..
  unfold rt_system_heap_init at start
  dsimp only at start
  split at start
  next valid =>
    rw [Option.some_inj] at start
    subst start
    change 12 ≤ RT_ALIGN_DOWN end_addr-RT_ALIGN begin_addr-2*SIZEOF_STRUCT_MEM at room
    simp only [SIZEOF_STRUCT_MEM] at room valid ⊢
    exact oneBlock_tiled m room (by omega) first (by omega)
  next => cases start

/-- The heap and its user agree. -/
def Sound (lo hi : Nat) (x : Heap × Store) : Prop :=
  (∃ bs, Represents x.1 bs x.2) ∧ x.1.heap_ptr = lo ∧ x.1.heap_end = hi

theorem step_sound {lo hi : Nat} {x : Heap × Store} {c : Call} (sound : Sound lo hi x) (allowed : Allowed x.2 c) :
    Sound lo hi (step x c).1 ∧ ∃ ret, (step x c).2 = some ret ∧ Ideal lo hi x.2 c ret (step x c).1.2 := by
  obtain ⟨s,v⟩ := x
  obtain ⟨⟨bs,rep⟩,rfl,rfl⟩ := sound
  obtain ⟨s',ret,result,answers⟩ := exec_answers rep allowed
  have same : step (s,v) c = ((s',note v c ret s'.mem),some ret) := by
    rw [step]
    simp only [result]
  rw [same]
  exact ⟨⟨answers.represents,answers.ptr,answers.last⟩,ret,rfl,answers.ideal⟩

section
variable {m : Mem} {begin_addr end_addr : Nat} {s : Heap}

theorem init_sound (start : rt_system_heap_init m begin_addr end_addr = some s) (high : end_addr < 2^32)
    (room : 12 ≤ s.mem_size_aligned) : Sound s.heap_ptr s.heap_end (s,nothing) := by
  refine ⟨⟨_,rt_system_heap_init_tiled start high room,fun a old found => ?_,fun q k used => ?_⟩,rfl,rfl⟩
  · cases found
  · cases used

/-- Every sequence of calls by the rules is answered, and answered as an ideal heap may: blocks
    lie apart, and each keeps its bytes until its user writes or frees it. -/
theorem heap_refines_ideal (start : rt_system_heap_init m begin_addr end_addr = some s) (high : end_addr < 2^32)
    (room : 12 ≤ s.mem_size_aligned) {calls : List Call}
    (allowed : Along step (fun x c => Allowed x.2 c) (s,nothing) calls) :
    Along step (fun x c => ∃ ret, (step x c).2 = some ret ∧ Ideal s.heap_ptr s.heap_end x.2 c ret (step x c).1.2)
      (s,nothing) calls
    ∧ Throughout step (fun x => ∀ a bytes, x.2 a = some bytes → window x.1.mem a bytes.length = bytes)
      (s,nothing) calls := by
  have keeps : ∀ x c, Sound s.heap_ptr s.heap_end x → Allowed x.2 c → Sound s.heap_ptr s.heap_end (step x c).1 :=
    fun x c sound allowed => (step_sound sound allowed).1
  refine ⟨along_invariant keeps (fun x c sound allowed => (step_sound sound allowed).2) (init_sound start high room) allowed,
    throughout_invariant keeps (fun x sound a bytes found => ?_) (init_sound start high room) allowed⟩
  obtain ⟨⟨bs,rep⟩,-,-⟩ := sound
  obtain ⟨q,k,-,-,-,contents⟩ := rep.live a bytes found
  exact contents

omit m begin_addr end_addr s in
theorem init_small :
    rt_system_heap_init (fun _ => 0) 0x20000000 0x20000100 = some (oneBlock (fun _ => 0) 0x20000000 232) := by
  rw [rt_system_heap_init,if_pos (by decide +kernel)]
  rfl

/-- A heap of 256 bytes: two blocks are taken, the first is written, grown past the second, and freed. -/
theorem heap_refines_ideal_session :
    rt_system_heap_init (fun _ => 0) 0x20000000 0x20000100 = some (oneBlock (fun _ => 0) 0x20000000 232)
    ∧ Throughout step (fun x => ∀ a bytes, x.2 a = some bytes → window x.1.mem a bytes.length = bytes)
      (oneBlock (fun _ => 0) 0x20000000 232,nothing)
      [.malloc 5,.calloc 3 4,.write 0x2000000c 1 [7,8],.realloc 0x2000000c 40,.free 0x2000003c,.malloc 300] :=
  ⟨init_small,(heap_refines_ideal init_small (by decide) (by decide) (by decide +kernel)).2⟩

/-- The blocks from the offset `p` on, as the headers give them. -/
def walk (s : Heap) : (turns p : Nat) → List Block
  | 0, _ => []
  | turns+1, p =>
    if s.heap_ptr+p = s.heap_end then []
    else ⟨(s.header (s.heap_ptr+p)).next-p,(s.header (s.heap_ptr+p)).used != 0⟩ ::
      walk s turns (s.header (s.heap_ptr+p)).next

/-- All blocks of a heap. -/
def blocks (s : Heap) : List Block := walk s (top s) 0

omit m begin_addr end_addr in
theorem walk_eq {pre bs : List Block} (shape : Shape s (pre ++ bs)) {turns : Nat} (enough : bs.length < turns) :
    walk s turns (extent pre) = bs := by
  induction bs generalizing pre turns with
  | nil =>
    obtain ⟨turns,rfl⟩ := Nat.exists_eq_succ_of_ne_zero (Nat.ne_of_gt enough)
    have covers := shape.covers
    rw [List.append_nil] at covers
    rw [walk,if_pos (by rw [shape.at_end,covers])]
  | cons b bs ih =>
    obtain ⟨turns,rfl⟩ := Nat.exists_eq_succ_of_ne_zero (Nat.ne_of_gt (Nat.zero_lt_of_lt enough))
    obtain ⟨room,inside⟩ := shape.inside
    have shape' : Shape s ((pre ++ [b]) ++ bs) := by simpa using shape
    have later := ih shape' (Nat.lt_of_succ_lt_succ enough)
    rw [extent_append,extent_cons,extent_nil,Nat.add_zero] at later
    rw [walk,if_neg (by rw [shape.at_end]; omega),shape.next_eq,shape.used_eq,later,Nat.add_sub_cancel_left]

omit m begin_addr end_addr in
theorem blocks_eq {bs : List Block} (shape : Shape s bs) : blocks s = bs :=
  @walk_eq _ [] bs shape _ shape.few

/-- The state of the heap after calls by the rules. -/
theorem run_tiled (start : rt_system_heap_init m begin_addr end_addr = some s) (high : end_addr < 2^32)
    (room : 12 ≤ s.mem_size_aligned) {calls : List Call}
    (allowed : Along step (fun x c => Allowed x.2 c) (s,nothing) calls) :
    Represents (final step (s,nothing) calls).1 (blocks (final step (s,nothing) calls).1)
      (final step (s,nothing) calls).2 := by
  have sound := final_invariant (I := Sound s.heap_ptr s.heap_end) (fun x c sound allowed => (step_sound sound allowed).1)
    (init_sound start high room) allowed
  obtain ⟨⟨bs,rep⟩,-,-⟩ := sound
  rwa [blocks_eq rep.tiled.toShape]

omit m begin_addr end_addr in
theorem chosen_none_iff {bs : List Block} (tiled : Tiled s bs) (size : Nat) : chosen s bs size = none
    ↔ ∀ hole ∈ holes 0 bs, hole.2 < demand size+12 ∨ hole.2 = demand size+12 ∧ hole.1+hole.2 = top s := by
  rw [chosen,List.find?_eq_none]
  refine forall₂_congr fun hole free => ?_
  obtain ⟨pre,post,rfl,start⟩ := holes_middle (q := hole.1) (k := hole.2) free
  obtain ⟨-,inside⟩ := tiled.inside
  simp only [top,decide_eq_true_eq] at inside start ⊢
  omega

omit m begin_addr end_addr in
theorem null_iff_of_tiled {bs : List Block} (tiled : Tiled s bs) (size : Nat) :
    (rt_malloc (top s) s size).map Prod.snd = some RT_NULL ↔
      size = 0 ∨ s.mem_size_aligned < RT_ALIGN size
      ∨ ∀ hole ∈ holes 0 bs, hole.2 < demand size+12 ∨ hole.2 = demand size+12 ∧ hole.1+hole.2 = top s := by
  rw [← chosen_none_iff tiled]
  rcases rt_malloc_spec tiled size (Nat.le_refl (top s)) with ⟨refused,result⟩ | ⟨q,k,s',bs',granted,result,-⟩
  · rw [result]
    exact iff_of_true rfl refused
  · rw [result]
    refine iff_of_false (fun null => block_ne_null _ _ (Option.some_inj.mp null)) ?_
    rintro (empty | huge | nowhere)
    · omega
    · omega
    · rw [nowhere] at granted
      cases granted.2.2

/-- After calls by the rules `rt_malloc` gives NULL exactly when nothing or too much is asked
    for, or no hole is large enough; a hole that reaches to the end of the heap has to be
    larger than that. -/
theorem rt_malloc_null_iff (start : rt_system_heap_init m begin_addr end_addr = some s) (high : end_addr < 2^32)
    (room : 12 ≤ s.mem_size_aligned) (calls : List Call)
    (allowed : Along step (fun x c => Allowed x.2 c) (s,nothing) calls) (size : Nat) {t : Heap}
    (reached : t = (final step (s,nothing) calls).1) :
    (rt_malloc (top t) t size).map Prod.snd = some RT_NULL ↔
      size = 0 ∨ t.mem_size_aligned < RT_ALIGN size
      ∨ ∀ hole ∈ holes 0 (blocks t), hole.2 < demand size+12 ∨ hole.2 = demand size+12 ∧ hole.1+hole.2 = top t := by
  have rep := run_tiled start high room allowed
  rw [← reached] at rep
  exact null_iff_of_tiled rep.tiled size

/-- After a block of 20 bytes has been taken the rest of the heap is a hole of 212, which has no room for a
    block of 200 and its header, but for one of 196. -/
theorem rt_malloc_null_at_end :
    (rt_malloc 244 (final step (oneBlock (fun _ => 0) 0x20000000 232,nothing) [.malloc 20]).1 200).map Prod.snd = some RT_NULL
    ∧ (rt_malloc 244 (final step (oneBlock (fun _ => 0) 0x20000000 232,nothing) [.malloc 20]).1 196).map Prod.snd
      ≠ some RT_NULL := by
  have null (size : Nat) := rt_malloc_null_iff init_small (by decide) (by decide) [.malloc 20] ⟨by decide,trivial⟩ size rfl
  exact ⟨(null 200).mpr (by decide +kernel),(null 196).not.mpr (by decide +kernel)⟩

/-- When the user has given everything back the heap is one hole again, and a request is granted
    if it is for less than all of it. -/
theorem all_freed_pristine (start : rt_system_heap_init m begin_addr end_addr = some s) (high : end_addr < 2^32)
    (room : 12 ≤ s.mem_size_aligned) {calls : List Call}
    (allowed : Along step (fun x c => Allowed x.2 c) (s,nothing) calls) {t : Heap}
    (reached : t = (final step (s,nothing) calls).1) (given_back : (final step (s,nothing) calls).2 = nothing) :
    blocks t = [⟨top t,false⟩] ∧ t.lfree = t.heap_ptr ∧ t.used_mem = 0
      ∧ ∀ size, 0 < size → demand size < t.mem_size_aligned →
        (rt_malloc (top t) t size).map Prod.snd ≠ some RT_NULL := by
  have rep := run_tiled start high room allowed
  rw [← reached,given_back] at rep
  have free : taken 0 (blocks t) = [] := by
    refine List.eq_nil_iff_forall_not_mem.mpr fun used member => ?_
    obtain ⟨old,found⟩ := rep.owned used.1 used.2 member
    cases found
  have tiled := rep.tiled
  have one : blocks t = [⟨top t,false⟩] := by
    have few := coalesced_free tiled.coalesced free
    have covers := tiled.covers
    have some_room := tiled.room
    match same : blocks t, few with
    | [], _ =>
      rw [same] at covers
      simp only [extent_nil,top] at covers
      omega
    | [⟨k,true⟩], _ =>
      rw [same] at free
      cases free
    | [⟨k,false⟩], _ =>
      rw [same] at covers
      simp only [extent_cons,extent_nil,Nat.add_zero] at covers
      rw [covers]
  rw [one] at tiled
  refine ⟨one,tiled.lowest,tiled.used,fun size some_size less => ?_⟩
  obtain ⟨-,-,most⟩ := demand_facts size
  rw [ne_eq,null_iff_of_tiled tiled]
  rintro (empty | huge | nowhere)
  · omega
  · omega
  · have := nowhere (0,top t) (by simp)
    simp only [top] at this
    omega

omit m begin_addr end_addr s in
theorem step_store {x : Heap × Store} {c : Call} {ret : Nat} (answer : (step x c).2 = some ret) :
    (step x c).1.2 = note x.2 c ret (step x c).1.1.mem := by
  obtain ⟨s,v⟩ := x
  unfold step at answer ⊢
  dsimp only at answer ⊢
  split at answer
  next => cases answer
  next result =>
    cases answer
    rfl

/-- A block is taken and given back. -/
theorem all_freed_pristine_session :
    blocks (final step (oneBlock (fun _ => 0) 0x20000000 232,nothing) [.malloc 5,.free 0x2000000c]).1 = [⟨244,false⟩] :=
  have taken : (step (oneBlock (fun _ => 0) 0x20000000 232,nothing) (.malloc 5)).2 = some 0x2000000c := by decide +kernel
  have freed : (step (step (oneBlock (fun _ => 0) 0x20000000 232,nothing) (.malloc 5)).1 (.free 0x2000000c)).2
      = some RT_NULL := by decide +kernel
  (all_freed_pristine init_small (by decide) (by decide) (by decide +kernel) rfl (by
    rw [final,final,final,step_store freed,note,step_store taken,note,if_neg (by decide),
      Function.update_idem]
    exact Function.update_eq_self 0x2000000c nothing)).1

/-- The node list takes its blocks from this heap: `rt_malloc` is what `NodeHeap` has under that
    name, as long as the blocks of the nodes are among those that are live. -/
theorem rt_malloc_for_nodes (start : rt_system_heap_init m begin_addr end_addr = some s) (high : end_addr < 2^32)
    (room : 12 ≤ s.mem_size_aligned) (calls : List Call)
    (allowed : Along step (fun x c => Allowed x.2 c) (s,nothing) calls) {t : Heap}
    (reached : t = (final step (s,nothing) calls).1) {nodes : NodeHeap.Heap}
    (live : ∀ a ∈ nodes.live, ((final step (s,nothing) calls).2 a).isSome) (size : Nat) :
    ∃ t' answer, (rt_malloc (top t) t size).map (fun r => (r.1,if r.2 = RT_NULL then none else some r.2)) = some (t',answer)
      ∧ NodeHeap.rt_malloc nodes answer = answer := by
  have rep := run_tiled start high room allowed
  rw [← reached] at rep
  rcases rt_malloc_cases rep.tiled size with refused | ⟨t',bs',q,k,result,claimed,room,-⟩
  · rw [refused]
    exact ⟨t,none,rfl,rfl⟩
  · have fresh := rep.fresh claimed (n := 0) (by omega)
    have other : t.heap_ptr+q+12 ∉ nodes.live := fun member => by
      have found := live _ member
      rw [fresh.unused] at found
      cases found
    rw [result]
    refine ⟨t',some (t.heap_ptr+q+12),?_,?_⟩
    · rw [Option.map_some,if_neg (block_ne_null _ _)]
    · rw [NodeHeap.rt_malloc,Option.map_some,if_neg other]

/-- The first node has the block that was taken; the second one gets another. -/
theorem rt_malloc_for_second_node :
    ((final step (oneBlock (fun _ => 0) 0x20000000 232,nothing) [.malloc 20]).2 0x2000000c).isSome
    ∧ ∃ t' answer, (rt_malloc 244 (final step (oneBlock (fun _ => 0) 0x20000000 232,nothing) [.malloc 20]).1 20).map (fun r =>
        (r.1,if r.2 = RT_NULL then none else some r.2)) = some (t',answer)
      ∧ NodeHeap.rt_malloc (NodeHeap.empty.take 0x2000000c NodeHeap.empty.node) answer = answer := by
  have taken : ((final step (oneBlock (fun _ => 0) 0x20000000 232,nothing) [.malloc 20]).2 0x2000000c).isSome := by
    decide +kernel
  refine ⟨taken,rt_malloc_for_nodes init_small (by decide) (by decide) [.malloc 20] ⟨by decide,trivial⟩ rfl (fun a live => ?_) 20⟩
  rw [List.mem_singleton.mp live]
  exact taken
end

end Ucm108e.HeapClients
