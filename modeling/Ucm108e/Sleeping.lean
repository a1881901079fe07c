import Mathlib
import Ucm108e.Threads

/-!
The frames of threads that do not run. `Sound` says that every one of them lies where
its stack pointer leads and holds what the thread was switched out with; the saves
add a frame, the restores take one, and what happens in an interrupt leaves them
alone. The three ways to come back to a thread end in `Resumed`.
-/
namespace Ucm108e.Sleeping
open Ucm108e.Machine
open Ucm108e.Words
open Ucm108e.Rv32
open Ucm108e.ContextSwitch
open Ucm108e.Frames
open Ucm108e.Threads
set_option linter.unusedSimpArgs false

variable {T : Type}

/-- The context of a thread lies in its frame, and its stack pointer leads there. -/
structure Asleep (L : Layout T) (m : Memory) (t : T) (c : Saved) : Prop where
  cell : load m (L.cell t) = c.base
  pc : (frameAt m c.base).pc = c.context.pc
  holds : Holds c.Wanted m c.base c.context
  status : (statusAt m c.base).getLsbD 7 = c.mie

/-- A frame at `base` is apart from the words of the kernel. -/
def Clear (L : Layout T) (base : Word) : Prop := ∀ b, Within base 256 b → ∀ p, ¬ Within (L.address p) 4 b

/-- All threads that do not run are asleep, in frames that do not meet. -/
structure Sound (L : Layout T) (m : Memory) (saved : T → Option Saved) : Prop where
  asleep : ∀ t c, saved t = some c → Asleep L m t c
  places : ∀ t c, saved t = some c → Clear L c.base
  frames : ∀ t u c d, t ≠ u → saved t = some c → saved u = some d → ∀ b, Within c.base 256 b → ¬ Within d.base 256 b

variable {L : Layout T}

theorem frame_load {m m' : Memory} {base : Word} (same : ∀ b, Within base 256 b → m' b = m b) {i : Nat}
    (inside : i < 64) : load m' (slot base i) = load m (slot base i) :=
  load_congr fun b here => same b (slot_within (n := 64) inside (by decide) here)

theorem holds_congr {wanted : Reg → Prop} {m m' : Memory} {base : Word} {c : Context}
    (same : ∀ b, Within base 256 b → m' b = m b) (holds : Holds wanted m base c) : Holds wanted m' base c := by
  constructor
  · intro r
    have := r.isLt
    exact (frame_load same (by omega)).trans (holds.f r)
  · intro r carried
    have := r.isLt
    rw [← holds.x r carried]
    simp only [frameAt]
    rw [frame_load same (by omega)]

theorem asleep_congr {m m' : Memory} {t : T} {c : Saved} (asleep : Asleep L m t c)
    (same : ∀ b, Within (L.cell t) 4 b ∨ Within c.base 256 b → m' b = m b) : Asleep L m' t c := by
  have inFrame : ∀ b, Within c.base 256 b → m' b = m b := fun b here => same b (.inr here)
  refine ⟨?_,?_,holds_congr inFrame asleep.holds,?_⟩
  · rw [← asleep.cell]
    exact load_congr fun b here => same b (.inl here)
  · rw [← asleep.pc]
    exact frame_load inFrame (by decide)
  · rw [← asleep.status,statusAt,frame_load inFrame (by decide),statusAt]

theorem sound_congr {m m' : Memory} {saved : T → Option Saved} (sound : Sound L m saved)
    (same : ∀ b, Owned L saved b → m' b = m b) : Sound L m' saved :=
  ⟨fun t c lies => asleep_congr (sound.asleep t c lies) fun b owned => same b ⟨t,c,lies,owned⟩,sound.places,
    sound.frames⟩

/-! ### The hart in a call of `rt_hw_context_switch` -/

section
variable (cur next : T) (h : Hart)

theorem calling_a0 : (calling L cur next h).get a0 = L.cell cur := by
  simp (disch := decide) only [calling,Hart.set_get_other,Hart.set_get_same]

theorem calling_a1 : (calling L cur next h).get a1 = L.cell next := by
  simp (disch := decide) only [calling,Hart.set_get_same]

theorem calling_sp : (calling L cur next h).get sp = h.get sp := by
  simp (disch := decide) only [calling,Hart.set_get_other]

theorem calling_pushed : pushed (calling L cur next h) = pushed h := by
  rw [pushed,calling_sp,pushed]

theorem calling_mem : (calling L cur next h).mem = h.mem := by
  simp only [calling,Hart.set_mem]

theorem calling_csr (c : Csr) : (calling L cur next h).csr c = h.csr c := by
  simp only [calling,Hart.set_csr]
end

/-! ### The restores -/

theorem popFrame_restored {code : List Instr} (between : Between code) {h : Hart} {c : Saved}
    (holds : Holds c.Wanted h.mem c.base c.context) (frame : h.get sp = c.base)
    (pc : (run code (popFloats h)).csr .mepc = c.context.pc) : Restored c (popFrame code h) where
  pc := (popFrame_pc between h).trans pc
  x r wanted := by rw [popFrame_get between h wanted.1,frame,holds.x r wanted]
  f r := by rw [popFrame_f between h,frame,holds.f r]

section
variable {h : Hart} {t : T} {c : Saved} (asleep : Asleep L h.mem t c)
include asleep

theorem switchRestore_spec (argument : h.get a1 = L.cell t) :
    Restored c (switchRestore h) ∧ (switchRestore h).mem = h.mem ∧ (switchRestore h).mie = (h.mpie || c.mie) := by
  obtain ⟨k,k_def⟩ : ∃ k, k = run [.lw sp 0 a1] h := ⟨_,rfl⟩
  have frame : k.get sp = c.base := by
    simp (disch := decide) only [k_def,run_cons,run_nil,exec_lw,Hart.set_get_same,offset_zero,argument,asleep.cell]
  have mem : k.mem = h.mem := by simp only [k_def,run_cons,run_nil,exec_lw,Hart.set_mem]
  have csr : ∀ c, k.csr c = h.csr c := fun c => by simp only [k_def,run_cons,run_nil,exec_lw,Hart.set_csr]
  rw [switchRestore,← k_def]
  refine ⟨popFrame_restored switchTake_between (by rw [mem]; exact asleep.holds) frame ?_,?_,?_⟩
  · rw [switchTake_mepc,popFloats_sp,popFloats_mem,frame,mem]
    exact asleep.pc
  · rw [popFrame_mem switchTake_between,mem]
  · rw [popFrame_mie switchTake_between,Hart.mpie,switchTake_mstatus,popFloats_sp,popFloats_mem,popFloats_csr,frame,
      mem,csr,slot_slot,BitVec.getLsbD_or,BitVec.getLsbD_or,← asleep.status,statusAt,Hart.mpie]
    simp

theorem start_spec (argument : h.get a0 = L.cell t) :
    Restored c (rt_hw_context_switch_to h) ∧ (rt_hw_context_switch_to h).mem = h.mem ∧
      (rt_hw_context_switch_to h).mie = c.mie := by
  obtain ⟨k,k_def⟩ : ∃ k, k = run [.lw sp 0 a0] h := ⟨_,rfl⟩
  have frame : k.get sp = c.base := by
    simp (disch := decide) only [k_def,run_cons,run_nil,exec_lw,Hart.set_get_same,offset_zero,argument,asleep.cell]
  have mem : k.mem = h.mem := by simp only [k_def,run_cons,run_nil,exec_lw,Hart.set_mem]
  rw [rt_hw_context_switch_to,← k_def]
  refine ⟨popFrame_restored startTake_between (by rw [mem]; exact asleep.holds) frame ?_,?_,?_⟩
  · rw [startTake_mepc,popFloats_sp,popFloats_mem,frame,mem]
    exact asleep.pc
  · rw [popFrame_mem startTake_between,mem]
  · rw [popFrame_mie startTake_between,Hart.mpie,startTake_mstatus,popFloats_sp,popFloats_mem,frame,mem,slot_slot,
      ← asleep.status,statusAt]
end

theorem isrRestore_spec {h : Hart} {c : Saved} (holds : Holds c.Wanted h.mem c.base c.context)
    (frame : h.get sp = c.base) (pc : h.csr .mepc = c.context.pc) :
    Restored c (isrRestore h) ∧ (isrRestore h).mem = h.mem ∧
      (isrRestore h).mie = (h.mpie || (statusAt h.mem c.base).getLsbD 7) := by
  refine ⟨popFrame_restored isrTake_between holds frame ?_,popFrame_mem isrTake_between h,?_⟩
  · rw [isrTake_mepc,popFloats_csr,pc]
  · rw [isrRestore,popFrame_mie isrTake_between,Hart.mpie,isrTake_mstatus,popFloats_sp,popFloats_mem,popFloats_csr,
      frame,slot_slot,BitVec.getLsbD_or,BitVec.getLsbD_or,statusAt,Hart.mpie]
    simp

/-! ### What happens in an interrupt -/

section
variable (m : Memory) (w : Word)

theorem load_place {p q : Place T} (different : p ≠ q) :
    load (store m (L.address q) w) (L.address p) = load m (L.address p) :=
  load_store_apart m w (L.apart p q different)

variable {base : Word} (clear : Clear L base) {i : Nat} (inside : i < 64)
  (p : Place T)
include clear inside

/-- The words of the kernel are apart from the slots of a frame. -/
theorem place_slot (b : Word) (here : Within (L.address p) 4 b) : ¬ Within (slot base i) 4 b :=
  fun there => clear b (slot_within (n := 64) inside (by decide) there) p here

theorem load_place_slot : load (store m (slot base i) w) (L.address p) = load m (L.address p) :=
  load_store_apart m w (place_slot clear inside p)

theorem load_slot_place : load (store m (L.address p) w) (slot base i) = load m (slot base i) :=
  load_store_apart m w fun b here there => place_slot clear inside p b there here
end

/-- The variables of the interrupt path after requests: the first one says who is
    left, the last one who comes. -/
structure Pending (L : Layout T) (m : Memory) (asked : List (T × T)) : Prop where
  none : asked = [] → load m (L.address .flag) = 0
  some : asked ≠ [] → load m (L.address .flag) ≠ 0
  first : ∀ q, asked.head? = .some q → load m (L.address .source) = L.cell q.1
  last : ∀ q, asked.getLast? = .some q → load m (L.address .target) = L.cell q.2

section
variable {m : Memory} {x y : Word}

theorem noted_eq : noted L.globals m x y =
    store (if load m (L.address .flag) = 0 then store (store m (L.address .flag) 1) (L.address .source) x else m)
      (L.address .target) y := rfl

theorem noted_outside {b : Word} (outside : ∀ p, (∀ t, p ≠ .cell t) → ¬ Within (L.address p) 4 b) :
    noted L.globals m x y b = m b := by
  rw [noted_eq,store_outside _ _ (outside .target nofun)]
  split
  · rw [store_outside _ _ (outside .source nofun),store_outside _ _ (outside .flag nofun)]
  · rfl

theorem noted_flag : load (noted L.globals m x y) (L.address .flag) ≠ 0 := by
  rw [noted_eq,load_place _ _ (by nofun)]
  split
  · rw [load_place _ _ (by nofun),load_store_same]
    decide
  · assumption

theorem noted_source : load (noted L.globals m x y) (L.address .source) =
    if load m (L.address .flag) = 0 then x else load m (L.address .source) := by
  rw [noted_eq,load_place _ _ (by nofun)]
  split
  · rw [load_store_same]
  · rfl

theorem noted_target : load (noted L.globals m x y) (L.address .target) = y := by
  rw [noted_eq,load_store_same]

theorem pending_noted {asked : List (T × T)} (pending : Pending L m asked) (source target : T) :
    Pending L (noted L.globals m (L.cell source) (L.cell target)) (asked ++ [(source,target)]) where
  none empty := by simp at empty
  some _ := noted_flag
  first q head := by
    rw [noted_source]
    cases asked with
    | nil =>
      obtain rfl : (source,target) = q := by simpa using head
      rw [if_pos (pending.none rfl)]
    | cons r rest =>
      rw [if_neg (pending.some (by simp))]
      exact pending.first q (by simpa using head)
  last q tail := by
    obtain rfl : (source,target) = q := by simpa using tail
    exact noted_target

theorem pending_congr {m' : Memory} {asked : List (T × T)} (pending : Pending L m asked)
    (same : ∀ b p, (∀ t, p ≠ .cell t) → Within (L.address p) 4 b → m' b = m b) : Pending L m' asked := by
  have kept : ∀ p, (∀ t, p ≠ .cell t) → load m' (L.address p) = load m (L.address p) :=
    fun p global => load_congr fun b here => same b p global here
  refine ⟨?_,?_,?_,?_⟩
  · rw [kept .flag nofun]; exact pending.none
  · rw [kept .flag nofun]; exact pending.some
  · rw [kept .source nofun]; exact pending.first
  · rw [kept .target nofun]; exact pending.last
end

/-- The state in the midst of an interrupt: what belongs to threads and the `csr` are
    as `ISR_ALL_ASM` has left them, the requests are noted. -/
structure Handling (L : Layout T) (saved : T → Option Saved) (entry h : Hart) (asked : List (T × T)) : Prop where
  quiet : ∀ b, Owned L saved b → h.mem b = entry.mem b
  csr : ∀ c, h.csr c = entry.csr c
  pending : Pending L h.mem asked

section
variable {saved : T → Option Saved} {entry h : Hart} {asked : List (T × T)}
  (placed : ∀ t c, saved t = some c → Clear L c.base)

include placed in
theorem owned_not_global {b : Word} (owned : Owned L saved b) (p : Place T) (global : ∀ t, p ≠ .cell t) :
    ¬ Within (L.address p) 4 b := by
  obtain ⟨t,c,lies,inCell | inFrame⟩ := owned
  · exact L.apart (.cell t) p (fun same => global t same.symm) b inCell
  · exact placed t c lies b inFrame p

theorem owned_not_room {a b : Word} {n : Nat} (room : Room L saved a n) (owned : Owned L saved b) : ¬ Within a n b := by
  obtain ⟨t,c,lies,inCell | inFrame⟩ := owned
  · exact fun here => (room b here).1 (.cell t) inCell
  · exact fun here => (room b here).2 t c lies inFrame

theorem spilled_outside {h : Hart} {b : Word} (outside : ¬ Within (scratch h) 16 b) : spilled h b = h.mem b :=
  lay_outside _ (n := 4) (by decide) outside (by simp)

include placed

theorem act_handling (handling : Handling L saved entry h asked) {a : Act T} (allowed : ActAllowed L saved h a) :
    Handling L saved entry (act L h a).1 (asked ++ requests [a]) := by
  cases a with
  | compute x f mem =>
    refine ⟨fun b owned => ?_,handling.csr,?_⟩
    · exact (allowed b (.inl owned)).trans (handling.quiet b owned)
    · rw [show requests [Act.compute x f mem] = ([] : List (T × T)) from rfl,List.append_nil]
      exact pending_congr handling.pending fun b p global here => allowed b (.inr ⟨p,global,here⟩)
  | request source target =>
    have room : Room L saved (scratch (calling L source target h)) 16 := allowed
    have mem : (act L h (.request source target)).1.mem =
        noted L.globals (spilled (calling L source target h)) (L.cell source) (L.cell target) := by
      rw [act,request_mem fun b here => (room b here).1 .flag,calling_a0,calling_a1]
    have kept : ∀ b, ¬ Within (scratch (calling L source target h)) 16 b →
        spilled (calling L source target h) b = h.mem b := fun b outside => by
      rw [spilled_outside outside,calling_mem]
    refine ⟨fun b owned => ?_,fun c => ?_,?_⟩
    · rw [mem,noted_outside (owned_not_global placed owned),kept b (owned_not_room room owned)]
      exact handling.quiet b owned
    · exact ((request_csr L.globals _ c).trans (calling_csr source target h c)).trans (handling.csr c)
    · rw [mem]
      exact pending_noted (pending_congr handling.pending fun b p _ here =>
        kept b fun inside => (room b inside).1 p here) source target

theorem call_handling {acts : List (Act T)} (handling : Handling L saved entry h asked)
    (allowed : Along (act L) (ActAllowed L saved) h acts) :
    Handling L saved entry (call L acts h) (asked ++ requests acts) := by
  induction acts generalizing h asked with
  | nil => simpa [requests,call,final] using handling
  | cons a rest ih =>
    have later := ih (act_handling placed handling allowed.1) allowed.2
    have split : requests (a :: rest) = requests [a] ++ requests rest := by
      rw [requests,requests,requests,← List.filterMap_append,List.singleton_append]
    rw [split,← List.append_assoc]
    exact later
end

/-! ### The memory after a switch in an interrupt -/

section
variable {m : Memory} {base : Word} (mepc : Word) {cur : T}
  (clear : Clear L base)
  (source : load m (L.address .source) = L.cell cur)
include clear source

theorem switched_eq : switched L.globals m base mepc =
    store (store (store m (L.address .flag) 0) (slot base 32) mepc) (L.address (.cell cur)) base := by
  have found : load (store (store m (L.address .flag) 0) (slot base 32) mepc) (L.address .source) = L.cell cur := by
    rw [load_place_slot _ _ clear (by decide),load_place _ _ (by nofun),source]
  exact congrArg (fun cell => store (store (store m (L.address .flag) 0) (slot base 32) mepc) cell base) found

/-- All slots of the frame but that of `epc` stay. -/
theorem switched_slot {i : Nat} (inside : i < 64) (other : i ≠ 32) :
    load (switched L.globals m base mepc) (slot base i) = load m (slot base i) := by
  rw [switched_eq mepc clear source,load_slot_place _ _ clear inside,
    load_store_apart _ _ (slot_apart other (by omega) (by decide)),load_slot_place _ _ clear inside]

theorem switched_epc : load (switched L.globals m base mepc) (slot base 32) = mepc := by
  rw [switched_eq mepc clear source,load_slot_place _ _ clear (by decide),load_store_same]

theorem switched_cell : load (switched L.globals m base mepc) (L.cell cur) = base := by
  rw [switched_eq mepc clear source]
  exact load_store_same _ _ _

theorem switched_flag : load (switched L.globals m base mepc) (L.address .flag) = 0 := by
  rw [switched_eq mepc clear source,load_place _ _ (by nofun),load_place_slot _ _ clear (by decide),load_store_same]

theorem switched_target : load (switched L.globals m base mepc) (L.address .target) = load m (L.address .target) := by
  rw [switched_eq mepc clear source,load_place _ _ (by nofun),load_place_slot _ _ clear (by decide),
    load_place _ _ (by nofun)]

theorem switched_outside {b : Word} (notFrame : ¬ Within base 256 b)
    (notPlace : ∀ p, (∀ t, p = .cell t → t = cur) → ¬ Within (L.address p) 4 b) :
    switched L.globals m base mepc b = m b := by
  have notSlot : ¬ Within (slot base 32) 4 b := fun here =>
    notFrame (slot_within (n := 64) (by decide) (by decide) here)
  rw [switched_eq mepc clear source,store_outside _ _ (notPlace (.cell cur) (by simp)),store_outside _ _ notSlot,
    store_outside _ _ (notPlace .flag nofun)]
end

/-! ### Threads that leave -/

variable [DecidableEq T]

theorem update_none {saved : T → Option Saved} {t u : T} {c : Saved}
    (lies : Function.update saved t none u = some c) : u ≠ t ∧ saved u = some c := by
  by_cases same : u = t
  · subst same; simp at lies
  · exact ⟨same,by simpa [same] using lies⟩

theorem sound_forget {m : Memory} {saved : T → Option Saved} (sound : Sound L m saved) (t : T) :
    Sound L m (Function.update saved t none) where
  asleep u c lies := sound.asleep u c (update_none lies).2
  places u c lies := sound.places u c (update_none lies).2
  frames u v c d different lies lies' := sound.frames u v c d different (update_none lies).2 (update_none lies').2

/-- A frame for one more thread, in a place of its own. -/
theorem sound_push {m : Memory} {saved : T → Option Saved} {t : T} {c : Saved}
    (sound : Sound L m (Function.update saved t none)) (asleep : Asleep L m t c)
    (room : Room L (Function.update saved t none) c.base 256) : Sound L m (Function.update saved t (some c)) := by
  have other : ∀ {u d}, u ≠ t → Function.update saved t (some c) u = some d →
      Function.update saved t none u = some d := by
    intro u d different lies
    simpa [different] using lies
  have self : ∀ {d}, Function.update saved t (some c) t = some d → d = c := by
    intro d lies
    simpa using lies.symm
  refine ⟨fun u d lies => ?_,fun u d lies b here => ?_,fun u v d e different lies lies' b here => ?_⟩
  · by_cases same : u = t
    · subst same; rw [self lies]; exact asleep
    · exact sound.asleep u d (other same lies)
  · by_cases same : u = t
    · subst same; rw [self lies] at here; exact (room b here).1
    · exact sound.places u d (other same lies) b here
  · by_cases same : u = t
    · subst same
      rw [self lies] at here
      exact (room b here).2 v e (other (Ne.symm different) lies')
    · by_cases same' : v = t
      · subst same'
        rw [self lies']
        exact fun there => (room b there).2 u d (other same lies) here
      · exact sound.frames u v d e different (other same lies) (other same' lies') b here

theorem room_forget {saved : T → Option Saved} {a : Word} {n : Nat} (room : Room L saved a n) (t : T) :
    Room L (Function.update saved t none) a n :=
  fun b here => ⟨(room b here).1,fun u c lies => (room b here).2 u c (update_none lies).2⟩

/-- What belongs to the others is apart from a frame that is pushed, from the stack
    pointer of the thread that leaves and from the variables of the interrupt path. -/
theorem owned_apart {m : Memory} {saved : T → Option Saved} {cur : T} {base b : Word}
    (sound : Sound L m (Function.update saved cur none)) (room : Room L (Function.update saved cur none) base 256)
    (owned : Owned L (Function.update saved cur none) b) :
    ¬ Within base 256 b ∧ ∀ p, (∀ t, p = .cell t → t = cur) → ¬ Within (L.address p) 4 b := by
  obtain ⟨t,c,lies,inCell | inFrame⟩ := owned
  · refine ⟨fun here => (room b here).1 (.cell t) inCell,fun p others => ?_⟩
    exact L.apart (.cell t) p (fun same => (update_none lies).1 (others t same.symm)) b inCell
  · exact ⟨fun here => (room b here).2 t c lies inFrame,fun p _ => sound.places t c lies b inFrame p⟩

/-- After `rt_hw_context_switch` has saved, the thread that called it is asleep like
    the others. -/
theorem switch_sound {s : System T} (cur next : T) (sound : Sound L s.hart.mem s.saved)
    (room : Room L s.saved (pushed s.hart) 256) :
    Sound L (switchSave (calling L cur next s.hart)).mem
      (Function.update s.saved cur (some (switchedOut (calling L cur next s.hart)))) := by
  have others := sound_forget sound cur
  have room := room_forget room cur
  rw [← calling_pushed (L := L) cur next] at room
  have apart : ∀ b, Within ((calling L cur next s.hart).get a0) 4 b →
      ¬ Within (pushed (calling L cur next s.hart)) 256 b := by
    intro b inCell here
    rw [calling_a0] at inCell
    exact (room b here).1 (.cell cur) inCell
  refine sound_push (sound_congr others fun b owned => ?_) ⟨?_,?_,?_,?_⟩ room
  · obtain ⟨notFrame,notPlace⟩ := owned_apart others room owned
    rw [switchSave_outside notFrame (by rw [calling_a0]; exact notPlace (.cell cur) (by simp)),calling_mem]
  · have cell := switchSave_cell apart
    rw [calling_a0] at cell
    exact cell
  · exact switchSave_pc _
  · have holds := switchSave_holds apart
    exact ⟨holds.f,fun r wanted => holds.x r ⟨wanted.1,wanted.2 rfl⟩⟩
  · exact (congrArg (·.getLsbD 7) (switchSave_status _)).trans (savedStatus_mpie _)

/-! ### `ISR_ALL_ASM` -/

section
variable {s : System T} {cur : T} {cause : Word} {enter handler leave : List (Act T)}
  (sound : Sound L s.hart.mem s.saved) (idle : load s.hart.mem (L.address .flag) = 0)
  (allowed : InterruptAllowed L s cur cause enter handler leave)

omit [DecidableEq T] in
theorem entry_outside {b : Word} (outside : ¬ Within (pushed s.hart) 256 b) :
    (isrSave L.globals (trap cause s.hart)).mem b = s.hart.mem b := by
  have notFrame : ¬ Within (pushed (trap cause s.hart)) 256 b := outside
  rw [isrSave_outside L.globals _ notFrame,trap_mem]

include sound allowed

/-- The frame of the interrupted thread is apart from the words of the kernel like
    those of the others. -/
theorem interrupt_placed (t : T) (c : Saved)
    (lies : Function.update s.saved cur (some (interrupted s.hart)) t = some c) (b : Word) (here : Within c.base 256 b)
    (p : Place T) : ¬ Within (L.address p) 4 b := by
  by_cases same : t = cur
  · subst same
    obtain rfl : interrupted s.hart = c := by simpa using lies
    exact (allowed.room b here).1 p
  · exact sound.places t c (by simpa [same] using lies) b here p

include idle

/-- At the return of `rt_interrupt_leave` all requests are noted. -/
theorem interrupt_handled : Handling L (Function.update s.saved cur (some (interrupted s.hart)))
    (isrSave L.globals (trap cause s.hart)) (isrHandled L cause enter handler leave s.hart)
    (requests (enter ++ handler ++ leave)) := by
  have placed := interrupt_placed sound allowed
  have quietFlag : load (isrSave L.globals (trap cause s.hart)).mem (L.address .flag) = 0 := by
    rw [← idle]
    exact load_congr fun b here => entry_outside fun inside => (allowed.room b inside).1 .flag here
  have start : Handling L (Function.update s.saved cur (some (interrupted s.hart)))
      (isrSave L.globals (trap cause s.hart)) (isrSave L.globals (trap cause s.hart)) [] :=
    ⟨fun _ _ => rfl,fun _ => rfl,⟨fun _ => quietFlag,fun absurd => (absurd rfl).elim,nofun,nofun⟩⟩
  have entered := call_handling placed start allowed.calls.entered.each
  have arguments : Handling L (Function.update s.saved cur (some (interrupted s.hart)))
      (isrSave L.globals (trap cause s.hart)) (isrArguments (call L enter (isrSave L.globals (trap cause s.hart))))
      ([] ++ requests enter) :=
    ⟨entered.quiet,entered.csr,entered.pending⟩
  have handled := call_handling placed arguments allowed.calls.handled.each
  have left := call_handling placed handled allowed.calls.left.each
  have split : requests (enter ++ handler ++ leave) = [] ++ requests enter ++ requests handler ++ requests leave := by
    simp only [requests,List.filterMap_append,List.nil_append]
  rw [split]
  exact left

omit idle sound in
theorem handled_s0 : (isrHandled L cause enter handler leave s.hart).get s0 = pushed s.hart := by
  have saved : CalleeSaved s0 := .inr (.inl rfl)
  rw [isrHandled,allowed.calls.left.kept s0 saved,allowed.calls.handled.kept s0 saved]
  have arguments (h : Hart) : (isrArguments h).get s0 = h.get s0 := by
    simp (disch := decide) only [isrArguments,run_cons,run_nil,exec_csrr,exec_mv,Hart.set_get_other]
  rw [arguments,allowed.calls.entered.kept s0 saved,isrSave_s0]
  rfl

/-- The registers of the interrupted thread are still in its frame. -/
theorem handled_holds : Holds (interrupted s.hart).Wanted (isrHandled L cause enter handler leave s.hart).mem
    (interrupted s.hart).base (interrupted s.hart).context := by
  have entry := isrSave_holds L.globals (trap cause s.hart) s.hart.pc
  have handling := interrupt_handled sound idle allowed
  have kept : Holds Carried (isrHandled L cause enter handler leave s.hart).mem (pushed s.hart)
      (interrupted s.hart).context :=
    holds_congr (fun b here => handling.quiet b ⟨cur,_,Function.update_self ..,.inr here⟩) entry
  exact ⟨kept.f,fun r wanted => kept.x r wanted.1⟩

theorem handled_status :
    (statusAt (isrHandled L cause enter handler leave s.hart).mem (pushed s.hart)).getLsbD 7 = true := by
  have handling := interrupt_handled sound idle allowed
  have kept : statusAt (isrHandled L cause enter handler leave s.hart).mem (pushed s.hart) =
      statusAt (isrSave L.globals (trap cause s.hart)).mem (pushed s.hart) :=
    frame_load (fun b here => handling.quiet b ⟨cur,_,Function.update_self ..,.inr here⟩) (by decide)
  rw [kept,show statusAt _ (pushed s.hart) = 0x80 from isrSave_status L.globals (trap cause s.hart)]
  decide

/-- The other threads are still asleep. -/
theorem handled_others :
    Sound L (isrHandled L cause enter handler leave s.hart).mem (Function.update s.saved cur none) := by
  have others := sound_forget sound cur
  have handling := interrupt_handled sound idle allowed
  refine sound_congr others fun b owned => ?_
  have notFrame := (owned_apart others (room_forget allowed.room cur) owned).1
  obtain ⟨t,c,lies,here⟩ := owned
  obtain ⟨different,lies⟩ := update_none lies
  rw [handling.quiet b ⟨t,c,by simpa [different] using lies,here⟩]
  exact entry_outside notFrame

theorem handled_mpie : (isrHandled L cause enter handler leave s.hart).mpie = true := by
  have handling := interrupt_handled sound idle allowed
  rw [Hart.mpie,handling.csr,isrSave_csr]
  exact (mpie_trap cause s.hart).trans allowed.enabled

theorem handled_mepc : (isrHandled L cause enter handler leave s.hart).csr .mepc = s.hart.pc := by
  have handling := interrupt_handled sound idle allowed
  rw [handling.csr,isrSave_csr,trap_mepc]

end

/-- After an event `t` runs with what it was switched out with, and the others are
    asleep. -/
structure Resumed (L : Layout T) (out : T → Option Saved) (t : T) (c : Saved) (h : Hart) : Prop where
  lies : out t = some c
  restored : Restored c h
  sound : Sound L h.mem (Function.update out t none)
  idle : load h.mem (L.address .flag) = 0

section
variable {s : System T} {cur : T} {cause : Word} {enter handler leave : List (Act T)}
  (sound : Sound L s.hart.mem s.saved) (idle : load s.hart.mem (L.address .flag) = 0)
  (allowed : InterruptAllowed L s cur cause enter handler leave)
include sound idle allowed

/-- An interrupt without a request resumes the interrupted thread. -/
theorem interrupt_unrequested (empty : requests (enter ++ handler ++ leave) = []) :
    Resumed L (Function.update s.saved cur (some (interrupted s.hart))) cur (interrupted s.hart)
      (ISR_ALL_ASM L cause enter handler leave s.hart) ∧
      (ISR_ALL_ASM L cause enter handler leave s.hart).mie = true := by
  have flag := (interrupt_handled sound idle allowed).pending.none empty
  obtain ⟨frame,mem,csr⟩ := isrSwitch_none L.globals _ flag
  rw [handled_s0 allowed] at frame
  have holds := handled_holds sound idle allowed
  rw [← mem] at holds
  have mepc := (csr .mepc).trans (handled_mepc sound idle allowed)
  obtain ⟨restored,kept,mie⟩ := isrRestore_spec holds frame mepc
  refine ⟨⟨Function.update_self ..,restored,?_,?_⟩,?_⟩
  · rw [Function.update_idem,ISR_ALL_ASM,kept,mem]
    exact handled_others sound idle allowed
  · rw [ISR_ALL_ASM,kept,mem,flag]
  · rw [ISR_ALL_ASM,mie,Hart.mpie,csr,← Hart.mpie,handled_mpie sound idle allowed,Bool.true_or]

/-- After the switch of the interrupt path all threads are asleep, the interrupted
    one included. -/
theorem interrupt_sound
    (source : load (isrHandled L cause enter handler leave s.hart).mem (L.address .source) = L.cell cur) :
    Sound L (switched L.globals (isrHandled L cause enter handler leave s.hart).mem (pushed s.hart) s.hart.pc)
      (Function.update s.saved cur (some (interrupted s.hart))) := by
  have others := handled_others sound idle allowed
  have room := room_forget allowed.room cur
  have clear : Clear L (pushed s.hart) := fun b here => (allowed.room b here).1
  have holds := handled_holds sound idle allowed
  refine sound_push (sound_congr others fun b owned => ?_) ⟨?_,?_,⟨?_,?_⟩,?_⟩ room
  · obtain ⟨notFrame,notPlace⟩ := owned_apart others room owned
    exact switched_outside s.hart.pc clear source notFrame notPlace
  · exact switched_cell s.hart.pc clear source
  · exact switched_epc s.hart.pc clear source
  · intro r
    have := r.isLt
    exact (switched_slot s.hart.pc clear source (by omega) (by omega)).trans (holds.f r)
  · intro r wanted
    rw [← holds.x r wanted]
    simp only [frameAt]
    split
    · rfl
    · have := r.isLt
      have nonzero : r.val ≠ 0 := by
        rcases wanted.1 with rfl | rfl | high
        · decide
        · decide
        · omega
      exact switched_slot s.hart.pc clear source (by omega) (by omega)
  · have status := switched_slot s.hart.pc clear source (i := 34) (by decide) (by decide)
    have bit := handled_status sound idle allowed
    rw [statusAt,← status] at bit
    exact bit.trans allowed.enabled.symm

/-- An interrupt with requests resumes the thread requested last. -/
theorem interrupt_requested {q : T × T} (last : (requests (enter ++ handler ++ leave)).getLast? = some q) :
    ∃ c, Resumed L (Function.update s.saved cur (some (interrupted s.hart))) q.2 c
      (ISR_ALL_ASM L cause enter handler leave s.hart) ∧
      (ISR_ALL_ASM L cause enter handler leave s.hart).mie = true := by
  have pending := (interrupt_handled sound idle allowed).pending
  have nonempty : requests (enter ++ handler ++ leave) ≠ [] := by
    intro empty
    rw [empty] at last
    cases last
  obtain ⟨first,rest,asked⟩ := List.exists_cons_of_ne_nil nonempty
  have source : load (isrHandled L cause enter handler leave s.hart).mem (L.address .source) = L.cell cur := by
    rw [pending.first first (by rw [asked]; rfl),allowed.first first (by rw [asked]; rfl)]
  have clear : Clear L (pushed s.hart) := fun b here => (allowed.room b here).1
  have all := interrupt_sound sound idle allowed source
  obtain ⟨c,lies⟩ : ∃ c, Function.update s.saved cur (some (interrupted s.hart)) q.2 = some c := by
    by_cases same : q.2 = cur
    · exact ⟨_,by rw [same]; exact Function.update_self ..⟩
    · obtain ⟨c,lies⟩ := allowed.last q last same
      exact ⟨c,by simpa [same] using lies⟩
  have asleep := all.asleep q.2 c lies
  obtain ⟨frame,mem,mepc,mstatus⟩ := isrSwitch_some L.globals (isrHandled L cause enter handler leave s.hart)
    (pending.some nonempty)
  rw [handled_s0 allowed,handled_mepc sound idle allowed] at frame mem mepc
  have target := (switched_target s.hart.pc clear source).trans (pending.last q last)
  have found : load (switched L.globals (isrHandled L cause enter handler leave s.hart).mem (pushed s.hart) s.hart.pc)
      (load (switched L.globals (isrHandled L cause enter handler leave s.hart).mem (pushed s.hart) s.hart.pc)
        L.globals.rt_interrupt_to_thread) = c.base :=
    (congrArg (load _) target).trans asleep.cell
  rw [found] at frame mepc
  have holds := asleep.holds
  rw [← mem] at holds
  obtain ⟨restored,kept,mie⟩ := isrRestore_spec holds frame (mepc.trans asleep.pc)
  refine ⟨c,⟨lies,restored,?_,?_⟩,?_⟩
  · rw [ISR_ALL_ASM,kept,mem]
    exact sound_forget all q.2
  · rw [ISR_ALL_ASM,kept,mem]
    exact switched_flag s.hart.pc clear source
  · rw [ISR_ALL_ASM,mie,Hart.mpie,mstatus,← Hart.mpie,handled_mpie sound idle allowed,Bool.true_or]
end

end Ucm108e.Sleeping
