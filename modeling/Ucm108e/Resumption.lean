import Mathlib
import Ucm108e.Sleeping

/-!
Whole runs of threads. Each thread that comes goes on with the `pc` and the registers
it was switched out with, through whatever mix of switches and interrupts
(`contexts_survive`). Its interrupt enable bit does not come back in general: the
restores only ever set bits of `mstatus`, and `MPIE`, from which `mret` takes `MIE`, is
left set by whoever ran before (`mie_kept_iff`).
-/
namespace Ucm108e.Resumption
open Ucm108e.Machine
open Ucm108e.Words
open Ucm108e.Rv32
open Ucm108e.ContextSwitch
open Ucm108e.Frames
open Ucm108e.Threads
open Ucm108e.Sleeping
set_option linter.unusedSimpArgs false

variable {T : Type} [DecidableEq T] {L : Layout T}

/-! ### One event -/

section
variable {s : System T} (sound : Sound L s.hart.mem s.saved) (idle : load s.hart.mem (L.address .flag) = 0)
include sound idle

/-- `rt_hw_context_switch_to` enters a thread from its frame. -/
theorem start_resumes {t : T} {c : Saved} (lies : s.saved t = some c) :
    Resumed L s.saved t c (rt_hw_context_switch_to (s.hart.set a0 (L.cell t))) ∧
      (rt_hw_context_switch_to (s.hart.set a0 (L.cell t))).mie = c.mie := by
  have asleep : Asleep L (s.hart.set a0 (L.cell t)).mem t c := sound.asleep t c lies
  obtain ⟨restored,mem,mie⟩ := start_spec asleep (Hart.set_get_same _ _ _ (by decide))
  rw [Hart.set_mem] at mem
  refine ⟨⟨lies,restored,?_,?_⟩,mie⟩
  · rw [mem]; exact sound_forget sound t
  · rw [mem]; exact idle

/-- `rt_hw_context_switch` leaves the running thread asleep and resumes the other. -/
theorem switch_resumes {cur next : T} (there : next ≠ cur → ∃ c, s.saved next = some c)
    (room : Room L s.saved (pushed s.hart) 256) :
    ∃ c, Resumed L (Function.update s.saved cur (some (switchedOut (calling L cur next s.hart)))) next c
        (rt_hw_context_switch (calling L cur next s.hart)) ∧
      (rt_hw_context_switch (calling L cur next s.hart)).mie = (s.hart.mpie || c.mie) := by
  have all := switch_sound cur next sound room
  obtain ⟨c,lies⟩ :
      ∃ c, Function.update s.saved cur (some (switchedOut (calling L cur next s.hart))) next = some c := by
    by_cases same : next = cur
    · exact ⟨_,by rw [same]; exact Function.update_self ..⟩
    · obtain ⟨c,lies⟩ := there same
      exact ⟨c,by simpa [same] using lies⟩
  have argument : (switchSave (calling L cur next s.hart)).get a1 = L.cell next := by
    rw [switchSave_get (by decide) (by decide),calling_a1]
  obtain ⟨restored,mem,mie⟩ := switchRestore_spec (all.asleep next c lies) argument
  refine ⟨c,⟨lies,restored,?_,?_⟩,?_⟩
  · rw [rt_hw_context_switch,mem]
    exact sound_forget all next
  · rw [rt_hw_context_switch,mem,← idle]
    refine load_congr fun b here => ?_
    have notFrame : ¬ Within (pushed (calling L cur next s.hart)) 256 b := by
      rw [calling_pushed]
      exact fun inside => (room b inside).1 .flag here
    rw [switchSave_outside notFrame (by rw [calling_a0]; exact L.apart .flag (.cell cur) nofun b here),calling_mem]
  · rw [rt_hw_context_switch,mie,Hart.mpie,switchSave_csr,calling_csr,← Hart.mpie]

omit [DecidableEq T] sound idle in
theorem created_base (tentry parameter texit stk : Word) :
    (⟨.created,initial tentry parameter texit stk,true⟩ : Saved).base = stk := by
  show slot stk 64-256 = stk
  unfold slot; bv_omega

omit idle in
/-- A new thread is asleep in the frame that `rt_hw_stack_init` builds. -/
theorem create_sound {t : T} (tentry parameter stack_addr texit : Word)
    (room : Room L s.saved (rt_hw_stack_init s.hart.mem tentry parameter stack_addr texit).1 256) :
    Sound L (store (rt_hw_stack_init s.hart.mem tentry parameter stack_addr texit).2 (L.cell t)
        (rt_hw_stack_init s.hart.mem tentry parameter stack_addr texit).1)
      (Function.update s.saved t (some ⟨.created,initial tentry parameter texit
        (rt_hw_stack_init s.hart.mem tentry parameter stack_addr texit).1,true⟩)) := by
  obtain ⟨stk,stk_def⟩ : ∃ stk, stk = (rt_hw_stack_init s.hart.mem tentry parameter stack_addr texit).1 := ⟨_,rfl⟩
  have base := created_base tentry parameter texit stk
  have holds := stack_init_holds s.hart.mem tentry parameter stack_addr texit
  have named {i : Nat} {w : Word} := stack_init_named s.hart.mem tentry parameter stack_addr texit (i := i) (w := w)
  have outside {b : Word} := stack_init_outside s.hart.mem tentry parameter stack_addr texit (b := b)
  rw [← stk_def] at room holds outside ⊢
  simp only [← stk_def] at named
  have others := sound_forget sound t
  have room := room_forget room t
  have clear : ∀ b, Within stk 256 b → ∀ p, ¬ Within (L.address p) 4 b := fun b here => (room b here).1
  have kept : ∀ b, Within stk 256 b → store (rt_hw_stack_init s.hart.mem tentry parameter stack_addr texit).2
      (L.cell t) stk b = (rt_hw_stack_init s.hart.mem tentry parameter stack_addr texit).2 b :=
    fun b here => store_outside _ _ (clear b here (.cell t))
  refine sound_push (sound_congr others fun b owned => ?_) ⟨?_,?_,?_,?_⟩ (by rw [base]; exact room)
  · obtain ⟨notFrame,notPlace⟩ := owned_apart others room owned
    exact (store_outside _ _ (notPlace (.cell t) (by simp))).trans (outside notFrame)
  · rw [base]; exact load_store_same _ _ _
  · rw [base]
    exact (frame_load kept (by decide)).trans (named (by simp [initial]))
  · rw [base]
    have all := holds_congr kept holds
    exact ⟨all.f,fun r wanted => all.x r wanted.1⟩
  · rw [base,statusAt,frame_load kept (by decide),named (i := 34) (w := 0x1880) (by simp)]
    rfl
end

/-- What holds of every state: the threads that do not run are asleep, no request is
    open, and a thread that has not run yet starts with interrupts enabled. -/
structure Inv (L : Layout T) (s : System T) : Prop where
  sound : Sound L s.hart.mem s.saved
  idle : load s.hart.mem (L.address .flag) = 0
  fresh : ∀ t c, s.saved t = some c → c.way = .created → c.mie = true

/-- `MIE` of the thread that comes. -/
def resumedMie (s : System T) (c : Saved) : Event T → Bool
  | .switch _ => s.hart.mpie || c.mie
  | .interrupt .. => true
  | _ => c.mie

section
variable {s : System T} {e : Event T} (inv : Inv L s) (allowed : Allowed L s e)
include inv allowed

theorem step_resumes {t : T} (comes : incoming s e = some t) :
    ∃ c, Resumed L (outgoing L s e) t c (execute L s e) ∧ (execute L s e).mie = resumedMie s c e := by
  cases e with
  | create t tentry parameter stack_addr texit => cases comes
  | compute h => cases comes
  | start u =>
    obtain ⟨_,c,lies⟩ := allowed
    obtain rfl : u = t := by simpa [incoming] using comes
    exact ⟨c,start_resumes inv.sound inv.idle lies⟩
  | switch next =>
    obtain ⟨cur,running,there,room⟩ := allowed
    simp only [incoming,outgoing,execute,running] at comes ⊢
    obtain rfl : next = t := by simpa using comes
    exact switch_resumes inv.sound inv.idle there room
  | interrupt cause enter handler leave =>
    obtain ⟨cur,allowed⟩ := allowed
    simp only [incoming,outgoing,execute,allowed.running] at comes ⊢
    cases asked : (requests (enter ++ handler ++ leave)).getLast? with
    | none =>
      rw [asked] at comes
      obtain rfl : cur = t := by simpa using comes
      exact ⟨_,interrupt_unrequested inv.sound inv.idle allowed (List.getLast?_eq_none_iff.mp asked)⟩
    | some q =>
      rw [asked] at comes
      obtain rfl : q.2 = t := by simpa using comes
      exact interrupt_requested inv.sound inv.idle allowed asked

omit allowed in
theorem outgoing_fresh {t : T} {c : Saved} (lies : outgoing L s e t = some c) (created : c.way = .created) :
    c.mie = true := by
  have updated : ∀ {cur : T} {d : Saved}, d.way ≠ .created → Function.update s.saved cur (some d) t = some c →
      c.mie = true := by
    intro cur d other lies
    by_cases same : t = cur
    · subst same
      obtain rfl : d = c := by simpa using lies
      exact (other created).elim
    · exact inv.fresh t c (by simpa [same] using lies) created
  cases e with
  | create | start | compute => exact inv.fresh t c lies created
  | switch next =>
    cases running : s.current <;> simp only [outgoing,running] at lies
    · exact inv.fresh t c lies created
    · exact updated (by simp [switchedOut]) lies
  | interrupt =>
    cases running : s.current <;> simp only [outgoing,running] at lies
    · exact inv.fresh t c lies created
    · exact updated (by simp [interrupted]) lies

omit inv in
/-- Whoever comes and however, `MPIE` is set. -/
theorem resumed_mpie {t : T} (comes : incoming s e = some t) : (execute L s e).mpie = true := by
  cases e with
  | create | compute => cases comes
  | start => exact popFrame_mpie _ _
  | switch =>
    obtain ⟨cur,running,_⟩ := allowed
    simp only [execute,running]
    exact popFrame_mpie _ _
  | interrupt =>
    obtain ⟨cur,allowed⟩ := allowed
    simp only [execute,allowed.running]
    exact popFrame_mpie _ _

theorem step_inv : Inv L (step L s e).1 := by
  cases comes : incoming s e with
  | some t =>
    obtain ⟨c,resumed,_⟩ := step_resumes inv allowed comes
    have rest : remaining L s e = Function.update (outgoing L s e) t none := by
      cases e with
      | create => cases comes
      | start | compute | switch | interrupt => simp only [remaining,comes]
    refine ⟨?_,resumed.idle,fun u d lies created => ?_⟩
    · rw [step,rest]
      exact resumed.sound
    · rw [step,rest] at lies
      exact outgoing_fresh inv (update_none lies).2 created
  | none =>
    cases e with
    | start => cases comes
    | switch next =>
      obtain ⟨cur,running,_⟩ := allowed
      simp [incoming,running] at comes
    | interrupt =>
      obtain ⟨cur,allowed⟩ := allowed
      simp [incoming,allowed.running] at comes
    | compute h =>
      have respects : Respects L s.saved s.hart.mem h.mem := allowed
      refine ⟨sound_congr inv.sound fun b owned => respects b (.inl owned),?_,inv.fresh⟩
      rw [← inv.idle]
      exact load_congr fun b here => respects b (.inr ⟨.flag,nofun,here⟩)
    | create t tentry parameter stack_addr texit =>
      obtain ⟨_,_,room⟩ := allowed
      refine ⟨create_sound inv.sound tentry parameter stack_addr texit room,?_,fun u c lies created => ?_⟩
      · rw [← inv.idle]
        refine load_congr fun b here => ?_
        exact (store_outside _ _ (L.apart .flag (.cell t) nofun b here)).trans
          (stack_init_outside _ _ _ _ _ fun inside => (room b inside).1 .flag here)
      · by_cases same : u = t
        · subst same
          simp only [step,remaining,Function.update_self,Option.some.injEq] at lies
          rw [← lies]
        · exact inv.fresh u c (by simpa [step,remaining,same] using lies) created
end

omit [DecidableEq T] in
theorem boot_inv {h : Hart} (idle : load h.mem (L.address .flag) = 0) : Inv L (boot h) :=
  ⟨⟨nofun,nofun,nofun⟩,idle,nofun⟩

/-! ### Whole runs -/

/-- The thread that comes, at the end of an interrupt the one requested last, goes on
    with the `pc` and the registers it was switched out with. -/
def Survives (L : Layout T) (s : System T) (e : Event T) : Prop :=
  ∀ t, incoming s e = some t →
    (step L s e).1.current = some t ∧ ∃ c, outgoing L s e t = some c ∧ Restored c (step L s e).1.hart

theorem contexts_survive (L : Layout T) {h : Hart} (idle : load h.mem (L.address .flag) = 0) {events : List (Event T)}
    (allowed : Along (step L) (Allowed L) (boot h) events) : Along (step L) (Survives L) (boot h) events := by
  refine along_invariant (I := Inv L) (fun s e inv meets => step_inv inv meets) (fun s e inv meets t comes => ?_)
    (boot_inv idle) allowed
  obtain ⟨c,resumed,_⟩ := step_resumes inv meets comes
  refine ⟨?_,c,resumed.lies,resumed.restored⟩
  simp [step,comes]

/-- The thread that comes has the `MIE` it was switched out with. -/
def MieKept (L : Layout T) (s : System T) (e : Event T) : Prop :=
  ∀ t c, incoming s e = some t → outgoing L s e t = some c → c.way ≠ .created → (step L s e).1.hart.mie = c.mie

/-- No interrupt resumes a thread that was switched out with interrupts disabled, and
    `rt_hw_context_switch` does so only while `MPIE` is clear. -/
def MieSafe (L : Layout T) (s : System T) (e : Event T) : Prop :=
  ∀ t c, incoming s e = some t → outgoing L s e t = some c → c.mie = false →
    match e with
    | .switch _ => s.hart.mpie = false
    | .interrupt .. => False
    | _ => True

theorem mie_kept_iff (L : Layout T) {h : Hart} (idle : load h.mem (L.address .flag) = 0) {events : List (Event T)}
    (allowed : Along (step L) (Allowed L) (boot h) events) :
    Along (step L) (MieKept L) (boot h) events ↔ Along (step L) (MieSafe L) (boot h) events := by
  refine along_congr (I := Inv L) (fun s e inv meets => step_inv inv meets) (fun s e inv meets => ?_)
    (boot_inv idle) allowed
  refine forall_congr' fun t => forall_congr' fun c => forall_congr' fun comes => forall_congr' fun lies => ?_
  obtain ⟨d,resumed,mie⟩ := step_resumes inv meets comes
  obtain rfl : d = c := Option.some.inj (resumed.lies.symm.trans lies)
  have known : d.mie = false → d.way ≠ .created := fun off created => by
    rw [outgoing_fresh inv lies created] at off
    cases off
  rw [show (step L s e).1.hart.mie = resumedMie s d e from mie]
  cases on : d.mie with
  | true =>
    have same : resumedMie s d e = true := by cases e <;> simp [resumedMie,on]
    simp [same]
  | false =>
    have left := known on
    cases e <;> simp [resumedMie,on,left]

/-! ### Two threads -/

/-- The words of the kernel for two threads, one after the other. -/
def index : Place Bool → Nat
  | .cell t => t.toNat
  | .flag => 2
  | .source => 3
  | .target => 4

theorem index_small (p : Place Bool) : index p < 5 := by
  rcases p with (_ | _) | _ | _ | _ <;> decide

theorem index_ne {p q : Place Bool} (different : p ≠ q) : index p ≠ index q := by
  rcases p with (_ | _) | _ | _ | _ <;> rcases q with (_ | _) | _ | _ | _ <;> simp_all [index]

def pairGlobals : Globals := ⟨slot 0x100 2,slot 0x100 3,slot 0x100 4,0x1000⟩

theorem pair_address (p : Place Bool) : p.address (fun t => slot 0x100 t.toNat) pairGlobals = slot 0x100 (index p) := by
  rcases p with t | _ | _ | _ <;> rfl

def pair : Layout Bool where
  cell t := slot 0x100 t.toNat
  globals := pairGlobals
  apart p q different b := by
    have first := index_small p
    have second := index_small q
    rw [pair_address,pair_address]
    exact slot_apart (index_ne different) (by omega) (by omega) b

/-- Where the first frames of the two lie. -/
def frameOf : Bool → Word
  | false => 0x1f00
  | true => 0x2f00

theorem frameOf_places (t : Bool) (b : Word) (here : Within (frameOf t) 256 b) (p : Place Bool) :
    ¬ Within (pair.address p) 4 b := by
  have small := index_small p
  rw [show pair.address p = slot 0x100 (index p) from pair_address p]
  unfold Within slot at *
  cases t <;> simp only [frameOf] at here <;> bv_omega

theorem frameOf_apart (t : Bool) (b : Word) (here : Within (frameOf t) 256 b) : ¬ Within (frameOf !t) 256 b := by
  unfold Within at *
  cases t <;> simp only [frameOf,Bool.not_false,Bool.not_true] at here ⊢ <;> bv_omega

/-- There is room for the first frame of a thread while only the other sleeps, in its
    own. -/
theorem pair_room {saved : Bool → Option Saved} {t : Bool} (self : saved t = none)
    (other : ∀ c, saved (!t) = some c → c.base = frameOf !t) : Room pair saved (frameOf t) 256 := by
  refine fun b here => ⟨frameOf_places t b here,fun u c lies => ?_⟩
  obtain rfl | rfl : u = t ∨ u = !t := by cases u <;> cases t <;> simp
  · rw [self] at lies; cases lies
  · rw [other c lies]; exact frameOf_apart t b here

def blank : Hart := ⟨fun _ => 0,fun _ => 0,0,fun _ => 0,fun _ => 0⟩

def new (t : Bool) : Event Bool := .create t 0x4000 0 (frameOf t+0x100) 0x5000

theorem new_frame (t : Bool) (m : Memory) : (rt_hw_stack_init m 0x4000 0 (frameOf t+0x100) 0x5000).1 = frameOf t := by
  cases t <;> rfl

/-- Thread `t` runs with its stack as it was given, the other one sleeps in its own. -/
structure Turn (t : Bool) (s : System Bool) : Prop where
  inv : Inv pair s
  running : s.current = some t
  self : s.saved t = none
  other : ∃ c, s.saved (!t) = some c ∧ c.base = frameOf !t
  stack : pushed s.hart = frameOf t
  mpie : s.hart.mpie = true

theorem Turn.room {t : Bool} {s : System Bool} (turn : Turn t s) : Room pair s.saved (pushed s.hart) 256 := by
  obtain ⟨c,lies,base⟩ := turn.other
  rw [turn.stack]
  refine pair_room turn.self fun d same => ?_
  rw [lies] at same
  cases same
  exact base

theorem resumed_stack {out : Bool → Option Saved} {t : Bool} {c : Saved} {h : Hart} (resumed : Resumed pair out t c h) :
    pushed h = c.base := by
  rw [pushed,resumed.restored.x sp ⟨.inr (.inl rfl),fun _ => by decide⟩,Saved.base]

theorem respects_same (saved : Bool → Option Saved) (m : Memory) : Respects pair saved m m := fun _ _ => rfl

/-- `rt_hw_interrupt_disable` in a thread. -/
def disable (s : System Bool) : Event Bool := .compute (rt_hw_interrupt_disable s.hart)

theorem disable_saved (s : System Bool) : (step pair s (disable s)).1.saved = s.saved := rfl

theorem turn_disable {t : Bool} {s : System Bool} (turn : Turn t s) :
    Allowed pair s (disable s) ∧ Turn t (step pair s (disable s)).1 ∧ (step pair s (disable s)).1.hart.mie = false := by
  have allowed : Allowed pair s (disable s) := respects_same s.saved s.hart.mem
  refine ⟨allowed,⟨step_inv turn.inv allowed,turn.running,turn.self,turn.other,?_,?_⟩,?_⟩
  · rw [← turn.stack]
    simp (disch := decide) only [pushed,step,disable,execute,rt_hw_interrupt_disable,Hart.setCsr_get,Hart.set_get_other]
  · have kept := turn.mpie
    simp only [Hart.mpie] at kept ⊢
    simp [step,disable,execute,rt_hw_interrupt_disable,kept]
  · simp [step,disable,execute,rt_hw_interrupt_disable,Hart.mie]

theorem turn_switch {t : Bool} {s : System Bool} (turn : Turn t s) :
    Allowed pair s (.switch !t) ∧ Turn (!t) (step pair s (.switch !t)).1 ∧
      (step pair s (.switch !t)).1.hart.mie = true ∧
      ∃ c, (step pair s (.switch !t)).1.saved t = some c ∧ c.way = .switched ∧ c.mie = s.hart.mie := by
  obtain ⟨c,lies,base⟩ := turn.other
  have allowed : Allowed pair s (.switch !t) := ⟨t,turn.running,fun _ => ⟨c,lies⟩,turn.room⟩
  have comes : incoming s (.switch !t) = some !t := by simp [incoming,turn.running]
  obtain ⟨d,resumed,mie⟩ := step_resumes turn.inv allowed comes
  have same : d = c := by
    have := resumed.lies
    simpa [outgoing,turn.running,lies] using this.symm
  have left : (step pair s (.switch !t)).1.saved t = some (switchedOut (calling pair t (!t) s.hart)) := by
    simp [step,remaining,comes,outgoing,turn.running]
  refine ⟨allowed,⟨step_inv turn.inv allowed,by simp [step,comes],?_,?_,?_,resumed_mpie allowed comes⟩,?_,_,left,rfl,?_⟩
  · simp [step,remaining,comes]
  · refine ⟨_,by rw [Bool.not_not]; exact left,?_⟩
    rw [Bool.not_not,← turn.stack]
    exact calling_pushed (L := pair) t (!t) s.hart
  · rw [← base,← same]
    exact resumed_stack resumed
  · exact mie.trans (by rw [resumedMie,turn.mpie,Bool.true_or])
  · rw [switchedOut,Hart.mie,calling_csr,Hart.mie]

theorem blank_idle : load blank.mem (pair.address .flag) = 0 := by
  simp [load,blank,ofBytes]

def begin : List (Event Bool) := [new false,new true,.start false]

theorem new_allowed {t : Bool} {s : System Bool} (current : s.current = none) (self : s.saved t = none)
    (other : ∀ c, s.saved (!t) = some c → c.base = frameOf !t) : Allowed pair s (new t) := by
  refine ⟨self,by simp [current],?_⟩
  rw [new_frame]
  exact pair_room self other

theorem turn_begin : Along (step pair) (Allowed pair) (boot blank) begin ∧
    Turn false (final (step pair) (boot blank) begin) := by
  obtain ⟨s,s_def⟩ : ∃ s, s = (step pair (boot blank) (new false)).1 := ⟨_,rfl⟩
  obtain ⟨u,u_def⟩ : ∃ u, u = (step pair s (new true)).1 := ⟨_,rfl⟩
  obtain ⟨c,c_def⟩ : ∃ c : Bool → Saved, c = fun t => ⟨.created,initial 0x4000 0 0x5000 (frameOf t),true⟩ := ⟨_,rfl⟩
  have base : ∀ t, (c t).base = frameOf t := fun t => by rw [c_def]; exact created_base _ _ _ _
  have first : Allowed pair (boot blank) (new false) := new_allowed rfl rfl nofun
  have s_saved : s.saved = Function.update (fun _ => none) false (some (c false)) := by
    rw [s_def,c_def]
    simp only [step,remaining,new,new_frame,boot]
  have second : Allowed pair s (new true) := by
    refine new_allowed (by rw [s_def]; rfl) (by rw [s_saved]; rfl) fun d lies => ?_
    rw [s_saved] at lies
    obtain rfl : c false = d := by simpa using lies
    exact base false
  have u_saved : u.saved = Function.update s.saved true (some (c true)) := by
    rw [u_def,c_def]
    simp only [step,remaining,new,new_frame]
  have third : Allowed pair u (.start false) :=
    ⟨by rw [u_def,s_def]; rfl,c false,by rw [u_saved,s_saved]; rfl⟩
  have inv : Inv pair u := by
    have before := step_inv (boot_inv blank_idle) first
    rw [← s_def] at before
    rw [u_def]
    exact step_inv before second
  obtain ⟨d,resumed,_⟩ := step_resumes inv third rfl
  have mpie := resumed_mpie third rfl
  have same : d = c false := by
    have lies := resumed.lies
    simpa [outgoing,u_saved,s_saved] using lies.symm
  have ends : final (step pair) (boot blank) begin = (step pair u (.start false)).1 := by
    rw [u_def,s_def]; rfl
  refine ⟨?_,?_⟩
  · refine ⟨first,?_,?_,trivial⟩
    · rw [← s_def]; exact second
    · rw [← s_def,← u_def]; exact third
  · rw [ends]
    refine ⟨step_inv inv third,rfl,by simp [step,remaining,incoming],⟨c true,?_,?_⟩,?_,mpie⟩
    · simp [step,remaining,incoming,outgoing,u_saved]
    · rw [Bool.not_false,base]
    · rw [← base false,← same]
      exact resumed_stack resumed

/-- Thread `false` starts, disables interrupts and switches to thread `true`. -/
def away : List (Event Bool) := begin ++ [disable (final (step pair) (boot blank) begin),.switch true]

theorem turn_away : Along (step pair) (Allowed pair) (boot blank) away ∧
    Turn true (final (step pair) (boot blank) away) ∧ (final (step pair) (boot blank) away).hart.mie = true ∧
    ∃ c, (final (step pair) (boot blank) away).saved false = some c ∧ c.way = .switched ∧ c.mie = false := by
  obtain ⟨started,first⟩ := turn_begin
  obtain ⟨disabled,second,off⟩ := turn_disable first
  obtain ⟨switches,third,on,c,lies,way,mie⟩ := turn_switch second
  rw [Bool.not_false] at switches third on lies
  refine ⟨(along_append (step pair) (Allowed pair) (boot blank) begin _).mpr ⟨started,disabled,switches,trivial⟩,?_⟩
  rw [away,final_append]
  exact ⟨third,on,c,lies,way,mie.trans off⟩

/-- Thread `true` disables interrupts and switches back. -/
def back : List (Event Bool) := [disable (final (step pair) (boot blank) away),.switch false]

theorem mie_lost : Along (step pair) (Allowed pair) (boot blank) (away ++ back) ∧
    ¬ Along (step pair) (MieKept pair) (boot blank) (away ++ back) := by
  obtain ⟨gone,first,_,c,lies,way,off⟩ := turn_away
  obtain ⟨disabled,second,_⟩ := turn_disable first
  obtain ⟨switches,_,on,_⟩ := turn_switch second
  rw [Bool.not_true] at switches on
  refine ⟨(along_append _ _ _ away back).mpr ⟨gone,disabled,switches,trivial⟩,fun kept => ?_⟩
  obtain ⟨_,_,last,_⟩ := (along_append _ _ _ away back).mp kept
  have mie := last false c (by simp [incoming,second.running]) ?_ (by rw [way]; nofun)
  · rw [off] at mie
    exact Bool.noConfusion (on.symm.trans mie)
  · simp only [outgoing,second.running]
    rw [Function.update_of_ne (by decide),disable_saved,lies]

theorem mie_kept_away : Along (step pair) (Allowed pair) (boot blank) away ∧
    (Along (step pair) (MieKept pair) (boot blank) away ↔ Along (step pair) (MieSafe pair) (boot blank) away) :=
  ⟨turn_away.1,mie_kept_iff pair blank_idle turn_away.1⟩

/-- The hart in which `default_int_handler` is called. -/
def handlerEntry (s : System Bool) : Hart := isrArguments (isrSave pair.globals (trap 7 s.hart))

/-- A handler that asks for the other thread and gives its registers back. -/
def asking (s : System Bool) : List (Act Bool) :=
  [.request true false,
    .compute (handlerEntry s).x (handlerEntry s).f (act pair (handlerEntry s) (.request true false)).1.mem]

theorem scratch_room {saved : Bool → Option Saved} (frames : ∀ t c, saved t = some c → c.base = frameOf t) :
    Room pair saved 0xff0 16 := by
  refine fun b here => ⟨fun p => ?_,fun t c lies => ?_⟩
  · have small := index_small p
    rw [show pair.address p = slot 0x100 (index p) from pair_address p]
    unfold Within slot at *
    bv_omega
  · rw [frames t c lies]
    unfold Within at *
    cases t <;> simp only [frameOf] <;> bv_omega

theorem call_nothing (saved : Bool → Option Saved) (h : Hart) : CallAllowed pair saved [] h :=
  ⟨trivial,fun _ _ => rfl⟩

theorem turn_asking {s : System Bool} (turn : Turn true s) (on : s.hart.mie = true) :
    Allowed pair s (.interrupt 7 [] (asking s) []) := by
  obtain ⟨c,lies,base⟩ := turn.other
  have entry : (calling pair true false (handlerEntry s)).get sp = 0x1000 := by
    rw [calling_sp,handlerEntry]
    simp (disch := decide) only [isrArguments,run_cons,run_nil,exec_csrr,exec_mv,Hart.set_get_other]
    exact isrSave_sp pair.globals _
  have room : Room pair (Function.update s.saved true (some (interrupted s.hart)))
      (scratch (calling pair true false (handlerEntry s))) 16 := by
    have stack : scratch (calling pair true false (handlerEntry s)) = 0xff0 := by rw [scratch,entry]; rfl
    rw [stack]
    refine scratch_room fun t d same => ?_
    cases t with
    | true =>
      obtain rfl : interrupted s.hart = d := by simpa using same
      exact turn.stack
    | false =>
      obtain rfl : c = d := by
        have other : s.saved false = some c := lies
        simpa [other] using same
      exact base
  have handled :
      CallAllowed pair (Function.update s.saved true (some (interrupted s.hart))) (asking s) (handlerEntry s) := by
    rw [asking]
    refine ⟨⟨room,respects_same _ _,trivial⟩,fun r _ => ?_⟩
    rw [call,final,final,final,act,Hart.setMem_get,Hart.setF_get,Hart.setX_get,Hart.get]
  refine ⟨true,turn.running,on,turn.room,⟨call_nothing _ _,handled,call_nothing _ _⟩,?_,?_⟩
  · intro q head
    obtain rfl : (true,false) = q := by simpa [requests,asking] using head
    rfl
  · intro q tail _
    obtain rfl : (true,false) = q := by simpa [requests,asking] using tail
    exact ⟨c,lies⟩

/-- The run above, ended by an interrupt that asks for thread `false`. -/
def asked : List (Event Bool) := [.interrupt 7 [] (asking (final (step pair) (boot blank) away)) []]

theorem contexts_survive_asked : Along (step pair) (Allowed pair) (boot blank) (away ++ asked) ∧
    Along (step pair) (Survives pair) (boot blank) (away ++ asked) := by
  have allowed : Along (step pair) (Allowed pair) (boot blank) (away ++ asked) :=
    (along_append _ _ _ away asked).mpr ⟨turn_away.1,turn_asking turn_away.2.1 turn_away.2.2.1,trivial⟩
  exact ⟨allowed,contexts_survive pair blank_idle allowed⟩

end Ucm108e.Resumption
