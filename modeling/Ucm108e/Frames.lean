import Mathlib
import Ucm108e.ContextSwitch

/-!
What the save sequences leave in a frame and what the restores take from it. Each
sequence is run symbolically, one lemma for each part of the hart that a later
one reads; the frame is then read slot by slot.
-/
namespace Ucm108e.Frames
open Ucm108e.Words
open Ucm108e.Rv32
open Ucm108e.ContextSwitch
set_option linter.unusedSimpArgs false

/-- Where a frame that is pushed starts. -/
def pushed (h : Hart) : Word := h.get sp-256

/-- The registers that a frame carries. -/
def Carried (r : Reg) : Prop := r = ra ∨ r = sp ∨ 4 ≤ r.val

/-- The frame at `base` holds what is wanted of `c`. -/
structure Holds (wanted : Reg → Prop) (m : Memory) (base : Word) (c : Context) : Prop where
  f : ∀ r, (frameAt m base).f r = c.f r
  x : ∀ r, wanted r → (frameAt m base).x r = c.x r

/-- The `mstatus` that `rt_hw_context_switch` puts into a frame. -/
def savedStatus (mstatus : Word) : Word := if mstatus &&& 8 = 0 then 0 else 0x80

/-- `MIE` becomes the bit from which `mret` takes it again. -/
theorem savedStatus_mpie (w : Word) : (savedStatus w).getLsbD 7 = w.getLsbD 3 := by
  have masked := BitVec.and_twoPow w 3
  rw [show BitVec.twoPow 32 3 = 8 from rfl] at masked
  rw [savedStatus,masked]
  cases w.getLsbD 3 <;> decide

/-! ### Offsets as slots -/

theorem offset_zero (a : Word) : a+0 = a := by simp
theorem offset_4 (a : Word) : a+4 = slot a 1 := (rfl)
theorem offset_8 (a : Word) : a+8 = slot a 2 := (rfl)
theorem offset_20 (a : Word) : a+20 = slot a 5 := (rfl)
theorem offset_128 (a : Word) : a+128 = slot a 32 := (rfl)

theorem pushed_eq (h : Hart) : h.get sp+(-128)+(-128) = pushed h := by
  unfold pushed; bv_omega

theorem pushed_slot (h : Hart) : slot (pushed h) 64 = h.get sp := by
  unfold pushed slot; bv_omega

/-- The floating point registers with their slots. -/
def floats (h : Hart) : List (Nat × Word) := (upFrom 0).map fun r => (r.val,h.f r)

theorem floats_slots {h : Hart} {p : Nat × Word} (member : p ∈ floats h) : p.1 < 32 := by
  obtain ⟨r,_,rfl⟩ := List.mem_map.mp member
  exact r.isLt

theorem load_floats (m : Memory) (base : Word) (h : Hart) (r : Reg) :
    load (lay m base (floats h)) (slot base r.val) = h.f r := by
  refine load_lay_at m base ?_ (fun p member => ?_) (List.mem_map.mpr ⟨r,by simp,rfl⟩)
  · rw [floats,List.map_map]
    exact (upFrom_nodup 0).map Fin.val_injective
  · have := floats_slots member; omega

/-! ### `rt_hw_context_switch` -/

theorem switchHead_get {r : Reg} (notSp : r ≠ sp) (notA0 : r ≠ a0) (h : Hart) : (switchHead h).get r = h.get r := by
  simp (disch := first | assumption | decide) only [switchHead,run_cons,run_nil,exec_addi,exec_sw,exec_csrr,exec_andi,
    run_saveF,beqz_li,Hart.set_get_other,Hart.setMem_get]

theorem switchHead_sp (h : Hart) : (switchHead h).get sp = slot (pushed h) 32 := by
  simp (disch := decide) only [switchHead,run_cons,run_nil,exec_addi,exec_sw,exec_csrr,exec_andi,
    run_saveF,beqz_li,Hart.set_get_same,Hart.set_get_other,Hart.setMem_get,pushed_eq,offset_128]

theorem switchHead_mem (h : Hart) : (switchHead h).mem =
    lay (store (lay h.mem (pushed h) (floats h)) (h.get a0) (pushed h)) (pushed h)
      [(32,h.get ra),(33,h.get ra),(34,savedStatus (h.csr .mstatus))] := by
  simp (disch := decide) only [switchHead,run_cons,run_nil,exec_addi,exec_sw,exec_csrr,exec_andi,run_saveF,beqz_li,
    Hart.set_get_same,Hart.set_get_other,Hart.setMem_get,Hart.set_mem,Hart.setMem_mem,Hart.set_f,Hart.setMem_csr,
    Hart.set_csr,Hart.setMem_f,pushed_eq,lay_cons,lay_nil,offset_zero,offset_4,offset_8,offset_128,slot_slot,
    Nat.reduceAdd,floats,savedStatus]

/-- The upper half of the frame that `rt_hw_context_switch` leaves. -/
def switchWords (h : Hart) : List (Nat × Word) :=
  (32,h.get ra) :: (33,h.get ra) :: (34,savedStatus (h.csr .mstatus)) ::
    (upFrom 4).map fun r => (32+r.val,(switchHead h).get r)

theorem switchSave_mem (h : Hart) : (switchSave h).mem =
    lay (store (lay h.mem (pushed h) (floats h)) (h.get a0) (pushed h)) (pushed h) (switchWords h) := by
  rw [switchWords,switchSave,run_saveX,Hart.setMem_mem,switchHead_sp,lay_slot,switchHead_mem,List.map_map]
  simp only [lay_cons,lay_nil,Function.comp_def]

/-- Words for the upper half of a frame, each in a slot of its own. -/
def Above (words : List (Nat × Word)) : Prop :=
  (words.map Prod.fst).Nodup ∧ ∀ i ∈ words.map Prod.fst, 32 ≤ i ∧ i < 64

theorem Above.slot {words : List (Nat × Word)} (above : Above words) {p : Nat × Word} (member : p ∈ words) :
    32 ≤ p.1 ∧ p.1 < 64 :=
  above.2 p.1 (List.mem_map_of_mem member)

theorem load_above {words : List (Nat × Word)} (above : Above words) (m : Memory) (base : Word) {i : Nat} {w : Word}
    (member : (i,w) ∈ words) : load (lay m base words) (slot base i) = w :=
  load_lay_at m base above.1 (fun _ inside => by have := above.slot inside; omega) member

theorem load_below {words : List (Nat × Word)} (above : Above words) (m : Memory) (base : Word) (r : Reg) :
    load (lay m base words) (slot base r.val) = load m (slot base r.val) := by
  have small := r.isLt
  refine load_lay_other m base (by omega) fun p inside => ?_
  have := above.slot inside
  omega

theorem above_outside {words : List (Nat × Word)} (above : Above words) (m : Memory) {base b : Word}
    (outside : ¬ Within base 256 b) : lay m base words b = m b :=
  lay_outside m (n := 64) (by decide) outside fun _ inside => (above.slot inside).2

theorem floats_outside (m : Memory) (h : Hart) {base b : Word} (outside : ¬ Within base 256 b) :
    lay m base (floats h) b = m b :=
  lay_outside m (n := 64) (by decide) outside fun _ inside => by have := floats_slots inside; omega

theorem switchWords_above (h : Hart) : Above (switchWords h) := by
  simp only [Above,switchWords,List.map_cons,List.map_map,Function.comp_def]
  decide

theorem switchSave_pc (h : Hart) : (frameAt (switchSave h).mem (pushed h)).pc = h.get ra := by
  rw [switchSave_mem]
  exact load_above (switchWords_above h) _ _ (by simp [switchWords])

theorem switchSave_status (h : Hart) : statusAt (switchSave h).mem (pushed h) = savedStatus (h.csr .mstatus) := by
  rw [switchSave_mem]
  exact load_above (switchWords_above h) _ _ (by simp [switchWords])

section
variable {h : Hart} (apart : ∀ b, Within (h.get a0) 4 b → ¬ Within (pushed h) 256 b)

theorem switchSave_outside {b : Word} (notFrame : ¬ Within (pushed h) 256 b) (notCell : ¬ Within (h.get a0) 4 b) :
    (switchSave h).mem b = h.mem b := by
  rw [switchSave_mem,above_outside (switchWords_above h) _ notFrame,store_outside _ _ notCell,
    floats_outside _ h notFrame]

include apart

theorem switchSave_cell : load (switchSave h).mem (h.get a0) = pushed h := by
  rw [switchSave_mem,load_congr fun b inside => above_outside (switchWords_above h) _ (apart b inside),load_store_same]

/-- `rt_hw_context_switch` leaves a frame with the registers of the caller, `a0`
    apart. -/
theorem switchSave_holds : Holds (fun r => Carried r ∧ r ≠ a0) (switchSave h).mem (pushed h) ⟨h.get ra,h.get,h.f⟩ := by
  constructor
  · intro r
    rw [frameAt,switchSave_mem]
    refine (load_below (switchWords_above h) _ _ r).trans ?_
    rw [load_store_apart _ _ fun b here there => apart b there (slot_within (n := 64) (by omega) (by decide) here)]
    exact load_floats _ _ h r
  · rintro r ⟨carried,notA0⟩
    rcases carried with rfl | rfl | high
    · rw [switchSave_mem]
      exact load_above (switchWords_above h) _ _ (by simp [switchWords])
    · exact pushed_slot h
    · have notSp : r ≠ sp := by rintro rfl; simp at high
      rw [switchSave_mem,frameAt]
      simp only [notSp,if_false]
      rw [← switchHead_get notSp notA0]
      refine load_above (switchWords_above h) _ _ ?_
      simp only [switchWords,List.mem_cons,List.mem_map]
      exact .inr (.inr (.inr ⟨r,by simpa using high,rfl⟩))
end

theorem switchSave_get {r : Reg} (notSp : r ≠ sp) (notA0 : r ≠ a0) (h : Hart) : (switchSave h).get r = h.get r := by
  rw [switchSave,run_saveX,Hart.setMem_get,switchHead_get notSp notA0]

theorem switchSave_csr (h : Hart) (c : Csr) : (switchSave h).csr c = h.csr c := by
  simp (disch := decide) only [switchSave,switchHead,run_cons,run_nil,exec_addi,exec_sw,exec_csrr,exec_andi,run_saveF,
    run_saveX,beqz_li,Hart.setMem_csr,Hart.set_csr]

/-! ### The way out of a frame -/

theorem popFloats_sp (h : Hart) : (popFloats h).get sp = slot (h.get sp) 32 := by
  simp (disch := decide) only [popFloats,run_cons,run_nil,exec_addi,run_restoreF,Hart.set_get_same,Hart.setF_get,
    offset_128]

theorem popFloats_mem (h : Hart) : (popFloats h).mem = h.mem := by
  simp only [popFloats,run_cons,run_nil,exec_addi,run_restoreF,Hart.set_mem,Hart.setF_mem]

theorem popFloats_csr (h : Hart) (c : Csr) : (popFloats h).csr c = h.csr c := by
  simp only [popFloats,run_cons,run_nil,exec_addi,run_restoreF,Hart.set_csr,Hart.setF_csr]

theorem popFloats_f (h : Hart) (r : Reg) : (popFloats h).f r = load h.mem (slot (h.get sp) r.val) := by
  simp only [popFloats,run_cons,run_nil,exec_addi,run_restoreF,Hart.set_f,Hart.setF_f,taken,mem_upFrom,Nat.zero_le,
    if_true]

/-- Whatever a frame holds, `MPIE` is set after it is left. -/
theorem popFrame_mpie (code : List Instr) (h : Hart) : (popFrame code h).mpie = true := by
  rw [popFrame,mpie_mret]

/-- What the code between the two halves of a restore may do: it takes `ra` and
    leaves the rest to the other instructions. -/
structure Between (code : List Instr) : Prop where
  keepsMem : ∀ h, (run code h).mem = h.mem
  keepsF : ∀ h, (run code h).f = h.f
  keepsSp : ∀ h, (run code h).get sp = h.get sp
  takesRa : ∀ h, (run code h).get ra = load h.mem (slot (h.get sp) 1)

section
variable {code : List Instr} (between : Between code) (h : Hart)
include between

theorem popFrame_eq : popFrame code h =
    mret (((run code (popFloats h)).setX
      (taken (upFrom 4) h.mem (slot (h.get sp) 32) (run code (popFloats h)).x)).set sp (slot (h.get sp) 64)) := by
  have kept : sp ∉ upFrom 4 := by simp
  have nonzero : (0 : Reg) ∉ upFrom 4 := by simp
  simp only [popFrame,run_restoreX kept,run_cons,run_nil,exec_addi,taken_get nonzero,between.keepsMem,
    between.keepsSp,popFloats_mem,popFloats_sp,kept,if_false,offset_128,slot_slot,Nat.reduceAdd]

theorem popFrame_mem : (popFrame code h).mem = h.mem := by
  rw [popFrame_eq between,mret_mem,Hart.set_mem,Hart.setX_mem,between.keepsMem,popFloats_mem]

theorem popFrame_f (r : Reg) : (popFrame code h).f r = (frameAt h.mem (h.get sp)).f r := by
  rw [popFrame_eq between,mret_f,Hart.set_f,Hart.setX_f,between.keepsF,popFloats_f,frameAt]

theorem popFrame_get {r : Reg} (carried : Carried r) : (popFrame code h).get r = (frameAt h.mem (h.get sp)).x r := by
  have nonzero : (0 : Reg) ∉ upFrom 4 := by simp
  rw [popFrame_eq between,mret_get,frameAt]
  rcases carried with rfl | rfl | high
  · rw [Hart.set_get_other _ _ _ _ (by decide),taken_get nonzero,if_neg (by simp),between.takesRa,popFloats_sp,
      popFloats_mem,slot_slot]
    rfl
  · exact Hart.set_get_same _ _ _ (by decide)
  · have notSp : r ≠ sp := by rintro rfl; simp at high
    rw [Hart.set_get_other _ _ _ _ notSp,taken_get nonzero,if_pos (by simpa using high),slot_slot]
    simp only [notSp,if_false]

theorem popFrame_pc : (popFrame code h).pc = (run code (popFloats h)).csr .mepc := by
  rw [popFrame_eq between,mret_pc,Hart.set_csr,Hart.setX_csr]

theorem popFrame_mie : (popFrame code h).mie = (run code (popFloats h)).mpie := by
  rw [popFrame_eq between,mie_mret,Hart.mpie,Hart.set_csr,Hart.setX_csr,Hart.mpie]
end

theorem switchTake_between : Between switchTake := by
  constructor <;> intro h <;> simp (disch := decide) only [switchTake,run_cons,run_nil,exec_lw,exec_csrw,exec_li,
    exec_csrs,Hart.set_get_same,Hart.set_get_other,Hart.setCsr_get,Hart.set_mem,Hart.setCsr_mem,Hart.set_f,Hart.setCsr_f,
    offset_4]

theorem startTake_between : Between startTake := by
  constructor <;> intro h <;> simp (disch := decide) only [startTake,run_cons,run_nil,exec_lw,exec_csrw,
    Hart.set_get_same,Hart.set_get_other,Hart.setCsr_get,Hart.set_mem,Hart.setCsr_mem,Hart.set_f,Hart.setCsr_f,offset_4]

theorem isrTake_between : Between isrTake := by
  constructor <;> intro h <;> simp (disch := decide) only [isrTake,run_cons,run_nil,exec_lw,exec_li,exec_csrs,
    Hart.set_get_same,Hart.set_get_other,Hart.setCsr_get,Hart.set_mem,Hart.setCsr_mem,Hart.set_f,Hart.setCsr_f,offset_4]

theorem switchTake_mepc (h : Hart) : (run switchTake h).csr .mepc = load h.mem (h.get sp) := by
  simp (disch := decide) only [switchTake,run_cons,run_nil,exec_lw,exec_csrw,exec_li,exec_csrs,Hart.set_get_same,
    Hart.setCsr_csr,Hart.set_csr,reduceCtorEq,if_false,if_true,offset_zero]

theorem switchTake_mstatus (h : Hart) : (run switchTake h).csr .mstatus =
    h.csr .mstatus ||| 0x1800 ||| load h.mem (slot (h.get sp) 2) := by
  simp (disch := decide) only [switchTake,run_cons,run_nil,exec_lw,exec_csrw,exec_li,exec_csrs,Hart.set_get_same,
    Hart.set_get_other,Hart.setCsr_get,Hart.set_mem,Hart.setCsr_mem,Hart.setCsr_csr,Hart.set_csr,reduceCtorEq,if_false,
    if_true,offset_8]

theorem startTake_mepc (h : Hart) : (run startTake h).csr .mepc = load h.mem (h.get sp) := by
  simp (disch := decide) only [startTake,run_cons,run_nil,exec_lw,exec_csrw,Hart.set_get_same,Hart.setCsr_csr,
    Hart.set_csr,reduceCtorEq,if_false,if_true,offset_zero]

theorem startTake_mstatus (h : Hart) : (run startTake h).csr .mstatus = load h.mem (slot (h.get sp) 2) := by
  simp (disch := decide) only [startTake,run_cons,run_nil,exec_lw,exec_csrw,Hart.set_get_same,Hart.set_get_other,
    Hart.setCsr_get,Hart.set_mem,Hart.setCsr_mem,Hart.setCsr_csr,if_true,offset_8]

theorem isrTake_mepc (h : Hart) : (run isrTake h).csr .mepc = h.csr .mepc := by
  simp (disch := decide) only [isrTake,run_cons,run_nil,exec_lw,exec_li,exec_csrs,Hart.setCsr_csr,Hart.set_csr,
    reduceCtorEq,if_false]

theorem isrTake_mstatus (h : Hart) : (run isrTake h).csr .mstatus =
    h.csr .mstatus ||| 0x1800 ||| load h.mem (slot (h.get sp) 2) := by
  simp (disch := decide) only [isrTake,run_cons,run_nil,exec_lw,exec_li,exec_csrs,Hart.set_get_same,
    Hart.set_get_other,Hart.setCsr_get,Hart.set_mem,Hart.setCsr_mem,Hart.setCsr_csr,Hart.set_csr,if_true,offset_8]

/-! ### `ISR_ALL_ASM` -/

theorem pushed_half (h : Hart) : h.get sp+(-128) = slot (pushed h) 32 := by
  unfold pushed slot; bv_omega

theorem half_down (base : Word) : slot base 32+(-128) = base := by
  unfold slot; bv_omega

theorem isrHead_get {r : Reg} (notSp : r ≠ sp) (notT0 : r ≠ t0) (h : Hart) : (isrHead h).get r = h.get r := by
  simp (disch := first | assumption | decide) only [isrHead,run_cons,run_nil,exec_addi,exec_sw,exec_li,
    Hart.set_get_other,Hart.setMem_get]

theorem isrHead_sp (h : Hart) : (isrHead h).get sp = slot (pushed h) 32 := by
  simp (disch := decide) only [isrHead,run_cons,run_nil,exec_addi,exec_sw,exec_li,Hart.set_get_same,Hart.set_get_other,
    Hart.setMem_get,pushed_half]

theorem isrHead_mem (h : Hart) : (isrHead h).mem =
    lay h.mem (pushed h) [(33,h.get ra),(37,h.get t0),(34,0x80)] := by
  simp (disch := decide) only [isrHead,run_cons,run_nil,exec_addi,exec_sw,exec_li,Hart.set_get_same,Hart.set_get_other,
    Hart.setMem_get,Hart.setMem_mem,Hart.set_mem,pushed_half,offset_4,offset_8,offset_20,slot_slot,Nat.reduceAdd,
    lay_cons,lay_nil]

theorem isrHead_f (h : Hart) : (isrHead h).f = h.f := by
  simp only [isrHead,run_cons,run_nil,exec_addi,exec_sw,exec_li,Hart.set_f,Hart.setMem_f]

/-- The upper half of the frame that `ISR_ALL_ASM` leaves; `epc` is written only
    when a switch follows. -/
def isrWords (h : Hart) : List (Nat × Word) :=
  (33,h.get ra) :: (37,h.get t0) :: (34,0x80) :: (4 :: upFrom 6).map fun r => (32+r.val,(isrHead h).get r)

theorem isrWords_above (h : Hart) : Above (isrWords h) := by
  simp only [Above,isrWords,List.map_cons,List.map_map,Function.comp_def]
  decide

theorem isrWords_sp (h : Hart) : (run (saveX sp (4 :: upFrom 6)) (isrHead h)).get sp = slot (pushed h) 32 := by
  rw [run_saveX,Hart.setMem_get,isrHead_sp]

theorem isrSave_mem (g : Globals) (h : Hart) : (isrSave g h).mem =
    lay (lay h.mem (pushed h) (isrWords h)) (pushed h) (floats h) := by
  have words : (run (saveX sp (4 :: upFrom 6)) (isrHead h)).mem = lay h.mem (pushed h) (isrWords h) := by
    rw [run_saveX,Hart.setMem_mem,isrHead_sp,lay_slot,isrHead_mem,List.map_map,isrWords]
    simp only [lay_cons,lay_nil,Function.comp_def]
  have f : (run (saveX sp (4 :: upFrom 6)) (isrHead h)).f = h.f := by
    rw [run_saveX,Hart.setMem_f,isrHead_f]
  simp (disch := decide) only [isrSave,run_saveF,run_cons,run_nil,exec_addi,exec_mv,exec_li,Hart.set_mem,
    Hart.setMem_mem,Hart.set_get_same,Hart.set_f,words,isrWords_sp,f,half_down,floats]

theorem isrSave_s0 (g : Globals) (h : Hart) : (isrSave g h).get s0 = pushed h := by
  simp (disch := decide) only [isrSave,run_saveF,run_cons,run_nil,exec_addi,exec_mv,exec_li,Hart.setMem_get,
    Hart.set_get_same,Hart.set_get_other,isrWords_sp,half_down]

theorem isrSave_sp (g : Globals) (h : Hart) : (isrSave g h).get sp = g._sp := by
  simp (disch := decide) only [isrSave,run_cons,run_nil,exec_mv,exec_li,Hart.set_get_same]

theorem isrSave_csr (g : Globals) (h : Hart) (c : Csr) : (isrSave g h).csr c = h.csr c := by
  simp only [isrSave,isrHead,run_saveX,run_saveF,run_cons,run_nil,exec_addi,exec_sw,exec_mv,exec_li,Hart.set_csr,
    Hart.setMem_csr]

theorem isrSave_outside (g : Globals) (h : Hart) {b : Word} (notFrame : ¬ Within (pushed h) 256 b) :
    (isrSave g h).mem b = h.mem b := by
  rw [isrSave_mem,floats_outside _ h notFrame,above_outside (isrWords_above h) _ notFrame]

theorem isrSave_above (g : Globals) (h : Hart) {i : Nat} {w : Word} (member : (i,w) ∈ isrWords h) :
    load (isrSave g h).mem (slot (pushed h) i) = w := by
  have above := (isrWords_above h).slot member
  rw [isrSave_mem,load_lay_other _ _ (by omega),load_above (isrWords_above h) _ _ member]
  intro p inside
  have := floats_slots inside
  omega

theorem isrSave_status (g : Globals) (h : Hart) : statusAt (isrSave g h).mem (pushed h) = 0x80 :=
  isrSave_above g h (by simp [isrWords])

/-- `ISR_ALL_ASM` leaves a frame with all registers of the thread it interrupts. -/
theorem isrSave_holds (g : Globals) (h : Hart) (pc : Word) :
    Holds Carried (isrSave g h).mem (pushed h) ⟨pc,h.get,h.f⟩ := by
  constructor
  · intro r
    rw [isrSave_mem]
    exact load_floats _ _ h r
  · rintro r (rfl | rfl | high)
    · exact isrSave_above g h (by simp [isrWords])
    · exact pushed_slot h
    · have notSp : r ≠ sp := by rintro rfl; simp at high
      simp only [frameAt,notSp,if_false]
      refine isrSave_above g h ?_
      by_cases t0 : r = t0
      · subst t0; simp [isrWords]
      · rw [← isrHead_get notSp t0]
        have listed : r ∈ (4 : Reg) :: upFrom 6 := by
          have five : r.val ≠ 5 := fun same => t0 (Fin.ext same)
          rw [List.mem_cons,mem_upFrom,Fin.ext_iff]
          show r.val = 4 ∨ 6 ≤ r.val
          omega
        exact List.mem_cons_of_mem _ (List.mem_cons_of_mem _ (List.mem_cons_of_mem _ (List.mem_map.mpr ⟨r,listed,rfl⟩)))

section
variable (g : Globals) (h : Hart)

/-- Without a request the interrupt path goes on with the frame it pushed. -/
theorem isrSwitch_none (none : load h.mem g.rt_thread_switch_interrupt_flag = 0) :
    (isrSwitch g h).get sp = h.get s0 ∧ (isrSwitch g h).mem = h.mem ∧ ∀ c, (isrSwitch g h).csr c = h.csr c := by
  have zero : (run [.mv sp s0,.li s0 g.rt_thread_switch_interrupt_flag,.lw s2 0 s0] h).get s2 = 0 := by
    simp (disch := decide) only [run_cons,run_nil,exec_mv,exec_li,exec_lw,Hart.set_get_same,Hart.set_mem,offset_zero,
      none]
  rw [isrSwitch,beqz,if_pos zero]
  refine ⟨?_,?_,fun c => ?_⟩
  all_goals simp (disch := decide) only [run_cons,run_nil,exec_mv,exec_li,exec_lw,Hart.set_get_same,Hart.set_get_other,
    Hart.set_mem,Hart.set_csr]

/-- The memory in which the interrupt path looks for the thread to resume. -/
def switched (m : Memory) (base mepc : Word) : Memory :=
  let m := store (store m g.rt_thread_switch_interrupt_flag 0) (slot base 32) mepc
  store m (load m g.rt_interrupt_from_thread) base

theorem isrSwitch_some (some : load h.mem g.rt_thread_switch_interrupt_flag ≠ 0) :
    let m := switched g h.mem (h.get s0) (h.csr .mepc)
    let base := load m (load m g.rt_interrupt_to_thread)
    (isrSwitch g h).get sp = base ∧ (isrSwitch g h).mem = m ∧ (isrSwitch g h).csr .mepc = load m (slot base 32) ∧
      (isrSwitch g h).csr .mstatus = h.csr .mstatus := by
  have nonzero : (run [.mv sp s0,.li s0 g.rt_thread_switch_interrupt_flag,.lw s2 0 s0] h).get s2 ≠ 0 := by
    simp (disch := decide) only [run_cons,run_nil,exec_mv,exec_li,exec_lw,Hart.set_get_same,Hart.set_mem,offset_zero]
    exact some
  rw [isrSwitch,beqz,if_neg nonzero]
  refine ⟨?_,?_,?_,?_⟩
  all_goals simp (disch := decide) only [run_cons,run_nil,exec_mv,exec_li,exec_lw,exec_sw,exec_csrr,exec_csrw,
    Hart.set_get_same,Hart.set_get_other,Hart.setMem_get,Hart.setCsr_get,Hart.set_mem,Hart.setMem_mem,Hart.setCsr_mem,
    Hart.set_csr,Hart.setMem_csr,Hart.setCsr_csr,reduceCtorEq,if_false,if_true,offset_zero,offset_128,switched,
    Hart.get_zero]
end

/-! ### `rt_hw_context_switch_interrupt` -/

theorem offset_12 (a : Word) : a+12 = slot a 3 := (rfl)

/-- The variables after a request, `from` and `to` being addresses of stack pointers. -/
def noted (g : Globals) (m : Memory) (source target : Word) : Memory :=
  store (if load m g.rt_thread_switch_interrupt_flag = 0 then
      store (store m g.rt_thread_switch_interrupt_flag 1) g.rt_interrupt_from_thread source
    else m) g.rt_interrupt_to_thread target

/-- The stack that `rt_hw_context_switch_interrupt` uses, and the memory once it
    has saved its registers there. -/
def scratch (h : Hart) : Word := h.get sp+(-16)

def spilled (h : Hart) : Memory := lay h.mem (scratch h) [(3,h.get s0),(2,h.get a0),(1,h.get a5)]

theorem request_csr (g : Globals) (h : Hart) (c : Csr) : (rt_hw_context_switch_interrupt g h).csr c = h.csr c := by
  rw [rt_hw_context_switch_interrupt,bnez]
  split
  all_goals simp only [run_cons,run_nil,exec_addi,exec_li,exec_lw,exec_sw,Hart.set_csr,Hart.setMem_csr]

theorem request_mem {g : Globals} {h : Hart}
    (apart : ∀ b, Within (scratch h) 16 b → ¬ Within g.rt_thread_switch_interrupt_flag 4 b) :
    (rt_hw_context_switch_interrupt g h).mem = noted g (spilled h) (h.get a0) (h.get a1) := by
  have kept : load (spilled h) (slot (scratch h) 2) = h.get a0 :=
    load_lay_at _ _ (by simp) (by simp) (by simp)
  have reload : load (store (spilled h) g.rt_thread_switch_interrupt_flag 1) (slot (scratch h) 2) = h.get a0 := by
    rw [load_store_apart _ _ fun b inside => apart b (slot_within (n := 4) (by decide) (by decide) inside),kept]
  have saved : store (store (store h.mem (h.get sp+(-16)+12) (h.get s0)) (h.get sp+(-16)+8) (h.get a0))
      (h.get sp+(-16)+4) (h.get a5) = spilled h := by
    rw [offset_4,offset_8,offset_12,spilled,lay_cons,lay_cons,lay_cons,lay_nil,scratch]
  rw [rt_hw_context_switch_interrupt,bnez,noted]
  by_cases first : load (spilled h) g.rt_thread_switch_interrupt_flag = 0
  all_goals simp (disch := decide) only [run_cons,run_nil,exec_addi,exec_li,exec_lw,exec_sw,Hart.set_get_same,
    Hart.set_get_other,Hart.setMem_get,Hart.set_mem,Hart.setMem_mem,offset_zero,saved,first,if_true,if_false]
  rw [offset_8,← scratch,reload]

/-! ### `rt_hw_stack_init` -/

section
variable (m : Memory) (tentry parameter stack_addr texit : Word)

/-- The context that a new thread starts with. -/
def initial (stk : Word) : Context where
  pc := tentry
  x r := if r = ra then texit else if r = sp then slot stk 64 else if r = a0 then parameter else 0xa5a5a5a5
  f _ := 0xa5a5a5a5

theorem stack_init_named {i : Nat} {w : Word} (member : (i,w) ∈ [(33,texit),(42,parameter),(32,tentry),(34,0x1880)]) :
    load (rt_hw_stack_init m tentry parameter stack_addr texit).2
      (slot (rt_hw_stack_init m tentry parameter stack_addr texit).1 i) = w :=
  load_lay_at _ _ (by simp) (by simp) member

theorem stack_init_filled {i : Nat} (inside : i < 64) (unnamed : i ≠ 33 ∧ i ≠ 42 ∧ i ≠ 32 ∧ i ≠ 34) :
    load (rt_hw_stack_init m tentry parameter stack_addr texit).2
      (slot (rt_hw_stack_init m tentry parameter stack_addr texit).1 i) = 0xa5a5a5a5 := by
  obtain ⟨n33,n42,n32,n34⟩ := unnamed
  rw [rt_hw_stack_init,load_lay_other _ _ (by omega) (by simp; omega)]
  refine load_lay_at _ _ ?_ ?_ (List.mem_map.mpr ⟨i,List.mem_range.mpr inside,rfl⟩)
  · rw [List.map_map]
    exact List.nodup_range.map fun _ _ same => same
  · intro p member
    obtain ⟨j,small,rfl⟩ := List.mem_map.mp member
    have := List.mem_range.mp small
    omega

theorem stack_init_outside {b : Word}
    (outside : ¬ Within (rt_hw_stack_init m tentry parameter stack_addr texit).1 256 b) :
    (rt_hw_stack_init m tentry parameter stack_addr texit).2 b = m b :=
  (lay_outside _ (n := 64) (by decide) outside (by simp)).trans (lay_outside _ (n := 64) (by decide) outside (by simp))

/-- `rt_hw_stack_init` leaves the frame of a thread about to enter `tentry`. -/
theorem stack_init_holds :
    Holds Carried (rt_hw_stack_init m tentry parameter stack_addr texit).2
      (rt_hw_stack_init m tentry parameter stack_addr texit).1
      (initial tentry parameter texit (rt_hw_stack_init m tentry parameter stack_addr texit).1) := by
  constructor
  · intro r
    have := r.isLt
    exact stack_init_filled m tentry parameter stack_addr texit (by omega) (by omega)
  · rintro r (rfl | rfl | high)
    · exact stack_init_named m tentry parameter stack_addr texit (by simp [initial])
    · rfl
    · have notRa : r ≠ ra := by rintro rfl; simp at high
      have notSp : r ≠ sp := by rintro rfl; simp at high
      simp only [frameAt,initial,notRa,notSp,if_false]
      by_cases argument : r = a0
      · subst argument
        exact stack_init_named m tentry parameter stack_addr texit (by simp)
      · have ten : r.val ≠ 10 := fun same => argument (Fin.ext same)
        have := r.isLt
        rw [if_neg argument]
        exact stack_init_filled m tentry parameter stack_addr texit (by omega) (by omega)
end

end Ucm108e.Frames
