import Mathlib
import Ucm108e.Words

/-!
A hart of the 32-bit RISC-V in machine mode: the registers, the memory in bytes
and the part of the instruction set that the save and restore sequences of a
kernel are made of. Straight-line code is a list of instructions. A trap and the
return from it are the two ways in which the interrupt enable bits move.

Saves and restores are blocks of accesses relative to one base register; what a
block does is said once for any list of registers.
-/
namespace Ucm108e.Rv32
open Ucm108e.Words

/-! ### Words in memory -/

abbrev Memory := Word → UInt8

/-- The byte `b` is one of the `n` from `a` on. -/
def Within (a : Word) (n : Nat) (b : Word) : Prop := (b-a).toNat < n

instance (a : Word) (n : Nat) (b : Word) : Decidable (Within a n b) := inferInstanceAs (Decidable (_ < _))

def load (m : Memory) (a : Word) : Word := ofBytes fun k => m (a+BitVec.ofNat 32 k)

def store (m : Memory) (a w : Word) : Memory := fun b => if Within a 4 b then byte w (b-a).toNat else m b

theorem within_offset {a : Word} {n k : Nat} (inside : k < n) (small : n ≤ 2^32) :
    Within a n (a+BitVec.ofNat 32 k) := by
  unfold Within; bv_omega

theorem load_congr {m m' : Memory} {a : Word} (same : ∀ b, Within a 4 b → m b = m' b) : load m a = load m' a :=
  ofBytes_congr fun _ inside => same _ (within_offset inside (by decide))

theorem store_outside (m : Memory) {a b : Word} (w : Word) (outside : ¬ Within a 4 b) : store m a w b = m b := by
  simp [store,outside]

@[simp] theorem load_store_same (m : Memory) (a w : Word) : load (store m a w) a = w := by
  refine Eq.trans (ofBytes_congr fun k inside => ?_) (ofBytes_byte w)
  have offset : (a+BitVec.ofNat 32 k-a).toNat = k := by bv_omega
  simp only [store,Within,offset,if_pos inside]

theorem load_store_apart (m : Memory) {a c : Word} (w : Word) (apart : ∀ b, Within a 4 b → ¬ Within c 4 b) :
    load (store m c w) a = load m a :=
  load_congr fun b inside => store_outside m w (apart b inside)

/-- The `i`-th word from `base` on. -/
def slot (base : Word) (i : Nat) : Word := base+BitVec.ofNat 32 (4*i)

theorem slot_within {base b : Word} {i n : Nat} (inside : i < n) (small : 4*n ≤ 2^32)
    (here : Within (slot base i) 4 b) : Within base (4*n) b := by
  unfold Within slot at *; bv_omega

theorem slot_apart {base : Word} {i j : Nat} (different : i ≠ j) (first : i < 2^30) (second : j < 2^30) (b : Word)
    (here : Within (slot base i) 4 b) : ¬ Within (slot base j) 4 b := by
  unfold Within slot at *; bv_omega

theorem slot_slot (base : Word) (i j : Nat) : slot (slot base i) j = slot base (i+j) := by
  unfold slot; bv_omega

/-- The memory after words are stored one after the other, each in its slot. -/
def lay (m : Memory) (base : Word) (words : List (Nat × Word)) : Memory :=
  words.foldl (fun m p => store m (slot base p.1) p.2) m

@[simp] theorem lay_nil (m : Memory) (base : Word) : lay m base [] = m := rfl

@[simp] theorem lay_cons (m : Memory) (base : Word) (p : Nat × Word) (rest : List (Nat × Word)) :
    lay m base (p :: rest) = lay (store m (slot base p.1) p.2) base rest := rfl

/-- Slots counted from further up. -/
theorem lay_slot (m : Memory) (base : Word) (n : Nat) (words : List (Nat × Word)) :
    lay m (slot base n) words = lay m base (words.map fun p => (n+p.1,p.2)) := by
  induction words generalizing m with
  | nil => rfl
  | cons p rest ih => rw [lay_cons,ih,List.map_cons,lay_cons,slot_slot]

theorem lay_outside (m : Memory) {base b : Word} {n : Nat} (small : 4*n ≤ 2^32) (outside : ¬ Within base (4*n) b) :
    ∀ {words : List (Nat × Word)}, (∀ p ∈ words, p.1 < n) → lay m base words b = m b := by
  intro words
  induction words generalizing m with
  | nil => intro _; rfl
  | cons p rest ih =>
    intro bounded
    rw [lay_cons,ih _ fun q member => bounded q (List.mem_cons_of_mem _ member)]
    exact store_outside m p.2 fun here => outside (slot_within (bounded p List.mem_cons_self) small here)

theorem load_lay_other (m : Memory) (base : Word) {i : Nat} (small : i < 2^30) :
    ∀ {words : List (Nat × Word)}, (∀ p ∈ words, p.1 < 2^30 ∧ p.1 ≠ i) →
      load (lay m base words) (slot base i) = load m (slot base i) := by
  intro words
  induction words generalizing m with
  | nil => intro _; rfl
  | cons p rest ih =>
    intro others
    obtain ⟨bound,different⟩ := others p List.mem_cons_self
    rw [lay_cons,ih _ fun q member => others q (List.mem_cons_of_mem _ member)]
    exact load_store_apart m p.2 (slot_apart (Ne.symm different) small bound)

theorem load_lay_at (m : Memory) (base : Word) {i : Nat} {w : Word} :
    ∀ {words : List (Nat × Word)}, (words.map Prod.fst).Nodup → (∀ p ∈ words, p.1 < 2^30) → (i,w) ∈ words →
      load (lay m base words) (slot base i) = w := by
  intro words
  induction words generalizing m with
  | nil => intro _ _ member; cases member
  | cons p rest ih =>
    intro distinct bounded member
    rw [List.map_cons,List.nodup_cons] at distinct
    have boundedRest : ∀ q ∈ rest, q.1 < 2^30 := fun q more => bounded q (List.mem_cons_of_mem _ more)
    rcases List.mem_cons.mp member with rfl | later
    · have others : ∀ q ∈ rest, q.1 < 2^30 ∧ q.1 ≠ i := fun q more =>
        ⟨boundedRest q more,fun same => distinct.1 (List.mem_map.mpr ⟨q,more,same⟩)⟩
      rw [lay_cons,load_lay_other _ base (bounded (i,w) List.mem_cons_self) others,load_store_same]
    · exact ih _ distinct.2 boundedRest later

/-! ### The hart -/

abbrev Reg := Fin 32

/-- Registers are written as numerals. -/
instance regNeZero : NeZero 32 := ⟨by decide⟩

inductive Csr where
  | mstatus | mepc | mcause
  deriving DecidableEq

structure Hart where
  x : Reg → Word
  f : Reg → Word
  pc : Word
  csr : Csr → Word
  mem : Memory

/-- An integer register as an instruction reads it; `x0` is zero. -/
def Hart.get (h : Hart) (r : Reg) : Word := if r = 0 then 0 else h.x r

def Hart.setX (h : Hart) (x : Reg → Word) : Hart := { h with x }
def Hart.setF (h : Hart) (f : Reg → Word) : Hart := { h with f }
def Hart.setMem (h : Hart) (mem : Memory) : Hart := { h with mem }
def Hart.setCsr (h : Hart) (c : Csr) (w : Word) : Hart := { h with csr := Function.update h.csr c w }
def Hart.set (h : Hart) (r : Reg) (w : Word) : Hart := h.setX (Function.update h.x r w)

/-- Instructions without a jump. Offsets and immediates are sign extended. -/
inductive Instr where
  | li (rd : Reg) (imm : Word)
  | mv (rd rs : Reg)
  | addi (rd rs : Reg) (imm : Word)
  | andi (rd rs : Reg) (imm : Word)
  | lw (rd : Reg) (offset : Word) (rs : Reg)
  | sw (rs : Reg) (offset : Word) (base : Reg)
  | flw (fd : Reg) (offset : Word) (rs : Reg)
  | fsw (fs : Reg) (offset : Word) (base : Reg)
  | csrr (rd : Reg) (c : Csr)
  | csrw (c : Csr) (rs : Reg)
  | csrs (c : Csr) (rs : Reg)

def exec (h : Hart) : Instr → Hart
  | .li rd imm => h.set rd imm
  | .mv rd rs => h.set rd (h.get rs)
  | .addi rd rs imm => h.set rd (h.get rs+imm)
  | .andi rd rs imm => h.set rd (h.get rs &&& imm)
  | .lw rd offset rs => h.set rd (load h.mem (h.get rs+offset))
  | .sw rs offset base => h.setMem (store h.mem (h.get base+offset) (h.get rs))
  | .flw fd offset rs => h.setF (Function.update h.f fd (load h.mem (h.get rs+offset)))
  | .fsw fs offset base => h.setMem (store h.mem (h.get base+offset) (h.f fs))
  | .csrr rd c => h.set rd (h.csr c)
  | .csrw c rs => h.setCsr c (h.get rs)
  | .csrs c rs => h.setCsr c (h.csr c ||| h.get rs)

def run (code : List Instr) (h : Hart) : Hart := code.foldl exec h

/-- `beqz rs` over the code it skips. -/
def beqz (rs : Reg) (skipped : List Instr) (h : Hart) : Hart := if h.get rs = 0 then h else run skipped h

/-- `bnez rs` over the code it skips. -/
def bnez (rs : Reg) (skipped : List Instr) (h : Hart) : Hart := if h.get rs = 0 then run skipped h else h

/-! ### Reading a hart after writes to it -/

section
variable (h : Hart) (x f : Reg → Word) (m : Memory) (c d : Csr) (r q : Reg) (w : Word)

theorem Hart.get_zero : h.get 0 = 0 := (rfl)

@[simp] theorem Hart.setX_get : (h.setX x).get r = if r = 0 then 0 else x r := (rfl)
@[simp] theorem Hart.setF_get : (h.setF f).get r = h.get r := (rfl)
@[simp] theorem Hart.setMem_get : (h.setMem m).get r = h.get r := (rfl)
@[simp] theorem Hart.setCsr_get : (h.setCsr c w).get r = h.get r := (rfl)

theorem Hart.set_get_same (nonzero : r ≠ 0) : (h.set r w).get r = w := by
  simp [Hart.set,nonzero]

theorem Hart.set_get_other (other : q ≠ r) : (h.set r w).get q = h.get q := by
  simp [Hart.set,Hart.setX,Hart.get,other]

@[simp] theorem Hart.setX_f : (h.setX x).f = h.f := (rfl)
@[simp] theorem Hart.setF_f : (h.setF f).f = f := (rfl)
@[simp] theorem Hart.setMem_f : (h.setMem m).f = h.f := (rfl)
@[simp] theorem Hart.setCsr_f : (h.setCsr c w).f = h.f := (rfl)
@[simp] theorem Hart.set_f : (h.set r w).f = h.f := (rfl)

@[simp] theorem Hart.setX_mem : (h.setX x).mem = h.mem := (rfl)
@[simp] theorem Hart.setF_mem : (h.setF f).mem = h.mem := (rfl)
@[simp] theorem Hart.setMem_mem : (h.setMem m).mem = m := (rfl)
@[simp] theorem Hart.setCsr_mem : (h.setCsr c w).mem = h.mem := (rfl)
@[simp] theorem Hart.set_mem : (h.set r w).mem = h.mem := (rfl)

@[simp] theorem Hart.setX_csr : (h.setX x).csr d = h.csr d := (rfl)
@[simp] theorem Hart.setF_csr : (h.setF f).csr d = h.csr d := (rfl)
@[simp] theorem Hart.setMem_csr : (h.setMem m).csr d = h.csr d := (rfl)
@[simp] theorem Hart.setCsr_csr : (h.setCsr c w).csr d = if d = c then w else h.csr d := by
  simp [Hart.setCsr,Function.update_apply]
@[simp] theorem Hart.set_csr : (h.set r w).csr d = h.csr d := (rfl)
end

/-! ### Straight-line code -/

@[simp] theorem run_nil (h : Hart) : run [] h = h := (rfl)

theorem run_cons (i : Instr) (code : List Instr) (h : Hart) : run (i :: code) h = run code (exec h i) := (rfl)

section
-- These are not stated to hold by computation, so that a term with many of them
-- is never compared by unfolding it.
variable (h : Hart) (rd rs : Reg) (w : Word) (c : Csr)

@[simp] theorem exec_li : exec h (.li rd w) = h.set rd w := (rfl)
@[simp] theorem exec_mv : exec h (.mv rd rs) = h.set rd (h.get rs) := (rfl)
@[simp] theorem exec_addi : exec h (.addi rd rs w) = h.set rd (h.get rs+w) := (rfl)
@[simp] theorem exec_andi : exec h (.andi rd rs w) = h.set rd (h.get rs &&& w) := (rfl)
@[simp] theorem exec_lw : exec h (.lw rd w rs) = h.set rd (load h.mem (h.get rs+w)) := (rfl)
@[simp] theorem exec_sw : exec h (.sw rd w rs) = h.setMem (store h.mem (h.get rs+w) (h.get rd)) := (rfl)
@[simp] theorem exec_csrr : exec h (.csrr rd c) = h.set rd (h.csr c) := (rfl)
@[simp] theorem exec_csrw : exec h (.csrw c rs) = h.setCsr c (h.get rs) := (rfl)
@[simp] theorem exec_csrs : exec h (.csrs c rs) = h.setCsr c (h.csr c ||| h.get rs) := (rfl)
end

/-- A register that is zero or else loaded with a constant. -/
theorem beqz_li {rd : Reg} (nonzero : rd ≠ 0) (v : Word) (h : Hart) :
    beqz rd [.li rd v] h = h.set rd (if h.get rd = 0 then 0 else v) := by
  by_cases zero : h.get rd = 0
  · have same : h.x rd = 0 := by simpa [Hart.get,nonzero] using zero
    rw [beqz,if_pos zero,if_pos zero,← same,Hart.set,Function.update_eq_self]
    rfl
  · rw [beqz,if_neg zero,if_neg zero,run_cons,run_nil,exec]

/-! ### Interrupt enable -/

/-- `mstatus.MIE`, interrupts are taken. -/
def Hart.mie (h : Hart) : Bool := (h.csr .mstatus).getLsbD 3

/-- `mstatus.MPIE`, what `MIE` was before the last trap. -/
def Hart.mpie (h : Hart) : Bool := (h.csr .mstatus).getLsbD 7

/-- A trap taken in machine mode: `MPIE` takes `MIE`, `MIE` is cleared, `MPP` is
    machine mode. -/
def trap (cause : Word) (h : Hart) : Hart :=
  let mstatus := (h.csr .mstatus &&& ~~~ 0x88) ||| (if h.mie then 0x80 else 0) ||| 0x1800
  ((h.setCsr .mepc h.pc).setCsr .mcause cause).setCsr .mstatus mstatus

/-- `mret`: `MIE` takes `MPIE`, `MPIE` is set. -/
def mret (h : Hart) : Hart :=
  let mstatus := (h.csr .mstatus &&& ~~~ 0x88) ||| (if h.mpie then 8 else 0) ||| 0x80
  { h.setCsr .mstatus mstatus with pc := h.csr .mepc }

theorem mret_get (h : Hart) (r : Reg) : (mret h).get r = h.get r := (rfl)
theorem mret_f (h : Hart) : (mret h).f = h.f := (rfl)
theorem mret_mem (h : Hart) : (mret h).mem = h.mem := (rfl)
theorem mret_pc (h : Hart) : (mret h).pc = h.csr .mepc := (rfl)

theorem trap_mem (cause : Word) (h : Hart) : (trap cause h).mem = h.mem := (rfl)
theorem trap_mepc (cause : Word) (h : Hart) : (trap cause h).csr .mepc = h.pc := (rfl)

theorem mie_mret (h : Hart) : (mret h).mie = h.mpie := by
  cases before : h.mpie <;> simp [mret,Hart.mie,Hart.setCsr,before]

theorem mpie_mret (h : Hart) : (mret h).mpie = true := by
  simp [mret,Hart.mpie,Hart.setCsr]

theorem mpie_trap (cause : Word) (h : Hart) : (trap cause h).mpie = h.mie := by
  cases before : h.mie <;> simp [trap,Hart.mpie,Hart.setCsr,before]

/-! ### Blocks of saves and restores -/

/-- The registers from the `n`-th on. -/
def upFrom (n : Nat) : List Reg := (List.finRange 32).filter (n ≤ ·.val)

@[simp] theorem mem_upFrom {n : Nat} {r : Reg} : r ∈ upFrom n ↔ n ≤ r.val := by simp [upFrom]

theorem upFrom_nodup (n : Nat) : (upFrom n).Nodup := (List.nodup_finRange 32).filter _

def saveX (base : Reg) (rs : List Reg) : List Instr := rs.map fun r => .sw r (BitVec.ofNat 32 (4*r.val)) base
def saveF (base : Reg) (rs : List Reg) : List Instr := rs.map fun r => .fsw r (BitVec.ofNat 32 (4*r.val)) base
def restoreX (base : Reg) (rs : List Reg) : List Instr := rs.map fun r => .lw r (BitVec.ofNat 32 (4*r.val)) base
def restoreF (base : Reg) (rs : List Reg) : List Instr := rs.map fun r => .flw r (BitVec.ofNat 32 (4*r.val)) base

theorem run_saveX (base : Reg) (rs : List Reg) (h : Hart) :
    run (saveX base rs) h = h.setMem (lay h.mem (h.get base) (rs.map fun r => (r.val,h.get r))) := by
  induction rs generalizing h with
  | nil => rfl
  | cons r rest ih => exact ih _

theorem run_saveF (base : Reg) (rs : List Reg) (h : Hart) :
    run (saveF base rs) h = h.setMem (lay h.mem (h.get base) (rs.map fun r => (r.val,h.f r))) := by
  induction rs generalizing h with
  | nil => rfl
  | cons r rest ih => exact ih _

/-- Registers with some of them taken from slots. -/
def taken (rs : List Reg) (m : Memory) (base : Word) (old : Reg → Word) (r : Reg) : Word :=
  if r ∈ rs then load m (slot base r.val) else old r

theorem taken_cons (r : Reg) (rest : List Reg) (m : Memory) (base : Word) (old : Reg → Word) :
    taken rest m base (Function.update old r (load m (slot base r.val))) = taken (r :: rest) m base old := by
  funext q
  by_cases here : q = r
  · subst here; simp [taken]
  · simp [taken,here]

theorem taken_get {rs : List Reg} (nonzero : (0 : Reg) ∉ rs) (m : Memory) (base : Word) (h : Hart) (r : Reg) :
    (h.setX (taken rs m base h.x)).get r = if r ∈ rs then load m (slot base r.val) else h.get r := by
  by_cases zero : r = 0
  · subst zero; simp [nonzero,Hart.get]
  · rw [Hart.setX_get,if_neg zero,taken,Hart.get,if_neg zero]

theorem run_restoreX {base : Reg} {rs : List Reg} (kept : base ∉ rs) (h : Hart) :
    run (restoreX base rs) h = h.setX (taken rs h.mem (h.get base) h.x) := by
  induction rs generalizing h with
  | nil => rfl
  | cons r rest ih =>
    rw [List.mem_cons,not_or] at kept
    have same := h.set_get_other r base (load h.mem (slot (h.get base) r.val)) kept.1
    have later := ih kept.2 (h.set r (load h.mem (slot (h.get base) r.val)))
    rw [same] at later
    rw [← taken_cons]
    exact later

theorem run_restoreF (base : Reg) (rs : List Reg) (h : Hart) :
    run (restoreF base rs) h = h.setF (taken rs h.mem (h.get base) h.f) := by
  induction rs generalizing h with
  | nil => rfl
  | cons r rest ih =>
    rw [← taken_cons]
    exact ih (h.setF (Function.update h.f r (load h.mem (slot (h.get base) r.val))))

end Ucm108e.Rv32
