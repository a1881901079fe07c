import Mathlib
import Ucm108e.Loops
import Ucm108e.FlashRange

/-!
The interrupt enable bit of the processor during the flash operations of
`drv_onchip_flash.c`. Each operation is made between `int_disable` and `int_enable`,
so that the bit is off during all of them. But `int_enable` does not put the bit back:
it turns it on, and a caller that had turned it off finds it on.
-/
namespace Ucm108e.CriticalSection
open Ucm108e.Bytes Ucm108e.Words Ucm108e.Flash Ucm108e.Programming Ucm108e.FlashRange Ucm108e.Loops
set_option linter.unusedSimpArgs false

/-! ### Turn by turn -/

structure Reading where
  chip : Chip
  buf : Mem
  index : Nat

def Reading.more (size : Nat) (s : Reading) : Bool := s.index < size

/-- One turn of `readLoop`. -/
def readTurn (addr size : Nat) (s : Reading) : Reading :=
  let p := part addr s.index size
  let (c,words) := FlashQRead (int_disable s.chip) p.wordAddr 4
  let read_data := BSWAP_32 (words.headD 0)
  ⟨int_enable c,store s.buf s.index (window (byte read_data) p.addr_offset p.order_len),(s.index+p.order_len) % 2^32⟩

/-- `onchip_flash_read` of one word. -/
def readWord (c : Chip) (a : Nat) : Chip × Mem :=
  let s := readTurn a 4 ⟨c,byte 0,0⟩
  (s.chip,s.buf)

structure Writing where
  chip : Chip
  index : Nat
  result : Int

def Writing.more (size : Nat) (s : Writing) : Bool := s.index < size && s.result = RT_EOK

/-- The comparison at the end of a turn of `writeLoop`, with the chip and the word that
    were read back. -/
def compared (p : Part) (write_data : Word) (index : Nat) (back : Chip × Mem) : Writing :=
  let read_back_data := BSWAP_32 (ofBytes back.2)
  if window (byte write_data) p.addr_offset p.order_len ≠ window (byte read_back_data) p.addr_offset p.order_len
  then ⟨back.1,index,-RT_ERROR⟩
  else ⟨back.1,(index+p.order_len) % 2^32,RT_EOK⟩

/-- One turn of `writeLoop`. -/
def writeTurn (addr : Nat) (buf : Mem) (size : Nat) (s : Writing) : Writing :=
  let p := part addr s.index size
  let base := if p.addr_offset > 0 ∨ p.order_len < 4 then readWord s.chip p.wordAddr else (s.chip,byte 0)
  let write_data := BSWAP_32 (ofBytes (store base.2 p.addr_offset (window buf s.index p.order_len)))
  let c := int_enable (FlashWrite (int_disable base.1) p.wordAddr (byte write_data) 4)
  compared p write_data s.index (readWord c p.wordAddr)

structure Erasing where
  chip : Chip
  index : Nat

def Erasing.more (size : Nat) (s : Erasing) : Bool := s.index < size

/-- One turn of `eraseLoop`. -/
def eraseTurn (addr : Nat) (s : Erasing) : Erasing :=
  ⟨int_enable (FlashEraseSector (int_disable s.chip) ((addr+s.index) % 2^32)),(s.index+FLASH_SECTOR_SIZE) % 2^32⟩

theorem readLoop_run (addr size turns : Nat) (s : Reading) :
    readLoop s.chip addr s.buf size turns s.index
      = (run (Reading.more size) (readTurn addr size) turns s).map fun s => (s.chip,s.buf) := by
  refine run_unique (f := fun turns s => readLoop s.chip addr s.buf size turns s.index) ?_ ?_ ?_ turns s
  · intro turns s ended
    exact readLoop_done _ _ _ turns (of_decide_eq_false ended)
  · intro s more
    exact if_pos (of_decide_eq_true more)
  · intro turns s more
    exact if_pos (of_decide_eq_true more)

theorem eraseLoop_run (addr size turns : Nat) (s : Erasing) :
    eraseLoop s.chip addr size turns s.index
      = (run (Erasing.more size) (eraseTurn addr) turns s).map Erasing.chip := by
  refine run_unique (f := fun turns s => eraseLoop s.chip addr size turns s.index) ?_ ?_ ?_ turns s
  · intro turns s ended
    exact eraseLoop_done _ _ turns (of_decide_eq_false ended)
  · intro s more
    exact if_pos (of_decide_eq_true more)
  · intro turns s more
    exact if_pos (of_decide_eq_true more)

/-- A read of one word takes one turn. -/
theorem read_word_turn (turns : Nat) (c : Chip) {a : Nat} (low : a < 2^32) (aligned : a % 4 = 0) :
    onchip_flash_read (turns+1) c a (byte 0) 4 = some ((readWord c a).1,(readWord c a).2,4) := by
  have whole : (part a 0 4).order_len = 4 := by
    simp only [part]
    split <;> omega
  have ended : Reading.more 4 (readTurn a 4 ⟨c,byte 0,0⟩) = false := by
    simp [Reading.more,readTurn,whole]
  have loop := readLoop_run a 4 (turns+1) ⟨c,byte 0,0⟩
  rw [run_succ rfl,run_ended ended] at loop
  rw [onchip_flash_read,Nat.mod_eq_of_lt low,loop]
  rfl

theorem part_word (addr index size : Nat) :
    (part addr index size).wordAddr < 2^32 ∧ (part addr index size).wordAddr % 4 = 0 := by
  simp only [part]
  omega

theorem writeBase_turn (turns : Nat) (c : Chip) (addr index size : Nat) :
    writeBase (turns+1) c (part addr index size)
      = some (if (part addr index size).addr_offset > 0 ∨ (part addr index size).order_len < 4
          then readWord c (part addr index size).wordAddr else (c,byte 0)) := by
  obtain ⟨low,aligned⟩ := part_word addr index size
  unfold writeBase
  split
  · rw [read_word_turn turns c low aligned]
    rfl
  · rfl

theorem writeLoop_succ {addr index size : Nat} (more : index < size) (turns : Nat) (c : Chip) (buf : Mem) :
    writeLoop c addr buf size (turns+1) index
      = let s := writeTurn addr buf size ⟨c,index,RT_EOK⟩
        if s.result = RT_EOK then writeLoop s.chip addr buf size turns s.index else some (s.chip,s.result) := by
  obtain ⟨low,aligned⟩ := part_word addr index size
  rw [writeLoop,if_pos more]
  simp only [writeBase_turn,read_word_turn turns _ low aligned,Option.bind_eq_bind,Option.bind_some,writeTurn,compared]
  generalize (if (part addr index size).addr_offset > 0 ∨ (part addr index size).order_len < 4
    then readWord c (part addr index size).wordAddr else (c,byte 0)) = base
  split
  · rfl
  · rfl

theorem writeLoop_run (addr : Nat) (buf : Mem) (size turns : Nat) (c : Chip) (index : Nat) :
    writeLoop c addr buf size turns index
      = (run (Writing.more size) (writeTurn addr buf size) turns ⟨c,index,RT_EOK⟩).map fun s => (s.chip,s.result) := by
  have going : ∀ {s : Writing}, Writing.more size s = true → s.index < size ∧ s.result = RT_EOK := by
    intro s more
    simpa [Writing.more] using more
  refine run_unique (f := fun turns (s : Writing) =>
    if s.result = RT_EOK then writeLoop s.chip addr buf size turns s.index else some (s.chip,s.result)) ?_ ?_ ?_ turns
    ⟨c,index,RT_EOK⟩
  · intro turns s ended
    by_cases good : s.result = RT_EOK
    · have behind : ¬ s.index < size := by simpa [Writing.more,good] using ended
      rw [if_pos good,writeLoop_done _ _ _ _ behind,good]
    · rw [if_neg good]
  · intro s more
    obtain ⟨inside,good⟩ := going more
    rw [if_pos good,writeLoop,if_pos inside]
  · rintro turns ⟨c,index,result⟩ more
    obtain ⟨inside,rfl⟩ := going more
    exact (if_pos rfl).trans (writeLoop_succ inside turns c buf)

/-! ### The bit during the operations -/

/-- The operations between two states of the chip were all made with the bit off. -/
def MaskedSince (c c' : Chip) : Prop := ∃ made, c'.operations = c.operations ++ made ∧ ∀ op ∈ made, op.2 = false

theorem MaskedSince.refl (c : Chip) : MaskedSince c c := ⟨[],(List.append_nil _).symm,fun _ none => absurd none List.not_mem_nil⟩

theorem MaskedSince.trans {c c' c'' : Chip} (first : MaskedSince c c') (second : MaskedSince c' c'') :
    MaskedSince c c'' := by
  obtain ⟨made,operations,off⟩ := first
  obtain ⟨made',operations',off'⟩ := second
  refine ⟨made ++ made',by rw [operations',operations,List.append_assoc],fun op member => ?_⟩
  rcases List.mem_append.mp member with earlier | later
  · exact off op earlier
  · exact off' op later

/-- With the bit off, a function of the flash makes its operations and leaves it off. -/
structure Masked (c c' : Chip) : Prop where
  off : c'.mie = false
  since : MaskedSince c c'

theorem masked_record {c : Chip} (off : c.mie = false) (op : Operation) : Masked c (c.record op) := by
  refine ⟨off,[(op,c.mie)],rfl,fun made member => ?_⟩
  rw [List.mem_singleton.mp member]
  exact off

theorem Masked.trans {c c' c'' : Chip} (first : Masked c c') (second : Masked c' c'') : Masked c c'' :=
  ⟨second.off,first.since.trans second.since⟩

theorem masked_erase {c : Chip} (off : c.mie = false) (nBaseAddr : Nat) : Masked c (FlashEraseSector c nBaseAddr) := by
  have both := (masked_record off .enableWr).trans (masked_record (c := c.record .enableWr) off (.eraseSector nBaseAddr))
  exact ⟨both.off,both.since⟩

theorem masked_program {c : Chip} (off : c.mie = false) (nAddr : Nat) (pData : Mem) (usLen : Nat) :
    Masked c (FlashPageProgram (FlashEnableWr c) nAddr pData usLen) := by
  have both := (masked_record off .enableWr).trans (masked_record (c := c.record .enableWr) off
    (.pageProgram nAddr (((spi_write_fifo pData (usLen*8)).flatMap sent).take usLen)))
  exact ⟨both.off,both.since⟩

theorem masked_foldl {α : Type} {f : Chip → α → Chip} (each : ∀ c x, c.mie = false → Masked c (f c x)) (xs : List α)
    {c : Chip} (off : c.mie = false) : Masked c (xs.foldl f c) := by
  induction xs generalizing c with
  | nil => exact ⟨off,.refl c⟩
  | cons x rest ih => exact (each c x off).trans (ih (each c x off).off)

theorem masked_write {c : Chip} (off : c.mie = false) (nAddr : Nat) (pData : Mem) (usLen : Nat) :
    Masked c (FlashWrite c nAddr pData usLen) :=
  masked_foldl (fun _ _ off => masked_program off _ _ _) _ off

/-- From one state of the chip to another, all operations are made with the bit off, and
    it is turned on in the end. -/
structure Guarded (c c' : Chip) : Prop where
  on : c'.mie = true
  since : MaskedSince c c'

theorem guarded {c c' : Chip} (masked : Masked (int_disable c) c') : Guarded c (int_enable c') := ⟨rfl,masked.since⟩

theorem readTurn_guarded (addr size : Nat) (s : Reading) : Guarded s.chip (readTurn addr size s).chip :=
  guarded (masked_record rfl _)

theorem eraseTurn_guarded (addr : Nat) (s : Erasing) : Guarded s.chip (eraseTurn addr s).chip :=
  guarded (masked_erase rfl _)

theorem compared_chip (p : Part) (write_data : Word) (index : Nat) (back : Chip × Mem) :
    (compared p write_data index back).chip = back.1 := by
  simp only [compared]
  split <;> rfl

theorem readWord_guarded (c : Chip) (a : Nat) : Guarded c (readWord c a).1 := readTurn_guarded a 4 ⟨c,byte 0,0⟩

theorem writeTurn_guarded (addr : Nat) (buf : Mem) (size : Nat) (s : Writing) :
    Guarded s.chip (writeTurn addr buf size s).chip := by
  have base : MaskedSince s.chip (if (part addr s.index size).addr_offset > 0 ∨ (part addr s.index size).order_len < 4
      then readWord s.chip (part addr s.index size).wordAddr else (s.chip,byte 0)).1 := by
    split
    · exact (readWord_guarded _ _).since
    · exact .refl _
  rw [writeTurn,compared_chip]
  exact ⟨(readWord_guarded _ _).on,
    base.trans ((guarded (masked_write rfl _ _ _)).since.trans (readWord_guarded _ _).since)⟩

section
variable {σ : Type} {test : σ → Bool} {body : σ → σ} (chip : σ → Chip)
  (each : ∀ s, Guarded (chip s) (chip (body s)))
include each

theorem after_masked (s : σ) (turns : Nat) : MaskedSince (chip s) (chip (after test body turns s)) :=
  after_invariant (I := fun s' => MaskedSince (chip s) (chip s')) (fun s' since _ => since.trans (each s').since)
    (.refl _) turns

/-- A loop that has made a turn leaves the bit on. -/
theorem run_on {s s' : σ} (more : test s = true) {turns : Nat} (ends : run test body turns s = some s') :
    (chip s').mie = true := by
  cases turns with
  | zero =>
    rw [run_zero more] at ends
    cases ends
  | succ turns =>
    rw [run_succ more] at ends
    obtain ⟨rfl,-⟩ := run_eq_some.mp ends
    exact after_invariant (I := fun s => (chip s).mie = true) (fun s _ _ => (each s).on) (each s).on turns

/-- The chip at the end of a loop: as it was before, or with the bit on. -/
theorem run_chip {s : σ} {idle : Prop} (enters : test s = true ↔ ¬ idle) {turns : Nat} {c' : Chip}
    (returned : (run test body turns s).map chip = some c') :
    c' = chip (after test body turns s) ∧ (¬ idle → c'.mie = true) ∧ (idle → c' = chip s) := by
  obtain ⟨s',ends,rfl⟩ := Option.map_eq_some_iff.mp returned
  obtain ⟨rfl,-⟩ := run_eq_some.mp ends
  refine ⟨rfl,fun works => run_on chip each (enters.mpr works) ends,fun idle => ?_⟩
  rw [after_ended (Bool.eq_false_iff.mpr fun more => enters.mp more idle)]
end

/-! ### The calls -/

/-- The functions of the driver, with their arguments. -/
inductive Call where
  | read (offset : UInt32) (buf : Mem) (size : UInt32)
  | write (offset : UInt32) (buf : Mem) (size : UInt32)
  | erase (offset size : UInt32)

def Call.offset : Call → UInt32
  | .read offset _ _ | .write offset _ _ | .erase offset _ => offset

def Call.size : Call → UInt32
  | .read _ _ size | .write _ _ size | .erase _ size => size

/-- The chip when the call returns, if so many turns of its loop suffice. -/
def Call.returned (turns : Nat) (c : Chip) : Call → Option Chip
  | .read offset buf size => (onchip_flash_read turns c offset.toNat buf size.toNat).map Prod.fst
  | .write offset buf size => (onchip_flash_write turns c offset.toNat buf size.toNat).map Prod.fst
  | .erase offset size => (onchip_flash_erase turns c offset.toNat size.toNat).map Prod.fst

/-- A write is turned down when the end of its range, cut to 32 bits, lies behind the chip. -/
def Call.refused : Call → Bool
  | .write offset _ size => (offset.toNat+size.toNat) % 2^32 > FLASH_SECTOR_SIZE*FLASH_SECTOR_OF_CHIP
  | _ => false

/-- The chip after so many turns of the loop, whether the call has returned or not. -/
def Call.reached (turns : Nat) (c : Chip) (call : Call) : Chip :=
  if call.refused then c else
  match call with
  | .read offset buf size =>
    (after (Reading.more size.toNat) (readTurn offset.toNat size.toNat) turns ⟨c,buf,0⟩).chip
  | .write offset buf size =>
    (after (Writing.more size.toNat) (writeTurn offset.toNat buf size.toNat) turns ⟨c,0,RT_EOK⟩).chip
  | .erase offset size =>
    (after (Erasing.more size.toNat) (eraseTurn (offset.toNat/FLASH_SECTOR_SIZE*FLASH_SECTOR_SIZE)) turns ⟨c,0⟩).chip

/-- A call that does not enter its loop. -/
def Call.Idle (call : Call) : Prop := call.refused = true ∨ call.size = 0

theorem read_returned (turns : Nat) (c : Chip) (offset : UInt32) (buf : Mem) (size : UInt32) :
    (Call.read offset buf size).returned turns c
      = (run (Reading.more size.toNat) (readTurn offset.toNat size.toNat) turns ⟨c,buf,0⟩).map Reading.chip := by
  have loop := readLoop_run offset.toNat size.toNat turns ⟨c,buf,0⟩
  simp only at loop
  rw [Call.returned,onchip_flash_read,Nat.mod_eq_of_lt offset.toNat_lt,loop,Option.map_map,Option.map_map]
  rfl

theorem erase_returned (turns : Nat) (c : Chip) (offset size : UInt32) : (Call.erase offset size).returned turns c
    = (run (Erasing.more size.toNat) (eraseTurn (offset.toNat/FLASH_SECTOR_SIZE*FLASH_SECTOR_SIZE)) turns
      ⟨c,0⟩).map Erasing.chip := by
  have loop := eraseLoop_run (offset.toNat/FLASH_SECTOR_SIZE*FLASH_SECTOR_SIZE) size.toNat turns ⟨c,0⟩
  simp only at loop
  rw [Call.returned,onchip_flash_erase,Nat.mod_eq_of_lt offset.toNat_lt,loop,Option.map_map,Option.map_map]
  rfl

theorem write_returned (turns : Nat) (c : Chip) (offset : UInt32) (buf : Mem) (size : UInt32) :
    (Call.write offset buf size).returned turns c
      = if (Call.write offset buf size).refused then some c
        else (run (Writing.more size.toNat) (writeTurn offset.toNat buf size.toNat) turns ⟨c,0,RT_EOK⟩).map
          Writing.chip := by
  simp only [Call.returned,onchip_flash_write,Nat.mod_eq_of_lt offset.toNat_lt,Call.refused,decide_eq_true_eq]
  split
  · rfl
  · split
    next empty =>
      have ended : Writing.more size.toNat ⟨c,0,RT_EOK⟩ = false := by
        simp only [Writing.more,Bool.and_eq_false_iff,decide_eq_false_iff_not]
        omega
      rw [run_ended ended]
      rfl
    next =>
      rw [writeLoop_run,Option.map_map,Option.map_map]
      rfl

theorem size_pos {size : UInt32} : 0 < size.toNat ↔ ¬ size = 0 := by
  rw [← UInt32.toNat_inj]
  exact Nat.pos_iff_ne_zero

/-- What a call that has returned leaves: the chip it has reached, with the bit on, or as
    it was where the call is idle. -/
theorem returned_spec {turns : Nat} {c c' : Chip} {call : Call} (returned : call.returned turns c = some c') :
    c' = call.reached turns c ∧ (¬ call.Idle → c'.mie = true) ∧ (call.Idle → c' = c) := by
  cases call with
  | read offset buf size =>
    rw [read_returned] at returned
    refine run_chip Reading.chip (readTurn_guarded _ _) ?_ returned
    simp [Reading.more,Call.Idle,Call.refused,Call.size,size_pos]
  | write offset buf size =>
    rw [write_returned] at returned
    unfold Call.reached
    cases refused : (Call.write offset buf size).refused with
    | true =>
      rw [refused] at returned
      cases returned
      exact ⟨rfl,fun works => absurd (.inl refused) works,fun _ => rfl⟩
    | false =>
      rw [refused] at returned
      refine run_chip Writing.chip (writeTurn_guarded _ _ _) ?_ returned
      simp [Writing.more,Call.Idle,refused,Call.size,size_pos]
  | erase offset size =>
    rw [erase_returned] at returned
    refine run_chip Erasing.chip (eraseTurn_guarded _) ?_ returned
    simp [Erasing.more,Call.Idle,Call.refused,Call.size,size_pos]

theorem reached_masked (turns : Nat) (c : Chip) (call : Call) : MaskedSince c (call.reached turns c) := by
  unfold Call.reached
  split
  · exact .refl c
  · cases call with
    | read offset buf size => exact after_masked Reading.chip (readTurn_guarded _ _) ⟨c,buf,0⟩ turns
    | write offset buf size => exact after_masked Writing.chip (writeTurn_guarded _ _ _) ⟨c,0,RT_EOK⟩ turns
    | erase offset size => exact after_masked Erasing.chip (eraseTurn_guarded _) ⟨c,0⟩ turns

/-- Within the chip, calls return. -/
theorem returns_within {call : Call} (inside : call.offset.toNat+call.size.toNat ≤ 2^21) (c : Chip) :
    ∃ turns c', call.returned turns c = some c' := by
  cases call with
  | read offset buf size =>
    change offset.toNat+size.toNat ≤ 2^21 at inside
    obtain ⟨c',loop,-⟩ := readLoop_spec inside size.toNat c buf 0 (Nat.zero_le _) (Nat.le_refl _)
    refine ⟨size.toNat,c',?_⟩
    rw [Call.returned,onchip_flash_read,Nat.mod_eq_of_lt offset.toNat_lt,loop]
    rfl
  | write offset buf size =>
    change offset.toNat+size.toNat ≤ 2^21 at inside
    obtain ⟨c',ret,run,-⟩ := write_spec c buf inside (Nat.le_refl _)
    exact ⟨size.toNat,c',by rw [Call.returned,run]; rfl⟩
  | erase offset size =>
    change offset.toNat+size.toNat ≤ 2^21 at inside
    have small : size.toNat ≤ 0xfffff000 := by omega
    obtain ⟨turns,ends⟩ := (erase_isSome_iff c offset.toNat).mpr small
    obtain ⟨⟨c',ret⟩,run⟩ := Option.isSome_iff_exists.mp ends
    exact ⟨turns,c',by rw [Call.returned,run]; rfl⟩

/-- The bit is as it was before, and has been off during every operation of the flash. -/
structure Keeps (c c' : Chip) : Prop where
  restored : c'.mie = c.mie
  masked : MaskedSince c c'

/-- A call that returns has kept the critical section of its caller exactly when there was
    none, the bit being on, or when the call makes no operation. The bit is off during the
    operations of every call, also of one that does not return; calls within the chip do
    return. -/
theorem critical_section_iff (c : Chip) (call : Call) :
    (∀ turns c', call.returned turns c = some c' →
      c' = call.reached turns c ∧ (Keeps c c' ↔ c.mie = true ∨ call.Idle))
      ∧ (∀ turns, MaskedSince c (call.reached turns c))
      ∧ (call.offset.toNat+call.size.toNat ≤ FLASH_SECTOR_SIZE*FLASH_SECTOR_OF_CHIP →
        ∃ turns c', call.returned turns c = some c') := by
  refine ⟨fun turns c' returned => ?_,fun turns => reached_masked turns c call,fun inside => returns_within inside c⟩
  obtain ⟨reached,on,same⟩ := returned_spec returned
  refine ⟨reached,fun keeps => ?_,fun harmless => ⟨?_,?_⟩⟩
  · by_cases idle : call.Idle
    · exact .inr idle
    · exact .inl (keeps.restored.symm.trans (on idle))
  · by_cases idle : call.Idle
    · rw [same idle]
    · rw [on idle,harmless.resolve_right idle]
  · rw [reached]
    exact reached_masked turns c call

theorem critical_section_erase :
    ∃ c', (Call.erase 0 8192).returned 2 ⟨fun _ => 0,true,[]⟩ = some c' ∧ c'.operations.length = 4
      ∧ Keeps ⟨fun _ => 0,true,[]⟩ c' := by
  refine ⟨_,rfl,rfl,?_⟩
  apply ((critical_section_iff _ (.erase 0 8192)).1 2 _ rfl).2.mpr
  exact .inl rfl

/-- A read of one word turns on the interrupts that its caller had turned off. -/
theorem section_lost :
    ((onchip_flash_read 1 ⟨fun _ => 0,false,[]⟩ 0 (fun _ => 0) 4).map fun (c,_,ret) => (c.mie,ret)) = some (true,4) := by
  decide +kernel

end Ucm108e.CriticalSection
