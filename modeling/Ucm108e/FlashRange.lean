import Mathlib
import Ucm108e.Programming

/-!
The ranges that the flash driver is given. A read copies its range whatever its
alignment. A write compares the end of its range with the size of the chip after
the sum has been cut to 32 bits, so that a range whose end wraps around is let
through. An erase starts at the sector of its offset and erases as many sectors
as its size alone asks for.
-/
namespace Ucm108e.FlashRange
open Ucm108e.Bytes Ucm108e.Words Ucm108e.Flash Ucm108e.Programming
set_option linter.unusedSimpArgs false

/-! ### Reading -/

/-- A read within the chip comes to its end and copies exactly its range. -/
theorem read_exact {turns offset size : Nat} (c : Chip) (buf : Mem) (inside : offset+size ≤ 2^21)
    (enough : size ≤ turns) :
    ∃ c' buf', onchip_flash_read turns c offset buf size = some (c',buf',(size : Int))
      ∧ (∀ i < size, buf' i = c.cells (offset+i)) ∧ (∀ i, size ≤ i → buf' i = buf i) ∧ c'.cells = c.cells := by
  have addr : offset % 2^32 = offset := by omega
  obtain ⟨c',run,same⟩ := readLoop_spec inside turns c buf 0 (by omega) (by omega)
  rw [Nat.add_zero,Nat.sub_zero] at run
  refine ⟨c',store buf 0 (window c.cells offset size),?_,?_,?_,same⟩
  · simp only [onchip_flash_read,addr,run,Option.map_some,toInt_small (show size ≤ 2^21 by omega)]
  · intro i small
    have short : i < (window c.cells offset size).length := by simpa using small
    have copied := store_at buf 0 short
    rwa [Nat.zero_add,window_getElem] at copied
  · intro i behind
    exact store_behind (by simpa using behind)

/-- Six bytes from the middle of one word to the middle of the next but one. -/
theorem read_exact_erased :
    ∃ c' buf', onchip_flash_read 6 erased 3 (fun _ => 0) 6 = some (c',buf',((6 : Nat) : Int))
      ∧ (∀ i < 6, buf' i = erased.cells (3+i)) ∧ (∀ i, 6 ≤ i → buf' i = 0) ∧ c'.cells = erased.cells :=
  read_exact erased _ (by decide) (by decide)

/-! ### The check of a write -/

theorem readLoop_cells {addr size turns : Nat} : ∀ {c c' : Chip} {buf buf' : Mem} {index : Nat},
    readLoop c addr buf size turns index = some (c',buf') → c'.cells = c.cells := by
  induction turns with
  | zero =>
    intro c c' buf buf' index run
    rw [readLoop] at run
    split at run
    · cases run
    · cases run
      rfl
  | succ turns ih =>
    intro c c' buf buf' index run
    rw [readLoop] at run
    split at run
    · simp only [FlashQRead] at run
      have kept := ih run
      exact kept
    · cases run
      rfl

theorem read_cells {turns offset size : Nat} {c c' : Chip} {buf buf' : Mem} {ret : Int}
    (run : onchip_flash_read turns c offset buf size = some (c',buf',ret)) : c'.cells = c.cells := by
  obtain ⟨⟨c₁,buf₁⟩,loop,result⟩ := Option.map_eq_some_iff.mp run
  cases result
  exact readLoop_cells loop

theorem writeBase_cells {turns : Nat} {c c' : Chip} {p : Part} {base : Mem}
    (run : writeBase turns c p = some (c',base)) : c'.cells = c.cells := by
  rw [writeBase] at run
  split at run
  · obtain ⟨⟨c₁,buf₁,ret⟩,read,result⟩ := Option.map_eq_some_iff.mp run
    cases result
    exact read_cells read
  · cases run
    rfl

/-- What a turn of a write that comes to its end has done, wherever the range lies. -/
theorem writeLoop_cases {addr size turns index : Nat} {c c' : Chip} {buf : Mem} {result : Int} (more : index < size)
    (run : writeLoop c addr buf size (turns+1) index = some (c',result)) :
    ∃ c₁ base, (∀ i, c₁.cells i
        = if address (part addr index size).wordAddr ≤ i ∧ i < address (part addr index size).wordAddr+4
          then c.cells i &&& store base (part addr index size).addr_offset
            (window buf index (part addr index size).order_len) (i-address (part addr index size).wordAddr)
          else c.cells i)
      ∧ (c' = c₁ ∧ result = -RT_ERROR
        ∨ writeLoop c₁ addr buf size turns ((index+(part addr index size).order_len) % 2^32) = some (c',result)) := by
  rw [writeLoop,if_pos more] at run
  generalize part addr index size = p at run ⊢
  obtain ⟨⟨c₀,base⟩,loaded,run⟩ := Option.bind_eq_some_iff.mp run
  obtain ⟨⟨c₁,back,ret⟩,read,run⟩ := Option.bind_eq_some_iff.mp run
  refine ⟨c₁,base,?_,?_⟩
  · intro i
    have before : c₀.cells = c.cells := writeBase_cells loaded
    rw [read_cells read,← before]
    exact FlashWrite_turned (int_disable c₀) p.wordAddr _ i
  · simp only at run
    split at run
    · cases run
      exact Or.inl ⟨rfl,rfl⟩
    · exact Or.inr run

/-- A write never ends with another result, and a byte that is zero stays so. -/
theorem writeLoop_outcome {addr size turns : Nat} {buf : Mem} : ∀ {c c' : Chip} {index : Nat} {result : Int},
    writeLoop c addr buf size turns index = some (c',result) →
    (result = RT_EOK ∨ result = -RT_ERROR) ∧ ∀ i, c.cells i = 0 → c'.cells i = 0 := by
  have finished : ∀ {c c' : Chip} {result : Int}, some (c,RT_EOK) = some (c',result) →
      (result = RT_EOK ∨ result = -RT_ERROR) ∧ ∀ i, c.cells i = 0 → c'.cells i = 0 := by
    intro c c' result same
    cases same
    exact ⟨Or.inl rfl,fun _ zero => zero⟩
  induction turns with
  | zero =>
    intro c c' index result run
    rw [writeLoop] at run
    split at run
    · cases run
    · exact finished run
  | succ turns ih =>
    intro c c' index result run
    by_cases more : index < size
    · obtain ⟨c₁,base,cells,rest⟩ := writeLoop_cases more run
      have kept : ∀ i, c.cells i = 0 → c₁.cells i = 0 := by
        intro i zero
        rw [cells i,zero]
        split
        · exact UInt8.zero_and
        · rfl
      rcases rest with ⟨rfl,failed⟩ | later
      · exact ⟨Or.inr failed,kept⟩
      · exact ⟨(ih later).1,fun i zero => (ih later).2 i (kept i zero)⟩
    · rw [writeLoop_done c addr buf _ more] at run
      exact finished run

/-- A first byte that is zero is written, wherever the range lies. -/
theorem writeLoop_first {addr size turns : Nat} {buf : Mem} {c c' : Chip} {result : Int} (some_data : 0 < size)
    (zero : buf 0 = 0) (run : writeLoop c addr buf size turns 0 = some (c',result)) : ∃ i, c'.cells i = 0 := by
  cases turns with
  | zero =>
    rw [writeLoop,if_pos some_data] at run
    cases run
  | succ turns =>
    obtain ⟨c₁,base,cells,rest⟩ := writeLoop_cases some_data run
    have inWord : (part addr 0 size).addr_offset < 4 := Nat.mod_lt _ (by omega)
    have moves : 0 < (part addr 0 size).order_len := by
      simp only [part] at inWord ⊢
      split <;> omega
    generalize part addr 0 size = p at cells inWord moves
    have byteZero := cells (address p.wordAddr+p.addr_offset)
    have short : 0 < (window buf 0 p.order_len).length := by simpa using moves
    have stored := store_at base p.addr_offset short
    rw [Nat.add_zero,window_getElem,zero] at stored
    rw [if_pos (by omega),Nat.add_sub_cancel_left,stored,UInt8.and_zero] at byteZero
    refine ⟨address p.wordAddr+p.addr_offset,?_⟩
    rcases rest with ⟨rfl,-⟩ | later
    · exact byteZero
    · exact (writeLoop_outcome later).2 _ byteZero

/-- The write returns `-RT_EINVAL` and leaves the flash as it was. -/
def Rejects (c : Chip) (offset : Nat) (buf : Mem) (size : Nat) : Prop :=
  ∃ turns c', onchip_flash_write turns c offset buf size = some (c',-RT_EINVAL) ∧ c'.cells = c.cells

theorem rejects_of_past_end (c : Chip) {offset size : Nat} (buf : Mem) (offset32 : offset < 2^32)
    (past : (offset+size) % 2^32 > FLASH_SECTOR_SIZE*FLASH_SECTOR_OF_CHIP) : Rejects c offset buf size := by
  refine ⟨0,c,?_,rfl⟩
  rw [onchip_flash_write,Nat.mod_eq_of_lt offset32,if_pos past]

/-- A write that passes the check only returns `-RT_EINVAL` as the size of its
    data, and then has written it. -/
theorem accepted_outcome {turns offset size : Nat} {c c' : Chip} {buf : Mem} (offset32 : offset < 2^32)
    (size32 : size < 2^32) (fits : ¬ (offset+size) % 2^32 > FLASH_SECTOR_SIZE*FLASH_SECTOR_OF_CHIP)
    (run : onchip_flash_write turns c offset buf size = some (c',-RT_EINVAL)) :
    size = 2^32-10 ∧ (buf 0 = 0 → ∃ i, c'.cells i = 0) := by
  rw [onchip_flash_write,Nat.mod_eq_of_lt offset32,if_neg fits] at run
  by_cases empty : size < 1
  · obtain rfl : size = 0 := by omega
    rw [if_pos empty] at run
    cases run
  · rw [if_neg empty] at run
    obtain ⟨⟨c₁,result⟩,loop,returned⟩ := Option.map_eq_some_iff.mp run
    obtain ⟨same,value⟩ := Prod.mk.inj returned
    obtain rfl : c₁ = c' := same
    rcases (writeLoop_outcome loop).1 with rfl | rfl
    · have size_value : (BitVec.ofNat 32 size).toInt = -10 := value
      rw [BitVec.toInt_eq_toNat_cond,BitVec.toNat_ofNat,Nat.mod_eq_of_lt size32] at size_value
      refine ⟨?_,fun zero => writeLoop_first (by omega) zero loop⟩
      split at size_value <;> omega
    · cases value

/-- For every content and data a write rejects exactly what goes past the end of
    the chip, if the end of its range does not wrap around to an address within
    the chip, and only then. -/
theorem write_rejects_iff {offset size : Nat} (offset32 : offset < 2^32) (size32 : size < 2^32) :
    (∀ (c : Chip) (buf : Mem), Rejects c offset buf size ↔ offset+size > FLASH_SECTOR_SIZE*FLASH_SECTOR_OF_CHIP)
      ↔ offset+size < 2^32 ∨ (offset+size) % 2^32 > FLASH_SECTOR_SIZE*FLASH_SECTOR_OF_CHIP := by
  constructor
  · intro exact_check
    by_contra wraps
    obtain ⟨carry,fits⟩ := not_or.mp wraps
    have past : offset+size > FLASH_SECTOR_SIZE*FLASH_SECTOR_OF_CHIP := by
      simp only [FLASH_SECTOR_SIZE,FLASH_SECTOR_OF_CHIP]
      omega
    -- zeros over an erased chip leave a trace even where the size is returned as the error
    obtain ⟨turns,c',run,same⟩ := (exact_check erased (fun _ => 0)).mpr past
    obtain ⟨i,zero⟩ := (accepted_outcome offset32 size32 fits run).2 rfl
    rw [same] at zero
    cases zero
  · intro condition c buf
    by_cases past : (offset+size) % 2^32 > FLASH_SECTOR_SIZE*FLASH_SECTOR_OF_CHIP
    · exact iff_of_true (rejects_of_past_end c buf offset32 past) (Nat.lt_of_lt_of_le past (Nat.mod_le _ _))
    · have carry := condition.resolve_right past
      rw [Nat.mod_eq_of_lt carry] at past
      refine iff_of_false ?_ past
      rintro ⟨turns,c',run,-⟩
      have fits : ¬ (offset+size) % 2^32 > FLASH_SECTOR_SIZE*FLASH_SECTOR_OF_CHIP := by
        rwa [Nat.mod_eq_of_lt carry]
      obtain ⟨large,-⟩ := accepted_outcome offset32 size32 fits run
      simp only [FLASH_SECTOR_SIZE,FLASH_SECTOR_OF_CHIP] at past
      omega

/-- The last byte of the chip is accepted. -/
theorem write_rejects_last :
    (∀ (c : Chip) (buf : Mem), Rejects c 0x1fffff buf 1 ↔ 0x1fffff+1 > FLASH_SECTOR_SIZE*FLASH_SECTOR_OF_CHIP)
      ↔ 0x1fffff+1 < 2^32 ∨ (0x1fffff+1) % 2^32 > FLASH_SECTOR_SIZE*FLASH_SECTOR_OF_CHIP :=
  write_rejects_iff (by decide) (by decide)

/-- Two bytes at the top of the address space wrap around; the first is written
    where the address bus has its last cell. -/
theorem write_wraps :
    ((onchip_flash_write 2 erased 0xffffffff (fun _ => 0) 2).map fun (c,ret) => (c.cells 0xffffff,c.cells 0,ret))
      = some (0,0,2) := by
  decide +kernel

/-! ### Erasing -/

/-- The bytes of the sectors that an erase of `size` bytes goes through. -/
def swept (size : Nat) : Nat := (size+(FLASH_SECTOR_SIZE-1))/FLASH_SECTOR_SIZE*FLASH_SECTOR_SIZE

theorem swept_spec (size : Nat) : swept size % 4096 = 0 ∧ size ≤ swept size ∧ swept size < size+4096 := by
  simp only [swept,FLASH_SECTOR_SIZE]
  omega

theorem FlashEraseSector_cells (c : Chip) {a : Nat} (low : a < 2^24) (aligned : a % 4096 = 0) (i : Nat) :
    (FlashEraseSector c (a % 2^32)).cells i = if a ≤ i ∧ i < a+4096 then 0xff else c.cells i := by
  have here : address (a % 2^32) = a := by
    unfold address
    omega
  have sector : (i/4096 = a/4096) ↔ (a ≤ i ∧ i < a+4096) := by omega
  simp only [FlashEraseSector,here,FLASH_SECTOR_SIZE,sector]
  rfl

theorem eraseLoop_done (c : Chip) (addr turns : Nat) {size index : Nat} (done : ¬ index < size) :
    eraseLoop c addr size turns index = some c := by
  cases turns <;> simp [eraseLoop,done]

theorem next_sector {index : Nat} (small : index < 0xfffff000) : (index+FLASH_SECTOR_SIZE) % 2^32 = index+4096 := by
  simp only [FLASH_SECTOR_SIZE]
  omega

/-- The sectors from `index` to the end of those swept are erased, and no others. -/
theorem eraseLoop_cells {addr size turns : Nat} (aligned : addr % 4096 = 0) (low : addr+swept size ≤ 2^24) :
    ∀ {c c' : Chip} {index : Nat}, index % 4096 = 0 → index ≤ swept size →
    eraseLoop c addr size turns index = some c' →
    ∀ a, c'.cells a = if addr+index ≤ a ∧ a < addr+swept size then 0xff else c.cells a := by
  obtain ⟨whole,covers,tight⟩ := swept_spec size
  have finished : ∀ {c c' : Chip} {index turns : Nat}, index % 4096 = 0 → index ≤ swept size → ¬ index < size →
      eraseLoop c addr size turns index = some c' →
      ∀ a, c'.cells a = if addr+index ≤ a ∧ a < addr+swept size then 0xff else c.cells a := by
    intro c c' index turns sector within done run a
    rw [eraseLoop_done c addr turns done] at run
    cases run
    exact (if_neg (by omega)).symm
  induction turns with
  | zero =>
    intro c c' index sector within run
    by_cases more : index < size
    · rw [eraseLoop,if_pos more] at run
      cases run
    · exact finished sector within more run
  | succ turns ih =>
    intro c c' index sector within run a
    by_cases more : index < size
    · have next := @next_sector index (by omega)
      rw [eraseLoop,if_pos more,next] at run
      rw [ih (by omega) (by omega) run a]
      have erasedHere := FlashEraseSector_cells (int_disable c) (show addr+index < 2^24 by omega) (by omega) a
      by_cases later : addr+(index+4096) ≤ a ∧ a < addr+swept size
      · rw [if_pos later,if_pos (by omega)]
      · rw [if_neg later]
        refine erasedHere.trans ?_
        by_cases now : addr+index ≤ a ∧ a < addr+index+4096
        · rw [if_pos now,if_pos (by omega)]
        · rw [if_neg now,if_neg (by omega)]
          rfl
    · exact finished sector within more run a

theorem eraseLoop_ends {addr size turns : Nat} (moderate : size ≤ 0xfffff000) : ∀ (c : Chip) {index : Nat},
    index % 4096 = 0 → index ≤ 0xfffff000 → size ≤ index+4096*turns →
    (eraseLoop c addr size turns index).isSome := by
  induction turns with
  | zero =>
    intro c index sector small enough
    rw [eraseLoop_done c addr 0 (by omega)]
    rfl
  | succ turns ih =>
    intro c index sector small enough
    by_cases more : index < size
    · have next := @next_sector index (by omega)
      rw [eraseLoop,if_pos more,next]
      exact ih _ (by omega) (by omega) (by omega)
    · rw [eraseLoop_done c addr _ more]
      rfl

/-- No multiple of the sector size reaches such a size before the index wraps around. -/
theorem eraseLoop_endless {addr size turns : Nat} (large : 0xfffff000 < size) : ∀ (c : Chip) {index : Nat},
    index % 4096 = 0 → index < 2^32 → eraseLoop c addr size turns index = none := by
  induction turns with
  | zero =>
    intro c index sector small
    rw [eraseLoop,if_pos (by omega)]
  | succ turns ih =>
    intro c index sector small
    rw [eraseLoop,if_pos (by omega)]
    refine ih _ ?_ (Nat.mod_lt _ (by omega))
    simp only [FLASH_SECTOR_SIZE]
    omega

theorem erase_isSome_iff (c : Chip) (offset : Nat) {size : Nat} :
    (∃ turns, (onchip_flash_erase turns c offset size).isSome) ↔ size ≤ 0xfffff000 := by
  simp only [onchip_flash_erase,Option.isSome_map]
  constructor
  · rintro ⟨turns,ends⟩
    by_contra large
    rw [eraseLoop_endless (by omega) c (by omega) (by omega)] at ends
    cases ends
  · intro moderate
    exact ⟨size,eraseLoop_ends moderate c (by omega) (by omega) (by omega)⟩

theorem erase_cells {turns offset size : Nat} {c c' : Chip} {ret : Int} (inside : offset+size ≤ 2^21)
    (run : onchip_flash_erase turns c offset size = some (c',ret)) (a : Nat) :
    c'.cells a = if offset/4096*4096 ≤ a ∧ a < offset/4096*4096+swept size then 0xff else c.cells a := by
  have addr : offset % 2^32 = offset := by omega
  have sizes := swept_spec size
  rw [onchip_flash_erase,addr] at run
  obtain ⟨c₁,loop,result⟩ := Option.map_eq_some_iff.mp run
  obtain rfl : c₁ = c' := congrArg Prod.fst result
  simp only [FLASH_SECTOR_SIZE] at loop
  have cells := eraseLoop_cells (Nat.mul_mod_left _ _) (by omega) (Nat.zero_mod _) (Nat.zero_le _) loop a
  rwa [Nat.add_zero] at cells

/-- An erase within the chip that has come to its end leaves its whole range
    erased and all sectors outside untouched. -/
def Covers (c : Chip) (offset size : Nat) : Prop :=
  ∀ turns c', onchip_flash_erase turns c offset size = some (c',(size : Int)) →
    (∀ a, offset ≤ a → a < offset+size → c'.cells a = 0xff)
    ∧ ∀ a, (∀ b, offset ≤ b → b < offset+size → b/FLASH_SECTOR_SIZE ≠ a/FLASH_SECTOR_SIZE) → c'.cells a = c.cells a

theorem covers_of_blank {c : Chip} {offset size : Nat} (inside : offset+size ≤ 2^21)
    (blank : ∀ a, offset ≤ a → a < offset+size → offset/4096*4096+swept size ≤ a → c.cells a = 0xff) :
    Covers c offset size := by
  intro turns c' run
  have cells := erase_cells inside run
  constructor
  · intro a above below
    rw [cells a]
    split
    · rfl
    · exact blank a above below (by omega)
  · intro a outside
    obtain ⟨whole,-,tight⟩ := swept_spec size
    rw [cells a,if_neg]
    rintro ⟨above,below⟩
    -- the first byte of the range, or of the sector of `a`, lies in both
    by_cases first : a/4096 = offset/4096
    · exact outside offset (by omega) (by omega) first.symm
    · exact outside (a/4096*4096) (by omega) (by omega) (by simp only [FLASH_SECTOR_SIZE]; omega)

/-- An erase covers its range and comes to its end exactly when the bytes of the
    range behind as many sectors as the size alone fills are erased already, and
    the size is not within a sector of the end of the address space. -/
theorem erase_covers_iff (c : Chip) (offset size : Nat) :
    ((offset+size ≤ FLASH_SECTOR_SIZE*FLASH_SECTOR_OF_CHIP → Covers c offset size)
        ∧ ∃ turns, (onchip_flash_erase turns c offset size).isSome)
      ↔ (offset+size ≤ FLASH_SECTOR_SIZE*FLASH_SECTOR_OF_CHIP →
          ∀ a, offset ≤ a → a < offset+size → offset/FLASH_SECTOR_SIZE*FLASH_SECTOR_SIZE+swept size ≤ a →
            c.cells a = 0xff)
        ∧ size ≤ 0xfffff000 := by
  rw [erase_isSome_iff]
  have chip : FLASH_SECTOR_SIZE*FLASH_SECTOR_OF_CHIP = 2^21 := rfl
  have sector : FLASH_SECTOR_SIZE = 4096 := rfl
  rw [chip,sector]
  refine and_congr_left fun moderate => forall_congr' fun inside => ?_
  constructor
  · intro covers a above below behind
    obtain ⟨turns,ends⟩ := (erase_isSome_iff c offset).mpr moderate
    obtain ⟨⟨c',ret⟩,run⟩ := Option.isSome_iff_exists.mp ends
    obtain ⟨c₁,-,result⟩ := Option.map_eq_some_iff.mp run
    have value : ret = size := (congrArg Prod.snd result).symm.trans (toInt_small (by omega))
    rw [value] at run
    have whole := (covers turns c' run).1 a above below
    rwa [erase_cells inside run a,if_neg (by omega)] at whole
  · exact covers_of_blank inside

/-- Two bytes over the end of the first sector: only that sector is erased, and
    the erase returns 2. With the largest size there is no end. -/
theorem erase_misses :
    ((onchip_flash_erase 1 worn 4095 2).map fun (c,ret) => (c.cells 4095,c.cells 4096,ret)) = some (0xff,0,2)
      ∧ ∀ turns, onchip_flash_erase turns worn 0 0xffffffff = none := by
  refine ⟨by decide +kernel,?_⟩
  intro turns
  rw [onchip_flash_erase,eraseLoop_endless (by decide) worn (by decide) (by decide)]
  rfl

end Ucm108e.FlashRange
