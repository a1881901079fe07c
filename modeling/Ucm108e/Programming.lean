import Mathlib
import Ucm108e.Flash

/-!
What `onchip_flash_write` leaves in the flash and what it finds wrong when it
reads back. It compares the turned words at the offsets of the unturned ones, so
it looks at the mirror image of what it has written in each word: a byte that the
cells did not take is only found where its mirror image was written too.
-/
namespace Ucm108e.Programming
open Ucm108e.Bytes Ucm108e.Words Ucm108e.Flash
set_option linter.unusedSimpArgs false

/-! ### Parts of a word -/

/-- Within the chip nothing wraps around, and each turn moves on to the end of
    the data or of the word. -/
structure PartSpec (addr index size : Nat) (p : Part) : Prop where
  start : p.wordAddr+p.addr_offset = addr+index
  aligned : p.wordAddr % 4 = 0
  low : p.wordAddr < 2^21
  moves : 1 ≤ p.order_len
  inWord : p.addr_offset+p.order_len ≤ 4
  inData : index+p.order_len ≤ size
  next : (index+p.order_len) % 2^32 = index+p.order_len
  ends : index+p.order_len = size ∨ p.addr_offset+p.order_len = 4

theorem part_spec {addr index size : Nat} (inside : addr+size ≤ 2^21) (more : index < size) :
    PartSpec addr index size (part addr index size) := by
  have here : (addr+index) % 2^32 = addr+index := by omega
  have rest : (index+4-(addr+index) % 4) % 2^32 = index+4-(addr+index) % 4 := by omega
  have value : part addr index size = ⟨(addr+index)/4*4,(addr+index) % 4,
      if index+4-(addr+index) % 4 > size then size-index else 4-(addr+index) % 4⟩ := by
    simp only [part,here,rest]
  rw [value]
  by_cases short : index+4-(addr+index) % 4 > size
  · simp only [if_pos short]
    constructor <;> simp only <;> omega
  · simp only [if_neg short]
    constructor <;> simp only <;> omega

/-! ### Reading -/

theorem address_low {a : Nat} (low : a < 2^21) : address a = a := Nat.mod_eq_of_lt (by omega)

/-- The word that is read, turned around, has the bytes of the flash in their order. -/
theorem read_word_byte (c : Chip) {a k : Nat} (low : a < 2^21) (inWord : k < 4) :
    byte (BSWAP_32 ((FlashQRead c a 4).2.headD 0)) k = c.cells (a+k) := by
  have word : (FlashQRead c a 4).2.headD 0 = ofBytes fun k => c.cells (a+(3-k)) := by
    simp [FlashQRead,spi_read_fifo,num_words,address_low low]
  rw [byte_BSWAP_32 _ inWord,word,byte_ofBytes _ (by omega)]
  congr 1
  omega

theorem window_read (c : Chip) {a : Nat} (low : a < 2^21) {k n : Nat} (inWord : k+n ≤ 4) :
    window (byte (BSWAP_32 ((FlashQRead c a 4).2.headD 0))) k n = window c.cells (a+k) n := by
  have same : ∀ i < n, byte (BSWAP_32 ((FlashQRead c a 4).2.headD 0)) (k+i) = shift c.cells a (k+i) :=
    fun i more => read_word_byte c low (by omega)
  rw [window_congr same,window_shift]

theorem readLoop_done (c : Chip) (addr : Nat) (buf : Mem) (turns : Nat) {size index : Nat} (done : ¬ index < size) :
    readLoop c addr buf size turns index = some (c,buf) := by
  cases turns <;> simp [readLoop,done]

/-- One turn of the loop copies one part of the data. -/
theorem readLoop_turn {addr size index : Nat} (inside : addr+size ≤ 2^21) (more : index < size) (c : Chip) (buf : Mem)
    (turns : Nat) :
    ∃ c', c'.cells = c.cells ∧ readLoop c addr buf size (turns+1) index
      = readLoop c' addr (store buf index (window c.cells (addr+index) (part addr index size).order_len)) size turns
        (index+(part addr index size).order_len) := by
  have spec := part_spec inside more
  generalize shape : part addr index size = p at spec
  refine ⟨int_enable (FlashQRead (int_disable c) p.wordAddr 4).1,rfl,?_⟩
  have read := window_read (int_disable c) spec.low spec.inWord
  rw [spec.start] at read
  simp only [readLoop,if_pos more,shape,spec.next,read]
  rfl

theorem readLoop_spec {addr size : Nat} (inside : addr+size ≤ 2^21) (turns : Nat) :
    ∀ (c : Chip) (buf : Mem) (index : Nat), index ≤ size → size-index ≤ turns →
    ∃ c', readLoop c addr buf size turns index = some (c',store buf index (window c.cells (addr+index) (size-index)))
      ∧ c'.cells = c.cells := by
  induction turns with
  | zero =>
    intro c buf index le enough
    obtain rfl : index = size := by omega
    exact ⟨c,by simp [readLoop],rfl⟩
  | succ turns ih =>
    intro c buf index le enough
    by_cases more : index < size
    · have spec := part_spec inside more
      obtain ⟨c₁,same,turn⟩ := readLoop_turn inside more c buf turns
      generalize part addr index size = p at spec turn
      have inData := spec.inData
      have moves := spec.moves
      obtain ⟨c',result,cells⟩ := ih c₁ (store buf index (window c.cells (addr+index) p.order_len))
        (index+p.order_len) inData (by omega)
      refine ⟨c',?_,cells.trans same⟩
      have split : size-index = p.order_len+(size-(index+p.order_len)) := by omega
      rw [turn,result,split,window_add,← store_adjacent buf index _ _ (b := index+p.order_len) (by simp),same,
        Nat.add_assoc]
    · obtain rfl : index = size := by omega
      exact ⟨c,by simp [readLoop],rfl⟩

theorem toInt_small {size : Nat} (small : size ≤ 2^21) : (BitVec.ofNat 32 size).toInt = size := by
  have fits : size % 2^32 = size := by omega
  rw [BitVec.toInt_eq_toNat_of_lt]
  · simp only [BitVec.toNat_ofNat,fits]
  · simp only [BitVec.toNat_ofNat,fits]
    omega

/-- A word of the chip is read as it is, in one turn. -/
theorem read_word {a : Nat} (turns : Nat) (c : Chip) (low : a < 2^21) (aligned : a % 4 = 0) :
    ∃ c' buf, onchip_flash_read (turns+1) c a (byte 0) 4 = some (c',buf,4) ∧ c'.cells = c.cells
      ∧ ∀ k < 4, buf k = c.cells (a+k) := by
  have inside : a+4 ≤ 2^21 := by omega
  have more : 0 < 4 := by omega
  have spec := part_spec inside more
  obtain ⟨c',same,turn⟩ := readLoop_turn inside more c (byte 0) turns
  have whole : (part a 0 4).order_len = 4 := by
    have := spec.start
    have := spec.aligned
    have := spec.inWord
    have := spec.moves
    have := spec.ends
    omega
  rw [whole,readLoop_done c' _ _ _ (by omega)] at turn
  refine ⟨c',store (byte 0) 0 (window c.cells a 4),?_,same,?_⟩
  · simp only [onchip_flash_read,Nat.mod_eq_of_lt (show a < 2^32 by omega),turn,Option.map_some]
    rfl
  · intro k inWord
    have short : k < (window c.cells a 4).length := by simpa using inWord
    have at_k := store_at (byte 0) 0 short
    rw [Nat.zero_add] at at_k
    rw [at_k,window_getElem]

/-! ### Programming -/

/-- What the cells from `lo` to `hi` become when they are programmed with `want`. -/
def programmed (cells want : Mem) (lo hi : Nat) : Mem :=
  fun a => if lo ≤ a ∧ a < hi then cells a &&& want a else cells a

/-- A cell can take a byte when it still has all the ones of the byte. -/
def Takes (cells want : Mem) (a : Nat) : Prop := cells a &&& want a = want a

/-- The address with the place in its word counted from the other end. -/
def mirror (a : Nat) : Nat := a/4*4+(3-a % 4)

/-- Some cell from `lo` to `hi` that cannot take its byte has its mirror image
    from `lo` to `hi` too. -/
def Detected (cells want : Mem) (lo hi : Nat) : Prop :=
  ∃ a, lo ≤ a ∧ a < hi ∧ lo ≤ mirror a ∧ mirror a < hi ∧ ¬ Takes cells want a

theorem programmed_empty (cells want : Mem) (lo : Nat) : programmed cells want lo lo = cells := by
  funext a
  exact if_neg (by omega)

theorem programmed_append (cells want : Mem) {lo mid hi : Nat} (first : lo ≤ mid) (second : mid ≤ hi) :
    programmed (programmed cells want lo mid) want mid hi = programmed cells want lo hi := by
  funext a
  by_cases low : a < mid
  · simp only [programmed,show ¬ (mid ≤ a ∧ a < hi) by omega,if_false,show (lo ≤ a ∧ a < mid) ↔ (lo ≤ a ∧ a < hi) by omega]
  · simp only [programmed,show ¬ (lo ≤ a ∧ a < mid) by omega,if_false,show (mid ≤ a ∧ a < hi) ↔ (lo ≤ a ∧ a < hi) by omega]

/-- Different words do not see each other. -/
theorem detected_split (cells want : Mem) {lo mid hi : Nat} (first : lo ≤ mid) (second : mid ≤ hi)
    (boundary : mid = hi ∨ mid % 4 = 0) :
    Detected cells want lo hi ↔ Detected cells want lo mid ∨ Detected (programmed cells want lo mid) want mid hi := by
  have takes : ∀ a, mid ≤ a → (Takes (programmed cells want lo mid) want a ↔ Takes cells want a) := by
    intro a high
    simp only [Takes,programmed,show ¬ (lo ≤ a ∧ a < mid) by omega,if_false]
  constructor
  · rintro ⟨a,above,below,above',below',fails⟩
    by_cases low : a < mid
    · exact Or.inl ⟨a,above,low,above',by unfold mirror at *; omega,fails⟩
    · exact Or.inr ⟨a,by omega,below,by unfold mirror at *; omega,below',mt (takes a (by omega)).mp fails⟩
  · rintro (⟨a,above,below,above',below',fails⟩ | ⟨a,above,below,above',below',fails⟩)
    · exact ⟨a,above,by omega,above',by omega,fails⟩
    · exact ⟨a,by omega,below,by omega,below',mt (takes a above).mpr fails⟩

theorem not_detected_empty (cells want : Mem) (lo : Nat) : ¬ Detected cells want lo lo := by
  rintro ⟨a,above,below,-⟩
  omega

/-- A word of four bytes goes to the flash most significant byte first. -/
theorem FlashWrite_word (c : Chip) (a : Nat) (w : Word) (i : Nat) :
    (FlashWrite c a (byte w) 4).cells i
      = if address a ≤ i ∧ i < address a+4 then c.cells i &&& byte w (3-(i-address a)) else c.cells i := by
  have wire : (FlashWrite c a (byte w) 4).cells = program c.cells (address a) (sent w) := by
    have cut : address (a % 4294967296) = address a := by
      unfold address
      omega
    have once : (FlashWrite c a (byte w) 4).cells = program c.cells (address a) (List.take 4 (sent w)) := by
      simp [FlashWrite,FlashPageProgram,FlashEnableWr,Chip.record,spi_write_fifo,num_words,List.range_succ,
        FLASH_PAGE_SIZE,cut]
    rw [once]
    rfl
  rw [wire]
  generalize address a = a
  by_cases inWord : a ≤ i ∧ i < a+4
  · obtain ⟨k,rfl⟩ := Nat.exists_eq_add_of_le inWord.1
    obtain rfl | rfl | rfl | rfl : k = 0 ∨ k = 1 ∨ k = 2 ∨ k = 3 := by omega
    all_goals simp [program,sent]
  · rw [if_neg inWord]
    by_cases above : a ≤ i
    · have behind : (sent w)[i-a]? = none := List.getElem?_eq_none (by simp [sent]; omega)
      simp [program,above,behind]
    · simp [program,above]

/-- Turned around by the driver, the bytes of a buffer go to the flash in their order. -/
theorem FlashWrite_turned (c : Chip) (a : Nat) (write_buf : Mem) (i : Nat) :
    (FlashWrite c a (byte (BSWAP_32 (ofBytes write_buf))) 4).cells i
      = if address a ≤ i ∧ i < address a+4 then c.cells i &&& write_buf (i-address a) else c.cells i := by
  rw [FlashWrite_word]
  by_cases inWord : address a ≤ i ∧ i < address a+4
  · have turned : byte (BSWAP_32 (ofBytes write_buf)) (3-(i-address a)) = write_buf (i-address a) := by
      rw [byte_BSWAP_32 _ (by omega),byte_ofBytes _ (by omega)]
      congr 1
      omega
    rw [if_pos inWord,if_pos inWord,turned]
  · rw [if_neg inWord,if_neg inWord]

/-- The data as it is to lie in the flash, by address. -/
def wanted (addr : Nat) (buf : Mem) : Mem := fun a => buf (a-addr)

/-- A word buffer for the part of the data from `lo` to `hi`: the data there, the
    flash elsewhere. -/
def Composed (cells want : Mem) (wordAddr lo hi : Nat) (write_buf : Mem) : Prop :=
  ∀ k < 4, write_buf k = if lo ≤ wordAddr+k ∧ wordAddr+k < hi then want (wordAddr+k) else cells (wordAddr+k)

theorem composed_store {addr index size : Nat} {p : Part} (spec : PartSpec addr index size p) (cells buf write_buf : Mem)
    (base : p.addr_offset > 0 ∨ p.order_len < 4 → ∀ k < 4, write_buf k = cells (p.wordAddr+k)) :
    Composed cells (wanted addr buf) p.wordAddr (addr+index) (addr+index+p.order_len)
      (store write_buf p.addr_offset (window buf index p.order_len)) := by
  intro k inWord
  have start := spec.start
  by_cases data : addr+index ≤ p.wordAddr+k ∧ p.wordAddr+k < addr+index+p.order_len
  · obtain ⟨j,rfl⟩ := Nat.exists_eq_add_of_le (show p.addr_offset ≤ k by omega)
    have short : j < (window buf index p.order_len).length := by
      rw [window_length]
      omega
    rw [if_pos data,store_at write_buf _ short,window_getElem,wanted]
    congr 1
    omega
  · have unfilled : p.addr_offset > 0 ∨ p.order_len < 4 := by omega
    rw [if_neg data,← base unfilled k inWord]
    by_cases before : k < p.addr_offset
    · exact store_below _ before
    · exact store_behind (by rw [window_length]; omega)

/-- Programming a composed word programs its part of the data and nothing else. -/
theorem FlashWrite_composed {cells want write_buf : Mem} {a lo hi : Nat} (c : Chip) (low : a < 2^21)
    (same : c.cells = cells) (above : a ≤ lo) (below : hi ≤ a+4) (composed : Composed cells want a lo hi write_buf) :
    (FlashWrite c a (byte (BSWAP_32 (ofBytes write_buf))) 4).cells = programmed cells want lo hi := by
  funext i
  rw [FlashWrite_turned,address_low low,same]
  by_cases inWord : a ≤ i ∧ i < a+4
  · obtain ⟨k,rfl⟩ := Nat.exists_eq_add_of_le inWord.1
    rw [if_pos inWord,Nat.add_sub_cancel_left,composed k (by omega),programmed]
    by_cases data : lo ≤ a+k ∧ a+k < hi
    · simp only [if_pos data]
    · simp only [if_neg data]
      exact UInt8.and_self
  · rw [if_neg inWord,programmed,if_neg (by omega)]

/-- The comparison fails exactly when it looks at a byte that was not taken. -/
theorem compare_iff {cells want write_buf read_back_buf : Mem} {a ao ol : Nat} (aligned : a % 4 = 0) (inWord : ao+ol ≤ 4)
    (composed : Composed cells want a (a+ao) (a+ao+ol) write_buf)
    (read : ∀ k < 4, read_back_buf k = programmed cells want (a+ao) (a+ao+ol) (a+k)) :
    window (byte (BSWAP_32 (ofBytes write_buf))) ao ol ≠ window (byte (BSWAP_32 (ofBytes read_back_buf))) ao ol
      ↔ Detected cells want (a+ao) (a+ao+ol) := by
  have differ : ∀ k < 4, (write_buf k ≠ read_back_buf k
      ↔ (a+ao ≤ a+k ∧ a+k < a+ao+ol) ∧ ¬ Takes cells want (a+k)) := by
    intro k small
    rw [read k small,composed k small,programmed]
    by_cases data : a+ao ≤ a+k ∧ a+k < a+ao+ol
    · rw [if_pos data,if_pos data,Takes,ne_comm,and_iff_right data]
    · rw [if_neg data,if_neg data]
      exact iff_of_false (fun differs => differs rfl) fun both => data both.1
  have look : ∀ m : Mem, ∀ j < ol, byte (BSWAP_32 (ofBytes m)) (ao+j) = m (3-(ao+j)) := by
    intro m j small
    rw [byte_BSWAP_32 _ (by omega),byte_ofBytes _ (by omega)]
  constructor
  · intro unequal
    by_contra clean
    refine unequal (window_congr fun j small => ?_)
    rw [look _ j small,look _ j small]
    by_contra byteDiffers
    obtain ⟨data,fails⟩ := (differ _ (by omega)).mp byteDiffers
    exact clean ⟨a+(3-(ao+j)),data.1,data.2,by unfold mirror; omega,by unfold mirror; omega,fails⟩
  · rintro ⟨b,above,below,above',below',fails⟩ equal
    obtain ⟨k,rfl⟩ := Nat.exists_eq_add_of_le (show a ≤ b by omega)
    unfold mirror at above' below'
    have agree := window_agree equal (i := 3-k-ao) (by omega)
    rw [look _ _ (by omega),look _ _ (by omega),show 3-(ao+(3-k-ao)) = k by omega] at agree
    exact (differ k (by omega)).mpr ⟨⟨above,below⟩,fails⟩ agree

/-! ### The loop -/

theorem writeBase_spec (turns : Nat) (c : Chip) {p : Part} (low : p.wordAddr < 2^21) (aligned : p.wordAddr % 4 = 0) :
    ∃ c' base, writeBase (turns+1) c p = some (c',base) ∧ c'.cells = c.cells
      ∧ (p.addr_offset > 0 ∨ p.order_len < 4 → ∀ k < 4, base k = c.cells (p.wordAddr+k)) := by
  by_cases short : p.addr_offset > 0 ∨ p.order_len < 4
  · obtain ⟨c',base,result,same,bytes⟩ := read_word turns c low aligned
    exact ⟨c',base,by rw [writeBase,if_pos short,result]; rfl,same,fun _ => bytes⟩
  · exact ⟨c,byte 0,if_neg short,rfl,fun short' => absurd short' short⟩

theorem writeLoop_done (c : Chip) (addr : Nat) (buf : Mem) (turns : Nat) {size index : Nat} (done : ¬ index < size) :
    writeLoop c addr buf size turns index = some (c,RT_EOK) := by
  cases turns <;> simp [writeLoop,done]

/-- One turn programs one part of the data, and stops where it finds a byte that
    was not taken. -/
theorem writeLoop_turn {addr size index : Nat} (inside : addr+size ≤ 2^21) (more : index < size) (c : Chip) (buf : Mem)
    (turns : Nat) :
    ∃ c', c'.cells = programmed c.cells (wanted addr buf) (addr+index) (addr+index+(part addr index size).order_len)
      ∧ (Detected c.cells (wanted addr buf) (addr+index) (addr+index+(part addr index size).order_len) →
        writeLoop c addr buf size (turns+1) index = some (c',-RT_ERROR))
      ∧ (¬ Detected c.cells (wanted addr buf) (addr+index) (addr+index+(part addr index size).order_len) →
        writeLoop c addr buf size (turns+1) index
          = writeLoop c' addr buf size turns (index+(part addr index size).order_len)) := by
  have spec := part_spec inside more
  generalize shape : part addr index size = p at spec
  have start := spec.start
  have inWord := spec.inWord
  obtain ⟨c₁,base,loaded,same,filled⟩ := writeBase_spec turns c spec.low spec.aligned
  have composed := composed_store spec c.cells buf base filled
  have written := FlashWrite_composed (int_disable c₁) spec.low same (by omega) (by omega) composed
  obtain ⟨c',back,result,same',bytes⟩ := read_word turns
    (int_enable (FlashWrite (int_disable c₁) p.wordAddr
      (byte (BSWAP_32 (ofBytes (store base p.addr_offset (window buf index p.order_len))))) 4)) spec.low spec.aligned
  have cells : c'.cells = programmed c.cells (wanted addr buf) (addr+index) (addr+index+p.order_len) :=
    same'.trans written
  rw [← start] at composed cells ⊢
  have compare := compare_iff spec.aligned inWord composed
    (fun k small => (bytes k small).trans (congrFun (same'.symm.trans cells) _) : ∀ k < 4, back k = _)
  refine ⟨c',cells,?_,?_⟩
  · intro detected
    simp only [writeLoop,if_pos more,shape,loaded,result,Option.bind_eq_bind,Option.bind_some]
    rw [if_pos (compare.mpr detected)]
  · intro clean
    simp only [writeLoop,if_pos more,shape,loaded,result,Option.bind_eq_bind,Option.bind_some]
    rw [if_neg (mt compare.mp clean),spec.next]

theorem writeLoop_spec {addr size : Nat} (inside : addr+size ≤ 2^21) (buf : Mem) (turns : Nat) :
    ∀ (c : Chip) (index : Nat), index ≤ size → size-index ≤ turns →
    ∃ c' result, writeLoop c addr buf size turns index = some (c',result)
      ∧ (Detected c.cells (wanted addr buf) (addr+index) (addr+size) → result = -RT_ERROR)
      ∧ (¬ Detected c.cells (wanted addr buf) (addr+index) (addr+size) →
        result = RT_EOK ∧ c'.cells = programmed c.cells (wanted addr buf) (addr+index) (addr+size)) := by
  have finished : ∀ (c : Chip) (turns : Nat), ∃ c' result, writeLoop c addr buf size turns size = some (c',result)
      ∧ (Detected c.cells (wanted addr buf) (addr+size) (addr+size) → result = -RT_ERROR)
      ∧ (¬ Detected c.cells (wanted addr buf) (addr+size) (addr+size) →
        result = RT_EOK ∧ c'.cells = programmed c.cells (wanted addr buf) (addr+size) (addr+size)) := by
    intro c turns
    refine ⟨c,RT_EOK,writeLoop_done c addr buf turns (by omega),?_,?_⟩
    · intro detected
      exact absurd detected (not_detected_empty _ _ _)
    · intro _
      exact ⟨rfl,(programmed_empty _ _ _).symm⟩
  induction turns with
  | zero =>
    intro c index le enough
    obtain rfl : index = size := by omega
    exact finished c 0
  | succ turns ih =>
    intro c index le enough
    by_cases more : index < size
    · have spec := part_spec inside more
      obtain ⟨c₁,cells,found,clean⟩ := writeLoop_turn inside more c buf turns
      generalize part addr index size = p at spec cells found clean
      have inData := spec.inData
      have moves := spec.moves
      have boundary : addr+index+p.order_len = addr+size ∨ (addr+index+p.order_len) % 4 = 0 := by
        have := spec.ends
        have := spec.start
        have := spec.aligned
        omega
      have first : addr+index ≤ addr+index+p.order_len := by omega
      have second : addr+index+p.order_len ≤ addr+size := by omega
      have split := detected_split c.cells (wanted addr buf) first second boundary
      by_cases now : Detected c.cells (wanted addr buf) (addr+index) (addr+index+p.order_len)
      · refine ⟨c₁,-RT_ERROR,found now,fun _ => rfl,?_⟩
        intro none
        exact absurd (split.mpr (Or.inl now)) none
      · obtain ⟨c',result,run,later,ok⟩ := ih c₁ (index+p.order_len) inData (by omega)
        rw [cells,← Nat.add_assoc] at later ok
        refine ⟨c',result,(clean now).trans run,?_,?_⟩
        · intro detected
          exact later ((split.mp detected).resolve_left now)
        · intro none
          obtain ⟨eok,after⟩ := ok fun detected => none (split.mpr (Or.inr detected))
          exact ⟨eok,after.trans (programmed_append _ _ (by omega) (by omega))⟩
    · obtain rfl : index = size := by omega
      exact finished c _

/-! ### Whole writes -/

/-- Within the chip a write always comes to an end; it fails when it detects a
    byte that was not taken, and has programmed all its data otherwise. -/
theorem write_spec {turns offset size : Nat} (c : Chip) (buf : Mem) (inside : offset+size ≤ 2^21) (enough : size ≤ turns) :
    ∃ c' ret, onchip_flash_write turns c offset buf size = some (c',ret)
      ∧ (Detected c.cells (wanted offset buf) offset (offset+size) → ret = -RT_ERROR)
      ∧ (¬ Detected c.cells (wanted offset buf) offset (offset+size) →
        ret = size ∧ c'.cells = programmed c.cells (wanted offset buf) offset (offset+size)) := by
  have addr : offset % 2^32 = offset := by omega
  have fits : ¬ (offset+size) % 2^32 > FLASH_SECTOR_SIZE*FLASH_SECTOR_OF_CHIP := by
    simp only [FLASH_SECTOR_SIZE,FLASH_SECTOR_OF_CHIP]
    omega
  have value := toInt_small (show size ≤ 2^21 by omega)
  by_cases empty : size < 1
  · obtain rfl : size = 0 := by omega
    refine ⟨c,0,by simp [onchip_flash_write,FLASH_SECTOR_SIZE,FLASH_SECTOR_OF_CHIP]; omega,?_,?_⟩
    · intro detected
      exact absurd detected (not_detected_empty _ _ _)
    · intro _
      exact ⟨rfl,(programmed_empty _ _ _).symm⟩
  · obtain ⟨c',result,run,found,clean⟩ := writeLoop_spec inside buf turns c 0 (by omega) (by omega)
    rw [Nat.add_zero] at found clean
    refine ⟨c',if result ≠ RT_EOK then result else size,?_,?_,?_⟩
    · simp only [onchip_flash_write,addr,if_neg fits,if_neg empty,run,Option.map_some,value]
    · intro detected
      rw [found detected]
      rfl
    · intro none
      obtain ⟨eok,cells⟩ := clean none
      exact ⟨by rw [eok]; rfl,cells⟩

/-- Data that the cells can take is written exactly, and nothing else is changed. -/
theorem write_exact {turns offset size : Nat} (c : Chip) (buf : Mem) (inside : offset+size ≤ 2^21)
    (takes : ∀ i < size, c.cells (offset+i) &&& buf i = buf i) (enough : size ≤ turns) :
    ∃ c', onchip_flash_write turns c offset buf size = some (c',(size : Int))
      ∧ (∀ i < size, c'.cells (offset+i) = buf i)
      ∧ ∀ a, a < offset ∨ offset+size ≤ a → c'.cells a = c.cells a := by
  obtain ⟨c',ret,run,-,clean⟩ := write_spec c buf inside enough
  have none : ¬ Detected c.cells (wanted offset buf) offset (offset+size) := by
    rintro ⟨a,above,below,-,-,fails⟩
    obtain ⟨i,rfl⟩ := Nat.exists_eq_add_of_le above
    refine fails ?_
    rw [Takes,wanted,Nat.add_sub_cancel_left]
    exact takes i (by omega)
  obtain ⟨rfl,cells⟩ := clean none
  refine ⟨c',run,?_,?_⟩
  · intro i small
    rw [cells,programmed,if_pos (by omega),wanted,Nat.add_sub_cancel_left]
    exact takes i small
  · intro a outside
    rw [cells,programmed,if_neg (by omega)]

/-- An erased chip. -/
def erased : Chip := ⟨fun _ => 0xff,true,[]⟩

/-- Three bytes over a word boundary of an erased chip. -/
theorem write_exact_erased :
    ∃ c', onchip_flash_write 3 erased 2 (fun i => UInt8.ofNat (i+1)) 3 = some (c',((3 : Nat) : Int))
      ∧ (∀ i < 3, c'.cells (2+i) = UInt8.ofNat (i+1)) ∧ ∀ a, a < 2 ∨ 2+3 ≤ a → c'.cells a = erased.cells a :=
  write_exact erased _ (by decide) (by decide) (by decide)

/-- A write that reports success has written its data, whatever was there,
    exactly when the cells can take all of it or there is a byte that they cannot
    take and whose mirror image in its word belongs to the data too. -/
theorem write_honest_iff {turns offset size : Nat} (c : Chip) (buf : Mem) (inside : offset+size ≤ 2^21)
    (enough : size ≤ turns) :
    ∃ c' ret, onchip_flash_write turns c offset buf size = some (c',ret)
      ∧ ((ret = size → ∀ i < size, c'.cells (offset+i) = buf i)
        ↔ (∀ i < size, c.cells (offset+i) &&& buf i = buf i)
          ∨ ∃ i < size, c.cells (offset+i) &&& buf i ≠ buf i
            ∧ offset ≤ mirror (offset+i) ∧ mirror (offset+i) < offset+size) := by
  obtain ⟨c',ret,run,found,clean⟩ := write_spec c buf inside enough
  have detected_iff : Detected c.cells (wanted offset buf) offset (offset+size) ↔ ∃ i < size,
      c.cells (offset+i) &&& buf i ≠ buf i ∧ offset ≤ mirror (offset+i) ∧ mirror (offset+i) < offset+size := by
    constructor
    · rintro ⟨a,above,below,above',below',fails⟩
      obtain ⟨i,rfl⟩ := Nat.exists_eq_add_of_le above
      rw [Takes,wanted,Nat.add_sub_cancel_left] at fails
      exact ⟨i,by omega,fails,above',below'⟩
    · rintro ⟨i,small,fails,above,below⟩
      refine ⟨offset+i,by omega,by omega,above,below,?_⟩
      rwa [Takes,wanted,Nat.add_sub_cancel_left]
  refine ⟨c',ret,run,?_⟩
  rw [← detected_iff]
  by_cases detected : Detected c.cells (wanted offset buf) offset (offset+size)
  · have failed : ret ≠ size := by
      rw [found detected,RT_ERROR]
      omega
    exact iff_of_true (fun success => absurd success failed) (Or.inr detected)
  · obtain ⟨success,cells⟩ := clean detected
    have written : ∀ i < size, c'.cells (offset+i) = c.cells (offset+i) &&& buf i := by
      intro i small
      rw [cells,programmed,if_pos (by omega),wanted,Nat.add_sub_cancel_left]
    constructor
    · intro honest
      exact Or.inl fun i small => (written i small).symm.trans (honest success i small)
    · rintro (takes | found) _ i small
      · exact (written i small).trans (takes i small)
      · exact absurd found detected

/-- A chip with all bits programmed. -/
def worn : Chip := ⟨fun _ => 0,true,[]⟩

/-- A whole word that the chip cannot take is found out. -/
theorem write_honest_worn :
    ∃ c' ret, onchip_flash_write 4 worn 0 (fun _ => 0xff) 4 = some (c',ret)
      ∧ ((ret = (4 : Nat) → ∀ i < 4, c'.cells (0+i) = 0xff)
        ↔ (∀ i < 4, worn.cells (0+i) &&& 0xff = 0xff)
          ∨ ∃ i < 4, worn.cells (0+i) &&& 0xff ≠ 0xff ∧ 0 ≤ mirror (0+i) ∧ mirror (0+i) < 0+4) :=
  write_honest_iff worn _ (by decide) (by decide)

/-- One byte at the start of a word is not looked at: the write returns 1, and the
    cell is still 0. -/
theorem write_dishonest :
    ((onchip_flash_write 1 worn 0 (fun _ => 0xff) 1).map fun (c,ret) => (c.cells 0,ret)) = some (0,1) := by
  decide +kernel

end Ucm108e.Programming
