import Mathlib
import Ucm108e.RtDef
import Ucm108e.Words

/-!
The on-chip flash: `drv_onchip_flash.c` over `uc_spi_flash.c` and `uc_spi.c`. The
chip is a NOR flash, whose cells lose bits when they are programmed. The SPI
controller sends and receives each word most significant byte first, and the
driver turns the bytes of each word around.
-/
namespace Ucm108e.Flash
open Ucm108e.Bytes Ucm108e.Words
set_option linter.unusedSimpArgs false

/-- What the SPI controller is asked to do. -/
inductive Operation where
  | enableWr
  | pageProgram (nAddr : Nat) (data : List UInt8)
  | read (nAddr len : Nat)
  | eraseSector (nBaseAddr : Nat)
  deriving DecidableEq

/-- The cells of the flash and the interrupt enable bit of the processor, with the
    operations so far and the bit during each. -/
structure Chip where
  cells : Mem
  mie : Bool
  operations : List (Operation × Bool)

def Chip.record (c : Chip) (op : Operation) : Chip := { c with operations := c.operations ++ [(op,c.mie)] }

def int_disable (c : Chip) : Chip := { c with mie := false }
def int_enable (c : Chip) : Chip := { c with mie := true }

/-! ### SPI transfers -/

/-- Number of words that `spi_write_fifo` and `spi_read_fifo` move for a number of bits. -/
def num_words (datalen : Nat) : Nat := (datalen/32) % 2048 + if datalen % 32 ≠ 0 then 1 else 0

/-- The words that `spi_write_fifo` puts into the fifo. -/
def spi_write_fifo (data : Mem) (datalen : Nat) : List Word :=
  (List.range (num_words datalen)).map fun i => ofBytes (shift data (4*i))

/-- The bytes that the controller makes of a word. -/
def sent (w : Word) : List UInt8 := [byte w 3,byte w 2,byte w 1,byte w 0]

/-- The words that `spi_read_fifo` finds in the fifo when the flash sends the
    bytes from `a` on. -/
def spi_read_fifo (cells : Mem) (a datalen : Nat) : List Word :=
  (List.range (num_words datalen)).map fun i => ofBytes fun k => cells (a+4*i+(3-k))

/-- Programming clears the bits that are zero in the new byte. -/
def program (cells : Mem) (a : Nat) (data : List UInt8) : Mem :=
  fun i => if a ≤ i then ((data[i-a]?).map (cells i &&& ·)).getD (cells i) else cells i

/-- The address that `nAddr << 8` leaves in the address register. -/
def address (nAddr : Nat) : Nat := nAddr % 2^24

def FlashEnableWr (c : Chip) : Chip := c.record .enableWr

def FlashPageProgram (c : Chip) (nAddr : Nat) (pData : Mem) (usLen : Nat) : Chip :=
  let data := ((spi_write_fifo pData (usLen*8)).flatMap sent).take usLen
  let c := c.record (.pageProgram nAddr data)
  { c with cells := program c.cells (address nAddr) data }

def FLASH_SECTOR_SIZE : Nat := 4096
def FLASH_SECTOR_OF_CHIP : Nat := 512

/-- Erasing sets all bits of the sector that the address lies in. -/
def FlashEraseSector (c : Chip) (nBaseAddr : Nat) : Chip :=
  let c := (FlashEnableWr c).record (.eraseSector nBaseAddr)
  { c with cells := fun i => if i/FLASH_SECTOR_SIZE = address nBaseAddr/FLASH_SECTOR_SIZE then 0xff else c.cells i }

def FLASH_PAGE_SIZE : Nat := 256

def FlashWrite (c : Chip) (nAddr : Nat) (pData : Mem) (usLen : Nat) : Chip :=
  let usPage := if usLen % 256 > 0 then usLen/256+1 else usLen/256
  (List.range usPage).foldl (fun c i =>
    let nTmp := i*256
    let usLenTmp := if usLen ≥ nTmp+FLASH_PAGE_SIZE then FLASH_PAGE_SIZE else usLen-nTmp
    FlashPageProgram (FlashEnableWr c) ((nAddr+nTmp) % 2^32) (shift pData nTmp) usLenTmp) c

def FlashQRead (c : Chip) (nAddr usLen : Nat) : Chip × List Word :=
  (c.record (.read nAddr usLen),spi_read_fifo c.cells (address nAddr) (usLen*8))

/-! ### The driver -/

def BSWAP_32 (x : Word) : Word :=
  ((x &&& 0xff000000#32) >>> 24) ||| ((x &&& 0x00ff0000#32) >>> 8)
    ||| ((x &&& 0x0000ff00#32) <<< 8) ||| ((x &&& 0x000000ff#32) <<< 24)

/-- What each turn of the two loops works out from the address, `index` and
    `size`: the address of the word, where in it the data begins, and how much
    of the data it holds. All variables have 32 bits. -/
structure Part where
  wordAddr : Nat
  addr_offset : Nat
  order_len : Nat

def part (addr index size : Nat) : Part :=
  let here := (addr+index) % 2^32
  let addr_offset := here % 4
  ⟨here/4*4,addr_offset,if (index+4-addr_offset) % 2^32 > size then size-index else 4-addr_offset⟩

/-- The loop of `onchip_flash_read`; `none` when it needs more turns. -/
def readLoop (c : Chip) (addr : Nat) (buf : Mem) (size : Nat) : Nat → Nat → Option (Chip × Mem)
  | 0, index => if index < size then none else some (c,buf)
  | turns+1, index =>
    if index < size then
      let p := part addr index size
      let (c,words) := FlashQRead (int_disable c) p.wordAddr 4
      let c := int_enable c
      let read_data := BSWAP_32 (words.headD 0)
      let buf := store buf index (window (byte read_data) p.addr_offset p.order_len)
      readLoop c addr buf size turns ((index+p.order_len) % 2^32)
    else some (c,buf)

def onchip_flash_read (turns : Nat) (c : Chip) (offset : Nat) (buf : Mem) (size : Nat) : Option (Chip × Mem × Int) :=
  (readLoop c (offset % 2^32) buf size turns 0).map fun (c,buf) => (c,buf,(BitVec.ofNat 32 size).toInt)

/-- `write_buf` before the data is put in: the word of the flash when the data
    does not fill it. -/
def writeBase (turns : Nat) (c : Chip) (p : Part) : Option (Chip × Mem) :=
  if p.addr_offset > 0 ∨ p.order_len < 4 then
    (onchip_flash_read turns c p.wordAddr (byte 0) 4).map fun (c,read_buf,_) => (c,read_buf)
  else some (c,byte 0)

/-- The loop of `onchip_flash_write`; the result is `result`. -/
def writeLoop (c : Chip) (addr : Nat) (buf : Mem) (size : Nat) : Nat → Nat → Option (Chip × Int)
  | 0, index => if index < size then none else some (c,RT_EOK)
  | turns+1, index =>
    if index < size then do
      let p := part addr index size
      let (c,write_buf) ← writeBase (turns+1) c p
      let write_buf := store write_buf p.addr_offset (window buf index p.order_len)
      let write_data := BSWAP_32 (ofBytes write_buf)
      let c := int_enable (FlashWrite (int_disable c) p.wordAddr (byte write_data) 4)
      let (c,read_back_buf,_) ← onchip_flash_read (turns+1) c p.wordAddr (byte 0) 4
      let read_back_data := BSWAP_32 (ofBytes read_back_buf)
      if window (byte write_data) p.addr_offset p.order_len ≠ window (byte read_back_data) p.addr_offset p.order_len
      then some (c,-RT_ERROR)
      else writeLoop c addr buf size turns ((index+p.order_len) % 2^32)
    else some (c,RT_EOK)

def onchip_flash_write (turns : Nat) (c : Chip) (offset : Nat) (buf : Mem) (size : Nat) : Option (Chip × Int) :=
  let addr := offset % 2^32
  let end_addr := (addr+size) % 2^32
  if end_addr > FLASH_SECTOR_SIZE*FLASH_SECTOR_OF_CHIP then some (c,-RT_EINVAL)
  else if size < 1 then some (c,(BitVec.ofNat 32 size).toInt)
  else (writeLoop c addr buf size turns 0).map fun (c,result) =>
    (c,if result ≠ RT_EOK then result else (BitVec.ofNat 32 size).toInt)

/-- The loop of `onchip_flash_erase`; `index` has 32 bits like `size`. -/
def eraseLoop (c : Chip) (addr size : Nat) : Nat → Nat → Option Chip
  | 0, index => if index < size then none else some c
  | turns+1, index =>
    if index < size then
      eraseLoop (int_enable (FlashEraseSector (int_disable c) ((addr+index) % 2^32))) addr size turns
        ((index+FLASH_SECTOR_SIZE) % 2^32)
    else some c

/-- Nothing in the loop changes `result`, so that `size` is always returned. -/
def onchip_flash_erase (turns : Nat) (c : Chip) (offset size : Nat) : Option (Chip × Int) :=
  let addr := offset % 2^32/FLASH_SECTOR_SIZE*FLASH_SECTOR_SIZE
  (eraseLoop c addr size turns 0).map fun c => (c,(BitVec.ofNat 32 size).toInt)

/-! ### One word -/

theorem byte_BSWAP_32 (w : Word) {k : Nat} (inside : k < 4) : byte (BSWAP_32 w) k = byte w (3-k) := by
  refine byte_ext fun i small => ?_
  rw [byte_getLsbD,byte_getLsbD]
  obtain rfl | rfl | rfl | rfl : k = 0 ∨ k = 1 ∨ k = 2 ∨ k = 3 := by omega
  all_goals
    obtain rfl | rfl | rfl | rfl | rfl | rfl | rfl | rfl :
      i = 0 ∨ i = 1 ∨ i = 2 ∨ i = 3 ∨ i = 4 ∨ i = 5 ∨ i = 6 ∨ i = 7 := by omega
  all_goals simp [BSWAP_32]

end Ucm108e.Flash
